/-
**Machines, runs and invariants.**

A machine is a set of initial states and a step function that is told, by an input, everything that
the outside world decides: which request arrives, what a clock says, which message is lost.  A run
is a list of inputs.  What is proved of a machine is proved once about one step, and then holds
along every run.

Some properties hold only of runs whose steps avoid a certain situation.  Reachability is therefore
relative to a guard `ok` on the steps, and plain reachability is the case of the guard that accepts
everything.

Main definitions:

* `Machine`, `Machine.exec` — machines, and the state after a list of inputs;
* `Machine.Leads`, `Machine.Reach`, `Machine.Reachable` — runs from a state, guarded reachability
  and reachability;
* `Machine.Guarded` — a list of inputs whose steps satisfy a guard.

Main results:

* `Machine.Reach.invariant` — **an invariant holds in every reachable state**;
* `Machine.Leads.invariant` — and in every later state.
-/

import Mathlib.Logic.Relation

set_option relaxedAutoImplicit false
set_option autoImplicit false

/-- Initial states, and a step for every state and input. -/
structure Machine (σ ι : Type*) where
  /-- The initial states. -/
  init : σ → Prop
  /-- The step. -/
  step : σ → ι → σ

namespace Machine

variable {σ ι : Type*} (m : Machine σ ι)

/-- The state after a list of inputs. -/
def exec (s : σ) (l : List ι) : σ := l.foldl m.step s

@[simp] theorem exec_nil (s : σ) : m.exec s [] = s := rfl

@[simp] theorem exec_cons (s : σ) (i : ι) (l : List ι) :
    m.exec s (i :: l) = m.exec (m.step s i) l := rfl

theorem exec_append (s : σ) (l l' : List ι) : m.exec s (l ++ l') = m.exec (m.exec s l) l' :=
  List.foldl_append

/-- Runs whose steps all satisfy the guard `ok`. -/
inductive Leads (ok : σ → ι → Prop) (s : σ) : σ → Prop
  | refl : Leads ok s s
  | tail {t : σ} {i : ι} : Leads ok s t → ok t i → Leads ok s (m.step t i)

/-- The states that guarded runs reach from an initial state. -/
def Reach (ok : σ → ι → Prop) (s : σ) : Prop := ∃ s₀, m.init s₀ ∧ m.Leads ok s₀ s

/-- The reachable states. -/
def Reachable (s : σ) : Prop := m.Reach (fun _ _ => True) s

variable {m} {ok ok' : σ → ι → Prop} {s t u : σ}

theorem Leads.trans (h : m.Leads ok s t) (h' : m.Leads ok t u) : m.Leads ok s u := by
  induction h' with
  | refl => exact h
  | tail _ hi ih => exact ih.tail hi

theorem Leads.mono (h : m.Leads ok s t) (hok : ∀ s i, ok s i → ok' s i) : m.Leads ok' s t := by
  induction h with
  | refl => exact Leads.refl
  | tail _ hi ih => exact ih.tail (hok _ _ hi)

/-- **What every step preserves holds in every later state.** -/
theorem Leads.invariant {I : σ → Prop} (h : m.Leads ok s t) (hs : I s)
    (hstep : ∀ t i, I t → ok t i → I (m.step t i)) : I t := by
  induction h with
  | refl => exact hs
  | tail _ hi ih => exact hstep _ _ ih hi

/-- Every list of inputs is an unguarded run. -/
theorem leads_exec (s : σ) (l : List ι) : m.Leads (fun _ _ => True) s (m.exec s l) := by
  induction l generalizing s with
  | nil => exact Leads.refl
  | cons i l ih => exact (Leads.refl.tail trivial).trans (ih (m.step s i))

/-- Every step of the run `l` from `s` satisfies the guard. -/
def Guarded (m : Machine σ ι) (ok : σ → ι → Prop) : σ → List ι → Prop
  | _, [] => True
  | s, i :: l => ok s i ∧ Guarded m ok (m.step s i) l

theorem leads_of_guarded {l : List ι} (h : m.Guarded ok s l) : m.Leads ok s (m.exec s l) := by
  induction l generalizing s with
  | nil => exact Leads.refl
  | cons i l ih => exact (Leads.refl.tail h.1).trans (ih h.2)

theorem leads_of_forall {good : ι → Prop} {l : List ι} (s : σ) (h : ∀ i ∈ l, good i) :
    m.Leads (fun _ i => good i) s (m.exec s l) := by
  induction l generalizing s with
  | nil => exact Leads.refl
  | cons i l ih =>
      exact (Leads.refl.tail (h i List.mem_cons_self)).trans
        (ih (m.step s i) fun j hj => h j (List.mem_cons_of_mem _ hj))

theorem Reach.of_init (h : m.init s) : m.Reach ok s := ⟨s, h, Leads.refl⟩

theorem Reach.leads (h : m.Reach ok s) (h' : m.Leads ok s t) : m.Reach ok t := by
  obtain ⟨s₀, hs₀, hl⟩ := h
  exact ⟨s₀, hs₀, hl.trans h'⟩

theorem Reach.step {i : ι} (h : m.Reach ok s) (hi : ok s i) : m.Reach ok (m.step s i) :=
  h.leads (Leads.refl.tail hi)

theorem Reach.mono (h : m.Reach ok s) (hok : ∀ s i, ok s i → ok' s i) : m.Reach ok' s := by
  obtain ⟨s₀, hs₀, hl⟩ := h
  exact ⟨s₀, hs₀, hl.mono hok⟩

theorem Reach.reachable (h : m.Reach ok s) : m.Reachable s := h.mono fun _ _ _ => trivial

/-- The guarded runs of one machine are runs of another one that takes the same steps. -/
theorem Reach.of_step {m' : Machine σ ι} (h : m.Reach ok s) (hinit : ∀ s, m.init s → m'.init s)
    (hstep : ∀ s i, ok s i → m'.step s i = m.step s i) : m'.Reachable s := by
  obtain ⟨s₀, hs₀, hleads⟩ := h
  refine ⟨s₀, hinit s₀ hs₀, ?_⟩
  induction hleads with
  | refl => exact Leads.refl
  | tail _ hi ih =>
      rw [← hstep _ _ hi]
      exact ih.tail trivial

theorem Reachable.step (h : m.Reachable s) (i : ι) : m.Reachable (m.step s i) :=
  Reach.step h trivial

theorem Reachable.exec (h : m.Reachable s) (l : List ι) : m.Reachable (m.exec s l) :=
  Reach.leads h (leads_exec s l)

/-- **What holds initially and is preserved by every step of a reachable state holds in every
reachable state.** -/
theorem Reach.invariant {I : σ → Prop} (h : m.Reach ok s) (hinit : ∀ s, m.init s → I s)
    (hstep : ∀ s i, m.Reach ok s → I s → ok s i → I (m.step s i)) : I s := by
  obtain ⟨s₀, hs₀, hl⟩ := h
  have key : m.Reach ok s ∧ I s := by
    induction hl with
    | refl => exact ⟨Reach.of_init hs₀, hinit s₀ hs₀⟩
    | tail _ hi ih => exact ⟨ih.1.step hi, hstep _ _ ih.1 ih.2 hi⟩
  exact key.2

/-- An invariant of the unguarded machine. -/
theorem Reachable.invariant {I : σ → Prop} (h : m.Reachable s) (hinit : ∀ s, m.init s → I s)
    (hstep : ∀ s i, m.Reachable s → I s → I (m.step s i)) : I s :=
  Reach.invariant h hinit fun s i hs hI _ => hstep s i hs hI

end Machine
