/-
**Threads over a shared state.**

Several threads run programs that work on one shared state.  At any moment one of them goes on: an
idle thread takes up a new program, any other performs its next operation.  What the operation is
answered and what it does to the state may depend on a choice of the environment, and an operation
that waits for something cannot be performed before the state allows it.

Such a system is verified the way Owicki and Gries do it.  One invariant speaks of the shared state
and of what every thread currently knows, the *note* of the thread.  A program is outlined by
saying how its operations change the note of its own thread; that the invariant is preserved by
every operation under the notes of all threads takes the place of the interference checks.

Main definitions:

* `Threads`, `Threads.machine` — threads, and the machine whose inputs say which thread goes on;
* `Threads.Outline` — an outline of a program, from a note to a postcondition.

Main results:

* `Threads.outline_bind`, `Threads.Outline.mono` — outlines are composed like the programs;
* `Threads.leads_of_step`, `Threads.invariant_of_step` — an invariant of the shared state, the notes
  and the programs;
* `Threads.invariant`, `Threads.invariant_of_guard` — **if all programs that threads take up have
  outlines, then the invariant holds in every reachable state**.
-/

import CatAgent.Machine
import CatAgent.Program
import Mathlib.Logic.Function.Basic

set_option relaxedAutoImplicit false
set_option autoImplicit false

universe u

/-- The threads `ι` of a system with the shared state `σ`: what an idle thread takes up and what an
operation does, given a choice `o : O` of the environment, unless it is impossible at the time. -/
structure Threads (ι : Type) (E : Type u) (A : E → Type) (O : Type) (σ : Type) where
  init : σ → Prop
  starts : ι → O → σ → Option (Program E A Unit × σ)
  handle : ι → (e : E) → O → σ → Option (A e × σ)

namespace Threads

variable {ι : Type} {E : Type u} {A : E → Type} {O σ L : Type} {α β : Type}

/-- The shared state, and the rest of every thread's program. -/
structure Config (ι : Type) (E : Type u) (A : E → Type) (σ : Type) where
  state : σ
  threads : ι → Program E A Unit

section Machine

variable [DecidableEq ι] (t : Threads ι E A O σ)

/-- One thread goes on. -/
def step (c : Config ι E A σ) (i : ι) (o : O) : Config ι E A σ :=
  match c.threads i with
  | Program.done _ =>
      match t.starts i o c.state with
      | none => c
      | some (p, s) => ⟨s, Function.update c.threads i p⟩
  | Program.perform e next =>
      match t.handle i e o c.state with
      | none => c
      | some (x, s) => ⟨s, Function.update c.threads i (next x)⟩

/-- The machine of the system: an input says which thread goes on, and what the environment
chooses. -/
def machine : Machine (Config ι E A σ) (ι × O) where
  init := fun c => t.init c.state ∧ ∀ i, c.threads i = Program.done ()
  step := fun c i => t.step c i.1 i.2

/-- What can happen when a thread is asked to go on. -/
theorem step_cases (c : Config ι E A σ) (i : ι) (o : O) :
    t.step c i o = c ∨
    (∃ a p s', c.threads i = Program.done a ∧ t.starts i o c.state = some (p, s') ∧
      t.step c i o = ⟨s', Function.update c.threads i p⟩) ∨
    (∃ e next x s', c.threads i = Program.perform e next ∧
      t.handle i e o c.state = some (x, s') ∧
      t.step c i o = ⟨s', Function.update c.threads i (next x)⟩) := by
  unfold step
  cases hthread : c.threads i with
  | done a =>
      cases hstart : t.starts i o c.state with
      | none => exact Or.inl rfl
      | some r => exact Or.inr (Or.inl ⟨a, r.1, r.2, rfl, rfl, rfl⟩)
  | perform e next =>
      cases hx : t.handle i e o c.state with
      | none => exact Or.inl (by simp only [hx])
      | some r => exact Or.inr (Or.inr ⟨e, next, r.1, r.2, rfl, hx, by simp only [hx]⟩)

/-- The thread goes on until it is idle, for so many operations at most; `answer` is what the
environment chooses. -/
def proceed (answer : E → O) (i : ι) : Nat → Config ι E A σ → Config ι E A σ
  | 0, c => c
  | n + 1, c =>
      match c.threads i with
      | Program.done _ => c
      | Program.perform e _ => proceed answer i n (t.step c i (answer e))

/-- A thread takes up a program and goes on until it is idle. -/
def turn (n : Nat) (c : Config ι E A σ) (r : ι × O × (E → O)) : Config ι E A σ :=
  t.proceed r.2.2 r.1 n (t.step c r.1 r.2.1)

/-- The steps of `proceed`. -/
def proceedSteps (answer : E → O) (i : ι) : Nat → Config ι E A σ → List (ι × O)
  | 0, _ => []
  | n + 1, c =>
      match c.threads i with
      | Program.done _ => []
      | Program.perform e _ => (i, answer e) :: proceedSteps answer i n (t.step c i (answer e))

/-- The steps of turns that are taken one after the other. -/
def turnSteps (n : Nat) : Config ι E A σ → List (ι × O × (E → O)) → List (ι × O)
  | _, [] => []
  | c, r :: l => (r.1, r.2.1) :: t.proceedSteps r.2.2 r.1 n (t.step c r.1 r.2.1) ++
      turnSteps n (t.turn n c r) l

variable {t}

theorem mem_proceedSteps {answer : E → O} {i : ι} {n : Nat} {c : Config ι E A σ} {x : ι × O}
    (h : x ∈ t.proceedSteps answer i n c) : ∃ e, x = (i, answer e) := by
  induction n generalizing c with
  | zero => cases h
  | succ n ih =>
      unfold proceedSteps at h
      split at h
      next => cases h
      next e _ _ =>
        rcases List.mem_cons.1 h with rfl | h
        · exact ⟨e, rfl⟩
        · exact ih h

/-- A step of a turn is its first one or answers an operation. -/
theorem mem_turnSteps {n : Nat} {c : Config ι E A σ} {l : List (ι × O × (E → O))} {x : ι × O}
    (h : x ∈ t.turnSteps n c l) : ∃ r ∈ l, x = (r.1, r.2.1) ∨ ∃ e, x = (r.1, r.2.2 e) := by
  induction l generalizing c with
  | nil => cases h
  | cons r l ih =>
      rcases List.mem_cons.1 h with rfl | h
      · exact ⟨r, List.mem_cons_self, Or.inl rfl⟩
      · rcases List.mem_append.1 h with h | h
        · exact ⟨r, List.mem_cons_self, Or.inr (mem_proceedSteps h)⟩
        · obtain ⟨r', hr', hx⟩ := ih h
          exact ⟨r', List.mem_cons_of_mem _ hr', hx⟩

theorem reach_proceed {ok : Config ι E A σ → ι × O → Prop} {c : Config ι E A σ}
    (h : t.machine.Reach ok c) (answer : E → O) (i : ι) (n : Nat)
    (hok : ∀ c e, ok c (i, answer e)) : t.machine.Reach ok (t.proceed answer i n c) := by
  induction n generalizing c with
  | zero => exact h
  | succ n ih =>
      unfold proceed
      split
      next => exact h
      next e _ _ => exact ih (h.step (hok c e))

/-- **Taking turns leads to states that are reached**, as far as the guard admits the turns. -/
theorem reach_turns {ok : Config ι E A σ → ι × O → Prop} {c : Config ι E A σ}
    (h : t.machine.Reach ok c) (n : Nat) (l : List (ι × O × (E → O)))
    (hok : ∀ r ∈ l, ∀ c, ok c (r.1, r.2.1) ∧ ∀ e, ok c (r.1, r.2.2 e)) :
    t.machine.Reach ok (l.foldl (t.turn n) c) := by
  induction l generalizing c with
  | nil => exact h
  | cons r l ih =>
      have hr := hok r List.mem_cons_self
      refine ih (reach_proceed (h.step (hr c).1) r.2.2 r.1 n fun c => (hr c).2) ?_
      exact fun r' hr' => hok r' (List.mem_cons_of_mem _ hr')

theorem reachable_turns {c : Config ι E A σ} (h : t.machine.Reachable c) (n : Nat)
    (l : List (ι × O × (E → O))) : t.machine.Reachable (l.foldl (t.turn n) c) :=
  reach_turns h n l fun _ _ _ => ⟨trivial, fun _ => trivial⟩

end Machine

/-! ### Outlines -/

variable [DecidableEq ι] {t : Threads ι E A O σ} {Inv : σ → (ι → L) → Prop} {i : ι}

variable (t Inv i) in
/-- The program, started by thread `i` with the note `l`, keeps the invariant, and when it returns
the value and the note of the thread satisfy `Q`. -/
def Outline : Program E A α → L → (α → L → Prop) → Prop
  | Program.done a, l, Q => Q a l
  | Program.perform e next, l, Q =>
      ∀ s notes o x s', Inv s notes → notes i = l → t.handle i e o s = some (x, s') →
        ∃ l', Inv s' (Function.update notes i l') ∧ Outline (next x) l' Q

theorem outline_pure {a : α} {l : L} {Q : α → L → Prop} (h : Q a l) :
    t.Outline Inv i (pure a : Program E A α) l Q := h

theorem outline_perform {e : E} {next : A e → Program E A α} {l : L} {Q : α → L → Prop}
    (h : ∀ s notes o x s', Inv s notes → notes i = l → t.handle i e o s = some (x, s') →
      ∃ l', Inv s' (Function.update notes i l') ∧ t.Outline Inv i (next x) l' Q) :
    t.Outline Inv i (Program.perform e next) l Q := h

/-- A weaker postcondition. -/
theorem Outline.mono {p : Program E A α} {l : L} {Q R : α → L → Prop}
    (h : t.Outline Inv i p l Q) (hQ : ∀ a l, Q a l → R a l) : t.Outline Inv i p l R := by
  induction p generalizing l with
  | done a => exact hQ a l h
  | perform e next ih =>
      intro s notes o x s' hs hl hx
      obtain ⟨l', hs', hp⟩ := h s notes o x s' hs hl hx
      exact ⟨l', hs', ih x hp⟩

/-- **Outlines are composed like the programs.** -/
theorem outline_bind {p : Program E A α} {f : α → Program E A β} {l : L} {Q : α → L → Prop}
    {R : β → L → Prop} (h : t.Outline Inv i p l Q)
    (hf : ∀ a l', Q a l' → t.Outline Inv i (f a) l' R) : t.Outline Inv i (p >>= f) l R := by
  induction p generalizing l with
  | done a => exact hf a l h
  | perform e next ih =>
      intro s notes o x s' hs hl hx
      obtain ⟨l', hs', hp⟩ := h s notes o x s' hs hl hx
      exact ⟨l', hs', ih x hp⟩

variable (Inv) in
/-- **An invariant of the shared state, the notes and the programs**, from some configuration on.
`T` says which notes a thread may have at a point of its program; a thread that goes on finds a new
note there. -/
theorem leads_of_step (ok : σ → ι × O → Prop) (T : ι → Program E A Unit → L → Prop)
    (hstarts : ∀ i o s notes a p s', Inv s notes → T i (Program.done a) (notes i) → ok s (i, o) →
      t.starts i o s = some (p, s') → ∃ l, Inv s' (Function.update notes i l) ∧ T i p l)
    (hstep : ∀ i e next o s notes x s', Inv s notes → T i (Program.perform e next) (notes i) →
      t.handle i e o s = some (x, s') → ∃ l, Inv s' (Function.update notes i l) ∧ T i (next x) l)
    {c₀ c : Config ι E A σ} (h : t.machine.Leads (fun c i => ok c.state i) c₀ c)
    (h₀ : ∃ notes, Inv c₀.state notes ∧ ∀ i, T i (c₀.threads i) (notes i)) :
    ∃ notes, Inv c.state notes ∧ ∀ i, T i (c.threads i) (notes i) := by
  refine Machine.Leads.invariant (I := fun c => ∃ notes, Inv c.state notes ∧
    ∀ i, T i (c.threads i) (notes i)) h h₀ ?_
  rintro c ⟨i, o⟩ ⟨notes, hs, hthreads⟩ hok
  -- Only the thread that goes on has a new note and a new program.
  have update : ∀ s' p l, Inv s' (Function.update notes i l) → T i p l →
      ∃ notes', Inv s' notes' ∧ ∀ j, T j (Function.update c.threads i p j) (notes' j) := by
    intro s' p l hs' hp
    refine ⟨Function.update notes i l, hs', fun j => ?_⟩
    rcases eq_or_ne j i with rfl | hj
    · rw [Function.update_self, Function.update_self]
      exact hp
    · rw [Function.update_of_ne hj, Function.update_of_ne hj]
      exact hthreads j
  have hi := hthreads i
  change ∃ notes, Inv (t.step c i o).state notes ∧ ∀ j, T j ((t.step c i o).threads j) (notes j)
  rcases t.step_cases c i o with h | ⟨a, p, s', hthread, hstart, h⟩ |
    ⟨e, next, x, s', hthread, hx, h⟩
  · exact ⟨notes, by rwa [h], by rwa [h]⟩
  · rw [hthread] at hi
    obtain ⟨l, hs', hp⟩ := hstarts i o c.state notes a p s' hs hi hok hstart
    obtain ⟨notes', h'⟩ := update s' p l hs' hp
    exact ⟨notes', by rwa [h]⟩
  · rw [hthread] at hi
    obtain ⟨l, hs', hp⟩ := hstep i e next o c.state notes x s' hs hi hx
    obtain ⟨notes', h'⟩ := update s' (next x) l hs' hp
    exact ⟨notes', by rwa [h]⟩

/-- The same, in every state that is reached. -/
theorem invariant_of_step (ok : σ → ι × O → Prop) (T : ι → Program E A Unit → L → Prop) (l₀ : L)
    (hidle : ∀ i, T i (Program.done ()) l₀) (hinit : ∀ s, t.init s → Inv s fun _ => l₀)
    (hstarts : ∀ i o s notes a p s', Inv s notes → T i (Program.done a) (notes i) → ok s (i, o) →
      t.starts i o s = some (p, s') → ∃ l, Inv s' (Function.update notes i l) ∧ T i p l)
    (hstep : ∀ i e next o s notes x s', Inv s notes → T i (Program.perform e next) (notes i) →
      t.handle i e o s = some (x, s') → ∃ l, Inv s' (Function.update notes i l) ∧ T i (next x) l)
    {c : Config ι E A σ} (h : t.machine.Reach (fun c i => ok c.state i) c) :
    ∃ notes, Inv c.state notes ∧ ∀ i, T i (c.threads i) (notes i) := by
  obtain ⟨c₀, hc₀, hleads⟩ := h
  refine leads_of_step Inv ok T hstarts hstep hleads ⟨fun _ => l₀, hinit c₀.state hc₀.1, fun i => ?_⟩
  rw [hc₀.2 i]
  exact hidle i

/-- **If all programs that threads take up have outlines, then the invariant holds in every state
that is reached by steps which the guard `ok` admits.**  The guard speaks of what threads take up. -/
theorem invariant_of_guard (ok : σ → ι × O → Prop) (idle : ι → L → Prop) (l₀ : L)
    (hidle : ∀ i, idle i l₀) (hinit : ∀ s, t.init s → Inv s fun _ => l₀)
    (hstarts : ∀ i o s notes p s', Inv s notes → idle i (notes i) → ok s (i, o) →
      t.starts i o s = some (p, s') →
      ∃ l, Inv s' (Function.update notes i l) ∧ t.Outline Inv i p l fun _ l => idle i l)
    {c : Config ι E A σ} (h : t.machine.Reach (fun c i => ok c.state i) c) :
    ∃ notes, Inv c.state notes ∧
      ∀ i, t.Outline Inv i (c.threads i) (notes i) fun _ l => idle i l := by
  refine invariant_of_step ok (fun i p l => t.Outline Inv i p l fun _ l => idle i l) l₀
    (fun i => outline_pure (hidle i)) hinit ?_ ?_ h
  · intro i o s notes a p s' hs hi hok hstart
    exact hstarts i o s notes p s' hs hi hok hstart
  · intro i e next o s notes x s' hs hi hx
    exact hi s notes o x s' hs rfl hx

/-- **If all programs that threads take up have outlines, then the invariant holds in every
reachable state.** -/
theorem invariant (idle : ι → L → Prop) (l₀ : L) (hidle : ∀ i, idle i l₀)
    (hinit : ∀ s, t.init s → Inv s fun _ => l₀)
    (hstarts : ∀ i o s notes p s', Inv s notes → idle i (notes i) →
      t.starts i o s = some (p, s') →
      ∃ l, Inv s' (Function.update notes i l) ∧ t.Outline Inv i p l fun _ l => idle i l)
    {c : Config ι E A σ} (h : t.machine.Reachable c) :
    ∃ notes, Inv c.state notes ∧
      ∀ i, t.Outline Inv i (c.threads i) (notes i) fun _ l => idle i l :=
  invariant_of_guard (fun _ _ => True) idle l₀ hidle hinit
    (fun i o s notes p s' hs hi _ => hstarts i o s notes p s' hs hi) h

end Threads
