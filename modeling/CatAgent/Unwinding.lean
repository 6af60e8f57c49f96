/-
**Actions that return or raise, and what they leave behind.**

An action changes a state, and either returns a value or raises an exception; what it has done to
the state before it raises stays done.  This is `EStateM`, whose `tryCatch` and `tryFinally` are the
handlers and the clean-up clauses of a language with exceptions: the clean-up runs on every way out,
and an exception of its own replaces the one that was under way.

A specification has therefore two postconditions, one for each way out, and there is a rule for each
construct.

Main definitions:

* `Unwinding.Meets` — from a state with `P`, the action returns only with `Q` and raises only with
  `E`.

Main results:

* `Unwinding.Meets.bind`, `Unwinding.Meets.tryCatch`, `Unwinding.Meets.tryFinally`,
  `Unwinding.Meets.forM` — the rules, the last one for a loop with an invariant.
-/

import Mathlib.Init

set_option relaxedAutoImplicit false
set_option autoImplicit false

namespace Unwinding

variable {σ ε α β : Type} {P P' : σ → Prop} {Q Q' : α → σ → Prop} {E E' : ε → σ → Prop}

/-- What holds on each way out of an action: `Q` when it returned, `E` when it raised. -/
def After (Q : α → σ → Prop) (E : ε → σ → Prop) : EStateM.Result ε σ α → Prop
  | .ok a s => Q a s
  | .error e s => E e s

/-- From a state with `P`, the action returns only with `Q` and raises only with `E`. -/
def Meets (P : σ → Prop) (x : EStateM ε σ α) (Q : α → σ → Prop) (E : ε → σ → Prop) : Prop :=
  ∀ s, P s → After Q E (x s)

theorem Meets.conseq {x : EStateM ε σ α} (h : Meets P x Q E) (hP : ∀ s, P' s → P s)
    (hQ : ∀ a s, Q a s → Q' a s) (hE : ∀ e s, E e s → E' e s) : Meets P' x Q' E' := by
  intro s hs
  have hx := h s (hP s hs)
  cases hxs : x s with
  | ok a s' =>
      rw [hxs] at hx
      exact hQ a s' hx
  | error e s' =>
      rw [hxs] at hx
      exact hE e s' hx

theorem Meets.pre {x : EStateM ε σ α} (h : Meets P x Q E) (hP : ∀ s, P' s → P s) :
    Meets P' x Q E := h.conseq hP (fun _ _ => id) fun _ _ => id

theorem meets_pure {a : α} (h : ∀ s, P s → Q a s) : Meets P (pure a : EStateM ε σ α) Q E := h

theorem meets_throw {e : ε} (h : ∀ s, P s → E e s) : Meets P (throw e : EStateM ε σ α) Q E := h

theorem meets_modify {f : σ → σ} {R : PUnit → σ → Prop} (h : ∀ s, P s → R ⟨⟩ (f s)) :
    Meets P (modify f : EStateM ε σ PUnit) R E := h

/-- **One action after the other.** -/
theorem Meets.bind {x : EStateM ε σ α} {f : α → EStateM ε σ β} {R : β → σ → Prop}
    (hx : Meets P x Q E) (hf : ∀ a, Meets (Q a) (f a) R E) : Meets P (x >>= f) R E := by
  intro s hs
  have h := hx s hs
  change After R E (EStateM.bind x f s)
  unfold EStateM.bind
  cases hxs : x s with
  | ok a s' =>
      rw [hxs] at h
      exact hf a s' h
  | error e s' =>
      rw [hxs] at h
      exact h

theorem get_bind (f : σ → EStateM ε σ α) (s : σ) : (get >>= f : EStateM ε σ α) s = f s s := rfl

/-- The state is read. -/
theorem meets_get {f : σ → EStateM ε σ α} (h : ∀ r, P r → Meets (fun s => s = r) (f r) Q E) :
    Meets P (get >>= f) Q E := fun s hs => h s hs s rfl

/-- **A handler.** -/
theorem Meets.tryCatch {x : EStateM ε σ α} {f : ε → EStateM ε σ α} (hx : Meets P x Q E')
    (hf : ∀ e, Meets (E' e) (f e) Q E) : Meets P (tryCatch x f) Q E := by
  intro s hs
  have h := hx s hs
  change After Q E (EStateM.tryCatch x f s)
  unfold EStateM.tryCatch
  dsimp only
  cases hxs : x s with
  | ok a s' =>
      rw [hxs] at h
      exact h
  | error e s' =>
      rw [hxs] at h
      exact hf e s' h

/-- What an action with a clean-up does. -/
def cleaned (x : EStateM ε σ α) (c : EStateM ε σ PUnit) : EStateM ε σ α := fun s =>
  match x s with
  | .ok a s' =>
      match c s' with
      | .ok _ s'' => .ok a s''
      | .error e s'' => .error e s''
  | .error e s' =>
      match c s' with
      | .ok _ s'' => .error e s''
      | .error e' s'' => .error e' s''

theorem tryFinally_eq (x : EStateM ε σ α) (c : EStateM ε σ PUnit) :
    tryFinally x c = cleaned x c := by
  funext s
  simp only [tryFinally, MonadFinally.tryFinally', cleaned, Functor.map, EStateM.map]
  cases x s with
  | ok a s' =>
      dsimp only
      cases c s' <;> rfl
  | error e s' =>
      dsimp only
      cases c s' <;> rfl

/-- **A clean-up on every way out.** -/
theorem Meets.tryFinally {x : EStateM ε σ α} {c : EStateM ε σ PUnit} {R : α → σ → Prop}
    (hx : Meets P x R E') (hok : ∀ a, Meets (R a) c (fun _ => Q a) E)
    (herr : ∀ e, Meets (E' e) c (fun _ => E e) E) : Meets P (tryFinally x c) Q E := by
  rw [tryFinally_eq]
  intro s hs
  have h := hx s hs
  unfold cleaned
  cases hxs : x s with
  | ok a s' =>
      rw [hxs] at h
      have hc := hok a s' h
      dsimp only
      cases hcs : c s' with
      | ok u s'' =>
          rw [hcs] at hc
          exact hc
      | error e s'' =>
          rw [hcs] at hc
          exact hc
  | error e s' =>
      rw [hxs] at h
      have hc := herr e s' h
      dsimp only
      cases hcs : c s' with
      | ok u s'' =>
          rw [hcs] at hc
          exact hc
      | error e' s'' =>
          rw [hcs] at hc
          exact hc

/-- **A loop.**  The invariant says which items are done. -/
theorem meets_forM {l : List α} {f : α → EStateM ε σ PUnit} {I : List α → σ → Prop}
    (h : ∀ done a rest, l = done ++ a :: rest →
      Meets (I done) (f a) (fun _ => I (done ++ [a])) E) :
    Meets (I []) (l.forM f) (fun _ => I l) E := by
  suffices hgen : ∀ rest done, l = done ++ rest →
      Meets (I done) (rest.forM f) (fun _ => I l) E from hgen l [] rfl
  intro rest
  induction rest with
  | nil =>
      intro done hl
      rw [List.append_nil] at hl
      subst hl
      exact meets_pure fun s hs => hs
  | cons a rest ih =>
      intro done hl
      exact (h done a rest hl).bind fun _ => ih (done ++ [a]) (by rw [hl, List.append_assoc]; rfl)

end Unwinding
