/-
**Futures.**

A future of the standard library: somebody waits for its result, somebody else computes it.  It may
be cancelled until the computation has begun, and once it has a result or is cancelled this does not
change any more.

Main definitions:

* `Future` — the states of a future;
* `Future.setRunningOrNotifyCancel`, `Future.cancel`, `Future.setResult` — the operations;
* `Future.Open` — the computation has not begun;
* `Future.Advances` — what never changes back.

Main results:

* `Future.advances_setRunning`, `Future.advances_cancel`, `Future.advances_setResult` — **every
  operation advances the future**.
-/

import Mathlib.Order.Basic

set_option relaxedAutoImplicit false
set_option autoImplicit false

/-- The states of a future. -/
inductive Future (α : Type*) where
  | pending
  | running
  | cancelled
  /-- `CANCELLED_AND_NOTIFIED` -/
  | notified
  | finished (a : α)

namespace Future

variable {α : Type*} {f f' : Future α} {a : α} {b : Bool}

/-- `set_running_or_notify_cancel()`: whether the computation may begin; in any other state it
raises. -/
def setRunningOrNotifyCancel : Future α → Option (Bool × Future α)
  | pending => some (true, running)
  | cancelled => some (false, notified)
  | _ => none

/-- `cancel()`: whether the future is cancelled now. -/
def cancel : Future α → Bool × Future α
  | pending => (true, cancelled)
  | running => (false, running)
  | finished a => (false, finished a)
  | f => (true, f)

/-- `set_result(a)`, where `InvalidStateError` is ignored. -/
def setResult (a : α) : Future α → Future α
  | pending | running => finished a
  | f => f

/-- `cancelled()`. -/
def isCancelled : Future α → Bool
  | cancelled | notified => true
  | _ => false

/-- The computation has not begun. -/
def Open : Future α → Prop
  | pending | cancelled => True
  | _ => False

/-- The computation has not begun, and it may be cancelled. -/
def Unbegun : Future α → Prop
  | running | finished _ => False
  | _ => True

/-- A result stays, and so does a cancellation. -/
structure Advances (f f' : Future α) : Prop where
  finished : ∀ a, f = Future.finished a → f' = Future.finished a
  cancelled : f.isCancelled = true → f'.isCancelled = true

theorem Advances.refl (f : Future α) : f.Advances f := ⟨fun _ h => h, fun h => h⟩

/-- **Beginning the computation advances the future.** -/
theorem advances_setRunning (h : f.setRunningOrNotifyCancel = some (b, f')) : f.Advances f' := by
  cases f <;> cases h
  · exact ⟨nofun, nofun⟩
  · exact ⟨nofun, fun _ => rfl⟩

/-- **Cancelling it advances it.** -/
theorem advances_cancel (f : Future α) : f.Advances f.cancel.2 := by
  cases f with
  | finished a => exact Advances.refl _
  | _ => exact ⟨nofun, by simp [cancel, isCancelled]⟩

/-- **Setting its result advances it.** -/
theorem advances_setResult (a : α) (f : Future α) : f.Advances (f.setResult a) := by
  cases f with
  | finished a => exact Advances.refl _
  | _ => exact ⟨nofun, by simp [setResult, isCancelled]⟩

/-- The computation begins only if it is not cancelled. -/
theorem setRunning_of_open (h : f.Open) :
    ∃ b f', f.setRunningOrNotifyCancel = some (b, f') ∧ (b = true → f' = running) ∧
      (b = false → f'.isCancelled = true) := by
  cases f with
  | pending => exact ⟨true, running, rfl, fun _ => rfl, nofun⟩
  | cancelled => exact ⟨false, notified, rfl, nofun, fun _ => rfl⟩
  | _ => exact h.elim

theorem open_cancel (h : f.Open) : f.cancel.2.Open := by
  cases f with
  | pending | cancelled => exact trivial
  | _ => exact h.elim

theorem unbegun_of_isCancelled (h : f.isCancelled = true) : f.Unbegun := by
  cases f with
  | cancelled | notified => exact trivial
  | _ => cases h

/-- Cancelling does not begin the computation. -/
theorem unbegun_of_cancel (h : f.cancel.2.Unbegun) : f.Unbegun := by
  cases f with
  | running | finished a => exact h.elim
  | _ => exact trivial

/-- Cancelling gives no result. -/
theorem cancel_eq_finished (h : f.cancel.2 = finished a) : f = finished a := by
  cases f with
  | running | finished a => exact h
  | _ => cases h

theorem cancel_running (h : f = running) : f.cancel.2 = running := by
  rw [h]
  rfl

/-- What `cancel` says. -/
theorem isCancelled_cancel (h : f.cancel.1 = true) : f.cancel.2.isCancelled = true := by
  cases f with
  | pending | cancelled | notified => rfl
  | running => cases h
  | finished a => cases h

/-- A result that is there after `setResult` was there before or is the new one. -/
theorem setResult_eq_finished {a' : α} (h : f.setResult a = finished a') :
    f = finished a' ∨ a' = a ∧ f.isCancelled = false := by
  cases f with
  | pending =>
      cases h
      exact Or.inr ⟨rfl, rfl⟩
  | running =>
      cases h
      exact Or.inr ⟨rfl, rfl⟩
  | finished a₀ => exact Or.inl h
  | _ => cases h

end Future
