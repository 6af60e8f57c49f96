/-
**Programs that perform operations.**

A thread of the service is written here as it is written in the source: a program that performs
operations one after the other and goes on with their answers.  Which answer an operation gets is
not the program's business.  The same program is run with a handler that answers every operation
at once, or interleaved with other threads by `Threads`.

Main definitions:

* `Program` — programs over the operations `E`, where `A e` is the type of the answers to `e`;
* `Program.run` — running a program with a handler;
* `Program.Rest` — what is left of a program after some of its operations;
* `Program.All` — a property of all operations of a program.

Main results:

* `Program.run_bind` — running a sequence runs its parts one after the other;
* `Program.run_invariant` — **what every operation of a program preserves, the program preserves**.
-/

import Mathlib.Logic.Relation

set_option relaxedAutoImplicit false
set_option autoImplicit false

universe u v w

/-- A program: it has returned, or it performs an operation and goes on with the answer. -/
inductive Program (E : Type u) (A : E → Type v) (α : Type w) : Type (max u v w) where
  | done (a : α) : Program E A α
  | perform (e : E) (next : A e → Program E A α) : Program E A α

namespace Program

variable {E : Type u} {A : E → Type v} {α β : Type w}

/-- One program after the other. -/
protected def bind : Program E A α → (α → Program E A β) → Program E A β
  | done a, f => f a
  | perform e next, f => perform e fun x => (next x).bind f

instance : Monad (Program E A) where
  pure := done
  bind := Program.bind

/-- A single operation. -/
def operation (e : E) : Program E A (A e) := perform e done

@[simp] theorem pure_eq (a : α) : (pure a : Program E A α) = done a := rfl

@[simp] theorem done_bind (a : α) (f : α → Program E A β) : (done a >>= f) = f a := rfl

@[simp] theorem perform_bind (e : E) (next : A e → Program E A α) (f : α → Program E A β) :
    (perform e next >>= f) = perform e fun x => next x >>= f := rfl

theorem operation_bind {A : E → Type w} (e : E) (f : A e → Program E A β) :
    (operation e >>= f) = perform e f := rfl

/-! ### Handlers -/

/-- The result of a program, and the state afterwards, if every operation is answered at once. -/
def run {σ : Type*} (handle : (e : E) → σ → A e × σ) : Program E A α → σ → α × σ
  | done a, s => (a, s)
  | perform e next, s => (next (handle e s).1).run handle (handle e s).2

variable {σ : Type*} {handle : (e : E) → σ → A e × σ}

@[simp] theorem run_done (a : α) (s : σ) : (done a : Program E A α).run handle s = (a, s) := rfl

@[simp] theorem run_perform (e : E) (next : A e → Program E A α) (s : σ) :
    (perform e next).run handle s = (next (handle e s).1).run handle (handle e s).2 := rfl

/-- **Running a sequence runs its parts one after the other.** -/
theorem run_bind (p : Program E A α) (f : α → Program E A β) (s : σ) :
    (p >>= f).run handle s = (f (p.run handle s).1).run handle (p.run handle s).2 := by
  induction p generalizing s with
  | done a => rfl
  | perform e next ih => exact ih _ _

/-! ### What is left of a program -/

/-- What is left of a program after some of its operations. -/
inductive Rest (p : Program E A α) : Program E A α → Prop
  | start : Rest p p
  | step {e : E} {next : A e → Program E A α} (h : Rest p (perform e next)) (x : A e) :
      Rest p (next x)

/-! ### The operations of a program -/

/-- Every operation that a program can perform satisfies `P`. -/
def All (P : E → Prop) : Program E A α → Prop
  | done _ => True
  | perform e next => P e ∧ ∀ x, (next x).All P

variable {P : E → Prop}

theorem all_pure (a : α) : (pure a : Program E A α).All P := trivial

theorem all_operation {A : E → Type w} {e : E} (h : P e) :
    (operation e : Program E A (A e)).All P := ⟨h, fun _ => trivial⟩

theorem all_bind {p : Program E A α} {f : α → Program E A β} (hp : p.All P)
    (hf : ∀ a, (f a).All P) : (p >>= f).All P := by
  induction p with
  | done a => exact hf a
  | perform e next ih => exact ⟨hp.1, fun x => ih x (hp.2 x)⟩

theorem All.mono {Q : E → Prop} {p : Program E A α} (h : p.All P) (hPQ : ∀ e, P e → Q e) :
    p.All Q := by
  induction p with
  | done a => trivial
  | perform e next ih => exact ⟨hPQ e h.1, fun x => ih x (h.2 x)⟩

/-- **What every operation of a program preserves, the program preserves.** -/
theorem run_invariant {I : σ → Prop} (hstep : ∀ e s, P e → I s → I (handle e s).2)
    {p : Program E A α} (hp : p.All P) {s : σ} (hs : I s) : I (p.run handle s).2 := by
  induction p generalizing s with
  | done a => exact hs
  | perform e next ih => exact ih _ (hp.2 _) (hstep e s hp.1 hs)

end Program
