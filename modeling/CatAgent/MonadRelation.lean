/-
**Related computations.**

Two programs that are one text in two monads do related things when the steps that they are made of
do.  A relation between computations carries a relation between values along; it is kept by `pure`,
`bind` and `map`, and computations that fail are related.

Main definitions:

* `Failing` — monads with a computation that fails;
* `MonadRelation` — a relation between computations in two such monads;
* `OptRel`, `MonadRelation.option` — the relation for computations that may fail and do nothing else.

Main results:

* `List.forall_mem_iff_of_forall₂` — a property of the elements of related lists.
-/

import Mathlib.Data.List.Forall2

set_option relaxedAutoImplicit false
set_option autoImplicit false

/-- A monad with a computation that fails. -/
class Failing (m : Type → Type) where
  fail {α : Type} : m α

namespace Failing

instance : Failing Option := ⟨none⟩

section OfOption

variable {m : Type → Type} [Monad m] [Failing m] {α : Type}

/-- The value, or the computation that fails. -/
def ofOption : Option α → m α
  | some a => pure a
  | none => fail

end OfOption

@[simp] theorem ofOption_option {α : Type} (o : Option α) : (ofOption o : Option α) = o := by
  cases o <;> rfl

end Failing

/-- A relation between computations that carries a relation between values along. -/
structure MonadRelation (m m' : Type → Type) [Monad m] [Failing m] [Monad m'] [Failing m'] where
  rel {α β : Type} : (α → β → Prop) → m α → m' β → Prop
  of_pure {α β : Type} {R : α → β → Prop} {a : α} {b : β} : R a b → rel R (pure a) (pure b)
  of_bind {α β γ δ : Type} {R : α → β → Prop} {S : γ → δ → Prop} {x : m α} {y : m' β}
    {f : α → m γ} {g : β → m' δ} :
    rel R x y → (∀ a b, R a b → rel S (f a) (g b)) → rel S (x >>= f) (y >>= g)
  of_map {α β γ δ : Type} {R : α → β → Prop} {S : γ → δ → Prop} {x : m α} {y : m' β}
    {f : α → γ} {g : β → δ} :
    rel R x y → (∀ a b, R a b → S (f a) (g b)) → rel S (f <$> x) (g <$> y)
  of_fail {α β : Type} {R : α → β → Prop} : rel R Failing.fail Failing.fail

namespace MonadRelation

/-- The same value, or nothing, on both sides. -/
theorem of_ofOption {m m' : Type → Type} [Monad m] [Failing m] [Monad m'] [Failing m']
    (M : MonadRelation m m') {α : Type} (o : Option α) :
    M.rel Eq (Failing.ofOption o) (Failing.ofOption o) := by
  cases o with
  | none => exact M.of_fail
  | some a => exact M.of_pure rfl

end MonadRelation

/-- Values that are related, or nothing on both sides. -/
def OptRel {α β : Type} (R : α → β → Prop) : Option α → Option β → Prop
  | some a, some b => R a b
  | none, none => True
  | _, _ => False

/-- Computations that may fail. -/
def MonadRelation.option : MonadRelation Option Option where
  rel := OptRel
  of_pure := fun h => h
  of_bind := fun {_ _ _ _ _ _ x y _ _} h hfg => by
    cases x <;> cases y
    · trivial
    · exact h.elim
    · exact h.elim
    · exact hfg _ _ h
  of_map := fun {_ _ _ _ _ _ x y _ _} h hfg => by
    cases x <;> cases y
    · trivial
    · exact h.elim
    · exact h.elim
    · exact hfg _ _ h
  of_fail := trivial

/-- Properties that related elements share are shared by related lists. -/
theorem List.forall_mem_iff_of_forall₂ {α β : Type} {p : α → Prop} {q : β → Prop} {xs : List α}
    {ys : List β} (h : List.Forall₂ (fun a b => p a ↔ q b) xs ys) :
    (∀ a ∈ xs, p a) ↔ ∀ b ∈ ys, q b := by
  induction h with
  | nil => exact ⟨nofun, nofun⟩
  | cons hab _ ih => rw [List.forall_mem_cons, List.forall_mem_cons, hab, ih]
