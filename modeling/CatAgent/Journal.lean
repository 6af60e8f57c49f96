/-
**Journals that coalesce.**

A journal is a table of entries that are open until they are closed.  Entries belong to groups, and
some of them are periodic: there is no use in a second one while anything of its group is open.  The
journal is bounded in its open entries.  Entries change, closed ones are dropped at times, and a new
entry is added only if it is not coalesced and if there is room.

Main definitions:

* `Journal`, `Journal.Later` — what is looked at in an entry, and how an entry may change;
* `Journal.Step` — changing, dropping and adding entries;
* `Journal.Coalesced`, `Journal.Bounded` — the two invariants.

Main results:

* `Journal.steps_coalesced`, `Journal.steps_bounded` — **no group ever has two open periodic
  entries, and the bound is never exceeded**.
-/

import CatAgent.Table
import Mathlib.Data.List.Forall2
import Mathlib.Logic.Relation

set_option relaxedAutoImplicit false
set_option autoImplicit false

/-- What a journal looks at in its entries. -/
structure Journal (α κ γ : Type*) where
  key : α → κ
  /-- The group that the entry belongs to. -/
  group : α → γ
  /-- The entry has not been closed. -/
  isOpen : α → Bool
  /-- The entry is coalesced with any open entry of its group. -/
  periodic : α → Bool
  /-- How many entries may be open. -/
  bound : ℕ

namespace Journal

variable {α κ γ : Type*}

/-- What an entry may become: it stays what it is, and if it is closed it stays closed. -/
structure Later (J : Journal α κ γ) (a b : α) : Prop where
  key : J.key b = J.key a
  group : J.group b = J.group a
  periodic : J.periodic b = J.periodic a
  closed : J.isOpen a = false → J.isOpen b = false

variable {J : Journal α κ γ} {a b c : α}

theorem Later.refl (a : α) : J.Later a a := ⟨rfl, rfl, rfl, id⟩

/-- An entry that is open was open before. -/
theorem Later.open_before (h : J.Later a b) (hb : J.isOpen b = true) : J.isOpen a = true := by
  cases ha : J.isOpen a with
  | true => rfl
  | false =>
      rw [h.closed ha] at hb
      cases hb

theorem exists_of_mem_right {R : α → α → Prop} {l l' : List α} (h : List.Forall₂ R l l')
    (hb : b ∈ l') : ∃ a ∈ l, R a b := by
  induction h with
  | nil => cases hb
  | @cons x y l l' hxy _ ih =>
      rcases List.mem_cons.1 hb with rfl | hb
      · exact ⟨x, List.mem_cons_self, hxy⟩
      · obtain ⟨a, ha, hab⟩ := ih hb
        exact ⟨a, List.mem_cons_of_mem _ ha, hab⟩

/-- Changing the entries closes some and opens none. -/
theorem countP_le_of_later {l l' : List α} (h : List.Forall₂ J.Later l l') :
    l'.countP J.isOpen ≤ l.countP J.isOpen := by
  induction h with
  | nil => exact Nat.le_refl _
  | @cons x y l l' hxy _ ih =>
      rw [List.countP_cons, List.countP_cons]
      cases hy : J.isOpen y with
      | false => simp; omega
      | true => simp [hxy.open_before hy]; omega

variable [DecidableEq κ]

/-- One change of a journal. -/
inductive Step (J : Journal α κ γ) : Table J.key → Table J.key → Prop
  /-- Entries change in their places. -/
  | change {t t' : Table J.key} (h : List.Forall₂ J.Later t.values t'.values) : Step J t t'
  /-- Closed entries are dropped. -/
  | drop (t : Table J.key) (p : α → Bool)
      (h : ∀ a ∈ t.values, p a = false → J.isOpen a = false) : Step J t (t.filter p)
  /-- An entry is added under a new key: a periodic one only if nothing of its group is open. -/
  | add (t : Table J.key) (a : α) (hnew : t.get? (J.key a) = none)
      (hgroup : J.periodic a = true → ∀ b ∈ t.values, J.isOpen b = true → J.group b ≠ J.group a)
      (hroom : t.values.countP J.isOpen < J.bound) : Step J t (t.put a)

/-- No group has two open periodic entries. -/
def Coalesced (J : Journal α κ γ) (t : Table J.key) : Prop :=
  ∀ a ∈ t.values, ∀ b ∈ t.values, J.periodic a = true → J.periodic b = true →
    J.isOpen a = true → J.isOpen b = true → J.group a = J.group b → a = b

/-- There are not more open entries than the bound allows. -/
def Bounded (J : Journal α κ γ) (t : Table J.key) : Prop := t.values.countP J.isOpen ≤ J.bound

variable {t t' : Table J.key}

theorem eq_of_key_eq (ha : a ∈ t.values) (hb : b ∈ t.values) (h : J.key a = J.key b) : a = b := by
  have hget := Table.mem_values_iff.1 ha
  rw [h, Table.mem_values_iff.1 hb] at hget
  exact (Option.some.inj hget).symm

/-- **A step coalesces.** -/
theorem Step.coalesced (h : Step J t t') (ht : Coalesced J t) : Coalesced J t' := by
  intro a ha b hb hpa hpb hoa hob hgroup
  cases h with
  | change h =>
      obtain ⟨a₀, ha₀, hla⟩ := exists_of_mem_right h ha
      obtain ⟨b₀, hb₀, hlb⟩ := exists_of_mem_right h hb
      have heq : a₀ = b₀ := ht a₀ ha₀ b₀ hb₀ (hla.periodic ▸ hpa) (hlb.periodic ▸ hpb)
        (hla.open_before hoa) (hlb.open_before hob)
        (hla.group.symm.trans (hgroup.trans hlb.group))
      refine eq_of_key_eq ha hb ?_
      rw [hla.key, hlb.key, heq]
  | drop p _ =>
      rw [Table.values_filter] at ha hb
      exact ht a (List.mem_of_mem_filter ha) b (List.mem_of_mem_filter hb) hpa hpb hoa hob hgroup
  | add c hnew hfree _ =>
      rw [Table.values_put_new hnew, List.mem_append, List.mem_singleton] at ha hb
      rcases ha with ha | rfl
      · rcases hb with hb | rfl
        · exact ht a ha b hb hpa hpb hoa hob hgroup
        · exact absurd hgroup (hfree hpb a ha hoa)
      · rcases hb with hb | rfl
        · exact absurd hgroup.symm (hfree hpa b hb hob)
        · rfl

/-- **A step keeps the bound.** -/
theorem Step.bounded (h : Step J t t') (ht : Bounded J t) : Bounded J t' := by
  cases h with
  | change h => exact (countP_le_of_later h).trans ht
  | drop p _ =>
      unfold Bounded
      rw [Table.values_filter]
      exact List.filter_sublist.countP_le.trans ht
  | add a hnew _ hroom =>
      unfold Bounded
      rw [Table.values_put_new hnew, List.countP_append, List.countP_singleton]
      split_ifs
      · exact hroom
      · exact ht

/-! ### Runs -/

open Relation (ReflTransGen)

theorem steps_coalesced (h : ReflTransGen (Step J) t t') (ht : Coalesced J t) :
    Coalesced J t' := by
  induction h with
  | refl => exact ht
  | tail _ hstep ih => exact hstep.coalesced ih

theorem steps_bounded (h : ReflTransGen (Step J) t t') (ht : Bounded J t) : Bounded J t' := by
  induction h with
  | refl => exact ht
  | tail _ hstep ih => exact hstep.bounded ih

end Journal
