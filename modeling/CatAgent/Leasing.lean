/-
**Resources that are held while they are busy.**

A holder holds one resource at most, and only while it is at work.  A step of one holder may give
back what it held and take something that was not busy; everything else stays as it was.

Main definitions:

* `Leased` — every busy resource has exactly one holder, and whatever is held is busy;
* `Moves` — what a step of one holder may do.

Main results:

* `Moves.refl`, `Moves.trans` — steps are composed;
* `Leased.move` — **a step of one holder keeps every resource with at most one holder**;
* `Leased.unheld` — a step of one that holds nothing changes nothing for the others;
* `Leased.not_busy` — when nothing is held, nothing is busy.
-/

import Mathlib.Logic.ExistsUnique
import Mathlib.Logic.Function.Basic

set_option relaxedAutoImplicit false
set_option autoImplicit false

universe u v

variable {ρ : Type u} {ι : Type v}

/-- Every busy resource has exactly one holder, and whatever is held is busy. -/
structure Leased (busy : ρ → Prop) (holds : ι → Option ρ) : Prop where
  holder : ∀ r, busy r → ∃! i, holds i = some r
  busy : ∀ i r, holds i = some r → busy r

/-- What a step of a holder may do that held `h` and then holds `h'`. -/
structure Moves (h h' : Option ρ) (busy busy' : ρ → Prop) : Prop where
  /-- What it neither held nor holds stays as it was. -/
  others : ∀ r, h ≠ some r → h' ≠ some r → (busy' r ↔ busy r)
  /-- What it holds is busy, and was its own or not busy before. -/
  taken : ∀ r, h' = some r → busy' r ∧ (h = some r ∨ ¬busy r)
  /-- What it has given back is not busy. -/
  left : ∀ r, h = some r → h' ≠ some r → ¬busy' r

variable {h h' h'' : Option ρ} {busy busy' busy'' : ρ → Prop} {holds : ι → Option ρ}

theorem Moves.refl (hheld : ∀ r, h = some r → busy r) : Moves h h busy busy where
  others := fun _ _ _ => Iff.rfl
  taken := fun r hr => ⟨hheld r hr, Or.inl hr⟩
  left := fun _ hr hne => absurd hr hne

/-- **One step after the other.** -/
theorem Moves.trans (m : Moves h h' busy busy') (m' : Moves h' h'' busy' busy'') :
    Moves h h'' busy busy'' where
  others := by
    intro r hr hr''
    by_cases hr' : h' = some r
    · have hnow := m'.left r hr' hr''
      have hbefore := (m.taken r hr').2.resolve_left hr
      exact ⟨fun hb => absurd hb hnow, fun hb => absurd hb hbefore⟩
    · exact (m'.others r hr' hr'').trans (m.others r hr hr')
  taken := by
    intro r hr''
    obtain ⟨hbusy, hown | hfree⟩ := m'.taken r hr''
    · exact ⟨hbusy, (m.taken r hown).2⟩
    · refine ⟨hbusy, ?_⟩
      by_cases hr : h = some r
      · exact Or.inl hr
      · have hr' : h' ≠ some r := fun heq => hfree (m.taken r heq).1
        exact Or.inr fun hb => hfree ((m.others r hr hr').2 hb)
  left := by
    intro r hr hr''
    by_cases hr' : h' = some r
    · exact m'.left r hr' hr''
    · exact fun hb => m.left r hr hr' ((m'.others r hr' hr'').1 hb)

/-- **A step of one holder keeps every resource with at most one holder.** -/
theorem Leased.move [DecidableEq ι] (hl : Leased busy holds) {i : ι}
    (m : Moves (holds i) h' busy busy') : Leased busy' (Function.update holds i h') where
  holder := by
    intro r hr
    by_cases hown : h' = some r
    · have hi : Function.update holds i h' i = some r := by rw [Function.update_self, hown]
      refine ⟨i, hi, fun j (hj : Function.update holds i h' j = some r) => ?_⟩
      by_contra hne
      rw [Function.update_of_ne hne] at hj
      -- Somebody else holds what was just taken; so it was busy, and held by the one who took it.
      have hbusy := hl.busy j r hj
      rcases (m.taken r hown).2 with hown' | hfree
      · exact hne ((hl.holder r hbusy).unique hj hown')
      · exact hfree hbusy
    · have hi : holds i ≠ some r := fun heq => m.left r heq hown hr
      obtain ⟨j, hj, hunique⟩ := hl.holder r ((m.others r hi hown).1 hr)
      have hji : j ≠ i := by
        rintro rfl
        exact hi hj
      have hj' : Function.update holds i h' j = some r := by rw [Function.update_of_ne hji, hj]
      refine ⟨j, hj', fun k (hk : Function.update holds i h' k = some r) => ?_⟩
      by_cases hki : k = i
      · rw [hki, Function.update_self] at hk
        exact absurd hk hown
      · rw [Function.update_of_ne hki] at hk
        exact hunique k hk
  busy := by
    intro j r hj
    by_cases hji : j = i
    · rw [hji, Function.update_self] at hj
      exact (m.taken r hj).1
    · rw [Function.update_of_ne hji] at hj
      have hbusy := hl.busy j r hj
      have hi : holds i ≠ some r := fun heq => hji ((hl.holder r hbusy).unique hj heq)
      have hown : h' ≠ some r := by
        intro heq
        rcases (m.taken r heq).2 with hi' | hfree
        · exact hi hi'
        · exact hfree hbusy
      exact (m.others r hi hown).2 hbusy

/-- A step of one that holds nothing, before and after. -/
theorem Leased.unheld (hl : Leased busy holds) (m : Moves none none busy busy') :
    Leased busy' holds where
  holder := fun r hr => hl.holder r ((m.others r (nomatch ·) (nomatch ·)).1 hr)
  busy := fun i r hi => (m.others r (nomatch ·) (nomatch ·)).2 (hl.busy i r hi)

/-- When nothing is held, nothing is busy. -/
theorem Leased.not_busy (hl : Leased busy holds) (hnone : ∀ i, holds i = none) (r : ρ) :
    ¬busy r := by
  intro hr
  obtain ⟨i, hi, -⟩ := hl.holder r hr
  cases (hnone i).symm.trans hi
