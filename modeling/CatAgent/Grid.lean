/-
**Grids of deadlines.**

A periodic deadline moves along the grid `first`, `first + period`, `first + 2 * period`, ….  Who
looks at the clock only now and then asks whether a point of the grid has passed since the last
look, and which point comes next.  The next point is found by one division, whatever the number of
points that have passed, and it is the right one even if the clock stands exactly on a point.

Main definitions:

* `Grid.points` — the grid;
* `Grid.Awaits` — the next point after the last look;
* `Grid.following` — the first point after a time, from any point before it.

Main results:

* `Grid.Awaits.le_iff` — **the awaited point is reached exactly if some point has passed since the
  last look**;
* `Grid.Awaits.follow`, `Grid.Awaits.stay` — what is awaited after the next look.
-/

import Mathlib.Algebra.Order.Floor.Ring
import Mathlib.Order.Bounds.Basic
import Mathlib.Tactic.Ring
import Mathlib.Tactic.Linarith

set_option relaxedAutoImplicit false
set_option autoImplicit false

namespace Grid

variable {α : Type*} [Field α] [LinearOrder α] [IsStrictOrderedRing α]

/-- The points `first`, `first + period`, `first + 2 * period`, …. -/
def points (first period : α) : Set α := {x | ∃ k : ℕ, x = first + k * period}

/-- `x` is the first point after the last look, or the first of all if there was none. -/
def Awaits (first period : α) (last : Option α) (x : α) : Prop :=
  IsLeast {y | y ∈ points first period ∧ ∀ t ∈ last, t < y} x

variable {first period x t : α} {last : Option α}

omit [LinearOrder α] [IsStrictOrderedRing α] in
theorem first_mem : first ∈ points first period := ⟨0, by simp⟩

theorem first_le (hp : 0 < period) (hx : x ∈ points first period) : first ≤ x := by
  obtain ⟨k, rfl⟩ := hx
  have hk : 0 ≤ (k : α) * period := mul_nonneg (Nat.cast_nonneg k) hp.le
  linarith

/-- Before the first look the first point is awaited. -/
theorem awaits_none (hp : 0 < period) : Awaits first period none first :=
  ⟨⟨first_mem, by simp⟩, fun _ hy => first_le hp hy.1⟩

omit [IsStrictOrderedRing α] in
/-- **The awaited point is reached exactly if some point has passed since the last look.** -/
theorem Awaits.le_iff (h : Awaits first period last x) :
    x ≤ t ↔ ∃ y ∈ points first period, (∀ t₀ ∈ last, t₀ < y) ∧ y ≤ t := by
  constructor
  · intro hx
    exact ⟨x, h.1.1, h.1.2, hx⟩
  · rintro ⟨y, hy, hlast, hle⟩
    exact (h.2 ⟨hy, hlast⟩).trans hle

omit [IsStrictOrderedRing α] in
/-- A point that is not reached is still awaited. -/
theorem Awaits.stay (h : Awaits first period last x) (hlast : ∀ t₀ ∈ last, t₀ ≤ t) (hx : t < x) :
    Awaits first period (some t) x := by
  refine ⟨⟨h.1.1, ?_⟩, ?_⟩
  · rintro _ ⟨⟩
    exact hx
  · rintro y ⟨hy, hty⟩
    exact h.2 ⟨hy, fun t₀ ht₀ => (hlast t₀ ht₀).trans_lt (hty t rfl)⟩

variable [FloorRing α]

/-- The first point after `t`, from a point `x` that `t` has reached. -/
def following (t x period : α) : α := x + ((⌊(t - x) / period⌋ : ℤ) + 1) * period

theorem lt_following (hp : 0 < period) : t < following t x period := by
  have hfloor : (t - x) / period < (⌊(t - x) / period⌋ : ℤ) + 1 := Int.lt_floor_add_one _
  rw [div_lt_iff₀ hp] at hfloor
  unfold following
  linarith

/-- Going on from a point leads to a point. -/
theorem following_mem (hp : 0 < period) (hx : x ∈ points first period) (ht : x ≤ t) :
    following t x period ∈ points first period := by
  obtain ⟨k, rfl⟩ := hx
  have hnonneg : 0 ≤ ⌊(t - (first + k * period)) / period⌋ :=
    Int.floor_nonneg.2 (div_nonneg (sub_nonneg.2 ht) hp.le)
  obtain ⟨n, hn⟩ := Int.eq_ofNat_of_zero_le hnonneg
  refine ⟨k + n + 1, ?_⟩
  rw [following, hn]
  push_cast
  ring

/-- No point lies between. -/
theorem following_le {y : α} (hp : 0 < period) (hx : x ∈ points first period)
    (hy : y ∈ points first period) (hty : t < y) : following t x period ≤ y := by
  obtain ⟨k, rfl⟩ := hx
  obtain ⟨j, rfl⟩ := hy
  -- `j - k` periods lead from the one point to the other, and they reach beyond `t`.
  have hlt : (t - (first + k * period)) / period < ((j : ℤ) - (k : ℤ) : ℤ) := by
    rw [div_lt_iff₀ hp]
    push_cast
    linarith [sub_mul (j : α) k period]
  have hfloor : ⌊(t - (first + k * period)) / period⌋ + 1 ≤ (j : ℤ) - (k : ℤ) :=
    Int.add_one_le_iff.2 (Int.floor_lt.2 hlt)
  have hcast : ((⌊(t - (first + k * period)) / period⌋ : ℤ) : α) + 1 ≤ (j : α) - k := by
    exact_mod_cast hfloor
  have hmul := mul_le_mul_of_nonneg_right hcast hp.le
  unfold following
  linarith [sub_mul (j : α) k period]

/-- **When the awaited point is reached, the first point after the look is awaited next.** -/
theorem Awaits.follow (h : Awaits first period last x) (hp : 0 < period) (ht : x ≤ t) :
    Awaits first period (some t) (following t x period) := by
  refine ⟨⟨following_mem hp h.1.1 ht, ?_⟩, ?_⟩
  · rintro _ ⟨⟩
    exact lt_following hp
  · rintro y ⟨hy, hty⟩
    exact following_le hp h.1.1 hy (hty t rfl)

end Grid
