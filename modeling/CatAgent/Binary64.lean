/-
**Double precision.**

A float has 53 binary digits, and the last of them weighs at least `2⁻¹⁰⁷⁴`.  A positive number is
rounded to the nearest float, and to the one with an even last digit if two are equally near; from
a certain size on it has none.

Main definitions:

* `Binary64.ulp`, `Binary64.nearest` — the weight of the last digit, and rounding;
* `Binary64.overflows` — the numbers that are too large;
* `Binary64.least` — the least positive float.

Main results:

* `Binary64.least_le_nearest` — what is not smaller than the least float is not rounded below it;
* `Binary64.nearest_mul_zpow`, `Binary64.nearest_nearest` — a number with 53 digits is a float, and
  so is a rounded number.
-/

import Mathlib.Data.Int.Log
import Mathlib.Data.Rat.Floor
import Mathlib.Tactic.NormNum
import Mathlib.Tactic.Positivity
import Mathlib.Tactic.Ring

set_option relaxedAutoImplicit false
set_option autoImplicit false

namespace Binary64

/-- The weight of the last digit of the floats next to `q`. -/
def ulp (q : ℚ) : ℚ := 2 ^ max (Int.log 2 q - 52) (-1074)

/-- The nearest integer, and the even one of two. -/
def roundHalfEven (x : ℚ) : ℤ :=
  if x - ⌊x⌋ < 1 / 2 ∨ x - ⌊x⌋ = 1 / 2 ∧ ⌊x⌋ % 2 = 0 then ⌊x⌋ else ⌊x⌋ + 1

/-- The float nearest to a number that is not negative, if it is not too large for one. -/
def nearest (q : ℚ) : ℚ := roundHalfEven (q / ulp q) * ulp q

/-- The number is too large for a float. -/
def overflows (q : ℚ) : Bool := decide (2 ^ 1024 ≤ nearest q)

/-- The least positive float. -/
def least : ℚ := 2 ^ (-1074 : ℤ)

theorem least_pos : 0 < least := zpow_pos two_pos _

theorem least_lt : least < 2 ^ 1024 :=
  (zpow_le_one_of_nonpos₀ one_le_two (by decide)).trans_lt (one_lt_pow₀ one_lt_two (by decide))

theorem ulp_pos (q : ℚ) : 0 < ulp q := zpow_pos two_pos _

theorem least_le_ulp (q : ℚ) : least ≤ ulp q :=
  zpow_le_zpow_right₀ one_le_two (le_max_right _ _)

theorem floor_le_roundHalfEven (x : ℚ) : ⌊x⌋ ≤ roundHalfEven x := by
  unfold roundHalfEven
  split_ifs
  · exact le_rfl
  · omega

/-- The last digit of the floats next to `q` weighs no more than `q`. -/
theorem ulp_le {q : ℚ} (h : least ≤ q) : ulp q ≤ q := by
  have hpos : 0 < q := least_pos.trans_le h
  rcases le_total (Int.log 2 q - 52) (-1074) with hsmall | hlarge
  · rw [ulp, max_eq_right hsmall]
    exact h
  · rw [ulp, max_eq_left hlarge]
    calc (2 : ℚ) ^ (Int.log 2 q - 52)
        ≤ 2 ^ Int.log 2 q := zpow_le_zpow_right₀ one_le_two (by omega)
      _ ≤ q := by exact_mod_cast Int.zpow_log_le_self one_lt_two hpos

/-- **What is not smaller than the least float is not rounded below it.** -/
theorem least_le_nearest {q : ℚ} (h : least ≤ q) : least ≤ nearest q := by
  have hone : 1 ≤ q / ulp q := (one_le_div₀ (ulp_pos q)).2 (ulp_le h)
  have hround : 1 ≤ roundHalfEven (q / ulp q) :=
    (Int.le_floor.2 (by exact_mod_cast hone)).trans (floor_le_roundHalfEven _)
  calc least ≤ ulp q := least_le_ulp q
    _ = 1 * ulp q := (one_mul _).symm
    _ ≤ nearest q := mul_le_mul_of_nonneg_right (by exact_mod_cast hround) (ulp_pos q).le

theorem roundHalfEven_le (x : ℚ) : roundHalfEven x ≤ ⌊x⌋ + 1 := by
  unfold roundHalfEven
  split_ifs
  · omega
  · exact le_rfl

theorem roundHalfEven_intCast (n : ℤ) : roundHalfEven n = n := by
  unfold roundHalfEven
  rw [Int.floor_intCast, sub_self, if_pos (Or.inl one_half_pos)]

/-- A number is rounded to 53 digits. -/
theorem roundHalfEven_div_ulp_le (q : ℚ) : roundHalfEven (q / ulp q) ≤ 2 ^ 53 := by
  have hlog : q < 2 ^ (Int.log 2 q + 1) := by
    exact_mod_cast Int.lt_zpow_succ_log_self one_lt_two q
  have hdigits : q < 2 ^ 53 * ulp q :=
    calc q < 2 ^ (Int.log 2 q + 1) := hlog
      _ = 2 ^ 53 * 2 ^ (Int.log 2 q - 52) := by
        rw [← zpow_natCast, ← zpow_add₀ two_ne_zero]
        congr 1
        push_cast
        omega
      _ ≤ 2 ^ 53 * ulp q := mul_le_mul_of_nonneg_left
        (zpow_le_zpow_right₀ one_le_two (le_max_left _ _)) (by positivity)
  have hfloor : ⌊q / ulp q⌋ < 2 ^ 53 :=
    Int.floor_lt.2 (by exact_mod_cast (div_lt_iff₀ (ulp_pos q)).2 hdigits)
  have hround := roundHalfEven_le (q / ulp q)
  omega

/-- A number with a whole number of last digits is rounded to itself. -/
theorem nearest_of_digits {q : ℚ} {n : ℤ} (h : q = n * ulp q) : nearest q = q := by
  have hdiv : q / ulp q = n := (div_eq_iff (ulp_pos q).ne').2 h
  rw [nearest, hdiv, roundHalfEven_intCast, ← h]

/-- **A number with 53 digits is a float.** -/
theorem nearest_mul_zpow {m e : ℤ} (hm : 0 < m) (hle : m ≤ 2 ^ 53) (he : -1074 ≤ e) :
    nearest (m * 2 ^ e) = m * 2 ^ e := by
  have hmq : (0 : ℚ) < m := by exact_mod_cast hm
  have hpos : (0 : ℚ) < m * 2 ^ e := mul_pos hmq (zpow_pos two_pos e)
  generalize hq : (m * 2 ^ e : ℚ) = q at hpos
  have hlow : (2 : ℚ) ^ Int.log 2 q ≤ q := by
    exact_mod_cast Int.zpow_log_le_self one_lt_two hpos
  rcases le_or_gt (Int.log 2 q - 52) e with hdigit | hcarry
  · -- The last digit of `q` weighs no more than `2 ^ e`.
    obtain ⟨k, hk⟩ := Int.eq_ofNat_of_zero_le (sub_nonneg.2 (max_le hdigit he))
    refine nearest_of_digits (n := m * 2 ^ k) ?_
    have hsplit : (2 : ℚ) ^ e = 2 ^ k * ulp q := by
      rw [ulp, ← zpow_natCast, ← zpow_add₀ two_ne_zero]
      congr 1
      omega
    calc q = m * 2 ^ e := hq.symm
      _ = m * (2 ^ k * ulp q) := by rw [hsplit]
      _ = ((m * 2 ^ k : ℤ) : ℚ) * ulp q := by
        push_cast
        ring
  · -- The digits are carried: `q` is the next power of two.
    have hle' : q ≤ 2 ^ (e + 53) := by
      rw [← hq, zpow_add₀ two_ne_zero, mul_comm]
      exact mul_le_mul_of_nonneg_left (by exact_mod_cast hle) (zpow_pos two_pos e).le
    have hge : (2 : ℚ) ^ (e + 53) ≤ 2 ^ Int.log 2 q := zpow_le_zpow_right₀ one_le_two (by omega)
    have heq : q = 2 ^ (e + 53) := le_antisymm hle' (hge.trans hlow)
    have hlog : Int.log 2 q = e + 53 := by
      rw [heq]
      exact_mod_cast Int.log_zpow (R := ℚ) one_lt_two (e + 53)
    refine nearest_of_digits (n := 2 ^ 52) ?_
    rw [ulp, max_eq_left (by omega), hlog]
    calc q = 2 ^ (e + 53) := heq
      _ = 2 ^ (52 : ℤ) * 2 ^ (e + 53 - 52) := by
        rw [← zpow_add₀ two_ne_zero]
        congr 1
        omega
      _ = ((2 ^ 52 : ℤ) : ℚ) * 2 ^ (e + 53 - 52) := by norm_cast

theorem nearest_least : nearest least = least := by
  have h := nearest_mul_zpow one_pos (by norm_num) (le_refl (-1074))
  simpa [least] using h

/-- **A rounded number is a float.** -/
theorem nearest_nearest {q : ℚ} (h : least ≤ nearest q) :
    nearest (nearest q) = nearest q := by
  have hround : 0 < roundHalfEven (q / ulp q) := by
    have hpos := least_pos.trans_le h
    unfold nearest at hpos
    exact_mod_cast pos_of_mul_pos_left hpos (ulp_pos q).le
  exact nearest_mul_zpow hround (roundHalfEven_div_ulp_le q) (le_max_right _ _)

/-- The first integer that is no float. -/
example : nearest 9007199254740993 = 9007199254740992 := by decide +kernel

end Binary64
