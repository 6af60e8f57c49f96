/-
**The last value that fits.**

A binary search between two bounds looks for the largest number with a property that numbers lose
at most once on the way up.

Main definitions:

* `bisect` — the search.

Main results:

* `bisect_last` — **no larger number up to the upper bound has the property**.
-/

import Mathlib.Order.Basic
import Mathlib.Tactic.Common

set_option relaxedAutoImplicit false
set_option autoImplicit false

/-- The largest number from `low` to `high` that fits, found by halving the interval. -/
def bisect (fits : ℕ → Bool) (low high : ℕ) : ℕ :=
  if low < high then
    let mid := (low + high + 1) / 2
    if fits mid then bisect fits mid high else bisect fits low (mid - 1)
  else low
termination_by high - low
decreasing_by all_goals omega

variable {fits : ℕ → Bool} {low high : ℕ}

theorem bisect_le (h : low ≤ high) : bisect fits low high ≤ high := by
  fun_induction bisect fits low high with
  | case1 low high hlt mid hfits ih =>
      have hmid : mid = (low + high + 1) / 2 := rfl
      exact ih (by omega)
  | case2 low high hlt mid hfits ih =>
      have hmid : mid = (low + high + 1) / 2 := rfl
      have hle := ih (by omega)
      omega
  | case3 low high hge => exact h

/-- **No larger number fits.** -/
theorem bisect_last (hmono : ∀ m n, m ≤ n → fits n = true → fits m = true) {n : ℕ}
    (hn : bisect fits low high < n) (hhigh : n ≤ high) : fits n = false := by
  fun_induction bisect fits low high with
  | case1 low high hlt mid hfits ih => exact ih hn hhigh
  | case2 low high hlt mid hfits ih =>
      by_cases hmid : n ≤ mid - 1
      · exact ih hn hmid
      · cases hfit : fits n with
        | false => rfl
        | true => exact absurd (hmono mid n (by omega) hfit) hfits
  | case3 low high hge => omega
