/-
**Lines of texts.**

`str.splitlines` ends a line at every code point that Unicode counts as a line boundary, not only at
a line feed.

Main definitions:

* `PyStr.isLineEnd`, `PyStr.splitlines` — where lines end, and the lines of a text.

Main results:

* `PyStr.splitlines_line` — a line without such a code point is one line;
* `PyStr.splitlines_cut` — a line with one is cut there;
* `PyStr.strip_strip`, `PyStr.strip_of_ends`, `PyStr.strip_prefix` — what `strip` leaves.
-/

import CatAgent.PyStr

set_option relaxedAutoImplicit false
set_option autoImplicit false

namespace PyStr

/-! ### Lines -/

/-- The code points that end a line. -/
def isLineEnd (c : CodePoint) : Bool :=
  (0x0A ≤ c.val && c.val ≤ 0x0D) || (0x1C ≤ c.val && c.val ≤ 0x1E) || c.val == 0x85 ||
    c.val == 0x2028 || c.val == 0x2029

/-- The lines of a text; `afterReturn` says that a line has just been ended by a carriage return,
and a line feed would belong to it. -/
def splitlinesFrom : Bool → PyStr → List PyStr
  | _, [] => []
  | afterReturn, c :: rest =>
      if afterReturn && c.val == 0x0A then splitlinesFrom false rest
      else if isLineEnd c then [] :: splitlinesFrom (c.val == 0x0D) rest
      else
        match splitlinesFrom false rest with
        | [] => [[c]]
        | line :: lines => (c :: line) :: lines

/-- `str.splitlines()`. -/
def splitlines (s : PyStr) : List PyStr := splitlinesFrom false s

/-- The line feed. -/
def lineFeed : CodePoint := ofChar '\n'

/-- **A line is cut at the first code point that ends a line.** -/
theorem splitlines_cut {a : PyStr} (ha : ∀ c ∈ a, isLineEnd c = false) {e : CodePoint}
    (he : isLineEnd e = true) (s : PyStr) :
    splitlines (a ++ e :: s) = a :: splitlinesFrom (e.val == 0x0D) s := by
  unfold splitlines
  induction a with
  | nil => simp [splitlinesFrom, he]
  | cons c a ih =>
      rw [List.forall_mem_cons] at ha
      rw [List.cons_append]
      simp only [splitlinesFrom, Bool.false_and, Bool.false_eq_true, if_false, ha.1, ih ha.2]

/-- **A line without such a code point is one line.** -/
theorem splitlines_line {a : PyStr} (ha : ∀ c ∈ a, isLineEnd c = false) (s : PyStr) :
    splitlines (a ++ lineFeed :: s) = a :: splitlines s :=
  splitlines_cut ha (by decide) s

/-! ### What is stripped -/

/-- Whatever is stripped off the beginning, the rest begins with something else. -/
theorem strip_of_head {c : CodePoint} (hc : isSpace c = false) (s : PyStr) :
    strip (c :: s) = (c :: s).rdropWhile isSpace := by
  rw [strip, List.dropWhile_cons, hc]
  rfl

/-- A text that begins with no space is stripped to a beginning of it. -/
theorem strip_prefix {c : CodePoint} (hc : isSpace c = false) (s : PyStr) :
    strip (c :: s) <+: c :: s ∧ strip (c :: s) ≠ [] := by
  refine ⟨?_, ?_⟩
  · rw [strip_of_head hc]
    exact List.rdropWhile_prefix _ _
  · rw [ne_eq, strip_eq_nil_iff]
    intro hall
    rw [hall c List.mem_cons_self] at hc
    cases hc

/-- A text that begins and ends with something that is no space is left alone. -/
theorem strip_of_ends {s : PyStr} (hhead : ∀ c ∈ s.head?, isSpace c = false)
    (hlast : ∀ c ∈ s.getLast?, isSpace c = false) : strip s = s := by
  cases s with
  | nil => rfl
  | cons c s =>
      rw [strip_of_head (hhead c rfl), List.rdropWhile_eq_self_iff]
      intro hne
      simp [hlast _ (List.getLast_mem_getLast? hne)]

/-- **Stripping once is enough.** -/
theorem strip_strip (s : PyStr) : strip (strip s) = strip s := by
  refine strip_of_ends ?_ ?_
  · intro c hc
    have hmem : strip s ≠ [] := by
      intro hnil
      rw [hnil] at hc
      cases hc
    have hdrop : s.dropWhile isSpace ≠ [] := by
      intro hnil
      rw [strip, hnil] at hmem
      exact hmem rfl
    have hhead : (s.dropWhile isSpace).head? = some c := by
      obtain ⟨t, ht⟩ := List.rdropWhile_prefix isSpace (s.dropWhile isSpace)
      cases hstrip : strip s with
      | nil => exact absurd hstrip hmem
      | cons d rest =>
          rw [hstrip] at hc
          cases hc
          have heq : (s.dropWhile isSpace).rdropWhile isSpace = c :: rest := hstrip
          rw [← ht, heq]
          rfl
    have hnot := List.head_dropWhile_not isSpace hdrop
    have heq : (s.dropWhile isSpace).head hdrop = c := by
      rw [List.head?_eq_some_head hdrop] at hhead
      exact Option.some.inj hhead
    rw [heq] at hnot
    exact hnot
  · intro c hc
    have hidem : (strip s).rdropWhile isSpace = strip s := List.rdropWhile_idempotent _ _
    have hne : strip s ≠ [] := by
      intro hnil
      rw [hnil] at hc
      cases hc
    have hlast := List.rdropWhile_eq_self_iff.1 hidem hne
    rw [List.getLast?_eq_some_getLast hne] at hc
    cases hc
    simpa using hlast

end PyStr
