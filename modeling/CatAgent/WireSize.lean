/-
**The size of a value on the wire.**

The guard of a turn measures a value by the length of its compact text, in which everything
outside ASCII is escaped.  A string is written character by character, so its size is a sum over
its characters, and a longer beginning of a string never takes less.

Main definitions:

* `Json.asciiChar`, `Json.ascii` — `json.dumps` with `ensure_ascii=True` and
  `separators=(",", ":")`;
* `Json.wireSize` — `wire_size`;
* `Json.asciiSize`, `Json.escapedSize` — the size of a character, and of what is between the quotes.

Main results:

* `Json.utf8Length_asciiChar` — a character takes one, two, six or twelve bytes;
* `Json.wireSize_lastItem` — the size of an object as a function of the string that it ends with;
* `Json.escapedSize_take_le`, `Json.length_le_escapedSize` — sizes of beginnings.
-/

import CatAgent.JsonText

set_option relaxedAutoImplicit false
set_option autoImplicit false

namespace Json

/-! ### Writing -/

/-- `\uXXXX`. -/
def unicodeEscape (n : ℕ) : PyStr :=
  PyStr.ofString "\\u" ++
    [hexDigit (n / 4096), hexDigit (n / 256), hexDigit (n / 16), hexDigit n]

/-- One code point of a string literal: everything that is not a printable ASCII character is
escaped, and beyond the basic plane by two surrogates. -/
def asciiChar (c : CodePoint) : PyStr :=
  if c.val = 0x22 then "\\\""
  else if c.val = 0x5C then "\\\\"
  else if c.val = 0x0A then "\\n"
  else if c.val = 0x0D then "\\r"
  else if c.val = 0x09 then "\\t"
  else if c.val = 0x0C then "\\f"
  else if c.val = 0x08 then "\\b"
  else if 0x20 ≤ c.val ∧ c.val ≤ 0x7E then [c]
  else if c.val < 0x10000 then unicodeEscape c.val
  else
    unicodeEscape (0xD800 + (c.val - 0x10000) / 0x400) ++
      unicodeEscape (0xDC00 + (c.val - 0x10000) % 0x400)

/-- A string literal. -/
def asciiEscape (s : PyStr) : PyStr :=
  PyStr.ofString "\"" ++ s.flatMap asciiChar ++ PyStr.ofString "\""

mutual

/-- `json.dumps(v, ensure_ascii=True, separators=(",", ":"))`; `fl` writes the floats. -/
def ascii (fl : ℚ → PyStr) : Json → PyStr
  | null => "null"
  | bool true => "true"
  | bool false => "false"
  | int n => toString n
  | num q => fl q
  | str s => asciiEscape s
  | arr xs => PyStr.ofString "[" ++ commaJoin (asciiList fl xs) ++ PyStr.ofString "]"
  | obj items => PyStr.ofString "\x7b" ++ commaJoin (asciiItems fl items) ++ PyStr.ofString "\x7d"

/-- The texts of the elements. -/
def asciiList (fl : ℚ → PyStr) : List Json → List PyStr
  | [] => []
  | v :: l => ascii fl v :: asciiList fl l

/-- The texts of the items. -/
def asciiItems (fl : ℚ → PyStr) : List (PyStr × Json) → List PyStr
  | [] => []
  | (k, v) :: l => (asciiEscape k ++ PyStr.ofString ":" ++ ascii fl v) :: asciiItems fl l

end

/-- `wire_size(value)`. -/
def wireSize (fl : ℚ → PyStr) (v : Json) : ℕ := PyStr.utf8Length (ascii fl v)

/-! ### Sizes -/

/-- The size of a character. -/
def asciiSize (c : CodePoint) : ℕ :=
  if c.val = 0x22 ∨ c.val = 0x5C ∨ (0x08 ≤ c.val ∧ c.val ≤ 0x0D ∧ c.val ≠ 0x0B) then 2
  else if 0x20 ≤ c.val ∧ c.val ≤ 0x7E then 1
  else if c.val < 0x10000 then 6
  else 12

/-- The size of a string without its quotes. -/
def escapedSize (s : PyStr) : ℕ := (s.map asciiSize).sum

theorem utf8Length_unicodeEscape (n : ℕ) : PyStr.utf8Length (unicodeEscape n) = 6 := by
  have hpre : PyStr.utf8Length (PyStr.ofString "\\u") = 2 := by decide
  simp only [unicodeEscape, PyStr.utf8Length_append, hpre, PyStr.utf8Length_cons,
    (hexDigit_ascii _).1, PyStr.utf8Length_nil]

/-- **A character takes one, two, six or twelve bytes.** -/
theorem utf8Length_asciiChar (c : CodePoint) : PyStr.utf8Length (asciiChar c) = asciiSize c := by
  unfold asciiChar asciiSize
  split_ifs
  all_goals first
    | omega
    | decide
    | skip
  · simp only [PyStr.utf8Length_cons, PyStr.utf8Length_nil, PyStr.utf8Size]
    rw [if_pos (by omega)]
  · exact utf8Length_unicodeEscape _
  · simp only [PyStr.utf8Length_append, utf8Length_unicodeEscape]

theorem asciiSize_pos (c : CodePoint) : 1 ≤ asciiSize c := by
  unfold asciiSize
  split_ifs <;> omega

@[simp] theorem escapedSize_nil : escapedSize [] = 0 := rfl

@[simp] theorem escapedSize_append (s t : PyStr) :
    escapedSize (s ++ t) = escapedSize s + escapedSize t := by simp [escapedSize]

theorem escapedSize_replicate (n : ℕ) (c : CodePoint) :
    escapedSize (List.replicate n c) = n * asciiSize c := by
  induction n with
  | zero => simp
  | succ n ih =>
      rw [List.replicate_succ', escapedSize_append, ih, Nat.succ_mul]
      simp [escapedSize]

theorem utf8Length_asciiEscape (s : PyStr) :
    PyStr.utf8Length (asciiEscape s) = escapedSize s + 2 := by
  have hquote : PyStr.utf8Length (PyStr.ofString "\"") = 1 := by decide
  have hbody : PyStr.utf8Length (s.flatMap asciiChar) = escapedSize s := by
    induction s with
    | nil => rfl
    | cons c s ih =>
        rw [List.flatMap_cons, PyStr.utf8Length_append, ih, utf8Length_asciiChar]
        simp [escapedSize]
  simp only [asciiEscape, PyStr.utf8Length_append, hquote, hbody]
  omega

/-- Every character takes at least one byte. -/
theorem length_le_escapedSize (s : PyStr) : s.length ≤ escapedSize s := by
  have h := List.length_le_sum_of_one_le (s.map asciiSize) (by
    intro n hn
    obtain ⟨c, -, rfl⟩ := List.mem_map.1 hn
    exact asciiSize_pos c)
  rwa [List.length_map] at h

/-- A longer beginning does not take less. -/
theorem escapedSize_take_le (s : PyStr) {m n : ℕ} (h : m ≤ n) :
    escapedSize (s.take m) ≤ escapedSize (s.take n) := by
  have hsplit : s.take n = s.take m ++ (s.take n).drop m := by
    conv_lhs => rw [← List.take_append_drop m (s.take n)]
    rw [List.take_take, min_eq_left h]
  rw [hsplit, escapedSize_append]
  exact Nat.le_add_right _ _

/-- What is joined last is the last part of the text. -/
theorem commaJoin_concat (l : List PyStr) (t : PyStr) :
    commaJoin (l ++ [t]) = commaJoin (l ++ [[]]) ++ t := by
  induction l with
  | nil => rfl
  | cons u l ih =>
      have hcons : ∀ w, ∃ x r, l ++ [w] = x :: r := by
        intro w
        cases l with
        | nil => exact ⟨w, [], rfl⟩
        | cons x r => exact ⟨x, r ++ [w], rfl⟩
      obtain ⟨x, r, hx⟩ := hcons t
      obtain ⟨y, q, hy⟩ := hcons []
      rw [List.cons_append, List.cons_append, hx, hy]
      simp only [commaJoin]
      rw [← hx, ← hy, ih, List.append_assoc, List.append_assoc, List.append_assoc]

theorem asciiItems_append (fl : ℚ → PyStr) (l l' : List (PyStr × Json)) :
    asciiItems fl (l ++ l') = asciiItems fl l ++ asciiItems fl l' := by
  induction l with
  | nil => rfl
  | cons e l ih =>
      obtain ⟨k, v⟩ := e
      simp only [List.cons_append, asciiItems, ih]

/-- **The size of an object as a function of the string that it ends with.** -/
theorem wireSize_lastItem (fl : ℚ → PyStr) (items : List (PyStr × Json)) (k s : PyStr) :
    wireSize fl (obj (items ++ [(k, str s)])) =
      wireSize fl (obj (items ++ [(k, str [])])) + escapedSize s := by
  have hlast : ∀ t : PyStr, PyStr.utf8Length (commaJoin (asciiItems fl (items ++ [(k, str t)]))) =
      PyStr.utf8Length (commaJoin (asciiItems fl items ++ [[]])) +
        PyStr.utf8Length (asciiEscape k ++ PyStr.ofString ":") + (escapedSize t + 2) := by
    intro t
    rw [asciiItems_append]
    simp only [asciiItems]
    rw [commaJoin_concat, PyStr.utf8Length_append, PyStr.utf8Length_append]
    simp only [ascii]
    rw [utf8Length_asciiEscape]
    omega
  simp only [wireSize, ascii, PyStr.utf8Length_append, hlast, escapedSize_nil]
  omega

end Json
