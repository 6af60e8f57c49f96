/-
**Python strings.**

A Python `str` is a sequence of Unicode code points, and the surrogates are code points like any
other: a string read from an escaped JSON text or returned by a model may hold a lone surrogate,
which no UTF-8 encoder accepts.  Lean's `String` excludes those values, so this module models
`str` by lists of code points and provides the few operations that validators use.

Main definitions:

* `PyStr`, `PyStr.ofString` — strings, and the strings written as literals;
* `PyStr.isSpace`, `PyStr.strip` — white space, and `str.strip`;
* `PyStr.Encodable`, `PyStr.utf8Length` — what `str.encode('utf-8')` accepts, and how many bytes
  it then produces.

Main results:

* `PyStr.strip_eq_nil_iff` — a string strips to nothing exactly when it is all white space;
* `PyStr.strip_eq_self` — stripping a string without white space leaves it alone.
-/

import Mathlib.Algebra.Ring.Nat
import Mathlib.Data.List.DropRight
import Mathlib.Algebra.BigOperators.Group.List.Basic
import Mathlib.Algebra.Order.BigOperators.Group.List

set_option relaxedAutoImplicit false
set_option autoImplicit false

/-- A Unicode code point, surrogates included. -/
abbrev CodePoint := Fin 0x110000

/-- A Python `str`. -/
abbrev PyStr := List CodePoint

namespace PyStr

/-! ### Literals -/

/-- The code point of a character. -/
def ofChar (c : Char) : CodePoint :=
  ⟨c.toNat, by
    have h := c.valid
    simp only [UInt32.isValidChar, Nat.isValidChar] at h
    simp only [Char.toNat]
    omega⟩

/-- The string written by a literal. -/
def ofString (s : String) : PyStr := s.toList.map ofChar

instance : Coe String PyStr := ⟨ofString⟩

-- Named, so that every definition that looks for a string in a list uses one proof.
instance lawfulBEq : LawfulBEq PyStr := inferInstance

theorem ofChar_injective : Function.Injective ofChar := by
  intro a b h
  have hval : a.toNat = b.toNat := Fin.mk.inj h
  exact Char.toNat_inj.1 hval

theorem ofString_injective : Function.Injective ofString := by
  intro a b h
  exact String.toList_inj.1 (List.map_injective_iff.2 ofChar_injective h)

@[simp] theorem ofString_inj (a b : String) : ofString a = ofString b ↔ a = b :=
  ofString_injective.eq_iff

/-- A literal that is not empty is a string that is not empty. -/
theorem ofString_ne_nil {s : String} (h : s ≠ "") : ofString s ≠ [] :=
  fun hnil => h (ofString_injective hnil)

/-! ### White space -/

/-- The code points that `str.isspace` accepts, which are those `str.strip` removes. -/
def isSpace (c : CodePoint) : Bool :=
  (9 ≤ c.val && c.val ≤ 13) || (28 ≤ c.val && c.val ≤ 32) || c.val == 0x85 || c.val == 0xA0 ||
    c.val == 0x1680 || (0x2000 ≤ c.val && c.val ≤ 0x200A) || c.val == 0x2028 || c.val == 0x2029 ||
    c.val == 0x202F || c.val == 0x205F || c.val == 0x3000

/-- `str.strip()`. -/
def strip (s : PyStr) : PyStr := (s.dropWhile isSpace).rdropWhile isSpace

@[simp] theorem strip_nil : strip [] = [] := rfl

/-- **A string strips to nothing exactly when it is all white space.** -/
theorem strip_eq_nil_iff (s : PyStr) : strip s = [] ↔ ∀ c ∈ s, isSpace c = true := by
  rw [strip, List.rdropWhile_eq_nil_iff]
  constructor
  · intro h
    have hnil : s.dropWhile isSpace = [] := by
      cases hs : s.dropWhile isSpace with
      | nil => rfl
      | cons c t =>
          have hc : isSpace c = true := h c (by rw [hs]; exact List.mem_cons_self ..)
          have hne : s.dropWhile isSpace ≠ [] := by rw [hs]; exact List.cons_ne_nil _ _
          have hhead := List.head_dropWhile_not isSpace hne
          simp only [hs, List.head_cons, hc] at hhead
          exact absurd hhead (by simp)
    exact List.dropWhile_eq_nil_iff.1 hnil
  · intro h
    rw [List.dropWhile_eq_nil_iff.2 h]
    simp

/-- A string without white space is left alone. -/
theorem strip_eq_self {s : PyStr} (h : ∀ c ∈ s, isSpace c = false) : strip s = s := by
  have hdrop : s.dropWhile isSpace = s := by
    cases s with
    | nil => rfl
    | cons c t => simp [h c (List.mem_cons_self ..)]
  rw [strip, hdrop, List.rdropWhile_eq_self_iff]
  intro hne
  simp [h _ (List.getLast_mem hne)]

/-! ### Encoding -/

/-- The code points that UTF-8 cannot encode. -/
def isSurrogate (c : CodePoint) : Bool := 0xD800 ≤ c.val && c.val ≤ 0xDFFF

/-- `s.encode('utf-8', errors='strict')` succeeds. -/
def Encodable (s : PyStr) : Prop := ∀ c ∈ s, isSurrogate c = false

-- Over the code points of the string: the instance for `Fin` would go through all code points.
instance (s : PyStr) : Decidable (Encodable s) :=
  List.decidableBAll (fun c => isSurrogate c = false) s

@[simp] theorem encodable_nil : Encodable [] := by simp [Encodable]

@[simp] theorem encodable_append (s t : PyStr) :
    Encodable (s ++ t) ↔ Encodable s ∧ Encodable t := by
  simp [Encodable, or_imp, forall_and]

/-- A literal holds no surrogate. -/
@[simp] theorem encodable_ofString (s : String) : Encodable (ofString s) := by
  intro c hc
  obtain ⟨ch, _, rfl⟩ := List.mem_map.1 hc
  have h := ch.valid
  simp only [UInt32.isValidChar, Nat.isValidChar] at h
  have hval : (ofChar ch).val = ch.val.toNat := rfl
  by_contra hs
  simp only [isSurrogate, hval, Bool.not_eq_false, Bool.and_eq_true, decide_eq_true_eq] at hs
  omega

/-- How many bytes UTF-8 uses for a code point. -/
def utf8Size (c : CodePoint) : ℕ :=
  if c.val < 0x80 then 1 else if c.val < 0x800 then 2 else if c.val < 0x10000 then 3 else 4

/-- How many bytes the encoded string has. -/
def utf8Length (s : PyStr) : ℕ := (s.map utf8Size).sum

@[simp] theorem utf8Length_nil : utf8Length [] = 0 := rfl

@[simp] theorem utf8Length_cons (c : CodePoint) (s : PyStr) :
    utf8Length (c :: s) = utf8Size c + utf8Length s := by simp [utf8Length]

@[simp] theorem utf8Length_append (s t : PyStr) :
    utf8Length (s ++ t) = utf8Length s + utf8Length t := by simp [utf8Length]

end PyStr
