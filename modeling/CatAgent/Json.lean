/-
**JSON values and their texts.**

A JSON value is what `json.dumps` writes and `json.loads` reads back: `None`, booleans, integers,
floats, strings, lists and dictionaries with string keys.  Floats are exact rationals here.  Reading
a written text back gives the written value, so a saved row or a message is modelled by its value;
what the text adds is its size, and the question whether it can be encoded at all.

Main definitions:

* `Json`, `Json.get`, `Json.asInt` and its siblings — values, and how a reader takes them apart;
* `Json.decodeList`, `Json.decodeItems` — reading every element of a list, every item of a
  dictionary;
* `Json.escape`, `Json.dumps` — the text, written with `ensure_ascii=False`.

Main results:

* `Json.decodeList_map`, `Json.decodeItems_map` — what is written element by element is read back;
* `Json.encodable_dumps_iff` — a text can be encoded exactly when no string in it holds a
  surrogate.
-/

import CatAgent.PyStr
import Mathlib.Data.Rat.Defs
import Mathlib.Algebra.Order.Ring.Rat

set_option relaxedAutoImplicit false
set_option autoImplicit false

/-- A JSON value. -/
inductive Json where
  | null
  | bool (b : Bool)
  | int (n : ℤ)
  | num (q : ℚ)
  | str (s : PyStr)
  | arr (xs : List Json)
  | obj (items : List (PyStr × Json))

namespace Json

/-! ### Equality -/

mutual

/-- Equality of values. -/
def beq : Json → Json → Bool
  | null, null => true
  | bool a, bool b => a == b
  | int a, int b => a == b
  | num a, num b => a == b
  | str a, str b => a == b
  | arr a, arr b => beqList a b
  | obj a, obj b => beqItems a b
  | _, _ => false

/-- Equality of lists of values. -/
def beqList : List Json → List Json → Bool
  | [], [] => true
  | a :: as, b :: bs => beq a b && beqList as bs
  | _, _ => false

/-- Equality of lists of items. -/
def beqItems : List (PyStr × Json) → List (PyStr × Json) → Bool
  | [], [] => true
  | (k, a) :: as, (l, b) :: bs => k == l && beq a b && beqItems as bs
  | _, _ => false

end

mutual

theorem beq_iff (a b : Json) : beq a b = true ↔ a = b := by
  cases a with
  | null => cases b <;> simp [beq]
  | bool a => cases b <;> simp [beq]
  | int a => cases b <;> simp [beq]
  | num a => cases b <;> simp [beq]
  | str a => cases b <;> simp [beq]
  | arr a =>
      cases b with
      | arr b => simpa [beq] using beqList_iff a b
      | _ => simp [beq]
  | obj a =>
      cases b with
      | obj b => simpa [beq] using beqItems_iff a b
      | _ => simp [beq]

theorem beqList_iff (a b : List Json) : beqList a b = true ↔ a = b := by
  cases a with
  | nil => cases b <;> simp [beqList]
  | cons a as =>
      cases b with
      | nil => simp [beqList]
      | cons b bs => simp [beqList, beq_iff a b, beqList_iff as bs]

theorem beqItems_iff (a b : List (PyStr × Json)) : beqItems a b = true ↔ a = b := by
  cases a with
  | nil => cases b <;> simp [beqItems]
  | cons a as =>
      cases b with
      | nil => simp [beqItems]
      | cons b bs =>
          obtain ⟨k, a⟩ := a
          obtain ⟨l, b⟩ := b
          simp [beqItems, beq_iff a b, beqItems_iff as bs]

end

instance : DecidableEq Json := fun a b => decidable_of_iff (beq a b = true) (beq_iff a b)

/-! ### Taking values apart -/

/-- The first item with key `k`. -/
def find (k : PyStr) : List (PyStr × Json) → Option Json
  | [] => none
  | (k', v) :: l => if k' = k then some v else find k l

@[simp] theorem find_nil (k : PyStr) : find k [] = none := rfl

@[simp] theorem find_cons (k k' : PyStr) (v : Json) (l : List (PyStr × Json)) :
    find k ((k', v) :: l) = if k' = k then some v else find k l := rfl

/-- `v[k]`, for a dictionary. -/
def get (k : PyStr) : Json → Option Json
  | obj items => find k items
  | _ => none

@[simp] theorem get_obj (k : PyStr) (items : List (PyStr × Json)) :
    get k (obj items) = find k items := rfl

/-- An integer. -/
def asInt : Json → Option ℤ
  | int n => some n
  | _ => none

/-- A float. -/
def asNum : Json → Option ℚ
  | num q => some q
  | _ => none

/-- A boolean. -/
def asBool : Json → Option Bool
  | bool b => some b
  | _ => none

/-- A string. -/
def asStr : Json → Option PyStr
  | str s => some s
  | _ => none

/-- `None`, or a value that `f` reads. -/
def asOption {α : Type} (f : Json → Option α) : Json → Option (Option α)
  | null => some none
  | v => (f v).map some

/-- `None`, or the value written by `f`. -/
def ofOption {α : Type} (f : α → Json) : Option α → Json
  | none => null
  | some a => f a

@[simp] theorem asInt_int (n : ℤ) : asInt (int n) = some n := rfl

@[simp] theorem asNum_num (q : ℚ) : asNum (num q) = some q := rfl

@[simp] theorem asBool_bool (b : Bool) : asBool (bool b) = some b := rfl

@[simp] theorem asStr_str (s : PyStr) : asStr (str s) = some s := rfl

theorem asOption_ofOption {α : Type} (enc : α → Json) {dec : Json → Option α}
    (h : ∀ a, dec (enc a) = some a) (hnull : ∀ a, enc a ≠ null) (o : Option α) :
    asOption dec (ofOption enc o) = some o := by
  cases o with
  | none => rfl
  | some a =>
      simp only [ofOption]
      have hdec := h a
      cases hv : enc a with
      | null => exact absurd hv (hnull a)
      | _ =>
          rw [hv] at hdec
          simp [asOption, hdec]

/-- Read every element. -/
def decodeList {α : Type} (dec : Json → Option α) : List Json → Option (List α)
  | [] => some []
  | v :: l => do
      let a ← dec v
      let as ← decodeList dec l
      return a :: as

/-- Read every item. -/
def decodeItems {α : Type} (dec : Json → Option α) :
    List (PyStr × Json) → Option (List (PyStr × α))
  | [] => some []
  | (k, v) :: l => do
      let a ← dec v
      let as ← decodeItems dec l
      return (k, a) :: as

/-- A list whose elements `dec` reads. -/
def asList {α : Type} (dec : Json → Option α) : Json → Option (List α)
  | arr xs => decodeList dec xs
  | _ => none

/-- A dictionary whose values `dec` reads. -/
def asItems {α : Type} (dec : Json → Option α) : Json → Option (List (PyStr × α))
  | obj items => decodeItems dec items
  | _ => none

/-- **What is written element by element is read back.**  Reading may change every element, as
long as it does so one element at a time. -/
theorem decodeList_map {α β : Type} {enc : α → Json} {dec : Json → Option β} {f : α → β}
    (h : ∀ a, dec (enc a) = some (f a)) (l : List α) :
    decodeList dec (l.map enc) = some (l.map f) := by
  induction l with
  | nil => rfl
  | cons a l ih => simp [decodeList, h a, ih]

/-- **What is written item by item is read back.** -/
theorem decodeItems_map {α : Type} {enc : α → Json} {dec : Json → Option α}
    (h : ∀ a, dec (enc a) = some a) (l : List (PyStr × α)) :
    decodeItems dec (l.map fun e => (e.1, enc e.2)) = some l := by
  induction l with
  | nil => rfl
  | cons e l ih => simp [decodeItems, h e.2, ih]

theorem asList_map {α β : Type} {enc : α → Json} {dec : Json → Option β} {f : α → β}
    (h : ∀ a, dec (enc a) = some (f a)) (l : List α) :
    asList dec (arr (l.map enc)) = some (l.map f) := decodeList_map h l

theorem asItems_map {α : Type} {enc : α → Json} {dec : Json → Option α}
    (h : ∀ a, dec (enc a) = some a) (l : List (PyStr × α)) :
    asItems dec (obj (l.map fun e => (e.1, enc e.2))) = some l := decodeItems_map h l

/-! ### Texts -/

/-- The code point of a hexadecimal digit. -/
def hexDigit (n : ℕ) : CodePoint := PyStr.ofChar (Nat.digitChar (n % 16))

/-- One code point of a string literal: quotes, backslashes and control characters are escaped,
everything else is written as it is. -/
def escapeChar (c : CodePoint) : PyStr :=
  if c.val = 0x22 then "\\\""
  else if c.val = 0x5C then "\\\\"
  else if c.val = 0x0A then "\\n"
  else if c.val = 0x0D then "\\r"
  else if c.val = 0x09 then "\\t"
  else if c.val = 0x0C then "\\f"
  else if c.val = 0x08 then "\\b"
  else if c.val < 0x20 then PyStr.ofString "\\u00" ++ [hexDigit (c.val / 16), hexDigit c.val]
  else [c]

/-- A string literal. -/
def escape (s : PyStr) : PyStr := PyStr.ofString "\"" ++ s.flatMap escapeChar ++ PyStr.ofString "\""

mutual

/-- `json.dumps(v, ensure_ascii=False)`; `fl` writes the floats. -/
def dumps (fl : ℚ → PyStr) : Json → PyStr
  | null => "null"
  | bool true => "true"
  | bool false => "false"
  | int n => toString n
  | num q => fl q
  | str s => escape s
  | arr xs => PyStr.ofString "[" ++ dumpsList fl xs ++ PyStr.ofString "]"
  | obj items => PyStr.ofString "\x7b" ++ dumpsItems fl items ++ PyStr.ofString "\x7d"

/-- The elements of a list, separated by commas. -/
def dumpsList (fl : ℚ → PyStr) : List Json → PyStr
  | [] => []
  | [v] => dumps fl v
  | v :: w :: l => dumps fl v ++ PyStr.ofString ", " ++ dumpsList fl (w :: l)

/-- The items of a dictionary, separated by commas. -/
def dumpsItems (fl : ℚ → PyStr) : List (PyStr × Json) → PyStr
  | [] => []
  | [(k, v)] => escape k ++ PyStr.ofString ": " ++ dumps fl v
  | (k, v) :: w :: l =>
      escape k ++ PyStr.ofString ": " ++ dumps fl v ++ PyStr.ofString ", " ++
        dumpsItems fl (w :: l)

end

/-- A hexadecimal digit is an ASCII character. -/
theorem hexDigit_ascii (n : ℕ) :
    PyStr.utf8Size (hexDigit n) = 1 ∧ PyStr.isSurrogate (hexDigit n) = false := by
  have h : ∀ m < 16, PyStr.utf8Size (PyStr.ofChar (Nat.digitChar m)) = 1 ∧
      PyStr.isSurrogate (PyStr.ofChar (Nat.digitChar m)) = false := by decide
  exact h (n % 16) (Nat.mod_lt _ (by omega))

theorem encodable_escapeChar_iff (c : CodePoint) :
    PyStr.Encodable (escapeChar c) ↔ PyStr.isSurrogate c = false := by
  have hsmall : c.val < 0x80 → PyStr.isSurrogate c = false := by
    intro h
    by_contra hs
    simp only [PyStr.isSurrogate, Bool.not_eq_false, Bool.and_eq_true, decide_eq_true_eq] at hs
    omega
  unfold escapeChar
  split_ifs
  all_goals first
    | (refine iff_of_true (PyStr.encodable_ofString _) (hsmall ?_); omega)
    | skip
  · rw [PyStr.encodable_append]
    refine iff_of_true ⟨PyStr.encodable_ofString _, ?_⟩ (hsmall (by omega))
    simp [PyStr.Encodable, (hexDigit_ascii _).2]
  · simp [PyStr.Encodable]

/-- **A string literal can be encoded exactly when the string holds no surrogate.** -/
theorem encodable_escape_iff (s : PyStr) : PyStr.Encodable (escape s) ↔ PyStr.Encodable s := by
  have hbody : PyStr.Encodable (s.flatMap escapeChar) ↔ PyStr.Encodable s := by
    induction s with
    | nil => simp
    | cons c s ih =>
        have hc : PyStr.Encodable (c :: s) ↔ PyStr.isSurrogate c = false ∧ PyStr.Encodable s := by
          simp [PyStr.Encodable]
        rw [List.flatMap_cons, PyStr.encodable_append, encodable_escapeChar_iff, ih, hc]
  simp only [escape, PyStr.encodable_append, hbody]
  simp

mutual

/-- The strings in a value, keys included. -/
def strings : Json → List PyStr
  | str s => [s]
  | arr xs => stringsList xs
  | obj items => stringsItems items
  | _ => []

/-- The strings in a list of values. -/
def stringsList : List Json → List PyStr
  | [] => []
  | v :: l => strings v ++ stringsList l

/-- The strings in a list of items. -/
def stringsItems : List (PyStr × Json) → List PyStr
  | [] => []
  | (k, v) :: l => k :: strings v ++ stringsItems l

end

mutual

/-- **A text can be encoded exactly when no string in it holds a surrogate.** -/
theorem encodable_dumps_iff {fl : ℚ → PyStr} (hfl : ∀ q, PyStr.Encodable (fl q)) (v : Json) :
    PyStr.Encodable (dumps fl v) ↔ ∀ s ∈ strings v, PyStr.Encodable s := by
  cases v with
  | null => simp [dumps, strings]
  | bool b => cases b <;> simp [dumps, strings]
  | int n => simp [dumps, strings]
  | num q => simp [dumps, strings, hfl q]
  | str s => simp [dumps, strings, encodable_escape_iff]
  | arr xs => simp [dumps, strings, encodable_dumpsList_iff hfl xs]
  | obj items => simp [dumps, strings, encodable_dumpsItems_iff hfl items]

theorem encodable_dumpsList_iff {fl : ℚ → PyStr} (hfl : ∀ q, PyStr.Encodable (fl q))
    (l : List Json) :
    PyStr.Encodable (dumpsList fl l) ↔ ∀ s ∈ stringsList l, PyStr.Encodable s := by
  cases l with
  | nil => simp [dumpsList, stringsList]
  | cons v l =>
      cases l with
      | nil => simp [dumpsList, stringsList, encodable_dumps_iff hfl v]
      | cons w l =>
          have hv := encodable_dumps_iff hfl v
          have hl := encodable_dumpsList_iff hfl (w :: l)
          rw [dumpsList, stringsList, List.forall_mem_append, ← hv, ← hl]
          simp

theorem encodable_dumpsItems_iff {fl : ℚ → PyStr} (hfl : ∀ q, PyStr.Encodable (fl q))
    (l : List (PyStr × Json)) :
    PyStr.Encodable (dumpsItems fl l) ↔ ∀ s ∈ stringsItems l, PyStr.Encodable s := by
  cases l with
  | nil => simp [dumpsItems, stringsItems]
  | cons e l =>
      obtain ⟨k, v⟩ := e
      have hv := encodable_dumps_iff hfl v
      cases l with
      | nil => simp [dumpsItems, stringsItems, encodable_escape_iff, hv]
      | cons w l =>
          have hl := encodable_dumpsItems_iff hfl (w :: l)
          rw [dumpsItems, stringsItems, List.forall_mem_append, List.forall_mem_cons, ← hv, ← hl]
          simp [encodable_escape_iff, and_assoc]

end

end Json
