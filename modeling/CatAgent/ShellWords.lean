/-
**Words of a command line.**

A command line is cut into words the way a POSIX shell does it: blanks separate words, quotes keep
blanks and join what they hold to the word around them, and a backslash takes the next character as
it is.  Two more functions of the interpreter that read and write such texts are defined here, the
decimal integers and the UTF-8 encoding.

Main definitions:

* `ShellWords.split` — `shlex.split`;
* `ShellWords.decimal` — `int(s, 10)`, for a table of the decimal digits of other scripts;
* `PyStr.utf8` — `str.encode('utf-8')`.

Main results:

* `PyStr.utf8_append` — texts are encoded one after the other.
-/

import CatAgent.JsonText

set_option relaxedAutoImplicit false
set_option autoImplicit false

namespace ShellWords

/-! ### `shlex.split` -/

/-- Where the reader stands: between words, in a word, in quotes, or after a backslash, from which
it goes back to where it was. -/
inductive Place where
  | between
  | word
  | quoted (quote : CodePoint)
  | escaped (outer : Option CodePoint)
deriving DecidableEq

/-- The reader: the word so far, whether a quote was met in it, and the words before it. -/
structure Reader where
  place : Place
  token : PyStr
  quoted : Bool
  words : List PyStr
deriving DecidableEq

def isBlank (c : CodePoint) : Bool :=
  c.val == 0x20 || c.val == 0x09 || c.val == 0x0D || c.val == 0x0A

/-- The two quotes. -/
def isQuote (c : CodePoint) : Bool := c.val == 0x27 || c.val == 0x22

def backslash : CodePoint := PyStr.ofChar '\\'

def doubleQuote : CodePoint := PyStr.ofChar '\x22'

namespace Reader

def start : Reader := ⟨Place.between, [], false, []⟩

/-- The word is complete; an empty one counts when it was quoted. -/
def finish (r : Reader) : Reader :=
  if r.token = [] ∧ r.quoted = false then { r with place := Place.between }
  else ⟨Place.between, [], false, r.words ++ [r.token]⟩

/-- A character is added to the word, and the reader stands at `place`. -/
def add (c : CodePoint) (place : Place) (r : Reader) : Reader :=
  { r with place := place, token := r.token ++ [c] }

/-- One character, outside quotes. -/
def plain (c : CodePoint) (r : Reader) : Reader :=
  if c = backslash then { r with place := Place.escaped none }
  else if isQuote c then { r with place := Place.quoted c }
  else r.add c Place.word

/-- One character. -/
def read (r : Reader) (c : CodePoint) : Reader :=
  match r.place with
  | Place.between => if isBlank c then r else r.plain c
  | Place.word => if isBlank c then r.finish else r.plain c
  | Place.quoted quote =>
      let r := { r with quoted := true }
      if c = quote then { r with place := Place.word }
      else if c = backslash ∧ quote = doubleQuote then
        { r with place := Place.escaped (some quote) }
      else r.add c (Place.quoted quote)
  | Place.escaped none => r.add c Place.word
  | Place.escaped (some quote) =>
      -- In quotes only the quote and the backslash can be escaped.
      if c ≠ backslash ∧ c ≠ quote then
        (r.add backslash (Place.quoted quote)).add c (Place.quoted quote)
      else r.add c (Place.quoted quote)

end Reader

/-- `shlex.split(s, posix=True)`. -/
def split (s : PyStr) : Except PyStr (List PyStr) :=
  let r := s.foldl Reader.read Reader.start
  match r.place with
  | Place.between | Place.word => Except.ok r.finish.words
  | Place.quoted _ => Except.error "No closing quotation"
  | Place.escaped _ => Except.error "No escaped character"

example : split "cyclic_process 'a b'/c\\ d -n \"\"" =
    Except.ok (["cyclic_process", "a b/c d", "-n", ""].map PyStr.ofString) := by decide

/-! ### `int(s, 10)` -/

/-- What `int` skips around the number: the white space of ASCII, or of Unicode if some other
character of the string is not ASCII. -/
def isMargin (ascii : Bool) (c : CodePoint) : Bool :=
  if ascii then (9 ≤ c.val && c.val ≤ 13) || c.val == 32 else PyStr.isSpace c

/-- The digits of a number, one underscore at most between two of them. -/
def digits (digit : CodePoint → Option ℕ) : Option ℕ → PyStr → Option ℕ
  | value, [] => value
  | value, c :: s =>
      match digit c with
      | some d => digits digit (some (10 * value.getD 0 + d)) s
      | none =>
          match value, s with
          | some n, c' :: s' =>
              if c.val = 0x5F then
                match digit c' with
                | some d => digits digit (some (10 * n + d)) s'
                | none => none
              else none
          | _, _ => none

/-- The decimal digits: those of ASCII, and those of a table for the other scripts. -/
def digitOf (table : CodePoint → Option ℕ) (c : CodePoint) : Option ℕ :=
  if c.val < 0x80 then if Json.isDigit c then some (c.val - 0x30) else none else table c

/-- `int(s, 10)`; `none` where it raises `ValueError`. -/
def decimal (table : CodePoint → Option ℕ) (s : PyStr) : Option ℤ :=
  let margin := isMargin (s.all fun c => c.val < 0x80)
  match (s.dropWhile margin).rdropWhile margin with
  | [] => none
  | c :: rest =>
      if c.val = 0x2D then (digits (digitOf table) none rest).map fun n => -(n : ℤ)
      else if c.val = 0x2B then (digits (digitOf table) none rest).map fun n => (n : ℤ)
      else (digits (digitOf table) none (c :: rest)).map fun n => (n : ℤ)

example : decimal (fun _ => none) " +1_0 " = some 10 := by decide

end ShellWords

/-! ### UTF-8 -/

namespace PyStr

/-- The bytes of a code point. -/
def utf8Bytes (c : CodePoint) : List UInt8 :=
  let tail (n : ℕ) : UInt8 := UInt8.ofNat (0x80 + n % 0x40)
  if c.val < 0x80 then [UInt8.ofNat c.val]
  else if c.val < 0x800 then [UInt8.ofNat (0xC0 + c.val / 0x40), tail c.val]
  else if c.val < 0x10000 then
    [UInt8.ofNat (0xE0 + c.val / 0x1000), tail (c.val / 0x40), tail c.val]
  else
    [UInt8.ofNat (0xF0 + c.val / 0x40000), tail (c.val / 0x1000), tail (c.val / 0x40), tail c.val]

/-- `s.encode('utf-8')`, for a string that can be encoded. -/
def utf8 (s : PyStr) : List UInt8 := s.flatMap utf8Bytes

@[simp] theorem utf8_nil : utf8 [] = [] := rfl

/-- Texts are encoded one after the other. -/
theorem utf8_append (s t : PyStr) : utf8 (s ++ t) = utf8 s ++ utf8 t := List.flatMap_append ..

end PyStr
