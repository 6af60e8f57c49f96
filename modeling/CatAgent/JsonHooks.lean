/-
**Reading JSON texts.**

`json.loads` reads one value and nothing but blanks around it.  The scanner goes through the text
once: strings are read one code point at a time, with what is left of an escape as the state;
literals are compared as a whole, and a number is the longest one that the text begins with; arrays
and objects are sequences of items.  How floats are read, what becomes of a list of pairs and what
of the constants that are no JSON is left to hooks.  The hooks may raise, so the scanner runs in any
monad with a computation that fails, which is the `JSONDecodeError`.

Main definitions:

* `JsonHooks`, `JsonHooks.scan`, `JsonHooks.loads` — the hooks, and `json.loads` with them;
* `JsonHooks.Related` — hooks that do the same to related values;
* `Json.decimal`, `Json.isDecimal` — `Decimal` of the text of a number, unless it raises.

Main results:

* `JsonHooks.loads_related` — **related hooks read related values**;
* `JsonHooks.loads_forall` — what the hooks keep holds of everything that is read.
-/

import CatAgent.PyStr
import CatAgent.MonadRelation
import Mathlib.Data.Nat.Find
import Mathlib.Data.Rat.Defs

set_option relaxedAutoImplicit false
set_option autoImplicit false

open Failing (fail)

namespace Json

/-! ### Tokens -/

/-- The blanks between the tokens. -/
def isBlank (c : CodePoint) : Bool := c.val == 0x20 || c.val == 0x09 || c.val == 0x0A || c.val == 0x0D

/-- The text without the blanks at its beginning. -/
def skip (s : PyStr) : PyStr := s.dropWhile isBlank

/-- The value of a hexadecimal digit. -/
def hexValue (c : CodePoint) : Option ℕ :=
  if 0x30 ≤ c.val ∧ c.val ≤ 0x39 then some (c.val - 0x30)
  else if 0x41 ≤ c.val ∧ c.val ≤ 0x46 then some (c.val - 0x37)
  else if 0x61 ≤ c.val ∧ c.val ≤ 0x66 then some (c.val - 0x57)
  else none

/-- What a single letter after a backslash stands for. -/
def unescape (c : CodePoint) : Option CodePoint :=
  if c.val = 0x22 ∨ c.val = 0x5C ∨ c.val = 0x2F then some c
  else if c.val = 0x62 then some ⟨0x08, by decide⟩
  else if c.val = 0x66 then some ⟨0x0C, by decide⟩
  else if c.val = 0x6E then some ⟨0x0A, by decide⟩
  else if c.val = 0x72 then some ⟨0x0D, by decide⟩
  else if c.val = 0x74 then some ⟨0x09, by decide⟩
  else none

/-- What has been read of an escape. -/
inductive Escape where
  | nothing
  | backslash
  /-- So many digits are still to come. -/
  | unicode (left : ℕ) (value : ℕ)
deriving DecidableEq

/-- The code point of a number with four hexadecimal digits. -/
def ofHex (n : ℕ) : CodePoint := ⟨n % 0x10000, by omega⟩

/-- A high surrogate that has been written by an escape and a low one make one code point. -/
def combine (high low : CodePoint) : Option CodePoint :=
  if h : (0xD800 ≤ high.val ∧ high.val ≤ 0xDBFF) ∧ (0xDC00 ≤ low.val ∧ low.val ≤ 0xDFFF) then
    some ⟨0x10000 + (high.val - 0xD800) * 0x400 + (low.val - 0xDC00), by omega⟩
  else none

/-- A code point written by an escape; `pending` is the one before it, if that was one too. -/
def emit (pending : Option CodePoint) (c : CodePoint) : PyStr × Option CodePoint :=
  match pending with
  | none => ([], some c)
  | some high =>
      match combine high c with
      | some both => ([both], none)
      | none => ([high], some c)

/-- The rest of a string literal, and what follows it. -/
def scanString : Escape → Option CodePoint → PyStr → Option (PyStr × PyStr)
  | _, _, [] => none
  | Escape.nothing, pending, c :: rest =>
      if c.val = 0x22 then some (pending.toList, rest)
      else if c.val = 0x5C then scanString Escape.backslash pending rest
      else if c.val < 0x20 then none
      else (scanString Escape.nothing none rest).map fun r => (pending.toList ++ c :: r.1, r.2)
  | Escape.backslash, pending, c :: rest =>
      if c.val = 0x75 then scanString (Escape.unicode 3 0) pending rest
      else (unescape c).bind fun d =>
        (scanString Escape.nothing none rest).map fun r => (pending.toList ++ d :: r.1, r.2)
  | Escape.unicode left value, pending, c :: rest =>
      (hexValue c).bind fun d =>
        match left with
        | left + 1 => scanString (Escape.unicode left (16 * value + d)) pending rest
        | 0 =>
            let (out, pending) := emit pending (ofHex (16 * value + d))
            (scanString Escape.nothing pending rest).map fun r => (out ++ r.1, r.2)

def isDigit (c : CodePoint) : Bool := 0x30 ≤ c.val && c.val ≤ 0x39

/-- The characters that numbers are written with. -/
def isNumeric (c : CodePoint) : Bool :=
  isDigit c || c.val == 0x2B || c.val == 0x2D || c.val == 0x2E || c.val == 0x45 || c.val == 0x65

/-- The number that digits stand for. -/
def ofDigits (s : PyStr) : ℕ := s.foldl (fun n c => 10 * n + (c.val - 0x30)) 0

/-- Digits, without a zero too many at the beginning. -/
def isWhole (s : PyStr) : Bool :=
  match s with
  | [] => false
  | [c] => isDigit c
  | c :: rest => isDigit c && c.val != 0x30 && rest.all isDigit

/-- Nothing, or an exponent. -/
def isExponent (s : PyStr) : Bool :=
  match s with
  | [] => true
  | e :: rest =>
      (e.val == 0x45 || e.val == 0x65) &&
        match rest with
        | [] => false
        | c :: digits =>
            if c.val == 0x2B || c.val == 0x2D then !digits.isEmpty && digits.all isDigit
            else isDigit c && digits.all isDigit

/-- Nothing, or a fraction and an exponent, either of which may be missing. -/
def isTail (s : PyStr) : Bool :=
  match s with
  | [] => true
  | c :: rest =>
      if c.val = 0x2E then
        !(rest.takeWhile isDigit).isEmpty && isExponent (rest.dropWhile isDigit)
      else isExponent s

/-- A number without its sign. -/
def isUnsigned (s : PyStr) : Bool := isWhole (s.takeWhile isDigit) && isTail (s.dropWhile isDigit)

/-- A number. -/
def isNumberText (s : PyStr) : Bool :=
  match s with
  | [] => false
  | c :: rest => if c.val = 0x2D then isUnsigned rest else isUnsigned s

/-- The longest number that a text begins with has so many characters. -/
def numberLength (s : PyStr) : ℕ :=
  Nat.findGreatest (fun n => isNumberText (s.take n) = true) (s.takeWhile isNumeric).length

def closeBracket : CodePoint := PyStr.ofChar ']'

def closeBrace : CodePoint := PyStr.ofChar '\x7d'

/-- The mark that a text may not start with. -/
def byteOrderMark : CodePoint := ⟨0xFEFF, by decide⟩

/-! ### Sequences -/

section Sequences

variable {m : Type → Type} [Monad m] [Failing m] {α : Type}

/-- Items with commas between them, and the bracket that closes the sequence. -/
def scanItems (item : PyStr → m (α × PyStr)) (close : CodePoint) : ℕ → PyStr → m (List α × PyStr)
  | 0, _ => fail
  | n + 1, s =>
      item s >>= fun r =>
        match skip r.2 with
        | [] => fail
        | c :: rest =>
            if c = close then pure ([r.1], rest)
            else if c.val = 0x2C then
              (fun rs => (r.1 :: rs.1, rs.2)) <$> scanItems item close n (skip rest)
            else fail

/-- A sequence, after the bracket that opens it. -/
def scanSequence (item : PyStr → m (α × PyStr)) (close : CodePoint) (n : ℕ) (s : PyStr) :
    m (List α × PyStr) :=
  match skip s with
  | [] => fail
  | c :: rest => if c = close then pure ([], rest) else scanItems item close n (c :: rest)

/-- A key, a colon and a value. -/
def scanMember (value : PyStr → m (α × PyStr)) (s : PyStr) : m ((PyStr × α) × PyStr) :=
  match s with
  | [] => fail
  | c :: rest =>
      if c.val = 0x22 then
        Failing.ofOption (scanString Escape.nothing none rest) >>= fun k =>
          match skip k.2 with
          | [] => fail
          | c :: rest =>
              if c.val = 0x3A then (fun r => ((k.1, r.1), r.2)) <$> value (skip rest)
              else fail
      else fail

end Sequences

end Json

/-! ### The reader -/

/-- The hooks of `json.loads`, and how the other values are made. -/
structure JsonHooks (m : Type → Type) (α : Type) where
  null : α
  bool : Bool → α
  int : ℤ → α
  /-- `parse_float`, on a number with a fraction or an exponent. -/
  parseFloat : PyStr → m α
  str : PyStr → α
  list : List α → α
  /-- `object_pairs_hook`. -/
  objectPairs : List (PyStr × α) → m α
  /-- `parse_constant`, on `NaN`, `Infinity` and `-Infinity`. -/
  parseConstant : PyStr → m α

namespace JsonHooks

open Json

section Reader

variable {m : Type → Type} [Monad m] [Failing m] {α : Type} (hooks : JsonHooks m α)

/-- A number without its sign. -/
def unsigned (negative : Bool) (s : PyStr) : m α :=
  if isUnsigned s then
    if (s.dropWhile isDigit).isEmpty then
      pure (hooks.int
        (if negative then -(ofDigits (s.takeWhile isDigit) : ℤ) else ofDigits (s.takeWhile isDigit)))
    else hooks.parseFloat (if negative then PyStr.ofString "-" ++ s else s)
  else fail

/-- The number that a text is. -/
def number (s : PyStr) : m α :=
  match s with
  | [] => fail
  | c :: rest => if c.val = 0x2D then hooks.unsigned true rest else hooks.unsigned false s

/-- A number, and what follows it. -/
def scanNumber (s : PyStr) : m (α × PyStr) :=
  (fun v => (v, s.drop (numberLength s))) <$> hooks.number (s.take (numberLength s))

/-- The word that begins with the character, and its value. -/
def word (c : CodePoint) : Option (PyStr × m α) :=
  if c.val = 0x6E then some ("null", pure hooks.null)
  else if c.val = 0x74 then some ("true", pure (hooks.bool true))
  else if c.val = 0x66 then some ("false", pure (hooks.bool false))
  else if c.val = 0x4E then some ("NaN", hooks.parseConstant "NaN")
  else if c.val = 0x49 then some ("Infinity", hooks.parseConstant "Infinity")
  else if c.val = 0x2D then some ("-Infinity", hooks.parseConstant "-Infinity")
  else none

/-- A word or a number. -/
def scanAtom (c : CodePoint) (s : PyStr) : m (α × PyStr) :=
  match hooks.word c with
  | some (text, v) =>
      if text.isPrefixOf s then (fun v => (v, s.drop text.length)) <$> v else hooks.scanNumber s
  | none => hooks.scanNumber s

/-- A value, and what follows it.  Every level of nesting, and every item, takes a unit of fuel. -/
def scan : ℕ → PyStr → m (α × PyStr)
  | 0, _ => fail
  | _ + 1, [] => fail
  | n + 1, c :: rest =>
      if c.val = 0x22 then
        (fun r => (hooks.str r.1, r.2)) <$> Failing.ofOption (scanString Escape.nothing none rest)
      else if c.val = 0x7B then
        scanSequence (scanMember (scan n)) closeBrace n rest >>= fun r =>
          (fun v => (v, r.2)) <$> hooks.objectPairs r.1
      else if c.val = 0x5B then
        (fun r => (hooks.list r.1, r.2)) <$> scanSequence (scan n) closeBracket n rest
      else hooks.scanAtom c (c :: rest)

/-- `json.loads`. -/
def loads (s : PyStr) : m α :=
  if s.head? = some byteOrderMark then fail
  else
    hooks.scan (s.length + 1) (skip s) >>= fun r =>
      if skip r.2 = [] then pure r.1 else fail

end Reader

/-! ### Related hooks -/

section Relation

variable {m m' : Type → Type} [Monad m] [Failing m] [Monad m'] [Failing m']
  (M : MonadRelation m m') {α β : Type} {R : α → β → Prop}

/-- Values that are related, and the same rest. -/
def ReadRel (R : α → β → Prop) (r : α × PyStr) (r' : β × PyStr) : Prop := R r.1 r'.1 ∧ r.2 = r'.2

/-- The same key, and values that are related. -/
def PairRel (R : α → β → Prop) (e : PyStr × α) (e' : PyStr × β) : Prop :=
  e.1 = e'.1 ∧ R e.2 e'.2

/-- Hooks that do the same to related values. -/
structure Related (R : α → β → Prop) (hooks : JsonHooks m α) (hooks' : JsonHooks m' β) : Prop where
  null : R hooks.null hooks'.null
  bool : ∀ b, R (hooks.bool b) (hooks'.bool b)
  int : ∀ n, R (hooks.int n) (hooks'.int n)
  parseFloat : ∀ t, M.rel R (hooks.parseFloat t) (hooks'.parseFloat t)
  str : ∀ s, R (hooks.str s) (hooks'.str s)
  list : ∀ xs ys, List.Forall₂ R xs ys → R (hooks.list xs) (hooks'.list ys)
  objectPairs : ∀ xs ys, List.Forall₂ (PairRel R) xs ys →
    M.rel R (hooks.objectPairs xs) (hooks'.objectPairs ys)
  parseConstant : ∀ t, M.rel R (hooks.parseConstant t) (hooks'.parseConstant t)

theorem rel_scanItems {item : PyStr → m (α × PyStr)} {item' : PyStr → m' (β × PyStr)}
    (hitem : ∀ s, M.rel (ReadRel R) (item s) (item' s)) (close : CodePoint) (n : ℕ) (s : PyStr) :
    M.rel (ReadRel (List.Forall₂ R)) (scanItems item close n s) (scanItems item' close n s) := by
  induction n generalizing s with
  | zero => exact M.of_fail
  | succ n ih =>
      unfold scanItems
      refine M.of_bind (hitem s) fun r r' hr => ?_
      obtain ⟨hR, hrest⟩ := hr
      rw [hrest]
      split
      · exact M.of_fail
      split
      · exact M.of_pure ⟨List.Forall₂.cons hR List.Forall₂.nil, rfl⟩
      split
      · exact M.of_map (ih _) fun _ _ hl => ⟨List.Forall₂.cons hR hl.1, hl.2⟩
      · exact M.of_fail

theorem rel_scanSequence {item : PyStr → m (α × PyStr)} {item' : PyStr → m' (β × PyStr)}
    (hitem : ∀ s, M.rel (ReadRel R) (item s) (item' s)) (close : CodePoint) (n : ℕ) (s : PyStr) :
    M.rel (ReadRel (List.Forall₂ R)) (scanSequence item close n s)
      (scanSequence item' close n s) := by
  unfold scanSequence
  split
  · exact M.of_fail
  split
  · exact M.of_pure ⟨List.Forall₂.nil, rfl⟩
  · exact rel_scanItems M hitem close n _

theorem rel_scanMember {value : PyStr → m (α × PyStr)} {value' : PyStr → m' (β × PyStr)}
    (hvalue : ∀ s, M.rel (ReadRel R) (value s) (value' s)) (s : PyStr) :
    M.rel (ReadRel (PairRel R)) (scanMember value s) (scanMember value' s) := by
  unfold scanMember
  split
  · exact M.of_fail
  split
  · refine M.of_bind (M.of_ofOption _) fun k k' hk => ?_
    subst hk
    split
    · exact M.of_fail
    split
    · exact M.of_map (hvalue _) fun _ _ hR => ⟨⟨rfl, hR.1⟩, hR.2⟩
    · exact M.of_fail
  · exact M.of_fail

variable {M} {hooks : JsonHooks m α} {hooks' : JsonHooks m' β}

theorem rel_unsigned (h : Related M R hooks hooks') (negative : Bool) (s : PyStr) :
    M.rel R (hooks.unsigned negative s) (hooks'.unsigned negative s) := by
  unfold unsigned
  split
  · split
    · exact M.of_pure (h.int _)
    · exact h.parseFloat _
  · exact M.of_fail

theorem rel_scanNumber (h : Related M R hooks hooks') (s : PyStr) :
    M.rel (ReadRel R) (hooks.scanNumber s) (hooks'.scanNumber s) := by
  refine M.of_map (R := R) ?_ fun _ _ hR => ⟨hR, rfl⟩
  unfold number
  split
  · exact M.of_fail
  split
  · exact rel_unsigned h _ _
  · exact rel_unsigned h _ _

/-- The same word, and values that are related. -/
theorem rel_word (h : Related M R hooks hooks') (c : CodePoint) :
    OptRel (fun e e' => e.1 = e'.1 ∧ M.rel R e.2 e'.2) (hooks.word c) (hooks'.word c) := by
  unfold word
  split
  · exact ⟨rfl, M.of_pure h.null⟩
  split
  · exact ⟨rfl, M.of_pure (h.bool _)⟩
  split
  · exact ⟨rfl, M.of_pure (h.bool _)⟩
  split
  · exact ⟨rfl, h.parseConstant _⟩
  split
  · exact ⟨rfl, h.parseConstant _⟩
  split
  · exact ⟨rfl, h.parseConstant _⟩
  · trivial

theorem rel_scanAtom (h : Related M R hooks hooks') (c : CodePoint) (s : PyStr) :
    M.rel (ReadRel R) (hooks.scanAtom c s) (hooks'.scanAtom c s) := by
  have hword := rel_word h c
  unfold scanAtom
  cases hleft : hooks.word c with
  | none =>
      cases hright : hooks'.word c with
      | none => exact rel_scanNumber h s
      | some e =>
          rw [hleft, hright] at hword
          exact hword.elim
  | some e =>
      cases hright : hooks'.word c with
      | none =>
          rw [hleft, hright] at hword
          exact hword.elim
      | some e' =>
          rw [hleft, hright] at hword
          obtain ⟨text, v⟩ := e
          obtain ⟨text', v'⟩ := e'
          obtain ⟨htext, hv⟩ := hword
          simp only at htext hv
          subst htext
          dsimp only
          split
          · exact M.of_map hv fun _ _ hR => ⟨hR, rfl⟩
          · exact rel_scanNumber h s

theorem rel_scan (h : Related M R hooks hooks') (n : ℕ) (s : PyStr) :
    M.rel (ReadRel R) (hooks.scan n s) (hooks'.scan n s) := by
  induction n generalizing s with
  | zero => exact M.of_fail
  | succ n ih =>
      match s with
      | [] => exact M.of_fail
      | c :: rest =>
          unfold scan
          split
          · refine M.of_map (M.of_ofOption _) fun r r' hr => ?_
            subst hr
            exact ⟨h.str _, rfl⟩
          split
          · refine M.of_bind (rel_scanSequence M (rel_scanMember M ih) _ _ _) fun r r' hr => ?_
            obtain ⟨hpairs, hrest⟩ := hr
            exact M.of_map (h.objectPairs _ _ hpairs) fun _ _ hR => ⟨hR, hrest⟩
          split
          · exact M.of_map (rel_scanSequence M ih _ _ _) fun _ _ hr => ⟨h.list _ _ hr.1, hr.2⟩
          · exact rel_scanAtom h c _

/-- **Related hooks read related values.** -/
theorem loads_related (h : Related M R hooks hooks') (s : PyStr) :
    M.rel R (hooks.loads s) (hooks'.loads s) := by
  unfold loads
  split
  · exact M.of_fail
  · refine M.of_bind (rel_scan h _ _) fun r r' hr => ?_
    obtain ⟨hR, hrest⟩ := hr
    rw [hrest]
    split
    · exact M.of_pure hR
    · exact M.of_fail

end Relation

/-- What the hooks keep. -/
structure Keeps {α : Type} (P : α → Prop) (hooks : JsonHooks Option α) : Prop where
  null : P hooks.null
  bool : ∀ b, P (hooks.bool b)
  int : ∀ n, P (hooks.int n)
  parseFloat : ∀ t v, hooks.parseFloat t = some v → P v
  str : ∀ s, P (hooks.str s)
  list : ∀ xs, (∀ v ∈ xs, P v) → P (hooks.list xs)
  objectPairs : ∀ xs v, (∀ e ∈ xs, P e.2) → hooks.objectPairs xs = some v → P v
  parseConstant : ∀ t v, hooks.parseConstant t = some v → P v

/-- **What the hooks keep holds of everything that is read.** -/
theorem loads_forall {α : Type} {P : α → Prop} {hooks : JsonHooks Option α} (h : Keeps P hooks)
    {s : PyStr} {v : α} (hv : hooks.loads s = some v) : P v := by
  have hopt : ∀ {o : Option α}, (∀ v, o = some v → P v) → OptRel (fun a b => P a ∧ a = b) o o := by
    intro o ho
    cases o with
    | none => trivial
    | some a => exact ⟨ho a rfl, rfl⟩
  have hlists : ∀ {γ : Type} {Q : γ → Prop} {xs ys : List γ},
      List.Forall₂ (fun a b => Q a ∧ a = b) xs ys → (∀ a ∈ xs, Q a) ∧ xs = ys := by
    intro γ Q xs ys hxs
    obtain ⟨hall, heq⟩ := (List.forall₂_and_left xs ys).1 hxs
    exact ⟨hall, List.forall₂_eq_eq_eq ▸ heq⟩
  have hrel : Related MonadRelation.option (fun a b => P a ∧ a = b) hooks hooks :=
    { null := ⟨h.null, rfl⟩
      bool := fun b => ⟨h.bool b, rfl⟩
      int := fun n => ⟨h.int n, rfl⟩
      parseFloat := fun t => hopt fun v hv => h.parseFloat t v hv
      str := fun s => ⟨h.str s, rfl⟩
      list := fun xs ys hxs => by
        obtain ⟨hall, rfl⟩ := hlists hxs
        exact ⟨h.list xs hall, rfl⟩
      objectPairs := fun xs ys hxs => by
        have hpairs : List.Forall₂ (fun e e' => P e.2 ∧ e = e') xs ys :=
          hxs.imp fun e e' hee => ⟨hee.2.1, Prod.ext hee.1 hee.2.2⟩
        obtain ⟨hall, rfl⟩ := hlists hpairs
        exact hopt fun v hv => h.objectPairs xs v hall hv
      parseConstant := fun t => hopt fun v hv => h.parseConstant t v hv }
  have hread := loads_related hrel s
  rw [hv] at hread
  exact hread.1

end JsonHooks

/-! ### Decimals -/

namespace Json

/-- An exponent, from the letter on. -/
def exponent (s : PyStr) : ℤ :=
  match s with
  | _ :: c :: digits =>
      if c.val = 0x2D then -(ofDigits digits : ℤ)
      else if c.val = 0x2B then ofDigits digits
      else ofDigits (c :: digits)
  | _ => 0

/-- `m · 10 ^ e`. -/
def scaled (m : ℕ) (e : ℤ) : ℚ :=
  match e with
  | Int.ofNat n => ((m * 10 ^ n : ℕ) : ℚ)
  | Int.negSucc n => mkRat m (10 ^ (n + 1))

/-- The digits of a number without its sign, and the power of ten of the last of them. -/
def unsignedParts (s : PyStr) : ℕ × ℤ :=
  let whole := s.takeWhile isDigit
  let tail := s.dropWhile isDigit
  let fraction :=
    if tail.head? = some (PyStr.ofChar '.') then tail.tail.takeWhile isDigit else []
  let rest :=
    if tail.head? = some (PyStr.ofChar '.') then tail.tail.dropWhile isDigit else tail
  (ofDigits (whole ++ fraction), exponent rest - fraction.length)

/-- A number without its sign. -/
def unsignedDecimal (s : PyStr) : ℚ := scaled (unsignedParts s).1 (unsignedParts s).2

/-- `Decimal` of the text of a number. -/
def decimal (s : PyStr) : ℚ :=
  match s with
  | [] => 0
  | c :: rest => if c.val = 0x2D then -unsignedDecimal rest else unsignedDecimal s

/-- `Decimal` holds the number: it has at most `MAX_PREC` digits, the first of them weighs at most
`10 ^ MAX_EMAX`, and the last at least `10 ^ MIN_ETINY`.  `Decimal` raises `InvalidOperation` on any
other number. -/
def isDecimal (s : PyStr) : Bool :=
  let parts := unsignedParts (if s.head? = some (PyStr.ofChar '-') then s.tail else s)
  let digits := (Nat.toDigits 10 parts.1).length
  decide (digits ≤ 999999999999999999 ∧ parts.2 + digits - 1 ≤ 999999999999999999 ∧
    -1999999999999999997 ≤ parts.2)

end Json
