/-
**JSON texts that are written and read back.**

What `json.dumps` writes without blanks, `json.loads` reads back: strings with their escapes,
numbers and words up to the character that stops them, and sequences up to the bracket that closes
them.

Main definitions:

* `Json.compact` — `json.dumps` with `ensure_ascii=False` and `separators=(",", ":")`;
* `JsonReader` — how numbers are read;
* `Json.scan`, `Json.loads` — the reader;
* `Json.WellFormed` — no key occurs twice.

Main results:

* `Json.forall_mem_compact_iff` — which code points a text has;
* `Json.scan_compact`, `Json.loads_compact` — **what is written is read back**.
-/

import CatAgent.Json
import CatAgent.JsonHooks
import CatAgent.PyDict

set_option relaxedAutoImplicit false
set_option autoImplicit false

/-- How numbers and the constants beyond them are read. -/
structure JsonReader where
  /-- `parse_float`, on a number with a fraction or an exponent. -/
  parseFloat : PyStr → Json
  /-- `parse_constant`, on `NaN`, `Infinity` and `-Infinity`. -/
  parseConstant : PyStr → Json

namespace Json

/-! ### Writing -/

/-- Texts with commas between them. -/
def commaJoin : List PyStr → PyStr
  | [] => []
  | [t] => t
  | t :: u :: l => t ++ PyStr.ofString "," ++ commaJoin (u :: l)

mutual

/-- `json.dumps(v, ensure_ascii=False, separators=(",", ":"))`; `fl` writes the floats. -/
def compact (fl : ℚ → PyStr) : Json → PyStr
  | null => "null"
  | bool true => "true"
  | bool false => "false"
  | int n => toString n
  | num q => fl q
  | str s => escape s
  | arr xs => PyStr.ofString "[" ++ commaJoin (compactList fl xs) ++ PyStr.ofString "]"
  | obj items => PyStr.ofString "\x7b" ++ commaJoin (compactItems fl items) ++ PyStr.ofString "\x7d"

/-- The texts of the elements. -/
def compactList (fl : ℚ → PyStr) : List Json → List PyStr
  | [] => []
  | v :: l => compact fl v :: compactList fl l

/-- The texts of the items. -/
def compactItems (fl : ℚ → PyStr) : List (PyStr × Json) → List PyStr
  | [] => []
  | (k, v) :: l => (escape k ++ PyStr.ofString ":" ++ compact fl v) :: compactItems fl l

end

/-! ### Reading -/

/-- The hooks of a reader; a later item of an object replaces an earlier one with the same key. -/
def hooks (read : JsonReader) : JsonHooks Option Json where
  null := null
  bool := bool
  int := int
  parseFloat := fun t => some (read.parseFloat t)
  str := str
  list := arr
  objectPairs := fun pairs => some (obj (PyDict.ofList pairs).entries)
  parseConstant := fun t => some (read.parseConstant t)

/-- The number that a text is. -/
def number (read : JsonReader) (s : PyStr) : Option Json := (hooks read).number s

/-- A value, and what follows it. -/
def scan (read : JsonReader) (n : ℕ) (s : PyStr) : Option (Json × PyStr) := (hooks read).scan n s

/-- `json.loads`; `none` is a `JSONDecodeError`. -/
def loads (read : JsonReader) (s : PyStr) : Option Json := (hooks read).loads s

/-! ### The code points of a text -/

/-- The printable characters of ASCII. -/
def isPrintable (c : CodePoint) : Bool := 0x20 ≤ c.val && c.val < 0x80

theorem isPrintable_hexDigit (n : ℕ) : isPrintable (hexDigit n) = true := by
  have h : ∀ m < 16, isPrintable (PyStr.ofChar (Nat.digitChar m)) = true := by decide
  exact h (n % 16) (Nat.mod_lt _ (by omega))

theorem isDigit_of_mem_toDigits {n : ℕ} {c : CodePoint}
    (hc : c ∈ (Nat.toDigits 10 n).map PyStr.ofChar) : isDigit c = true := by
  obtain ⟨d, hd, rfl⟩ := List.mem_map.1 hc
  have hdigit := Nat.isDigit_of_mem_toDigits (by omega) (by omega) hd
  simp only [Char.isDigit, Bool.and_eq_true, decide_eq_true_eq] at hdigit
  have hval : (PyStr.ofChar d).val = d.val.toNat := rfl
  simp only [isDigit, hval, Bool.and_eq_true, decide_eq_true_iff]
  exact ⟨UInt32.le_iff_toNat_le.1 hdigit.1, UInt32.le_iff_toNat_le.1 hdigit.2⟩

theorem ofString_toString_nat (n : ℕ) :
    PyStr.ofString (toString n) = (Nat.toDigits 10 n).map PyStr.ofChar := by
  rw [PyStr.ofString, Nat.toString_eq_ofList_toDigits, String.toList_ofList]

theorem ofString_toString_int (n : ℤ) : PyStr.ofString (toString n) =
    (if n < 0 then PyStr.ofString "-" else []) ++ (Nat.toDigits 10 n.natAbs).map PyStr.ofChar := by
  cases n with
  | ofNat n =>
      have hneg : ¬ Int.ofNat n < 0 := by simp
      rw [if_neg hneg, List.nil_append]
      exact ofString_toString_nat n
  | negSucc n =>
      have hneg : Int.negSucc n < 0 := Int.negSucc_lt_zero n
      rw [if_pos hneg]
      have happ : PyStr.ofString (toString (Int.negSucc n)) =
          PyStr.ofString "-" ++ PyStr.ofString (toString (n + 1)) := by
        have hs : toString (Int.negSucc n) = "-" ++ toString (n + 1) := rfl
        rw [hs]
        simp only [PyStr.ofString, String.toList_append, List.map_append]
      rw [happ, ofString_toString_nat]
      rfl

section CodePoints

variable {P : CodePoint → Prop} (hP : ∀ c, isPrintable c = true → P c)

include hP

theorem forall_mem_literal {s : String} (hs : (PyStr.ofString s).all isPrintable = true) :
    ∀ c ∈ PyStr.ofString s, P c :=
  fun c hc => hP c (List.all_eq_true.1 hs c hc)

/-- A code point of a string is written by printable characters, or it is beyond ASCII. -/
theorem forall_mem_escapeChar_iff (c : CodePoint) :
    (∀ d ∈ escapeChar c, P d) ↔ (0x80 ≤ c.val → P c) := by
  by_cases hc : 0x80 ≤ c.val
  · have hself : escapeChar c = [c] := by
      unfold escapeChar
      split_ifs <;> first | rfl | (exfalso; omega)
    simp [hself, hc]
  · refine iff_of_true ?_ fun h => absurd h hc
    unfold escapeChar
    split_ifs
    · exact forall_mem_literal hP (by decide)
    · exact forall_mem_literal hP (by decide)
    · exact forall_mem_literal hP (by decide)
    · exact forall_mem_literal hP (by decide)
    · exact forall_mem_literal hP (by decide)
    · exact forall_mem_literal hP (by decide)
    · exact forall_mem_literal hP (by decide)
    · refine List.forall_mem_append.2 ⟨forall_mem_literal hP (by decide), ?_⟩
      simp only [List.forall_mem_cons, List.not_mem_nil, false_implies, implies_true, and_true]
      exact ⟨hP _ (isPrintable_hexDigit _), hP _ (isPrintable_hexDigit _)⟩
    · intro d hd
      rw [List.mem_singleton.1 hd]
      refine hP c ?_
      simp only [isPrintable, Bool.and_eq_true, decide_eq_true_eq]
      omega

/-- A string literal is printable but for what is beyond ASCII in the string. -/
theorem forall_mem_escape_iff (s : PyStr) :
    (∀ c ∈ escape s, P c) ↔ ∀ c ∈ s, 0x80 ≤ c.val → P c := by
  have hquote : ∀ c ∈ PyStr.ofString "\"", P c := forall_mem_literal hP (by decide)
  simp only [escape, List.forall_mem_append, List.mem_flatMap, forall_exists_index, and_imp]
  constructor
  · rintro ⟨⟨_, h⟩, _⟩ c hc
    exact (forall_mem_escapeChar_iff hP c).1 fun d hd => h d c hc hd
  · intro h
    exact ⟨⟨hquote, fun d c hc hd => (forall_mem_escapeChar_iff hP c).2 (h c hc) d hd⟩, hquote⟩

theorem forall_mem_commaJoin_iff (l : List PyStr) :
    (∀ c ∈ commaJoin l, P c) ↔ ∀ t ∈ l, ∀ c ∈ t, P c := by
  have hcomma : ∀ c ∈ PyStr.ofString ",", P c := forall_mem_literal hP (by decide)
  induction l with
  | nil => simp [commaJoin]
  | cons t l ih =>
      cases l with
      | nil => simp [commaJoin]
      | cons u l =>
          rw [commaJoin, List.forall_mem_append, List.forall_mem_append, List.forall_mem_cons]
          exact ⟨fun h => ⟨h.1.1, ih.1 h.2⟩, fun h => ⟨⟨h.1, hcomma⟩, ih.2 h.2⟩⟩

theorem forall_mem_toString (n : ℤ) : ∀ c ∈ PyStr.ofString (toString n), P c := by
  intro c hc
  rw [ofString_toString_int, List.mem_append] at hc
  rcases hc with hc | hc
  · split_ifs at hc
    · exact forall_mem_literal hP (s := "-") (by decide) c hc
    · cases hc
  · refine hP c ?_
    have h := isDigit_of_mem_toDigits hc
    simp only [isDigit, isPrintable, Bool.and_eq_true, decide_eq_true_eq] at h ⊢
    omega

end CodePoints

mutual

/-- **Which code points a text has**: printable ones of ASCII, and what is beyond ASCII in the
strings. -/
theorem forall_mem_compact_iff {P : CodePoint → Prop} (hP : ∀ c, isPrintable c = true → P c)
    {fl : ℚ → PyStr} (hfl : ∀ q, ∀ c ∈ fl q, P c) (v : Json) :
    (∀ c ∈ compact fl v, P c) ↔ ∀ s ∈ strings v, ∀ c ∈ s, 0x80 ≤ c.val → P c := by
  cases v with
  | null =>
      simp only [compact, strings, List.not_mem_nil, false_implies, implies_true, iff_true]
      exact forall_mem_literal hP (by decide)
  | bool b =>
      cases b <;>
        simp only [compact, strings, List.not_mem_nil, false_implies, implies_true, iff_true]
      · exact forall_mem_literal hP (by decide)
      · exact forall_mem_literal hP (by decide)
  | int n =>
      simp only [compact, strings, List.not_mem_nil, false_implies, implies_true, iff_true]
      exact forall_mem_toString hP n
  | num q => simpa [compact, strings] using hfl q
  | str s => simpa [compact, strings] using forall_mem_escape_iff hP s
  | arr xs =>
      have hopen : ∀ c ∈ PyStr.ofString "[", P c := forall_mem_literal hP (by decide)
      have hclose : ∀ c ∈ PyStr.ofString "]", P c := forall_mem_literal hP (by decide)
      rw [compact, strings, List.forall_mem_append, List.forall_mem_append,
        forall_mem_commaJoin_iff hP, forall_mem_compactList_iff hP hfl xs]
      exact ⟨fun h => h.1.2, fun h => ⟨⟨hopen, h⟩, hclose⟩⟩
  | obj items =>
      have hopen : ∀ c ∈ PyStr.ofString "\x7b", P c := forall_mem_literal hP (by decide)
      have hclose : ∀ c ∈ PyStr.ofString "\x7d", P c := forall_mem_literal hP (by decide)
      rw [compact, strings, List.forall_mem_append, List.forall_mem_append,
        forall_mem_commaJoin_iff hP, forall_mem_compactItems_iff hP hfl items]
      exact ⟨fun h => h.1.2, fun h => ⟨⟨hopen, h⟩, hclose⟩⟩

theorem forall_mem_compactList_iff {P : CodePoint → Prop} (hP : ∀ c, isPrintable c = true → P c)
    {fl : ℚ → PyStr} (hfl : ∀ q, ∀ c ∈ fl q, P c) (l : List Json) :
    (∀ t ∈ compactList fl l, ∀ c ∈ t, P c) ↔
      ∀ s ∈ stringsList l, ∀ c ∈ s, 0x80 ≤ c.val → P c := by
  cases l with
  | nil => simp [compactList, stringsList]
  | cons v l =>
      rw [compactList, stringsList, List.forall_mem_cons, List.forall_mem_append,
        forall_mem_compact_iff hP hfl v, forall_mem_compactList_iff hP hfl l]

theorem forall_mem_compactItems_iff {P : CodePoint → Prop} (hP : ∀ c, isPrintable c = true → P c)
    {fl : ℚ → PyStr} (hfl : ∀ q, ∀ c ∈ fl q, P c)
    (l : List (PyStr × Json)) :
    (∀ t ∈ compactItems fl l, ∀ c ∈ t, P c) ↔
      ∀ s ∈ stringsItems l, ∀ c ∈ s, 0x80 ≤ c.val → P c := by
  cases l with
  | nil => simp [compactItems, stringsItems]
  | cons e l =>
      obtain ⟨k, v⟩ := e
      have hcolon : ∀ c ∈ PyStr.ofString ":", P c := forall_mem_literal hP (by decide)
      rw [compactItems, stringsItems, List.forall_mem_cons, List.forall_mem_append,
        List.forall_mem_append, List.cons_append, List.forall_mem_cons, List.forall_mem_append,
        forall_mem_escape_iff hP, forall_mem_compact_iff hP hfl v,
        forall_mem_compactItems_iff hP hfl l]
      exact ⟨fun h => ⟨h.1.1.1, h.1.2, h.2⟩, fun h => ⟨⟨⟨h.1, hcolon⟩, h.2.1⟩, h.2.2⟩⟩

end

/-! ### Strings are read back -/

theorem hexValue_hexDigit (n : ℕ) : hexValue (hexDigit n) = some (n % 16) := by
  have h : ∀ m < 16, hexValue (PyStr.ofChar (Nat.digitChar m)) = some m := by decide
  exact h (n % 16) (Nat.mod_lt _ (by omega))

/-- An escape that is not a surrogate leaves the one before it alone. -/
theorem emit_of_small {pending : Option CodePoint} (hp : ∀ h ∈ pending, h.val < 0xD800)
    (c : CodePoint) : emit pending c = (pending.toList, some c) := by
  cases pending with
  | none => rfl
  | some high =>
      have hhigh := hp high rfl
      have hnot : ¬ ((0xD800 ≤ high.val ∧ high.val ≤ 0xDBFF) ∧
          (0xDC00 ≤ c.val ∧ c.val ≤ 0xDFFF)) := by omega
      simp only [emit, combine, dif_neg hnot]
      rfl

/-- Four hexadecimal digits are read. -/
theorem scanString_hex (pending : Option CodePoint) (c : CodePoint) (x : PyStr)
    (hp : ∀ h ∈ pending, h.val < 0xD800) (hc : c.val < 0x20) :
    scanString Escape.nothing pending
        (PyStr.ofString "\\u00" ++ [hexDigit (c.val / 16), hexDigit c.val] ++ x) =
      (scanString Escape.nothing (some c) x).map fun r => (pending.toList ++ r.1, r.2) := by
  have hcode : ofHex (16 * (16 * (16 * (16 * 0 + 0) + 0) + c.val / 16 % 16) + c.val % 16) = c := by
    apply Fin.ext
    simp only [ofHex]
    omega
  change scanString (Escape.unicode 3 0) pending
    (PyStr.ofChar '0' :: PyStr.ofChar '0' :: hexDigit (c.val / 16) :: hexDigit c.val :: x) = _
  have hzero : hexValue (PyStr.ofChar '0') = some 0 := by decide
  simp only [scanString, hzero, hexValue_hexDigit, Option.bind_some, hcode, emit_of_small hp]

/-- **One code point of a string is read back**, and is kept for the next escape if it was written
by one. -/
theorem scanString_escapeChar (pending : Option CodePoint) (c : CodePoint) (x : PyStr)
    (hp : ∀ h ∈ pending, h.val < 0xD800) :
    ∃ out pending', (∀ h ∈ pending', h.val < 0xD800) ∧
      out ++ Option.toList pending' = pending.toList ++ [c] ∧
      scanString Escape.nothing pending (escapeChar c ++ x) =
        (scanString Escape.nothing pending' x).map fun r => (out ++ r.1, r.2) := by
  have hplain : ∀ (s : String) (d : CodePoint), PyStr.ofString s = [PyStr.ofChar '\\', d] →
      d.val ≠ 0x75 → unescape d = some c →
      scanString Escape.nothing pending (PyStr.ofString s ++ x) =
        (scanString Escape.nothing none x).map fun r => (pending.toList ++ [c] ++ r.1, r.2) := by
    intro s d hs hd hu
    rw [hs]
    change scanString Escape.backslash pending (d :: x) = _
    simp [scanString, hd, hu]
  have hsimple : ∀ (s : String) (d : CodePoint), PyStr.ofString s = [PyStr.ofChar '\\', d] →
      d.val ≠ 0x75 → unescape d = some c → ∃ out pending', (∀ h ∈ pending', h.val < 0xD800) ∧
      out ++ Option.toList pending' = pending.toList ++ [c] ∧
      scanString Escape.nothing pending (PyStr.ofString s ++ x) =
        (scanString Escape.nothing pending' x).map fun r => (out ++ r.1, r.2) :=
    fun s d hs hd hu => ⟨pending.toList ++ [c], none, nofun, by simp, hplain s d hs hd hu⟩
  have hval : ∀ {n : ℕ} (hn : n < 0x110000), c.val = n → c = ⟨n, hn⟩ := fun _ h => Fin.ext h
  unfold escapeChar
  split_ifs with h₁ h₂ h₃ h₄ h₅ h₆ h₇ h₈
  · exact hsimple _ (PyStr.ofChar '"') rfl (by decide) (by rw [hval (by omega) h₁]; rfl)
  · exact hsimple _ (PyStr.ofChar '\\') rfl (by decide) (by rw [hval (by omega) h₂]; rfl)
  · exact hsimple _ (PyStr.ofChar 'n') rfl (by decide) (by rw [hval (by omega) h₃]; rfl)
  · exact hsimple _ (PyStr.ofChar 'r') rfl (by decide) (by rw [hval (by omega) h₄]; rfl)
  · exact hsimple _ (PyStr.ofChar 't') rfl (by decide) (by rw [hval (by omega) h₅]; rfl)
  · exact hsimple _ (PyStr.ofChar 'f') rfl (by decide) (by rw [hval (by omega) h₆]; rfl)
  · exact hsimple _ (PyStr.ofChar 'b') rfl (by decide) (by rw [hval (by omega) h₇]; rfl)
  · refine ⟨pending.toList, some c, ?_, rfl, scanString_hex pending c x hp h₈⟩
    rintro h ⟨⟩
    omega
  · refine ⟨pending.toList ++ [c], none, nofun, by simp, ?_⟩
    simp [scanString, h₁, h₂, h₈]

/-- **A string literal is read back.** -/
theorem scanString_escape (s r : PyStr) :
    scanString Escape.nothing none (s.flatMap escapeChar ++ (PyStr.ofString "\"" ++ r)) =
      some (s, r) := by
  have hall : ∀ pending : Option CodePoint, (∀ h ∈ pending, h.val < 0xD800) →
      scanString Escape.nothing pending (s.flatMap escapeChar ++ (PyStr.ofString "\"" ++ r)) =
        some (pending.toList ++ s, r) := by
    induction s with
    | nil =>
        intro pending _
        rw [List.append_nil]
        rfl
    | cons c s ih =>
        intro pending hp
        obtain ⟨out, pending', hp', hout, hscan⟩ := scanString_escapeChar pending c
          (s.flatMap escapeChar ++ (PyStr.ofString "\"" ++ r)) hp
        rw [List.flatMap_cons, List.append_assoc, hscan, ih pending' hp', Option.map_some,
          ← List.append_assoc, hout, List.append_assoc]
        rfl
  exact hall none nofun

/-! ### The scanner, on texts that can be read or not -/

section Sequences

variable {α : Type}

theorem scanItems_succ (item : PyStr → Option (α × PyStr)) (close : CodePoint) (n : ℕ)
    (s : PyStr) : scanItems item close (n + 1) s = (item s).bind fun r =>
      match skip r.2 with
      | [] => none
      | c :: rest =>
          if c = close then some ([r.1], rest)
          else if c.val = 0x2C then
            (scanItems item close n (skip rest)).map fun rs => (r.1 :: rs.1, rs.2)
          else none := rfl

theorem scanMember_cons (value : PyStr → Option (α × PyStr)) (c : CodePoint) (rest : PyStr) :
    scanMember value (c :: rest) =
      if c.val = 0x22 then
        (scanString Escape.nothing none rest).bind fun k =>
          match skip k.2 with
          | [] => none
          | c :: rest =>
              if c.val = 0x3A then (value (skip rest)).map fun r => ((k.1, r.1), r.2) else none
      else none := by
  rw [scanMember, Failing.ofOption_option]
  rfl

end Sequences

theorem scan_cons (read : JsonReader) (n : ℕ) (c : CodePoint) (rest : PyStr) :
    scan read (n + 1) (c :: rest) =
      if c.val = 0x22 then
        (scanString Escape.nothing none rest).map fun r => (str r.1, r.2)
      else if c.val = 0x7B then
        (scanSequence (scanMember (scan read n)) closeBrace n rest).map fun r =>
          (obj (PyDict.ofList r.1).entries, r.2)
      else if c.val = 0x5B then
        (scanSequence (scan read n) closeBracket n rest).map fun r => (arr r.1, r.2)
      else (hooks read).scanAtom c (c :: rest) := by
  have hmap : (scanSequence (scanMember (scan read n)) closeBrace n rest).map
      (fun r => (obj (PyDict.ofList r.1).entries, r.2)) =
        (scanSequence (scanMember (scan read n)) closeBrace n rest).bind
          fun r => some (obj (PyDict.ofList r.1).entries, r.2) := Option.map_eq_bind
  rw [hmap, scan, JsonHooks.scan, Failing.ofOption_option]
  rfl

theorem loads_eq (read : JsonReader) (s : PyStr) :
    loads read s =
      if s.head? = some byteOrderMark then none
      else (scan read (s.length + 1) (skip s)).bind fun r =>
        if skip r.2 = [] then some r.1 else none := rfl

/-! ### Numbers and words are read back -/

/-- A number ends here. -/
def Stops (r : PyStr) : Prop := ∀ c ∈ r.head?, isNumeric c = false

/-- The digits of a number, from the digits of a tenth of it. -/
theorem toDigits_succ {n : ℕ} (h : 10 ≤ n) :
    Nat.toDigits 10 n = Nat.toDigits 10 (n / 10) ++ [Nat.digitChar (n % 10)] :=
  Nat.toDigits_of_base_le (by omega) h

/-- Digits do not begin with a zero too many. -/
theorem isWhole_toDigits (n : ℕ) : isWhole ((Nat.toDigits 10 n).map PyStr.ofChar) = true := by
  have hhead : ∀ n : ℕ, 0 < n → ∃ c rest, (Nat.toDigits 10 n).map PyStr.ofChar = c :: rest ∧
      c.val ≠ 0x30 := by
    intro n
    induction n using Nat.strongRecOn with
    | ind n ih =>
        intro hn
        by_cases hlt : n < 10
        · refine ⟨PyStr.ofChar n.digitChar, [], by rw [Nat.toDigits_of_lt_base hlt]; rfl, ?_⟩
          have h : ∀ m < 10, 0 < m → (PyStr.ofChar (Nat.digitChar m)).val ≠ 0x30 := by decide
          exact h n hlt hn
        · obtain ⟨c, rest, hc, hne⟩ := ih (n / 10) (by omega) (by omega)
          refine ⟨c, rest ++ [PyStr.ofChar (Nat.digitChar (n % 10))], ?_, hne⟩
          rw [toDigits_succ (by omega), List.map_append, hc]
          rfl
  have hdigits : ∀ c ∈ (Nat.toDigits 10 n).map PyStr.ofChar, isDigit c = true :=
    fun c hc => isDigit_of_mem_toDigits hc
  rcases Nat.eq_zero_or_pos n with rfl | hn
  · decide
  · obtain ⟨c, rest, hc, hne⟩ := hhead n hn
    rw [hc] at hdigits ⊢
    cases rest with
    | nil => exact hdigits c List.mem_cons_self
    | cons d rest =>
        simp only [isWhole, hdigits c List.mem_cons_self, Bool.true_and, Bool.and_eq_true, bne_iff_ne,
          List.all_eq_true]
        exact ⟨hne, fun e he => hdigits e (List.mem_cons_of_mem _ he)⟩

theorem ofDigits_toDigits (n : ℕ) : ofDigits ((Nat.toDigits 10 n).map PyStr.ofChar) = n := by
  have h := Nat.ofDigitChars_ten_toDigits (n := n)
  rw [Nat.ofDigitChars] at h
  rw [ofDigits, List.foldl_map]
  exact h

theorem takeWhile_of_all {p : CodePoint → Bool} {s : PyStr} (h : ∀ c ∈ s, p c = true) :
    s.takeWhile p = s ∧ s.dropWhile p = [] :=
  ⟨List.takeWhile_eq_self_iff.2 h, List.dropWhile_eq_nil_iff.2 h⟩

/-- **An integer is read back.** -/
theorem number_int (read : JsonReader) (n : ℤ) :
    number read (PyStr.ofString (toString n)) = some (int n) := by
  have hdigits : ∀ c ∈ (Nat.toDigits 10 n.natAbs).map PyStr.ofChar, isDigit c = true :=
    fun c hc => isDigit_of_mem_toDigits hc
  obtain ⟨htake, hdrop⟩ := takeWhile_of_all hdigits
  have hunsigned : ∀ negative, (hooks read).unsigned negative
      ((Nat.toDigits 10 n.natAbs).map PyStr.ofChar) =
        some (int (if negative then -(n.natAbs : ℤ) else n.natAbs)) := by
    intro negative
    simp only [JsonHooks.unsigned, isUnsigned, htake, hdrop, isWhole_toDigits, ofDigits_toDigits]
    rfl
  rw [ofString_toString_int]
  split_ifs with hneg
  · change (hooks read).unsigned true ((Nat.toDigits 10 n.natAbs).map PyStr.ofChar) = _
    rw [hunsigned true, if_pos rfl]
    congr 2
    omega
  · rw [List.nil_append]
    have hvalue := hunsigned false
    rw [if_neg Bool.false_ne_true] at hvalue
    cases hs : (Nat.toDigits 10 n.natAbs).map PyStr.ofChar with
    | nil =>
        have hwhole := isWhole_toDigits n.natAbs
        rw [hs] at hwhole
        cases hwhole
    | cons c rest =>
        have hc := hdigits c (by rw [hs]; exact List.mem_cons_self)
        simp only [isDigit, Bool.and_eq_true, decide_eq_true_eq] at hc
        rw [hs] at hvalue
        rw [number, JsonHooks.number, if_neg (by omega), hvalue]
        congr 2
        omega

theorem isNumeric_toString (n : ℤ) : ∀ c ∈ PyStr.ofString (toString n), isNumeric c = true := by
  intro c hc
  rw [ofString_toString_int, List.mem_append] at hc
  rcases hc with hc | hc
  · split_ifs at hc
    · rw [List.mem_singleton.1 hc]
      decide
    · cases hc
  · simp only [isNumeric, isDigit_of_mem_toDigits hc, Bool.true_or]

/-- What can be read as a number begins with a digit, after its sign. -/
theorem head_of_unsigned {s : PyStr} (h : isUnsigned s = true) :
    ∃ c rest, s = c :: rest ∧ isDigit c = true := by
  rw [isUnsigned, Bool.and_eq_true] at h
  cases s with
  | nil => cases h.1
  | cons c rest =>
      refine ⟨c, rest, rfl, ?_⟩
      by_contra hc
      rw [List.takeWhile_cons, if_neg hc] at h
      cases h.1

/-- What is read as a number is one. -/
theorem isNumberText_of_number {read : JsonReader} {t : PyStr} {v : Json}
    (h : number read t = some v) : isNumberText t = true := by
  have hunsigned : ∀ {negative : Bool} {s : PyStr}, (hooks read).unsigned negative s = some v →
      isUnsigned s = true := by
    intro negative s hs
    by_contra hnot
    rw [JsonHooks.unsigned, if_neg hnot] at hs
    cases hs
  cases t with
  | nil => cases h
  | cons c rest =>
      rw [number, JsonHooks.number] at h
      rw [isNumberText]
      split_ifs at h ⊢
      · exact hunsigned h
      · exact hunsigned h

/-- The longest number at the beginning is the one that was written. -/
theorem numberLength_append {t r : PyStr} (ht : ∀ c ∈ t, isNumeric c = true)
    (hnumber : isNumberText t = true) (hr : Stops r) : numberLength (t ++ r) = t.length := by
  have htake : (t ++ r).takeWhile isNumeric = t := by
    rw [List.takeWhile_append_of_pos ht]
    cases r with
    | nil => simp
    | cons c r => rw [List.takeWhile_cons, hr c rfl]; simp
  rw [numberLength, htake]
  refine Nat.findGreatest_eq ?_
  rw [List.take_left]
  exact hnumber

/-- **A number is read back.** -/
theorem scan_of_number {read : JsonReader} {t r : PyStr} {v : Json} (n : ℕ)
    (ht : ∀ c ∈ t, isNumeric c = true) (hv : number read t = some v) (hr : Stops r) :
    scan read (n + 1) (t ++ r) = some (v, r) := by
  have hnumber := isNumberText_of_number hv
  have hscan : (hooks read).scanNumber (t ++ r) = some (v, r) := by
    have hv' : (hooks read).number t = some v := hv
    rw [JsonHooks.scanNumber, numberLength_append ht hnumber hr, List.take_left, List.drop_left,
      hv']
    rfl
  cases t with
  | nil => cases hv
  | cons c rest =>
      have hc := ht c List.mem_cons_self
      simp only [isNumeric, isDigit, Bool.or_eq_true, Bool.and_eq_true, decide_eq_true_eq,
        beq_iff_eq] at hc
      rw [List.cons_append] at hscan ⊢
      rw [scan_cons, if_neg (by omega), if_neg (by omega), if_neg (by omega)]
      unfold JsonHooks.scanAtom JsonHooks.word
      rw [if_neg (by omega), if_neg (by omega), if_neg (by omega), if_neg (by omega),
        if_neg (by omega)]
      split_ifs with hminus
      · rw [isNumberText, if_pos hminus] at hnumber
        obtain ⟨d, rest', rfl, hd⟩ := head_of_unsigned hnumber
        have hstart : (PyStr.ofString "-Infinity").isPrefixOf (c :: (d :: rest' ++ r)) = false := by
          have hne : PyStr.ofChar 'I' ≠ d := by
            rintro rfl
            exact absurd hd (by decide)
          change (PyStr.ofChar '-' :: PyStr.ofChar 'I' :: PyStr.ofString "nfinity").isPrefixOf
            (c :: d :: (rest' ++ r)) = false
          simp [List.isPrefixOf, hne]
        simp only [hstart]
        exact hscan
      · exact hscan

/-- **A word is read back.** -/
theorem scan_of_word {read : JsonReader} {c : CodePoint} {rest r : PyStr} {v : Json} (n : ℕ)
    (hquote : c.val ≠ 0x22 ∧ c.val ≠ 0x7B ∧ c.val ≠ 0x5B)
    (hword : (hooks read).word c = some (c :: rest, some v)) :
    scan read (n + 1) (c :: rest ++ r) = some (v, r) := by
  rw [List.cons_append, scan_cons, if_neg hquote.1, if_neg hquote.2.1, if_neg hquote.2.2]
  unfold JsonHooks.scanAtom
  rw [hword]
  have hstart : (c :: rest).isPrefixOf (c :: (rest ++ r)) = true := by
    rw [List.isPrefixOf_iff_prefix, ← List.cons_append]
    exact List.prefix_append _ _
  simp only [hstart, if_true]
  simp

/-! ### Sequences are read back -/

/-- The text begins with something that is not a blank. -/
def Solid (t : PyStr) : Prop := ∃ c rest, t = c :: rest ∧ isBlank c = false

theorem Solid.append {t : PyStr} (h : Solid t) (r : PyStr) : Solid (t ++ r) := by
  obtain ⟨c, rest, rfl, hc⟩ := h
  exact ⟨c, rest ++ r, rfl, hc⟩

theorem skip_of_solid {t : PyStr} (h : Solid t) : skip t = t := by
  obtain ⟨c, rest, rfl, hc⟩ := h
  rw [skip, List.dropWhile_cons, hc]
  rfl

theorem length_le_commaJoin {l : List PyStr} {t : PyStr} (ht : t ∈ l) :
    t.length ≤ (commaJoin l).length := by
  induction l with
  | nil => cases ht
  | cons u l ih =>
      cases l with
      | nil =>
          rw [List.mem_singleton.1 ht]
          exact le_rfl
      | cons w l =>
          rw [commaJoin, List.length_append, List.length_append]
          rcases List.mem_cons.1 ht with rfl | ht
          · omega
          · have := ih ht
            omega

/-- There are no more items than characters. -/
theorem count_le_commaJoin {l : List PyStr} (h : ∀ t ∈ l, Solid t) :
    l.length ≤ (commaJoin l).length := by
  induction l with
  | nil => exact Nat.zero_le _
  | cons u l ih =>
      obtain ⟨c, rest, rfl, _⟩ := h u List.mem_cons_self
      cases l with
      | nil =>
          simp only [commaJoin, List.length_cons, List.length_nil]
          omega
      | cons w l =>
          have hl := ih fun t ht => h t (List.mem_cons_of_mem _ ht)
          simp only [commaJoin, List.length_append, List.length_cons] at hl ⊢
          omega

section Sequences

variable {α : Type} {item : PyStr → Option (α × PyStr)} {close : CodePoint}

/-- **Items with commas between them are read back.** -/
theorem scanItems_commaJoin {text : α → PyStr} {l : List α} (hblank : isBlank close = false)
    (hcomma : close.val ≠ 0x2C) (hclose : isNumeric close = false)
    (hitem : ∀ a ∈ l, ∀ r, Stops r → item (text a ++ r) = some (a, r))
    (hsolid : ∀ a ∈ l, Solid (text a)) (hl : l ≠ []) {n : ℕ} (hn : l.length ≤ n) (r : PyStr) :
    scanItems item close n (commaJoin (l.map text) ++ close :: r) = some (l, r) := by
  induction l generalizing n with
  | nil => exact absurd rfl hl
  | cons a l ih =>
      obtain ⟨n, rfl⟩ := Nat.exists_eq_succ_of_ne_zero (show n ≠ 0 by
        rw [List.length_cons] at hn
        omega)
      have ha := hitem a List.mem_cons_self
      cases l with
      | nil =>
          have hread := ha (close :: r) (by rintro _ ⟨⟩; exact hclose)
          simp only [List.map_cons, List.map_nil, commaJoin, scanItems_succ, hread, Option.bind_some]
          rw [skip_of_solid ⟨close, r, rfl, hblank⟩]
          simp
      | cons b l =>
          have hrest := ih (n := n) (fun d hd => hitem d (List.mem_cons_of_mem _ hd))
            (fun d hd => hsolid d (List.mem_cons_of_mem _ hd)) (by simp) (by
              simp only [List.length_cons] at hn ⊢
              omega)
          have hsolid' : Solid (commaJoin ((b :: l).map text) ++ close :: r) := by
            refine Solid.append ?_ _
            have hfirst := hsolid b (List.mem_cons_of_mem _ List.mem_cons_self)
            cases l with
            | nil => exact hfirst
            | cons d l => exact (hfirst.append _).append _
          have hread := ha (PyStr.ofChar ',' :: (commaJoin ((b :: l).map text) ++ close :: r))
            (by rintro _ ⟨⟩; decide)
          have htext : commaJoin ((a :: b :: l).map text) ++ close :: r =
              text a ++ PyStr.ofChar ',' :: (commaJoin ((b :: l).map text) ++ close :: r) := by
            simp only [List.map_cons, commaJoin, List.append_assoc]
            rfl
          have hne : PyStr.ofChar ',' ≠ close := by
            rintro rfl
            exact hcomma rfl
          rw [htext, scanItems_succ, hread, Option.bind_some]
          simp only
          rw [skip_of_solid ⟨_, _, rfl, by decide⟩]
          simp only
          rw [if_neg hne, if_pos (show (PyStr.ofChar ',').val = 0x2C from rfl),
            skip_of_solid hsolid', hrest]
          rfl

/-- **A sequence is read back.** -/
theorem scanSequence_commaJoin {text : α → PyStr} {l : List α} (hblank : isBlank close = false)
    (hcomma : close.val ≠ 0x2C) (hclose : isNumeric close = false)
    (hitem : ∀ a ∈ l, ∀ r, Stops r → item (text a ++ r) = some (a, r))
    (hsolid : ∀ a ∈ l, Solid (text a)) (hhead : ∀ a ∈ l, close ∉ (text a).head?) {n : ℕ}
    (hn : (commaJoin (l.map text)).length ≤ n) (r : PyStr) :
    scanSequence item close n (commaJoin (l.map text) ++ close :: r) = some (l, r) := by
  have hcount := count_le_commaJoin (l := l.map text) (by
    intro t ht
    obtain ⟨a, ha, rfl⟩ := List.mem_map.1 ht
    exact hsolid a ha)
  rw [List.length_map] at hcount
  cases l with
  | nil =>
      unfold scanSequence
      rw [List.map_nil, commaJoin, List.nil_append, skip_of_solid ⟨close, r, rfl, hblank⟩]
      simp
  | cons a l =>
      have hitems := scanItems_commaJoin hblank hcomma hclose hitem hsolid (List.cons_ne_nil _ _)
        (hcount.trans hn) r
      obtain ⟨c, rest, hc, hcblank⟩ := hsolid a List.mem_cons_self
      have hne : c ≠ close := by
        rintro rfl
        exact hhead a List.mem_cons_self (by rw [hc]; rfl)
      obtain ⟨rest', hrest'⟩ : ∃ rest', commaJoin ((a :: l).map text) ++ close :: r =
          c :: rest' := by
        cases l with
        | nil => exact ⟨rest ++ close :: r, by simp only [List.map_cons, List.map_nil, commaJoin, hc,
            List.cons_append]⟩
        | cons b l =>
            refine ⟨rest ++ PyStr.ofString "," ++ commaJoin ((b :: l).map text) ++ close :: r, ?_⟩
            simp only [List.map_cons, commaJoin, hc, List.cons_append]
      unfold scanSequence
      rw [hrest'] at hitems ⊢
      rw [skip_of_solid ⟨c, rest', rfl, hcblank⟩]
      simp only [if_neg hne]
      exact hitems

end Sequences

/-! ### Texts are read back -/

mutual

/-- No key of a dictionary occurs twice. -/
def WellFormed : Json → Prop
  | arr xs => WellFormedList xs
  | obj items => (items.map Prod.fst).Nodup ∧ WellFormedItems items
  | _ => True

/-- No key of a dictionary in the list occurs twice. -/
def WellFormedList : List Json → Prop
  | [] => True
  | v :: l => WellFormed v ∧ WellFormedList l

/-- No key of a dictionary in the items occurs twice. -/
def WellFormedItems : List (PyStr × Json) → Prop
  | [] => True
  | (_, v) :: l => WellFormed v ∧ WellFormedItems l

end

theorem wellFormedList_iff (l : List Json) : WellFormedList l ↔ ∀ v ∈ l, WellFormed v := by
  induction l with
  | nil => simp [WellFormedList]
  | cons v l ih => simp [WellFormedList, ih]

theorem wellFormedItems_iff (l : List (PyStr × Json)) :
    WellFormedItems l ↔ ∀ e ∈ l, WellFormed e.2 := by
  induction l with
  | nil => simp [WellFormedItems]
  | cons e l ih =>
      obtain ⟨k, v⟩ := e
      simp [WellFormedItems, ih]

/-- Induction over values: what holds of the elements of a list holds of the list. -/
theorem nestedInduction {motive : Json → Prop} (null : motive null) (bool : ∀ b, motive (bool b))
    (int : ∀ n, motive (int n)) (num : ∀ q, motive (num q)) (str : ∀ s, motive (str s))
    (arr : ∀ xs, (∀ v ∈ xs, motive v) → motive (arr xs))
    (obj : ∀ items, (∀ e ∈ items, motive e.2) → motive (obj items)) (v : Json) : motive v :=
  @Json.rec motive (fun l => ∀ v ∈ l, motive v) (fun l => ∀ e ∈ l, motive e.2) (fun e => motive e.2)
    null bool int num str arr obj nofun (fun _ _ hv hl => List.forall_mem_cons.2 ⟨hv, hl⟩) nofun
    (fun _ _ he hl => List.forall_mem_cons.2 ⟨he, hl⟩) (fun _ _ hv => hv) v

/-- Floats are written as numbers that are read back. -/
def Reads (read : JsonReader) (fl : ℚ → PyStr) : Prop :=
  ∀ q, number read (fl q) = some (num q) ∧ ∀ c ∈ fl q, isNumeric c = true

section Compact

variable {read : JsonReader} {fl : ℚ → PyStr}

theorem compactList_eq_map (l : List Json) : compactList fl l = l.map (compact fl) := by
  induction l with
  | nil => rfl
  | cons v l ih => rw [compactList, ih, List.map_cons]

theorem compactItems_eq_map (l : List (PyStr × Json)) : compactItems fl l =
    l.map fun e => escape e.1 ++ PyStr.ofString ":" ++ compact fl e.2 := by
  induction l with
  | nil => rfl
  | cons e l ih =>
      obtain ⟨k, v⟩ := e
      rw [compactItems, ih, List.map_cons]

/-- The characters that a text may begin with: none of them closes anything. -/
theorem compact_head (hfl : Reads read fl) (v : Json) :
    ∃ c rest, compact fl v = c :: rest ∧ isPrintable c = true ∧ c ≠ PyStr.ofChar ' ' ∧
      c ≠ closeBracket ∧ c ≠ closeBrace := by
  have hnumber : ∀ {t : PyStr} {w : Json}, number read t = some w →
      (∀ c ∈ t, isNumeric c = true) → ∃ c rest, t = c :: rest ∧ isPrintable c = true ∧
        c ≠ PyStr.ofChar ' ' ∧ c ≠ closeBracket ∧ c ≠ closeBrace := by
    intro t w hw ht
    cases t with
    | nil => cases hw
    | cons c rest =>
        have hc := ht c List.mem_cons_self
        refine ⟨c, rest, rfl, ?_, ?_, ?_, ?_⟩
        · simp only [isNumeric, isDigit, isPrintable, Bool.or_eq_true, Bool.and_eq_true,
            decide_eq_true_eq, beq_iff_eq] at hc ⊢
          omega
        all_goals
          rintro rfl
          exact absurd hc (by decide)
  cases v with
  | null => exact ⟨PyStr.ofChar 'n', _, rfl, by decide, by decide, by decide, by decide⟩
  | bool b =>
      cases b with
      | true => exact ⟨PyStr.ofChar 't', _, rfl, by decide, by decide, by decide, by decide⟩
      | false => exact ⟨PyStr.ofChar 'f', _, rfl, by decide, by decide, by decide, by decide⟩
  | int n => exact hnumber (number_int read n) (isNumeric_toString n)
  | num q => exact hnumber (hfl q).1 (hfl q).2
  | str s => exact ⟨PyStr.ofChar '"', _, rfl, by decide, by decide, by decide, by decide⟩
  | arr xs => exact ⟨PyStr.ofChar '[', _, rfl, by decide, by decide, by decide, by decide⟩
  | obj items => exact ⟨PyStr.ofChar '\x7b', _, rfl, by decide, by decide, by decide, by decide⟩

theorem solid_compact (hfl : Reads read fl) (v : Json) : Solid (compact fl v) := by
  obtain ⟨c, rest, hc, hprint, hspace, _⟩ := compact_head hfl v
  refine ⟨c, rest, hc, ?_⟩
  have hval : c.val ≠ 0x20 := fun h => hspace (Fin.ext h)
  simp only [isPrintable, Bool.and_eq_true, decide_eq_true_eq] at hprint
  simp only [isBlank, Bool.or_eq_false_iff, beq_eq_false_iff_ne]
  omega

theorem closeBracket_notMem_compact (hfl : Reads read fl) (v : Json) :
    closeBracket ∉ (compact fl v).head? := by
  obtain ⟨c, rest, hc, _, _, hne, _⟩ := compact_head hfl v
  intro hclose
  rw [hc] at hclose
  exact hne (Option.some.inj hclose)

/-- An item is read back if its value is. -/
theorem scanMember_compact (hfl : Reads read fl) {value : PyStr → Option (Json × PyStr)} (k : PyStr)
    {v : Json} {r : PyStr} (hv : value (compact fl v ++ r) = some (v, r)) :
    scanMember value (escape k ++ PyStr.ofString ":" ++ compact fl v ++ r) = some ((k, v), r) := by
  have htext : escape k ++ PyStr.ofString ":" ++ compact fl v ++ r = PyStr.ofChar '"' ::
      (k.flatMap escapeChar ++
        (PyStr.ofString "\"" ++ PyStr.ofChar ':' :: (compact fl v ++ r))) := by
    simp only [escape, List.append_assoc]
    rfl
  rw [htext, scanMember_cons, if_pos (show (PyStr.ofChar '"').val = 0x22 from rfl),
    scanString_escape, Option.bind_some]
  simp only
  rw [skip_of_solid ⟨_, _, rfl, by decide⟩]
  simp only
  rw [if_pos (show (PyStr.ofChar ':').val = 0x3A from rfl),
    skip_of_solid ((solid_compact hfl v).append r), hv]
  rfl

/-- A bracket that closes is written after the texts of a sequence. -/
theorem length_commaJoin_lt {opening closing : String} {l : List PyStr} {n : ℕ}
    (hopen : (PyStr.ofString opening).length = 1) (hclose : (PyStr.ofString closing).length = 1)
    (hn : (PyStr.ofString opening ++ commaJoin l ++ PyStr.ofString closing).length < n + 1) :
    (commaJoin l).length < n := by
  simp only [List.length_append, hopen, hclose] at hn
  omega

/-- **What is written is read back**, whatever follows. -/
theorem scan_compact (hfl : Reads read fl) (v : Json) (hv : WellFormed v) {n : ℕ}
    (hn : (compact fl v).length < n) {r : PyStr} (hr : Stops r) :
    scan read n (compact fl v ++ r) = some (v, r) := by
  induction v using nestedInduction generalizing n r with
  | null =>
      obtain ⟨n, rfl⟩ := Nat.exists_eq_succ_of_ne_zero (Nat.ne_zero_of_lt hn)
      exact scan_of_word (c := PyStr.ofChar 'n') n (by decide) rfl
  | bool b =>
      obtain ⟨n, rfl⟩ := Nat.exists_eq_succ_of_ne_zero (Nat.ne_zero_of_lt hn)
      cases b with
      | true => exact scan_of_word (c := PyStr.ofChar 't') n (by decide) rfl
      | false => exact scan_of_word (c := PyStr.ofChar 'f') n (by decide) rfl
  | int m =>
      obtain ⟨n, rfl⟩ := Nat.exists_eq_succ_of_ne_zero (Nat.ne_zero_of_lt hn)
      exact scan_of_number n (isNumeric_toString m) (number_int read m) hr
  | num q =>
      obtain ⟨n, rfl⟩ := Nat.exists_eq_succ_of_ne_zero (Nat.ne_zero_of_lt hn)
      exact scan_of_number n (hfl q).2 (hfl q).1 hr
  | str s =>
      obtain ⟨n, rfl⟩ := Nat.exists_eq_succ_of_ne_zero (Nat.ne_zero_of_lt hn)
      have htext : compact fl (str s) ++ r =
          PyStr.ofChar '"' :: (s.flatMap escapeChar ++ (PyStr.ofString "\"" ++ r)) := by
        simp only [compact, escape, List.append_assoc]
        rfl
      rw [htext, scan_cons, if_pos (show (PyStr.ofChar '"').val = 0x22 from rfl),
        scanString_escape]
      rfl
  | arr xs ih =>
      obtain ⟨n, rfl⟩ := Nat.exists_eq_succ_of_ne_zero (Nat.ne_zero_of_lt hn)
      -- The elements are shorter than the whole, so the fuel is enough for each of them.
      have hlength := length_commaJoin_lt (by decide) (by decide) hn
      rw [compactList_eq_map] at hlength
      have hseq := scanSequence_commaJoin (l := xs) (by decide) (by decide) (by decide)
        (fun v hx r hr => ih v hx ((wellFormedList_iff xs).1 hv v hx)
          ((length_le_commaJoin (List.mem_map_of_mem hx)).trans_lt hlength) hr)
        (fun v _ => solid_compact hfl v) (fun v _ => closeBracket_notMem_compact hfl v)
        hlength.le r
      have htext : compact fl (arr xs) ++ r =
          PyStr.ofChar '[' :: (commaJoin (xs.map (compact fl)) ++ closeBracket :: r) := by
        simp only [compact, compactList_eq_map, List.append_assoc]
        rfl
      rw [htext, scan_cons, if_neg (by decide), if_neg (by decide), if_pos (by decide), hseq]
      rfl
  | obj items ih =>
      obtain ⟨n, rfl⟩ := Nat.exists_eq_succ_of_ne_zero (Nat.ne_zero_of_lt hn)
      have hlength := length_commaJoin_lt (by decide) (by decide) hn
      rw [compactItems_eq_map] at hlength
      have hvalue : ∀ e ∈ items, (compact fl e.2).length < n := by
        intro e he
        have hle := (length_le_commaJoin (List.mem_map_of_mem he)).trans_lt hlength
        rw [List.length_append] at hle
        omega
      have hquote : ∀ e ∈ items, closeBrace ∉
          (escape e.1 ++ PyStr.ofString ":" ++ compact fl e.2).head? :=
        fun e _ hclose => absurd (Option.some.inj hclose) (by decide)
      have hsolid : ∀ e ∈ items, Solid (escape e.1 ++ PyStr.ofString ":" ++ compact fl e.2) :=
        fun e _ => ⟨PyStr.ofChar '"', _, rfl, by decide⟩
      have hseq := scanSequence_commaJoin (by decide) (by decide) (by decide)
        (fun e he r hr => scanMember_compact hfl e.1
          (ih e he ((wellFormedItems_iff items).1 hv.2 e he) (hvalue e he) hr))
        hsolid hquote hlength.le r
      -- No member begins with a closing brace, so the sequence is read to its end.
      have htext : compact fl (obj items) ++ r = PyStr.ofChar '\x7b' ::
          (commaJoin (items.map fun e => escape e.1 ++ PyStr.ofString ":" ++ compact fl e.2) ++
            closeBrace :: r) := by
        simp only [compact, compactItems_eq_map, List.append_assoc]
        rfl
      rw [htext, scan_cons, if_neg (by decide), if_pos (by decide), hseq, Option.map_some,
        PyDict.entries_ofList hv.1]

/-- **What `json.dumps` writes, `json.loads` reads back.** -/
theorem loads_compact (hfl : Reads read fl) {v : Json} (hv : WellFormed v) :
    loads read (compact fl v) = some v := by
  have hscan := scan_compact hfl v hv (Nat.lt_succ_self _) (r := []) nofun
  obtain ⟨c, rest, hc, hprint, _⟩ := compact_head hfl v
  have hbom : (compact fl v).head? ≠ some byteOrderMark := by
    rw [hc]
    rintro ⟨⟩
    exact absurd hprint (by decide)
  rw [List.append_nil] at hscan
  rw [loads_eq, if_neg hbom, skip_of_solid (solid_compact hfl v), hscan]
  rfl

end Compact

end Json
