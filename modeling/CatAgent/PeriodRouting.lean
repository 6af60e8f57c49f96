/-
**Where a delegation goes.**

The period of a delegation decides what becomes of it: −1 waits for an external event, 0 runs once in
this turn, and a number of seconds makes a periodic task.  The decoder of the native tools may deliver
the number as an integer, as a float or as a string, so every form is tested separately.  The tests are
compared here with the number that the value denotes.

Main definitions:

* `NativeValue.value?` — the number that a value denotes;
* `NativeValue.Writes` — the values that write a number in a way that is understood;
* `NativeValue.taskId?` — a task id, which is read like a period;
* `DelegationBroker.Takes` — the four routes, told apart by what they do;
* `DelegationBroker.Accepts` — delegations that are valid but for their period.

Main results:

* `NativeValue.value?_of_isExternal`, `NativeValue.value?_of_isZero`,
  `NativeValue.value?_of_periodSeconds?` — the tests are exact;
* `DelegationBroker.takes_of_writes` — numbers, and the strings that spell one, take its route;
* `DelegationBroker.routes_exact` — **every value takes one of four routes, only the value that it
  denotes exactly opens one, and a valid delegation takes the route of its number**.
-/

import CatAgent.Delegation

set_option relaxedAutoImplicit false
set_option autoImplicit false

namespace NativeValue

/-! ### What a value denotes -/

/-- `identifier if 1 <= identifier <= 10**15 else None`. -/
def inIdRange (identifier : ℤ) : Option ℤ :=
  if 1 ≤ identifier ∧ identifier ≤ 10 ^ 15 then some identifier else none

/-- `_task_id(value)`. -/
def taskId? : NativeValue → Option ℤ
  | PyValue.int identifier => inIdRange identifier
  | PyValue.float (PyNumber.finite q) =>
      if q.den ≠ 1 ∨ q < 1 ∨ 10 ^ 15 < q then none else inIdRange q.num
  | PyValue.str s => (whole? s).bind fun n => inIdRange n
  | _ => none

/-- The value of a decimal without a sign. -/
def unsignedValue? (s : PyStr) : Option ℚ :=
  let whole := s.takeWhile Json.isDigit
  if whole.isEmpty then none
  else
    match s.dropWhile Json.isDigit with
    | [] => some (Json.ofDigits whole)
    | c :: fraction =>
        if c.val = 0x2E ∧ fraction ≠ [] ∧ fraction.all Json.isDigit = true then
          some (Json.ofDigits whole + Json.ofDigits fraction / 10 ^ fraction.length)
        else none

/-- The value of a decimal. -/
def decimalValue? : PyStr → Option ℚ
  | [] => none
  | c :: s => if c.val = 0x2D then (unsignedValue? s).map fun q => -q else unsignedValue? (c :: s)

/-- The number that a value denotes; a boolean denotes none. -/
def value? : NativeValue → Option ℚ
  | PyValue.int n => some n
  | PyValue.float (PyNumber.finite q) => some q
  | PyValue.str s => decimalValue? (PyStr.strip s)
  | _ => none

/-- The value is the number, or a string that spells it: at most sixteen characters without a sign, or
−1 with nothing but zeros after the point. -/
def Writes (q : ℚ) : NativeValue → Prop
  | PyValue.int n => q = n
  | PyValue.float (PyNumber.finite r) => q = r
  | PyValue.str s =>
      (PyStr.strip s).length ≤ 16 ∧ unsignedValue? (PyStr.strip s) = some q ∨
        q = -1 ∧ ∃ fraction, PyStr.strip s = PyStr.ofString "-1" ++ fraction ∧
          (fraction = [] ∨ ∃ n, fraction = PyStr.ofString ".0" ++ List.replicate n (PyStr.ofChar '0'))
  | _ => False

/-! ### The tests are exact -/

theorem ofDigits_zeros {s : PyStr} (h : ∀ c ∈ s, c.val = 0x30) : Json.ofDigits s = 0 := by
  unfold Json.ofDigits
  induction s with
  | nil => rfl
  | cons c s ih =>
      rw [List.forall_mem_cons] at h
      rw [List.foldl_cons, h.1]
      exact ih h.2

theorem isZeros_iff (s : PyStr) :
    DelegationBroker.isZeros s = true ↔ s ≠ [] ∧ ∀ c ∈ s, c.val = 0x30 := by
  simp [DelegationBroker.isZeros]

theorem isDigit_of_zero {c : CodePoint} (h : c.val = 0x30) : Json.isDigit c = true := by
  simp [Json.isDigit, h]

theorem not_isDigit_point {c : CodePoint} (h : c.val = 0x2E) : Json.isDigit c = false := by
  simp [Json.isDigit, h]

/-- **Digits, and perhaps a point and zeros, denote a whole number.** -/
theorem unsignedValue?_whole {whole rest : PyStr} (hne : whole ≠ [])
    (hdigits : ∀ c ∈ whole, Json.isDigit c = true)
    (hrest : DelegationBroker.isZeroFraction rest = true) :
    unsignedValue? (whole ++ rest) = some (Json.ofDigits whole : ℚ) := by
  have hempty : whole.isEmpty = false := by simpa using hne
  cases rest with
  | nil =>
      have htake : (whole ++ []).takeWhile Json.isDigit = whole := by
        rw [List.append_nil, List.takeWhile_eq_self_iff]
        exact hdigits
      have hdrop : (whole ++ []).dropWhile Json.isDigit = [] := by
        rw [List.append_nil, List.dropWhile_eq_nil_iff]
        exact hdigits
      simp only [unsignedValue?, htake, hdrop, hempty]
      rfl
  | cons c fraction =>
      simp only [DelegationBroker.isZeroFraction, Bool.and_eq_true, beq_iff_eq, isZeros_iff] at hrest
      obtain ⟨hpoint, hfraction, hzeros⟩ := hrest
      have htake : (whole ++ c :: fraction).takeWhile Json.isDigit = whole := by
        rw [List.takeWhile_append_of_pos hdigits, List.takeWhile_cons, not_isDigit_point hpoint]
        simp
      have hdrop : (whole ++ c :: fraction).dropWhile Json.isDigit = c :: fraction := by
        rw [List.dropWhile_append_of_pos hdigits, List.dropWhile_cons, not_isDigit_point hpoint]
        simp
      have hall : fraction.all Json.isDigit = true :=
        List.all_eq_true.2 fun d hd => isDigit_of_zero (hzeros d hd)
      simp only [unsignedValue?, htake, hdrop, hempty]
      rw [if_neg (by simp), if_pos ⟨hpoint, hfraction, hall⟩, ofDigits_zeros hzeros]
      simp

/-- A decimal that begins with a digit has no sign. -/
theorem decimalValue?_whole {whole rest : PyStr} (hne : whole ≠ [])
    (hdigits : ∀ c ∈ whole, Json.isDigit c = true)
    (hrest : DelegationBroker.isZeroFraction rest = true) :
    decimalValue? (whole ++ rest) = some (Json.ofDigits whole : ℚ) := by
  rw [← unsignedValue?_whole hne hdigits hrest]
  obtain ⟨c, tail, rfl⟩ := List.exists_cons_of_ne_nil hne
  have hc := hdigits c List.mem_cons_self
  rw [List.cons_append, decimalValue?, if_neg]
  intro hminus
  simp [Json.isDigit, hminus] at hc

theorem value?_of_isNumber {n : ℤ} {v : NativeValue} (h : v.isNumber n = true) :
    v.value? = some (n : ℚ) := by
  cases v with
  | int m =>
      have heq : m = n := by simpa [isNumber] using h
      rw [heq]
      rfl
  | float x =>
      cases x with
      | finite q =>
          have heq : q = n := by simpa [isNumber] using h
          rw [heq]
          rfl
      | _ => cases h
  | _ => cases h

/-- **The external route is for −1.** -/
theorem value?_of_isExternal {v : NativeValue} (h : v.isExternal = true) : v.value? = some (-1) := by
  unfold isExternal at h
  rw [Bool.or_eq_true] at h
  rcases h with h | h
  · have hvalue := value?_of_isNumber h
    rwa [Int.cast_neg, Int.cast_one] at hvalue
  · cases v with
    | str s =>
        rw [Bool.and_eq_true, List.isPrefixOf_iff_prefix] at h
        obtain ⟨⟨rest, hrest⟩, hfraction⟩ := h
        have hminus : PyStr.ofString "-1" = [PyStr.ofChar '-', PyStr.ofChar '1'] := by decide
        rw [← hrest, hminus] at hfraction
        have hone := @unsignedValue?_whole [PyStr.ofChar '1'] rest (by simp) (by simp; decide)
          hfraction
        have hdigit : Json.ofDigits [PyStr.ofChar '1'] = 1 := by decide
        rw [hdigit, List.singleton_append] at hone
        change decimalValue? (PyStr.strip s) = _
        rw [← hrest, hminus, List.cons_append, List.singleton_append, decimalValue?,
          if_pos (by decide), hone]
        rfl
    | _ => cases h

/-- **The route of this turn is for 0.** -/
theorem value?_of_isZero {v : NativeValue} (h : v.isZero = true) : v.value? = some 0 := by
  unfold isZero at h
  rw [Bool.or_eq_true] at h
  rcases h with h | h
  · have hvalue := value?_of_isNumber h
    rwa [Int.cast_zero] at hvalue
  · cases v with
    | str s =>
        rw [Bool.and_eq_true, isZeros_iff] at h
        obtain ⟨⟨hne, hzeros⟩, hfraction⟩ := h
        have hvalue := decimalValue?_whole hne (fun c hc => isDigit_of_zero (hzeros c hc)) hfraction
        rw [List.takeWhile_append_dropWhile, ofDigits_zeros hzeros, Nat.cast_zero] at hvalue
        exact hvalue
    | _ => cases h

/-- **A string that is read as a whole number denotes it.** -/
theorem decimalValue?_of_whole? {s : PyStr} {n : ℕ} (h : whole? s = some n) :
    decimalValue? (PyStr.strip s) = some (n : ℚ) := by
  unfold whole? at h
  dsimp only at h
  split_ifs at h with hlength hwhole hfraction
  rw [Bool.or_eq_true, not_or, List.isEmpty_iff] at hwhole
  have hdigits : ∀ c ∈ (PyStr.strip s).takeWhile fun c => c.val != 0x2E, Json.isDigit c = true := by
    have hall := hwhole.2
    rwa [Bool.not_eq_true', Bool.not_eq_false, List.all_eq_true] at hall
  have hvalue := decimalValue?_whole hwhole.1 hdigits (by simpa using hfraction)
  rw [List.takeWhile_append_dropWhile] at hvalue
  rw [hvalue, Option.some.inj h]

theorem inRange_eq_some {m n : ℤ} (h : DelegationBroker.inRange m = some n) :
    m = n ∧ 10 ≤ n ∧ n ≤ 604800 := by
  unfold DelegationBroker.inRange at h
  split_ifs at h with hrange
  cases h
  exact ⟨rfl, hrange.1, hrange.2⟩

theorem inIdRange_eq_some {m n : ℤ} (h : inIdRange m = some n) :
    m = n ∧ 1 ≤ n ∧ n ≤ 10 ^ 15 := by
  unfold inIdRange at h
  split_ifs at h with hrange
  cases h
  exact ⟨rfl, hrange⟩

theorem cast_num {q : ℚ} (h : q.den = 1) : ((q.num : ℤ) : ℚ) = q := Rat.den_eq_one_iff q |>.1 h

/-- **The periodic route is for the number of seconds.** -/
theorem value?_of_periodSeconds? {v : NativeValue} {n : ℤ} (h : v.periodSeconds? = some n) :
    v.value? = some (n : ℚ) ∧ 10 ≤ n ∧ n ≤ 604800 := by
  cases v with
  | int m =>
      obtain ⟨rfl, hrange⟩ := inRange_eq_some h
      exact ⟨rfl, hrange⟩
  | float x =>
      cases x with
      | finite q =>
          simp only [periodSeconds?] at h
          split_ifs at h with hq
          obtain ⟨rfl, hrange⟩ := inRange_eq_some h
          exact ⟨congrArg some (cast_num hq.2.2).symm, hrange⟩
      | _ => cases h
  | str s =>
      obtain ⟨m, hm, hrange⟩ := Option.bind_eq_some_iff.1 h
      obtain ⟨rfl, hrange⟩ := inRange_eq_some hrange
      refine ⟨?_, hrange⟩
      rw [value?, decimalValue?_of_whole? hm, Int.cast_natCast]
  | _ => cases h

/-- **A task id is the number that the value denotes.** -/
theorem value?_of_taskId? {v : NativeValue} {n : ℤ} (h : v.taskId? = some n) :
    v.value? = some (n : ℚ) ∧ 1 ≤ n ∧ n ≤ 10 ^ 15 := by
  cases v with
  | int m =>
      obtain ⟨rfl, hrange⟩ := inIdRange_eq_some h
      exact ⟨rfl, hrange⟩
  | float x =>
      cases x with
      | finite q =>
          simp only [taskId?] at h
          split_ifs at h with hq
          rw [not_or, not_not] at hq
          obtain ⟨rfl, hrange⟩ := inIdRange_eq_some h
          exact ⟨congrArg some (cast_num hq.1).symm, hrange⟩
      | _ => cases h
  | str s =>
      obtain ⟨m, hm, hrange⟩ := Option.bind_eq_some_iff.1 h
      obtain ⟨rfl, hrange⟩ := inIdRange_eq_some hrange
      refine ⟨?_, hrange⟩
      rw [value?, decimalValue?_of_whole? hm, Int.cast_natCast]
  | _ => cases h

/-! ### Numbers that are understood -/

theorem ofDigits_cons (c : CodePoint) (s : PyStr) :
    Json.ofDigits (c :: s) = (c.val - 0x30) * 10 ^ s.length + Json.ofDigits s := by
  have hfold : ∀ (s : PyStr) (n : ℕ), s.foldl (fun n c => 10 * n + (c.val - 0x30)) n =
      n * 10 ^ s.length + Json.ofDigits s := by
    intro s
    induction s with
    | nil => exact fun n => (Nat.mul_one n).symm
    | cons d s ih =>
        intro n
        have hzero : Json.ofDigits (d :: s) = (10 * 0 + (d.val - 0x30)) * 10 ^ s.length +
            Json.ofDigits s := ih _
        rw [List.foldl_cons, ih, hzero, List.length_cons]
        ring
  exact (hfold s _).trans (by ring)

theorem ofDigits_lt {s : PyStr} (h : ∀ c ∈ s, Json.isDigit c = true) :
    Json.ofDigits s < 10 ^ s.length := by
  induction s with
  | nil => exact Nat.one_pos
  | cons c s ih =>
      rw [List.forall_mem_cons] at h
      have hs := ih h.2
      have hc : c.val - 0x30 ≤ 9 := by
        have := h.1
        simp only [Json.isDigit, Bool.and_eq_true, decide_eq_true_eq] at this
        omega
      have hmul := Nat.mul_le_mul_right (10 ^ s.length) hc
      rw [ofDigits_cons, List.length_cons, Nat.pow_succ]
      omega

/-- Digits that denote zero are zeros. -/
theorem zeros_of_ofDigits {s : PyStr} (h : ∀ c ∈ s, Json.isDigit c = true)
    (hzero : Json.ofDigits s = 0) : ∀ c ∈ s, c.val = 0x30 := by
  induction s with
  | nil => nofun
  | cons c s ih =>
      rw [List.forall_mem_cons] at h ⊢
      rw [ofDigits_cons, Nat.add_eq_zero_iff] at hzero
      refine ⟨?_, ih h.2 hzero.2⟩
      have hc : c.val - 0x30 = 0 :=
        (Nat.mul_eq_zero.1 hzero.1).resolve_right (Nat.pow_pos (by decide)).ne'
      have := h.1
      simp only [Json.isDigit, Bool.and_eq_true, decide_eq_true_eq] at this
      omega

/-- **How a number is spelled without a sign**: digits, and perhaps a point and digits.  A whole
number has nothing but zeros after the point. -/
theorem unsignedValue?_eq_some {s : PyStr} {q : ℚ} (h : unsignedValue? s = some q) :
    ∃ whole rest, s = whole ++ rest ∧ whole ≠ [] ∧ (∀ c ∈ whole, Json.isDigit c = true) ∧
      (∀ c ∈ rest.head?, c.val = 0x2E) ∧ 0 ≤ q ∧
      ∀ n : ℤ, q = n → DelegationBroker.isZeroFraction rest = true ∧
        n = Json.ofDigits whole := by
  unfold unsignedValue? at h
  have hwhole : ∀ c ∈ s.takeWhile Json.isDigit, Json.isDigit c = true := fun c hc =>
    List.mem_takeWhile_imp hc
  dsimp only at h
  split_ifs at h with hempty
  refine ⟨_, s.dropWhile Json.isDigit, List.takeWhile_append_dropWhile.symm,
    by simpa using hempty, hwhole, ?_⟩
  cases hrest : s.dropWhile Json.isDigit with
  | nil =>
      rw [hrest] at h
      cases h
      exact ⟨nofun, Nat.cast_nonneg _, fun n hn => ⟨rfl, by exact_mod_cast hn.symm⟩⟩
  | cons c fraction =>
      rw [hrest] at h
      dsimp only at h
      split_ifs at h with hfraction
      obtain ⟨hpoint, hne, hdigits⟩ := hfraction
      rw [List.all_eq_true] at hdigits
      cases h
      have hlt : (Json.ofDigits fraction : ℚ) / 10 ^ fraction.length < 1 := by
        rw [div_lt_one (by positivity)]
        exact_mod_cast ofDigits_lt hdigits
      have hnonneg : (0 : ℚ) ≤ Json.ofDigits fraction / 10 ^ fraction.length := by positivity
      refine ⟨by simpa using hpoint, by positivity, fun n hn => ?_⟩
      -- The fraction is an integer between 0 and 1.
      have hn : (Json.ofDigits fraction : ℚ) / 10 ^ fraction.length =
          ((n - Json.ofDigits (s.takeWhile Json.isDigit) : ℤ) : ℚ) := by
        push_cast
        linarith
      rw [hn] at hlt hnonneg
      have hzero : n - (Json.ofDigits (s.takeWhile Json.isDigit) : ℤ) = 0 := by
        have h₁ : n - (Json.ofDigits (s.takeWhile Json.isDigit) : ℤ) < 1 := by exact_mod_cast hlt
        have h₂ : 0 ≤ n - (Json.ofDigits (s.takeWhile Json.isDigit) : ℤ) := by
          exact_mod_cast hnonneg
        omega
      rw [hzero, Int.cast_zero, div_eq_zero_iff, or_iff_left (by positivity),
        Nat.cast_eq_zero] at hn
      refine ⟨?_, by omega⟩
      rw [DelegationBroker.isZeroFraction, Bool.and_eq_true, beq_iff_eq, isZeros_iff]
      exact ⟨hpoint, hne, zeros_of_ofDigits hdigits hn⟩

/-- What is spelled without a sign denotes the same. -/
theorem decimalValue?_of_unsignedValue? {s : PyStr} {q : ℚ} (h : unsignedValue? s = some q) :
    decimalValue? s = some q := by
  obtain ⟨whole, rest, rfl, hne, hdigits, -⟩ := unsignedValue?_eq_some h
  obtain ⟨c, tail, rfl⟩ := List.exists_cons_of_ne_nil hne
  have hc := hdigits c List.mem_cons_self
  rw [List.cons_append] at h ⊢
  rw [decimalValue?, if_neg, h]
  intro hminus
  simp [Json.isDigit, hminus] at hc

theorem isZeroFraction_zeros (n : ℕ) : DelegationBroker.isZeroFraction
    (PyStr.ofString ".0" ++ List.replicate n (PyStr.ofChar '0')) = true := by
  have hpoint : PyStr.ofString ".0" = [PyStr.ofChar '.', PyStr.ofChar '0'] := by decide
  rw [hpoint, List.cons_append, List.singleton_append, DelegationBroker.isZeroFraction,
    Bool.and_eq_true, isZeros_iff]
  refine ⟨by decide, List.cons_ne_nil _ _, fun c hc => ?_⟩
  rcases List.mem_cons.1 hc with rfl | hc
  · decide
  · rw [List.eq_of_mem_replicate hc]
    decide

/-- −1 with nothing but zeros after the point is taken for the external route. -/
theorem isExternal_of_writes {s fraction : PyStr}
    (hs : PyStr.strip s = PyStr.ofString "-1" ++ fraction)
    (hf : fraction = [] ∨
      ∃ n, fraction = PyStr.ofString ".0" ++ List.replicate n (PyStr.ofChar '0')) :
    isExternal (PyValue.str s) = true := by
  have hfraction : DelegationBroker.isZeroFraction fraction = true := by
    rcases hf with rfl | ⟨n, rfl⟩
    · rfl
    · exact isZeroFraction_zeros n
  have hdrop : (PyStr.ofString "-1" ++ fraction).drop 2 = fraction := by
    have hlen : (PyStr.ofString "-1").length = 2 := by decide
    rw [← hlen, List.drop_left]
  unfold isExternal
  rw [Bool.or_eq_true, Bool.and_eq_true, hs, hdrop, List.isPrefixOf_iff_prefix]
  exact Or.inr ⟨List.prefix_append _ _, hfraction⟩

/-- **Values denote the numbers that they write.** -/
theorem value?_of_writes {v : NativeValue} {q : ℚ} (h : v.Writes q) : v.value? = some q := by
  cases v with
  | int n => exact congrArg some (show q = n from h).symm
  | float x =>
      cases x with
      | finite r => exact congrArg some (show q = r from h).symm
      | _ => exact h.elim
  | str s =>
      rcases h with ⟨-, h⟩ | ⟨rfl, fraction, hs, hf⟩
      · exact decimalValue?_of_unsignedValue? h
      · exact value?_of_isExternal (isExternal_of_writes hs hf)
  | _ => exact h.elim

theorem takeWhile_whole {whole rest : PyStr} {p : CodePoint → Bool} (hwhole : ∀ c ∈ whole, p c = true)
    (hrest : ∀ c ∈ rest.head?, p c = false) :
    (whole ++ rest).takeWhile p = whole ∧ (whole ++ rest).dropWhile p = rest := by
  rw [List.takeWhile_append_of_pos hwhole, List.dropWhile_append_of_pos hwhole]
  cases rest with
  | nil => exact ⟨List.append_nil _, rfl⟩
  | cons c rest =>
      have hc := hrest c rfl
      rw [List.takeWhile_cons, List.dropWhile_cons, hc]
      exact ⟨List.append_nil _, rfl⟩

/-- **Whoever writes −1 is taken for the external route.** -/
theorem isExternal_iff {v : NativeValue} {q : ℚ} (h : v.Writes q) :
    v.isExternal = true ↔ q = -1 := by
  refine ⟨fun hv => ?_, ?_⟩
  · exact Option.some.inj ((value?_of_writes h).symm.trans (value?_of_isExternal hv))
  rintro rfl
  cases v with
  | int n =>
      have hn : (-1 : ℚ) = n := h
      have hn : n = -1 := by exact_mod_cast hn.symm
      rw [hn]
      rfl
  | float x =>
      cases x with
      | finite r =>
          obtain rfl : (-1 : ℚ) = r := h
          rfl
      | _ => exact h.elim
  | str s =>
      rcases h with ⟨-, h⟩ | ⟨-, fraction, hs, hf⟩
      · obtain ⟨_, _, -, -, -, -, hnonneg, -⟩ := unsignedValue?_eq_some h
        norm_num at hnonneg
      · exact isExternal_of_writes hs hf
  | _ => exact h.elim

/-- **Whoever writes 0 is taken for the route of this turn.** -/
theorem isZero_iff {v : NativeValue} {q : ℚ} (h : v.Writes q) : v.isZero = true ↔ q = 0 := by
  refine ⟨fun hv => ?_, ?_⟩
  · exact Option.some.inj ((value?_of_writes h).symm.trans (value?_of_isZero hv))
  rintro rfl
  cases v with
  | int n =>
      have hn : (0 : ℚ) = n := h
      have hn : n = 0 := by exact_mod_cast hn.symm
      rw [hn]
      rfl
  | float x =>
      cases x with
      | finite r =>
          obtain rfl : (0 : ℚ) = r := h
          rfl
      | _ => exact h.elim
  | str s =>
      rcases h with ⟨-, h⟩ | ⟨h, -⟩
      · obtain ⟨whole, rest, hs, hne, hdigits, hhead, -, hwhole⟩ := unsignedValue?_eq_some h
        obtain ⟨hfraction, hzero⟩ := hwhole 0 (by norm_num)
        have hzeros := zeros_of_ofDigits hdigits (by omega)
        obtain ⟨htake, hdrop⟩ := @takeWhile_whole whole rest (fun c => c.val == 0x30)
          (fun c hc => beq_iff_eq.2 (hzeros c hc)) (fun c hc => by rw [hhead c hc]; rfl)
        unfold isZero
        rw [Bool.or_eq_true, Bool.and_eq_true, hs, htake, hdrop, isZeros_iff]
        exact Or.inr ⟨⟨hne, hzeros⟩, hfraction⟩
      · norm_num at h
  | _ => exact h.elim

theorem inRange_eq_some_iff {m n : ℤ} :
    DelegationBroker.inRange m = some n ↔ m = n ∧ 10 ≤ n ∧ n ≤ 604800 := by
  refine ⟨inRange_eq_some, ?_⟩
  rintro ⟨rfl, hrange⟩
  exact if_pos hrange

/-- **Whoever writes a number of seconds is taken for the periodic route.** -/
theorem periodSeconds?_iff {v : NativeValue} {q : ℚ} (h : v.Writes q) {n : ℤ} :
    v.periodSeconds? = some n ↔ q = n ∧ 10 ≤ n ∧ n ≤ 604800 := by
  refine ⟨fun hv => ?_, ?_⟩
  · obtain ⟨hvalue, hrange⟩ := value?_of_periodSeconds? hv
    exact ⟨Option.some.inj ((value?_of_writes h).symm.trans hvalue), hrange⟩
  rintro ⟨rfl, hrange⟩
  cases v with
  | int m =>
      have hm : (n : ℚ) = m := h
      exact inRange_eq_some_iff.2 ⟨by exact_mod_cast hm.symm, hrange⟩
  | float x =>
      cases x with
      | finite r =>
          obtain rfl : (n : ℚ) = r := h
          have hr : (10 : ℚ) ≤ n ∧ (n : ℚ) ≤ (604800 : ℕ) ∧ (n : ℚ).den = 1 :=
            ⟨by exact_mod_cast hrange.1, by exact_mod_cast hrange.2, Rat.den_intCast n⟩
          refine (if_pos hr).trans (inRange_eq_some_iff.2 ⟨Rat.num_intCast n, hrange⟩)
      | _ => exact h.elim
  | str s =>
      rcases h with ⟨hlength, h⟩ | ⟨h, -⟩
      · obtain ⟨whole, rest, hs, hne, hdigits, hhead, -, hwhole⟩ := unsignedValue?_eq_some h
        obtain ⟨hfraction, hn⟩ := hwhole n rfl
        have hpoint : ∀ c ∈ whole, (c.val != 0x2E) = true := by
          intro c hc
          rw [bne_iff_ne]
          intro hc'
          have := hdigits c hc
          rw [not_isDigit_point hc'] at this
          cases this
        obtain ⟨htake, hdrop⟩ := @takeWhile_whole whole rest (fun c => c.val != 0x2E) hpoint
          (fun c hc => by rw [hhead c hc]; rfl)
        have hwhole? : whole? s = some (Json.ofDigits whole) := by
          unfold whole?
          dsimp only
          rw [hs] at hlength ⊢
          rw [htake, hdrop, if_neg, if_neg, if_neg]
          · simp [hfraction]
          · simpa [hne] using hdigits
          · have := List.length_pos_of_ne_nil hne
            rw [List.length_append] at hlength ⊢
            omega
        refine Option.bind_eq_some_iff.2 ⟨_, hwhole?, inRange_eq_some_iff.2 ⟨hn.symm, hrange⟩⟩
      · have hn : n = -1 := by exact_mod_cast h
        omega
  | _ => exact h.elim

end NativeValue

/-- What becomes of a delegation. -/
inductive Route where
  | external
  | oneShot
  | periodic (n : ℤ)
  | rejection
deriving DecidableEq

namespace DelegationBroker

/-! ### Routing -/

/-- A route, told by what happens: which calls the task controller gets, and what becomes of the
broker. -/
def Takes (b : DelegationBroker) (a : EnqueueArgs) (controller : ControllerCall → Json) :
    Route → Prop
  | Route.external => ∃ agentId task reply, b.enqueue a controller =
      ([ControllerCall.createExternal agentId task a.eventTool a.eventField], reply, b)
  | Route.oneShot => ∃ agentId task reply, b.enqueue a controller =
      ([], reply, b.queue agentId task)
  | Route.periodic n => ∃ agentId task reply, b.enqueue a controller =
      ([ControllerCall.create n agentId task], reply, b)
  | Route.rejection => ∃ message, b.enqueue a controller = ([], refusal message, b)

/-- The delegation is valid but for its period, and there is room for it. -/
structure Accepts (b : DelegationBroker) (a : EnqueueArgs) (agentId task : PyStr) : Prop where
  enabled : b.enabled = true
  turnActive : b.turnActive = true
  controller : b.periodicController = true
  room : b.count < maxDelegationsPerTurn
  agent_eq : a.agentId = Json.str agentId
  known : agentId ∈ b.agentIds
  task_eq : a.task = Json.str task
  task_ne : PyStr.strip task ≠ []
  task_le : task.length ≤ maxTaskChars
  encodable : PyStr.Encodable task
  /-- Events are named for the external route only. -/
  events : a.periodSeconds.isExternal = false →
    a.eventTool.truthy = false ∧ a.eventField.truthy = false

end DelegationBroker

namespace Route

/-- The value that opens a route. -/
def Opens (v : NativeValue) : Route → Prop
  | external => v.value? = some (-1)
  | oneShot => v.value? = some 0
  | periodic n => v.value? = some (n : ℚ) ∧ 10 ≤ n ∧ n ≤ 604800
  | rejection => True

/-- The route of a number. -/
def ofNumber (q : ℚ) : Route :=
  if q = -1 then external
  else if q = 0 then oneShot
  else if 10 ≤ q ∧ q ≤ 604800 ∧ q.den = 1 then periodic q.num
  else rejection

end Route

namespace DelegationBroker

variable {b : DelegationBroker} {a : EnqueueArgs} {controller : ControllerCall → Json}
  {agentId task : PyStr}

/-- A delegation that is not refused before the period is looked at. -/
theorem enqueue_of_accepts (h : b.Accepts a agentId task) :
    b.enqueue a controller = b.schedule a controller agentId task := by
  have htask : ¬ (((PyStr.strip task).isEmpty || decide (maxTaskChars < task.length)) = true) := by
    rw [Bool.or_eq_true, not_or, List.isEmpty_iff, decide_eq_true_eq]
    exact ⟨h.task_ne, Nat.not_lt.2 h.task_le⟩
  unfold enqueue
  rw [h.enabled, h.turnActive, h.agent_eq, h.task_eq]
  dsimp only
  rw [if_neg (by simp), if_neg (by simp), if_neg (not_not_intro h.known), if_neg htask,
    if_neg (not_not_intro h.encodable)]

/-- **The looks at the period take one of the four routes, and only the value that opens it.** -/
theorem schedule_routes :
    (∃ reply, b.schedule a controller agentId task =
        ([ControllerCall.createExternal agentId task a.eventTool a.eventField], reply, b) ∧
        Route.external.Opens a.periodSeconds) ∨
    (∃ reply, b.schedule a controller agentId task = ([], reply, b.queue agentId task) ∧
        Route.oneShot.Opens a.periodSeconds) ∨
    (∃ n reply, b.schedule a controller agentId task =
        ([ControllerCall.create n agentId task], reply, b) ∧
        (Route.periodic n).Opens a.periodSeconds) ∨
    ∃ message, b.schedule a controller agentId task = ([], refusal message, b) := by
  unfold schedule
  by_cases hexternal : a.periodSeconds.isExternal = true
  · rw [if_pos hexternal]
    cases b.periodicController with
    | false => exact Or.inr (Or.inr (Or.inr ⟨_, rfl⟩))
    | true => exact Or.inl ⟨_, rfl, NativeValue.value?_of_isExternal hexternal⟩
  · rw [if_neg hexternal]
    by_cases hevent : (a.eventTool.truthy || a.eventField.truthy) = true
    · rw [if_pos hevent]
      exact Or.inr (Or.inr (Or.inr ⟨_, rfl⟩))
    · rw [if_neg hevent]
      by_cases hzero : a.periodSeconds.isZero = true
      · rw [if_neg (by simp [hzero])]
        have hopen := NativeValue.value?_of_isZero hzero
        split
        · exact Or.inr (Or.inr (Or.inr ⟨_, rfl⟩))
        · split_ifs with hlimit
          · exact Or.inr (Or.inr (Or.inr ⟨_, rfl⟩))
          · exact Or.inr (Or.inl ⟨_, rfl, hopen⟩)
      · rw [if_pos (by simp [hzero])]
        cases hperiod : a.periodSeconds.periodSeconds? with
        | none => exact Or.inr (Or.inr (Or.inr ⟨_, rfl⟩))
        | some n =>
            cases b.periodicController with
            | false => exact Or.inr (Or.inr (Or.inr ⟨_, rfl⟩))
            | true =>
                exact Or.inr (Or.inr (Or.inl ⟨n, _, rfl,
                  NativeValue.value?_of_periodSeconds? hperiod⟩))

/-- A route is taken, and the value opens it. -/
theorem exists_takes : ∃ r, b.Takes a controller r ∧ r.Opens a.periodSeconds := by
  rcases @enqueue_schedule b a controller with ⟨message, h⟩ | ⟨agentId, task, -, -, -, -, h⟩
  · exact ⟨Route.rejection, ⟨message, h⟩, trivial⟩
  · rcases @schedule_routes b a controller agentId task with
      ⟨reply, hr, hv⟩ | ⟨reply, hr, hv⟩ | ⟨n, reply, hr, hv⟩ | ⟨message, hr⟩
    · exact ⟨Route.external, ⟨agentId, task, reply, h.trans hr⟩, hv⟩
    · exact ⟨Route.oneShot, ⟨agentId, task, reply, h.trans hr⟩, hv⟩
    · exact ⟨Route.periodic n, ⟨agentId, task, reply, h.trans hr⟩, hv⟩
    · exact ⟨Route.rejection, ⟨message, h.trans hr⟩, trivial⟩

theorem queue_ne : b.queue agentId task ≠ b := by
  intro h
  have hcount : b.count + 1 = b.count := congrArg DelegationBroker.count h
  omega

/-- The route, read off the calls and the broker. -/
def routeOf (b : DelegationBroker) (out : List ControllerCall × Json × DelegationBroker) : Route :=
  match out.1 with
  | ControllerCall.createExternal _ _ _ _ :: _ => Route.external
  | ControllerCall.create n _ _ :: _ => Route.periodic n
  | [] => if out.2.2 = b then Route.rejection else Route.oneShot

theorem routeOf_of_takes {r : Route} (h : b.Takes a controller r) :
    b.routeOf (b.enqueue a controller) = r := by
  cases r with
  | external =>
      obtain ⟨agentId, task, reply, h⟩ := h
      rw [h]
      rfl
  | oneShot =>
      obtain ⟨agentId, task, reply, h⟩ := h
      rw [h]
      exact if_neg queue_ne
  | periodic n =>
      obtain ⟨agentId, task, reply, h⟩ := h
      rw [h]
      rfl
  | rejection =>
      obtain ⟨message, h⟩ := h
      rw [h]
      exact if_pos rfl

/-- No two routes are taken at once. -/
theorem takes_unique {r r' : Route} (h : b.Takes a controller r) (h' : b.Takes a controller r') :
    r = r' :=
  (routeOf_of_takes h).symm.trans (routeOf_of_takes h')

/-! ### Valid delegations -/

theorem takes_external (h : b.Accepts a agentId task) (hv : a.periodSeconds.isExternal = true) :
    b.Takes a controller Route.external := by
  refine ⟨agentId, task,
    controller (ControllerCall.createExternal agentId task a.eventTool a.eventField),
    (enqueue_of_accepts h).trans ?_⟩
  unfold schedule
  rw [if_pos hv, if_pos h.controller]

theorem takes_oneShot (h : b.Accepts a agentId task) (hv : a.periodSeconds.isExternal = false)
    (hzero : a.periodSeconds.isZero = true) (hflag : ∀ v, a.periodSeconds ≠ PyValue.bool v) :
    b.Takes a controller Route.oneShot := by
  obtain ⟨htool, hfield⟩ := h.events hv
  refine ⟨agentId, task, (b.accept agentId task).1, (enqueue_of_accepts h).trans ?_⟩
  unfold schedule
  rw [hv, htool, hfield, hzero]
  cases hperiod : a.periodSeconds with
  | bool v => exact absurd hperiod (hflag v)
  | _ => exact if_neg (Nat.not_le.2 h.room)

theorem takes_periodic (h : b.Accepts a agentId task) (hv : a.periodSeconds.isExternal = false)
    (hzero : a.periodSeconds.isZero = false) {n : ℤ}
    (hperiod : a.periodSeconds.periodSeconds? = some n) :
    b.Takes a controller (Route.periodic n) := by
  obtain ⟨htool, hfield⟩ := h.events hv
  refine ⟨agentId, task, controller (ControllerCall.create n agentId task),
    (enqueue_of_accepts h).trans ?_⟩
  unfold schedule
  rw [hv, htool, hfield, hzero, hperiod, h.controller]
  rfl

theorem takes_rejection (h : b.Accepts a agentId task) (hv : a.periodSeconds.isExternal = false)
    (hzero : a.periodSeconds.isZero = false) (hperiod : a.periodSeconds.periodSeconds? = none) :
    b.Takes a controller Route.rejection := by
  obtain ⟨htool, hfield⟩ := h.events hv
  refine ⟨"period_seconds must be -1, 0 or an integer in 10..604800",
    (enqueue_of_accepts h).trans ?_⟩
  unfold schedule
  rw [hv, htool, hfield, hzero, hperiod]
  rfl

/-- **A valid delegation takes the route of the number that its period writes.** -/
theorem takes_of_writes {q : ℚ} (h : b.Accepts a agentId task) (hq : a.periodSeconds.Writes q) :
    b.Takes a controller (Route.ofNumber q) := by
  unfold Route.ofNumber
  by_cases hminus : q = -1
  · rw [if_pos hminus]
    exact takes_external h ((NativeValue.isExternal_iff hq).2 hminus)
  have hv : a.periodSeconds.isExternal = false :=
    Bool.eq_false_iff.2 fun hv => hminus ((NativeValue.isExternal_iff hq).1 hv)
  rw [if_neg hminus]
  by_cases hnull : q = 0
  · rw [if_pos hnull]
    refine takes_oneShot h hv ((NativeValue.isZero_iff hq).2 hnull) fun flag hflag => ?_
    rw [hflag] at hq
    exact hq
  have hzero : a.periodSeconds.isZero = false :=
    Bool.eq_false_iff.2 fun hzero => hnull ((NativeValue.isZero_iff hq).1 hzero)
  rw [if_neg hnull]
  by_cases hrange : 10 ≤ q ∧ q ≤ 604800 ∧ q.den = 1
  · rw [if_pos hrange]
    have hnum : ((q.num : ℤ) : ℚ) = q := NativeValue.cast_num hrange.2.2
    refine takes_periodic h hv hzero ((NativeValue.periodSeconds?_iff hq).2 ⟨hnum.symm, ?_⟩)
    rw [← hnum] at hrange
    exact ⟨by exact_mod_cast hrange.1, by exact_mod_cast hrange.2.1⟩
  · rw [if_neg hrange]
    refine takes_rejection h hv hzero (Option.eq_none_iff_forall_ne_some.2 fun n hn => hrange ?_)
    obtain ⟨rfl, h₁, h₂⟩ := (NativeValue.periodSeconds?_iff hq).1 hn
    exact ⟨by exact_mod_cast h₁, by exact_mod_cast h₂, Rat.den_intCast n⟩

/-- **Every value takes one of four routes, and only the value that it denotes exactly opens one.**
A valid delegation takes the route of the number that its period writes.  A task id is read just as
exactly. -/
theorem routes_exact (b : DelegationBroker) (a : EnqueueArgs) (controller : ControllerCall → Json) :
    (∃! r, b.Takes a controller r) ∧
      (∀ r, b.Takes a controller r → r.Opens a.periodSeconds) ∧
      (∀ agentId task q, b.Accepts a agentId task → a.periodSeconds.Writes q →
        b.Takes a controller (Route.ofNumber q)) ∧
      ∀ (v : NativeValue) (n : ℤ), v.taskId? = some n →
        v.value? = some (n : ℚ) ∧ 1 ≤ n ∧ n ≤ 10 ^ 15 := by
  obtain ⟨r, hr, hopen⟩ := @exists_takes b a controller
  refine ⟨⟨r, hr, fun r' hr' => takes_unique hr' hr⟩, fun r' hr' => ?_,
    fun _ _ _ => takes_of_writes, fun v n => NativeValue.value?_of_taskId?⟩
  rw [takes_unique hr' hr]
  exact hopen

/-- A broker in a turn, with one agent and a task controller. -/
def inTurn : DelegationBroker where
  agentIds := ["agent_1"]
  periodicController := true
  enabled := true
  turnActive := true
  count := 0
  pending := []

/-- A delegation to the agent. -/
def goes (period : NativeValue) : EnqueueArgs where
  agentId := Json.str "agent_1"
  task := Json.str "go"
  periodSeconds := period

theorem accepts_goes (period : NativeValue) : inTurn.Accepts (goes period) "agent_1" "go" where
  enabled := rfl
  turnActive := rfl
  controller := rfl
  room := by decide
  agent_eq := rfl
  known := by decide
  task_eq := rfl
  task_ne := by decide
  task_le := by decide
  encodable := by decide
  events := fun _ => ⟨rfl, rfl⟩

/-- A task controller that says which call it was given. -/
def echoes : ControllerCall → Json
  | ControllerCall.createExternal agentId _ _ _ => Json.obj [("create_external", Json.str agentId)]
  | ControllerCall.create _ agentId _ => Json.obj [("create", Json.str agentId)]

/-- Strings, an integer and a float, each on its route. -/
theorem routes_exact_goes :
    inTurn.Takes (goes (PyValue.str " 60.0 ")) echoes (Route.periodic 60) ∧
      inTurn.Takes (goes (PyValue.str "-1.00")) echoes Route.external ∧
      inTurn.Takes (goes (PyValue.int 0)) echoes Route.oneShot ∧
      inTurn.Takes (goes (PyValue.float (PyNumber.finite (21 / 2)))) echoes Route.rejection := by
  have h : ∀ period q, NativeValue.Writes q period →
      inTurn.Takes (goes period) echoes (Route.ofNumber q) := fun period q hq =>
    (routes_exact inTurn (goes period) echoes).2.2.1 _ _ q (accepts_goes period) hq
  have hminute : Route.ofNumber 60 = Route.periodic 60 := by decide +kernel
  have hnever : Route.ofNumber (21 / 2) = Route.rejection := by decide +kernel
  refine ⟨?_, ?_, ?_, ?_⟩
  · rw [← hminute]
    exact h (PyValue.str " 60.0 ") 60 (Or.inl (by decide +kernel))
  · exact h (PyValue.str "-1.00") (-1)
      (Or.inr ⟨rfl, PyStr.ofString ".00", by decide +kernel, Or.inr ⟨1, by decide +kernel⟩⟩)
  · exact h (PyValue.int 0) 0 rfl
  · rw [← hnever]
    exact h (PyValue.float (PyNumber.finite (21 / 2))) (21 / 2) rfl

end DelegationBroker
