/-
**What the interpreter provides.**

The services rest on a few functions of the Python runtime that depend on Unicode tables, on the
float formatter or on a random source.  They are gathered here as the fields of one structure,
together with the laws that the code relies on, and every definition that needs them takes the
structure as a parameter.

Main definitions:

* `Host` — `uuid.uuid4().hex`, `str.lower`, `repr`, `str(float)`;
* `PyError` — the exceptions that the modelled code raises;
* `raiseIf` — a check that raises;
* `Host.ascii` — a small instance, for evaluation;
* `PyNumber`, `Period` — numbers, and the positive finite ones, which are the periods of timers;
* `PyNumber.period`, `Period.float` — `math.isfinite(x) and x > 0`, and `float(x)`.

Main results:

* `bind_eq_ok_iff` — a computation that returns has returned at every stage.
-/

import CatAgent.Binary64
import CatAgent.PyStr
import Mathlib.Algebra.Order.Ring.Rat

set_option relaxedAutoImplicit false
set_option autoImplicit false

/-- Functions of the Python runtime. -/
structure Host where
  /-- The results of the successive calls of `uuid.uuid4().hex`. -/
  uuid4 : ℕ → PyStr
  /-- Generated identifiers are unique. -/
  uuid4_injective : Function.Injective uuid4
  /-- An identifier is 32 hexadecimal digits, so it is never empty. -/
  uuid4_ne_nil : ∀ n, uuid4 n ≠ []
  uuid4_encodable : ∀ n, PyStr.Encodable (uuid4 n)
  /-- `str.lower`. -/
  lower : PyStr → PyStr
  /-- Lower case letters stay as they are. -/
  lower_lower : ∀ s, lower (lower s) = lower s
  /-- `repr` of a string. -/
  repr : PyStr → PyStr
  /-- `str` of a float. -/
  strFloat : ℚ → PyStr
  /-- Floats are written in ASCII. -/
  strFloat_encodable : ∀ q, PyStr.Encodable (strFloat q)

/-- The exceptions that the modelled code raises. -/
inductive PyError where
  /-- `TaskStoreError(msg)`. -/
  | taskStoreError (msg : PyStr)
  /-- `EventStoreError(msg)`. -/
  | eventStoreError (msg : PyStr)
  /-- `ValueError(msg)`. -/
  | valueError (msg : PyStr)
  /-- An int or a ratio that is too large for a float. -/
  | overflowError
  /-- An argument is missing or has the wrong type. -/
  | badArguments
  /-- The row could not be written. -/
  | saveFailed
deriving DecidableEq

/-- `if p: raise e`. -/
def raiseIf {ε : Type} (p : Prop) [Decidable p] (e : ε) : Except ε Unit :=
  if p then Except.error e else Except.ok ()

@[simp] theorem raiseIf_eq_ok_iff {ε : Type} {p : Prop} [Decidable p] {e : ε} {u : Unit} :
    raiseIf p e = Except.ok u ↔ ¬ p := by
  unfold raiseIf
  split_ifs with h <;> simp [h]

/-- A computation that returns has returned at every stage. -/
theorem bind_eq_ok_iff {ε α β : Type} {x : Except ε α} {f : α → Except ε β} {b : β} :
    (x >>= f) = Except.ok b ↔ ∃ a, x = Except.ok a ∧ f a = Except.ok b := by
  cases x with
  | error e => exact ⟨nofun, nofun⟩
  | ok a =>
      constructor
      · intro h
        exact ⟨a, rfl, h⟩
      · rintro ⟨a', ha, h⟩
        cases ha
        exact h

/-! ### Numbers -/

/-- A Python number, an int or a float.  Python compares the two by value, and so are the finite
ones taken here. -/
inductive PyNumber where
  | finite (q : ℚ)
  | inf
  | negInf
  | nan
deriving DecidableEq

/-- The period of a timer, in seconds. -/
abbrev Period := {q : ℚ // 0 < q}

/-- `float(x)`.  No int and no float is nearer to zero than to the least positive float. -/
def Period.float (p : Period) : Period :=
  ⟨max (Binary64.nearest p.val) Binary64.least, lt_max_of_lt_right Binary64.least_pos⟩

/-- Ints and floats that are positive are not smaller than the least positive float. -/
theorem Period.float_val {p : Period} (h : Binary64.least ≤ p.val) :
    p.float.val = Binary64.nearest p.val :=
  max_eq_left (Binary64.least_le_nearest h)

/-- **`float(x)` is a float.** -/
theorem Period.float_float (p : Period) : p.float.float = p.float := by
  refine Subtype.ext ?_
  rcases le_total (Binary64.nearest p.val) Binary64.least with hsmall | hlarge
  · have hval : p.float.val = Binary64.least := max_eq_right hsmall
    rw [float_val hval.ge, hval, Binary64.nearest_least]
  · have hval : p.float.val = Binary64.nearest p.val := max_eq_left hlarge
    rw [float_val (hlarge.trans hval.ge), hval, Binary64.nearest_nearest hlarge]

/-- It is not too large, if `x` is not. -/
theorem Period.overflows_float {p : Period} (h : Binary64.overflows p.val = false) :
    Binary64.overflows p.float.val = false := by
  have hfloat := congrArg Subtype.val p.float_float
  rw [float_val (le_max_right _ _)] at hfloat
  have hless : Binary64.nearest p.val < 2 ^ 1024 := by
    simpa [Binary64.overflows] using h
  have hmax : p.float.val < 2 ^ 1024 := max_lt hless Binary64.least_lt
  simpa [Binary64.overflows, hfloat] using hmax

/-- `math.isfinite(x) and x > 0`, with the period that `x` then is; otherwise `e` is raised.  An int
that is too large for a float is not accepted by `math.isfinite`. -/
def PyNumber.period (e : PyError) : PyNumber → Except PyError Period
  | PyNumber.finite q =>
      if Binary64.overflows |q| then Except.error PyError.overflowError
      else if h : 0 < q then Except.ok ⟨q, h⟩
      else Except.error e
  | _ => Except.error e

/-- What is accepted as a period keeps its value, and is not too large. -/
theorem PyNumber.period_eq_ok_iff {e : PyError} {x : PyNumber} {p : Period} :
    x.period e = Except.ok p ↔ x = PyNumber.finite p.val ∧ Binary64.overflows p.val = false := by
  constructor
  · intro h
    cases x with
    | finite q =>
        unfold PyNumber.period at h
        dsimp only at h
        split_ifs at h with hlarge hpos
        cases h
        rw [abs_of_pos hpos] at hlarge
        exact ⟨rfl, Bool.eq_false_iff.2 hlarge⟩
    | inf | negInf | nan => cases h
  · rintro ⟨rfl, hlarge⟩
    simp only [PyNumber.period, abs_of_pos p.property, hlarge, dif_pos p.property]
    rfl

/-- `float(x)` of a number. -/
def PyNumber.float? (q : ℚ) : Option PyNumber :=
  if Binary64.overflows |q| then none
  else some (PyNumber.finite (if h : 0 < q then (Period.float ⟨q, h⟩).val
    else -Binary64.nearest (-q)))

/-! ### An ASCII runtime -/

/-- The lower case of an ASCII letter. -/
def asciiLower (c : CodePoint) : CodePoint :=
  if h : 65 ≤ c.val ∧ c.val ≤ 90 then ⟨c.val + 32, by omega⟩ else c

theorem asciiLower_asciiLower (c : CodePoint) : asciiLower (asciiLower c) = asciiLower c := by
  unfold asciiLower
  split_ifs with h₁ h₂
  · simp only at h₂
    omega
  · rfl
  · rfl

/-- The letter `n % 26`, `n / 26 + 1` times. -/
def asciiUuid (n : ℕ) : PyStr :=
  List.replicate (n / 26 + 1) ⟨97 + n % 26, by omega⟩

theorem asciiUuid_injective : Function.Injective asciiUuid := by
  intro m n h
  have hlength := congrArg List.length h
  have hhead := congrArg List.head? h
  simp only [asciiUuid, List.length_replicate] at hlength
  simp only [asciiUuid, List.replicate_succ, List.head?_cons, Option.some.injEq,
    Fin.mk.injEq] at hhead
  omega

/-- A runtime for texts in ASCII, on which the definitions can be evaluated. -/
def Host.ascii : Host where
  uuid4 := asciiUuid
  uuid4_injective := asciiUuid_injective
  uuid4_ne_nil := fun n => by simp [asciiUuid]
  uuid4_encodable := by
    intro n c hc
    rw [List.eq_of_mem_replicate hc]
    have hlt := Nat.mod_lt n (show 0 < 26 by omega)
    have hnot : ¬ 0xD800 ≤ 97 + n % 26 := by omega
    simp [PyStr.isSurrogate, hnot]
  lower := List.map asciiLower
  lower_lower := by
    intro s
    simp [asciiLower_asciiLower]
  repr := fun s => PyStr.ofString "'" ++ s ++ PyStr.ofString "'"
  strFloat := fun q => PyStr.ofString (toString q.num) ++ PyStr.ofString "/" ++
    PyStr.ofString (toString q.den)
  strFloat_encodable := fun q => by simp
