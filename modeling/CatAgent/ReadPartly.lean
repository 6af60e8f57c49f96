/-
**Splitting a text into parts of whole lines.**

`read_partly` gives a long file to the model part by part.  A part is a run of whole lines, and it is
closed when it has reached the target: what is left of the text, divided by the parts that are left.
The target is computed again after every part.

The quotient of the source is a float; it is exact for every text that fits into a memory.

Main definitions:

* `PyStr.splitlinesKeep` — `str.splitlines(keepends=True)`;
* `ReadPartly.splitLines` — `_split_lines`, with the state `LineSplit` of its loop;
* `ReadPartly.Balanced` — what a splitting should be.

Main results:

* `PyStr.flatten_splitlinesKeep` — the lines make up the text;
* `LineSplit.Fits.add` — one round of the loop;
* `ReadPartly.splitLines_balanced` — **every text is split into balanced parts**.
-/

import CatAgent.Host
import CatAgent.TextLines
import Mathlib.Algebra.Order.Floor.Semiring
import Mathlib.Data.Rat.Floor

set_option relaxedAutoImplicit false
set_option autoImplicit false

namespace PyStr

/-! ### Lines with their ends -/

/-- `str.splitlines(keepends=True)`: a line goes up to its end, and a carriage return that is
followed by a line feed does not end one. -/
def splitlinesKeep : PyStr → List PyStr
  | [] => []
  | c :: rest =>
      if isLineEnd c && !(c.val == 0x0D && rest.head?.any fun d => d.val == 0x0A) then
        [c] :: splitlinesKeep rest
      else
        match splitlinesKeep rest with
        | [] => [[c]]
        | line :: lines => (c :: line) :: lines

/-- **The lines make up the text.** -/
theorem flatten_splitlinesKeep (s : PyStr) : (splitlinesKeep s).flatten = s := by
  fun_induction splitlinesKeep s with
  | case1 => rfl
  | case2 c rest hend ih => rw [List.flatten_cons, ih, List.singleton_append]
  | case3 c rest hend hlines ih =>
      rw [hlines] at ih
      rw [← ih]
      rfl
  | case4 c rest hend line lines hlines ih =>
      rw [hlines, List.flatten_cons] at ih
      rw [List.flatten_cons, List.cons_append, ih]

/-- No line is empty. -/
theorem ne_nil_of_mem_splitlinesKeep {s line : PyStr} (h : line ∈ splitlinesKeep s) :
    line ≠ [] := by
  fun_induction splitlinesKeep s with
  | case1 => cases h
  | case2 c rest hend ih =>
      rcases List.mem_cons.1 h with rfl | h
      · exact List.cons_ne_nil _ _
      · exact ih h
  | case3 c rest hend hlines ih =>
      obtain rfl := List.mem_singleton.1 h
      exact List.cons_ne_nil _ _
  | case4 c rest hend line' lines hlines ih =>
      rcases List.mem_cons.1 h with rfl | h
      · exact List.cons_ne_nil _ _
      · exact ih (hlines ▸ List.mem_cons_of_mem _ h)

theorem utf8Size_pos (c : CodePoint) : 0 < utf8Size c := by
  unfold utf8Size
  split_ifs <;> omega

/-- A text that is not empty takes at least one byte. -/
theorem utf8Length_pos {s : PyStr} (h : s ≠ []) : 0 < utf8Length s := by
  cases s with
  | nil => exact absurd rfl h
  | cons c s =>
      have hc := utf8Size_pos c
      rw [utf8Length_cons]
      omega

theorem utf8Length_flatten (l : List PyStr) : utf8Length l.flatten = (l.map utf8Length).sum := by
  induction l with
  | nil => rfl
  | cons s l ih => rw [List.flatten_cons, utf8Length_append, ih, List.map_cons, List.sum_cons]

theorem encodable_of_mem_flatten {l : List PyStr} (h : Encodable l.flatten) {s : PyStr}
    (hs : s ∈ l) : Encodable s :=
  fun c hc => h c (List.mem_flatten.2 ⟨s, hs, hc⟩)

end PyStr

namespace ReadPartly

open PyStr

/-! ### The loop -/

/-- `len(line.encode("utf-8"))`. -/
def byteLength (line : PyStr) : Except PyError ℕ :=
  if Encodable line then Except.ok (utf8Length line)
  else Except.error (PyError.valueError "surrogates not allowed")

/-- `math.ceil(a / b)`. -/
def ceilQuotient (a b : ℕ) : Except PyError ℕ :=
  if b = 0 then Except.error (PyError.valueError "division by zero")
  else Except.ok ⌈(a / b : ℚ)⌉₊

end ReadPartly

/-- The variables of the loop of `_split_lines`. -/
structure LineSplit where
  parts : List PyStr
  current : List PyStr
  currentBytes : ℕ
  remainingBytes : ℕ
  remainingParts : ℕ
  target : ℕ

namespace LineSplit

open ReadPartly PyStr

/-- One round of the loop. -/
def add (line : PyStr) (s : LineSplit) : Except PyError LineSplit := do
  let bytes ← byteLength line
  let s := { s with current := s.current ++ [line], currentBytes := s.currentBytes + bytes }
  if 1 < s.remainingParts ∧ s.target ≤ s.currentBytes then
    let remainingBytes := s.remainingBytes - s.currentBytes
    let remainingParts := s.remainingParts - 1
    let target ← ceilQuotient remainingBytes remainingParts
    return { parts := s.parts ++ [s.current.flatten], current := [], currentBytes := 0,
             remainingBytes, remainingParts, target }
  else return s

end LineSplit

namespace ReadPartly

open PyStr

/-- `_split_lines(text, count)`. -/
def splitLines (text : PyStr) (count : ℕ) : Except PyError (List PyStr) := do
  let lines := splitlinesKeep text
  if lines = [] then return [text]
  else
    let partCount := min count lines.length
    let totalBytes := (← lines.mapM byteLength).sum
    let target ← ceilQuotient totalBytes partCount
    let s ← lines.foldlM (fun s line => LineSplit.add line s)
      { parts := [], current := [], currentBytes := 0, remainingBytes := totalBytes,
        remainingParts := partCount, target }
    return if s.current = [] then s.parts else s.parts ++ [s.current.flatten]

/-- How long the longest line is. -/
def longest (lines : List PyStr) : ℕ := (lines.map utf8Length).foldr max 0

/-- What a splitting of a text into at most `count` parts should be. -/
structure Balanced (text : PyStr) (count : ℕ) (parts : List PyStr) : Prop where
  /-- The parts make up the text. -/
  whole : parts.flatten = text
  /-- They are runs of whole lines, one after the other. -/
  lines : ∃ runs : List (List PyStr), runs.flatten = splitlinesKeep text ∧ [] ∉ runs ∧
    parts = runs.map List.flatten
  /-- None of them is empty. -/
  nonempty : [] ∉ parts
  some_part : 1 ≤ parts.length
  few_parts : parts.length ≤ min count (splitlinesKeep text).length
  /-- A part exceeds its share of the text by less than one line. -/
  bytes : ∀ part ∈ parts, utf8Length part <
    ⌈(utf8Length text / (min count (splitlinesKeep text).length : ℕ) : ℚ)⌉₊ +
      longest (splitlinesKeep text)

end ReadPartly

/-! ### The invariant -/

namespace LineSplit

open ReadPartly PyStr

/-- The state after the lines `done`, with the lines `rest` still to come: no part is longer than
`share` by the `most` bytes of a line, and what is left can be split in the same way. -/
structure Fits (share most count : ℕ) (done rest : List PyStr) (s : LineSplit) : Prop where
  runs : ∃ runs : List (List PyStr), runs.flatten ++ s.current = done ∧ [] ∉ runs ∧
    s.parts = runs.map List.flatten
  currentBytes : s.currentBytes = utf8Length s.current.flatten
  remainingBytes : s.remainingBytes = s.currentBytes + utf8Length rest.flatten
  parts_pos : 1 ≤ s.remainingParts
  count : s.parts.length + s.remainingParts = count
  target : s.target = ⌈(s.remainingBytes / s.remainingParts : ℚ)⌉₊
  /-- What is left does not exceed the shares that are left. -/
  fair : s.remainingBytes ≤ share * s.remainingParts
  /-- A part that could be closed has not reached the target. -/
  isOpen : 1 < s.remainingParts → s.current ≠ [] → s.currentBytes < s.target
  small : ∀ part ∈ s.parts, utf8Length part < share + most

variable {share most count : ℕ} {done rest : List PyStr} {line : PyStr} {s : LineSplit}

theorem ceil_le_share {a b : ℕ} (hb : 1 ≤ b) (h : a ≤ share * b) : ⌈(a / b : ℚ)⌉₊ ≤ share := by
  have hpos : (0 : ℚ) < b := by exact_mod_cast hb
  rw [Nat.ceil_le, div_le_iff₀ hpos]
  exact_mod_cast h

theorem Fits.target_le (h : Fits share most count done rest s) : s.target ≤ share := by
  rw [h.target]
  exact ceil_le_share h.parts_pos h.fair

/-- What a part that has reached the target leaves does not exceed the other shares. -/
theorem fair_of_target_le {a b c : ℕ} (hb : 1 < b) (hfair : a ≤ share * b)
    (hc : ⌈(a / b : ℚ)⌉₊ ≤ c) : a - c ≤ share * (b - 1) := by
  have hpos : (0 : ℚ) < b := by exact_mod_cast Nat.zero_lt_of_lt hb
  rw [Nat.ceil_le, div_le_iff₀ hpos] at hc
  have hc' : a ≤ c * b := by exact_mod_cast hc
  obtain ⟨n, rfl⟩ : ∃ n, b = n + 1 := ⟨b - 1, by omega⟩
  rcases Nat.lt_or_ge c a with hlt | hle
  · obtain ⟨d, rfl⟩ : ∃ d, a = c + d := ⟨a - c, by omega⟩
    rw [Nat.add_sub_cancel_left, Nat.add_sub_cancel]
    -- Otherwise every other share would be smaller than the part that has been closed.
    by_contra hbig
    have hshare : share < c := by
      by_contra hcs
      have h₁ : c * n ≤ share * n := Nat.mul_le_mul_right n (not_lt.1 hcs)
      have h₂ : d ≤ c * n := by
        rw [Nat.mul_add, Nat.mul_one] at hc'
        omega
      omega
    rw [Nat.mul_add, Nat.mul_one] at hfair
    omega
  · rw [Nat.sub_eq_zero_of_le hle]
    exact Nat.zero_le _

/-- Before the next line is added, the current part has not reached the target. -/
theorem Fits.lt_target (h : Fits share most count done (line :: rest) s) (hline : line ≠ [])
    (hparts : 1 < s.remainingParts) : s.currentBytes < s.target := by
  by_cases hcurrent : s.current = []
  · have hzero : s.currentBytes = 0 := by rw [h.currentBytes, hcurrent]; rfl
    have hbytes := h.remainingBytes
    rw [List.flatten_cons, utf8Length_append] at hbytes
    have hpos := utf8Length_pos hline
    rw [hzero, h.target, Nat.ceil_pos]
    have hrem : (0 : ℚ) < s.remainingBytes := by exact_mod_cast (by omega : 0 < s.remainingBytes)
    have hden : (0 : ℚ) < s.remainingParts := by exact_mod_cast h.parts_pos
    exact div_pos hrem hden
  · exact h.isOpen hparts hcurrent

/-- **One round of the loop.** -/
theorem Fits.add (h : Fits share most count done (line :: rest) s) (hline : line ≠ [])
    (henc : Encodable line) (hmost : utf8Length line ≤ most) :
    ∃ s', s.add line = Except.ok s' ∧ Fits share most count (done ++ [line]) rest s' := by
  obtain ⟨runs, hdone, hruns, hparts⟩ := h.runs
  have hbytes := h.remainingBytes
  rw [List.flatten_cons, utf8Length_append] at hbytes
  have hcurrent : s.currentBytes + utf8Length line = utf8Length (s.current ++ [line]).flatten := by
    rw [h.currentBytes, List.flatten_append, utf8Length_append, List.flatten_singleton]
  unfold LineSplit.add byteLength
  rw [if_pos henc]
  by_cases hcut : 1 < s.remainingParts ∧ s.target ≤ s.currentBytes + utf8Length line
  · have hlt := h.lt_target hline hcut.1
    have hle := h.target_le
    have hfair := fair_of_target_le hcut.1 h.fair (h.target ▸ hcut.2)
    let s' : LineSplit :=
      { parts := s.parts ++ [(s.current ++ [line]).flatten], current := [], currentBytes := 0,
        remainingBytes := s.remainingBytes - (s.currentBytes + utf8Length line),
        remainingParts := s.remainingParts - 1,
        target := ⌈((s.remainingBytes - (s.currentBytes + utf8Length line) : ℕ) /
          (s.remainingParts - 1 : ℕ) : ℚ)⌉₊ }
    refine ⟨s', ?_, ?_⟩
    · change (if _ then _ else _) = _
      rw [if_pos hcut]
      unfold ceilQuotient
      rw [if_neg (by change s.remainingParts - 1 ≠ 0; omega)]
      rfl
    · exact
        { runs := ⟨runs ++ [s.current ++ [line]], by simp [s', ← hdone], by simp [hruns],
            by simp [s', hparts]⟩
          currentBytes := rfl
          remainingBytes := by
            change s.remainingBytes - (s.currentBytes + utf8Length line) = 0 + _
            omega
          parts_pos := by
            change 1 ≤ s.remainingParts - 1
            omega
          count := by
            have hcount := h.count
            simp only [s', List.length_append, List.length_singleton]
            omega
          target := rfl
          fair := hfair
          isOpen := fun _ hne => absurd rfl hne
          small := by
            intro part hpart
            rcases List.mem_append.1 hpart with hpart | hpart
            · exact h.small part hpart
            · rw [List.mem_singleton.1 hpart, ← hcurrent]
              omega }
  · refine ⟨{ s with current := s.current ++ [line],
                     currentBytes := s.currentBytes + utf8Length line }, ?_,
      ⟨runs, ?_, hruns, hparts⟩, hcurrent, ?_, h.parts_pos, h.count, h.target, h.fair, ?_, h.small⟩
    · change (if _ then _ else _) = _
      rw [if_neg hcut]
      rfl
    · rw [← hdone, List.append_assoc]
    · change s.remainingBytes = s.currentBytes + utf8Length line + _
      omega
    · exact fun hp _ => not_le.1 fun hle => hcut ⟨hp, hle⟩

/-- **The whole loop.** -/
theorem Fits.foldlM (h : Fits share most count done rest s) (hline : [] ∉ rest)
    (henc : ∀ line ∈ rest, Encodable line) (hmost : ∀ line ∈ rest, utf8Length line ≤ most) :
    ∃ s', rest.foldlM (fun s line => LineSplit.add line s) s = Except.ok s' ∧
      Fits share most count (done ++ rest) [] s' := by
  induction rest generalizing done s with
  | nil => exact ⟨s, rfl, by rwa [List.append_nil]⟩
  | cons line rest ih =>
      rw [List.mem_cons, not_or] at hline
      rw [List.forall_mem_cons] at henc hmost
      obtain ⟨s₁, hs₁, h₁⟩ := h.add (Ne.symm hline.1) henc.1 hmost.1
      obtain ⟨s', hs', h'⟩ := ih h₁ hline.2 henc.2 hmost.2
      refine ⟨s', ?_, by rwa [List.append_assoc] at h'⟩
      rw [List.foldlM_cons, hs₁]
      exact hs'

end LineSplit

namespace ReadPartly

open PyStr

variable {text : PyStr} {count : ℕ}

theorem utf8Length_le_longest {lines : List PyStr} {line : PyStr} (h : line ∈ lines) :
    utf8Length line ≤ longest lines := by
  induction lines with
  | nil => cases h
  | cons first lines ih =>
      have hcons : longest (first :: lines) = max (utf8Length first) (longest lines) := rfl
      rcases List.mem_cons.1 h with rfl | h
      · rw [hcons]
        exact le_max_left _ _
      · rw [hcons]
        exact (ih h).trans (le_max_right _ _)

theorem mapM_byteLength {lines : List PyStr} (h : ∀ line ∈ lines, Encodable line) :
    lines.mapM byteLength = Except.ok (lines.map utf8Length) := by
  induction lines with
  | nil => rfl
  | cons line lines ih =>
      rw [List.forall_mem_cons] at h
      rw [List.mapM_cons, ih h.2, byteLength, if_pos h.1]
      rfl

theorem splitlinesKeep_ne_nil (hne : text ≠ []) : splitlinesKeep text ≠ [] := by
  intro hnil
  have hflat := flatten_splitlinesKeep text
  rw [hnil] at hflat
  exact hne hflat.symm

/-- The shares make up the text. -/
theorem le_ceil_mul {a b : ℕ} (hb : 1 ≤ b) : a ≤ ⌈(a / b : ℚ)⌉₊ * b := by
  have hpos : (0 : ℚ) < b := by exact_mod_cast hb
  have hceil := Nat.le_ceil (a / b : ℚ)
  rw [div_le_iff₀ hpos] at hceil
  exact_mod_cast hceil

/-- What the loop starts with. -/
theorem fits_initial {lines : List PyStr} {parts : ℕ} (most : ℕ) (hparts : 1 ≤ parts) :
    LineSplit.Fits ⌈(utf8Length lines.flatten / parts : ℚ)⌉₊ most parts [] lines
      { parts := [], current := [], currentBytes := 0, remainingBytes := utf8Length lines.flatten,
        remainingParts := parts, target := ⌈(utf8Length lines.flatten / parts : ℚ)⌉₊ } where
  runs := ⟨[], rfl, List.not_mem_nil, rfl⟩
  currentBytes := rfl
  remainingBytes := (Nat.zero_add _).symm
  parts_pos := hparts
  count := Nat.zero_add _
  target := rfl
  fair := le_ceil_mul hparts
  isOpen := fun _ hne => absurd rfl hne
  small := fun _ h => absurd h List.not_mem_nil

/-- **Whatever the loop ends with is a balanced splitting.** -/
theorem balanced_of_fits {s : LineSplit} (hne : text ≠ [])
    (h : LineSplit.Fits
      ⌈(utf8Length text / (min count (splitlinesKeep text).length : ℕ) : ℚ)⌉₊
      (longest (splitlinesKeep text)) (min count (splitlinesKeep text).length)
      (splitlinesKeep text) [] s) :
    Balanced text count
      (if s.current = [] then s.parts else s.parts ++ [s.current.flatten]) := by
  obtain ⟨runs, hruns, hnil, hparts⟩ := h.runs
  -- With the last part the runs make up all lines.
  have hall : ∃ runs' : List (List PyStr), runs'.flatten = splitlinesKeep text ∧ [] ∉ runs' ∧
      (if s.current = [] then s.parts else s.parts ++ [s.current.flatten]) =
        runs'.map List.flatten := by
    split_ifs with hcurrent
    · rw [hcurrent, List.append_nil] at hruns
      exact ⟨runs, hruns, hnil, hparts⟩
    · exact ⟨runs ++ [s.current], by simp [hruns], by simp [hnil, Ne.symm hcurrent],
        by simp [hparts]⟩
  have hcount := h.count
  have hpos := h.parts_pos
  have hlast : s.current ≠ [] → utf8Length s.current.flatten <
      ⌈(utf8Length text / (min count (splitlinesKeep text).length : ℕ) : ℚ)⌉₊ +
        longest (splitlinesKeep text) := by
    intro hcurrent
    have hbytes := h.remainingBytes
    rw [List.flatten_nil, utf8Length_nil, Nat.add_zero] at hbytes
    rw [← h.currentBytes]
    rcases Nat.lt_or_ge 1 s.remainingParts with hmany | hone
    · have hlt := h.isOpen hmany hcurrent
      have hle := h.target_le
      omega
    · -- The last part takes what is left, and its longest line takes at least one byte.
      have hfair := h.fair
      rw [show s.remainingParts = 1 by omega, Nat.mul_one, hbytes] at hfair
      obtain ⟨line, rest, hline⟩ := List.exists_cons_of_ne_nil (splitlinesKeep_ne_nil hne)
      have hmem : line ∈ splitlinesKeep text := hline ▸ List.mem_cons_self
      have hlong := utf8Length_le_longest hmem
      have hbyte := utf8Length_pos (ne_nil_of_mem_splitlinesKeep hmem)
      omega
  obtain ⟨runs', hruns', hnil', hparts'⟩ := hall
  refine { whole := ?_, lines := ⟨runs', hruns', hnil', hparts'⟩, nonempty := ?_, some_part := ?_,
           few_parts := ?_, bytes := ?_ }
  · rw [hparts', ← List.flatten_flatten, hruns', flatten_splitlinesKeep]
  · rw [hparts', List.mem_map]
    rintro ⟨run, hrun, hempty⟩
    obtain ⟨line, rest, rfl⟩ := List.exists_cons_of_ne_nil
      (fun heq => hnil' (heq ▸ hrun) : run ≠ [])
    have hmem : line ∈ splitlinesKeep text :=
      hruns' ▸ List.mem_flatten.2 ⟨_, hrun, List.mem_cons_self⟩
    rw [List.flatten_cons, List.append_eq_nil_iff] at hempty
    exact ne_nil_of_mem_splitlinesKeep hmem hempty.1
  · rw [hparts', List.length_map, Nat.one_le_iff_ne_zero, ne_eq, List.length_eq_zero_iff]
    rintro rfl
    exact splitlinesKeep_ne_nil hne hruns'.symm
  · split_ifs
    · omega
    · rw [List.length_append, List.length_singleton]
      omega
  · intro part hpart
    split_ifs at hpart with hcurrent
    · exact h.small part hpart
    · rcases List.mem_append.1 hpart with hpart | hpart
      · exact h.small part hpart
      · rw [List.mem_singleton.1 hpart]
        exact hlast hcurrent

/-- **Every text is split into balanced parts**, and no quotient has the denominator zero. -/
theorem splitLines_balanced (hne : text ≠ []) (henc : Encodable text) (hcount : 1 ≤ count) :
    ∃ parts, splitLines text count = Except.ok parts ∧ Balanced text count parts := by
  have hflat := flatten_splitlinesKeep text
  have hlines := splitlinesKeep_ne_nil hne
  have hencodes : ∀ line ∈ splitlinesKeep text, Encodable line :=
    fun line hline => encodable_of_mem_flatten (by rwa [hflat]) hline
  have hparts : 1 ≤ min count (splitlinesKeep text).length :=
    le_min hcount (List.length_pos_of_ne_nil hlines)
  have hinit := @fits_initial (splitlinesKeep text) _ (longest (splitlinesKeep text)) hparts
  rw [hflat] at hinit
  obtain ⟨s, hs, hfits⟩ := hinit.foldlM
    (fun hmem => ne_nil_of_mem_splitlinesKeep hmem rfl) hencodes
    fun line hline => utf8Length_le_longest hline
  refine ⟨_, ?_, balanced_of_fits hne hfits⟩
  unfold splitLines
  rw [if_neg hlines, mapM_byteLength hencodes]
  dsimp only [bind, Except.bind]
  rw [← utf8Length_flatten, hflat, ceilQuotient, if_neg (Nat.one_le_iff_ne_zero.1 hparts)]
  dsimp only
  rw [hs]
  rfl

/-- A text of three lines of different lengths, in at most two parts. -/
theorem splitLines_balanced_threeLines : ∃ parts,
    splitLines (PyStr.ofString "a\nbcd\nef\n") 2 = Except.ok parts ∧
      Balanced (PyStr.ofString "a\nbcd\nef\n") 2 parts :=
  splitLines_balanced (by decide) (PyStr.encodable_ofString _) (by decide)

end ReadPartly
