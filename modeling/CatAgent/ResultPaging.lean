/-
**Reading a saved result page by page.**

A tool result that is too long for the context is written to a file, as JSON text, and the model reads
it back in pages: it starts at offset 0 and goes on at the `next_offset` of every page, with lengths of
its own choice.  Other results may be saved in the meantime.

The file is read in text mode, which turns every line end into a line feed.  JSON text has no line
ends: a carriage return in a string is escaped.

Main definitions:

* `PyStr.universalNewlines` — how a file is read in text mode;
* `ResultStore.save`, `ResultStore.machine` — saving one result, and any sequence of results;
* `ResultStore.openText` — the texts of the files;
* `ResultStore.follow` — following the pages.

Main results:

* `Json.forall_mem_dumps` — JSON text has no control characters;
* `ResultStore.file_kept` — a file that has been saved stays as it is;
* `ResultStore.follow_text` — pages of any lengths make up the text;
* `ResultStore.pages_whole` — **whoever follows the pages of a saved result reaches the end, and has
  read exactly its JSON text**.
-/

import CatAgent.TextLines
import CatAgent.ToolGuard

set_option relaxedAutoImplicit false
set_option autoImplicit false

namespace PyStr

/-- A text as a file in text mode delivers it: `\r\n` and `\r` are read as `\n`. -/
def universalNewlines : PyStr → PyStr
  | [] => []
  | c :: rest =>
      if c.val = 0x0D then
        if rest.head?.any fun d => d.val == 0x0A then universalNewlines rest
        else lineFeed :: universalNewlines rest
      else c :: universalNewlines rest

/-- A text without carriage returns is read as it was written. -/
theorem universalNewlines_eq_self {s : PyStr} (h : ∀ c ∈ s, c.val ≠ 0x0D) :
    universalNewlines s = s := by
  induction s with
  | nil => rfl
  | cons c s ih =>
      rw [List.forall_mem_cons] at h
      rw [universalNewlines, if_neg h.1, ih h.2]

end PyStr

namespace Json

section CodePoints

variable {P : CodePoint → Prop} {fl : ℚ → PyStr}

theorem forall_mem_escape (hP : ∀ c, 0x20 ≤ c.val → P c) (s : PyStr) : ∀ c ∈ escape s, P c := by
  have hprint : ∀ c, isPrintable c = true → P c := by
    intro c hc
    simp only [isPrintable, Bool.and_eq_true, decide_eq_true_eq] at hc
    exact hP c hc.1
  exact (forall_mem_escape_iff hprint s).2 fun c _ hc => hP c (by omega)

theorem forall_mem_literal_dumps (hP : ∀ c, 0x20 ≤ c.val → P c) {s : String}
    (hs : (PyStr.ofString s).all (fun c => decide (0x20 ≤ c.val)) = true) :
    ∀ c ∈ PyStr.ofString s, P c :=
  fun c hc => hP c (of_decide_eq_true (List.all_eq_true.1 hs c hc))

mutual

/-- **JSON text has no control characters.** -/
theorem forall_mem_dumps (hP : ∀ c, 0x20 ≤ c.val → P c) (hfl : ∀ q, ∀ c ∈ fl q, P c) (v : Json) :
    ∀ c ∈ dumps fl v, P c := by
  have hlit {s : String} (hs : (PyStr.ofString s).all (fun c => decide (0x20 ≤ c.val)) = true) :=
    forall_mem_literal_dumps hP hs
  cases v with
  | null => exact hlit (by decide)
  | bool b =>
      cases b with
      | false => exact hlit (by decide)
      | true => exact hlit (by decide)
  | int n =>
      refine forall_mem_toString (fun c hc => hP c ?_) n
      simp only [isPrintable, Bool.and_eq_true, decide_eq_true_eq] at hc
      exact hc.1
  | num q => exact hfl q
  | str s => exact forall_mem_escape hP s
  | arr xs =>
      simp only [dumps, List.forall_mem_append]
      exact ⟨⟨hlit (by decide), forall_mem_dumpsList hP hfl xs⟩, hlit (by decide)⟩
  | obj items =>
      simp only [dumps, List.forall_mem_append]
      exact ⟨⟨hlit (by decide), forall_mem_dumpsItems hP hfl items⟩, hlit (by decide)⟩

theorem forall_mem_dumpsList (hP : ∀ c, 0x20 ≤ c.val → P c) (hfl : ∀ q, ∀ c ∈ fl q, P c)
    (l : List Json) : ∀ c ∈ dumpsList fl l, P c := by
  match l with
  | [] => simp [dumpsList]
  | [v] => exact forall_mem_dumps hP hfl v
  | v :: w :: l =>
      simp only [dumpsList, List.forall_mem_append]
      exact ⟨⟨forall_mem_dumps hP hfl v, forall_mem_literal_dumps hP (by decide)⟩,
        forall_mem_dumpsList hP hfl (w :: l)⟩

theorem forall_mem_dumpsItems (hP : ∀ c, 0x20 ≤ c.val → P c) (hfl : ∀ q, ∀ c ∈ fl q, P c)
    (l : List (PyStr × Json)) : ∀ c ∈ dumpsItems fl l, P c := by
  match l with
  | [] => simp [dumpsItems]
  | [(k, v)] =>
      simp only [dumpsItems, List.forall_mem_append]
      exact ⟨⟨forall_mem_escape hP k, forall_mem_literal_dumps hP (by decide)⟩,
        forall_mem_dumps hP hfl v⟩
  | (k, v) :: w :: l =>
      simp only [dumpsItems, List.forall_mem_append]
      exact ⟨⟨⟨⟨forall_mem_escape hP k, forall_mem_literal_dumps hP (by decide)⟩,
        forall_mem_dumps hP hfl v⟩, forall_mem_literal_dumps hP (by decide)⟩,
        forall_mem_dumpsItems hP hfl (w :: l)⟩

end

end CodePoints

end Json

namespace ResultStore

/-! ### Saving -/

/-- What `uuid.uuid4().hex` returns. -/
abbrev HexId := {s : PyStr // s.length = 32 ∧ s.all isHexDigit = true}

/-- The files of the directory, and what has been written to them. -/
abbrev Directory := PyStr → Option PyStr

/-- One call of `save`: the value, the identifier that is drawn, and how far writing gets if it
fails. -/
structure SaveCall where
  value : Json
  identifier : HexId
  fault : Option PyStr

/-- The name of the file of a result. -/
def fileName (identifier : PyStr) : PyStr := identifier ++ PyStr.ofString ".json"

/-- `save(value)`.  A file that exists is not opened; one that cannot be written to the end is
left as it is. -/
def save (fl : ℚ → PyStr) (c : SaveCall) (d : Directory) : Except PyStr HexId × Directory :=
  let name := fileName c.identifier.val
  let text := Json.dumps fl c.value
  match d name with
  | some _ => (Except.error "File exists", d)
  | none =>
      match c.fault with
      | some written => (Except.error "write error", Function.update d name (some written))
      | none =>
          if PyStr.Encodable text then
            (Except.ok c.identifier, Function.update d name (some text))
          else
            (Except.error "surrogates not allowed",
              Function.update d name (some (text.takeWhile fun ch => !PyStr.isSurrogate ch)))

/-- Any sequence of results. -/
def machine (fl : ℚ → PyStr) : Machine Directory SaveCall where
  init := fun _ => True
  step := fun d c => (save fl c d).2

/-- The text of a file, which has been decoded. -/
def openText (d : Directory) (name : PyStr) : Except PyStr PyStr :=
  match d name with
  | none => Except.error "No such file or directory"
  | some content => Except.ok (PyStr.universalNewlines content)

variable {fl : ℚ → PyStr} {c : SaveCall} {d d' : Directory} {identifier : HexId} {text : PyStr}

/-- What a saved result leaves. -/
theorem save_eq_ok (h : save fl c d = (Except.ok identifier, d')) :
    d' (fileName identifier.val) = some (Json.dumps fl c.value) := by
  unfold save at h
  dsimp only at h
  cases hname : d (fileName c.identifier.val) with
  | some content =>
      rw [hname] at h
      cases h
  | none =>
      rw [hname] at h
      cases hfault : c.fault with
      | some written =>
          rw [hfault] at h
          cases h
      | none =>
          rw [hfault] at h
          dsimp only at h
          by_cases henc : PyStr.Encodable (Json.dumps fl c.value)
          · rw [if_pos henc] at h
            cases h
            exact Function.update_self _ _ _
          · rw [if_neg henc] at h
            cases h

/-- A file that exists is never written again. -/
theorem save_kept {name : PyStr} (h : d name = some text) : (save fl c d).2 name = some text := by
  unfold save
  dsimp only
  cases hname : d (fileName c.identifier.val) with
  | some content => exact h
  | none =>
      have hne : name ≠ fileName c.identifier.val := by
        rintro rfl
        rw [hname] at h
        cases h
      cases c.fault with
      | some written =>
          dsimp only
          rw [Function.update_of_ne hne]
          exact h
      | none =>
          dsimp only
          split_ifs
          · exact (Function.update_of_ne hne _ _).trans h
          · exact (Function.update_of_ne hne _ _).trans h

/-- **A file that has been saved stays as it is.** -/
theorem file_kept {ok : Directory → SaveCall → Prop} (h : (machine fl).Leads ok d d')
    {name : PyStr} (hname : d name = some text) : d' name = some text :=
  h.invariant (I := fun d => d name = some text) hname fun _ _ hd _ => save_kept hd

/-! ### Following the pages -/

/-- Reading on at every `next_offset`, with the `n`-th length at the `n`-th page; `none` if the end
has not been reached after so many pages, or if a page is refused. -/
def follow (read : ℕ → Json → Json → Json) (lengths : ℕ → ℕ) :
    ℕ → ℕ → Json → Option (List PyStr)
  | 0, _, _ => none
  | fuel + 1, n, offset =>
      let answer := read n offset (Json.int (lengths n))
      match (answer.get "text").bind Json.asStr, answer.get "next_offset" with
      | some text, some Json.null => some [text]
      | some text, some next =>
          (follow read lengths fuel (n + 1) next).map fun rest => text :: rest
      | _, _ => none

/-- A page, as whoever follows the pages sees it. -/
theorem get_page {offset length : ℕ} (hoffset : offset ≤ text.length) :
    ((page text offset length).get "text").bind Json.asStr =
        some ((text.drop offset).take length) ∧
      (page text offset length).get "next_offset" = some (nextOffset text offset length) := by
  rw [page_eq hoffset]
  exact ⟨rfl, rfl⟩

/-- **Pages of any lengths make up the text**, and there are no more of them than characters. -/
theorem follow_text {read : ℕ → Json → Json → Json} {lengths : ℕ → ℕ}
    (hread : ∀ n offset, read n (Json.int (offset : ℕ)) (Json.int (lengths n)) =
      page text offset (lengths n))
    (hlengths : ∀ n, 1 ≤ lengths n) (fuel n offset : ℕ) (hoffset : offset < text.length)
    (hfuel : text.length ≤ offset + fuel) :
    ∃ pages, follow read lengths fuel n (Json.int (offset : ℕ)) = some pages ∧
      pages.flatten = text.drop offset := by
  -- Every page moves the offset on by at least one character.
  induction fuel generalizing n offset with
  | zero => omega
  | succ fuel ih =>
      have hpos := hlengths n
      obtain ⟨htext, hnext⟩ := @get_page text offset (lengths n) hoffset.le
      unfold follow
      dsimp only
      rw [hread, htext, hnext]
      by_cases hmore : offset + lengths n < text.length
      · obtain ⟨pages, hpages, hflat⟩ := ih (n + 1) (offset + lengths n) hmore (by omega)
        refine ⟨(text.drop offset).take (lengths n) :: pages, ?_, ?_⟩
        · rw [nextOffset, if_pos hmore]
          dsimp only
          rw [hpages]
          rfl
        · rw [List.flatten_cons, hflat, ← List.drop_drop, List.take_append_drop]
      · refine ⟨[(text.drop offset).take (lengths n)], ?_, ?_⟩
        · rw [nextOffset, if_neg hmore]
        · rw [List.flatten_singleton, List.take_of_length_le]
          rw [List.length_drop]
          omega

theorem dumps_ne_nil (hfl : ∀ q, fl q ≠ []) (v : Json) : Json.dumps fl v ≠ [] := by
  cases v with
  | null => exact PyStr.ofString_ne_nil (by simp)
  | bool b =>
      cases b with
      | false => exact PyStr.ofString_ne_nil (by simp)
      | true => exact PyStr.ofString_ne_nil (by simp)
  | int n =>
      intro hnil
      have hdigits := (List.append_eq_nil_iff.1 ((Json.ofString_toString_int n).symm.trans hnil)).2
      exact Nat.toDigits_ne_nil (List.map_eq_nil_iff.1 hdigits)
  | num q => exact hfl q
  | str s =>
      intro hnil
      exact PyStr.ofString_ne_nil (s := "\"") (by simp) (List.append_eq_nil_iff.1 hnil).2
  | arr xs =>
      intro hnil
      exact PyStr.ofString_ne_nil (s := "]") (by simp) (List.append_eq_nil_iff.1 hnil).2
  | obj items =>
      intro hnil
      exact PyStr.ofString_ne_nil (s := "\x7d") (by simp) (List.append_eq_nil_iff.1 hnil).2

/-- **Whoever follows the pages of a saved result reaches the end, and has read exactly its JSON
text**: with any lengths, and whatever is saved in the meantime. -/
theorem pages_whole (hfl : ∀ q, fl q ≠ [] ∧ ∀ ch ∈ fl q, 0x20 ≤ ch.val)
    (hsave : save fl c d = (Except.ok identifier, d')) {later : ℕ → Directory}
    (hlater : ∀ n, (machine fl).Leads (fun _ _ => True) d' (later n)) {lengths : ℕ → ℕ}
    (hlengths : ∀ n, 1 ≤ lengths n ∧ lengths n ≤ 512) :
    ∃ pages,
      follow (fun n => readToolResult (openText (later n)) (Json.str identifier.val)) lengths
          (Json.dumps fl c.value).length 0 (Json.int (0 : ℕ)) = some pages ∧
        pages.flatten = Json.dumps fl c.value := by
  have hread : ∀ n (offset : ℕ), readToolResult (openText (later n)) (Json.str identifier.val)
      (Json.int offset) (Json.int (lengths n)) =
        page (Json.dumps fl c.value) offset (lengths n) := by
    intro n offset
    refine readToolResult_eq identifier.property.1 identifier.property.2 ?_ (hlengths n).1
      (hlengths n).2
    have hfile := file_kept (hlater n) (save_eq_ok hsave)
    have hplain : ∀ ch ∈ Json.dumps fl c.value, ch.val ≠ 0x0D :=
      Json.forall_mem_dumps (fun ch hch => by omega)
        (fun q ch hch => by have := (hfl q).2 ch hch; omega) c.value
    unfold openText
    rw [show identifier.val ++ PyStr.ofString ".json" = fileName identifier.val from rfl, hfile]
    exact congrArg Except.ok (PyStr.universalNewlines_eq_self hplain)
  have hpos := List.length_pos_of_ne_nil (dumps_ne_nil (fun q => (hfl q).1) c.value)
  obtain ⟨pages, hpages, hflat⟩ := follow_text hread (fun n => (hlengths n).1)
    (Json.dumps fl c.value).length 0 0 hpos (by omega)
  exact ⟨pages, hpages, hflat⟩

/-- A result of a few letters. -/
def fewLetters : SaveCall where
  value := Json.str "abcd"
  identifier := ⟨sampleId, by decide, by decide⟩
  fault := none

/-- The directory in which nothing else has been saved. -/
def saved : Directory :=
  Function.update (fun _ => none) (fileName sampleId)
    (some (Json.dumps (fun _ => "0") fewLetters.value))

theorem save_fewLetters :
    save (fun _ => "0") fewLetters (fun _ => none) = (Except.ok fewLetters.identifier, saved) := by
  have henc : PyStr.Encodable (Json.dumps (fun _ => "0") fewLetters.value) := by decide
  unfold save
  exact if_pos henc

/-- It is read in pages of two characters. -/
theorem pages_whole_fewLetters : ∃ pages,
    follow (fun _ => readToolResult (openText saved) (Json.str sampleId)) (fun _ => 2)
        (Json.dumps (fun _ => "0") fewLetters.value).length 0 (Json.int (0 : ℕ)) = some pages ∧
      pages.flatten = Json.dumps (fun _ => "0") fewLetters.value :=
  @pages_whole (fun _ => "0") fewLetters (fun _ => none) saved fewLetters.identifier
    (fun _ => ⟨PyStr.ofString_ne_nil (by simp), by simp [PyStr.ofString, PyStr.ofChar]⟩)
    save_fewLetters (fun _ => saved) (fun _ => Machine.Leads.refl) (fun _ => 2) (fun _ => ⟨by decide, by decide⟩)

end ResultStore
