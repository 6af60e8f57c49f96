/-
**Speaking while the model still writes.**

The answer of the manager arrives in chunks.  `ManagerVoiceStream` lets through what follows a
leading `ASK` or `REPLY` line and hides everything else, and `TextFragmenter` cuts what it lets
through into fragments for the speech synthesis: at sentence ends, or softly when no end comes in
time.  A short lead such as `Шаг 1.` is held back and spoken together with the sentence after it.

Nothing but white space may be lost on the way.  The fragmenter keeps that, except in one place: a
soft cut is spoken at once, also when a lead is held back that stood before it.  The pieces of a
text, which its chunks and the limits determine, say exactly when this changes the text.

Main definitions:

* `ManagerVoiceStream`, `ManagerVoiceStream.feedChunk` — the gate;
* `TextFragmenter`, `TextFragmenter.feed`, `TextFragmenter.finish` — the fragmenter;
* `VoicePipeline.speak` — a whole response;
* `TextFragmenter.Piece`, `TextFragmenter.pieces` — a text that is divided at sentence ends and at
  soft cuts;
* `TextFragmenter.InPlace` — what has to hold of the pieces.

Main results:

* `ManagerVoiceStream.flatten_outputs` — the gate lets through the same text for every chunking;
* `TextFragmenter.advance_extractLoop` — the loop of the fragmenter ends by itself;
* `TextFragmenter.arranged_eq_iff` — a lead in its place, told from the pieces;
* `VoicePipeline.speak_keeps_iff` — **the text is kept if and only if every lead is in its place**;
* `VoicePipeline.speak_keeps_of_ends` — so a response whose sentences are short enough is kept;
* `VoicePipeline.speak_reorders` — a response whose text is not kept.
-/

import CatAgent.PyStr
import Mathlib.Data.List.Infix

set_option relaxedAutoImplicit false
set_option autoImplicit false

/-! ### The gate -/

/-- What the gate does with a chunk. -/
inductive VoiceMode where
  | idle
  | pending
  | visible
  | hidden
deriving DecidableEq

/-- `ManagerVoiceStream`. -/
structure ManagerVoiceStream where
  mode : VoiceMode
  buffer : PyStr
deriving DecidableEq

namespace ManagerVoiceStream

/-- The line before a command. -/
def workPrefix : PyStr := PyStr.ofString "/work#"

def askPrefix : PyStr := PyStr.ofString "ASK\n"

def replyPrefix : PyStr := PyStr.ofString "REPLY\n"

/-- `decode_start`. -/
def decodeStart (_ : ManagerVoiceStream) : ManagerVoiceStream := ⟨VoiceMode.pending, []⟩

/-- `feed_chunk` while nothing is decided, for the text so far. -/
def settle (text : PyStr) : PyStr × ManagerVoiceStream :=
  if workPrefix <+: text then ([], ⟨VoiceMode.hidden, []⟩)
  else if askPrefix <+: text then (text.drop askPrefix.length, ⟨VoiceMode.visible, []⟩)
  else if replyPrefix <+: text then (text.drop replyPrefix.length, ⟨VoiceMode.visible, []⟩)
  else if text <+: workPrefix ∨ text <+: askPrefix ∨ text <+: replyPrefix then
    ([], ⟨VoiceMode.pending, text⟩)
  else if text.any fun c => c.val == 0x0A then ([], ⟨VoiceMode.hidden, []⟩)
  else ([], ⟨VoiceMode.pending, text⟩)

/-- `feed_chunk`. -/
def feedChunk (chunk : PyStr) (v : ManagerVoiceStream) : PyStr × ManagerVoiceStream :=
  if chunk = [] then ([], v)
  else
    match v.mode with
    | VoiceMode.idle | VoiceMode.hidden => ([], v)
    | VoiceMode.visible => (chunk, v)
    | VoiceMode.pending => settle (v.buffer ++ chunk)

/-- The outputs for some chunks. -/
def outputs : ManagerVoiceStream → List PyStr → List PyStr
  | _, [] => []
  | v, chunk :: chunks => (v.feedChunk chunk).1 :: outputs (v.feedChunk chunk).2 chunks

/-- The text of a response that is meant for a human. -/
def spoken (text : PyStr) : PyStr :=
  if askPrefix <+: text then text.drop askPrefix.length
  else if replyPrefix <+: text then text.drop replyPrefix.length
  else []

/-- How many characters of a response are not meant for a human: the line, or all of them. -/
def hiddenChars (text : PyStr) : ℕ :=
  if askPrefix <+: text then askPrefix.length
  else if replyPrefix <+: text then replyPrefix.length
  else text.length

/-- Some chunks without so many characters at the beginning. -/
def dropChars : ℕ → List PyStr → List PyStr
  | _, [] => []
  | n, chunk :: chunks => chunk.drop n :: dropChars (n - chunk.length) chunks

/-- What the chunks of a response tell a human. -/
def visible (chunks : List PyStr) : List PyStr := dropChars (hiddenChars chunks.flatten) chunks

/-- What is still to come through the gate. -/
def expects (v : ManagerVoiceStream) (text : PyStr) : PyStr :=
  match v.mode with
  | VoiceMode.idle | VoiceMode.hidden => []
  | VoiceMode.visible => text
  | VoiceMode.pending => spoken (v.buffer ++ text)

/-- A prefix of a longer text is known, or still open. -/
theorem prefix_append_cases {p s t : PyStr} (h : p <+: s ++ t) : p <+: s ∨ s <+: p :=
  List.prefix_or_prefix_of_prefix h (List.prefix_append s t)

/-- Text after which neither line can come is not spoken. -/
theorem spoken_append_of_not {s : PyStr} (hask : ¬(askPrefix <+: s ∨ s <+: askPrefix))
    (hreply : ¬(replyPrefix <+: s ∨ s <+: replyPrefix)) (t : PyStr) : spoken (s ++ t) = [] := by
  rw [spoken, if_neg fun h => hask (prefix_append_cases h),
    if_neg fun h => hreply (prefix_append_cases h)]

/-- A line that has come stays. -/
theorem spoken_append_of_ask {s : PyStr} (h : askPrefix <+: s) (t : PyStr) :
    spoken (s ++ t) = s.drop askPrefix.length ++ t := by
  rw [spoken, if_pos (h.trans (List.prefix_append s t)), List.drop_append_of_le_length h.length_le]

/-- The two lines exclude each other. -/
theorem not_ask_of_reply {s : PyStr} (h : replyPrefix <+: s) : ¬askPrefix <+: s := by
  intro hask
  rcases List.prefix_or_prefix_of_prefix hask h with h' | h'
  · exact absurd h' (by decide)
  · exact absurd h' (by decide)

theorem spoken_append_of_reply {s : PyStr} (h : replyPrefix <+: s) (t : PyStr) :
    spoken (s ++ t) = s.drop replyPrefix.length ++ t := by
  rw [spoken, if_neg (not_ask_of_reply (h.trans (List.prefix_append s t))), if_pos (h.trans (List.prefix_append s t)),
    List.drop_append_of_le_length h.length_le]

/-- A pending gate has not seen one of the lines. -/
def Undecided (v : ManagerVoiceStream) : Prop :=
  v.mode = VoiceMode.pending → ¬askPrefix <+: v.buffer ∧ ¬replyPrefix <+: v.buffer

theorem undecided_of_ne {v : ManagerVoiceStream} (h : v.mode ≠ VoiceMode.pending) : v.Undecided :=
  fun h' => absurd h' h

/-- A command has none of the lines. -/
theorem apart_of_work {s : PyStr} (h : workPrefix <+: s) :
    ¬(askPrefix <+: s ∨ s <+: askPrefix) ∧ ¬(replyPrefix <+: s ∨ s <+: replyPrefix) := by
  constructor
  · rintro (h' | h')
    · rcases List.prefix_or_prefix_of_prefix h h' with hp | hp <;> exact absurd hp (by decide)
    · exact absurd (h.trans h') (by decide)
  · rintro (h' | h')
    · rcases List.prefix_or_prefix_of_prefix h h' with hp | hp <;> exact absurd hp (by decide)
    · exact absurd (h.trans h') (by decide)

/-- **What is settled for a text** lets through what is to come. -/
theorem settle_spec (text : PyStr) : (settle text).2.Undecided ∧
    ∀ rest, (settle text).1 ++ (settle text).2.expects rest = spoken (text ++ rest) := by
  unfold settle
  by_cases hwork : workPrefix <+: text
  · rw [if_pos hwork]
    obtain ⟨hask, hreply⟩ := apart_of_work hwork
    exact ⟨undecided_of_ne (by simp), fun rest => (spoken_append_of_not hask hreply rest).symm⟩
  rw [if_neg hwork]
  by_cases hask : askPrefix <+: text
  · rw [if_pos hask]
    exact ⟨undecided_of_ne (by simp), fun rest => (spoken_append_of_ask hask rest).symm⟩
  rw [if_neg hask]
  by_cases hreply : replyPrefix <+: text
  · rw [if_pos hreply]
    exact ⟨undecided_of_ne (by simp), fun rest => (spoken_append_of_reply hreply rest).symm⟩
  rw [if_neg hreply]
  have hundecided : (⟨VoiceMode.pending, text⟩ : ManagerVoiceStream).Undecided :=
    fun _ => ⟨hask, hreply⟩
  by_cases hopen : text <+: workPrefix ∨ text <+: askPrefix ∨ text <+: replyPrefix
  · rw [if_pos hopen]
    exact ⟨hundecided, fun rest => rfl⟩
  rw [if_neg hopen]
  by_cases hline : text.any (fun c => c.val == 0x0A) = true
  · rw [if_pos hline]
    rw [not_or, not_or] at hopen
    refine ⟨undecided_of_ne (by simp), fun rest => (spoken_append_of_not ?_ ?_ rest).symm⟩
    · exact not_or.2 ⟨hask, hopen.2.1⟩
    · exact not_or.2 ⟨hreply, hopen.2.2⟩
  · rw [if_neg hline]
    exact ⟨hundecided, fun rest => rfl⟩

/-- One chunk. -/
theorem feedChunk_spec {v : ManagerVoiceStream} (hv : v.Undecided) (chunk : PyStr) :
    (v.feedChunk chunk).2.Undecided ∧
      ∀ rest, (v.feedChunk chunk).1 ++ (v.feedChunk chunk).2.expects rest =
        v.expects (chunk ++ rest) := by
  obtain ⟨mode, buffer⟩ := v
  unfold feedChunk
  by_cases hchunk : chunk = []
  · rw [if_pos hchunk, hchunk]
    exact ⟨hv, fun rest => rfl⟩
  rw [if_neg hchunk]
  cases mode with
  | idle => exact ⟨hv, fun rest => rfl⟩
  | hidden => exact ⟨hv, fun rest => rfl⟩
  | visible => exact ⟨hv, fun rest => rfl⟩
  | pending =>
      refine ⟨(settle_spec _).1, fun rest => ?_⟩
      rw [(settle_spec _).2, List.append_assoc]
      rfl

/-- **The gate lets through the same text for every chunking.** -/
theorem flatten_outputs_eq {v : ManagerVoiceStream} (hv : v.Undecided) (chunks : List PyStr) :
    (v.outputs chunks).flatten = v.expects chunks.flatten := by
  induction chunks generalizing v with
  | nil =>
      obtain ⟨mode, buffer⟩ := v
      cases mode with
      | pending =>
          obtain ⟨hask, hreply⟩ := hv rfl
          simp [outputs, expects, spoken, hask, hreply]
      | idle => rfl
      | hidden => rfl
      | visible => rfl
  | cons chunk chunks ih =>
      obtain ⟨hundecided, hspec⟩ := feedChunk_spec hv chunk
      rw [outputs, List.flatten_cons, ih hundecided, hspec, List.flatten_cons]

theorem undecided_decodeStart (v : ManagerVoiceStream) : v.decodeStart.Undecided :=
  fun _ => show ¬askPrefix <+: [] ∧ ¬replyPrefix <+: [] by decide

/-- After `decode_start`, that is the text for a human. -/
theorem flatten_outputs (v : ManagerVoiceStream) (chunks : List PyStr) :
    (v.decodeStart.outputs chunks).flatten = spoken chunks.flatten :=
  flatten_outputs_eq v.undecided_decodeStart chunks

/-! #### The chunks -/

theorem dropChars_zero (chunks : List PyStr) : dropChars 0 chunks = chunks := by
  induction chunks with
  | nil => rfl
  | cons chunk chunks ih => rw [dropChars, List.drop_zero, Nat.zero_sub, ih]

theorem dropChars_of_le {n : ℕ} {chunks : List PyStr} (h : chunks.flatten.length ≤ n) :
    dropChars n chunks = chunks.map fun _ => [] := by
  induction chunks generalizing n with
  | nil => rfl
  | cons chunk chunks ih =>
      rw [List.flatten_cons, List.length_append] at h
      rw [dropChars, List.drop_eq_nil_of_le (by omega), ih (by omega), List.map_cons]

/-- A gate that has been opened lets everything through. -/
theorem outputs_visible (chunks : List PyStr) : outputs ⟨VoiceMode.visible, []⟩ chunks = chunks := by
  induction chunks with
  | nil => rfl
  | cons chunk chunks ih =>
      have hchunk : (⟨VoiceMode.visible, []⟩ : ManagerVoiceStream).feedChunk chunk =
          (chunk, ⟨VoiceMode.visible, []⟩) := by
        unfold feedChunk
        split_ifs with hempty
        · rw [hempty]
        · rfl
      rw [outputs, hchunk, ih]

/-- A gate that has been closed lets nothing through. -/
theorem outputs_hidden (chunks : List PyStr) :
    outputs ⟨VoiceMode.hidden, []⟩ chunks = chunks.map fun _ => [] := by
  induction chunks with
  | nil => rfl
  | cons chunk chunks ih =>
      have hchunk : (⟨VoiceMode.hidden, []⟩ : ManagerVoiceStream).feedChunk chunk =
          ([], ⟨VoiceMode.hidden, []⟩) := by
        unfold feedChunk
        split_ifs <;> rfl
      rw [outputs, hchunk, ih, List.map_cons]

/-- A response that is not spoken is hidden as a whole. -/
theorem hiddenChars_of_not {s : PyStr} (hask : ¬(askPrefix <+: s ∨ s <+: askPrefix))
    (hreply : ¬(replyPrefix <+: s ∨ s <+: replyPrefix)) (t : PyStr) :
    hiddenChars (s ++ t) = (s ++ t).length := by
  rw [hiddenChars, if_neg fun h => hask (prefix_append_cases h),
    if_neg fun h => hreply (prefix_append_cases h)]

/-- What has come is hidden as long as no line has come. -/
theorem le_hiddenChars {s : PyStr} (hask : ¬askPrefix <+: s) (hreply : ¬replyPrefix <+: s)
    (t : PyStr) : s.length ≤ hiddenChars (s ++ t) := by
  unfold hiddenChars
  split_ifs with h₁ h₂
  · exact ((prefix_append_cases h₁).resolve_left hask).length_le
  · exact ((prefix_append_cases h₂).resolve_left hreply).length_le
  · rw [List.length_append]
    exact Nat.le_add_right _ _

/-- The chunk that completes a line is cut after it. -/
theorem dropChars_line {line s chunk : PyStr} (hs : ¬line <+: s) (h : line <+: s ++ chunk)
    (chunks : List PyStr) : dropChars (line.length - s.length) (chunk :: chunks) =
      (s ++ chunk).drop line.length :: chunks := by
  have hle : s.length ≤ line.length := ((prefix_append_cases h).resolve_left hs).length_le
  have hlen := h.length_le
  rw [List.length_append] at hlen
  have hzero : line.length - s.length - chunk.length = 0 := by omega
  rw [dropChars, hzero, dropChars_zero, List.drop_append, List.drop_eq_nil_of_le hle,
    List.nil_append]

/-- Nothing is told after a text that is hidden as a whole. -/
theorem dropChars_hidden {s chunk : PyStr} {chunks : List PyStr}
    (h : hiddenChars (s ++ chunk ++ chunks.flatten) = (s ++ chunk ++ chunks.flatten).length) :
    dropChars (hiddenChars (s ++ chunk ++ chunks.flatten) - s.length) (chunk :: chunks) =
      [] :: chunks.map fun _ => [] := by
  simp only [List.length_append] at h
  rw [dropChars_of_le, List.map_cons]
  rw [List.flatten_cons, List.length_append]
  omega

/-- **What the gate lets through**, chunk by chunk. -/
theorem outputs_pending {s : PyStr} (hask : ¬askPrefix <+: s) (hreply : ¬replyPrefix <+: s)
    (chunks : List PyStr) : outputs ⟨VoiceMode.pending, s⟩ chunks =
      dropChars (hiddenChars (s ++ chunks.flatten) - s.length) chunks := by
  induction chunks generalizing s with
  | nil => rfl
  | cons chunk chunks ih =>
      by_cases hchunk : chunk = []
      · subst hchunk
        have hfeed : (⟨VoiceMode.pending, s⟩ : ManagerVoiceStream).feedChunk [] =
            ([], ⟨VoiceMode.pending, s⟩) := rfl
        rw [outputs, hfeed, ih hask hreply]
        simp [dropChars]
      have hfeed : (⟨VoiceMode.pending, s⟩ : ManagerVoiceStream).feedChunk chunk =
          settle (s ++ chunk) := if_neg hchunk
      rw [outputs, hfeed, List.flatten_cons, ← List.append_assoc]
      have hidden : ¬(askPrefix <+: s ++ chunk ∨ s ++ chunk <+: askPrefix) →
          ¬(replyPrefix <+: s ++ chunk ∨ s ++ chunk <+: replyPrefix) →
          [] :: outputs ⟨VoiceMode.hidden, []⟩ chunks =
            dropChars (hiddenChars (s ++ chunk ++ chunks.flatten) - s.length) (chunk :: chunks) := by
        intro ha hr
        rw [outputs_hidden, dropChars_hidden (hiddenChars_of_not ha hr _)]
      have hopen : ¬askPrefix <+: s ++ chunk → ¬replyPrefix <+: s ++ chunk →
          [] :: outputs ⟨VoiceMode.pending, s ++ chunk⟩ chunks =
            dropChars (hiddenChars (s ++ chunk ++ chunks.flatten) - s.length) (chunk :: chunks) := by
        intro ha hr
        have hle := le_hiddenChars ha hr chunks.flatten
        rw [List.length_append] at hle
        rw [ih ha hr, dropChars, List.drop_eq_nil_of_le (by omega), List.length_append,
          Nat.sub_sub]
      unfold settle
      by_cases hwork : workPrefix <+: s ++ chunk
      · rw [if_pos hwork]
        exact hidden (apart_of_work hwork).1 (apart_of_work hwork).2
      rw [if_neg hwork]
      by_cases ha : askPrefix <+: s ++ chunk
      · rw [if_pos ha, outputs_visible, hiddenChars, if_pos (ha.trans (List.prefix_append _ _)),
          dropChars_line hask ha]
      rw [if_neg ha]
      by_cases hr : replyPrefix <+: s ++ chunk
      · have hr' := hr.trans (List.prefix_append _ chunks.flatten)
        rw [if_pos hr, outputs_visible, hiddenChars, if_neg (not_ask_of_reply hr'), if_pos hr',
          dropChars_line hreply hr]
      rw [if_neg hr]
      by_cases hpre : s ++ chunk <+: workPrefix ∨ s ++ chunk <+: askPrefix ∨
          s ++ chunk <+: replyPrefix
      · rw [if_pos hpre]
        exact hopen ha hr
      rw [if_neg hpre]
      rw [not_or, not_or] at hpre
      by_cases hline : (s ++ chunk).any (fun c => c.val == 0x0A) = true
      · rw [if_pos hline]
        exact hidden (not_or.2 ⟨ha, hpre.2.1⟩) (not_or.2 ⟨hr, hpre.2.2⟩)
      · rw [if_neg hline]
        exact hopen ha hr

/-- After `decode_start`, the gate lets through what the chunks tell a human. -/
theorem outputs_decodeStart (v : ManagerVoiceStream) (chunks : List PyStr) :
    v.decodeStart.outputs chunks = visible chunks :=
  outputs_pending (s := []) (by decide) (by decide) chunks

end ManagerVoiceStream

/-! ### Text without its white space -/

namespace PyStr

/-- What is left of a text without its white space. -/
def bare (s : PyStr) : PyStr := s.filter fun c => !isSpace c

/-- `s.lstrip()`. -/
def lstrip (s : PyStr) : PyStr := s.dropWhile isSpace

def space : CodePoint := ofChar ' '

/-- `" ".join(pieces)`. -/
def spaced (pieces : List PyStr) : PyStr := List.intercalate [space] pieces

@[simp] theorem bare_nil : bare [] = [] := rfl

@[simp] theorem bare_append (s t : PyStr) : bare (s ++ t) = bare s ++ bare t :=
  List.filter_append ..

@[simp] theorem bare_lstrip (s : PyStr) : bare (lstrip s) = bare s := by
  induction s with
  | nil => rfl
  | cons c s ih =>
      by_cases hc : isSpace c = true
      · have hdrop : lstrip (c :: s) = lstrip s := by simp [lstrip, hc]
        rw [hdrop, ih]
        simp [bare, hc]
      · have hdrop : lstrip (c :: s) = c :: s := by simp [lstrip, hc]
        rw [hdrop]

theorem bare_reverse (s : PyStr) : bare s.reverse = (bare s).reverse := List.filter_reverse ..

@[simp] theorem bare_strip (s : PyStr) : bare (strip s) = bare s := by
  have h : strip s = (lstrip (lstrip s).reverse).reverse := rfl
  rw [h, bare_reverse, bare_lstrip, bare_reverse, List.reverse_reverse, bare_lstrip]

@[simp] theorem bare_spaced (pieces : List PyStr) : bare (spaced pieces) = bare pieces.flatten := by
  induction pieces with
  | nil => rfl
  | cons piece pieces ih =>
      cases pieces with
      | nil => simp [spaced, List.intercalate]
      | cons piece' pieces =>
          have hcons : spaced (piece :: piece' :: pieces) =
              piece ++ [space] ++ spaced (piece' :: pieces) := by
            simp [spaced, List.intercalate]
          have hspace : bare [space] = [] := by decide
          rw [hcons, bare_append, bare_append, ih, hspace, List.append_nil,
            List.flatten_cons (l := piece), bare_append]

end PyStr

/-! ### The fragmenter -/

namespace TextFragmenter

/-- The limits of a fragmenter. -/
structure Limits where
  firstMaxChars : ℕ
  targetChars : ℕ
  maxChars : ℕ
  targetSentences : ℕ
  minSoftChars : ℕ
  firstMaxChars_pos : 0 < firstMaxChars
  maxChars_pos : 0 < maxChars

/-- The defaults. -/
def Limits.default : Limits := ⟨90, 180, 260, 3, 45, by decide, by decide⟩

end TextFragmenter

/-- `TextFragmenter`. -/
structure TextFragmenter where
  buffer : PyStr
  pending : List PyStr
  shortLead : Option PyStr
  firstEmitted : Bool

namespace TextFragmenter

open PyStr (bare lstrip spaced isSpace strip)

/-- A new fragmenter. -/
def new : TextFragmenter := ⟨[], [], none, false⟩

/-- A fragmenter in the course of `_extract`, with the fragments so far. -/
structure Extraction extends TextFragmenter where
  fragments : List PyStr

/-! #### The regular expressions -/

/-- `[!?…]`. -/
def isMark (c : CodePoint) : Bool := c.val == 0x21 || c.val == 0x3F || c.val == 0x2026

/-- `["»”\\)\\]]`. -/
def isCloser (c : CodePoint) : Bool :=
  c.val == 0x22 || c.val == 0xBB || c.val == 0x201D || c.val == 0x29 || c.val == 0x5D

def isDot (c : CodePoint) : Bool := c.val == 0x2E

/-- What follows a sentence end that starts here, if one does.  Marks may end the text, a dot has to
be followed by white space; a shorter run of marks or of closers is never followed by either. -/
def sentenceEnd : PyStr → Option PyStr
  | [] => none
  | c :: s =>
      if isMark c then
        let rest := (s.dropWhile isMark).dropWhile isCloser
        if rest.head?.all isSpace then some rest else none
      else if isDot c then
        let rest := s.dropWhile isCloser
        if rest.head?.any isSpace then some rest else none
      else none

/-- `_SENTENCE_END_RE.search`: the text up to the first sentence end, and what follows it. -/
def searchSentence : PyStr → Option (PyStr × PyStr)
  | [] => none
  | c :: s =>
      match sentenceEnd (c :: s) with
      | some rest => some ((c :: s).take ((c :: s).length - rest.length), rest)
      | none => (searchSentence s).map fun found => (c :: found.1, found.2)

/-- `_SOFT_BOUNDARY_RE`: `[,;:—]`. -/
def isSoftBoundary (c : CodePoint) : Bool :=
  c.val == 0x2C || c.val == 0x3B || c.val == 0x3A || c.val == 0x2014

/-- A letter of the pattern, in any case; two historic letters count as its `т`. -/
def matchesLetter (letter c : CodePoint) : Bool :=
  c == letter || c.val + 0x20 == letter.val ||
    (letter.val == 0x442 && (c.val == 0x1C84 || c.val == 0x1C85))

/-- `шаг|пункт|этап`. -/
def leadWords : List PyStr := ["шаг", "пункт", "этап"].map PyStr.ofString

/-- `[.!?]`. -/
def endsLead (c : CodePoint) : Bool := c.val == 0x2E || c.val == 0x21 || c.val == 0x3F

/-- `\\s+[^.!?]{1,24}[.!?]$`.  The white space may be shared between the two groups. -/
def matchesLeadTail (s : PyStr) : Bool :=
  let middle := s.dropLast
  let blanks := (middle.takeWhile isSpace).length
  s.getLast?.any endsLead && !middle.any endsLead &&
    (1 ≤ blanks && 2 ≤ middle.length && middle.length ≤ blanks + 24)

/-- `_SHORT_LEAD_RE.fullmatch`. -/
def isShortLead (s : PyStr) : Bool :=
  leadWords.any fun word =>
    s.length ≥ word.length && (word.zip s).all (fun p => matchesLetter p.1 p.2) &&
      matchesLeadTail (s.drop word.length)

/-! #### Accepting text -/

variable (limits : Limits)

/-- `_flush_pending`. -/
def flushPending (e : Extraction) : Extraction :=
  let fragment := strip (spaced e.pending)
  if e.pending = [] then e
  else if fragment = [] then { e with pending := [] }
  else { e with pending := [], fragments := e.fragments ++ [fragment] }

/-- `_accept_piece`. -/
def acceptPiece (piece : PyStr) (e : Extraction) : Extraction :=
  if e.firstEmitted = false then
    { e with fragments := e.fragments ++ [piece], firstEmitted := true }
  else
    let pending := e.pending ++ [piece]
    let e := { e with pending := pending }
    if limits.targetChars ≤ (spaced pending).length ∨ limits.targetSentences ≤ pending.length then
      flushPending e
    else e

/-- `_accept_sentence`. -/
def acceptSentence (sentence : PyStr) (e : Extraction) : Extraction :=
  match e.shortLead with
  | some lead =>
      acceptPiece limits (lead ++ [PyStr.space] ++ sentence) { e with shortLead := none }
  | none =>
      if isShortLead sentence then { e with shortLead := some sentence }
      else acceptPiece limits sentence e

/-- `_find_soft_cut`. -/
def findSoftCut (limit : ℕ) (buffer : PyStr) : ℕ :=
  let window := (buffer.take limit).zipIdx
  let softCut := (window.filter fun p =>
    isSoftBoundary p.1 && limits.minSoftChars ≤ p.2 + 1).getLast?.map fun p => p.2 + 1
  let spaceCut := (window.filter fun p =>
    p.1 == PyStr.space && limits.minSoftChars ≤ p.2).getLast?.map fun p => p.2
  match softCut with
  | some cut => cut
  | none => if 0 < spaceCut.getD 0 then spaceCut.getD 0 else limit

/-- What is left in the buffer. -/
def leave (rest : PyStr) (e : Extraction) : Extraction := { e with buffer := lstrip rest }

/-- One pass of the loop of `_extract`; `none` where the loop ends. -/
def advance (e : Extraction) : Option Extraction :=
  if e.buffer = [] then none
  else
    match searchSentence e.buffer with
    | some (text, rest) =>
        let sentence := strip text
        let e := leave rest e
        some (if sentence = [] then e else acceptSentence limits sentence e)
    | none =>
        let limit := if e.firstEmitted then limits.maxChars else limits.firstMaxChars
        if limit ≤ e.buffer.length then
          let cut := findSoftCut limits limit e.buffer
          let piece := strip (e.buffer.take cut)
          let e := leave (e.buffer.drop cut) e
          some (if piece = [] then e else acceptPiece limits piece e)
        else none

/-- The loop of `_extract`, with a bound on the number of passes. -/
def extractLoop : ℕ → Extraction → Extraction
  | 0, e => e
  | n + 1, e =>
      match advance limits e with
      | some e' => extractLoop n e'
      | none => e

/-- A lead that is left over is accepted. -/
def releaseLead (e : Extraction) : Extraction :=
  match e.shortLead with
  | some lead => { acceptPiece limits lead e with shortLead := none }
  | none => e

/-- What `_extract(final=True)` does after the loop. -/
def finishExtraction (e : Extraction) : Extraction :=
  let tail := strip e.buffer
  let e := { e with buffer := [] }
  let e := if tail = [] then e else acceptSentence limits tail e
  flushPending (releaseLead limits e)

/-- The loop, which takes at least one character in a pass. -/
def extract (f : TextFragmenter) : Extraction := extractLoop limits f.buffer.length ⟨f, []⟩

/-- `feed`. -/
def feed (text : PyStr) (f : TextFragmenter) : List PyStr × TextFragmenter :=
  let e := extract limits { f with buffer := f.buffer ++ text }
  (e.fragments, e.toTextFragmenter)

/-- `finish`. -/
def finish (f : TextFragmenter) : List PyStr × TextFragmenter :=
  let e := finishExtraction limits (extract limits f)
  (e.fragments, e.toTextFragmenter)

/-! #### The pieces of a text -/

/-- A piece of a text: a sentence, or what a soft cut leaves. -/
inductive Piece where
  | sentence (text : PyStr)
  | cut (text : PyStr)
deriving DecidableEq

/-- The text of a piece. -/
def Piece.text : Piece → PyStr
  | sentence text => text
  | cut text => text

/-- Of these pieces, one is no lead at the beginning of the text. -/
def pastLead : List Piece → Bool
  | [] => false
  | [Piece.sentence text] => !isShortLead text
  | _ => true

/-- One piece more, unless it is only white space. -/
def join (l : List Piece) (piece : Piece) : List Piece :=
  if piece.text = [] then l else l ++ [piece]

/-- The next piece of a text, after the pieces `l`, when `s` has come of the rest. -/
def nextPiece (l : List Piece) (s : PyStr) : Option (List Piece × PyStr) :=
  match searchSentence s with
  | some (text, rest) => some (join l (Piece.sentence (strip text)), lstrip rest)
  | none =>
      let limit := if pastLead l then limits.maxChars else limits.firstMaxChars
      if limit ≤ s.length then
        let cut := findSoftCut limits limit s
        some (join l (Piece.cut (strip (s.take cut))), lstrip (s.drop cut))
      else none

/-- As many pieces as there are, but at most so many. -/
def somePieces : ℕ → List Piece × PyStr → List Piece × PyStr
  | 0, p => p
  | n + 1, p =>
      match nextPiece limits p.1 p.2 with
      | some p' => somePieces n p'
      | none => p

/-- One chunk more. -/
def chunkPieces (p : List Piece × PyStr) (chunk : PyStr) : List Piece × PyStr :=
  somePieces limits (p.2 ++ chunk).length (p.1, p.2 ++ chunk)

/-- **The pieces of a text** that comes in chunks: each of them ends at the first sentence end that
can be seen when a chunk has come, or at a soft cut when there is none and the limit is reached.
What is left in the end is a piece, too. -/
def pieces (chunks : List PyStr) : List Piece :=
  let p := chunks.foldl (chunkPieces limits) ([], [])
  join p.1 (Piece.sentence (strip p.2))

/-! #### Leads and their places -/

/-- What has been said, and the lead that is held back. -/
structure Arrangement where
  said : PyStr
  lead : Option PyStr

namespace Arrangement

/-- A piece is said, and a lead that is held back before the next sentence. -/
def arrange (a : Arrangement) : Piece → Arrangement
  | Piece.cut text => { a with said := a.said ++ bare text }
  | Piece.sentence text =>
      match a.lead with
      | some lead => ⟨a.said ++ bare lead ++ bare text, none⟩
      | none => if isShortLead text then ⟨a.said, some text⟩ else ⟨a.said ++ bare text, none⟩

/-- A lead that is left over is said in the end. -/
def final (a : Arrangement) : PyStr := a.said ++ bare (a.lead.getD [])

end Arrangement

/-- What is said of some pieces while a lead is held back. -/
def arranged : Option PyStr → List Piece → PyStr
  | lead, [] => bare (lead.getD [])
  | lead, Piece.cut text :: l => bare text ++ arranged lead l
  | some lead, Piece.sentence text :: l => bare lead ++ bare text ++ arranged none l
  | none, Piece.sentence text :: l =>
      if isShortLead text then arranged (some text) l else bare text ++ arranged none l

theorem final_foldl (a : Arrangement) (l : List Piece) :
    (l.foldl Arrangement.arrange a).final = a.said ++ arranged a.lead l := by
  induction l generalizing a with
  | nil => rfl
  | cons piece l ih =>
      rw [List.foldl_cons, ih]
      obtain ⟨said, lead⟩ := a
      cases piece with
      | cut text => simp [Arrangement.arrange, arranged]
      | sentence text =>
          cases lead with
          | some lead => simp [Arrangement.arrange, arranged]
          | none => by_cases hshort : isShortLead text = true <;>
              simp [Arrangement.arrange, arranged, hshort]

/-- **Every lead is in its place**: what was cut off since it was held back reads the same before
the lead and after it, when the next sentence releases the lead or nothing comes any more.  It is so
when nothing was cut off. -/
def InPlace : Option PyStr → PyStr → List Piece → Prop
  | lead, since, [] => ∀ l ∈ lead, bare l ++ since = since ++ bare l
  | none, _, Piece.cut _ :: l => InPlace none [] l
  | some lead, since, Piece.cut text :: l => InPlace (some lead) (since ++ bare text) l
  | some lead, since, Piece.sentence _ :: l =>
      bare lead ++ since = since ++ bare lead ∧ InPlace none [] l
  | none, _, Piece.sentence text :: l =>
      if isShortLead text then InPlace (some text) [] l else InPlace none [] l

/-- A lead stays in its place when nothing is cut off. -/
theorem inPlace_of_sentences (lead : Option PyStr) {l : List Piece}
    (h : ∀ piece ∈ l, ∃ text, piece = Piece.sentence text) : InPlace lead [] l := by
  induction l generalizing lead with
  | nil => simp [InPlace]
  | cons piece l ih =>
      obtain ⟨text, rfl⟩ := h piece (List.mem_cons_self ..)
      have hl : ∀ piece ∈ l, ∃ text, piece = Piece.sentence text :=
        fun t ht => h t (List.mem_cons_of_mem _ ht)
      cases lead with
      | some lead => exact ⟨by simp, ih none hl⟩
      | none =>
          unfold InPlace
          split_ifs
          · exact ih (some text) hl
          · exact ih none hl

/-- The texts of some pieces. -/
def texts (l : List Piece) : PyStr := bare (l.map Piece.text).flatten

@[simp] theorem texts_nil : texts [] = [] := rfl

@[simp] theorem texts_cons (piece : Piece) (l : List Piece) :
    texts (piece :: l) = bare piece.text ++ texts l := by
  simp [texts]

/-- Two texts that are equal as a whole are equal in parts of the same lengths. -/
theorem append_eq_append_iff_of_length {a a' b b' : PyStr} (h : a.length = a'.length) :
    a ++ b = a' ++ b' ↔ a = a' ∧ b = b' :=
  ⟨fun heq => List.append_inj heq h, fun heq => by rw [heq.1, heq.2]⟩

theorem length_arranged (lead : Option PyStr) (l : List Piece) :
    (arranged lead l).length = (bare (lead.getD [])).length + (texts l).length := by
  induction l generalizing lead with
  | nil => rfl
  | cons piece l ih =>
      cases piece with
      | cut text =>
          rw [texts_cons, arranged, List.length_append, List.length_append, ih]
          exact Nat.add_left_comm ..
      | sentence text =>
          cases lead with
          | some lead => simp [arranged, ih, Piece.text]
          | none => by_cases hshort : isShortLead text = true <;>
              simp [arranged, ih, hshort, Piece.text]

/-- **A lead in its place**, told from the pieces: what is said is their text. -/
theorem arranged_eq_iff (lead : Option PyStr) (since : PyStr) (l : List Piece)
    (hsince : lead = none → since = []) :
    since ++ arranged lead l = bare (lead.getD []) ++ since ++ texts l ↔
      InPlace lead since l := by
  induction l generalizing lead since with
  | nil =>
      cases lead with
      | none => simp [arranged, InPlace, hsince rfl]
      | some lead =>
          simp [arranged, InPlace, eq_comm]
  | cons piece l ih =>
      cases piece with
      | cut text =>
          cases lead with
          | none =>
              obtain rfl := hsince rfl
              have h := ih none [] fun _ => rfl
              simp only [arranged, InPlace, texts_cons, Piece.text, Option.getD_none,
                PyStr.bare_nil, List.nil_append] at h ⊢
              rw [List.append_cancel_left_eq, h]
          | some lead =>
              have h := ih (some lead) (since ++ bare text) nofun
              simpa [arranged, InPlace, Piece.text] using h
      | sentence text =>
          cases lead with
          | some lead =>
              have h := ih none [] fun _ => rfl
              have hsplit : since ++ arranged (some lead) (Piece.sentence text :: l) =
                  bare lead ++ since ++ texts (Piece.sentence text :: l) ↔
                  since ++ bare lead = bare lead ++ since ∧
                    bare text ++ arranged none l = bare text ++ texts l := by
                rw [← append_eq_append_iff_of_length (by simp [Nat.add_comm])]
                simp [arranged, Piece.text]
              simp only [Option.getD_some, InPlace]
              rw [hsplit, List.append_cancel_left_eq, eq_comm]
              simp only [PyStr.bare_nil, Option.getD_none, List.nil_append] at h
              rw [h]
          | none =>
              obtain rfl := hsince rfl
              by_cases hshort : isShortLead text = true
              · have h := ih (some text) [] nofun
                simpa [arranged, InPlace, Piece.text, hshort] using h
              · have h := ih none [] fun _ => rfl
                simpa [arranged, InPlace, Piece.text, hshort] using h

/-! #### What is said -/

/-- What a fragmenter in the course of `_extract` has accepted. -/
def Extraction.said (e : Extraction) : PyStr := bare e.fragments.flatten ++ bare e.pending.flatten

/-- A piece is held back. -/
def Piece.held (lead : Option PyStr) : Piece → Bool
  | Piece.sentence text => lead.isNone && isShortLead text
  | Piece.cut _ => false

/-- The fragments said `out` before, the texts that came in are `input`, they have been divided into
the pieces `l`, and what was accepted is the arrangement of these. -/
structure Follows (out input : PyStr) (l : List Piece) (e : Extraction) : Prop where
  arrangement_eq : l.foldl Arrangement.arrange ⟨[], none⟩ = ⟨out ++ e.said, e.shortLead⟩
  input_eq : texts l ++ bare e.buffer = input
  emitted_eq : e.firstEmitted = pastLead l
  pending_eq : e.firstEmitted = false → e.pending = []

variable {limits : Limits} {out input : PyStr} {l : List Piece} {e : Extraction}

/-- A flush changes neither what was accepted nor the rest of the state. -/
theorem flushPending_spec (e : Extraction) :
    (flushPending e).said = e.said ∧ (flushPending e).shortLead = e.shortLead ∧
      (flushPending e).buffer = e.buffer ∧ (flushPending e).pending = [] ∧
      (flushPending e).firstEmitted = e.firstEmitted := by
  unfold flushPending
  dsimp only
  by_cases hpending : e.pending = []
  · rw [if_pos hpending]
    exact ⟨rfl, rfl, rfl, hpending, rfl⟩
  rw [if_neg hpending]
  have hbare : bare (strip (spaced e.pending)) = bare e.pending.flatten := by
    rw [PyStr.bare_strip, PyStr.bare_spaced]
  by_cases hempty : strip (spaced e.pending) = []
  · rw [if_pos hempty]
    rw [hempty] at hbare
    refine ⟨?_, rfl, rfl, rfl, rfl⟩
    simp [Extraction.said, ← hbare]
  · rw [if_neg hempty]
    refine ⟨?_, rfl, rfl, rfl, rfl⟩
    simp [Extraction.said, hbare]

/-- A piece is accepted after what was accepted before. -/
theorem acceptPiece_spec (limits : Limits) (piece : PyStr)
    (h : e.firstEmitted = false → e.pending = []) :
    (acceptPiece limits piece e).said = e.said ++ bare piece ∧
      (acceptPiece limits piece e).shortLead = e.shortLead ∧
      (acceptPiece limits piece e).buffer = e.buffer ∧
      (acceptPiece limits piece e).firstEmitted = true := by
  unfold acceptPiece
  by_cases hfirst : e.firstEmitted = false
  · rw [if_pos hfirst]
    refine ⟨?_, rfl, rfl, rfl⟩
    simp [Extraction.said, h hfirst]
  · rw [if_neg hfirst]
    have hemitted : e.firstEmitted = true := by simpa using hfirst
    have hsaid : Extraction.said { e with pending := e.pending ++ [piece] } =
        e.said ++ bare piece := by
      simp [Extraction.said]
    dsimp only
    split_ifs
    · obtain ⟨hflush, hlead, hbuffer, -, hfirst'⟩ :=
        flushPending_spec { e with pending := e.pending ++ [piece] }
      exact ⟨hflush.trans hsaid, hlead, hbuffer, hfirst'.trans hemitted⟩
    · exact ⟨hsaid, rfl, rfl, hemitted⟩

theorem texts_concat (l : List Piece) (piece : Piece) :
    texts (l ++ [piece]) = texts l ++ bare piece.text := by
  simp [texts]

/-- The first piece that is not held back is past the lead, and so is all that follows. -/
theorem pastLead_concat {l : List Piece} {a : Arrangement}
    (h : l.foldl Arrangement.arrange ⟨[], none⟩ = a) (piece : Piece) :
    pastLead (l ++ [piece]) = (pastLead l || !piece.held a.lead) := by
  subst h
  rcases l with _ | ⟨first, _ | ⟨second, l⟩⟩
  · cases piece with
    | cut text => rfl
    | sentence text => simp [pastLead, Piece.held]
  · cases first with
    | cut text => rfl
    | sentence text =>
        cases hshort : isShortLead text with
        | false => simp [pastLead, hshort]
        | true =>
            have hlead : piece.held (some text) = false := by
              cases piece <;> rfl
            simp [pastLead, Arrangement.arrange, hshort, hlead]
  · cases first <;> rfl

/-- Only white space was taken. -/
theorem Follows.leave (h : Follows out input l e) (rest : PyStr)
    (hrest : bare e.buffer = bare rest) : Follows out input l (leave rest e) where
  arrangement_eq := h.arrangement_eq
  input_eq := by
    change texts l ++ bare (lstrip rest) = input
    rw [PyStr.bare_lstrip, ← hrest, h.input_eq]
  emitted_eq := h.emitted_eq
  pending_eq := h.pending_eq

/-- What accepting a piece does: it changes the arrangement, and nothing else that matters. -/
structure Accepts (out : PyStr) (piece : Piece) (e e' : Extraction) : Prop where
  arrangement_eq : (⟨out ++ e'.said, e'.shortLead⟩ : Arrangement) =
    Arrangement.arrange ⟨out ++ e.said, e.shortLead⟩ piece
  buffer_eq : e'.buffer = e.buffer
  emitted_eq : e'.firstEmitted = (e.firstEmitted || !piece.held e.shortLead)
  pending_eq : e'.firstEmitted = false → e'.pending = []

theorem accepts_piece (limits : Limits) (out piece : PyStr)
    (h : e.firstEmitted = false → e.pending = []) :
    Accepts out (Piece.cut piece) e (acceptPiece limits piece e) := by
  obtain ⟨hsaid, hlead, hbuffer, hfirst⟩ := acceptPiece_spec limits piece h
  refine ⟨?_, hbuffer, by simp [hfirst, Piece.held], fun hf => ?_⟩
  · rw [hsaid, hlead, ← List.append_assoc]
    rfl
  · rw [hfirst] at hf
    cases hf

theorem accepts_sentence (limits : Limits) (out sentence : PyStr)
    (h : e.firstEmitted = false → e.pending = []) :
    Accepts out (Piece.sentence sentence) e (acceptSentence limits sentence e) := by
  unfold acceptSentence
  cases hshort : e.shortLead with
  | some lead =>
      obtain ⟨hsaid, hlead, hbuffer, hfirst⟩ := acceptPiece_spec limits
        (e := { e with shortLead := none }) (lead ++ [PyStr.space] ++ sentence) h
      have hbare : bare (lead ++ [PyStr.space] ++ sentence) = bare lead ++ bare sentence := by
        have hspace : bare [PyStr.space] = [] := by decide
        rw [PyStr.bare_append, PyStr.bare_append, hspace, List.append_nil]
      refine ⟨?_, hbuffer, hfirst.trans (by simp [hshort, Piece.held]), fun hf => ?_⟩
      · dsimp only
        rw [hsaid, hlead, hbare]
        simp [Arrangement.arrange, hshort, Extraction.said]
      · dsimp only at hf
        rw [hfirst] at hf
        cases hf
  | none =>
      by_cases hlead : isShortLead sentence = true
      · dsimp only
        rw [if_pos hlead]
        refine ⟨?_, rfl, by simp [hshort, hlead, Piece.held], h⟩
        simp [Arrangement.arrange, hshort, hlead, Extraction.said]
      · dsimp only
        rw [if_neg hlead]
        obtain ⟨hsaid, hshort', hbuffer, hfirst⟩ := acceptPiece_spec limits sentence h
        refine ⟨?_, hbuffer, by simp [hfirst, hlead, Piece.held], fun hf => ?_⟩
        · rw [hsaid, hshort', hshort]
          simp [Arrangement.arrange, hlead]
        · rw [hfirst] at hf
          cases hf

/-- **A piece is taken and accepted**, unless it is only white space. -/
theorem Follows.join (h : Follows out input l e) {e' : Extraction} (piece : Piece) (rest : PyStr)
    (haccepts : Accepts out piece (TextFragmenter.leave rest e) e')
    (hrest : bare e.buffer = bare piece.text ++ bare rest) :
    Follows out input (join l piece)
      (if piece.text = [] then TextFragmenter.leave rest e else e') := by
  unfold TextFragmenter.join
  by_cases hempty : piece.text = []
  · rw [if_pos hempty, if_pos hempty]
    rw [hempty, PyStr.bare_nil, List.nil_append] at hrest
    exact h.leave rest hrest
  · rw [if_neg hempty, if_neg hempty]
    refine ⟨?_, ?_, ?_, haccepts.pending_eq⟩
    · rw [haccepts.arrangement_eq, List.foldl_append]
      exact congrArg (fun a => Arrangement.arrange a piece) h.arrangement_eq
    · rw [haccepts.buffer_eq, texts_concat, List.append_assoc]
      change texts l ++ (bare piece.text ++ bare (lstrip rest)) = input
      rw [PyStr.bare_lstrip, ← hrest, h.input_eq]
    · rw [haccepts.emitted_eq, pastLead_concat h.arrangement_eq piece, ← h.emitted_eq]
      rfl

/-! #### The loop -/

/-- What follows a sentence end is a shorter suffix. -/
theorem sentenceEnd_suffix {s rest : PyStr} (h : sentenceEnd s = some rest) :
    rest <:+ s ∧ rest.length < s.length := by
  cases s with
  | nil => cases h
  | cons c s =>
      have hrest : rest <:+ s := by
        unfold sentenceEnd at h
        dsimp only at h
        split_ifs at h with hmark hspace hdot hspace
        · obtain rfl := Option.some.inj h
          exact (List.dropWhile_suffix _).trans (List.dropWhile_suffix _)
        · obtain rfl := Option.some.inj h
          exact List.dropWhile_suffix _
      exact ⟨hrest.trans (List.suffix_cons c s), Nat.lt_succ_of_le hrest.length_le⟩

/-- **The search cuts the text in two**, and finds something. -/
theorem searchSentence_eq {s text rest : PyStr} (h : searchSentence s = some (text, rest)) :
    text ++ rest = s ∧ rest.length < s.length := by
  induction s generalizing text with
  | nil => cases h
  | cons c s ih =>
      unfold searchSentence at h
      cases hend : sentenceEnd (c :: s) with
      | some rest' =>
          rw [hend] at h
          obtain ⟨rfl, rfl⟩ := Prod.mk.inj (Option.some.inj h)
          obtain ⟨hsuffix, hlen⟩ := sentenceEnd_suffix hend
          exact ⟨List.suffix_iff_eq_append.1 hsuffix, hlen⟩
      | none =>
          rw [hend] at h
          obtain ⟨⟨text', rest'⟩, hfound, heq⟩ := Option.map_eq_some_iff.1 h
          obtain ⟨rfl, rfl⟩ := Prod.mk.inj heq
          obtain ⟨hs, hlen⟩ := ih hfound
          exact ⟨by rw [List.cons_append, hs], Nat.lt_succ_of_lt hlen⟩

theorem findSoftCut_pos (limits : Limits) {limit : ℕ} (hlimit : 0 < limit) (buffer : PyStr) :
    0 < findSoftCut limits limit buffer := by
  unfold findSoftCut
  dsimp only
  split
  · rename_i cut hcut
    obtain ⟨p, -, rfl⟩ := Option.map_eq_some_iff.1 hcut
    exact Nat.succ_pos _
  · split_ifs with hspace
    · exact hspace
    · exact hlimit

theorem limit_pos (limits : Limits) (b : Bool) :
    0 < if b = true then limits.maxChars else limits.firstMaxChars := by
  split_ifs
  · exact limits.maxChars_pos
  · exact limits.firstMaxChars_pos

theorem length_lstrip_le (s : PyStr) : (lstrip s).length ≤ s.length :=
  (List.dropWhile_suffix _).length_le

/-- What is left after a piece is a proper suffix of the text. -/
theorem suffix_of_nextPiece {s : PyStr} {p : List Piece × PyStr}
    (h : nextPiece limits l s = some p) : p.2 <:+ s ∧ p.2.length < s.length := by
  obtain ⟨l', rest⟩ := p
  have hlstrip : ∀ t, lstrip t <:+ t := fun t => List.dropWhile_suffix _
  unfold nextPiece at h
  cases hsearch : searchSentence s with
  | some found =>
      obtain ⟨text, rest'⟩ := found
      obtain ⟨hs, hlen⟩ := searchSentence_eq hsearch
      rw [hsearch] at h
      obtain ⟨-, rfl⟩ := Prod.mk.inj (Option.some.inj h)
      exact ⟨(hlstrip rest').trans ⟨text, hs⟩, (length_lstrip_le rest').trans_lt hlen⟩
  | none =>
      rw [hsearch] at h
      dsimp only at h
      have hlimit := limit_pos limits (pastLead l)
      generalize (if pastLead l = true then limits.maxChars else limits.firstMaxChars) = limit
        at h hlimit
      split_ifs at h with hlong
      obtain ⟨-, rfl⟩ := Prod.mk.inj (Option.some.inj h)
      have hpos := findSoftCut_pos limits hlimit s
      refine ⟨(hlstrip _).trans (List.drop_suffix _ _), (length_lstrip_le _).trans_lt ?_⟩
      rw [List.length_drop]
      omega

/-- **One pass** of the loop takes the next piece and accepts it. -/
theorem advance_spec (limits : Limits) (h : Follows out input l e) :
    (advance limits e = none ∧ nextPiece limits l e.buffer = none) ∨
      ∃ e' l', advance limits e = some e' ∧ nextPiece limits l e.buffer = some (l', e'.buffer) ∧
        Follows out input l' e' := by
  by_cases hempty : e.buffer = []
  · refine Or.inl ⟨by rw [advance, if_pos hempty], ?_⟩
    rw [hempty, nextPiece, searchSentence]
    exact if_neg (Nat.not_le.2 (limit_pos limits (pastLead l)))
  have hleft : ∀ (text rest : PyStr) (e' : Extraction), e'.buffer = lstrip rest →
      (if text = [] then TextFragmenter.leave rest e else e').buffer = lstrip rest := by
    intro text rest e' he'
    split_ifs
    · rfl
    · exact he'
  rw [advance, if_neg hempty, nextPiece]
  cases hsearch : searchSentence e.buffer with
  | some found =>
      obtain ⟨text, rest⟩ := found
      obtain ⟨hbuffer, -⟩ := searchSentence_eq hsearch
      have haccepts := accepts_sentence limits (e := leave rest e) out (strip text) h.pending_eq
      have hrest : bare e.buffer = bare (strip text) ++ bare rest := by
        rw [PyStr.bare_strip, ← PyStr.bare_append, hbuffer]
      refine Or.inr ⟨_, _, rfl, ?_, h.join (Piece.sentence (strip text)) rest haccepts hrest⟩
      rw [hleft (strip text) rest _ haccepts.buffer_eq]
  | none =>
      dsimp only
      rw [h.emitted_eq]
      generalize (if pastLead l = true then limits.maxChars else limits.firstMaxChars) = limit
      by_cases hlong : limit ≤ e.buffer.length
      · rw [if_pos hlong, if_pos hlong]
        generalize findSoftCut limits limit e.buffer = cut
        have haccepts := accepts_piece limits (e := leave (e.buffer.drop cut) e) out
          (strip (e.buffer.take cut)) h.pending_eq
        have hrest : bare e.buffer =
            bare (strip (e.buffer.take cut)) ++ bare (e.buffer.drop cut) := by
          rw [PyStr.bare_strip, ← PyStr.bare_append, List.take_append_drop]
        refine Or.inr ⟨_, _, rfl, ?_, h.join (Piece.cut (strip (e.buffer.take cut)))
          (e.buffer.drop cut) haccepts hrest⟩
        rw [hleft (strip (e.buffer.take cut)) _ _ haccepts.buffer_eq]
      · rw [if_neg hlong, if_neg hlong]
        exact Or.inl ⟨rfl, rfl⟩

/-- **The loop** takes the pieces one after the other. -/
theorem Follows.extractLoop (limits : Limits) (h : Follows out input l e) (n : ℕ) :
    (somePieces limits n (l, e.buffer)).2 = (extractLoop limits n e).buffer ∧
      Follows out input (somePieces limits n (l, e.buffer)).1 (extractLoop limits n e) := by
  induction n generalizing l e with
  | zero => exact ⟨rfl, h⟩
  | succ n ih =>
      unfold TextFragmenter.extractLoop somePieces
      rcases advance_spec limits h with ⟨he, hp⟩ | ⟨e', l', he, hp, h'⟩
      · rw [he, hp]
        exact ⟨rfl, h⟩
      · rw [he, hp]
        exact ih h'

/-- **The loop ends by itself**: with a pass for every character there is no piece left. -/
theorem nextPiece_somePieces {n : ℕ} {p : List Piece × PyStr} (hn : p.2.length ≤ n) :
    nextPiece limits (somePieces limits n p).1 (somePieces limits n p).2 = none := by
  induction n generalizing p with
  | zero =>
      have hnil : p.2 = [] := List.length_eq_zero_iff.1 (Nat.le_zero.1 hn)
      unfold somePieces
      cases hp : nextPiece limits p.1 p.2 with
      | none => rfl
      | some p' =>
          have hlen := (suffix_of_nextPiece hp).2
          rw [hnil] at hlen
          cases hlen
  | succ n ih =>
      unfold somePieces
      cases hp : nextPiece limits p.1 p.2 with
      | none => exact hp
      | some p' =>
          have hlen := (suffix_of_nextPiece hp).2
          exact ih (by omega)

/-- Without a next piece the loop does nothing. -/
theorem extractLoop_of_none (h : Follows out input l e)
    (hp : nextPiece limits l e.buffer = none) (n : ℕ) : extractLoop limits n e = e := by
  cases n with
  | zero => rfl
  | succ n =>
      unfold TextFragmenter.extractLoop
      rcases advance_spec limits h with ⟨he, -⟩ | ⟨e', l', -, hp', -⟩
      · rw [he]
      · rw [hp] at hp'
        cases hp'

theorem releaseLead_spec (limits : Limits) (h : e.firstEmitted = false → e.pending = []) :
    (releaseLead limits e).said = e.said ++ bare (e.shortLead.getD []) := by
  unfold releaseLead
  cases e.shortLead with
  | none => simp
  | some lead => exact (acceptPiece_spec limits lead h).1

/-- The end of a response: what is left is the last piece, everything is accepted and nothing is
pending. -/
theorem Follows.finishExtraction (h : Follows out input l e) :
    out ++ bare (finishExtraction limits e).fragments.flatten =
        arranged none (TextFragmenter.join l (Piece.sentence (strip e.buffer))) ∧
      texts (TextFragmenter.join l (Piece.sentence (strip e.buffer))) = input := by
  have haccepts := accepts_sentence limits (e := TextFragmenter.leave [] e) out
    (strip e.buffer) h.pending_eq
  have h₁ := h.join (Piece.sentence (strip e.buffer)) [] haccepts (by simp [Piece.text])
  generalize he₁ : (if (Piece.sentence (strip e.buffer)).text = [] then TextFragmenter.leave [] e
    else acceptSentence limits (strip e.buffer) (TextFragmenter.leave [] e)) = e₁ at h₁
  have hfinish : TextFragmenter.finishExtraction limits e = flushPending (releaseLead limits e₁) :=
    congrArg (fun e => flushPending (releaseLead limits e)) he₁
  have hbuffer : e₁.buffer = [] := by
    rw [← he₁]
    split_ifs
    · rfl
    · exact haccepts.buffer_eq
  obtain ⟨hflush, -, -, hpending, -⟩ := flushPending_spec (releaseLead limits e₁)
  have hfragments : bare (flushPending (releaseLead limits e₁)).fragments.flatten =
      e₁.said ++ bare (e₁.shortLead.getD []) := by
    rw [← releaseLead_spec limits h₁.pending_eq, ← hflush, Extraction.said, hpending]
    simp
  have hfinal := final_foldl ⟨[], none⟩
    (TextFragmenter.join l (Piece.sentence (strip e.buffer)))
  rw [h₁.arrangement_eq] at hfinal
  rw [hfinish, hfragments]
  refine ⟨?_, ?_⟩
  · rw [← List.append_assoc]
    exact hfinal
  · have hinput := h₁.input_eq
    rwa [hbuffer, PyStr.bare_nil, List.append_nil] at hinput

/-- The fragments are handed over. -/
theorem Follows.hand (h : Follows out input l e) :
    Follows (out ++ bare e.fragments.flatten) input l ⟨e.toTextFragmenter, []⟩ where
  arrangement_eq := by
    rw [h.arrangement_eq]
    simp [Extraction.said]
  input_eq := h.input_eq
  emitted_eq := h.emitted_eq
  pending_eq := h.pending_eq

variable {f : TextFragmenter}

/-- More text comes in. -/
theorem Follows.append (h : Follows out input l ⟨f, []⟩) (text : PyStr) :
    Follows out (input ++ bare text) l ⟨{ f with buffer := f.buffer ++ text }, []⟩ where
  arrangement_eq := h.arrangement_eq
  input_eq := by
    change texts l ++ bare (f.buffer ++ text) = input ++ bare text
    rw [PyStr.bare_append, ← List.append_assoc]
    exact congrArg (· ++ bare text) h.input_eq
  emitted_eq := h.emitted_eq
  pending_eq := h.pending_eq

/-- **`feed`** takes the pieces of one more chunk. -/
theorem Follows.feed (limits : Limits) (h : Follows out input l ⟨f, []⟩) (text : PyStr) :
    (chunkPieces limits (l, f.buffer) text).2 = (feed limits text f).2.buffer ∧
      Follows (out ++ bare (feed limits text f).1.flatten) (input ++ bare text)
        (chunkPieces limits (l, f.buffer) text).1 ⟨(feed limits text f).2, []⟩ := by
  obtain ⟨hbuffer, hfollows⟩ := (h.append text).extractLoop limits (f.buffer ++ text).length
  exact ⟨hbuffer, hfollows.hand⟩

/-- **`finish`** says all pieces, as they were arranged. -/
theorem Follows.finish (limits : Limits) (h : Follows out input l ⟨f, []⟩)
    (hp : nextPiece limits l f.buffer = none) :
    out ++ bare (finish limits f).1.flatten =
        arranged none (TextFragmenter.join l (Piece.sentence (strip f.buffer))) ∧
      texts (TextFragmenter.join l (Piece.sentence (strip f.buffer))) = input := by
  have hloop : extract limits f = ⟨f, []⟩ := extractLoop_of_none h hp _
  unfold TextFragmenter.finish
  rw [hloop]
  exact h.finishExtraction

theorem follows_new : Follows [] [] [] ⟨new, []⟩ := ⟨rfl, rfl, rfl, fun _ => rfl⟩

end TextFragmenter

/-! ### A response -/

/-- The gate and the fragmenter, with the fragments so far. -/
structure VoicePipeline where
  voice : ManagerVoiceStream
  fragmenter : TextFragmenter
  fragments : List PyStr

namespace VoicePipeline

variable (limits : TextFragmenter.Limits)

/-- One chunk. -/
def hear (p : VoicePipeline) (chunk : PyStr) : VoicePipeline :=
  let visible := p.voice.feedChunk chunk
  let spoken := p.fragmenter.feed limits visible.1
  ⟨visible.2, spoken.2, p.fragments ++ spoken.1⟩

/-- The end of the response. -/
def finish (p : VoicePipeline) : VoicePipeline :=
  let spoken := p.fragmenter.finish limits
  ⟨p.voice, spoken.2, p.fragments ++ spoken.1⟩

/-- **A response**: `decode_start`, the chunks, and `finish`. -/
def speak (voice : ManagerVoiceStream) (chunks : List PyStr) : VoicePipeline :=
  (chunks.foldl (hear limits) ⟨voice.decodeStart, TextFragmenter.new, []⟩).finish limits

variable {limits}

open PyStr (bare)
open TextFragmenter (Follows InPlace Piece chunkPieces nextPiece pieces somePieces searchSentence)

/-- What has come is `input`, and it has been divided into `q`: some pieces, and a rest that is none
yet. -/
structure Heard (limits : TextFragmenter.Limits) (input : PyStr) (q : List Piece × PyStr)
    (p : VoicePipeline) : Prop where
  follows : Follows (bare p.fragments.flatten) input q.1 ⟨p.fragmenter, []⟩
  buffer_eq : q.2 = p.fragmenter.buffer
  settled : nextPiece limits q.1 q.2 = none

/-- The chunks, one after the other. -/
theorem heard_foldl {p : VoicePipeline} {input : PyStr} {q : List Piece × PyStr}
    (h : Heard limits input q p) (chunks : List PyStr) :
    Heard limits (input ++ bare (p.voice.outputs chunks).flatten)
      ((p.voice.outputs chunks).foldl (chunkPieces limits) q)
      (chunks.foldl (hear limits) p) := by
  induction chunks generalizing p input q with
  | nil => simpa [ManagerVoiceStream.outputs] using h
  | cons chunk chunks ih =>
      have hq : (q.1, p.fragmenter.buffer) = q := by rw [← h.buffer_eq]
      obtain ⟨hbuffer, hfollows⟩ := h.follows.feed limits (p.voice.feedChunk chunk).1
      rw [hq] at hbuffer hfollows
      have hheard : Heard limits (input ++ bare (p.voice.feedChunk chunk).1)
          (chunkPieces limits q (p.voice.feedChunk chunk).1) (p.hear limits chunk) :=
        ⟨by simpa [hear] using hfollows, hbuffer, TextFragmenter.nextPiece_somePieces le_rfl⟩
      simpa [ManagerVoiceStream.outputs, hear] using ih hheard

/-- What a response says, told from its pieces. -/
theorem speak_spec (voice : ManagerVoiceStream) (chunks : List PyStr) :
    bare (speak limits voice chunks).fragments.flatten =
        TextFragmenter.arranged none (pieces limits (ManagerVoiceStream.visible chunks)) ∧
      TextFragmenter.texts (pieces limits (ManagerVoiceStream.visible chunks)) =
        bare (ManagerVoiceStream.spoken chunks.flatten) := by
  have hnew : Heard limits [] ([], []) ⟨voice.decodeStart, TextFragmenter.new, []⟩ :=
    ⟨TextFragmenter.follows_new, rfl, TextFragmenter.nextPiece_somePieces (n := 0) le_rfl⟩
  have h := heard_foldl hnew chunks
  rw [ManagerVoiceStream.flatten_outputs, List.nil_append,
    ManagerVoiceStream.outputs_decodeStart] at h
  obtain ⟨harranged, htexts⟩ := h.follows.finish limits (h.buffer_eq ▸ h.settled)
  rw [← h.buffer_eq] at harranged htexts
  refine ⟨?_, htexts⟩
  rw [← PyStr.bare_append, ← List.flatten_append] at harranged
  exact harranged

/-- The fragments say the text exactly when every lead is in its place. -/
theorem speak_eq_iff (limits : TextFragmenter.Limits) (voice : ManagerVoiceStream)
    (chunks : List PyStr) :
    bare (speak limits voice chunks).fragments.flatten =
        bare (ManagerVoiceStream.spoken chunks.flatten) ↔
      InPlace none [] (pieces limits (ManagerVoiceStream.visible chunks)) := by
  obtain ⟨harranged, htexts⟩ := @speak_spec limits voice chunks
  rw [harranged, ← htexts]
  have h := TextFragmenter.arranged_eq_iff none []
    (pieces limits (ManagerVoiceStream.visible chunks)) fun _ => rfl
  simpa using h

/-- **The text is kept if and only if every lead is in its place**, where the text that the chunks
tell a human is divided by the limits.  A response that is not meant for a human is never
spoken. -/
theorem speak_keeps_iff (limits : TextFragmenter.Limits) (voice : ManagerVoiceStream)
    (chunks : List PyStr) :
    (bare (speak limits voice chunks).fragments.flatten =
        bare (ManagerVoiceStream.spoken chunks.flatten) ↔
      InPlace none [] (pieces limits (ManagerVoiceStream.visible chunks))) ∧
    (¬ManagerVoiceStream.askPrefix <+: chunks.flatten →
      ¬ManagerVoiceStream.replyPrefix <+: chunks.flatten →
      bare (speak limits voice chunks).fragments.flatten = []) := by
  obtain ⟨harranged, htexts⟩ := @speak_spec limits voice chunks
  refine ⟨speak_eq_iff limits voice chunks, fun hask hreply => ?_⟩
  have hspoken : ManagerVoiceStream.spoken chunks.flatten = [] := by
    rw [ManagerVoiceStream.spoken, if_neg hask, if_neg hreply]
  have hlength := TextFragmenter.length_arranged none
    (pieces limits (ManagerVoiceStream.visible chunks))
  rw [htexts, hspoken] at hlength
  rw [harranged]
  exact List.length_eq_zero_iff.1 hlength

/-- Every part of a text that reaches a limit has a sentence end. -/
def EndsInTime (limits : TextFragmenter.Limits) (text : PyStr) : Prop :=
  ∀ s, s <:+: text → min limits.firstMaxChars limits.maxChars ≤ s.length →
    (searchSentence s).isSome = true

/-- Such a text has no soft cut. -/
theorem sentences_of_somePieces {text : PyStr} (hends : EndsInTime limits text) {n : ℕ}
    {q : List Piece × PyStr} (htext : q.2 <:+: text)
    (hq : ∀ piece ∈ q.1, ∃ s, piece = Piece.sentence s) :
    (somePieces limits n q).2 <:+ q.2 ∧
      ∀ piece ∈ (somePieces limits n q).1, ∃ s, piece = Piece.sentence s := by
  induction n generalizing q with
  | zero => exact ⟨List.suffix_refl _, hq⟩
  | succ n ih =>
      unfold TextFragmenter.somePieces
      cases hp : nextPiece limits q.1 q.2 with
      | none => exact ⟨List.suffix_refl _, hq⟩
      | some q' =>
          have hsuffix := (TextFragmenter.suffix_of_nextPiece hp).1
          have hq' : ∀ piece ∈ q'.1, ∃ s, piece = Piece.sentence s := by
            unfold TextFragmenter.nextPiece at hp
            cases hsearch : searchSentence q.2 with
            | some found =>
                rw [hsearch] at hp
                obtain rfl := Option.some.inj hp
                intro piece hpiece
                unfold TextFragmenter.join at hpiece
                split_ifs at hpiece
                · exact hq piece hpiece
                · rcases List.mem_append.1 hpiece with hold | hnew
                  · exact hq piece hold
                  · exact ⟨_, List.mem_singleton.1 hnew⟩
            | none =>
                rw [hsearch] at hp
                dsimp only at hp
                split_ifs at hp with hb hlong hlong
                all_goals
                  have hsome := hends q.2 htext (by omega)
                  rw [hsearch] at hsome
                  cases hsome
          obtain ⟨h₁, h₂⟩ := ih (hsuffix.isInfix.trans htext) hq'
          exact ⟨h₁.trans hsuffix, h₂⟩

theorem sentences_foldl {chunks : List PyStr} (before : PyStr) (q : List Piece × PyStr)
    (hends : EndsInTime limits (before ++ chunks.flatten))
    (htext : q.2 <:+ before) (hq : ∀ piece ∈ q.1, ∃ s, piece = Piece.sentence s) :
    ∀ piece ∈ (chunks.foldl (chunkPieces limits) q).1, ∃ s, piece = Piece.sentence s := by
  induction chunks generalizing before q with
  | nil => exact hq
  | cons chunk chunks ih =>
      rw [List.flatten_cons, ← List.append_assoc] at hends
      have hmore : q.2 ++ chunk <:+ before ++ chunk := by
        obtain ⟨t, rfl⟩ := htext
        exact ⟨t, by rw [List.append_assoc]⟩
      have hinfix : q.2 ++ chunk <:+: before ++ chunk ++ chunks.flatten :=
        hmore.isInfix.trans (List.prefix_append _ _).isInfix
      obtain ⟨hrest, hsentences⟩ := sentences_of_somePieces hends (n := (q.2 ++ chunk).length)
        (q := (q.1, q.2 ++ chunk)) hinfix hq
      exact ih _ _ hends (hrest.trans hmore) hsentences

/-- **A response whose sentences end in time is kept**, whatever its chunks are. -/
theorem speak_keeps_of_ends (limits : TextFragmenter.Limits) (voice : ManagerVoiceStream)
    (chunks : List PyStr)
    (h : EndsInTime limits (ManagerVoiceStream.spoken chunks.flatten)) :
    bare (speak limits voice chunks).fragments.flatten =
      bare (ManagerVoiceStream.spoken chunks.flatten) := by
  refine (speak_eq_iff limits voice chunks).2 (TextFragmenter.inPlace_of_sentences none ?_)
  rw [← ManagerVoiceStream.flatten_outputs voice, ManagerVoiceStream.outputs_decodeStart] at h
  have hsentences := sentences_foldl [] ([], []) h List.nil_suffix nofun
  intro piece hpiece
  unfold TextFragmenter.pieces TextFragmenter.join at hpiece
  dsimp only at hpiece
  split_ifs at hpiece
  · exact hsentences piece hpiece
  · rcases List.mem_append.1 hpiece with hold | hnew
    · exact hsentences piece hold
    · exact ⟨_, List.mem_singleton.1 hnew⟩

/-- A response whose first sentence after a lead is longer than a fragment may be. -/
def longStep : PyStr :=
  PyStr.ofString "REPLY\nШаг 1. Откройте приложение на телефоне, выберите раздел настроек, " ++
    PyStr.ofString "затем найдите пункт подключения датчиков и нажмите кнопку."

/-- **A lead is spoken too late**: the first part of the long sentence is cut off while the lead
before it is held back. -/
theorem speak_reorders :
    ¬(bare (speak TextFragmenter.Limits.default ⟨VoiceMode.idle, []⟩ [longStep]).fragments.flatten =
      bare (ManagerVoiceStream.spoken (List.flatten [longStep]))) := by
  decide +kernel

end VoicePipeline
