/-
**JSON texts that are cut.**

What the scanner reads has a text of its own: the same is read when something else follows, except
that a number might go on.  Inside an array or an object a number is always followed by something,
so a value with brackets around it is read in the same way whatever comes after it; hence the text
of an object is not a beginning of another text that can be read, and what is left when it is cut
cannot be read at all.

Main definitions:

* `Json.Owns`, `Json.OwnsClosed` — what is read has a text of its own.

Main results:

* `Json.owns_scan`, `Json.owns_scan_brace` — so it is for values, and for objects whatever follows;
* `Json.scan_fuel` — with more fuel than characters, the fuel makes no difference;
* `Json.loads_of_prefix` — **the text of an object that is cut cannot be read**.
-/

import CatAgent.JsonText

set_option relaxedAutoImplicit false
set_option autoImplicit false

namespace Json

variable {read : JsonReader} {s r rest : PyStr} {α : Type}

/-! ### Blanks -/

theorem exists_blanks (s : PyStr) : ∃ b, (∀ c ∈ b, isBlank c = true) ∧ s = b ++ skip s :=
  ⟨s.takeWhile isBlank, fun _ hc => List.mem_takeWhile_imp hc,
    List.takeWhile_append_dropWhile.symm⟩

theorem skip_blanks {b : PyStr} (hb : ∀ c ∈ b, isBlank c = true) (s : PyStr) :
    skip (b ++ s) = skip s := List.dropWhile_append_of_pos hb

/-- After the blanks there is no blank. -/
theorem solid_of_skip {c : CodePoint} (h : skip s = c :: rest) (r : PyStr) : Solid (c :: r) := by
  have hne : s.dropWhile isBlank ≠ [] := by
    change skip s ≠ []
    rw [h]
    exact List.cons_ne_nil _ _
  have hhead := List.head_dropWhile_not isBlank hne
  have hc : (s.dropWhile isBlank).head hne = c := by
    have heq : s.dropWhile isBlank = c :: rest := h
    simp only [heq, List.head_cons]
  exact ⟨c, r, rfl, by rw [← hc]; exact hhead⟩

theorem length_skip_le (s : PyStr) : (skip s).length ≤ s.length :=
  (List.dropWhile_sublist _).length_le

theorem isNumeric_of_isBlank {c : CodePoint} (h : isBlank c = true) : isNumeric c = false := by
  simp only [isBlank, Bool.or_eq_true, beq_iff_eq] at h
  simp only [isNumeric, isDigit, Bool.or_eq_false_iff, Bool.and_eq_false_iff, decide_eq_false_iff_not,
    beq_eq_false_iff_ne]
  omega

/-- A number ends before blanks and what comes after them. -/
theorem stops_blanks {b : PyStr} (hb : ∀ c ∈ b, isBlank c = true) {c : CodePoint}
    (hc : isNumeric c = false) (r : PyStr) : Stops (b ++ c :: r) := by
  intro d hd
  cases b with
  | nil =>
      cases hd
      exact hc
  | cons e b =>
      cases hd
      exact isNumeric_of_isBlank (hb d List.mem_cons_self)

/-! ### Texts of their own -/

/-- What is read has a text of its own, whatever follows. -/
def OwnsClosed (f : PyStr → Option (α × PyStr)) : Prop :=
  ∀ s a rest, f s = some (a, rest) →
    ∃ t, t ≠ [] ∧ s = t ++ rest ∧ ∀ r, f (t ++ r) = some (a, r)

/-- What is read has a text of its own, if no number goes on. -/
def Owns (f : PyStr → Option (α × PyStr)) : Prop :=
  ∀ s a rest, f s = some (a, rest) →
    ∃ t, t ≠ [] ∧ s = t ++ rest ∧ ∀ r, Stops r → f (t ++ r) = some (a, r)

theorem OwnsClosed.owns {f : PyStr → Option (α × PyStr)} (h : OwnsClosed f) : Owns f := by
  intro s a rest hs
  obtain ⟨t, ht, hrest, hread⟩ := h s a rest hs
  exact ⟨t, ht, hrest, fun r _ => hread r⟩

/-- What is read makes the text shorter. -/
theorem Owns.length_lt {f : PyStr → Option (α × PyStr)} (h : Owns f) {a : α}
    (hs : f s = some (a, rest)) : rest.length < s.length := by
  obtain ⟨t, ht, rfl, _⟩ := h s a rest hs
  have := List.length_pos_iff.2 ht
  rw [List.length_append]
  omega

/-- A string literal ends where it ends. -/
theorem ownsClosed_scanString (e : Escape) (pending : Option CodePoint) :
    OwnsClosed (scanString e pending) := by
  intro s
  induction s generalizing e pending with
  | nil =>
      intro x rest h
      simp [scanString] at h
  | cons c s ih =>
      intro x rest h
      have hcons : ∀ t, s = t ++ rest → c :: t ≠ [] ∧ c :: s = (c :: t) ++ rest := by
        rintro t rfl
        exact ⟨List.cons_ne_nil _ _, rfl⟩
      cases e with
      | nothing =>
          simp only [scanString] at h
          split_ifs at h with hquote hslash hcontrol
          · cases h
            refine ⟨[c], List.cons_ne_nil _ _, rfl, fun r => ?_⟩
            simp only [List.singleton_append, scanString, if_pos hquote]
          · obtain ⟨t, _, hs, hread⟩ := ih _ _ _ _ h
            refine ⟨c :: t, (hcons t hs).1, (hcons t hs).2, fun r => ?_⟩
            simp only [List.cons_append, scanString, if_neg hquote, if_pos hslash, hread r]
          · obtain ⟨⟨y, rest'⟩, hy, heq⟩ := Option.map_eq_some_iff.1 h
            cases heq
            obtain ⟨t, _, hs, hread⟩ := ih _ _ _ _ hy
            refine ⟨c :: t, (hcons t hs).1, (hcons t hs).2, fun r => ?_⟩
            simp only [List.cons_append, scanString, if_neg hquote, if_neg hslash, if_neg hcontrol,
              hread r, Option.map_some]
      | backslash =>
          simp only [scanString] at h
          split_ifs at h with hu
          · obtain ⟨t, _, hs, hread⟩ := ih _ _ _ _ h
            refine ⟨c :: t, (hcons t hs).1, (hcons t hs).2, fun r => ?_⟩
            simp only [List.cons_append, scanString, if_pos hu, hread r]
          · obtain ⟨d, hd, h⟩ := Option.bind_eq_some_iff.1 h
            obtain ⟨⟨y, rest'⟩, hy, heq⟩ := Option.map_eq_some_iff.1 h
            cases heq
            obtain ⟨t, _, hs, hread⟩ := ih _ _ _ _ hy
            refine ⟨c :: t, (hcons t hs).1, (hcons t hs).2, fun r => ?_⟩
            simp only [List.cons_append, scanString, if_neg hu, hd, Option.bind_some, hread r,
              Option.map_some]
      | unicode left value =>
          simp only [scanString] at h
          obtain ⟨d, hd, h⟩ := Option.bind_eq_some_iff.1 h
          cases left with
          | succ left =>
              obtain ⟨t, _, hs, hread⟩ := ih _ _ _ _ h
              refine ⟨c :: t, (hcons t hs).1, (hcons t hs).2, fun r => ?_⟩
              simp only [List.cons_append, scanString, hd, Option.bind_some, hread r]
          | zero =>
              obtain ⟨⟨y, rest'⟩, hy, heq⟩ := Option.map_eq_some_iff.1 h
              cases heq
              obtain ⟨t, _, hs, hread⟩ := ih _ _ _ _ hy
              refine ⟨c :: t, (hcons t hs).1, (hcons t hs).2, fun r => ?_⟩
              simp only [List.cons_append, scanString, hd, Option.bind_some, hread r,
                Option.map_some]

/-- The longest number at the beginning of a text consists of characters of numbers. -/
theorem isNumeric_of_mem_take {c : CodePoint} (hc : c ∈ s.take (numberLength s)) :
    isNumeric c = true := by
  have hle : numberLength s ≤ (s.takeWhile isNumeric).length := Nat.findGreatest_le _
  generalize numberLength s = n at hc hle
  rw [← List.takeWhile_append_dropWhile (p := isNumeric) (l := s),
    List.take_append_of_le_length hle] at hc
  exact List.mem_takeWhile_imp (List.mem_of_mem_take hc)

/-- **What a word or a number is.** -/
theorem scanAtom_cases {c : CodePoint} {v : Json}
    (h : (hooks read).scanAtom c s = some (v, rest)) :
    (∃ text, (hooks read).word c = some (text, some v) ∧ s = text ++ rest) ∨
      ∃ t, (∀ d ∈ t, isNumeric d = true) ∧ number read t = some v ∧ s = t ++ rest := by
  have hnumber : (hooks read).scanNumber s = some (v, rest) →
      ∃ t, (∀ d ∈ t, isNumeric d = true) ∧ number read t = some v ∧ s = t ++ rest := by
    intro h
    obtain ⟨w, hw, heq⟩ := Option.map_eq_some_iff.1 h
    cases heq
    exact ⟨s.take (numberLength s), fun d hd => isNumeric_of_mem_take hd, hw,
      (List.take_append_drop _ s).symm⟩
  unfold JsonHooks.scanAtom at h
  split at h
  · rename_i text w hword
    split_ifs at h with hstart
    · obtain ⟨w', rfl, heq⟩ := Option.map_eq_some_iff.1 h
      cases heq
      obtain ⟨t, rfl⟩ := List.isPrefixOf_iff_prefix.1 hstart
      exact Or.inl ⟨text, hword, by rw [List.drop_left]⟩
    · exact Or.inr (hnumber h)
  · exact Or.inr (hnumber h)

/-! ### Sequences -/

section Sequences

variable {item : PyStr → Option (α × PyStr)} {close : CodePoint}

/-- **What an item is followed by.** -/
theorem scanItems_cases {n : ℕ} {l : List α} (h : scanItems item close n s = some (l, rest)) :
    ∃ m a rest', n = m + 1 ∧ item s = some (a, rest') ∧
      ((skip rest' = close :: rest ∧ l = [a]) ∨
        ∃ c rest'' l', skip rest' = c :: rest'' ∧ c ≠ close ∧ c.val = 0x2C ∧
          scanItems item close m (skip rest'') = some (l', rest) ∧ l = a :: l') := by
  cases n with
  | zero => cases h
  | succ m =>
      obtain ⟨⟨a, rest'⟩, ha, h⟩ := Option.bind_eq_some_iff.1 h
      refine ⟨m, a, rest', rfl, ha, ?_⟩
      simp only at h
      split at h
      · cases h
      · rename_i c rest'' hskip
        split_ifs at h with hclose hcomma
        · cases h
          exact Or.inl ⟨by rw [hskip, hclose], rfl⟩
        · obtain ⟨⟨l', rest₂⟩, hl', heq⟩ := Option.map_eq_some_iff.1 h
          cases heq
          exact Or.inr ⟨c, rest'', l', hskip, hclose, hcomma, hl', rfl⟩

/-- **Items up to the closing bracket have a text of their own.** -/
theorem ownsClosed_scanItems (hitem : Owns item) (hclose : isNumeric close = false) (n : ℕ) :
    OwnsClosed (scanItems item close n) := by
  intro s
  induction n generalizing s with
  | zero => nofun
  | succ n ih =>
      intro l rest h
      obtain ⟨m, a, rest', hm, ha, hnext⟩ := scanItems_cases h
      cases hm
      obtain ⟨t, ht, rfl, hread⟩ := hitem _ _ _ ha
      obtain ⟨b, hb, hrest'⟩ := exists_blanks rest'
      rcases hnext with ⟨hskip, rfl⟩ | ⟨c, rest'', l', hskip, hne, hcomma, hl', rfl⟩
      · refine ⟨t ++ (b ++ [close]), by simp [ht], ?_, fun r => ?_⟩
        · rw [hrest', hskip]
          simp
        · have htext : t ++ (b ++ [close]) ++ r = t ++ (b ++ close :: r) := by simp
          rw [htext]
          simp only [scanItems_succ, hread _ (stops_blanks hb hclose r), Option.bind_some]
          rw [skip_blanks hb, skip_of_solid (solid_of_skip hskip r)]
          simp
      · obtain ⟨t₂, ht₂, hrest₂, hread₂⟩ := ih _ _ _ hl'
        obtain ⟨b₂, hb₂, hrest''⟩ := exists_blanks rest''
        obtain ⟨d, t₃, rfl⟩ := List.exists_cons_of_ne_nil ht₂
        have hnum : isNumeric c = false := by
          simp only [isNumeric, isDigit, Bool.or_eq_false_iff, Bool.and_eq_false_iff,
            decide_eq_false_iff_not, beq_eq_false_iff_ne]
          omega
        refine ⟨t ++ (b ++ c :: (b₂ ++ d :: t₃)), by simp [ht], ?_, fun r => ?_⟩
        · rw [hrest', hskip, hrest'', hrest₂]
          simp
        · have htext : t ++ (b ++ c :: (b₂ ++ d :: t₃)) ++ r =
              t ++ (b ++ c :: (b₂ ++ (d :: t₃ ++ r))) := by simp
          rw [htext]
          simp only [scanItems_succ, hread _ (stops_blanks hb hnum _), Option.bind_some]
          rw [skip_blanks hb, skip_of_solid (solid_of_skip hskip _)]
          simp only [if_neg hne, if_pos hcomma]
          have hsolid : Solid (d :: t₃ ++ r) := solid_of_skip hrest₂ (t₃ ++ r)
          rw [skip_blanks hb₂, skip_of_solid hsolid, hread₂ r]
          rfl

/-- **A sequence has a text of its own.** -/
theorem ownsClosed_scanSequence (hitem : Owns item) (hclose : isNumeric close = false) (n : ℕ) :
    OwnsClosed (scanSequence item close n) := by
  intro s l rest h
  obtain ⟨b, hb, hs⟩ := exists_blanks s
  unfold scanSequence at h
  split at h
  · cases h
  · rename_i c rest' hskip
    split_ifs at h with heq
    · cases h
      refine ⟨b ++ [close], by simp, ?_, fun r => ?_⟩
      · rw [hs, hskip, heq]
        simp
      · have htext : b ++ [close] ++ r = b ++ close :: r := by simp
        rw [htext]
        unfold scanSequence
        rw [skip_blanks hb, ← heq, skip_of_solid (solid_of_skip hskip r)]
        simp
    · obtain ⟨t, ht, hrest, hread⟩ := ownsClosed_scanItems hitem hclose n _ _ _ h
      obtain ⟨d, t, rfl⟩ := List.exists_cons_of_ne_nil ht
      obtain ⟨rfl, _⟩ := List.cons.inj hrest
      refine ⟨b ++ c :: t, by simp, ?_, fun r => ?_⟩
      · rw [hs, hskip, hrest]
        simp
      · unfold scanSequence
        rw [List.append_assoc, skip_blanks hb, List.cons_append,
          skip_of_solid (solid_of_skip hskip _)]
        simp only [if_neg heq]
        exact hread r

end Sequences

/-- **What a member is.** -/
theorem scanMember_cases {value : PyStr → Option (Json × PyStr)} {e : PyStr × Json}
    (h : scanMember value s = some (e, rest)) :
    ∃ c s₁ rest₁ d rest₂, s = c :: s₁ ∧ c.val = 0x22 ∧
      scanString Escape.nothing none s₁ = some (e.1, rest₁) ∧ skip rest₁ = d :: rest₂ ∧
      d.val = 0x3A ∧ value (skip rest₂) = some (e.2, rest) := by
  cases s with
  | nil => cases h
  | cons c s₁ =>
      rw [scanMember_cons] at h
      split_ifs at h with hquote
      obtain ⟨⟨k, rest₁⟩, hk, h⟩ := Option.bind_eq_some_iff.1 h
      simp only at h
      split at h
      · cases h
      · rename_i d rest₂ hskip
        split_ifs at h with hcolon
        obtain ⟨⟨v, rest₃⟩, hv, heq⟩ := Option.map_eq_some_iff.1 h
        cases heq
        exact ⟨c, s₁, rest₁, d, rest₂, rfl, hquote, hk, hskip, hcolon, hv⟩

/-- A member has a text of its own if its value has one. -/
theorem owns_scanMember {value : PyStr → Option (Json × PyStr)} (hvalue : Owns value) :
    Owns (scanMember value) := by
  intro s e rest h
  obtain ⟨c, s₁, rest₁, d, rest₂, rfl, hquote, hk, hskip, hcolon, hv⟩ := scanMember_cases h
  obtain ⟨t₁, _, rfl, hread₁⟩ := ownsClosed_scanString _ _ _ _ _ hk
  obtain ⟨b₁, hb₁, hrest₁⟩ := exists_blanks rest₁
  obtain ⟨b₂, hb₂, hrest₂⟩ := exists_blanks rest₂
  obtain ⟨t₂, ht₂, hsuffix, hread₂⟩ := hvalue _ _ _ hv
  obtain ⟨f, t₂, rfl⟩ := List.exists_cons_of_ne_nil ht₂
  refine ⟨c :: (t₁ ++ (b₁ ++ d :: (b₂ ++ f :: t₂))), List.cons_ne_nil _ _, ?_, fun r hr => ?_⟩
  · rw [hrest₁, hskip, hrest₂, hsuffix]
    simp
  · have htext : c :: (t₁ ++ (b₁ ++ d :: (b₂ ++ f :: t₂))) ++ r =
        c :: (t₁ ++ (b₁ ++ d :: (b₂ ++ (f :: t₂ ++ r)))) := by simp
    have hsolid : Solid (f :: t₂ ++ r) := solid_of_skip hsuffix (t₂ ++ r)
    rw [htext]
    rw [scanMember_cons, if_pos hquote, hread₁, Option.bind_some]
    simp only
    rw [skip_blanks hb₁, skip_of_solid (solid_of_skip hskip _)]
    simp only [if_pos hcolon]
    rw [skip_blanks hb₂, skip_of_solid hsolid, hread₂ r hr]
    rfl

/-! ### Values -/

theorem isNumeric_closeBracket : isNumeric closeBracket = false := by decide

theorem isNumeric_closeBrace : isNumeric closeBrace = false := by decide

/-- Words are no empty texts, and do not begin like strings, arrays and objects. -/
theorem word_eq_some {c : CodePoint} {text : PyStr} {v : Option Json}
    (h : (hooks read).word c = some (text, v)) :
    ∃ t, text = c :: t ∧ c.val ≠ 0x22 ∧ c.val ≠ 0x7B ∧ c.val ≠ 0x5B := by
  have hval : ∀ {n : ℕ} (hn : n < 0x110000), c.val = n → c = ⟨n, hn⟩ := fun _ h => Fin.ext h
  unfold JsonHooks.word at h
  split_ifs at h with h₁ h₂ h₃ h₄ h₅ h₆
  · cases h
    exact ⟨_, by rw [hval (by omega) h₁]; rfl, by omega, by omega, by omega⟩
  · cases h
    exact ⟨_, by rw [hval (by omega) h₂]; rfl, by omega, by omega, by omega⟩
  · cases h
    exact ⟨_, by rw [hval (by omega) h₃]; rfl, by omega, by omega, by omega⟩
  · cases h
    exact ⟨_, by rw [hval (by omega) h₄]; rfl, by omega, by omega, by omega⟩
  · cases h
    exact ⟨_, by rw [hval (by omega) h₅]; rfl, by omega, by omega, by omega⟩
  · cases h
    exact ⟨_, by rw [hval (by omega) h₆]; rfl, by omega, by omega, by omega⟩

/-- An object has a text of its own, whatever follows. -/
theorem owns_scan_of_brace {n : ℕ} {c : CodePoint} {v : Json} (hc : c.val = 0x7B)
    (hscan : Owns (scan read n)) (h : scan read (n + 1) (c :: s) = some (v, rest)) :
    ∃ t, c :: s = c :: t ++ rest ∧ ∀ r, scan read (n + 1) (c :: t ++ r) = some (v, r) := by
  rw [scan_cons, if_neg (by omega), if_pos hc] at h
  obtain ⟨⟨l, rest'⟩, hl, heq⟩ := Option.map_eq_some_iff.1 h
  cases heq
  obtain ⟨t, _, rfl, hread⟩ :=
    ownsClosed_scanSequence (owns_scanMember hscan) isNumeric_closeBrace n _ _ _ hl
  refine ⟨t, rfl, fun r => ?_⟩
  rw [List.cons_append, scan_cons, if_neg (by omega), if_pos hc, hread r]
  rfl

/-- **What is read has a text of its own.** -/
theorem owns_scan (read : JsonReader) (n : ℕ) : Owns (scan read n) := by
  induction n with
  | zero =>
      intro s v rest h
      cases h
  | succ n ih =>
      intro s v rest h
      cases s with
      | nil => cases h
      | cons c s =>
          by_cases hquote : c.val = 0x22
          · rw [scan_cons, if_pos hquote] at h
            obtain ⟨⟨x, rest'⟩, hx, heq⟩ := Option.map_eq_some_iff.1 h
            cases heq
            obtain ⟨t, _, rfl, hread⟩ := ownsClosed_scanString _ _ _ _ _ hx
            refine ⟨c :: t, List.cons_ne_nil _ _, rfl, fun r _ => ?_⟩
            rw [List.cons_append, scan_cons, if_pos hquote, hread r, Option.map_some]
          · by_cases hbrace : c.val = 0x7B
            · obtain ⟨t, hs, hread⟩ := owns_scan_of_brace hbrace ih h
              exact ⟨c :: t, List.cons_ne_nil _ _, hs, fun r _ => hread r⟩
            · by_cases hbracket : c.val = 0x5B
              · rw [scan_cons, if_neg hquote, if_neg hbrace, if_pos hbracket] at h
                obtain ⟨⟨l, rest'⟩, hl, heq⟩ := Option.map_eq_some_iff.1 h
                cases heq
                obtain ⟨t, _, rfl, hread⟩ :=
                  ownsClosed_scanSequence ih isNumeric_closeBracket n _ _ _ hl
                refine ⟨c :: t, List.cons_ne_nil _ _, rfl, fun r _ => ?_⟩
                rw [List.cons_append, scan_cons, if_neg hquote, if_neg hbrace, if_pos hbracket,
                  hread r, Option.map_some]
              · rw [scan_cons, if_neg hquote, if_neg hbrace, if_neg hbracket] at h
                rcases scanAtom_cases h with ⟨text, hword, hs⟩ | ⟨t, ht, hnumber, hs⟩
                · obtain ⟨t, rfl, hne⟩ := word_eq_some hword
                  exact ⟨c :: t, List.cons_ne_nil _ _, hs, fun r _ => scan_of_word n hne hword⟩
                · refine ⟨t, ?_, hs, fun r hr => scan_of_number n ht hnumber hr⟩
                  rintro rfl
                  cases hnumber

/-! ### Fuel -/

section Sequences

variable {item item' : PyStr → Option (α × PyStr)} {close : CodePoint}

/-- Readers that agree on all shorter texts read the same items, if there is a unit of fuel for
every character. -/
theorem scanItems_congr (hitem : Owns item) {n m : ℕ} (hn : s.length ≤ n) (hm : s.length ≤ m)
    (hagree : ∀ s' : PyStr, s'.length ≤ s.length → item s' = item' s') (hnil : item [] = none) :
    scanItems item close n s = scanItems item' close m s := by
  induction n generalizing s m with
  | zero =>
      obtain rfl := List.length_eq_zero_iff.1 (Nat.le_zero.1 hn)
      cases m with
      | zero => rfl
      | succ m =>
          have hnil' := (hagree [] le_rfl).symm.trans hnil
          simp only [scanItems_succ, hnil', Option.bind_none]
          rfl
  | succ n ih =>
      cases m with
      | zero =>
          obtain rfl := List.length_eq_zero_iff.1 (Nat.le_zero.1 hm)
          simp only [scanItems_succ, hnil, Option.bind_none]
          rfl
      | succ m =>
          simp only [scanItems_succ, ← hagree s le_rfl]
          cases ha : item s with
          | none => rfl
          | some p =>
              have hlt := @Owns.length_lt _ p.2 _ _ hitem p.1 ha
              simp only [Option.bind_some]
              cases hskip : skip p.2 with
              | nil => rfl
              | cons c rest =>
                  have hlen := length_skip_le p.2
                  have hlen' := length_skip_le rest
                  rw [hskip, List.length_cons] at hlen
                  simp only
                  rw [ih (m := m) (by omega) (by omega) fun s' hs' => hagree s' (by omega)]

theorem scanSequence_congr (hitem : Owns item) {n m : ℕ} (hn : s.length ≤ n) (hm : s.length ≤ m)
    (hagree : ∀ s' : PyStr, s'.length ≤ s.length → item s' = item' s') (hnil : item [] = none) :
    scanSequence item close n s = scanSequence item' close m s := by
  have hlen := length_skip_le s
  unfold scanSequence
  cases hskip : skip s with
  | nil => rfl
  | cons c rest =>
      rw [hskip] at hlen
      simp only
      rw [scanItems_congr hitem (hlen.trans hn) (hlen.trans hm)
        (fun s' hs' => hagree s' (hs'.trans hlen)) hnil]

end Sequences

theorem scanMember_congr {value value' : PyStr → Option (Json × PyStr)}
    (hagree : ∀ s' : PyStr, s'.length < s.length → value s' = value' s') :
    scanMember value s = scanMember value' s := by
  cases s with
  | nil => rfl
  | cons c s =>
      rw [scanMember_cons, scanMember_cons]
      cases hk : scanString Escape.nothing none s with
      | none => rfl
      | some p =>
          have hlt := @Owns.length_lt _ p.2 _ _ (ownsClosed_scanString _ _).owns p.1 hk
          simp only [Option.bind_some]
          cases hskip : skip p.2 with
          | nil => rfl
          | cons d rest =>
              have hlen := length_skip_le p.2
              have hlen' := length_skip_le rest
              rw [hskip, List.length_cons] at hlen
              simp only
              rw [hagree (skip rest) (by rw [List.length_cons]; omega)]

/-- **With more fuel than characters, the fuel makes no difference.** -/
theorem scan_fuel {n m : ℕ} (hn : s.length < n) (hm : s.length < m) :
    scan read n s = scan read m s := by
  induction n generalizing s m with
  | zero => omega
  | succ n ih =>
      obtain ⟨m, rfl⟩ := Nat.exists_eq_succ_of_ne_zero (Nat.ne_zero_of_lt hm)
      cases s with
      | nil => rfl
      | cons c s =>
          rw [List.length_cons] at hn hm
          have hagree : ∀ s' : PyStr, s'.length ≤ s.length → scan read n s' = scan read m s' :=
            fun s' hs' => ih (by omega) (by omega)
          have hscan : scan read n [] = none := by cases n <;> rfl
          have harray : scanSequence (scan read n) closeBracket n s =
              scanSequence (scan read m) closeBracket m s :=
            scanSequence_congr (owns_scan read n) (by omega) (by omega) hagree hscan
          have hobject : scanSequence (scanMember (scan read n)) closeBrace n s =
              scanSequence (scanMember (scan read m)) closeBrace m s :=
            scanSequence_congr (owns_scanMember (owns_scan read n)) (by omega) (by omega)
              (fun s' hs' => scanMember_congr fun s'' hs'' => hagree s'' (by omega)) rfl
          rw [scan_cons, scan_cons, harray, hobject]

/-! ### Cut texts -/

/-- **The text of an object that is cut cannot be read.** -/
theorem loads_of_prefix {fl : ℚ → PyStr} (hfl : Reads read fl) {items : List (PyStr × Json)}
    (hwf : WellFormed (obj items)) {p : PyStr} (hstart : p <+: compact fl (obj items))
    (hp : p ≠ []) (hne : p ≠ compact fl (obj items)) : loads read p = none := by
  obtain ⟨r, hr⟩ := hstart
  obtain ⟨c, p, rfl⟩ := List.exists_cons_of_ne_nil hp
  have hc : c = PyStr.ofChar '\x7b' := by
    have hhead := congrArg List.head? hr
    exact Option.some.inj hhead
  subst hc
  by_contra hsome
  obtain ⟨v, hv⟩ := Option.ne_none_iff_exists'.1 hsome
  rw [loads_eq, if_neg (by simp; decide), skip_of_solid ⟨_, p, rfl, by decide⟩] at hv
  obtain ⟨⟨w, rest⟩, hscan, hv⟩ := Option.bind_eq_some_iff.1 hv
  have hlong : (PyStr.ofChar '\x7b' :: p).length < (compact fl (obj items)).length + 1 := by
    rw [← hr, List.length_append]
    omega
  rw [scan_fuel (Nat.lt_succ_self _) hlong] at hscan
  obtain ⟨t, ht, hread⟩ := owns_scan_of_brace rfl (owns_scan read _) hscan
  -- The whole text is read as well, and nothing of it is left.
  have hwhole := scan_compact hfl (obj items) hwf (Nat.lt_succ_self _) (r := []) nofun
  have hcut : compact fl (obj items) = PyStr.ofChar '\x7b' :: t ++ (rest ++ r) := by
    rw [← hr, ht, List.append_assoc]
  rw [List.append_nil] at hwhole
  have hread' := hread (rest ++ r)
  rw [← hcut, hwhole] at hread'
  obtain ⟨_, hr'⟩ := List.append_eq_nil_iff.1 (Prod.mk.inj (Option.some.inj hread')).2.symm
  rw [hr', List.append_nil] at hr
  exact hne hr

end Json
