/-
**What is resident when a request is answered.**

A context that is not new is continued exactly if the earlier messages of the request are the
history of its slot.  As long as the history of a slot is what is resident in its context, the
model answers to the messages of the request and to nothing else.

After a reply that was cut off by the length limit the history is set to the empty list, so that
the next request is replayed from the base.  But a request with one message and no system prompt
has no earlier messages either: it is taken for a continuation, and its message is appended to the
dialogue of the request before.

Main definitions:

* `InferenceService.Coherent` — the history of a slot is what is resident, or it is empty;
* `InferenceService.MeetsTruncated` — a request with one message meets a slot whose history is
  empty.

Main results:

* `InferenceService.prefill_messages` — what `prefill` leaves resident;
* `InferenceService.Coherent.complete` — the step lemma;
* `InferenceService.decodes_own` — **if no request with one message meets a truncated slot, the
  model always answers to the messages of the request**;
* `InferenceService.not_decodes_own` — otherwise it may answer to those of another one.
-/

import CatAgent.SlotOwnership

set_option relaxedAutoImplicit false
set_option autoImplicit false

/-- What a context is made for, and what is resident in it. -/
def NativeContext.dialogue (c : NativeContext) :
    Bool × List ChatMessage × Option (List ChatMessage) := (c.vision, c.base, c.resident)

namespace InferenceService

variable {s s' : InferenceService} {v w : Bool} {key : SlotKey} {c : ℕ} {slot : Slot}
  {env : RequestEnv} {r : InferenceRequest} {busy : Option (Bool × SlotKey)}

/-- The dialogues of all contexts. -/
def dialogues (s : InferenceService) : List (Bool × List ChatMessage × Option (List ChatMessage)) :=
  s.contexts.map NativeContext.dialogue

/-- The history of a slot is what is resident in its context, or it is empty; `busy` is the slot of
the request in progress. -/
def Coherent (busy : Option (Bool × SlotKey)) (s : InferenceService) : Prop :=
  ∀ v key slot, (s.table v).get? key = some slot →
    ∃ resident, s.dialogues[slot.context]? = some (v, key.1, resident) ∧
      (busy ≠ some (v, key) → slot.history = [] ∨ resident = some slot.history)

/-- The model has only been given the messages of the requests. -/
def DecodesOwn (s : InferenceService) : Prop := ∀ p ∈ s.decodes, p.2 = p.1

/-- A request with one message meets a slot whose history is empty. -/
def MeetsTruncated (s : InferenceService) (r : InferenceRequest) : Prop :=
  r.earlier = [] ∧ ∃ slot, (s.table r.vision).get? r.key = some slot ∧ slot.history = []

/-! ### The first messages of a request -/

/-- The base is a beginning of the earlier messages. -/
theorem base_append (r : InferenceRequest) : r.base ++ r.earlier.drop r.base.length = r.earlier := by
  unfold InferenceRequest.base
  cases r.earlier with
  | nil => rfl
  | cons m l => by_cases hm : m.role = ChatRole.system <;> simp [hm]

/-- **With the right dialogue in the context, `prefill` leaves the messages of the request.** -/
theorem prefill_messages {context : NativeContext} {continuation : Bool}
    {resident : List ChatMessage}
    (hbase : context.base = r.base)
    (hcontinuation : continuation = true → context.resident = some r.earlier)
    (h : context.prefill r.earlier r.last continuation = some resident) :
    resident = r.messages := by
  unfold NativeContext.prefill at h
  split_ifs at h with hv
  · cases h
    unfold NativeContext.prefillVision
    cases hresident : context.resident with
    | none => rfl
    | some dialogue =>
        cases continuation with
        | true =>
            have hd := hcontinuation rfl
            rw [hresident] at hd
            cases hd
            rfl
        | false => rfl
  · unfold NativeContext.prefillText NativeContext.rendered at h
    simp only [hbase] at h
    cases continuation with
    | true =>
        simp only [true_or, if_true, List.drop_left, hcontinuation rfl, Option.getD_some] at h
        split_ifs at h
        cases h
        rfl
    | false =>
        simp only [Bool.false_eq_true, if_false, false_or] at h
        by_cases hsame : r.earlier = r.base
        · rw [if_pos hsame, List.drop_left] at h
          split_ifs at h
          cases h
          rw [InferenceRequest.messages, hsame]
        · rw [if_neg hsame] at h
          split_ifs at h
          cases h
          have hbase' := base_append r
          rw [← hbase', List.append_assoc, List.drop_left, ← List.append_assoc, hbase',
            InferenceRequest.messages]

/-! ### Dialogues along a request -/

theorem map_modify {α β : Type} {f : α → α} {g : β → β} {p : α → β} (h : ∀ a, p (f a) = g (p a))
    (l : List α) (n : ℕ) : (l.modify n f).map p = (l.map p).modify n g := by
  refine List.ext_getElem? fun i => ?_
  rw [List.getElem?_map, List.getElem?_modify, List.getElem?_modify, List.getElem?_map]
  cases l[i]? with
  | none => simp
  | some a =>
      by_cases hn : n = i
      · simp [hn, h]
      · simp [hn]

theorem dialogues_modify {f : NativeContext → NativeContext} {l : List NativeContext}
    (hf : ∀ context, (f context).dialogue = context.dialogue) :
    (l.modify c f).map NativeContext.dialogue = l.map NativeContext.dialogue := by
  rw [map_modify (g := id) hf, List.modify_id]

theorem dialogues_use : (s.onContext NativeContext.use c).dialogues = s.dialogues :=
  dialogues_modify fun _ => rfl

theorem dialogues_startDecode {resident : List ChatMessage} :
    (s.startDecode r resident c).dialogues = s.dialogues := dialogues_modify fun _ => rfl

/-- A slot is taken out. -/
theorem Coherent.release (hs : s.Coherent busy) :
    ((s.setTable v ((s.table v).erase key)).onContext NativeContext.close c).Coherent busy := by
  intro w key' slot' hslot
  have hdialogues : ((s.setTable v ((s.table v).erase key)).onContext NativeContext.close
      c).dialogues = s.dialogues := by
    have h : ((s.setTable v ((s.table v).erase key)).onContext NativeContext.close c).dialogues =
        (s.setTable v ((s.table v).erase key)).dialogues := dialogues_modify fun _ => rfl
    rw [h, dialogues, contexts_setTable]
    rfl
  rw [hdialogues]
  rw [table_onContext, table_setTable] at hslot
  refine hs w key' slot' ?_
  split_ifs at hslot with hw
  · subst hw
    rw [PyDict.get?_erase] at hslot
    split_ifs at hslot
    exact hslot
  · exact hslot

theorem Coherent.evict (hs : s.Coherent busy) (v : Bool) : (s.evict v).Coherent busy := by
  unfold InferenceService.evict
  split
  · exact hs
  · exact hs.release

theorem Coherent.cleared (hs : s.Coherent busy) : (s.cleared r).Coherent busy := by
  unfold InferenceService.cleared
  split_ifs
  · exact hs.evict r.vision
  · exact hs

theorem Coherent.discard (hs : s.Coherent busy) : (s.discard v key).Coherent busy := by
  unfold InferenceService.discard
  split
  · exact hs
  · exact hs.release

theorem decodes_evict : (s.evict v).decodes = s.decodes := by
  unfold InferenceService.evict
  split
  · rfl
  · exact decodes_setTable

theorem decodes_cleared : (s.cleared r).decodes = s.decodes := by
  unfold InferenceService.cleared
  split_ifs
  · exact decodes_evict
  · rfl

theorem decodes_discard : (s.discard v key).decodes = s.decodes := by
  unfold InferenceService.discard
  split
  · rfl
  · exact decodes_setTable

/-- A new context is made for its base. -/
theorem Coherent.install (hs : s.Coherent none) :
    (s.install r).Coherent (some (r.vision, r.key)) := by
  intro w key' slot' hslot
  have htable : (s.install r).table w = if w = r.vision then (s.table r.vision).set r.key
      { context := s.contexts.length, history := r.base, usedAt := s.clock } else s.table w :=
    table_setTable s r.vision w _
  have hdialogues : (s.install r).dialogues =
      s.dialogues ++ [(NativeContext.create r.vision r.base).dialogue] := by
    simp only [dialogues, InferenceService.install, List.map_append, List.map_cons, List.map_nil]
  have hold : (s.table w).get? key' = some slot' → ∃ resident,
      (s.install r).dialogues[slot'.context]? = some (w, key'.1, resident) ∧
        (some (r.vision, r.key) ≠ some (w, key') →
          slot'.history = [] ∨ resident = some slot'.history) := by
    intro h
    obtain ⟨resident, hresident, hhistory⟩ := hs w key' slot' h
    refine ⟨resident, ?_, fun _ => hhistory (by simp)⟩
    rw [hdialogues, List.getElem?_append_left (List.getElem?_eq_some_iff.1 hresident).1]
    exact hresident
  rw [htable] at hslot
  split_ifs at hslot with hw
  · subst hw
    rw [PyDict.get?_set] at hslot
    split_ifs at hslot with hkey
    · cases hslot
      subst hkey
      have hlength : s.dialogues.length = s.contexts.length := List.length_map _
      refine ⟨(NativeContext.create r.vision r.base).resident, ?_, fun h => absurd rfl h⟩
      rw [hdialogues, List.getElem?_append_right hlength.le, hlength, Nat.sub_self]
      rfl
    · exact hold hslot
  · exact hold hslot

/-- A request may begin at any time. -/
theorem Coherent.begin (hs : s.Coherent none) (busy : Option (Bool × SlotKey)) :
    s.Coherent busy := by
  intro w key' slot' hslot
  obtain ⟨resident, hresident, hhistory⟩ := hs w key' slot' hslot
  exact ⟨resident, hresident, fun _ => hhistory nofun⟩

/-- The same dialogues and the same tables. -/
theorem Coherent.of_eq (hs : s.Coherent busy) (htable : ∀ w, s'.table w = s.table w)
    (hdialogues : s'.dialogues = s.dialogues) : s'.Coherent busy := by
  intro w key' slot' hslot
  rw [htable] at hslot
  rw [hdialogues]
  exact hs w key' slot' hslot

/-- Without the slot of the request in progress, what is left is settled. -/
theorem Coherent.settle (hs : s.Coherent (some (v, key)))
    (hnone : (s.table v).get? key = none) : s.Coherent none := by
  intro w key' slot' hslot
  obtain ⟨resident, hresident, hhistory⟩ := hs w key' slot' hslot
  refine ⟨resident, hresident, fun _ => hhistory ?_⟩
  rintro ⟨⟩
  rw [hnone] at hslot
  cases hslot

/-! ### What a request does to the dialogues -/

/-- **Prefill and decoding: the model answers to what `prefill` has left resident, and a request
that returns records it.** -/
theorem work_dialogues {cold : Bool} {context : NativeContext} :
    (∃ message s', s.work env r cold slot context = (Except.error message, s') ∧
        (∀ w, s'.table w = s.table w) ∧ s'.dialogues = s.dialogues ∧
        (s'.decodes = s.decodes ∨ ∃ resident,
          context.prefill r.earlier r.last (!cold && decide (r.earlier = slot.history)) =
            some resident ∧ s'.decodes = (r.messages, resident) :: s.decodes)) ∨
      ∃ (completion : Completion) (s' : InferenceService) (slot' : Slot)
        (resident : List ChatMessage) (reply : ChatMessage),
        s.work env r cold slot context = (Except.ok completion,
          s'.setTable r.vision (((s'.table r.vision).erase r.key).set r.key slot')) ∧
        (∀ w, s'.table w = s.table w) ∧
        s'.dialogues = s.dialogues.modify slot.context
          (fun d => (d.1, d.2.1, some (resident ++ [reply]))) ∧
        context.prefill r.earlier r.last (!cold && decide (r.earlier = slot.history)) =
          some resident ∧
        s'.decodes = (r.messages, resident) :: s.decodes ∧ slot'.context = slot.context ∧
        (slot'.history = [] ∨ slot'.history = r.messages ++ [reply]) := by
  unfold InferenceService.work
  simp only
  cases hprefill : context.prefill r.earlier r.last
      (!cold && decide (r.earlier = slot.history)) with
  | none =>
      exact Or.inl ⟨_, _, rfl, fun w => table_onContext, dialogues_use, Or.inl rfl⟩
  | some resident =>
      cases env.prefill with
      | error message =>
          exact Or.inl ⟨_, _, rfl, fun w => table_onContext, dialogues_use, Or.inl rfl⟩
      | ok counts =>
          obtain ⟨cached, evaluated⟩ := counts
          simp only
          generalize (if cold = true then evaluated + cached else evaluated) = evaluated'
          generalize (if cold = true then 0 else cached) = cached'
          by_cases hfull : (s.onContext NativeContext.use slot.context).maxNumTokens ≤
              cached' + evaluated'
          · rw [if_pos hfull]
            exact Or.inl ⟨_, _, rfl, fun w => table_onContext, dialogues_use, Or.inl rfl⟩
          rw [if_neg hfull]
          have htable : ∀ w, ((s.onContext NativeContext.use slot.context).startDecode r resident
              slot.context).table w = s.table w := fun w => by cases w <;> rfl
          have hdialogues : ((s.onContext NativeContext.use slot.context).startDecode r resident
              slot.context).dialogues = s.dialogues :=
            dialogues_startDecode.trans dialogues_use
          have hdecodes : ((s.onContext NativeContext.use slot.context).startDecode r resident
              slot.context).decodes = (r.messages, resident) :: s.decodes := rfl
          generalize (s.onContext NativeContext.use slot.context).startDecode r resident
            slot.context = s₁ at htable hdialogues hdecodes ⊢
          have hfail : ∀ message : PyStr, ∃ message' s',
              ((Except.error message, s₁) : Except PyStr Completion × InferenceService) =
                (Except.error message', s') ∧ (∀ w, s'.table w = s.table w) ∧
                s'.dialogues = s.dialogues ∧
                (s'.decodes = s.decodes ∨ ∃ resident', some resident = some resident' ∧
                  s'.decodes = (r.messages, resident') :: s.decodes) :=
            fun message => ⟨message, s₁, rfl, htable, hdialogues, Or.inr ⟨resident, rfl, hdecodes⟩⟩
          cases collect env.stream env.pieces [] false with
          | error message => exact Or.inl (hfail message)
          | ok collected =>
              cases env.decodeError with
              | some message => exact Or.inl (hfail message)
              | none =>
                  have htable₂ : ∀ w, (s₁.onContext NativeContext.use slot.context).table w =
                      s.table w := fun w => table_onContext.trans (htable w)
                  have hdialogues₂ : (s₁.onContext NativeContext.use slot.context).dialogues =
                      s.dialogues := dialogues_use.trans hdialogues
                  have hdecodes₂ : (s₁.onContext NativeContext.use slot.context).decodes =
                      (r.messages, resident) :: s.decodes := hdecodes
                  simp only
                  generalize s₁.onContext NativeContext.use slot.context = s₂
                    at htable₂ hdialogues₂ hdecodes₂ ⊢
                  split
                  · exact Or.inl ⟨_, s₂, rfl, htable₂, hdialogues₂,
                      Or.inr ⟨resident, rfl, hdecodes₂⟩⟩
                  · next completion _ =>
                      refine Or.inr ⟨completion, _, _, resident, ⟨ChatRole.assistant, ChatContent.text collected.1⟩,
                        rfl, fun w => table_onContext.trans (htable₂ w), ?_, rfl, hdecodes₂, rfl, ?_⟩
                      · rw [← hdialogues₂]
                        simp only [dialogues, InferenceService.onContext]
                        refine map_modify ?_ _ _
                        intro _
                        rfl
                      · simp only
                        split_ifs
                        · exact Or.inl rfl
                        · exact Or.inr rfl

/-- The same decodings. -/
theorem DecodesOwn.of_eq (hs : s.DecodesOwn) (h : s'.decodes = s.decodes) : s'.DecodesOwn := by
  intro p hp
  rw [h] at hp
  exact hs p hp

/-- One more decoding, to the messages of its own request. -/
theorem DecodesOwn.cons {resident : List ChatMessage} (hs : s.DecodesOwn)
    (hown : resident = r.messages) (h : s'.decodes = (r.messages, resident) :: s.decodes) :
    s'.DecodesOwn := by
  intro p hp
  rw [h] at hp
  rcases List.mem_cons.1 hp with rfl | hp
  · exact hown
  · exact hs p hp

/-- **A slot that is continued has a history, and it is what is resident.** -/
theorem Coherent.continued (hs : s.Coherent none) (hok : ¬ s.MeetsTruncated r)
    (hslot : (s.table r.vision).get? r.key = some slot) {context : NativeContext}
    (hcontext : s.contexts[slot.context]? = some context) (hearlier : r.earlier = slot.history) :
    context.resident = some r.earlier := by
  obtain ⟨resident, hresident, hhistory⟩ := hs r.vision r.key slot hslot
  rw [dialogues, List.getElem?_map, hcontext] at hresident
  have hsame : context.resident = resident :=
    congrArg (fun d => d.2.2) (Option.some.inj hresident)
  rcases hhistory (by simp) with hnil | hfull
  · exact absurd ⟨hearlier.trans hnil, slot, hslot, hnil⟩ hok
  · rw [hsame, hfull, hearlier]

/-- What is recorded for the slot of the request in progress leaves the dialogues of the other
slots: no two slots have one context. -/
theorem Coherent.dialogue_of_ne (hs : s.Coherent (some (v, key))) (howned : s.Owned (some (v, key)))
    (hget : (s.table v).get? key = some slot) {w : Bool} {key' : SlotKey} {slot' : Slot}
    (hslot : (s.table w).get? key' = some slot') (hne : (w, key') ≠ (v, key))
    (f : Bool × List ChatMessage × Option (List ChatMessage) →
      Bool × List ChatMessage × Option (List ChatMessage)) :
    ∃ resident, (s.dialogues.modify slot.context f)[slot'.context]? =
        some (w, key'.1, resident) ∧ (slot'.history = [] ∨ resident = some slot'.history) := by
  obtain ⟨resident, hresident, hhistory⟩ := hs w key' slot' hslot
  have hother : slot.context ≠ slot'.context := by
    intro heq
    obtain ⟨rfl, rfl⟩ := howned.unique w key' v key slot'.context ⟨slot', hslot, rfl⟩
      ⟨slot, hget, heq⟩
    exact hne rfl
  refine ⟨resident, ?_, hhistory fun heq => hne (Option.some.inj heq).symm⟩
  rw [List.getElem?_modify_ne _ _ hother, hresident]

/-- **The slot of a completed request, with the messages that its context now holds, keeps the
histories coherent.** -/
theorem Coherent.store (hs : s.Coherent (some (v, key))) (howned : s.Owned (some (v, key)))
    (hget : (s.table v).get? key = some slot) {messages : List ChatMessage} {slot' : Slot}
    (htable : ∀ w, s'.table w = s.table w)
    (hdialogues : s'.dialogues =
      s.dialogues.modify slot.context (fun d => (d.1, d.2.1, some messages)))
    (hcontext : slot'.context = slot.context)
    (hhistory : slot'.history = [] ∨ slot'.history = messages) :
    (s'.setTable v (((s'.table v).erase key).set key slot')).Coherent none := by
  intro w key' slot₁ hslot
  have hdialogues' : (s'.setTable v (((s'.table v).erase key).set key slot')).dialogues =
      s.dialogues.modify slot.context (fun d => (d.1, d.2.1, some messages)) := by
    rw [dialogues, contexts_setTable]
    exact hdialogues
  rw [hdialogues']
  rw [table_setTable] at hslot
  have hold : (s.table w).get? key' = some slot₁ → (w, key') ≠ (v, key) → ∃ resident,
      (s.dialogues.modify slot.context (fun d => (d.1, d.2.1, some messages)))[slot₁.context]? =
        some (w, key'.1, resident) ∧
      (none ≠ some (w, key') → slot₁.history = [] ∨ resident = some slot₁.history) := by
    intro h hne
    obtain ⟨resident, hresident, hhistory'⟩ := hs.dialogue_of_ne howned hget h hne _
    exact ⟨resident, hresident, fun _ => hhistory'⟩
  split_ifs at hslot with hw
  · subst hw
    rw [PyDict.get?_set] at hslot
    split_ifs at hslot with hkey
    · cases hslot
      subst hkey
      obtain ⟨resident, hresident, -⟩ := hs _ _ slot hget
      refine ⟨some messages, ?_, fun _ => hhistory.imp id fun h => by rw [h]⟩
      rw [hcontext, List.getElem?_modify_eq, hresident]
      rfl
    · rw [PyDict.get?_erase_of_ne _ hkey, htable] at hslot
      exact hold hslot fun h => hkey (Prod.mk.inj h).2.symm
  · rw [htable] at hslot
    exact hold hslot fun h => hw (Prod.mk.inj h).1

/-- **Prefill and decoding in the slot of the request in progress.** -/
theorem Coherent.work {cold : Bool} {context : NativeContext}
    (hs : s.Coherent (some (r.vision, r.key))) (howned : s.Owned (some (r.vision, r.key)))
    (hdecodes : s.DecodesOwn) (hget : (s.table r.vision).get? r.key = some slot)
    (hcontext : s.contexts[slot.context]? = some context)
    (hcontinued : (!cold && decide (r.earlier = slot.history)) = true →
      context.resident = some r.earlier) :
    (∀ completion s', s.work env r cold slot context = (Except.ok completion, s') →
        s'.Coherent none ∧ s'.DecodesOwn) ∧
      ∀ message s', s.work env r cold slot context = (Except.error message, s') →
        s'.Coherent (some (r.vision, r.key)) ∧ s'.DecodesOwn := by
  obtain ⟨resident₀, hresident₀, -⟩ := hs r.vision r.key slot hget
  rw [dialogues, List.getElem?_map, hcontext] at hresident₀
  have hbase : context.base = r.base := congrArg (fun d => d.2.1) (Option.some.inj hresident₀)
  rcases @work_dialogues s slot env r cold context with
    ⟨message, s₁, hwork, htable, hdialogues, hdec⟩ |
      ⟨completion, s₁, slot', resident, reply, hwork, htable, hdialogues, hprefill, hdec, hsame,
        hhistory⟩
  · rw [hwork]
    refine ⟨fun completion s' h => (by cases h), fun m s' h => ?_⟩
    cases h
    refine ⟨hs.of_eq htable hdialogues, ?_⟩
    rcases hdec with hdec | ⟨resident, hprefill, hdec⟩
    · exact hdecodes.of_eq hdec
    · exact hdecodes.cons (prefill_messages hbase hcontinued hprefill) hdec
  · rw [hwork]
    refine ⟨fun m s' h => ?_, fun message s' h => (by cases h)⟩
    cases h
    have hmessages : resident = r.messages := prefill_messages hbase hcontinued hprefill
    rw [← hmessages] at hhistory
    exact ⟨hs.store howned hget htable hdialogues hsame hhistory,
      hdecodes.cons hmessages (decodes_setTable.trans hdec)⟩

/-- **A request that meets no truncated slot is answered to its own messages, and leaves the
histories coherent.** -/
theorem Coherent.attempt (hs : s.Coherent none) (howned : s.Owned none) (hdecodes : s.DecodesOwn)
    (hok : ¬ s.MeetsTruncated r) :
    (∀ completion s', s.attempt env r = (Except.ok completion, s') →
        s'.Coherent none ∧ s'.DecodesOwn) ∧
      ∀ message s', s.attempt env r = (Except.error message, s') →
        s'.Coherent (some (r.vision, r.key)) ∧ s'.DecodesOwn := by
  have hwork : ∀ cold base slot, Chosen r s base slot → base.Owned (some (r.vision, r.key)) →
      base.Coherent (some (r.vision, r.key)) → base.DecodesOwn →
      s.acquire env r = (Except.ok cold, base) →
      (cold = false → (s.table r.vision).get? r.key = some slot ∧ base = s) →
      (∀ completion s', s.attempt env r = (Except.ok completion, s') →
          s'.Coherent none ∧ s'.DecodesOwn) ∧
        ∀ message s', s.attempt env r = (Except.error message, s') →
          s'.Coherent (some (r.vision, r.key)) ∧ s'.DecodesOwn := by
    intro cold base slot hchosen hbase hcoherent hbaseDecodes hacquire hwarm
    have hget := hchosen.get?
    have hlt := hbase.bound r.vision r.key slot.context ⟨slot, hget, rfl⟩
    obtain ⟨context, hcontext⟩ : ∃ context, base.contexts[slot.context]? = some context :=
      ⟨_, List.getElem?_eq_getElem hlt⟩
    have hattempt : s.attempt env r = base.work env r cold slot context := by
      simp only [InferenceService.attempt, hacquire, hget, hcontext]
    rw [hattempt]
    refine hcoherent.work hbase hbaseDecodes hget hcontext fun h => ?_
    rw [Bool.and_eq_true, Bool.not_eq_true', decide_eq_true_eq] at h
    obtain ⟨hcold, hearlier⟩ := h
    obtain ⟨hslot, rfl⟩ := hwarm hcold
    exact hs.continued hok hslot hcontext hearlier
  rcases @acquire_cases s env r howned with
    ⟨slot, hslot, hacquire⟩ | ⟨hnone, ⟨message, hacquire⟩ | ⟨hacquire, hinstalled⟩⟩
  · exact hwork false s slot (Or.inl ⟨hslot, rfl⟩) (howned.begin _) (hs.begin _) hdecodes hacquire
      fun _ => ⟨hslot, rfl⟩
  · have hattempt : s.attempt env r = (Except.error message, s.cleared r) := by
      simp only [InferenceService.attempt, hacquire]
    rw [hattempt]
    refine ⟨fun completion s' h => (by cases h), fun m s' h => ?_⟩
    cases h
    exact ⟨hs.cleared.begin _, hdecodes.of_eq decodes_cleared⟩
  · have hinstall : ((s.cleared r).install r).decodes = (s.cleared r).decodes :=
      decodes_setTable (s := s.cleared r)
    exact hwork true _ _ (Or.inr ⟨hnone, rfl, rfl⟩) hinstalled hs.cleared.install
      (hdecodes.of_eq (hinstall.trans decodes_cleared)) hacquire (by simp)

/-- **Every request that meets no truncated slot keeps the histories coherent.** -/
theorem Coherent.complete {parsed : Except PyStr InferenceRequest} (hs : s.Coherent none)
    (howned : s.Owned none) (hdecodes : s.DecodesOwn)
    (hok : ∀ r, parsed = Except.ok r → ¬ s.MeetsTruncated r) :
    (s.complete env parsed).2.Coherent none ∧ (s.complete env parsed).2.DecodesOwn := by
  unfold InferenceService.complete
  cases parsed with
  | error message => exact ⟨hs, hdecodes⟩
  | ok r =>
      have h := @Coherent.attempt s env r hs howned hdecodes (hok r rfl)
      cases hattempt : s.attempt env r with
      | mk result s' =>
          cases result with
          | ok completion =>
              simp only [hattempt]
              exact h.1 completion s' hattempt
          | error message =>
              simp only [hattempt]
              obtain ⟨hcoherent, hown⟩ := h.2 message s' hattempt
              have hnone : ((s'.discard r.vision r.key).table r.vision).get? r.key = none := by
                unfold InferenceService.discard
                split
                · next hnone => exact hnone
                · rw [table_onContext, table_setTable_self, PyDict.get?_erase_self]
              refine ⟨(@Coherent.discard s' r.vision r.key _ hcoherent).settle hnone, ?_⟩
              intro p hp
              have hsame : ((s'.discard r.vision r.key).tick).decodes = s'.decodes :=
                decodes_discard
              rw [hsame] at hp
              exact hown p hp

/-- No request with one message meets a slot whose last reply was cut off. -/
def Fresh (s : InferenceService) : Call → Prop
  | Call.complete _ (Except.ok r) => ¬ s.MeetsTruncated r
  | _ => True

/-- **As long as no request with one message and no system prompt meets a slot whose last reply was
cut off by the length limit, the model is given the messages of the request and nothing else.** -/
theorem decodes_own (h : machine.Reach Fresh s) : s.DecodesOwn := by
  have key : s.Coherent none ∧ s.DecodesOwn := by
    refine h.invariant (I := fun s => s.Coherent none ∧ s.DecodesOwn) ?_ ?_
    · rintro s ⟨-, -, hslots, hvisionSlots, -, -, hdecodes⟩
      refine ⟨?_, ?_⟩
      · intro w key slot hslot
        have htable : s.table w = PyDict.empty := by
          cases w with
          | false => exact hslots
          | true => exact hvisionSlots
        rw [htable, PyDict.get?_empty] at hslot
        cases hslot
      · intro p hp
        rw [hdecodes] at hp
        cases hp
    · rintro s i hreach ⟨hcoherent, hdecodes⟩ hok
      cases i with
      | complete env parsed =>
          refine hcoherent.complete (owned_of_reachable hreach.reachable) hdecodes ?_
          rintro r rfl
          exact hok
      | close =>
          refine ⟨?_, ?_⟩
          · intro w key slot hslot
            have htable : s.close.table w = PyDict.empty := by cases w <;> rfl
            have hempty : (s.close.table w).get? key = none := by rw [htable, PyDict.get?_empty]
            cases hempty.symm.trans hslot
          · intro p hp
            have hsame : ∀ l : List Slot, (s.closeAll l).decodes = s.decodes := by
              intro l
              clear hp hok hreach hcoherent hdecodes
              induction l generalizing s with
              | nil => rfl
              | cons slot l ih => exact ih (s := s.onContext NativeContext.close slot.context)
            have hdec : s.close.decodes = s.decodes := hsame _
            exact hdecodes p (hdec ▸ hp)
  exact key.2

theorem decodes_own_twoPrompts :
    (machine.exec sample twoPrompts).decodes.length = 2 ∧
      (machine.exec sample twoPrompts).DecodesOwn := by
  have hinit : machine.Reach Fresh sample :=
    Machine.Reach.of_init ⟨le_rfl, le_rfl, rfl, rfl, rfl, rfl, rfl⟩
  have hprompted : ∀ (s : InferenceService) prompt, ¬ s.MeetsTruncated (prompted prompt) := by
    intro s prompt h
    exact absurd h.1 (List.cons_ne_nil _ _)
  have hfresh : machine.Guarded Fresh sample twoPrompts := by
    unfold twoPrompts Machine.Guarded Machine.Guarded Machine.Guarded
    exact ⟨hprompted _ _, hprompted _ _, trivial⟩
  exact ⟨by decide, decodes_own (hinit.leads (Machine.leads_of_guarded hfresh))⟩

/-- A question without a system prompt. -/
def bare (text : String) : InferenceRequest where
  earlier := []
  last := { role := ChatRole.user, content := ChatContent.text text }
  options := { sampler := [], maxOutputTokens := 10 }
  last_user := rfl
  system_first := by simp

/-- A question whose answer is cut off after ten tokens, and another one. -/
def twoStrangers : List Call :=
  [Call.complete (quietEnv 10) (Except.ok (bare "mine")),
    Call.complete (quietEnv 1) (Except.ok (bare "yours"))]

/-- **After a truncated reply the next request may be answered to the dialogue before it.** -/
theorem not_decodes_own : ¬ ∀ s, machine.Reachable s → s.DecodesOwn := by
  intro hall
  have h := hall _ (reachable_sample twoStrangers)
  have hhead : ((bare "yours").messages,
      (bare "mine").messages ++ [⟨ChatRole.assistant, ChatContent.text "x"⟩] ++
        (bare "yours").messages) ∈ (machine.exec sample twoStrangers).decodes := by decide
  exact absurd (h _ hhead) (by decide)

end InferenceService
