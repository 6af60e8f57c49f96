/-
**Outlines of the scheduler's programs.**

The programs of the threads are outlined with the rules of this file: an operation changes the note
of its thread, in a way that keeps the invariant.  Here are also the parts that both the driver and
the executor perform: how a context is closed, and how an event is admitted.

Main definitions:

* `CoreScheduler.Drives`, `CoreScheduler.Executes` — outlines of the driver and of the executor;
* `CoreScheduler.Silent` — operations that do not change the shared fields.

Main results:

* `CoreScheduler.outline_closeContext` — **closing a context keeps the invariant**;
* `CoreScheduler.outline_enqueue` — **admitting an event keeps the invariant**.
-/

import CatAgent.SchedulerContexts

set_option relaxedAutoImplicit false
set_option autoImplicit false

namespace CoreScheduler

variable {config : SchedulerConfig} {safe : Bool} {α β : Type}

/-! ### Rules -/

section Rules

variable {i : SchedulerThread} {l : SchedulerNote} {Q : α → SchedulerNote → Prop}

/-- The outlines of a thread's programs. -/
abbrev Outline (config : SchedulerConfig) (safe : Bool) (i : SchedulerThread) (p : SchedulerM α)
    (l : SchedulerNote) (Q : α → SchedulerNote → Prop) : Prop :=
  (within config safe).Outline (Invariant config safe) i p l Q

theorem outline_access {f : CoreScheduler → α × CoreScheduler}
    (h : ∀ s notes, Invariant config safe s notes → notes i = l →
      ∃ l', Invariant config safe (f s).2 (Function.update notes i l') ∧ Q (f s).1 l') :
    Outline config safe i (access f) l Q := by
  refine Threads.outline_perform fun s notes o x s' hs hl hx => ?_
  replace hx := (handle_of_within hx).1
  cases o with
  | proceed =>
      have hf : f s = (x, s') := Option.some.inj hx
      obtain ⟨l', hs', hQ⟩ := h s notes hs hl
      rw [hf] at hs' hQ
      exact ⟨l', hs', Threads.outline_pure hQ⟩
  | _ => cases hx

theorem outline_read {f : CoreScheduler → α}
    (h : ∀ s notes, Invariant config safe s notes → notes i = l →
      ∃ l', Invariant config safe s (Function.update notes i l') ∧ Q (f s) l') :
    Outline config safe i (read f) l Q := outline_access h

theorem outline_update {Q : Unit → SchedulerNote → Prop} {f : CoreScheduler → CoreScheduler}
    (h : ∀ s notes, Invariant config safe s notes → notes i = l →
      ∃ l', Invariant config safe (f s) (Function.update notes i l') ∧ Q () l') :
    Outline config safe i (update f) l Q := outline_access h

theorem outline_await {f : CoreScheduler → Option α}
    (h : ∀ s notes x, Invariant config safe s notes → notes i = l → f s = some x →
      ∃ l', Invariant config safe s (Function.update notes i l') ∧ Q x l') :
    Outline config safe i (await f) l Q := by
  refine Threads.outline_perform fun s notes o x s' hs hl hx => ?_
  replace hx := (handle_of_within hx).1
  cases o with
  | proceed =>
      obtain ⟨y, hy, hyx⟩ := Option.map_eq_some_iff.1
        (show (f s).map (fun x => (x, s)) = some (x, s') from hx)
      cases hyx
      obtain ⟨l', hs', hQ⟩ := h s notes x hs hl hy
      exact ⟨l', hs', Threads.outline_pure hQ⟩
  | _ => cases hx

/-- An operation that does not change the shared fields. -/
def Silent (e : SchedulerEffect) : Prop :=
  ∀ i o s x s', handle i e o s = some (x, s') → s' = s

theorem silent_pollDue : Silent SchedulerEffect.pollDue := by
  intro i o s x s' h
  cases o <;> first | (cases h; rfl) | cases h

theorem silent_beginRun (event : SystemEvent) : Silent (SchedulerEffect.beginRun event) := by
  intro i o s x s' h
  cases o <;> first | (cases h; rfl) | cases h

theorem silent_validRun (event : SystemEvent) : Silent (SchedulerEffect.validRun event) := by
  intro i o s x s' h
  cases o <;> first | (cases h; rfl) | cases h

theorem silent_finishRun (event : SystemEvent) (outcome : PyStr) :
    Silent (SchedulerEffect.finishRun event outcome) := by
  intro i o s x s' h
  cases o <;> first | (cases h; rfl) | cases h

theorem silent_stopWorker : Silent SchedulerEffect.stopWorker := by
  intro i o s x s' h
  cases o <;> first | (cases h; rfl) | cases h

theorem silent_flushCompletions : Silent SchedulerEffect.flushCompletions := by
  intro i o s x s' h
  cases o <;> first | (cases h; rfl) | cases h

theorem silent_poolView : Silent SchedulerEffect.poolView := by
  intro i o s x s' h
  cases o <;> first | (cases h; rfl) | cases h

theorem silent_beginAutonomousTask (u : ℕ) (event : SystemEvent) :
    Silent (SchedulerEffect.beginAutonomousTask u event) := by
  intro i o s x s' h
  cases o <;> first | (cases h; rfl) | cases h

theorem silent_stepAutonomousTask (u : ℕ) : Silent (SchedulerEffect.stepAutonomousTask u) := by
  intro i o s x s' h
  cases o <;> first | (cases h; rfl) | cases h

theorem silent_setEventHandler (c : ℕ) : Silent (SchedulerEffect.setEventHandler c) := by
  intro i o s x s' h
  cases o <;> first | (cases h; rfl) | cases h

theorem silent_preparePrefix (c : ℕ) : Silent (SchedulerEffect.preparePrefix c) := by
  intro i o s x s' h
  cases o <;> first | (cases h; rfl) | cases h

theorem silent_abortContext (c : ℕ) : Silent (SchedulerEffect.abortContext c) := by
  intro i o s x s' h
  cases o <;> first | (cases h; rfl) | cases h

theorem silent_keepsDialogue (c : ℕ) : Silent (SchedulerEffect.keepsDialogue c) := by
  intro i o s x s' h
  cases o <;> first | (cases h; rfl) | cases h

/-- An operation that does not change the shared fields keeps the note. -/
theorem outline_silent {e : SchedulerEffect} (he : Silent e) {Q : e.Answer → SchedulerNote → Prop}
    (h : ∀ x, Q x l) : Outline config safe i (perform e) l Q := by
  refine Threads.outline_perform fun s notes o x s' hs hl hx => ?_
  cases he i o s x s' (handle_of_within hx).1
  refine ⟨l, ?_, Threads.outline_pure (h x)⟩
  rwa [← hl, Function.update_eq_self]

/-- What `client.close()` does; in a safe environment it does not raise in the loop. -/
theorem outline_closeClient {c : ℕ} {Q : Except PyStr Unit → SchedulerNote → Prop}
    (hok : Q (Except.ok ()) l)
    (herror : ∀ msg s notes, Invariant config safe s notes → notes i = l →
      (i = SchedulerThread.driver → s.closed = false → safe = false) →
      ∃ l', Invariant config safe s (Function.update notes i l') ∧ Q (Except.error msg) l') :
    Outline config safe i (perform (SchedulerEffect.closeClient c)) l Q := by
  refine Threads.outline_perform fun s notes o x s' hs hl hx => ?_
  obtain ⟨hhandle, hsafe⟩ := handle_of_within hx
  cases o with
  | outcome r =>
      obtain ⟨rfl, rfl⟩ := Prod.mk.inj (Option.some.inj hhandle)
      cases r with
      | ok a =>
          refine ⟨l, ?_, Threads.outline_pure hok⟩
          rwa [← hl, Function.update_eq_self]
      | error msg =>
          have hlost : i = SchedulerThread.driver → s.closed = false → safe = false := by
            intro hi hclosed
            rw [← Bool.not_eq_true]
            intro hs
            have hloses : (decide (i = SchedulerThread.driver) && !s.closed) = false := hsafe hs
            rw [decide_eq_true hi, hclosed] at hloses
            cases hloses
          obtain ⟨l', hs', hQ⟩ := herror msg s notes hs hl hlost
          exact ⟨l', hs', Threads.outline_pure hQ⟩
  | _ => cases hhandle

/-- What `item.iterator.close()` does; in a safe environment it does not raise at the shutdown. -/
theorem outline_closeIterator {u : ℕ} {Q : Except PyStr Unit → SchedulerNote → Prop}
    (h : ∀ s notes, Invariant config safe s notes → notes i = l →
      ∀ x, (∀ msg, x = Except.error msg → u ∈ s.remaining → safe = false) → Q x l) :
    Outline config safe i (perform (SchedulerEffect.closeIterator u)) l Q := by
  refine Threads.outline_perform fun s notes o x s' hs hl hx => ?_
  obtain ⟨hhandle, hsafe⟩ := handle_of_within hx
  cases o with
  | outcome r =>
      obtain ⟨rfl, rfl⟩ := Prod.mk.inj (Option.some.inj hhandle)
      refine ⟨l, ?_, Threads.outline_pure (h s notes hs hl r fun msg hr hu => ?_)⟩
      · rwa [← hl, Function.update_eq_self]
      · subst hr
        rw [← Bool.not_eq_true]
        intro hsafe'
        exact absurd hu (of_decide_eq_false (hsafe hsafe'))
  | _ => cases hhandle

/-- Resetting a context, if it succeeds, puts it to its base. -/
theorem outline_reset {c : ℕ} {Q : Except PyStr Unit → SchedulerNote → Prop}
    (herror : ∀ msg, Q (Except.error msg) l)
    (h : ∀ s notes, Invariant config safe s notes → notes i = l →
      ∃ l', Invariant config safe (s.record (SchedulerEvent.based c)) (Function.update notes i l') ∧
        Q (Except.ok ()) l') :
    Outline config safe i (perform (SchedulerEffect.resetForNewSession c)) l Q := by
  refine Threads.outline_perform fun s notes o x s' hs hl hx => ?_
  replace hx := (handle_of_within hx).1
  cases o with
  | outcome r =>
      cases r with
      | error msg =>
          cases hx
          refine ⟨l, ?_, Threads.outline_pure (herror msg)⟩
          rwa [← hl, Function.update_eq_self]
      | ok a =>
          cases hx
          obtain ⟨l', hs', hQ⟩ := h s notes hs hl
          exact ⟨l', hs', Threads.outline_pure hQ⟩
  | _ => cases hx

theorem outline_ite {c : Prop} [Decidable c] {p q : SchedulerM α}
    (hp : c → Outline config safe i p l Q) (hq : ¬ c → Outline config safe i q l Q) :
    Outline config safe i (if c then p else q) l Q := by
  by_cases hc : c
  · rw [if_pos hc]
    exact hp hc
  · rw [if_neg hc]
    exact hq hc

theorem outline_bind {Q : β → SchedulerNote → Prop} {p : SchedulerM α} {f : α → SchedulerM β}
    (h : Outline config safe i p l fun a l' => Outline config safe i (f a) l' Q) :
    Outline config safe i (p >>= f) l Q := Threads.outline_bind h fun _ _ h => h

theorem outline_andThen {Q : Except PyStr β → SchedulerNote → Prop}
    {p : SchedulerM (Except PyStr α)} {f : α → SchedulerM (Except PyStr β)}
    (h : Outline config safe i p l fun r l' =>
      (∀ msg, r = Except.error msg → Q (Except.error msg) l') ∧
        ∀ a, r = Except.ok a → Outline config safe i (f a) l' Q) :
    Outline config safe i (andThen p f) l Q := by
  refine outline_bind (h.mono fun r l' hr => ?_)
  cases r with
  | error msg => exact Threads.outline_pure (hr.1 msg rfl)
  | ok a => exact hr.2 a rfl

theorem outline_succeed {Q : Except PyStr α → SchedulerNote → Prop} {p : SchedulerM α}
    (h : Outline config safe i p l fun a l' => Q (Except.ok a) l') :
    Outline config safe i (succeed p) l Q :=
  outline_bind (h.mono fun _ _ hQ => Threads.outline_pure hQ)

end Rules

/-! ### Closing a context -/

section Close

variable {i : SchedulerThread} {l : SchedulerNote} {key : PyStr}

theorem update_self_note {notes : SchedulerThread → SchedulerNote} (h : notes i = l) :
    Function.update notes i l = notes := by
  rw [← h, Function.update_eq_self]

/-- The end of `_close_context` for a context that has been taken from its dialogue. -/
theorem outline_reset_pooled {c : ℕ} {slot : ManagerSlot} (hi : MayHold i l)
    (hheld : held i l = Hold.nothing) {Q : Except PyStr Unit → SchedulerNote → Prop}
    (hok : Q (Except.ok ()) l)
    (herror : ∀ msg s notes, Invariant config safe s notes → notes i = l →
      (i = SchedulerThread.driver → s.closed = false → safe = false) →
      ∃ l', Invariant config safe s (Function.update notes i l') ∧ Q (Except.error msg) l')
    {f : Except PyStr Unit → SchedulerM (Except PyStr Unit)}
    (hferror : ∀ msg, f (Except.error msg) = do
      update (resetFailed slot c)
      if slot = ManagerSlot.kv2 then perform (SchedulerEffect.closeClient c)
      else return Except.ok ())
    (hfok : f (Except.ok ()) = succeed (update (resetDone slot c))) :
    Outline config safe i (perform (SchedulerEffect.resetForNewSession c) >>= f)
      (withHold i (Hold.pooled c slot false) l) Q := by
  have hi' : ∀ q, MayHold i (withHold i q l) := fun q => hi.withHold
  have hheld' : ∀ q, held i (withHold i q l) = q := fun q =>
    held_withHold hi
  have hback : ∀ q, withHold i Hold.nothing (withHold i q l) = l := by
    intro q
    rw [withHold_withHold, withHold_held l hheld]
  refine outline_bind (outline_reset ?_ ?_)
  · intro msg
    rw [hferror]
    refine outline_bind (outline_update fun s notes hs hl => ⟨l, ?_, ?_⟩)
    · have h := Invariant.resetFailed hs (hl ▸ hi' _) (hl ▸ hheld' (Hold.pooled c slot false))
      rwa [hl, hback] at h
    · exact outline_ite (fun _ => outline_closeClient hok herror) fun _ => Threads.outline_pure hok
  · intro s notes hs hl
    refine ⟨withHold i (Hold.pooled c slot true) l, ?_, ?_⟩
    · have h := Invariant.based hs (hl ▸ hi' _) (hl ▸ hheld' (Hold.pooled c slot false))
      rwa [hl, withHold_withHold] at h
    · rw [hfok]
      refine outline_succeed (outline_update fun s notes hs hl => ⟨l, ?_, hok⟩)
      have h := Invariant.resetDone hs (hl ▸ hi' _) (hl ▸ hheld' (Hold.pooled c slot true))
      rwa [hl, hback] at h

/-- **Closing a context keeps the invariant, if nobody who is still to be served has it.**  In a
safe environment it does not raise in the loop; a thread in which it raises may learn from it. -/
theorem outline_closeContext (hi : MayHold i l) (hheld : held i l = Hold.nothing)
    (hk : ∀ s notes, Invariant config safe s notes → notes i = l → ∀ v, s.Unfinished v →
      contextKey (s.requests v) = key → (s.requests v).context = none)
    {Q : Except PyStr Unit → SchedulerNote → Prop}
    (hok : Q (Except.ok ()) l)
    (herror : ∀ msg s notes, Invariant config safe s notes → notes i = l →
      (i = SchedulerThread.driver → s.closed = false → safe = false) →
      ∃ l', Invariant config safe s (Function.update notes i l') ∧ Q (Except.error msg) l') :
    Outline config safe i (closeContext key) l Q := by
  have hback : ∀ q, withHold i Hold.nothing (withHold i q l) = l := by
    intro q
    rw [withHold_withHold, withHold_held l hheld]
  refine outline_bind (outline_access fun s notes hs hl => ?_)
  cases hc : s.contexts.get? key with
  | none =>
      refine ⟨l, ?_, Threads.outline_pure hok⟩
      have h := Invariant.erase hs (hl ▸ hi) (hk s notes hs hl)
      rwa [hl, withHold_held l hheld] at h
  | some c =>
      cases hslot : s.managerSlotIndex c with
      | some slot =>
          refine ⟨withHold i (Hold.pooled c slot false) l, ?_, ?_⟩
          · have h := Invariant.pop hs (hl ▸ hi) (hk s notes hs hl) hc hslot
            rwa [hl] at h
          · refine outline_bind (outline_read fun s notes hs hl => ?_)
            -- The context still has its slot.
            obtain ⟨p, hp⟩ := Invariant.pool hs (hl ▸ hi.withHold)
            have hheld' : held i (notes i) = Hold.pooled c slot false := by
              rw [hl]
              exact held_withHold hi
            have hindex := managerSlotIndex_eq hp.distinct (hp.right.1 c slot false hheld').1
            refine ⟨_, (update_self_note hl).symm ▸ hs, ?_⟩
            rw [hindex]
            refine outline_bind (outline_read fun s notes hs hl => ?_)
            by_cases hstop : s.stop = true
            · refine ⟨l, ?_, ?_⟩
              · have h := Invariant.drop hs (hl ▸ hi.withHold)
                rwa [hl, hback] at h
              · rw [if_pos hstop]
                exact Threads.outline_pure hok
            · refine ⟨_, (update_self_note hl).symm ▸ hs, ?_⟩
              rw [if_neg hstop]
              exact outline_reset_pooled hi hheld hok herror (fun _ => rfl) rfl
      | none =>
          refine ⟨withHold i (Hold.loose c) l, ?_, ?_⟩
          · have h := Invariant.popLoose hs (hl ▸ hi) (hk s notes hs hl) hc hslot
            rwa [hl] at h
          · refine outline_bind (outline_read fun s notes hs hl => ?_)
            obtain ⟨p, hp⟩ := Invariant.pool hs (hl ▸ hi.withHold)
            have hheld' : held i (notes i) = Hold.loose c := by
              rw [hl]
              exact held_withHold hi
            have hindex : s.managerSlotIndex c = none := by
              cases hindex : s.managerSlotIndex c with
              | none => rfl
              | some slot =>
                  exact absurd (slots_of_managerSlotIndex hindex)
                    ((hp.right.2.2 c hheld').2 slot)
            refine ⟨l, ?_, ?_⟩
            · have h := Invariant.drop hs (hl ▸ hi.withHold)
              rwa [hl, hback] at h
            · rw [hindex]
              exact outline_ite (fun _ => Threads.outline_pure hok)
                fun _ => outline_closeClient hok herror

end Close

/-! ### Admitting an event -/

section Enqueue

variable {i : SchedulerThread} {l : SchedulerNote} {s : CoreScheduler}
  {notes : SchedulerThread → SchedulerNote} {event : SystemEvent} {priority : ℤ}
  {coalesceKey : Option PyStr}

/-- A change that concerns no note. -/
theorem Invariant.keep {s' : CoreScheduler} (h : Invariant config safe s notes)
    (hs : ∀ d e events, Valid config safe s d e events → Valid config safe s' d e events)
    (hl : notes i = l) : Invariant config safe s' (Function.update notes i l) := by
  rw [update_self_note hl]
  exact hs _ _ _ h

/-- A thread is about to accept an event that was admitted. -/
theorem Invariant.accepting (h : Invariant config safe s notes) (hl : notes i = l)
    (hevent : ∃ u n, SchedulerEvent.admitted u n ∈ s.log ∧
      (s.requests u).taskRun = some event) :
    Invariant config safe s (Function.update notes i { l with accepting := some event }) := by
  subst hl
  rw [invariant_update]
  have hd : (if i = SchedulerThread.driver then { notes i with accepting := some event }
      else notes SchedulerThread.driver).driver = (notes SchedulerThread.driver).driver := by
    split
    next hi => rw [hi]
    next => rfl
  have he : (if i = SchedulerThread.executor then { notes i with accepting := some event }
      else notes SchedulerThread.executor).executor =
        (notes SchedulerThread.executor).executor := by
    split
    next hi => rw [hi]
    next => rfl
  rw [hd, he]
  refine { Valid.accepting h with } |> fun hold => { h with accepting := ⟨?_, hold.accepted⟩ }
  intro j event' hj
  by_cases hji : j = i
  · rw [if_pos hji] at hj
    cases hj
    exact hevent
  · rw [if_neg hji] at hj
    exact hold.accepting j event' hj

theorem eventLabel_ne_voice (event : SystemEvent) : eventLabel event ≠ "voice" := by
  intro h
  have hmem : PyStr.ofChar ':' ∈ eventLabel event := by
    unfold eventLabel
    exact List.mem_append_left _ (List.mem_append_right _ (by decide))
  rw [h] at hmem
  exact absurd hmem (by decide)

/-- The request that an event becomes. -/
def eventRequest (config : SchedulerConfig) (event : SystemEvent) (priority : ℤ)
    (coalesceKey : Option PyStr) (s : CoreScheduler) : PriorityRequest where
  kind := RequestKind.system
  label := eventLabel event
  payload := RequestPayload.event event
  queuedAt := event.createdMonotonic
  priority
  coalesceKey
  requestId := config.host.uuid4 s.nextRequest
  taskRun := if event.runId = [] then none else some event

theorem new_eventRequest (h : ¬ s.Duplicate event coalesceKey) :
    s.New (eventRequest config event priority coalesceKey s) where
  iterator := rfl
  context := rfl
  kind := nofun
  voice := fun hv => absurd hv (eventLabel_ne_voice event)
  user := nofun
  grants := by
    intro a ha v hv b hb hab
    have ha : (if event.runId = [] then none else some event) = some a := ha
    by_cases hrun : event.runId = []
    · rw [if_pos hrun] at ha
      cases ha
    · rw [if_neg hrun] at ha
      cases ha
      obtain ⟨hid, hoffer⟩ := Prod.mk.inj hab
      refine h (Or.inr ⟨hrun, v, hv, ?_⟩)
      simp [hb, hid, hoffer]

/-- What the admission of an event can do. -/
theorem enqueueEvent_cases (config : SchedulerConfig) (event : SystemEvent) (priority : ℤ)
    (coalesceKey : Option PyStr) (s : CoreScheduler) :
    s.enqueueEvent config event priority coalesceKey = (none, s) ∨
    s.enqueueEvent config event priority coalesceKey =
      (some false, { s with rejected := s.rejected + 1 }) ∨
    (¬ s.Duplicate event coalesceKey ∧ s.pending.length + s.activeRequest.toList.length <
        limit config (eventRequest config event priority coalesceKey s) ∧
      s.enqueueEvent config event priority coalesceKey =
        (some true, s.enlist (eventRequest config event priority coalesceKey s))) := by
  unfold enqueueEvent
  by_cases hd : s.Duplicate event coalesceKey
  · exact Or.inl (if_pos hd)
  · rw [if_neg hd]
    unfold appendLocked
    by_cases hroom : limit config (eventRequest config event priority coalesceKey s) ≤
        s.pending.length + s.activeRequest.toList.length
    · refine Or.inr (Or.inl ?_)
      simp only
      rw [if_pos (by exact hroom)]
    · refine Or.inr (Or.inr ⟨hd, not_le.1 hroom, ?_⟩)
      simp only
      rw [if_neg (by exact hroom)]
      rfl

/-- **An event is accepted.** -/
theorem Valid.accept {d : DriverNote} {e : ExecutorNote}
    {events : SchedulerThread → Option SystemEvent} (h : Valid config safe s d e events)
    (hi : events i = some event) :
    Valid config safe (s.record (SchedulerEvent.accepted event)) d e events where
  traffic := { h.traffic with }
  queue := h.queue.record (by simp)
  ordered := h.ordered.record (by simp) (by simp)
  once := h.once.imp id fun ho => ho.record (by simp) (by simp)
  pool := h.pool.record (by simp) (by simp) (by simp)
  dialogues := h.dialogues.record (by simp) (by simp)
  accepting :=
    { accepting := by
        intro j event' hj
        obtain ⟨u, n, hn, hu⟩ := h.accepting.accepting j event' hj
        exact ⟨u, n, List.mem_cons_of_mem _ hn, hu⟩
      accepted := by
        intro event' l hl
        rcases List.suffix_cons_iff.1 hl with hl | hl
        · cases hl
          exact h.accepting.accepting i event hi
        · exact h.accepting.accepted event' l hl }

theorem outline_accepted {Q : Unit → SchedulerNote → Prop} (hl : l.accepting = some event)
    (hQ : Q () l) : Outline config safe i (perform (SchedulerEffect.accepted event)) l Q := by
  refine Threads.outline_perform fun s notes o x s' hs hn hx => ?_
  replace hx := (handle_of_within hx).1
  cases o with
  | proceed =>
      cases hx
      refine ⟨l, ?_, Threads.outline_pure hQ⟩
      rw [update_self_note hn]
      exact Valid.accept (i := i) hs (by rw [hn]; exact hl)
  | _ => cases hx

/-- **Admitting an event keeps the invariant.** -/
theorem outline_enqueue {Q : Bool → SchedulerNote → Prop}
    (hQ : ∀ b a, Q b { l with accepting := a }) :
    Outline config safe i (enqueue config event priority coalesceKey) l Q := by
  have hl : ∀ b, Q b l := fun b => hQ b l.accepting
  refine outline_bind (outline_access fun s notes hs hn => ?_)
  rcases enqueueEvent_cases config event priority coalesceKey s with h | h | ⟨hd, hroom, h⟩
  · rw [h]
    exact ⟨l, hs.keep (fun _ _ _ hv => hv) hn, Threads.outline_pure (hl _)⟩
  · rw [h]
    exact ⟨l, hs.keep (fun _ _ _ hv => hv.aside hv.traffic.stopped) hn,
      Threads.outline_pure (hl _)⟩
  · rw [h]
    have hs' : Invariant config safe (s.enlist (eventRequest config event priority coalesceKey s))
        notes := Valid.enlist hs (new_eventRequest hd) hroom
    by_cases hrun : event.runId = []
    · exact ⟨l, hs'.keep (fun _ _ _ hv => hv) hn, outline_ite (fun hne => absurd hrun hne)
        fun _ => Threads.outline_pure (hl _)⟩
    · refine ⟨{ l with accepting := some event }, hs'.accepting hn ⟨s.nextRequest, _,
        List.mem_cons_self, ?_⟩, outline_ite (fun _ => outline_bind ?_) fun hne => absurd hrun hne⟩
      · rw [requests_enlist_self]
        exact if_neg hrun
      · exact outline_accepted rfl (Threads.outline_pure (hQ _ _))

end Enqueue

end CoreScheduler
