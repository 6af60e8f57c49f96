/-
**The executor of the core's scheduler.**

The programs of the executor have outlines.  It takes a context for a dialogue, performs one step of
a request, and reports the result; it closes the contexts of dialogues that have ended, and makes
the second context of the manager.

Main results:

* `CoreScheduler.executes_takeManagerContext`, `CoreScheduler.executes_takeContext` — **a request
  gets the context of its dialogue**;
* `CoreScheduler.executes_advance` — **a request is advanced by one step**;
* `CoreScheduler.executes_runJob` — **all operations of the executor keep the invariant**.
-/

import CatAgent.SchedulerOutlines

set_option relaxedAutoImplicit false
set_option autoImplicit false

namespace CoreScheduler

variable {config : SchedulerConfig} {safe : Bool} {α β : Type} {e : ExecutorNote} {u : ℕ}

/-! ### Rules -/

section Rules

variable {Q : α → ExecutorNote → Prop}

/-- The outlines of the executor's programs. -/
def Executes (config : SchedulerConfig) (safe : Bool) (p : SchedulerM α) (e : ExecutorNote)
    (Q : α → ExecutorNote → Prop) : Prop :=
  ∀ l : SchedulerNote, l.executor = e →
    Outline config safe SchedulerThread.executor p l fun a l' => Q a l'.executor

theorem executes_pure {a : α} (h : Q a e) : Executes config safe (pure a) e Q := by
  intro l hl
  subst hl
  exact Threads.outline_pure h

theorem Executes.mono {p : SchedulerM α} {R : α → ExecutorNote → Prop}
    (h : Executes config safe p e Q) (hQ : ∀ a e', Q a e' → R a e') : Executes config safe p e R :=
  fun l hl => (h l hl).mono fun a l' => hQ a l'.executor

theorem executes_bind {Q : β → ExecutorNote → Prop} {p : SchedulerM α} {f : α → SchedulerM β}
    (h : Executes config safe p e fun a e' => Executes config safe (f a) e' Q) :
    Executes config safe (p >>= f) e Q :=
  fun l hl => outline_bind ((h l hl).mono fun _ l' hf => hf l' rfl)

theorem executes_andThen {Q : Except PyStr β → ExecutorNote → Prop}
    {p : SchedulerM (Except PyStr α)} {f : α → SchedulerM (Except PyStr β)}
    (h : Executes config safe p e fun r e' =>
      (∀ msg, r = Except.error msg → Q (Except.error msg) e') ∧
        ∀ a, r = Except.ok a → Executes config safe (f a) e' Q) :
    Executes config safe (andThen p f) e Q :=
  fun l hl => outline_andThen ((h l hl).mono fun _ l' hr =>
    ⟨hr.1, fun a ha => hr.2 a ha l' rfl⟩)

theorem executes_succeed {Q : Except PyStr α → ExecutorNote → Prop} {p : SchedulerM α}
    (h : Executes config safe p e fun a e' => Q (Except.ok a) e') :
    Executes config safe (succeed p) e Q :=
  fun l hl => outline_succeed (h l hl)

theorem executes_ite {c : Prop} [Decidable c] {p q : SchedulerM α}
    (hp : c → Executes config safe p e Q) (hq : ¬ c → Executes config safe q e Q) :
    Executes config safe (if c then p else q) e Q :=
  fun l hl => outline_ite (fun hc => hp hc l hl) fun hc => hq hc l hl

/-- A new note of the executor. -/
theorem invariant_executor {s : CoreScheduler} {notes : SchedulerThread → SchedulerNote}
    {e' : ExecutorNote} (h : Valid config safe s (notes SchedulerThread.driver).driver e'
      fun i => (notes i).accepting) :
    Invariant config safe s (Function.update notes SchedulerThread.executor
      { notes SchedulerThread.executor with executor := e' }) := by
  rw [invariant_update]
  have hevents : (fun j => (if j = SchedulerThread.executor then
      { notes SchedulerThread.executor with executor := e' } else notes j).accepting) =
      fun j => (notes j).accepting := by
    funext j
    split
    next hj => rw [hj]
    next => rfl
  rw [hevents]
  exact h

theorem executes_access {f : CoreScheduler → α × CoreScheduler}
    (h : ∀ s d events, Valid config safe s d e events →
      ∃ e', Valid config safe (f s).2 d e' events ∧ Q (f s).1 e') :
    Executes config safe (access f) e Q := by
  intro l hl
  refine outline_access fun s notes hs hn => ?_
  subst hn hl
  obtain ⟨e', hs', hQ⟩ := h s _ _ hs
  exact ⟨_, invariant_executor hs', hQ⟩

theorem executes_read {f : CoreScheduler → α}
    (h : ∀ s d events, Valid config safe s d e events →
      ∃ e', Valid config safe s d e' events ∧ Q (f s) e') :
    Executes config safe (read f) e Q := executes_access h

theorem executes_update {Q : Unit → ExecutorNote → Prop} {f : CoreScheduler → CoreScheduler}
    (h : ∀ s d events, Valid config safe s d e events →
      ∃ e', Valid config safe (f s) d e' events ∧ Q () e') :
    Executes config safe (update f) e Q := executes_access h

theorem executes_silent {x : SchedulerEffect} (hx : Silent x)
    {Q : x.Answer → ExecutorNote → Prop} (h : ∀ a, Q a e) : Executes config safe (perform x) e Q := by
  intro l hl
  subst hl
  exact outline_silent hx h

/-- After an operation that does not change the shared fields, the executor may forget what it
knew. -/
theorem executes_silent_forget {x : SchedulerEffect} (hx : Silent x)
    {Q : x.Answer → ExecutorNote → Prop}
    (h : ∀ a s d events, Valid config safe s d e events → ∃ e', Valid config safe s d e' events ∧ Q a e') :
    Executes config safe (perform x) e Q := by
  intro l hl
  refine Threads.outline_perform fun s notes o a s' hs hn hx' => ?_
  cases hx SchedulerThread.executor o s a s' (handle_of_within hx').1
  subst hn hl
  obtain ⟨e', hs', hQ⟩ := h a s _ _ hs
  exact ⟨_, invariant_executor hs', Threads.outline_pure hQ⟩

/-- Forking a context. -/
theorem executes_fork {label : PyStr} {Q : Except PyStr ℕ → ExecutorNote → Prop}
    (herror : ∀ msg, Q (Except.error msg) e)
    (hok : ∀ c, Q (Except.ok c) { e with hold := Hold.fresh c }) :
    Executes config safe (perform (SchedulerEffect.forkContext label)) e Q := by
  intro l hl
  refine Threads.outline_perform fun s notes o a s' hs hn hx => ?_
  replace hx := (handle_of_within hx).1
  cases o with
  | outcome r =>
      cases r with
      | error msg =>
          cases hx
          subst hn hl
          refine ⟨_, ?_, Threads.outline_pure (herror msg)⟩
          rwa [Function.update_eq_self]
      | ok b =>
          cases hx
          subst hn hl
          exact ⟨_, invariant_executor (Valid.fork hs), Threads.outline_pure (hok s.nextContext)⟩
  | _ => cases hx

/-- `client.close()` raises nothing that the executor relies on. -/
theorem executes_closeClient {c : ℕ} {Q : Except PyStr Unit → ExecutorNote → Prop}
    (hQ : ∀ r, Q r e) : Executes config safe (perform (SchedulerEffect.closeClient c)) e Q := by
  intro l hl
  subst hl
  refine outline_closeClient (hQ _) fun msg s notes hs hn _ => ⟨l, ?_, hQ _⟩
  rwa [← hn, Function.update_eq_self]

/-- Closing the iterator of a request that remains at the shutdown does not raise in a safe
environment. -/
theorem executes_close {Q : Except PyStr Unit → ExecutorNote → Prop}
    (h : ∀ s d events, Valid config safe s d e events →
      ∀ r, (∀ msg, r = Except.error msg → u ∈ s.remaining → safe = false) → Q r e) :
    Executes config safe (perform (SchedulerEffect.closeIterator u)) e Q := by
  intro l hl
  subst hl
  refine outline_closeIterator fun s notes hs hn r hr => ?_
  subst hn
  exact h s _ _ hs r hr

/-- Resetting a context. -/
theorem executes_reset {c : ℕ} {Q : Except PyStr Unit → ExecutorNote → Prop}
    (herror : ∀ msg, Q (Except.error msg) e)
    (hok : ∀ s d events, Valid config safe s d e events →
      ∃ e', Valid config safe (s.record (SchedulerEvent.based c)) d e' events ∧ Q (Except.ok ()) e') :
    Executes config safe (perform (SchedulerEffect.resetForNewSession c)) e Q := by
  intro l hl
  subst hl
  refine outline_reset herror fun s notes hs hn => ?_
  subst hn
  obtain ⟨e', hs', hQ⟩ := hok s _ _ hs
  exact ⟨_, invariant_executor hs', hQ⟩

/-- The step of a dialogue. -/
theorem executes_dialogueStep {c : ℕ} {key : PyStr} {Q : DialogueStep → ExecutorNote → Prop}
    (h : ∀ r s d events, Valid config safe s d e events →
      ∃ e', Valid config safe (s.record (SchedulerEvent.used c key)) d e' events ∧ Q r e') :
    Executes config safe (perform (SchedulerEffect.dialogueStep u c key)) e Q := by
  intro l hl
  refine Threads.outline_perform fun s notes o a s' hs hn hx => ?_
  replace hx := (handle_of_within hx).1
  cases o with
  | spoke r =>
      cases hx
      subst hn hl
      obtain ⟨e', hs', hQ⟩ := h a s _ _ hs
      exact ⟨_, invariant_executor hs', Threads.outline_pure hQ⟩
  | _ => cases hx

end Rules

/-! ### The contexts of the manager -/

/-- The executor knows the same about the request at hand. -/
structure Near (e e' : ExecutorNote) : Prop where
  job : e'.job = e.job
  stage : e'.stage = e.stage
  system : e'.system = e.system
  task : e'.task = e.task
  talk : e'.talk = e.talk
  key : e'.key = e.key
  releasing : e'.releasing = e.releasing

theorem Near.refl (e : ExecutorNote) : Near e e := ⟨rfl, rfl, rfl, rfl, rfl, rfl, rfl⟩

theorem Near.trans {e₁ e₂ e₃ : ExecutorNote} (h : Near e₁ e₂) (h' : Near e₂ e₃) : Near e₁ e₃ where
  job := h'.job.trans h.job
  stage := h'.stage.trans h.stage
  system := h'.system.trans h.system
  task := h'.task.trans h.task
  talk := h'.talk.trans h.talk
  key := h'.key.trans h.key
  releasing := h'.releasing.trans h.releasing

/-- The executor is at work for a request, or makes KV2. -/
def Making (e : ExecutorNote) : Prop :=
  (∃ u, e.job = some (SchedulerJob.advance u)) ∨ e.job = some SchedulerJob.warmManagerKv2

/-- The executor is done with the pool. -/
def Done (e e' : ExecutorNote) : Prop :=
  Near e e' ∧ e'.missing = e.missing ∧ e'.hold = Hold.nothing

/-- **`_warm_manager_kv2`.** -/
theorem executes_warmManagerKv2 (hj : Making e) (hhold : e.hold = Hold.nothing) :
    Executes config safe warmManagerKv2 e fun r e' =>
      Done e e' ∧ ∀ msg, r = Except.error msg → e'.warming = true := by
  refine executes_bind (executes_access fun s d events hs => ?_)
  by_cases hready : s.managerSlotReady ManagerSlot.kv2 = true
  · rw [if_pos hready]
    exact ⟨e, hs.aside hs.traffic.stopped, executes_ite
      (fun _ => executes_pure ⟨⟨Near.refl e, rfl, hhold⟩, nofun⟩) fun hne => absurd rfl hne⟩
  rw [if_neg hready]
  refine ⟨{ e with warming := true }, hs.know { hs.known with
    warming := fun _ => Bool.not_eq_true _ ▸ hready } rfl rfl,
    executes_ite (fun hyes => absurd hyes nofun) fun _ => ?_⟩
  have hdone : Done e { e with warming := true, hold := Hold.nothing } :=
    ⟨⟨rfl, rfl, rfl, rfl, rfl, rfl, rfl⟩, rfl, rfl⟩
  refine executes_andThen (executes_fork (fun msg => ⟨fun _ _ => ?_, nofun⟩) fun c =>
    ⟨nofun, fun c' hc' => ?_⟩)
  · exact ⟨⟨⟨rfl, rfl, rfl, rfl, rfl, rfl, rfl⟩, rfl, hhold⟩, fun _ _ => rfl⟩
  cases hc'
  refine executes_andThen (executes_silent_forget (silent_setEventHandler c)
    fun r s d events hs => ?_)
  cases r with
  | error msg =>
      exact ⟨_, hs.drop, fun _ _ => ⟨hdone, fun _ _ => rfl⟩, nofun⟩
  | ok a =>
      refine ⟨_, hs, nofun, fun _ _ => executes_bind (executes_access fun s d events hs => ?_)⟩
      have hready := hs.dialogues.warming rfl
      rw [if_neg (by rw [hready]; exact nofun)]
      refine ⟨_, hs.register rfl rfl hj, executes_ite (fun hyes => absurd hyes nofun) fun _ => ?_⟩
      exact executes_pure ⟨⟨⟨rfl, rfl, rfl, rfl, rfl, rfl, rfl⟩, rfl, rfl⟩, nofun⟩

/-- KV1 is the first context of the manager, if there is a pool. -/
theorem Valid.kv1_runtime {s : CoreScheduler} {d : DriverNote}
    {events : SchedulerThread → Option SystemEvent} (h : Valid config safe s d e events) {c : ℕ}
    (hc : s.managerSlots ManagerSlot.kv1 = some c) :
    config.managerPoolEnabled = true ∧ c = runtime := by
  rw [h.pool.kv1] at hc
  split at hc
  next hp => exact ⟨hp, (Option.some.inj hc).symm⟩
  next => cases hc

theorem executes_rebuildKv1 {c : ℕ} (hpool : config.managerPoolEnabled = true) (hc : c = runtime)
    (hr : e.recovering = some false) (hhold : e.hold = Hold.nothing) :
    Executes config safe (rebuildKv1 c) e fun _ e' => Done e e' := by
  have hkv1 : ∀ s d e events, Valid config safe s d e events →
      s.managerSlots ManagerSlot.kv1 = some c := by
    intro s d e events hs
    rw [hs.pool.kv1, if_pos hpool, hc]
  have hdone : Done e e := ⟨Near.refl e, rfl, hhold⟩
  refine executes_andThen (executes_silent (silent_preparePrefix c) fun r =>
    ⟨fun _ _ => hdone, fun _ _ => ?_⟩)
  refine executes_andThen (executes_reset (fun msg => ⟨fun _ _ => hdone, nofun⟩) ?_)
  intro s d events hs
  refine ⟨_, hs.rebased hr (hkv1 s d e events hs), nofun, fun _ _ => ?_⟩
  refine executes_succeed (executes_update fun s d events hs => ?_)
  exact ⟨_, hs.recover rfl (hkv1 s d _ events hs), ⟨rfl, rfl, rfl, rfl, rfl, rfl, rfl⟩, rfl, rfl⟩

/-- **`_recover_manager_kv1`.** -/
theorem executes_recoverManagerKv1 (hr : e.recovering = some false)
    (hhold : e.hold = Hold.nothing) :
    Executes config safe recoverManagerKv1 e fun _ e' => Done e e' := by
  refine executes_bind (executes_read fun s d events hs => ⟨e, hs, ?_⟩)
  cases hc : s.managerSlots ManagerSlot.kv1 with
  | none => exact executes_pure ⟨Near.refl e, rfl, hhold⟩
  | some c =>
      obtain ⟨hpool, hruntime⟩ := hs.kv1_runtime hc
      refine executes_bind ((executes_rebuildKv1 hpool hruntime hr hhold).mono fun _ e' he' => ?_)
      exact executes_pure he'

theorem Done.trans {e₁ e₂ e₃ : ExecutorNote} (h : Done e₁ e₂) (h' : Done e₂ e₃) : Done e₁ e₃ :=
  ⟨h.1.trans h'.1, h'.2.1.trans h.2.1, h'.2.2⟩

/-- `_ensure_manager_kv2_for_request`. -/
theorem executes_ensureManagerKv2ForRequest (hj : Making e) (hhold : e.hold = Hold.nothing) :
    Executes config safe ensureManagerKv2ForRequest e fun _ e' => Done e e' := by
  refine executes_bind (executes_access fun s d events hs => ?_)
  by_cases hready : s.managerSlotReady ManagerSlot.kv2 = true
  · rw [if_pos hready]
    exact ⟨e, hs, executes_ite (fun _ => executes_pure ⟨Near.refl e, rfl, hhold⟩)
      fun hne => absurd rfl hne⟩
  rw [if_neg hready]
  refine ⟨e, hs.aside hs.traffic.stopped, executes_ite (fun hyes => absurd hyes nofun) fun _ => ?_⟩
  refine executes_bind ((executes_warmManagerKv2 hj hhold).mono fun r e' he' => ?_)
  cases r with
  | ok a => exact executes_pure he'.1
  | error msg =>
      refine executes_bind (executes_update fun s d events hs => ?_)
      refine ⟨_, hs.loseKv2 (he'.2 msg rfl), executes_pure (he'.1.trans ?_)⟩
      exact ⟨⟨rfl, rfl, rfl, rfl, rfl, rfl, rfl⟩, rfl, he'.1.2.2⟩

/-- The executor holds a context that it is about to give to a dialogue, or there is none. -/
def Taken (e : ExecutorNote) (r : Except PyStr ℕ) (e' : ExecutorNote) : Prop :=
  Near e e' ∧ e'.missing = e.missing ∧
    (∀ c, r = Except.ok c → ∃ slot, e'.hold = Hold.pooled c slot true) ∧
    ∀ msg, r = Except.error msg → e'.hold = Hold.nothing

/-- `_take_manager_context`. -/
theorem executes_takeAvailable {Q : Option ℕ → ExecutorNote → Prop}
    (hnone : Q none e) (hsome : ∀ c slot, Q (some c) { e with hold := Hold.pooled c slot true }) :
    Executes config safe (access takeAvailable) e Q := by
  refine executes_access fun s d events hs => ?_
  unfold takeAvailable
  cases ha : s.managerAvailable with
  | nil => exact ⟨e, hs, hnone⟩
  | cons c rest =>
      obtain ⟨slot, hs'⟩ := hs.take ha
      exact ⟨_, hs', hsome c slot⟩

/-- A context of the pool is chosen, after KV1 has been looked after. -/
theorem executes_choose (hj : Making e) {e' : ExecutorNote} (hd : Done e e') :
    Executes config safe (do
      match ← access takeAvailable with
      | some context => return Except.ok context
      | none =>
          if ← read fun s => s.managerSlotReady ManagerSlot.kv2 then return occupied none
          else
            andThen ensureManagerKv2ForRequest fun _ => do
              let context ← access takeAvailable
              return occupied context) e' fun r e'' => Taken e r e'' := by
  obtain ⟨hnear, hmissing, hhold'⟩ := hd
  have hfailed : ∀ msg e'', Done e' e'' → Taken e (Except.error msg) e'' := by
    rintro msg e'' ⟨hn, hm, hh⟩
    exact ⟨hnear.trans hn, hm.trans hmissing, (by simp), fun _ _ => hh⟩
  have hgot : ∀ c slot e'', Done e' e'' →
      Taken e (Except.ok c) { e'' with hold := Hold.pooled c slot true } := by
    rintro c slot e'' ⟨hn, hm, hh⟩
    refine ⟨hnear.trans ⟨hn.job, hn.stage, hn.system, hn.task, hn.talk, hn.key, hn.releasing⟩,
      hm.trans hmissing, ?_, (by simp)⟩
    intro c' hc'
    cases hc'
    exact ⟨slot, rfl⟩
  have hsame : Done e' e' := ⟨Near.refl e', rfl, hhold'⟩
  refine executes_bind (executes_takeAvailable ?_ fun c slot => ?_)
  · refine executes_bind (executes_read fun s d events hs => ⟨e', hs, ?_⟩)
    refine executes_ite (fun _ => executes_pure (hfailed _ e' hsame)) fun _ => ?_
    have hj' : Making e' := by
      unfold Making
      rw [hnear.job]
      exact hj
    refine executes_andThen ((executes_ensureManagerKv2ForRequest hj' hhold').mono
      fun r e'' he'' => ⟨fun msg _ => hfailed msg e'' he'', fun _ _ => ?_⟩)
    refine executes_bind (executes_takeAvailable ?_ fun c slot => ?_)
    · exact executes_pure (hfailed _ e'' he'')
    · exact executes_pure (hgot c slot e'' he'')
  · exact executes_pure (hgot c slot e' hsame)

/-- **A context of the pool is taken.** -/
theorem executes_takeManagerContext (hj : Making e) (hhold : e.hold = Hold.nothing) :
    Executes config safe takeManagerContext e fun r e' => Taken e r e' := by
  refine executes_bind (executes_read fun s d events hs => ?_)
  by_cases hready : s.managerSlotReady ManagerSlot.kv1 = true
  · refine ⟨e, hs, executes_ite (fun hyes => ?_) fun _ =>
      executes_choose hj ⟨Near.refl e, rfl, hhold⟩⟩
    rw [hready] at hyes
    cases hyes
  · have hfalse := Bool.not_eq_true _ ▸ hready
    refine ⟨{ e with recovering := some false }, hs.know { hs.known with
      recovering := ?_ } rfl rfl, executes_ite (fun _ => ?_) fun hne => ?_⟩
    · intro b hb
      cases hb
      exact ⟨hfalse, (by simp)⟩
    · refine executes_bind ((executes_recoverManagerKv1
        (e := { e with recovering := some false }) rfl hhold).mono fun _ e' he' => ?_)
      have hself : Done e { e with recovering := some false } :=
        ⟨⟨rfl, rfl, rfl, rfl, rfl, rfl, rfl⟩, rfl, hhold⟩
      exact executes_choose hj (Done.trans hself he')
    · rw [hfalse] at hne
      exact absurd rfl hne

/-! ### The context of a dialogue -/

/-- The executor is done with the context of a dialogue, or has failed to get one. -/
def Served (e e' : ExecutorNote) : Prop := Near e e' ∧ e'.hold = Hold.nothing

theorem Served.trans {e₁ e₂ e₃ : ExecutorNote} (h : Served e₁ e₂) (h' : Served e₂ e₃) :
    Served e₁ e₃ := ⟨h.1.trans h'.1, h'.2⟩

/-- The entry of `_contexts` that `_context` makes. -/
theorem executes_newContext {item : PriorityRequest} {key : PyStr}
    (hj : e.job = some (SchedulerJob.advance u)) (hmissing : e.missing = some key)
    (hhold : e.hold = Hold.nothing) :
    Executes config safe (newContext config item key) e fun _ e' => Served e e' := by
  have hsame : Served e e := ⟨Near.refl e, hhold⟩
  refine executes_ite (fun _ => ?_) fun _ => executes_ite (fun _ => ?_) fun hforks => ?_
  · refine executes_andThen ((executes_takeManagerContext (Or.inl ⟨u, hj⟩) hhold).mono
      fun r e' he' => ⟨fun msg hm => ⟨he'.1, he'.2.2.2 msg hm⟩, fun c hc => ?_⟩)
    obtain ⟨slot, hslot⟩ := he'.2.2.1 c hc
    refine executes_succeed (executes_update fun s d events hs => ?_)
    have hnone := hs.dialogues.missing key (he'.2.1.trans hmissing)
    refine ⟨_, hs.assign hslot hnone, he'.1.trans ⟨rfl, rfl, rfl, rfl, rfl, rfl, rfl⟩, rfl⟩
  · refine executes_andThen (executes_fork (fun msg => ⟨fun _ _ => hsame, nofun⟩) fun c =>
      ⟨nofun, fun c' hc => ?_⟩)
    cases hc
    refine executes_succeed (executes_update fun s d events hs => ?_)
    exact ⟨_, hs.assignFresh rfl (hs.dialogues.missing key hmissing),
      ⟨rfl, rfl, rfl, rfl, rfl, rfl, rfl⟩, rfl⟩
  · refine executes_succeed (executes_update fun s d events hs => ?_)
    exact ⟨_, hs.assignRuntime hforks (hs.dialogues.missing key hmissing),
      ⟨rfl, rfl, rfl, rfl, rfl, rfl, rfl⟩, rfl⟩

theorem executes_makeContext {item : PriorityRequest} {key : PyStr}
    (hj : e.job = some (SchedulerJob.advance u)) (hmissing : e.missing = some key)
    (hhold : e.hold = Hold.nothing) :
    Executes config safe (makeContext config item key) e fun _ e' => Served e e' := by
  refine executes_andThen ((executes_newContext hj hmissing hhold).mono
    fun r e' he' => ⟨fun _ _ => he', fun _ _ => ?_⟩)
  refine executes_ite (fun _ => ?_) fun _ => executes_pure he'
  refine executes_andThen (executes_read fun s d events hs =>
    ⟨e', hs, fun _ _ => he', fun c _ => ?_⟩)
  exact executes_silent (silent_setEventHandler c) fun _ => he'

/-- What the executor knows when it has begun with a request that may talk. -/
structure Talking (u : ℕ) (key : PyStr) (e : ExecutorNote) : Prop where
  job : e.job = some (SchedulerJob.advance u)
  stage : e.stage = AdvanceStage.started
  talk : e.talk = true
  key : e.key = some key
  releasing : e.releasing = none
  hold : e.hold = Hold.nothing

theorem Talking.served {key : PyStr} {e' : ExecutorNote} (h : Talking u key e)
    (he : Served e e') : Talking u key e' where
  job := he.1.job.trans h.job
  stage := he.1.stage.trans h.stage
  talk := he.1.talk.trans h.talk
  key := he.1.key.trans h.key
  releasing := he.1.releasing.trans h.releasing
  hold := he.2

theorem executes_giveContext {key : PyStr} (h : Talking u key e) :
    Executes config safe (giveContext u key) e fun r e' =>
      Talking u key e' ∧ ∀ c, r = Except.ok c → e'.context = some c := by
  refine executes_access fun s d events hs => ?_
  refine ⟨_, hs.give h.job h.stage h.talk h.key h.releasing,
    ⟨h.job, h.stage, h.talk, h.key, h.releasing, h.hold⟩, ?_⟩
  intro c hc
  unfold contextOf at hc
  split at hc
  next c' hget =>
    cases hc
    exact hget
  next => cases hc

/-- **`_context` gives the request at hand the context of its dialogue.** -/
theorem executes_takeContext {key : PyStr} (h : Talking u key e) :
    Executes config safe (takeContext config u) e fun r e' =>
      Talking u key e' ∧ ∀ c, r = Except.ok c → e'.context = some c := by
  refine executes_bind (executes_read fun s d events hs => ⟨e, hs, ?_⟩)
  have hkey : contextKey (s.requests u) = key := hs.dialogues.key u key h.job h.key
  simp only
  rw [hkey]
  refine executes_bind (executes_read fun s' d events hs' => ?_)
  by_cases hnone : s'.contexts.get? key = none
  · refine ⟨{ e with missing := some key }, hs'.know { hs'.known with
      missing := ?_ } rfl rfl, executes_ite (fun _ => ?_) fun hne => ?_⟩
    · intro key' hk
      cases hk
      exact hnone
    · have hnear : Served e { e with missing := some key } :=
        ⟨⟨rfl, rfl, rfl, rfl, rfl, rfl, rfl⟩, h.hold⟩
      refine executes_andThen ((executes_makeContext (u := u)
        (e := { e with missing := some key }) h.job rfl h.hold).mono
        fun r e' he' => ⟨fun _ _ => ⟨h.served (hnear.trans he'), (by simp)⟩, fun _ _ => ?_⟩)
      exact executes_giveContext (h.served (hnear.trans he'))
    · exact absurd (decide_eq_true hnone) hne
  · refine ⟨e, hs', executes_ite (fun hyes => ?_) fun _ => executes_giveContext h⟩
    exact absurd (of_decide_eq_true hyes) hnone

/-! ### One step of a request -/

/-- The iterator of a request that has one moves on. -/
theorem Valid.moveIterator {s : CoreScheduler} {d : DriverNote}
    {events : SchedulerThread → Option SystemEvent} (h : Valid config safe s d e events)
    {iterator : StepsIterator} (hj : e.job.bind requestOf = some u)
    (hs : e.stage = AdvanceStage.started)
    (htask : iterator = StepsIterator.task → Activation (s.requests u)) :
    Valid config safe (s.modify u fun item => { item with iterator := some iterator }) d e events := by
  have hold : (s.requests u).iterator ≠ none := h.queue.started u hj hs
  refine h.modify ⟨⟨rfl, rfl, rfl, rfl, rfl, rfl, rfl, id⟩, ?_⟩ rfl fun ht => ?_
  · exact iff_of_false nofun hold
  · exact Or.inr (htask (Option.some.inj ht))

/-- What is known of the result of a step: if it did not raise, what it says about the request. -/
def Stepped (u : ℕ) (r : Except PyStr Advanced) (e : ExecutorNote) : Prop :=
  e.job = some (SchedulerJob.advance u) ∧ e.hold = Hold.nothing ∧
    (∀ a, r = Except.ok a → Reported e a) ∧
    ∀ msg, r = Except.error msg → e.stage = AdvanceStage.started

theorem Talking.stepped {key : PyStr} (h : Talking u key e) {r : Except PyStr Advanced}
    (hr : ∀ c, r ≠ Except.ok (Advanced.completion c)) : Stepped u r e := by
  refine ⟨h.job, h.hold, fun a ha => ?_, fun _ _ => h.stage⟩
  cases a with
  | paused => exact Or.inr h.stage
  | turn t => exact Or.inr h.stage
  | completion c => exact absurd ha (hr c)

/-- The iterator of a dialogue moves on, and the step ends. -/
theorem executes_endTalk {key : PyStr} (h : Talking u key e) {iterator : StepsIterator}
    (hi : iterator ≠ StepsIterator.task) {r : Except PyStr Advanced}
    (hr : ∀ c, r ≠ Except.ok (Advanced.completion c)) :
    Executes config safe (setIterator u iterator >>= fun _ => pure r) e fun r e' => Stepped u r e' := by
  refine executes_bind (executes_update fun s d events hs => ?_)
  exact ⟨e, hs.moveIterator (by rw [h.job]; rfl) h.stage fun ht => absurd ht hi,
    executes_pure (h.stepped hr)⟩

/-- **A step of a dialogue.** -/
theorem executes_stepDialogue {key : PyStr} {c : ℕ} (h : Talking u key e)
    (hc : e.context = some c) :
    Executes config safe (stepDialogue u c key) e fun r e' => Stepped u r e' := by
  refine executes_bind (executes_dialogueStep fun r s d events hs => ?_)
  refine ⟨_, hs.use h.job hc h.key, ?_⟩
  have h' : Talking u key { e with recovering := none } :=
    ⟨h.job, h.stage, h.talk, h.key, h.releasing, h.hold⟩
  cases r with
  | raised msg => exact executes_endTalk h' (by simp) (by simp)
  | returned t => exact executes_endTalk h' (by simp) (by simp)
  | paused => exact executes_endTalk h' (by simp) (by simp)

/-- The start of a dialogue. -/
theorem executes_startDialogue {item : PriorityRequest} (h : Talking u (contextKey item) e) :
    Executes config safe (startDialogue config u item) e fun r e' => Stepped u r e' := by
  refine executes_bind ((executes_takeContext h).mono fun r e' he' => ?_)
  cases r with
  | error msg => exact executes_endTalk he'.1 (by simp) (by simp)
  | ok c => exact executes_stepDialogue he'.1 (he'.2 c rfl)

/-- What the executor knows when it has begun with the activation of a task. -/
structure Tasking (u : ℕ) (e : ExecutorNote) : Prop where
  job : e.job = some (SchedulerJob.advance u)
  stage : e.stage = AdvanceStage.started
  task : e.task = true
  hold : e.hold = Hold.nothing

theorem Tasking.stepped (h : Tasking u e) (r : Except PyStr Advanced) : Stepped u r e := by
  refine ⟨h.job, h.hold, fun a _ => ?_, fun _ _ => h.stage⟩
  cases a with
  | paused => exact Or.inr h.stage
  | turn t => exact Or.inr h.stage
  | completion c => exact h.task

/-- The iterator of a task moves on, and the step ends. -/
theorem executes_endTask (h : Tasking u e) {iterator : StepsIterator}
    {r : Except PyStr Advanced} :
    Executes config safe (setIterator u iterator >>= fun _ => pure r) e fun r e' => Stepped u r e' := by
  refine executes_bind (executes_update fun s d events hs => ?_)
  exact ⟨e, hs.moveIterator (by rw [h.job]; rfl) h.stage fun _ =>
    hs.queue.activation u h.job h.task, executes_pure (h.stepped r)⟩

/-- **A step of a task.** -/
theorem executes_stepTask (h : Tasking u e) :
    Executes config safe (stepTask u) e fun r e' => Stepped u r e' := by
  refine executes_bind (executes_silent (silent_stepAutonomousTask u) fun r => ?_)
  cases r with
  | raised msg => exact executes_endTask h
  | completed c => exact executes_endTask h
  | paused => exact executes_endTask h

theorem executes_startTask {event : SystemEvent} (h : Tasking u e) :
    Executes config safe (startTask u event) e fun r e' => Stepped u r e' := by
  refine executes_bind (executes_silent (silent_beginAutonomousTask u event) fun r => ?_)
  cases r with
  | raised msg => exact executes_endTask h
  | completed c => exact executes_endTask h
  | execution => exact executes_stepTask h

/-- The start of the steps of a request without a task. -/
theorem executes_startSteps_talk {item : PriorityRequest} (h : Talking u (contextKey item) e)
    (ha : ¬ Activation item) :
    Executes config safe (startSteps config u item) e fun r e' => Stepped u r e' := by
  unfold startSteps
  split
  next event hkind hpayload =>
    refine executes_ite (fun _ => executes_startDialogue h) fun hne => ?_
    refine absurd ⟨hkind, ?_⟩ ha
    rw [hpayload]
    exact hne
  next => exact executes_startDialogue h

/-- The start of the steps of a task. -/
theorem executes_startSteps_task {item : PriorityRequest} (h : Tasking u e)
    (ha : Activation item) :
    Executes config safe (startSteps config u item) e fun r e' => Stepped u r e' := by
  obtain ⟨hkind, htask⟩ := ha
  unfold startSteps
  rw [hkind]
  cases hpayload : item.payload with
  | text text =>
      rw [hpayload] at htask
      exact absurd rfl htask
  | queryResult taskId result =>
      rw [hpayload] at htask
      exact absurd rfl htask
  | event event =>
      rw [hpayload] at htask
      exact executes_ite (fun hnone => absurd hnone htask) fun _ => executes_startTask h

/-- The note of an executor that has looked at a request without a task. -/
def talkNote (item : PriorityRequest) (e : ExecutorNote) : ExecutorNote :=
  { e with talk := true, key := some (contextKey item), context := item.context }

/-- **`next(item.iterator)`.** -/
theorem executes_nextStep (hj : e.job = some (SchedulerJob.advance u))
    (hs : e.stage = AdvanceStage.started) (hr : e.releasing = none)
    (hhold : e.hold = Hold.nothing) :
    Executes config safe (nextStep config u) e fun r e' => Stepped u r e' := by
  refine executes_bind (executes_read fun s d events hv => ?_)
  by_cases ha : Activation (s.requests u)
  · -- A task has no context.
    refine ⟨{ e with task := true }, hv.know { hv.known with
      activation := ?_ } rfl rfl, ?_⟩
    · intro v hv' _
      rw [eq_of_job hj hv']
      exact ha
    have h : Tasking u { e with task := true } := ⟨hj, hs, rfl, hhold⟩
    have hcontext : (s.requests u).context = none := hv.queue.task u ha.1 ha.2
    have hsilent : Executes config safe (pure (Except.ok (Advanced.turn ManagerTurn.silent)))
        { e with task := true } fun r e' => Stepped u r e' := executes_pure (h.stepped _)
    cases hi : (s.requests u).iterator with
    | none => exact hsilent
    | some it =>
        rw [hcontext]
        cases it with
        | fresh => exact executes_startSteps_task h ha
        | task => exact executes_stepTask h
        | dialogue => exact hsilent
        | ended => exact hsilent
  · refine ⟨talkNote (s.requests u) e, hv.know { hv.known with
        talk := ?_
        key := ?_
        context := ?_ } rfl rfl, ?_⟩
    · intro v hv' _ hkind
      rw [eq_of_job hj hv'] at hkind ⊢
      by_contra ht
      exact ha ⟨hkind, ht⟩
    · intro v key hv' hk
      rw [eq_of_job hj hv']
      exact Option.some.inj hk
    · intro v c hv' hc
      rw [eq_of_job hj hv']
      exact hc
    have h : Talking u (contextKey (s.requests u)) (talkNote (s.requests u) e) :=
      ⟨hj, hs, rfl, rfl, hr, hhold⟩
    have hsilent : Executes config safe (pure (Except.ok (Advanced.turn ManagerTurn.silent)))
        (talkNote (s.requests u) e) fun r e' => Stepped u r e' :=
      executes_pure (h.stepped (by simp))
    cases hi : (s.requests u).iterator with
    | none => exact hsilent
    | some it =>
        cases it with
        | fresh => exact executes_startSteps_talk h ha
        | task => exact absurd (hv.queue.iterator u hi) ha
        | dialogue =>
            cases hc : (s.requests u).context with
            | none => exact hsilent
            | some c => exact executes_stepDialogue h hc
        | ended => exact hsilent

/-! ### Advancing a request -/

/-- What is left of a note after a request has been discarded; `safe` says that the environment is
safe. -/
def Discarded (safe : Bool) (e : ExecutorNote) (r : Except PyStr Unit) (e' : ExecutorNote) : Prop :=
  e'.job = e.job ∧ e'.hold = e.hold ∧
    (e'.stage = e.stage ∨ e'.stage = AdvanceStage.started) ∧
    ∀ msg, r = Except.error msg → e'.stage = AdvanceStage.started ∧
      ∀ u, e.job = some (SchedulerJob.discard u) → safe = false

/-- The request that is discarded at the shutdown is among those that remain. -/
theorem Valid.remaining_of_discard {s : CoreScheduler} {d : DriverNote}
    {events : SchedulerThread → Option SystemEvent} (h : Valid config safe s d e events)
    (hj : e.job = some (SchedulerJob.discard u)) : u ∈ s.remaining := by
  obtain ⟨_, l, hl, hhead⟩ := h.traffic.shut (SchedulerJob.discard u) (by simp [work, hj]) rfl
  refine h.ordered.kept u ?_
  rw [hl]
  exact List.mem_of_mem_head? hhead

/-- `item.iterator.close()`, if there is an iterator. -/
theorem executes_closeIterator {item : PriorityRequest} (hj : e.job.bind requestOf = some u)
    (hs : item.iterator ≠ none → e.stage = AdvanceStage.started) :
    Executes config safe (closeIterator u item) e fun r e' => Discarded safe e r e' := by
  refine executes_ite (fun _ => executes_pure ⟨rfl, rfl, Or.inl rfl, nofun⟩) fun hi => ?_
  refine executes_bind (executes_close fun s d events hv r hr => ?_)
  have hraised : ∀ msg, r = Except.error msg → ∀ v, e.job = some (SchedulerJob.discard v) →
      safe = false := by
    intro msg hm v hv'
    rw [hv'] at hj
    cases hj
    exact hr msg hm (hv.remaining_of_discard hv')
  refine executes_bind (executes_update fun s d events hv => ?_)
  exact ⟨e, hv.moveIterator hj (hs hi) (by simp),
    executes_pure ⟨rfl, rfl, Or.inl rfl, fun msg hm => ⟨hs hi, hraised msg hm⟩⟩⟩

/-- `_discard`, once it is known whether there is an iterator. -/
theorem executes_closeAndAbort {item : PriorityRequest} {e' : ExecutorNote}
    (hd : Discarded safe e (Except.ok ()) e') (hj : e'.job.bind requestOf = some u)
    (hs : item.iterator ≠ none → e'.stage = AdvanceStage.started) :
    Executes config safe (andThen (closeIterator u item) fun _ =>
      match item.context with
      | none => return Except.ok ()
      | some context => succeed (perform (SchedulerEffect.abortContext context))) e'
      fun r e'' => Discarded safe e r e'' := by
  obtain ⟨hjob, hhold, hstage, -⟩ := hd
  refine executes_andThen ((executes_closeIterator hj hs).mono fun r e'' he'' => ?_)
  obtain ⟨hjob', hhold', hstage', herror⟩ := he''
  have hstage'' : e''.stage = e.stage ∨ e''.stage = AdvanceStage.started := by
    rcases hstage' with hstage' | hstage'
    · rw [hstage']
      exact hstage
    · exact Or.inr hstage'
  refine ⟨fun msg hm => ?_, fun a _ => ?_⟩
  · refine ⟨hjob'.trans hjob, hhold'.trans hhold, hstage'', fun _ _ => ⟨(herror msg hm).1, ?_⟩⟩
    exact fun v hv => (herror msg hm).2 v (hjob.trans hv)
  · cases item.context with
    | none => exact executes_pure ⟨hjob'.trans hjob, hhold'.trans hhold, hstage'', (by simp)⟩
    | some c =>
        exact executes_succeed (executes_silent (silent_abortContext c) fun _ =>
          ⟨hjob'.trans hjob, hhold'.trans hhold, hstage'', (by simp)⟩)

/-- **`_discard`.** -/
theorem executes_discard (hj : e.job.bind requestOf = some u) :
    Executes config safe (discard u) e fun r e' => Discarded safe e r e' := by
  refine executes_bind (executes_read fun s d events hv => ?_)
  by_cases hi : (s.requests u).iterator = none
  · exact ⟨e, hv, executes_closeAndAbort ⟨rfl, rfl, Or.inl rfl, by simp⟩ hj
      fun hne => absurd hi hne⟩
  · refine ⟨{ e with stage := AdvanceStage.started }, hv.know { hv.known with
      permitted := by simp
      started := ?_ } rfl rfl, executes_closeAndAbort ⟨rfl, rfl, Or.inr rfl, by simp⟩ hj
        fun _ => rfl⟩
    intro v hv' _
    have hv' : e.job.bind requestOf = some v := hv'
    rw [hj] at hv'
    cases hv'
    exact hi

/-- What the executor knows after it has asked for the grant of a run. -/
structure Checked (e : ExecutorNote) (r : Except PyStr Bool) (e' : ExecutorNote) : Prop where
  job : e'.job = e.job
  releasing : e'.releasing = e.releasing
  hold : e'.hold = e.hold
  answer : r = Except.ok true ∨ r = Except.ok false ∧ e'.system = true

/-- **The grant of a run is asked for, or waits for the service.** -/
theorem executes_checkGrant (hj : e.job = some (SchedulerJob.advance u)) :
    Executes config safe (checkGrant u) e fun r e' => Checked e r e' := by
  have hyes : ∀ e' : ExecutorNote, e'.job = e.job → e'.releasing = e.releasing →
      e'.hold = e.hold → Checked e (Except.ok true) e' := fun e' h₁ h₂ h₃ =>
    ⟨h₁, h₂, h₃, Or.inl rfl⟩
  refine executes_bind (executes_read fun s d events hv => ?_)
  cases hrun : (s.requests u).taskRun with
  | none => exact ⟨e, hv, executes_pure (hyes e rfl rfl rfl)⟩
  | some event =>
      -- A user's request has no grant.
      refine ⟨{ e with system := true }, hv.know { hv.known with system := ?_ } rfl rfl, ?_⟩
      · intro v hv' _ hu
        rw [eq_of_job hj hv'] at hu
        rw [hv.queue.runs u hu] at hrun
        cases hrun
      refine executes_ite (fun _ => executes_pure (hyes _ rfl rfl rfl)) fun _ => ?_
      have hask : ∀ Q : Except PyStr Bool → ExecutorNote → Prop,
          (∀ r, Q r { e with system := true }) →
          Executes config safe (askGrant event (s.requests u).taskStarted)
            { e with system := true } Q := by
        intro Q hQ
        exact executes_ite (fun _ => executes_silent (silent_validRun event) hQ)
          fun _ => executes_silent (silent_beginRun event) hQ
      refine executes_bind (hask _ fun r => ?_)
      cases r with
      | error msg => exact executes_pure ⟨rfl, rfl, rfl, Or.inr ⟨rfl, rfl⟩⟩
      | ok allowed =>
          refine executes_bind (executes_update fun s d events hv => ?_)
          refine ⟨_, hv.modify ?_ ?_ ?_, executes_pure (hyes _ rfl rfl rfl)⟩
          · cases allowed with
            | true => exact ⟨⟨rfl, rfl, rfl, rfl, rfl, rfl, rfl, id⟩, Iff.rfl⟩
            | false => exact ⟨⟨rfl, rfl, rfl, rfl, rfl, rfl, rfl, fun _ => rfl⟩, Iff.rfl⟩
          · cases allowed <;> rfl
          · cases allowed <;> exact Or.inl

theorem modify_congr {s : CoreScheduler} {f g : PriorityRequest → PriorityRequest}
    (h : f (s.requests u) = g (s.requests u)) : s.modify u f = s.modify u g := by
  unfold CoreScheduler.modify
  rw [h]

theorem modify_same {s : CoreScheduler} {f : PriorityRequest → PriorityRequest}
    (h : f (s.requests u) = s.requests u) : s.modify u f = s := by
  unfold CoreScheduler.modify
  rw [h, Function.update_eq_self]

/-- The request at hand gets an iterator, unless it has one. -/
theorem Valid.permit {s : CoreScheduler} {d : DriverNote}
    {events : SchedulerThread → Option SystemEvent} (h : Valid config safe s d e events)
    (hj : e.job = some (SchedulerJob.advance u)) (hs : e.stage = AdvanceStage.permitted) :
    Valid config safe (s.modify u fun item =>
      { item with iterator := item.iterator.or (some StepsIterator.fresh) }) d
      { e with stage := AdvanceStage.started } events := by
  cases hi : (s.requests u).iterator with
  | none =>
      have hbegin : (s.modify u fun item =>
          { item with iterator := item.iterator.or (some StepsIterator.fresh) }) = s.begin u := by
        refine modify_congr ?_
        rw [hi]
        rfl
      rw [hbegin]
      exact h.begin hj hs hi
  | some it =>
      have hsame : (s.modify u fun item =>
          { item with iterator := item.iterator.or (some StepsIterator.fresh) }) = s := by
        refine modify_same ?_
        rw [hi]
        exact congrArg (fun it => { s.requests u with iterator := it }) hi.symm
      rw [hsame]
      refine h.know { h.known with
        permitted := by simp
        started := ?_ } rfl rfl
      intro v hv _
      have hv : e.job.bind requestOf = some v := hv
      rw [hj] at hv
      cases hv
      rw [hi]
      exact nofun

/-- **The body of the `try` in `_advance`.** -/
theorem executes_advanceBody (hj : e.job = some (SchedulerJob.advance u))
    (hr : e.releasing = none) (hhold : e.hold = Hold.nothing) :
    Executes config safe (advanceBody config u) e fun r e' => Stepped u r e' := by
  refine executes_andThen ((executes_checkGrant hj).mono fun r e' he' => ⟨?_, fun b hb => ?_⟩)
  · rintro msg rfl
    rcases he'.answer with ha | ⟨ha, -⟩ <;> cases ha
  subst hb
  have hj' := he'.job.trans hj
  have hhold' := he'.hold.trans hhold
  cases b with
  | false =>
      have hsystem : e'.system = true := by
        rcases he'.answer with ha | ⟨-, hs⟩
        · cases ha
        · exact hs
      refine executes_pure ⟨hj', hhold', fun a ha => ?_, nofun⟩
      cases ha
      exact Or.inl hsystem
  | true =>
      refine executes_bind (executes_read fun s d events hv => ?_)
      by_cases hc : (s.requests u).cancelled = true
      · refine ⟨e', hv, executes_ite (fun _ => ?_) fun hne => absurd hc hne⟩
        refine executes_andThen ((executes_discard (by rw [hj']; rfl)).mono
          fun r e'' he'' => ⟨fun msg hm => ?_, fun a _ => executes_pure ?_⟩)
        · exact ⟨he''.1.trans hj', he''.2.1.trans hhold', nofun, fun _ _ => (he''.2.2.2 msg hm).1⟩
        · refine ⟨he''.1.trans hj', he''.2.1.trans hhold', fun a ha => ?_, nofun⟩
          cases ha
          exact Or.inl rfl
      · obtain ⟨hactive, hfuture, -⟩ := hv.atHand hj'
        refine ⟨{ e' with stage := AdvanceStage.permitted }, hv.know { hv.known with
          permitted := ?_
          started := by simp } rfl rfl, executes_ite (fun hyes => absurd hyes hc) fun _ => ?_⟩
        · intro v hv' _
          rw [eq_of_job hj' hv']
          exact ⟨(hv.queue.startable u hactive hfuture).resolve_left hc, fun hu =>
            (hv.ordered.ready u hactive hfuture hu).resolve_left hc⟩
        · refine executes_bind (executes_update fun s d events hv => ?_)
          exact ⟨_, hv.permit hj' rfl,
            executes_nextStep hj' rfl (he'.releasing.trans hr) hhold'⟩

/-- **`_advance` reports a result that fits the request.** -/
theorem executes_advance (hj : e.job = some (SchedulerJob.advance u))
    (hr : e.releasing = none) (hhold : e.hold = Hold.nothing) :
    Executes config safe (advance config u) e fun r e' =>
      e'.job = some (SchedulerJob.advance u) ∧ Reported e' (resultOf r) := by
  refine executes_bind ((executes_advanceBody hj hr hhold).mono fun r e' he' => ?_)
  obtain ⟨hj', hhold', hok, herror⟩ := he'
  cases r with
  | ok a => exact executes_pure ⟨hj', hok a rfl⟩
  | error msg =>
      have hstage := herror msg rfl
      refine executes_andThen ((executes_discard (by rw [hj']; rfl)).mono
        fun r e'' he'' => ?_)
      have hstage' : e''.stage = AdvanceStage.started := by
        rcases he''.2.2.1 with h | h
        · exact h.trans hstage
        · exact h
      exact ⟨fun _ _ => ⟨he''.1.trans hj', Or.inr hstage'⟩, fun _ _ =>
        executes_pure ⟨he''.1.trans hj', Or.inr hstage'⟩⟩

/-! ### The operations -/

/-- Only the requests of a session belong to its dialogue. -/
theorem sessionId_of_contextKey {item : PriorityRequest} {sessionId : PyStr}
    (h : contextKey item = humanKey sessionId) : item.sessionId = sessionId := by
  unfold contextKey at h
  split at h
  · exact absurd h.symm (humanKey_ne_voice sessionId)
  · split at h
    · exact List.append_cancel_left h
    · have hhead := congrArg List.head? h
      rw [humanKey, List.head?_append_of_ne_nil _ (by decide)] at hhead
      exact absurd hhead (by decide)

/-- **`_release_context`.** -/
theorem executes_releaseContext {sessionId : PyStr} (hhold : e.hold = Hold.nothing) :
    Executes config safe (releaseContext sessionId) e fun _ _ => True := by
  refine executes_bind (executes_read fun s d events hv => ?_)
  by_cases hlive : (s.live.any fun u => decide ((s.requests u).sessionId = sessionId)) = true
  · exact ⟨e, hv, executes_ite (fun _ => executes_pure trivial) fun hne => absurd hlive hne⟩
  refine ⟨{ e with releasing := some (humanKey sessionId) }, hv.know { hv.known with
    releasing := ?_ } rfl rfl, executes_ite (fun hyes => absurd hyes hlive) fun _ => ?_⟩
  · intro key hk u hu hkey
    cases hk
    refine absurd ?_ hlive
    rw [List.any_eq_true]
    exact ⟨u, hu, decide_eq_true (sessionId_of_contextKey hkey)⟩
  -- Nobody who is still to be served belongs to the dialogue with a context.
  have hclose : Executes config safe (closeContext (humanKey sessionId))
      { e with releasing := some (humanKey sessionId) } fun _ _ => True := by
    intro l hl
    have hmay : MayHold SchedulerThread.executor l := trivial
    refine outline_closeContext hmay (show l.executor.hold = Hold.nothing by rw [hl]; exact hhold)
      ?_ trivial fun _ s notes hs hn _ => ⟨l, (update_self_note hn).symm ▸ hs, trivial⟩
    intro s notes hs hn v hv' hk
    have hlive : v ∈ s.live := by
      rcases hv' with hv' | ⟨hv', _⟩
      · exact mem_live.2 (Or.inl hv')
      · exact mem_live.2 (Or.inr hv')
    refine Valid.known hs |>.releasing (humanKey sessionId) ?_ v hlive hk
    rw [hn, hl]
  refine executes_bind (hclose.mono fun r e' _ => ?_)
  cases r with
  | error msg => exact executes_pure trivial
  | ok a => exact executes_update fun s d events hv => ⟨e', hv.aside hv.traffic.stopped, trivial⟩

theorem executes_closeClients (contexts : List ℕ) {Q : Except PyStr Unit → ExecutorNote → Prop}
    (hQ : ∀ r, Q r e) : Executes config safe (closeClients contexts) e Q := by
  induction contexts with
  | nil => exact executes_pure (hQ _)
  | cons c rest ih =>
      refine executes_ite (fun _ => ih) fun _ => ?_
      exact executes_andThen (executes_closeClient fun r =>
        ⟨fun _ _ => hQ _, fun _ _ => ih⟩)

/-- **`_close_all_contexts`.** -/
theorem executes_closeAllContexts (hj : e.job = some SchedulerJob.closeAllContexts) :
    Executes config safe (closeAllContexts config) e fun _ e' =>
      e'.job = some SchedulerJob.closeAllContexts := by
  refine executes_bind (executes_read fun s d events hv => ⟨e, hv, ?_⟩)
  refine executes_andThen (executes_closeClients _ fun r => ⟨fun _ _ => hj, fun _ _ => ?_⟩)
  exact executes_succeed (executes_update fun s d events hv => ⟨_, hv.forget hj, hj⟩)

/-- **All operations of the executor keep the invariant.** -/
theorem executes_runJob (job : SchedulerJob) :
    Executes config safe (runJob config job) { job := some job } fun _ _ => True := by
  cases job with
  | advance u =>
      refine executes_bind ((executes_advance (u := u) rfl rfl rfl).mono fun r e' he' => ?_)
      exact executes_update fun s d events hv => ⟨_, hv.report he'.1 he'.2, trivial⟩
  | releaseContext sessionId => exact executes_releaseContext rfl
  | warmManagerKv2 =>
      refine executes_bind ((executes_warmManagerKv2 (Or.inr rfl) rfl).mono fun r e' he' => ?_)
      exact executes_update fun s d events hv =>
        ⟨_, hv.reportKv2 he'.1.1.job he'.2, trivial⟩
  | discard u =>
      refine executes_bind ((executes_discard (u := u) rfl).mono fun r e' he' => ?_)
      refine executes_update fun s d events hv => ⟨_, hv.reportShutdown he'.1 rfl ?_, trivial⟩
      exact fun msg hm => Or.inr ((he'.2.2.2 msg hm).2 u rfl)
  | closeAllContexts =>
      refine executes_bind ((executes_closeAllContexts rfl).mono fun r e' he' => ?_)
      exact executes_update fun s d events hv =>
        ⟨_, hv.reportShutdown he' rfl fun _ _ => Or.inl rfl, trivial⟩

end CoreScheduler
