/-
**A run is executed once, and a query is in the inbox before it is done.**

The program of the executing thread is outlined against the invariant of `CatAgent.WorkerRuns`, and
then the invariant holds in every reachable state.  Calls may be lost before the service has seen
them, or after, and they may arrive late; workers may stop at any moment, and tasks may be stopped,
paused, deleted and made again.

Main definitions:

* `WorkerSystem.Executed` — what the body of an execution leaves;
* `Workers.after` — the state after the last things that happened are taken back;
* `Workers.InInbox` — the result of a run is in the inbox of the service.

Main results:

* `WorkerSystem.keeps_executeBody`, `WorkerSystem.keeps_release` — the outline of the executing
  thread;
* `Workers.kept_of_leads` — **the invariant holds in every reachable state**;
* `Workers.run_agent_once` — **the model is called at most once for a run**, across all workers;
* `Workers.committed_before_done` — **a query that is done was in the inbox before**, and a hint is
  given once, after the result was there.
-/

import CatAgent.WorkerOutlines

set_option relaxedAutoImplicit false
set_option autoImplicit false

namespace WorkerSystem

variable {ι : Type} [DecidableEq ι] {host : Host} {e₀ : TaskEngine} {lawful : Prop}
  {crew : Workers ι} {s s' : WorkerSystem ι} {notes : WorkerThread ι → RunNote}
  {j : WorkerThread ι} {i : ι} {n : RunNote} {x : Happening ι} {α β : Type}

open Happening (Begins Starts AsksDone Owed Committed Ready Harmless engineAfter)
open NativeTaskWorker

/-! ### Beginning -/

omit [DecidableEq ι] in
/-- A worker that is not allowed to begin. -/
theorem passive_begin {k o : PyStr} {answer : Except PyError Reply}
    (h : ∀ reply, answer = Except.ok reply → truthy reply ≠ true) :
    Passive (Happening.told (WorkerThread.executing i) (RpcCall.begin k o) answer) where
  begins := by
    rintro i' k' o' ⟨reply, htrue, heq⟩
    cases heq
    exact h reply rfl htrue
  starts := by
    rintro i' k' o' (⟨_, _, _, _, heq, _⟩ | ⟨_, _, _, _, heq⟩) <;> cases heq
  hinted := fun i' t p heq => by cases heq

/-- **A run that is running here is running nowhere else**: no other worker holds it, and no other
run has its offer. -/
theorem Executions.unique_of_running (h : Executions host e₀ lawful crew s notes) {k o : PyStr}
    {run : Run} (hrun : s.engine.runs.get? k = some run) (hrunning : run.state = RunState.running)
    (howner : run.owner = (crew.config i).owner) (hoffer : run.event.offerId = o) {i' : ι}
    {k' o' : PyStr} {y : Happening ι} (hy : y ∈ s.log) (hb : Begins i' k' o' y)
    (heq : k = k' ∨ o = o') : i = i' ∧ k = k' ∧ o = o' := by
  have hother := h.begun i' k' o' y hy hb
  have hsame : k = k' := by
    rcases heq with hk | rfl
    · exact hk
    · exact hother.alone _ run hrun (by rw [hrunning]; rfl) hoffer
  subst hsame
  obtain ⟨hoffer', _, hheld⟩ := hother.grant run hrun
  refine ⟨?_, rfl, hoffer.symm.trans hoffer'⟩
  rcases hheld with hint | ⟨howner', _⟩
  · rw [hrunning] at hint
    cases hint
  · exact crew.owner_injective (howner.symm.trans howner')

/-- **The model has not been called for a run that is running here**, before its worker is allowed
to begin it. -/
theorem Executions.not_started_of_running (h : Executions host e₀ lawful crew s notes) {k o : PyStr}
    {run : Run} (hrun : s.engine.runs.get? k = some run) (hrunning : run.state = RunState.running)
    (howner : run.owner = (crew.config i).owner) (hoffer : run.event.offerId = o)
    (hasking : (notes (WorkerThread.executing i)).asking = none)
    (hnotkey : o ∉ (s.workers i).pendingFinishes.keys) {y : Happening ι} (hy : y ∈ s.log)
    (k' : PyStr) : ¬ Starts i k' o y := by
  intro hst
  obtain ⟨⟨z, hz, hb⟩, hplaced⟩ := h.started i k' o y hy hst
  obtain ⟨-, rfl, -⟩ := h.unique_of_running hrun hrunning howner hoffer hz hb (Or.inr rfl)
  rcases hplaced with ha | ⟨e, he, -⟩ | hend
  · rw [hasking] at ha
    cases ha
  · exact hnotkey (PyDict.mem_keys_of_get? he)
  · have hterminal := hend.ended run hrun
    rw [hrunning] at hterminal
    cases hterminal

/-- **A worker is allowed to begin a run**: nobody has begun it, and the worker has not called the
model for it. -/
theorem keeps_begin (job : Job) :
    Obeys host e₀ lawful crew (WorkerThread.executing i)
      (rpc (RpcCall.begin job.event.runId job.event.offerId)) (RunNote.working job) fun answer l =>
        l = (match answer with
          | Except.ok reply => if truthy reply then RunNote.begun job else RunNote.working job
          | Except.error _ => RunNote.working job) := by
  intro s notes o answer s' hs hl hx
  refine ⟨_, ?_, rfl⟩
  rw [handle_of (Or.inr rfl)] at hx
  have haccounted : lawful → Accounted crew s' := fun hlaw =>
    (hs.2 hlaw).call hs.1.reachable hx fun _ _ _ _ heq _ => by cases heq
  obtain ⟨s₁, rfl, hs₁, hworkers, hlog, hreply⟩ := hs.1.call hx
  have hidle : (∀ reply, answer = Except.ok reply → truthy reply ≠ true) →
      Kept host e₀ lawful crew (s₁.note (Happening.told (WorkerThread.executing i)
        (RpcCall.begin job.event.runId job.event.offerId) answer))
        (Function.update notes (WorkerThread.executing i) (RunNote.working job)) := by
    intro hfalse
    rw [← hl, Function.update_eq_self]
    exact ⟨hs₁.told _ (passive_begin hfalse), haccounted⟩
  cases answer with
  | error e => exact hidle fun reply h => by cases h
  | ok reply =>
      dsimp only
      split_ifs with htrue
      swap
      · exact hidle fun reply' h => by
          cases h
          exact htrue
      refine ⟨?_, haccounted⟩
      have hreads := (hs₁.executing i).2
      rw [hl] at hreads
      have hnotkey : job.token ∉ (s₁.workers i).pendingFinishes.keys :=
        hs₁.not_key (by rw [hl]; exact List.mem_singleton_self job)
      rcases hreply with ⟨e, he⟩ | ⟨env, hanswer, hserved⟩
      · cases he
      have hreach := hs₁.reachable
      rw [hserved] at hreach
      obtain ⟨hbegun, run, hrun, hrunning, howner, hoffer⟩ :=
        TaskEngine.begun_of_begin hreach hanswer.symm htrue
      change Tables.Begun host _ _ _ _ (s.serve host (crew.request i _ env)).2.engine.toTables
        at hbegun
      change (s.serve host (crew.request i _ env)).2.engine.runs.get? _ = _ at hrun
      rw [← hserved] at hbegun hrun
      have hstarts : ∀ i' k' o', ¬ Starts i' k' o' (Happening.told (WorkerThread.executing i)
          (RpcCall.begin job.event.runId job.event.offerId) (Except.ok reply)) := by
        rintro i' k' o' (⟨_, _, _, _, h, _⟩ | ⟨_, _, _, _, h⟩) <;> cases h
      refine hs₁.cons_executing hs₁.engine (by rw [hl]; rfl) rfl (by rw [hl]; rfl)
        (by rw [hl]; rfl) ?_ ?_ (fun k h => absurd h (hstarts i k _)) (fun _ _ _ _ _ h => by cases h)
        hs₁.once (fun i' k' o' h => hstarts i' k' o' (Or.inr h)) (fun _ _ _ h => by cases h) trivial
        ⟨hreads.later (List.suffix_cons _ _), ⟨_, List.mem_cons_self, reply, htrue, rfl⟩, ?_⟩
      · rintro i' o' (⟨k, h⟩ | ⟨p, h⟩)
        · exact absurd h (hstarts i' k o')
        · cases h
      · rintro i' k' o' ⟨_, _, h⟩
        cases h
        exact ⟨hbegun, fun _ _ _ _ hy hb heq =>
          hs₁.unique_of_running hrun hrunning howner hoffer hy hb heq⟩
      · intro y hy k hk
        rcases List.mem_cons.1 hy with rfl | hy
        · exact hstarts _ k _ hk
        · exact hs₁.not_started_of_running hrun hrunning howner hoffer (by rw [hl]; rfl) hnotkey
            hy k hk

/-! ### The call of the model -/

/-- **The model is called for a run that has begun.** -/
theorem keeps_runAgent (job : Job) (instruction : PyStr) :
    Obeys host e₀ lawful crew (WorkerThread.executing i)
      (runAgent job.event job.agentId instruction) (RunNote.begun job)
      fun outcome l => l = RunNote.asked job outcome false := by
  intro s notes o outcome s' hs hl hx
  rw [handle_of (Or.inr rfl)] at hx
  cases o <;> cases hx
  refine ⟨RunNote.asked job outcome false, ?_, rfl⟩
  refine hs.quietly ?_ rfl rfl (List.subset_cons_self _ _)
  have hknows := (hs.1.executing i).2
  rw [hl] at hknows
  obtain ⟨hreads, ⟨y, hy, hbegins⟩, hfresh⟩ := hknows
  have hstarts : ∀ i' k o', Starts i' k o'
      (Happening.asked i job.event job.agentId instruction outcome) →
      i' = i ∧ k = job.event.runId ∧ o' = job.token := by
    rintro i' k o' (⟨_, _, _, _, h, rfl, rfl⟩ | ⟨_, _, _, _, h⟩) <;> cases h
    exact ⟨rfl, rfl, rfl⟩
  refine hs.1.cons_executing hs.1.engine (by rw [hl]; rfl) rfl (by rw [hl]; rfl) (by rw [hl]; rfl)
    ?_ ?_ (fun k h => ?_) (fun i' event agentId instruction outcome heq => ?_) ?_ ?_
    (fun _ _ _ h => by cases h) trivial
    ⟨⟨instruction, s.log, List.suffix_refl _, hreads⟩, fun k p ho => ?_, (fun h => by cases h),
      fun _ p hp => ?_⟩
  · rintro i' o' (⟨k, hk⟩ | ⟨p, h⟩)
    · exact ⟨(hstarts i' k o' hk).1, (hstarts i' k o' hk).2.2⟩
    · cases h
  · rintro i' k o' ⟨_, _, h⟩
    cases h
  · obtain ⟨-, rfl, -⟩ := hstarts i k _ h
    exact ⟨⟨y, hy, hbegins⟩, rfl, hfresh⟩
  · cases heq
    exact ⟨job.task, hreads⟩
  · -- Whoever has called the model for the run has begun it, and it was begun here only.
    refine List.nodup_cons.2 ⟨fun hmem => ?_, hs.1.once⟩
    obtain ⟨i', event, agentId, instruction', outcome', hasked, hk⟩ := Happening.mem_asks hmem
    have hstarted : Starts i' job.event.runId event.offerId
        (Happening.asked i' event agentId instruction' outcome') :=
      Or.inl ⟨event, agentId, instruction', outcome', rfl, hk, rfl⟩
    obtain ⟨⟨z, hz, hb⟩, _⟩ := hs.1.started i' _ _ _ hasked hstarted
    obtain ⟨rfl, _, ho⟩ := hs.1.unique i' _ _ i _ _ z hz y hy hb hbegins (Or.inl rfl)
    rw [ho] at hstarted
    exact hfresh _ hasked _ hstarted
  · rintro i' k o' ⟨_, _, _, _, h⟩
    cases h
  · -- What is owed now is owed for this call: the model was not called for the run before.
    obtain ⟨event, agentId, instruction', free, text, earlier, hsuffix, hquery, htext, hk, ho',
      hp⟩ := ho
    rcases List.suffix_cons_iff.1 hsuffix with heq | hsuffix
    · obtain ⟨heq, rfl⟩ := List.cons.inj heq
      cases heq
      obtain ⟨task, honce, hmethod⟩ := hquery
      exact ⟨free, text, rfl,
        (Happening.method_of_once hs.1.start hreads.task honce).trans hmethod, htext, hp⟩
    · exact absurd (Or.inl ⟨event, agentId, instruction', _, rfl, hk, ho'⟩)
        (hfresh _ (hsuffix.subset List.mem_cons_self) k)
  · rcases List.mem_cons.1 hp with h | hp
    · cases h
    · obtain ⟨⟨k, ho⟩, _⟩ := hs.1.hinted i _ p hp
      obtain ⟨z, hz, hst⟩ := ho.starts
      exact hfresh z hz k hst

/-- **The result of a query is recorded.** -/
theorem keeps_record (job : Job) (free : Bool) (text : PyStr)
    (hmethod : job.task.method = TaskMethod.query) (htext : PyStr.strip text ≠ []) :
    Obeys host e₀ lawful crew (WorkerThread.executing i)
      (update fun w =>
        { w with pendingResults := w.pendingResults.set job.event.offerId (resultOf job text) })
      (RunNote.asked job (AgentOutcome.returned free 0 text) false) fun _ l =>
        l = RunNote.asked job (AgentOutcome.returned free 0 text) true := by
  intro s notes o x s' hs hl hx
  rw [handle_of (Or.inr rfl)] at hx
  cases hx
  refine ⟨RunNote.asked job (AgentOutcome.returned free 0 text) true, ?_, rfl⟩
  refine hs.quietly ?_ rfl rfl (List.Subset.refl _)
  have hknows := (hs.1.executing i).2
  rw [hl] at hknows
  obtain ⟨⟨instruction, earlier, hsuffix, hreads⟩, howes, _, hhints⟩ := hknows
  have hjob : job ∈ (notes (WorkerThread.executing i)).jobs := by
    rw [hl]
    exact List.mem_singleton_self job
  have hnotkey := hs.1.not_key hjob
  have hpoll : Function.update notes (WorkerThread.executing i)
      (RunNote.asked job (AgentOutcome.returned free 0 text) true) (WorkerThread.polling i) =
        notes (WorkerThread.polling i) := Function.update_of_ne (by simp) _ _
  have howed : Owed host e₀ i job.event.runId job.token (resultOf job text) s.log :=
    ⟨job.event, job.agentId, instruction, free, text, earlier, hsuffix,
      ⟨job.task, hreads.task, hmethod⟩, htext, rfl, rfl, rfl⟩
  refine hs.1.tables (i := i) (Or.inr rfl) rfl rfl ?_ (hs.1.jobs i) (hs.1.entries i)
    (fun k o' _ hplaced => ?_) (fun t p hp => ?_) (fun k t p e ho he => ?_) (fun t p hp => ?_) ?_ ?_
  · rw [Function.update_self]
    have hbooks := hs.1.books i
    rw [hl] at hbooks
    exact hbooks.record _ (Or.inl rfl)
  · rw [Function.update_self]
    rw [Placed, hl] at hplaced
    exact hplaced
  · change ((s.workers i).pendingResults.set job.token (resultOf job text)).get? t = some p at hp
    rw [PyDict.get?_set] at hp
    split_ifs at hp with ht
    · cases hp
      cases ht
      exact ⟨_, howed⟩
    · exact hs.1.results i t p hp
  -- The offer of the job is not to be finished yet, so nothing is settled by its result.
  · have ht : job.token ≠ t := by
      rintro rfl
      exact hnotkey (PyDict.mem_keys_of_get? he)
    exact (hs.1.owed i k t p e ho he).imp_right fun h => h.imp_right fun hp =>
      (PyDict.get?_set_of_ne _ _ ht).trans hp
  -- No hint has been given for the offer, since its result was not recorded.
  · have ht : job.token ≠ t := by
      rintro rfl
      exact hhints rfl p hp
    rw [hpoll]
    exact (hs.1.hinted i t p hp).2.2.imp_left fun h => (PyDict.get?_set_of_ne _ _ ht).trans h
  · rw [hpoll]
    refine ⟨(hs.1.polling i).1, knows_polling (hs.1.polling i).1 (hs.1.polling i).2 rfl rfl ?_ ?_ ?_⟩
    · rw [workers_update]
    · rw [workers_update]
      exact fun _ _ h => h
    · rw [workers_update]
      intro t ht
      refine PyDict.get?_set_of_ne _ _ ?_
      rintro rfl
      exact hnotkey ht
  · rw [Function.update_self]
    refine ⟨trivial, ⟨instruction, earlier, hsuffix, hreads⟩, howes, fun _ => ⟨free, text, rfl, ?_⟩,
      fun h => by cases h⟩
    rw [workers_update]
    exact PyDict.get?_set_self _ _ _

/-! ### Executing -/

/-- What the body of an execution leaves.  If the model was called and the run is to be made done,
then the result of a query was recorded. -/
def Executed (job : Job) (e : Execution) (l : RunNote) : Prop :=
  (l = RunNote.working job ∧ Harmless e.outcome) ∨ (l = RunNote.begun job ∧ e.started = true) ∨
    ∃ outcome recorded, l = RunNote.asked job outcome recorded ∧ e.started = true ∧
      (Harmless e.outcome ∨ recorded = true ∨
        ∀ free text, outcome = AgentOutcome.returned free 0 text →
          job.task.method = TaskMethod.query → PyStr.strip text = [])

theorem keeps_runModel (job : Job) (instruction : PyStr) :
    Obeys host e₀ lawful crew (WorkerThread.executing i) (runModel job instruction)
      (RunNote.begun job) (Executed job) := by
  have herror : Harmless "error" := by decide
  refine Threads.outline_bind (keeps_runAgent job instruction) ?_
  rintro outcome _ rfl
  cases outcome with
  | raised =>
      exact Threads.outline_pure (Or.inr (Or.inr ⟨_, _, rfl, rfl, Or.inl herror⟩))
  | returned free statusCode text =>
      dsimp only
      by_cases hrecords : Records job (statusOf free statusCode) text
      · rw [if_pos hrecords]
        obtain ⟨hmethod, hstatus, htext⟩ := hrecords
        have hcode : statusCode = 0 := by
          unfold statusOf at hstatus
          split_ifs at hstatus
          · exact hstatus
          · exact absurd hstatus one_ne_zero
        subst hcode
        refine Threads.outline_bind (keeps_record job free text hmethod htext) ?_
        rintro _ _ rfl
        exact Threads.outline_pure (Or.inr (Or.inr ⟨_, _, rfl, rfl, Or.inr (Or.inl rfl)⟩))
      · rw [if_neg hrecords]
        refine Threads.outline_pure (Or.inr (Or.inr ⟨_, _, rfl, rfl, ?_⟩))
        by_cases hstatus : statusOf free statusCode = 0
        · refine Or.inr (Or.inr fun free' text' heq hmethod => ?_)
          cases heq
          by_contra htext
          exact hrecords ⟨hmethod, hstatus, htext⟩
        · rw [if_pos hstatus]
          exact Or.inl herror

theorem keeps_runBegun (config : WorkerConfig) (job : Job) :
    Obeys host e₀ lawful crew (WorkerThread.executing i) (runBegun config host job)
      (RunNote.begun job) (Executed job) := by
  have hdone : ∀ code : ℤ, ∀ outcome : PyStr, Obeys host e₀ lawful crew (WorkerThread.executing i)
      (pure ⟨true, outcome, code⟩ : WorkerM Execution) (RunNote.begun job) (Executed job) :=
    fun _ _ => Threads.outline_pure (Or.inr (Or.inl ⟨rfl, rfl⟩))
  unfold runBegun
  split_ifs
  · refine Threads.outline_bind (keeps_calm (Or.inr rfl)
      (calm_operation (e := WorkerEffect.rpc (RpcCall.resolve "mqtt" job.event.name)) trivial
        trivial) _) ?_
    rintro answer _ rfl
    split
    · split
      · exact hdone _ _
      · exact hdone _ _
      · exact keeps_runModel job _
    · exact hdone _ _
  · exact keeps_runModel job _

/-- **The body of an execution.** -/
theorem keeps_executeBody (config : WorkerConfig) (job : Job) :
    Obeys host e₀ lawful crew (WorkerThread.executing i) (executeBody config host job)
      (RunNote.working job) (Executed job) := by
  have hearly : ∀ e : Execution, Harmless e.outcome → Obeys host e₀ lawful crew
      (WorkerThread.executing i) (pure e : WorkerM Execution) (RunNote.working job)
      (Executed job) := fun e he => Threads.outline_pure (Or.inl ⟨rfl, he⟩)
  have hcancelled : Harmless "cancelled" := by decide
  have hinterrupted : Harmless "interrupted" := by decide
  refine Threads.outline_bind (keeps_calm (Or.inr rfl)
    (calm_operation (e := WorkerEffect.canRun) trivial trivial) _) ?_
  rintro may _ rfl
  cases may with
  | false => exact hearly _ hcancelled
  | true =>
  refine Threads.outline_bind (keeps_calm (Or.inr rfl)
    (calm_operation (e := WorkerEffect.agentStatus) trivial trivial) _) ?_
  rintro agents _ rfl
  refine Threads.outline_bind (keeps_calm (Or.inr rfl)
    (calm_operation (e := WorkerEffect.agentBlocked job.agentId) trivial trivial) _) ?_
  rintro blocked _ rfl
  split_ifs
  · refine Threads.outline_bind (keeps_begin job) ?_
    rintro answer _ rfl
    cases answer with
    | error e =>
        refine Threads.outline_bind (keeps_calm (Or.inr rfl)
          (calm_operation (e := WorkerEffect.clock) trivial trivial) _) ?_
        rintro now _ rfl
        have hdefer : (update fun w =>
            { w with deferred := w.deferred.set job.event.runId (now + 2) }).All Quiet :=
          quiet_update fun _ => ⟨rfl, rfl, rfl, rfl, rfl⟩
        refine Threads.outline_bind
          (keeps_calm (Or.inr rfl) (calm_of hdefer (calls_locked _)) _) ?_
        rintro _ _ rfl
        exact hearly _ hinterrupted
    | ok allowed =>
        dsimp only
        by_cases htrue : truthy allowed = true
        · rw [if_pos htrue, if_pos htrue]
          refine Threads.outline_bind (keeps_calm (Or.inr rfl) (calm_operation
            (e := WorkerEffect.rpc (RpcCall.valid job.event.runId job.event.offerId)) trivial
              trivial) _) ?_
          rintro answer _ rfl
          cases answer with
          | error e => exact Threads.outline_pure (Or.inr (Or.inl ⟨rfl, rfl⟩))
          | ok valid =>
              dsimp only
              split_ifs
              · exact keeps_runBegun config job
              · exact Threads.outline_pure (Or.inr (Or.inl ⟨rfl, rfl⟩))
        · rw [if_neg htrue, if_neg htrue]
          exact hearly _ hcancelled
  · exact hearly _ hcancelled

/-- What the end of an execution does to the runs that are to be finished. -/
theorem pendingFinishes_release (job : Job) (e : Execution) (w : NativeTaskWorker) :
    (release job e w).pendingResults = w.pendingResults ∧ (release job e w).jobs = w.jobs ∧
      (release job e w).seen.length ≤ w.seen.length ∧
      (e.started = true ∧ (release job e w).pendingFinishes = w.pendingFinishes.set job.token
          { event := job.event, outcome := e.outcome, statusCode := e.statusCode } ∨
        e.started = false ∧ (release job e w).pendingFinishes = w.pendingFinishes) := by
  unfold release
  by_cases hstarted : e.started = true
  · rw [if_pos hstarted]
    exact ⟨rfl, rfl, le_rfl, Or.inl ⟨hstarted, rfl⟩⟩
  · rw [if_neg hstarted]
    exact ⟨rfl, rfl, List.length_filter_le _ _, Or.inr ⟨by simpa using hstarted, rfl⟩⟩

/-- The runs that are to be finished after the end of an execution. -/
theorem get?_release (job : Job) (e : Execution) (w : NativeTaskWorker) {t : PyStr}
    {e' : PendingFinish} (he' : (release job e w).pendingFinishes.get? t = some e') :
    t = job.token ∧ e' = ⟨job.event, e.outcome, e.statusCode⟩ ∨
      w.pendingFinishes.get? t = some e' := by
  rcases (pendingFinishes_release job e w).2.2.2 with ⟨_, h⟩ | ⟨_, h⟩
  · rw [h, PyDict.get?_set] at he'
    split_ifs at he' with ht
    · exact Or.inl ⟨ht.symm, (Option.some.inj he').symm⟩
    · exact Or.inr he'
  · rw [h] at he'
    exact Or.inr he'

/-- A run that was to be finished is still to be finished after the end of an execution. -/
theorem get?_release_of_some (job : Job) (e : Execution) {w : NativeTaskWorker}
    (hnotkey : job.token ∉ w.pendingFinishes.keys) {t : PyStr} {e' : PendingFinish}
    (he' : w.pendingFinishes.get? t = some e') :
    (release job e w).pendingFinishes.get? t = some e' := by
  rcases (pendingFinishes_release job e w).2.2.2 with ⟨_, h⟩ | ⟨_, h⟩
  · rw [h]
    refine (PyDict.get?_set_of_ne _ _ ?_).trans he'
    rintro rfl
    exact hnotkey (PyDict.mem_keys_of_get? he')
  · rw [h]
    exact he'

theorem Executed.jobs {e : Execution} {job : Job} (h : Executed job e n) : n.jobs = [job] := by
  rcases h with ⟨rfl, _⟩ | ⟨rfl, _⟩ | ⟨_, _, rfl, _⟩ <;> rfl

theorem Executed.recorded {e : Execution} {job : Job} (h : Executed job e n) :
    n.recorded = none ∨ n.recorded = some job.token ∧ e.started = true := by
  rcases h with ⟨rfl, _⟩ | ⟨rfl, _⟩ | ⟨_, recorded, rfl, hstarted, _⟩
  · exact Or.inl rfl
  · exact Or.inl rfl
  · cases recorded with
    | false => exact Or.inl rfl
    | true => exact Or.inr ⟨rfl, hstarted⟩

theorem Executed.asking {e : Execution} {job : Job} (h : Executed job e n) {p : PyStr × PyStr}
    (hp : n.asking = some p) : p = (job.event.runId, job.token) ∧ e.started = true := by
  rcases h with ⟨rfl, _⟩ | ⟨rfl, _⟩ | ⟨_, _, rfl, hstarted, _⟩
  · cases hp
  · cases hp
  · cases hp
    exact ⟨rfl, hstarted⟩

/-- An execution that does harm has begun its run. -/
theorem Executed.began {e : Execution} {job : Job} (h : Executed job e n)
    (hs : Executions host e₀ lawful crew s notes) (hknows : n.Knows host e₀ lawful crew i s) :
    Harmless e.outcome ∨ ∃ y ∈ s.log, Begins i job.event.runId job.token y := by
  rcases h with ⟨_, hharmless⟩ | ⟨rfl, _⟩ | ⟨outcome, _, rfl, _⟩
  · exact Or.inl hharmless
  · exact Or.inr hknows.2.1
  · obtain ⟨⟨instruction, earlier, hsuffix, _⟩, _⟩ := hknows
    exact Or.inr (hs.started i _ _ _ (hsuffix.subset List.mem_cons_self)
      (Or.inl ⟨job.event, job.agentId, instruction, outcome, rfl, rfl, rfl⟩)).1

omit [DecidableEq ι] in
/-- **What is owed for the run has been recorded**, if the run is to be made done. -/
theorem Executed.owes {e : Execution} {job : Job} (h : Executed job e n)
    (hknows : n.Knows host e₀ lawful crew i s) {k : PyStr} {p : QueryPayload}
    (ho : Owed host e₀ i k job.token p s.log) :
    Harmless e.outcome ∨ (s.workers i).pendingResults.get? job.token = some p := by
  rcases h with ⟨_, hharmless⟩ | ⟨rfl, _⟩ | ⟨outcome, recorded, rfl, _, hout⟩
  · exact Or.inl hharmless
  · obtain ⟨y, hy, hst⟩ := ho.starts
    exact absurd hst (hknows.2.2 y hy k)
  · obtain ⟨_, hall, hresult, _⟩ := hknows
    obtain ⟨free, text, rfl, hmethod, htext, rfl⟩ := hall k p ho
    rcases hout with hharmless | hrec | hnone
    · exact Or.inl hharmless
    · obtain ⟨free', text', heq, hget⟩ := hresult hrec
      cases heq
      exact Or.inr hget
    · exact absurd (hnone free text rfl hmethod) htext

/-- **The end of an execution**: from now on its run is to be finished. -/
theorem keeps_release (job : Job) (e : Execution) (hn : Executed job e n) :
    Obeys host e₀ lawful crew (WorkerThread.executing i) (update (release job e)) n
      fun _ l => l = RunNote.idle := by
  intro s notes o x s' hs hl hx
  rw [handle_of (Or.inr rfl)] at hx
  cases hx
  refine ⟨RunNote.idle, ?_, rfl⟩
  refine hs.quietly ?_ rfl rfl (List.Subset.refl _)
  have hknows := (hs.1.executing i).2
  have hbooks := hs.1.books i
  rw [hl] at hknows hbooks
  have hnotkey : job.token ∉ (s.workers i).pendingFinishes.keys := by
    refine hs.1.not_key ?_
    rw [hl, hn.jobs]
    exact List.mem_singleton_self job
  obtain ⟨hpending, hqueue, hseen, hfinishes⟩ := pendingFinishes_release job e (s.workers i)
  have hpoll : Function.update notes (WorkerThread.executing i) RunNote.idle
      (WorkerThread.polling i) = notes (WorkerThread.polling i) :=
    Function.update_of_ne (by simp) _ _
  refine hs.1.tables (i := i) (Or.inr rfl) rfl rfl ?_ (fun job' hjob' => ?_) (fun t e' he' => ?_)
    (fun k o' _ hplaced => ?_) (fun t p hp => ?_) (fun k t p e' ho he' => ?_) (fun t p hp => ?_) ?_
    ?_
  · rw [Function.update_self]
    change Books ([] ++ (release job e (s.workers i)).jobs) none (release job e (s.workers i))
    rw [hqueue]
    rw [hn.jobs] at hbooks
    exact Books.release hbooks e hn.recorded
  · exact hs.1.jobs i job' (hqueue ▸ hjob')
  · rcases get?_release job e _ he' with ⟨rfl, rfl⟩ | he'
    · exact ⟨rfl, hn.began hs.1 hknows⟩
    · exact hs.1.entries i t e' he'
  · refine Or.inr ?_
    rcases hplaced with ha | ⟨e', he', hk⟩ | hend
    · rw [hl] at ha
      obtain ⟨heq, hstarted⟩ := hn.asking ha
      cases heq
      refine Or.inl ⟨⟨job.event, e.outcome, e.statusCode⟩, ?_, rfl⟩
      rcases hfinishes with ⟨_, h⟩ | ⟨hnot, _⟩
      · change (release job e (s.workers i)).pendingFinishes.get? _ = _
        rw [h]
        exact PyDict.get?_set_self _ _ _
      · rw [hnot] at hstarted
        cases hstarted
    · exact Or.inl ⟨e', get?_release_of_some job e hnotkey he', hk⟩
    · exact Or.inr hend
  · exact hs.1.results i t p (hpending ▸ hp)
  · change _ ∨ _ ∨ (release job e (s.workers i)).pendingResults.get? t = some p
    rw [hpending]
    rcases get?_release job e _ he' with ⟨rfl, rfl⟩ | he'
    · exact Or.inr (hn.owes hknows ho)
    · exact hs.1.owed i k t p e' ho he'
  · change (release job e (s.workers i)).pendingResults.get? t = none ∨ _
    rw [hpending, hpoll]
    exact (hs.1.hinted i t p hp).2.2
  · rw [hpoll]
    refine ⟨(hs.1.polling i).1, knows_polling (hs.1.polling i).1 (hs.1.polling i).2 rfl rfl ?_ ?_ ?_⟩
    · rw [workers_update]
      exact hseen
    · rw [workers_update]
      exact fun _ _ he' => get?_release_of_some job e hnotkey he'
    · rw [workers_update]
      exact fun t _ => congrArg (fun d => PyDict.get? d t) hpending
  · rw [Function.update_self]
    exact ⟨trivial, trivial⟩

/-- **Executing keeps the runs.** -/
theorem keeps_execute (config : WorkerConfig) (job : Job) :
    Obeys host e₀ lawful crew (WorkerThread.executing i) (execute config host job)
      (RunNote.working job) fun _ l => l = RunNote.idle :=
  Threads.outline_bind (keeps_executeBody config job) fun e _ hl => keeps_release job e hl

/-- A call that was lost does not happen any more. -/
theorem Executions.forget (h : Executions host e₀ lawful crew s notes) (late : List (ι × RpcCall)) :
    Executions host e₀ lawful crew { s with late } notes :=
  { h with
    polling := fun i =>
      ⟨(h.polling i).1, knows_congr (h.polling i).2 rfl rfl rfl⟩
    executing := fun i =>
      ⟨(h.executing i).1, knows_congr (h.executing i).2 rfl rfl rfl⟩ }

end WorkerSystem

/-! ### The system -/

namespace Workers

variable {ι : Type} [DecidableEq ι] {host : Host} {e₀ : TaskEngine} {lawful : Prop}
  {crew : Workers ι} {s s' : WorkerSystem ι} {notes : WorkerThread ι → RunNote} {i : ι}

open Happening (AsksDone Owed Committed Once Registered asks hints engineAfter)
open WorkerSystem (Executions Accounted Kept Obeys Requested)

/-- What a thread knows while it is idle. -/
def Resting : WorkerThread ι → RunNote → Prop
  | WorkerThread.outside, _ => True
  | WorkerThread.polling _, l => l.hinting = none
  | WorkerThread.executing _, l => l = RunNote.idle

theorem kept_of_init (h : Initial host s) :
    Kept host s.engine lawful crew s fun _ => RunNote.idle := by
  obtain ⟨hengine, hworkers, hlate, hlog⟩ := h
  have hbooks : ∀ i, NativeTaskWorker.Books ([] ++ (s.workers i).jobs) none (s.workers i) := by
    intro i
    rw [hworkers i]
    exact NativeTaskWorker.books_initial
  have hfinishes : ∀ i t, (s.workers i).pendingFinishes.get? t = none := by
    intro i t
    rw [hworkers i]
    rfl
  have hresults : ∀ i t, (s.workers i).pendingResults.get? t = none := by
    intro i t
    rw [hworkers i]
    rfl
  have hempty : ∀ x, x ∉ s.log := by
    intro x hx
    rw [hlog] at hx
    cases hx
  refine ⟨{ start := Machine.Reach.of_init hengine
            engine := by rw [hlog]; rfl
            books := hbooks
            jobs := fun i job hjob => by rw [hworkers i] at hjob; cases hjob
            entries := fun i t e he => by cases (hfinishes i t).symm.trans he
            begun := fun i k o x hx => absurd hx (hempty x)
            unique := fun i k o i' k' o' x hx => absurd hx (hempty x)
            started := fun i k o x hx => absurd hx (hempty x)
            questions := fun i event agentId instruction outcome earlier hsuffix =>
              absurd (hsuffix.subset List.mem_cons_self) (hempty _)
            once := by rw [hlog]; exact List.nodup_nil
            results := fun i t p hp => by cases (hresults i t).symm.trans hp
            owed := fun i k t p e _ he => by cases (hfinishes i t).symm.trans he
            sent := fun i k t x hx => absurd hx (hempty x)
            hinted := fun i t p hp => absurd hp (hempty _)
            hints := fun i => by rw [hlog]; exact List.nodup_nil
            polling := fun _ => ⟨trivial, trivial⟩
            executing := fun _ => ⟨trivial, trivial⟩ }, fun _ => ⟨?_, ?_⟩⟩
  · intro i k o outcome code hmem
    rw [hlate] at hmem
    cases hmem
  · intro k run hrun
    have hruns : s.engine.runs.get? k = none := by
      obtain ⟨now, tasks, bindings, uuids, _, _, h⟩ := hengine
      rw [h]
      rfl
    cases hruns.symm.trans hrun

omit [DecidableEq ι] in
/-- A foreign input does not make the run of a worker done. -/
theorem requested_of_foreign {inp : Input} (h : crew.Foreign inp) (log : List (Happening ι)) :
    Requested crew inp log := by
  rintro i env k o outcome statusCode peer rfl
  exact absurd rfl (h i)

/-- **A job moves from the queue to the executing thread.** -/
theorem kept_take {n : ℕ} {job : Job} (h : Kept host e₀ lawful crew s notes)
    (hidle : notes (WorkerThread.executing i) = RunNote.idle)
    (hjob : (s.workers i).jobs[n]? = some job) :
    Kept host e₀ lawful crew
      { s with
        workers := Function.update s.workers i
          { s.workers i with jobs := (s.workers i).jobs.eraseIdx n } }
      (Function.update notes (WorkerThread.executing i) (RunNote.working job)) := by
  refine h.quietly ?_ rfl rfl (List.Subset.refl _)
  have hbooks := h.1.books i
  rw [hidle] at hbooks
  have hreads := h.1.jobs i job (List.mem_of_getElem? hjob)
  have hpoll : Function.update notes (WorkerThread.executing i) (RunNote.working job)
      (WorkerThread.polling i) = notes (WorkerThread.polling i) :=
    Function.update_of_ne (by simp) _ _
  refine h.1.tables (i := i) (Or.inr rfl) rfl rfl ?_ (fun job' hjob' => ?_)
    (h.1.entries i) (fun k o' _ hplaced => ?_) (h.1.results i) (h.1.owed i)
    (fun t p hp => ?_) ?_ ?_
  · rw [Function.update_self]
    obtain ⟨hn, hget⟩ := List.getElem?_eq_some_iff.1 hjob
    have hperm := List.getElem_cons_eraseIdx_perm hn
    rw [hget] at hperm
    have hmoved := hbooks.perm hperm.symm
    exact ⟨hmoved.agents, hmoved.reserved_nodup, hmoved.reserved, hmoved.tokens,
      hmoved.finished, hmoved.seen_nodup, hmoved.seen, hmoved.bound, hmoved.results⟩
  · exact h.1.jobs i job' (List.eraseIdx_subset hjob')
  · rw [Function.update_self]
    rw [WorkerSystem.Placed, hidle] at hplaced
    exact hplaced
  · rw [hpoll]
    exact (h.1.hinted i t p hp).2.2
  · rw [hpoll]
    refine ⟨(h.1.polling i).1, WorkerSystem.knows_polling (h.1.polling i).1
      (h.1.polling i).2 rfl rfl ?_ ?_ ?_⟩
    · rw [WorkerSystem.workers_update]
    · rw [WorkerSystem.workers_update]
      exact fun _ _ h => h
    · rw [WorkerSystem.workers_update]
      exact fun _ _ => rfl
  · rw [Function.update_self]
    exact ⟨trivial, hreads⟩

/-- **What a thread takes up keeps the runs.** -/
theorem kept_starts {j : WorkerThread ι} {o : WorkerChoice} {p : WorkerM Unit}
    (h : Kept host e₀ lawful crew s notes) (hj : Resting j (notes j))
    (hlawful : lawful → crew.Lawful (j, o))
    (hstart : (crew.threads host).starts j o s = some (p, s')) :
    ∃ n, Kept host e₀ lawful crew s' (Function.update notes j n) ∧
      Obeys host e₀ lawful crew j p n fun _ l => Resting j l := by
  cases j with
  | outside =>
      refine ⟨notes WorkerThread.outside, ?_⟩
      rw [Function.update_eq_self]
      cases o with
      | input inp =>
          cases hstart
          refine ⟨⟨h.1.serve inp, fun hl => ?_⟩, Threads.outline_pure trivial⟩
          exact (h.2 hl).respond h.1.reachable _ rfl (List.Subset.refl _)
            (List.subset_cons_self _ _) (requested_of_foreign (hlawful hl) _)
      | deliver n env =>
          simp only [threads, starts] at hstart
          split at hstart
          · cases hstart
          · rename_i i c hlate
            have hmem : (i, c) ∈ s.late := List.mem_of_getElem? hlate
            have hforgotten := h.1.forget (s.late.eraseIdx n)
            have hsub : s.late.eraseIdx n ⊆ s.late := List.eraseIdx_subset
            split_ifs at hstart
            · cases hstart
              refine ⟨⟨hforgotten.serve _, fun hl => ?_⟩, Threads.outline_pure trivial⟩
              refine (h.2 hl).respond h.1.reachable (crew.request i c env) rfl hsub
                (List.subset_cons_self _ _) (WorkerSystem.requested_request ?_)
              rintro k o outcome code rfl hdone
              obtain ⟨x, hx, hasks⟩ := (h.2 hl).late i k o outcome code hmem hdone
              exact ⟨x, List.mem_cons_of_mem _ hx, hasks⟩
            · cases hstart
              refine ⟨⟨hforgotten, fun hl => ?_⟩, Threads.outline_pure trivial⟩
              exact (h.2 hl).unheard rfl (fun _ _ _ _ _ hold => Or.inl (hsub hold))
                (List.Subset.refl _)
      | _ => cases hstart
  | polling i =>
      refine ⟨notes (WorkerThread.polling i), ?_⟩
      rw [Function.update_eq_self]
      cases o with
      | poll =>
          cases hstart
          exact ⟨h, Threads.outline_bind (WorkerSystem.keeps_pollOnce _ hj)
            fun _ _ hl => Threads.outline_pure hl⟩
      | close =>
          cases hstart
          exact ⟨h, Threads.outline_bind (WorkerSystem.keeps_close hj)
            fun _ _ hl => Threads.outline_pure hl⟩
      | _ => cases hstart
  | executing i =>
      cases o with
      | execute n =>
          simp only [threads, starts] at hstart
          split at hstart
          · cases hstart
          · rename_i job hjob
            cases hstart
            exact ⟨RunNote.working job, kept_take h hj hjob, WorkerSystem.keeps_execute _ job⟩
      | _ => cases hstart

/-- **The invariant holds in every state that is reached**, with what the workers ask for if nobody
else speaks in their name. -/
theorem kept_of_leads {c₀ c : Threads.Config (WorkerThread ι) WorkerEffect WorkerEffect.Answer
    (WorkerSystem ι)} (h₀ : (crew.threads host).machine.init c₀)
    (h : (crew.threads host).machine.Leads (fun _ x => lawful → crew.Lawful x) c₀ c) :
    ∃ notes, Kept host c₀.state.engine lawful crew c.state notes := by
  obtain ⟨notes, hkept, _⟩ := Threads.leads_of_step (t := crew.threads host)
    (Kept host c₀.state.engine lawful crew) (fun _ x => lawful → crew.Lawful x)
    (fun j p l => Obeys host c₀.state.engine lawful crew j p l fun _ l => Resting j l)
    (fun j o s notes a p s' hs hj hok hstart => kept_starts hs hj hok hstart)
    (fun j e next o s notes x s' hs hj hx => hj s notes o x s' hs rfl hx) h
    ⟨fun _ => RunNote.idle, kept_of_init h₀.1, fun j => by
      rw [h₀.2 j]
      cases j with
      | outside => exact Threads.outline_pure trivial
      | polling i => exact Threads.outline_pure rfl
      | executing i => exact Threads.outline_pure rfl⟩
  exact ⟨notes, hkept⟩

/-- **The model is called at most once for a run**, across all workers, whatever becomes of the
calls, of the workers and of the tasks, and whoever speaks in whose name. -/
theorem run_agent_once {c : Threads.Config (WorkerThread ι) WorkerEffect WorkerEffect.Answer
    (WorkerSystem ι)} (h : (crew.threads host).machine.Reachable c) : (asks c.state.log).Nodup := by
  obtain ⟨c₀, h₀, hl⟩ := h
  have hleads : (crew.threads host).machine.Leads (fun _ x => False → crew.Lawful x) c₀ c :=
    hl.mono fun _ _ _ hfalse => hfalse.elim
  obtain ⟨notes, hkept⟩ := kept_of_leads h₀ hleads
  exact hkept.1.once

/-- The task is run once more, and the worker executes that run as well. -/
def workedTwice : Threads.Config (WorkerThread Unit) WorkerEffect WorkerEffect.Answer
    (WorkerSystem Unit) :=
  (outer (Input.call Env.quiet (Op.runTask 1) []) :: pollAndExecute).foldl
    ((single.threads Host.ascii).turn 100) worked

/-- The model is called for both runs. -/
theorem run_agent_once_worked :
    (asks workedTwice.state.log).length = 2 ∧ (asks workedTwice.state.log).Nodup :=
  ⟨by decide +kernel, run_agent_once (Threads.reachable_turns reachable_worked 100 _)⟩

/-! ### Runs -/

/-- What a step adds to the log: nothing, something, or the answer of the service and what the
thread is told. -/
def Grown (log log' : List (Happening ι)) : Prop :=
  log' = log ∨ (∃ x, log' = x :: log) ∨ ∃ j c answer x, log' = Happening.told j c answer :: x :: log

omit [DecidableEq ι] in
theorem Grown.le {log log' : List (Happening ι)} (h : Grown log log') : log <:+ log' := by
  rcases h with rfl | ⟨x, rfl⟩ | ⟨j, c, answer, x, rfl⟩
  · exact List.suffix_refl _
  · exact List.suffix_cons _ _
  · exact (List.suffix_cons _ _).trans (List.suffix_cons _ _)

omit [DecidableEq ι] in
theorem grown_call {j : WorkerThread ι} {c : RpcCall} {o : WorkerChoice}
    {answer : Except PyError Reply} (h : crew.call host i j c o s = some (answer, s')) :
    Grown s.log s'.log := by
  cases o with
  | served env heard =>
      simp only [call] at h
      split_ifs at h
      · cases h
        exact Or.inr (Or.inr ⟨_, _, _, _, rfl⟩)
      · cases h
        exact Or.inr (Or.inr ⟨_, _, _, _, rfl⟩)
      · cases h
        exact Or.inr (Or.inl ⟨_, rfl⟩)
  | lost late =>
      cases h
      exact Or.inr (Or.inl ⟨_, rfl⟩)
  | _ => cases h

theorem grown_handle {j : WorkerThread ι} {e : WorkerEffect} {o : WorkerChoice} {x : e.Answer}
    (h : (crew.threads host).handle j e o s = some (x, s')) : Grown s.log s'.log := by
  have hperform : ∀ i, crew.perform host i j e o s = some (x, s') → Grown s.log s'.log := by
    intro i h
    cases e with
    | locked β f =>
        cases h
        exact Or.inl rfl
    | rpc c => exact grown_call h
    | onQueryResult offerId result =>
        cases h
        exact Or.inr (Or.inl ⟨_, rfl⟩)
    | runAgent event agentId instruction =>
        cases o <;> cases h
        exact Or.inr (Or.inl ⟨_, rfl⟩)
    | clock | canRun | agentStatus | agentBlocked | admits =>
        cases o <;> cases h
        exact Or.inl rfl
  cases j with
  | outside => cases h
  | polling i => exact hperform i h
  | executing i => exact hperform i h

theorem grown_starts {j : WorkerThread ι} {o : WorkerChoice} {p : WorkerM Unit}
    (h : (crew.threads host).starts j o s = some (p, s')) : Grown s.log s'.log := by
  cases j with
  | outside =>
      cases o with
      | input inp =>
          cases h
          exact Or.inr (Or.inl ⟨_, rfl⟩)
      | deliver n env =>
          simp only [threads, starts] at h
          split at h
          · cases h
          · split_ifs at h
            · cases h
              exact Or.inr (Or.inl ⟨_, rfl⟩)
            · cases h
              exact Or.inl rfl
      | _ => cases h
  | polling i =>
      cases o with
      | poll | close =>
          cases h
          exact Or.inl rfl
      | _ => cases h
  | executing i =>
      cases o with
      | execute n =>
          simp only [threads, starts] at h
          split at h
          · cases h
          · cases h
            exact Or.inl rfl
      | _ => cases h

theorem grown_step (c : Threads.Config (WorkerThread ι) WorkerEffect WorkerEffect.Answer
    (WorkerSystem ι)) (x : WorkerThread ι × WorkerChoice) :
    Grown c.state.log ((crew.threads host).machine.step c x).state.log := by
  obtain ⟨j, o⟩ := x
  change Grown c.state.log ((crew.threads host).step c j o).state.log
  rcases (crew.threads host).step_cases c j o with h | ⟨a, p, s', _, hstart, h⟩ |
    ⟨e, next, x, s', _, hx, h⟩
  · rw [h]
    exact Or.inl rfl
  · rw [h]
    exact grown_starts hstart
  · rw [h]
    exact grown_handle hx

omit [DecidableEq ι] in
/-- An earlier log, after a step: it was there before, or the service is in the same state. -/
theorem Grown.suffix {log log' earlier : List (Happening ι)} (h : Grown log log')
    (hearlier : earlier <:+ log') : earlier <:+ log ∨
      engineAfter host e₀ earlier = engineAfter host e₀ log' := by
  rcases h with rfl | ⟨x, rfl⟩ | ⟨j, c, answer, x, rfl⟩
  · exact Or.inl hearlier
  · rcases List.suffix_cons_iff.1 hearlier with rfl | h
    · exact Or.inr rfl
    · exact Or.inl h
  · rcases List.suffix_cons_iff.1 hearlier with rfl | h
    · exact Or.inr rfl
    · rcases List.suffix_cons_iff.1 h with rfl | h
      · exact Or.inr rfl
      · exact Or.inl h

/-- The system after the first `n` steps of a run. -/
def after (host : Host) (crew : Workers ι) (c₀ : Threads.Config (WorkerThread ι) WorkerEffect
    WorkerEffect.Answer (WorkerSystem ι)) (l : List (WorkerThread ι × WorkerChoice)) (n : ℕ) :
    WorkerSystem ι := ((crew.threads host).machine.exec c₀ (l.take n)).state

variable {c₀ : Threads.Config (WorkerThread ι) WorkerEffect WorkerEffect.Answer (WorkerSystem ι)}
  {l : List (WorkerThread ι × WorkerChoice)} {n : ℕ}

theorem grown_after (n : ℕ) : Grown (after host crew c₀ l n).log (after host crew c₀ l (n + 1)).log := by
  unfold after
  rcases Nat.lt_or_ge n l.length with hn | hn
  · rw [List.take_add_one, List.getElem?_eq_getElem hn, Machine.exec_append]
    exact grown_step _ _
  · rw [List.take_of_length_le hn, List.take_of_length_le (hn.trans (Nat.le_succ n))]
    exact Or.inl rfl

theorem log_le {m n : ℕ} (h : m ≤ n) :
    (after host crew c₀ l m).log <:+ (after host crew c₀ l n).log := by
  induction n, h using Nat.le_induction with
  | base => exact List.suffix_refl _
  | succ n _ ih => exact ih.trans (grown_after n).le

/-- The invariant holds after every step. -/
theorem kept_after (h₀ : (crew.threads host).machine.init c₀) (hl : ∀ x ∈ l, crew.Lawful x) (n : ℕ) :
    ∃ notes, Kept host c₀.state.engine True crew (after host crew c₀ l n) notes :=
  kept_of_leads h₀ ((Machine.leads_of_forall c₀ fun x hx =>
    hl x (List.mem_of_mem_take hx)).mono fun _ _ hx _ => hx)

/-- **A state of the service at the time of an earlier log** is its state after some step. -/
theorem step_of_suffix (h₀ : (crew.threads host).machine.init c₀) (hl : ∀ x ∈ l, crew.Lawful x)
    {earlier : List (Happening ι)} (h : earlier <:+ (after host crew c₀ l n).log) :
    ∃ m ≤ n, (after host crew c₀ l m).engine = engineAfter host c₀.state.engine earlier := by
  induction n with
  | zero =>
      have hlog : (after host crew c₀ l 0).log = [] := h₀.1.2.2.2
      rw [hlog, List.suffix_nil] at h
      subst h
      exact ⟨0, le_rfl, rfl⟩
  | succ n ih =>
      rcases (grown_after n).suffix h with hold | hnew
      · obtain ⟨m, hm, hengine⟩ := ih hold
        exact ⟨m, hm.trans (Nat.le_succ n), hengine⟩
      · obtain ⟨notes, hkept, _⟩ := kept_after h₀ hl (n + 1)
        exact ⟨n + 1, le_rfl, by rw [hkept.engine, hnew]⟩

/-- The result `p` is in the inbox, under the grant of the worker `i` for the offer `o`. -/
def InInbox (crew : Workers ι) (i : ι) (o : PyStr) (p : QueryPayload) (e : TaskEngine) : Prop :=
  ∃ record, e.queryResults.get? p.runId = some record ∧ record.owner = (crew.config i).owner ∧
    record.peer = crew.peer i ∧ record.offerId = o ∧ record.payload = p

/-- A result that was committed was in the inbox after some step. -/
theorem step_of_committed (h₀ : (crew.threads host).machine.init c₀) (hl : ∀ x ∈ l, crew.Lawful x)
    {o : PyStr} {p : QueryPayload} {log : List (Happening ι)}
    (hlog : log <:+ (after host crew c₀ l n).log)
    (h : Committed host c₀.state.engine True crew i o p log) :
    ∃ m ≤ n, InInbox crew i o p (after host crew c₀ l m).engine ∧
      ∀ run, (after host crew c₀ l m).engine.runs.get? p.runId = some run →
        run.state ≠ RunState.done := by
  obtain ⟨earlier, hearlier, hrecord, hdone⟩ := h
  obtain ⟨m, hm, hengine⟩ := step_of_suffix h₀ hl (hearlier.trans hlog)
  rw [← hengine] at hrecord hdone
  exact ⟨m, hm, hrecord, hdone trivial⟩

/-- **A query that is done was in the inbox before, and a hint is given once, after that.**  In every
run of the system in which nobody else speaks in the name of a worker: if an agent has returned with
status 0 and a text that is not blank, for a run whose task is a query, and the run is done, then
its result was in the inbox after an earlier step, after which the run was not done.  No worker
gives two hints for one offer, and when a hint is given, the result was in the inbox before. -/
theorem committed_before_done (h₀ : (crew.threads host).machine.init c₀)
    (hl : ∀ x ∈ l, crew.Lawful x) (n : ℕ) :
    (∀ i event agentId instruction free text run,
      Happening.asked i event agentId instruction (AgentOutcome.returned free 0 text) ∈
        (after host crew c₀ l n).log → PyStr.strip text ≠ [] →
      (after host crew c₀ l n).engine.runs.get? event.runId = some run →
      run.state = RunState.done →
      (∃ m ≤ n, ∃ task, (after host crew c₀ l m).engine.registry.tasks.get?
          (run.event.taskId.getD 0) = some task ∧
        task.generation = run.event.taskGeneration ∧ task.method = TaskMethod.query) →
      ∃ m ≤ n, InInbox crew i event.offerId (Happening.resultFor event agentId text)
          (after host crew c₀ l m).engine ∧
        ∀ run, (after host crew c₀ l m).engine.runs.get? event.runId = some run →
          run.state ≠ RunState.done) ∧
    ∀ i, (hints i (after host crew c₀ l n).log).Nodup ∧ ∀ o result,
      (after host crew c₀ l (n + 1)).log =
        Happening.hinted i o result :: (after host crew c₀ l n).log →
      ∃ m ≤ n, InInbox crew i o result (after host crew c₀ l m).engine := by
  obtain ⟨notes, hkept⟩ := kept_after h₀ hl n
  have hreach := hkept.1.start
  constructor
  · rintro i event agentId instruction free text run hasked htext hrun hdone
      ⟨m, hm, task, htask, hgen, hmethod⟩
    obtain ⟨later, earlier, hlog⟩ := List.append_of_mem hasked
    have hsuffix : Happening.asked i event agentId instruction
        (AgentOutcome.returned free 0 text) :: earlier <:+ (after host crew c₀ l n).log :=
      ⟨later, hlog.symm⟩
    obtain ⟨task', hreads⟩ := hkept.1.questions i event agentId instruction _ earlier hsuffix
    have hsuffix' := (List.suffix_cons _ _).trans hsuffix
    -- The event is the one of the run, so it names the same task.
    have hevent : run.event = { event with offerId := run.event.offerId } := by
      obtain ⟨log, hle, hknown⟩ := hreads.event
      have hlater := TaskEngine.known_leads (Happening.reachable_engineAfter hreach log)
        (Happening.leads_engineAfter (hle.trans hsuffix')) hknown
      rw [← hkept.1.engine] at hlater
      exact hlater.2 run hrun
    have htaskId : run.event.taskId = event.taskId := by rw [hevent]
    have hgeneration : run.event.taskGeneration = event.taskGeneration := by rw [hevent]
    rw [htaskId] at htask
    rw [hgeneration] at hgen
    -- The method of a task is the same at all times.
    have hquery : task'.method = TaskMethod.query := by
      obtain ⟨notes', hkept'⟩ := kept_after h₀ hl m
      have honce : Once host c₀.state.engine
          (Registered (event.taskId.getD 0) event.taskGeneration task)
          (after host crew c₀ l n).log := by
        refine ⟨(after host crew c₀ l m).log, log_le hm, ?_⟩
        rw [← hkept'.1.engine]
        exact ⟨htask, hgen⟩
      exact (Happening.method_of_once hreach (hreads.task.later hsuffix') honce).trans hmethod
    have howed : Owed host c₀.state.engine i event.runId event.offerId
        (Happening.resultFor event agentId text) (after host crew c₀ l n).log :=
      ⟨event, agentId, instruction, free, text, earlier, hsuffix, ⟨task', hreads.task, hquery⟩,
        htext, rfl, rfl, rfl⟩
    exact step_of_committed h₀ hl (List.suffix_refl _)
      (hkept.committed trivial howed hrun hdone)
  · intro i
    refine ⟨hkept.1.hints i, fun o result hlog => ?_⟩
    obtain ⟨notes', hkept'⟩ := kept_after h₀ hl (n + 1)
    have hmem : Happening.hinted i o result ∈ (after host crew c₀ l (n + 1)).log := by
      rw [hlog]
      exact List.mem_cons_self
    obtain ⟨_, ⟨earlier, hearlier, hrecord, _⟩, _⟩ := hkept'.1.hinted i o result hmem
    rw [hlog] at hearlier
    rcases List.suffix_cons_iff.1 hearlier with rfl | hearlier
    · refine ⟨n, le_rfl, ?_⟩
      rw [Happening.engineAfter_hinted, ← hkept.1.engine] at hrecord
      exact hrecord
    · obtain ⟨m, hm, hengine⟩ := step_of_suffix h₀ hl hearlier
      rw [← hengine] at hrecord
      exact ⟨m, hm, hrecord⟩

/-- A worker whose agent may use the tool `see`. -/
def seeing : Workers Unit where
  config := fun _ =>
    { owner := "w", permissions := [("agent_1", ["see"])], activeStates := fun _ _ => none }
  peer := fun _ => "p"
  owner_injective := fun _ _ _ => rfl

/-- The choices of an environment in which all goes well. -/
def telling : WorkerEffect → WorkerChoice
  | WorkerEffect.runAgent _ _ _ => WorkerChoice.outcome (AgentOutcome.returned true 0 "ok")
  | e => WorkerChoice.smooth e

/-- A query is created and started, the worker pulls it, executes it and finishes it. -/
def querySteps : List (WorkerThread Unit × WorkerChoice) :=
  let query := AdminOp.createPeriodicTask "watch" "look" ["see"] (PyNumber.finite 60) "query"
    "litert" none
  (seeing.threads Host.ascii).turnSteps 100 start
    [outer (Input.call Env.quiet (Op.admin query) []), outer (Input.call Env.quiet (Op.runTask 1) []),
      (WorkerThread.polling (), WorkerChoice.poll, telling),
      (WorkerThread.executing (), WorkerChoice.execute 0, telling),
      (WorkerThread.polling (), WorkerChoice.poll, telling)]

theorem lawful_querySteps : ∀ x ∈ querySteps, seeing.Lawful x := by
  intro x hx
  have htelling : ∀ (j : WorkerThread Unit) e, seeing.Lawful (j, telling e) := by
    intro j e
    cases e <;> trivial
  have hsmooth : ∀ (j : WorkerThread Unit) e, seeing.Lawful (j, WorkerChoice.smooth e) := by
    intro j e
    cases e <;> trivial
  obtain ⟨r, hr, hx⟩ := Threads.mem_turnSteps hx
  simp only [List.mem_cons, List.not_mem_nil, or_false] at hr
  rcases hr with rfl | rfl | rfl | rfl | rfl <;> rcases hx with rfl | ⟨e, rfl⟩ <;>
    first | exact True.intro | exact hsmooth _ e | exact htelling _ e

/-- The agent has answered on behalf of a query, and the run is done. -/
def Answered (s : WorkerSystem Unit) : Happening Unit → Bool
  | Happening.asked _ event _ _ (AgentOutcome.returned _ code text) =>
      decide (code = 0) && decide (PyStr.strip text ≠ []) &&
        (s.engine.runs.get? event.runId).any fun run => decide (run.state = RunState.done) &&
          (s.engine.registry.tasks.get? (run.event.taskId.getD 0)).any fun task =>
            decide (task.generation = run.event.taskGeneration) &&
              decide (task.method = TaskMethod.query)
  | _ => false

/-- The query of these steps is done, so its result was in the inbox before. -/
theorem committed_before_done_query : ∃ i o p, ∃ m ≤ querySteps.length,
    InInbox seeing i o p (after Host.ascii seeing start querySteps m).engine := by
  have hinit : (seeing.threads Host.ascii).machine.init start := start_init Host.ascii
  have h := (committed_before_done hinit lawful_querySteps querySteps.length).1
  have hany : ((after Host.ascii seeing start querySteps querySteps.length).log.any
      (Answered (after Host.ascii seeing start querySteps querySteps.length))) = true := by
    decide +kernel
  obtain ⟨x, hx, hanswered⟩ := List.any_eq_true.1 hany
  cases x with
  | asked i event agentId instruction outcome =>
      cases outcome with
      | raised => cases hanswered
      | returned free code text =>
          simp only [Answered, Bool.and_eq_true, decide_eq_true_eq, Option.any_eq_true] at hanswered
          obtain ⟨⟨rfl, htext⟩, run, hrun, hdone, task, htask, hgen, hmethod⟩ := hanswered
          obtain ⟨m, hm, hinbox, _⟩ := h i event agentId instruction free text run hx htext hrun
            hdone ⟨_, le_rfl, task, htask, hgen, hmethod⟩
          exact ⟨i, event.offerId, _, m, hm, hinbox⟩
  | served | told | hinted => cases hanswered

end Workers
