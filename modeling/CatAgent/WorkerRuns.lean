/-
**What the service and its workers keep.**

The runs that have begun, the tables of the workers and what the threads know are tied together by
one invariant.  A worker that has called the model for a run either still executes it, or has to
finish it, or has been told that it is finished, and then the run has ended.  A result that was made
is published before the run is made done.

The steps of the threads are grouped by what they change: something is written down, a thread knows
something else, or a worker changes its tables.

Main definitions:

* `RunNote`, `RunNote.Knows` — what a thread knows;
* `WorkerSystem.Executions` — the invariant;
* `WorkerSystem.Accounted` — a run that is done, and every late request, have been asked for.

Main results:

* `Executions.cons`, `Executions.renote`, `Executions.tables` — what the three kinds of changes need;
* `Accounted.call`, `Accounted.respond` — who has asked for it.
-/

import CatAgent.WorkerBookkeeping
import CatAgent.WorkerHistory

set_option relaxedAutoImplicit false
set_option autoImplicit false

/-- What a thread of a worker knows. -/
inductive RunNote where
  | idle
  /-- It executes this job. -/
  | working (job : Job)
  /-- The run of the job has begun. -/
  | begun (job : Job)
  /-- The model has been called for the job, and its result may have been recorded. -/
  | asked (job : Job) (outcome : AgentOutcome) (recorded : Bool)
  /-- There is room for another offer. -/
  | room
  /-- The same, and this offer has been pulled. -/
  | pulled (event : SystemEvent)
  /-- The same, and the task of the offer has been read. -/
  | reading (event : SystemEvent) (task : TaskRecord)
  /-- These runs are to be finished. -/
  | finishing (entries : List (PyStr × PendingFinish))
  /-- The first one has a result. -/
  | publishing (token : PyStr) (entry : PendingFinish) (result : QueryPayload)
      (entries : List (PyStr × PendingFinish))
  /-- The result is in the inbox. -/
  | published (token : PyStr) (entry : PendingFinish) (result : QueryPayload)
      (entries : List (PyStr × PendingFinish))
  /-- The hint has been given. -/
  | hinted (token : PyStr) (entry : PendingFinish) (entries : List (PyStr × PendingFinish))
  /-- How the first one is finished is settled. -/
  | settled (token : PyStr) (entry : PendingFinish) (entries : List (PyStr × PendingFinish))
  /-- The first one is finished. -/
  | closed (token : PyStr) (entry : PendingFinish) (entries : List (PyStr × PendingFinish))

/-- The event of the job is the one of its run, and the task of the job was registered when the
worker read it, with the generation of the run. -/
structure Job.Reads (host : Host) (e₀ : TaskEngine) {ι : Type} (job : Job)
    (log : List (Happening ι)) : Prop where
  event : Happening.Once host e₀ (fun e => job.event.Known host e) log
  task : Happening.Once host e₀
    (Happening.Registered (job.event.taskId.getD 0) job.event.taskGeneration job.task) log

theorem Job.Reads.later {host : Host} {e₀ : TaskEngine} {ι : Type} {job : Job}
    {log log' : List (Happening ι)} (h : job.Reads host e₀ log) (hlog : log <:+ log') :
    job.Reads host e₀ log' := ⟨h.event.later hlog, h.task.later hlog⟩

/-- These runs are still to be finished, in this way. -/
def NativeTaskWorker.Listed (w : NativeTaskWorker) (entries : List (PyStr × PendingFinish)) : Prop :=
  (entries.map Prod.fst).Nodup ∧ ∀ e ∈ entries, w.pendingFinishes.get? e.1 = some e.2

namespace RunNote

variable {ι : Type}

/-- The job that is being executed. -/
def jobs : RunNote → List Job
  | working job | begun job | asked job _ _ => [job]
  | _ => []

/-- The offer whose result has been recorded by the job that is being executed. -/
def recorded : RunNote → Option PyStr
  | asked job _ true => some job.token
  | _ => none

/-- The run and the offer for which the model has been called. -/
def asking : RunNote → Option (PyStr × PyStr)
  | asked job _ _ => some (job.event.runId, job.token)
  | _ => none

/-- The offer for which the hint has been given, while its result is still recorded. -/
def hinting : RunNote → Option PyStr
  | hinted token _ _ => some token
  | _ => none

/-- The offer that the thread is dealing with. -/
def token : RunNote → Option PyStr
  | working job | begun job | asked job _ _ => some job.token
  | publishing token _ _ _ | published token _ _ _ | hinted token _ _ | settled token _ _
  | closed token _ _ => some token
  | _ => none

/-- A note of an executing thread. -/
def Executes : RunNote → Prop
  | idle | working _ | begun _ | asked _ _ _ => True
  | _ => False

/-- A note of a polling thread. -/
def Polls : RunNote → Prop
  | working _ | begun _ | asked _ _ _ => False
  | _ => True

open Happening (Begins Starts Owed Committed Ready Once)

variable (host : Host) (e₀ : TaskEngine) (lawful : Prop) (crew : Workers ι) in
/-- What the note of a thread of the worker `i` says is true. -/
def Knows (i : ι) (s : WorkerSystem ι) : RunNote → Prop
  | idle => True
  | working job => job.Reads host e₀ s.log
  | begun job => job.Reads host e₀ s.log ∧ (∃ x ∈ s.log, Begins i job.event.runId job.token x) ∧
      ∀ x ∈ s.log, ∀ k, ¬ Starts i k job.token x
  | asked job outcome recorded =>
      (∃ instruction earlier,
        Happening.asked i job.event job.agentId instruction outcome :: earlier <:+ s.log ∧
          job.Reads host e₀ earlier) ∧
      (∀ k p, Owed host e₀ i k job.token p s.log → ∃ free text,
        outcome = AgentOutcome.returned free 0 text ∧ job.task.method = TaskMethod.query ∧
          PyStr.strip text ≠ [] ∧ p = NativeTaskWorker.resultOf job text) ∧
      (recorded = true → ∃ free text, outcome = AgentOutcome.returned free 0 text ∧
        (s.workers i).pendingResults.get? job.token =
          some (NativeTaskWorker.resultOf job text)) ∧
      (recorded = false → ∀ p, Happening.hinted i job.token p ∉ s.log)
  | room => (s.workers i).seen.length < NativeTaskWorker.maxUnacknowledged
  | pulled event => (s.workers i).seen.length < NativeTaskWorker.maxUnacknowledged ∧
      Once host e₀ (fun e => event.Known host e) s.log
  | reading event task => (s.workers i).seen.length < NativeTaskWorker.maxUnacknowledged ∧
      Once host e₀ (fun e => event.Known host e) s.log ∧
      Once host e₀ (fun e => e.registry.tasks.get? (event.taskId.getD 0) = some task) s.log
  | finishing entries => (s.workers i).Listed entries
  | publishing token entry result entries => (s.workers i).Listed ((token, entry) :: entries) ∧
      (s.workers i).pendingResults.get? token = some result
  | published token entry result entries => (s.workers i).Listed ((token, entry) :: entries) ∧
      (s.workers i).pendingResults.get? token = some result ∧
      Committed host e₀ lawful crew i token result s.log
  | hinted token entry entries => (s.workers i).Listed ((token, entry) :: entries) ∧
      ∃ result, (s.workers i).pendingResults.get? token = some result ∧
        Committed host e₀ lawful crew i token result s.log
  | settled token entry entries => (s.workers i).Listed ((token, entry) :: entries) ∧
      token ∉ (s.workers i).pendingResults.keys ∧
      Ready host e₀ lawful crew i token entry.outcome s.log
  | closed token entry entries => (s.workers i).Listed ((token, entry) :: entries) ∧
      token ∉ (s.workers i).pendingResults.keys ∧
      ∀ x ∈ s.log, ∀ k, Starts i k token x → Tables.Ended host k s.engine.toTables

end RunNote

namespace WorkerSystem

variable {ι : Type} [DecidableEq ι] {host : Host} {e₀ : TaskEngine} {lawful : Prop}
  {crew : Workers ι} {s s' : WorkerSystem ι} {notes : WorkerThread ι → RunNote}
  {j : WorkerThread ι} {i : ι} {n : RunNote} {x : Happening ι}

open Happening (Begins Starts AsksDone Owed Committed Ready Harmless engineAfter asks hints)
open NativeTaskWorker (Books)

variable (host) in
/-- Where the run `k` is that the worker `i` has started under the offer `o`: it is being executed,
it is to be finished, or it has ended. -/
def Placed (i : ι) (k o : PyStr) (s : WorkerSystem ι) (notes : WorkerThread ι → RunNote) : Prop :=
  (notes (WorkerThread.executing i)).asking = some (k, o) ∨
    (∃ e, (s.workers i).pendingFinishes.get? o = some e ∧ e.event.runId = k) ∨
    Tables.Ended host k s.engine.toTables

variable (host e₀ lawful crew) in
/-- **The invariant of the service and its workers.** -/
structure Executions (s : WorkerSystem ι) (notes : WorkerThread ι → RunNote) : Prop where
  start : (TaskEngine.machine host).Reachable e₀
  engine : s.engine = engineAfter host e₀ s.log
  books : ∀ i, Books ((notes (WorkerThread.executing i)).jobs ++ (s.workers i).jobs)
    (notes (WorkerThread.executing i)).recorded (s.workers i)
  jobs : ∀ i, ∀ job ∈ (s.workers i).jobs, job.Reads host e₀ s.log
  entries : ∀ i t e, (s.workers i).pendingFinishes.get? t = some e → e.event.offerId = t ∧
    (Harmless e.outcome ∨ ∃ x ∈ s.log, Begins i e.event.runId t x)
  begun : ∀ i k o, ∀ x ∈ s.log, Begins i k o x →
    Tables.Begun host (crew.config i).owner (crew.peer i) k o s.engine.toTables
  /-- A run begins under one offer of one worker, and an offer is for one run. -/
  unique : ∀ i k o i' k' o', ∀ x ∈ s.log, ∀ x' ∈ s.log, Begins i k o x → Begins i' k' o' x' →
    k = k' ∨ o = o' → i = i' ∧ k = k' ∧ o = o'
  started : ∀ i k o, ∀ x ∈ s.log, Starts i k o x →
    (∃ y ∈ s.log, Begins i k o y) ∧ Placed host i k o s notes
  questions : ∀ i event agentId instruction outcome earlier,
    Happening.asked i event agentId instruction outcome :: earlier <:+ s.log →
      ∃ task, Job.Reads host e₀ ⟨event, task, agentId⟩ earlier
  once : (asks s.log).Nodup
  results : ∀ i t p, (s.workers i).pendingResults.get? t = some p →
    ∃ k, Owed host e₀ i k t p s.log
  owed : ∀ i k t p e, Owed host e₀ i k t p s.log →
    (s.workers i).pendingFinishes.get? t = some e → Committed host e₀ lawful crew i t p s.log ∨
      Harmless e.outcome ∨ (s.workers i).pendingResults.get? t = some p
  sent : ∀ i k t, ∀ x ∈ s.log, AsksDone i k t x → ∀ k' p, Owed host e₀ i k' t p s.log →
    Committed host e₀ lawful crew i t p s.log
  hinted : ∀ i t p, Happening.hinted i t p ∈ s.log → (∃ k, Owed host e₀ i k t p s.log) ∧
    Committed host e₀ lawful crew i t p s.log ∧ ((s.workers i).pendingResults.get? t = none ∨
      (notes (WorkerThread.polling i)).hinting = some t)
  hints : ∀ i, (hints i s.log).Nodup
  polling : ∀ i, (notes (WorkerThread.polling i)).Polls ∧
    (notes (WorkerThread.polling i)).Knows host e₀ lawful crew i s
  executing : ∀ i, (notes (WorkerThread.executing i)).Executes ∧
    (notes (WorkerThread.executing i)).Knows host e₀ lawful crew i s

/-! ### What is written down -/

/-- What is written down is about this offer of the worker `i`. -/
def About (i : ι) (o : PyStr) (x : Happening ι) : Prop :=
  (∃ k, Starts i k o x) ∨ ∃ p, x = Happening.hinted i o p

omit [DecidableEq ι] in
/-- **A note stays true while things are written down that are about another offer.** -/
theorem knows_cons (h : n.Knows host e₀ lawful crew i s) (hworkers : s'.workers i = s.workers i)
    (hlog : s'.log = x :: s.log)
    (hended : ∀ k, Tables.Ended host k s.engine.toTables → Tables.Ended host k s'.engine.toTables)
    (hx : ∀ o, n.token = some o → ¬ About i o x) : n.Knows host e₀ lawful crew i s' := by
  have hle : s.log <:+ s'.log := hlog ▸ List.suffix_cons x s.log
  -- Nothing new has been written down about the offer of the note.
  have hstarts : ∀ o, n.token = some o → ∀ y ∈ s'.log, ∀ k, Starts i k o y → y ∈ s.log := by
    intro o ho y hy k hk
    rw [hlog] at hy
    rcases List.mem_cons.1 hy with rfl | hy
    · exact absurd (Or.inl ⟨k, hk⟩) (hx o ho)
    · exact hy
  have howed : ∀ o, n.token = some o → ∀ k p, Owed host e₀ i k o p s'.log →
      Owed host e₀ i k o p s.log := by
    intro o ho k p hp
    rw [hlog] at hp
    exact hp.of_cons fun hk => hx o ho (Or.inl ⟨k, hk⟩)
  cases n with
  | idle => trivial
  | working job => exact h.later hle
  | begun job =>
      obtain ⟨hreads, ⟨y, hy, hbegins⟩, hnone⟩ := h
      exact ⟨hreads.later hle, ⟨y, hle.subset hy, hbegins⟩,
        fun y hy k hk => hnone y (hstarts _ rfl y hy k hk) k hk⟩
  | asked job outcome recorded =>
      obtain ⟨⟨instruction, earlier, hsuffix, hreads⟩, howes, hrecorded, hhinted⟩ := h
      refine ⟨⟨instruction, earlier, hsuffix.trans hle, hreads⟩,
        fun k p hp => howes k p (howed _ rfl k p hp), ?_, fun hr p hp => ?_⟩
      · rw [hworkers]
        exact hrecorded
      · rw [hlog] at hp
        rcases List.mem_cons.1 hp with rfl | hp
        · exact hx _ rfl (Or.inr ⟨p, rfl⟩)
        · exact hhinted hr p hp
  | room =>
      change (s'.workers i).seen.length < _
      rw [hworkers]
      exact h
  | pulled event =>
      refine ⟨?_, h.2.later hle⟩
      rw [hworkers]
      exact h.1
  | reading event task =>
      refine ⟨?_, h.2.1.later hle, h.2.2.later hle⟩
      rw [hworkers]
      exact h.1
  | finishing entries =>
      change (s'.workers i).Listed entries
      rw [hworkers]
      exact h
  | publishing token entry result entries =>
      obtain ⟨hlisted, hresult⟩ := h
      refine ⟨?_, ?_⟩
      · rw [hworkers]
        exact hlisted
      · rw [hworkers]
        exact hresult
  | published token entry result entries =>
      obtain ⟨hlisted, hresult, hcommitted⟩ := h
      refine ⟨?_, ?_, hcommitted.later hle⟩
      · rw [hworkers]
        exact hlisted
      · rw [hworkers]
        exact hresult
  | hinted token entry entries =>
      obtain ⟨hlisted, result, hresult, hcommitted⟩ := h
      refine ⟨?_, result, ?_, hcommitted.later hle⟩
      · rw [hworkers]
        exact hlisted
      · rw [hworkers]
        exact hresult
  | settled token entry entries =>
      obtain ⟨hlisted, hresult, hready⟩ := h
      refine ⟨?_, ?_, hready.imp_right fun hall k p hp => (hall k p (howed _ rfl k p hp)).later hle⟩
      · rw [hworkers]
        exact hlisted
      · rw [hworkers]
        exact hresult
  | closed token entry entries =>
      obtain ⟨hlisted, hresult, hclosed⟩ := h
      refine ⟨?_, ?_, fun y hy k hk => hended k (hclosed y (hstarts _ rfl y hy k hk) k hk)⟩
      · rw [hworkers]
        exact hlisted
      · rw [hworkers]
        exact hresult

omit [DecidableEq ι] in
/-- The offer that a polling thread deals with is still to be finished. -/
theorem key_of_token (hpolls : n.Polls) (h : n.Knows host e₀ lawful crew i s) {o : PyStr}
    (ho : n.token = some o) : o ∈ (s.workers i).pendingFinishes.keys := by
  have hkey : ∀ {entry entries}, (s.workers i).Listed ((o, entry) :: entries) →
      o ∈ (s.workers i).pendingFinishes.keys :=
    fun hlisted => PyDict.mem_keys_of_get? (hlisted.2 _ List.mem_cons_self)
  cases n with
  | idle | room | pulled | reading | finishing => cases ho
  | working | begun | asked => exact hpolls.elim
  | publishing | published | hinted | settled | closed =>
      cases ho
      exact hkey h.1

/-- The offer of the job that is being executed is not to be finished. -/
theorem Executions.not_key (h : Executions host e₀ lawful crew s notes) {job : Job}
    (hjob : job ∈ (notes (WorkerThread.executing i)).jobs) :
    job.token ∉ (s.workers i).pendingFinishes.keys := fun hkey =>
  (h.books i).finished _ hkey (List.mem_map_of_mem (List.mem_append_left _ hjob))

theorem Executions.not_key_of_token (h : Executions host e₀ lawful crew s notes) {o : PyStr}
    (ho : (notes (WorkerThread.executing i)).token = some o) :
    o ∉ (s.workers i).pendingFinishes.keys := by
  have hexecutes := (h.executing i).1
  cases hn : notes (WorkerThread.executing i) with
  | idle =>
      rw [hn] at ho
      cases ho
  | working job | begun job | asked job =>
      rw [hn] at ho
      cases ho
      exact h.not_key (by rw [hn]; exact List.mem_singleton_self job)
  | room | pulled | reading | finishing | publishing | published | hinted | settled | closed =>
      rw [hn] at hexecutes
      exact hexecutes.elim

omit [DecidableEq ι] in
/-- A run begins under one offer of one worker, when that is so of what was written down before, and
of it and what is written down. -/
theorem Executions.unique_cons {log : List (Happening ι)}
    (h : ∀ i k o i' k' o', ∀ y ∈ log, ∀ y' ∈ log, Begins i k o y → Begins i' k' o' y' →
      k = k' ∨ o = o' → i = i' ∧ k = k' ∧ o = o')
    (hx : ∀ i k o, Begins i k o x → ∀ i' k' o', ∀ y ∈ log, Begins i' k' o' y →
      k = k' ∨ o = o' → i = i' ∧ k = k' ∧ o = o') :
    ∀ i k o i' k' o', ∀ y ∈ x :: log, ∀ y' ∈ x :: log, Begins i k o y → Begins i' k' o' y' →
      k = k' ∨ o = o' → i = i' ∧ k = k' ∧ o = o' := by
  intro i k o i' k' o' y hmem y' hmem' hb hb' heq
  rcases List.mem_cons.1 hmem with rfl | hy
  · rcases List.mem_cons.1 hmem' with rfl | hy'
    · -- One permission to begin is for one run under one offer.
      obtain ⟨_, _, rfl⟩ := hb
      obtain ⟨_, _, heq'⟩ := hb'
      cases heq'
      exact ⟨rfl, rfl, rfl⟩
    · exact hx i k o hb i' k' o' y' hy' hb' heq
  · rcases List.mem_cons.1 hmem' with rfl | hy'
    · obtain ⟨hi, hk, ho⟩ := hx i' k' o' hb' i k o y hy hb (heq.imp Eq.symm Eq.symm)
      exact ⟨hi.symm, hk.symm, ho.symm⟩
    · exact h i k o i' k' o' y hy y' hy' hb hb' heq

omit [DecidableEq ι] in
/-- A run stays where it is while the tables of the worker are the same and the engine goes on. -/
theorem Placed.later {notes' : WorkerThread ι → RunNote} {k o : PyStr}
    (h : Placed host i k o s notes)
    (hasking : ∀ p, (notes (WorkerThread.executing i)).asking = some p →
      (notes' (WorkerThread.executing i)).asking = some p)
    (hworkers : s'.workers i = s.workers i)
    (hended : Tables.Ended host k s.engine.toTables → Tables.Ended host k s'.engine.toTables) :
    Placed host i k o s' notes' := by
  rcases h with ha | ⟨e, he, hk⟩ | hend
  · exact Or.inl (hasking _ ha)
  · exact Or.inr (Or.inl ⟨e, hworkers ▸ he, hk⟩)
  · exact Or.inr (Or.inr (hended hend))

/-- **Something is written down.** -/
theorem Executions.cons (h : Executions host e₀ lawful crew s notes)
    {notes' : WorkerThread ι → RunNote}
    (hworkers : s'.workers = s.workers) (hlog : s'.log = x :: s.log)
    (hengine : s'.engine = engineAfter host e₀ s'.log)
    (hbooks : ∀ i, (notes' (WorkerThread.executing i)).jobs =
        (notes (WorkerThread.executing i)).jobs ∧
      (notes' (WorkerThread.executing i)).recorded = (notes (WorkerThread.executing i)).recorded)
    (hasking : ∀ i p, (notes (WorkerThread.executing i)).asking = some p →
      (notes' (WorkerThread.executing i)).asking = some p)
    (hhinting : ∀ i t, (notes (WorkerThread.polling i)).hinting = some t →
      (notes' (WorkerThread.polling i)).hinting = some t)
    (hbegins : ∀ i k o, Begins i k o x →
      Tables.Begun host (crew.config i).owner (crew.peer i) k o s'.engine.toTables ∧
        ∀ i' k' o', ∀ y ∈ s.log, Begins i' k' o' y → k = k' ∨ o = o' → i = i' ∧ k = k' ∧ o = o')
    (hstarts : ∀ i k o, Starts i k o x →
      (∃ y ∈ s.log, Begins i k o y) ∧ Placed host i k o s' notes')
    (hasked : ∀ i event agentId instruction outcome,
      x = Happening.asked i event agentId instruction outcome →
        ∃ task, Job.Reads host e₀ ⟨event, task, agentId⟩ s.log)
    (honce : (asks (x :: s.log)).Nodup)
    (howed : ∀ i k t p, Owed host e₀ i k t p (x :: s.log) → Owed host e₀ i k t p s.log ∨
      t ∉ (s.workers i).pendingFinishes.keys ∧ ∀ y ∈ x :: s.log, ∀ k', ¬ AsksDone i k' t y)
    (hsent : ∀ i k t, AsksDone i k t x → ∀ k' p, Owed host e₀ i k' t p s.log →
      Committed host e₀ lawful crew i t p s.log)
    (hhinted : ∀ i t p, x = Happening.hinted i t p → (∃ k, Owed host e₀ i k t p s.log) ∧
      Committed host e₀ lawful crew i t p s.log ∧
        (notes' (WorkerThread.polling i)).hinting = some t)
    (hhints : ∀ i, (Happening.hints i (x :: s.log)).Nodup)
    (hpolling : ∀ i, (notes' (WorkerThread.polling i)).Polls ∧
      (notes' (WorkerThread.polling i)).Knows host e₀ lawful crew i s')
    (hexecuting : ∀ i, (notes' (WorkerThread.executing i)).Executes ∧
      (notes' (WorkerThread.executing i)).Knows host e₀ lawful crew i s') :
    Executions host e₀ lawful crew s' notes' := by
  have hle : s.log <:+ s'.log := hlog ▸ List.suffix_cons x s.log
  have hreach : (TaskEngine.machine host).Reachable s.engine := by
    rw [h.engine]
    exact Happening.reachable_engineAfter h.start _
  -- What was true of ended and begun runs stays true, since the engine has only gone on.
  have hleads : (TaskEngine.machine host).Leads (fun _ _ => True) s.engine s'.engine := by
    rw [h.engine, hengine]
    exact Happening.leads_engineAfter hle
  have hmem : ∀ y ∈ s'.log, y = x ∨ y ∈ s.log := by
    intro y hy
    rw [hlog] at hy
    exact List.mem_cons.1 hy
  exact
    { start := h.start
      engine := hengine
      books := fun i => by
        rw [(hbooks i).1, (hbooks i).2, hworkers]
        exact h.books i
      jobs := fun i job hjob => by
        rw [hworkers] at hjob
        exact (h.jobs i job hjob).later hle
      entries := fun i t e he => by
        rw [hworkers] at he
        obtain ⟨ht, hout⟩ := h.entries i t e he
        refine ⟨ht, hout.imp_right ?_⟩
        rintro ⟨y, hy, hb⟩
        exact ⟨y, hle.subset hy, hb⟩
      begun := fun i k o y hy hb => by
        rcases hmem y hy with rfl | hy
        · exact (hbegins i k o hb).1
        · exact TaskEngine.begun_leads hreach hleads (h.begun i k o y hy hb)
      unique := by
        rw [hlog]
        exact Executions.unique_cons h.unique fun i k o hb => (hbegins i k o hb).2
      started := fun i k o y hy hst => by
        rcases hmem y hy with rfl | hy
        · obtain ⟨⟨z, hz, hb⟩, hplaced⟩ := hstarts i k o hst
          exact ⟨⟨z, hle.subset hz, hb⟩, hplaced⟩
        · obtain ⟨⟨z, hz, hb⟩, hplaced⟩ := h.started i k o y hy hst
          exact ⟨⟨z, hle.subset hz, hb⟩, hplaced.later (hasking i) (congrFun hworkers i)
            fun hend => TaskEngine.ended_leads hreach hleads hend⟩
      questions := fun i event agentId instruction outcome earlier hsuffix => by
        rw [hlog] at hsuffix
        rcases List.suffix_cons_iff.1 hsuffix with heq | hsuffix
        · obtain ⟨rfl, rfl⟩ := List.cons.inj heq
          exact hasked i event agentId instruction outcome rfl
        · exact h.questions i event agentId instruction outcome earlier hsuffix
      once := hlog ▸ honce
      results := fun i t p hp => by
        rw [hworkers] at hp
        exact (h.results i t p hp).imp fun _ ho => ho.later hle
      owed := fun i k t p e ho he => by
        rw [hworkers] at he ⊢
        rw [hlog] at ho
        rcases howed i k t p ho with hold | ⟨hkey, _⟩
        · exact (h.owed i k t p e hold he).imp_left fun hc => hc.later hle
        · exact absurd (PyDict.mem_keys_of_get? he) hkey
      sent := fun i k t y hy hd k' p ho => by
        rw [hlog] at ho
        rcases howed i k' t p ho with hold | ⟨_, hnone⟩
        · rcases hmem y hy with rfl | hy
          · exact (hsent i k t hd k' p hold).later hle
          · exact (h.sent i k t y hy hd k' p hold).later hle
        · exact absurd hd (hnone y (hlog ▸ hy) k)
      hinted := fun i t p hp => by
        rw [hworkers]
        rcases hmem _ hp with heq | hp
        · obtain ⟨⟨k, ho⟩, hc, hh⟩ := hhinted i t p heq.symm
          exact ⟨⟨k, ho.later hle⟩, hc.later hle, Or.inr hh⟩
        · obtain ⟨⟨k, ho⟩, hc, hh⟩ := h.hinted i t p hp
          exact ⟨⟨k, ho.later hle⟩, hc.later hle, hh.imp_right (hhinting i t)⟩
      hints := fun i => hlog ▸ hhints i
      polling := hpolling
      executing := hexecuting }

/-- Something that is no call of the model, no hint, no permission to begin and no request to make a
run done. -/
structure Passive (x : Happening ι) : Prop where
  begins : ∀ i k o, ¬ Begins i k o x
  starts : ∀ i k o, ¬ Starts i k o x
  hinted : ∀ i t p, x ≠ Happening.hinted i t p

omit [DecidableEq ι] in
theorem Passive.asks (hx : Passive x) (log : List (Happening ι)) :
    Happening.asks (x :: log) = Happening.asks log := by
  cases x with
  | asked i event agentId instruction outcome =>
      exact absurd (Or.inl ⟨event, agentId, instruction, outcome, rfl, rfl, rfl⟩)
        (hx.starts i event.runId event.offerId)
  | served | told | hinted => rfl

theorem Passive.hints (hx : Passive x) (log : List (Happening ι)) (i : ι) :
    Happening.hints i (x :: log) = Happening.hints i log := by
  cases x with
  | hinted i' offerId result => exact absurd rfl (hx.hinted i' offerId result)
  | served | told | asked => rfl

omit [DecidableEq ι] in
theorem Passive.not_about (hx : Passive x) (i : ι) (o : PyStr) : ¬ About i o x := by
  rintro (⟨k, hk⟩ | ⟨p, hp⟩)
  · exact hx.starts i k o hk
  · exact hx.hinted i o p hp

/-- **Most of what is written down changes nothing.** -/
theorem Executions.passive (h : Executions host e₀ lawful crew s notes)
    (hx : Passive x)
    (hworkers : s'.workers = s.workers) (hlog : s'.log = x :: s.log)
    (hengine : s'.engine = engineAfter host e₀ s'.log) :
    Executions host e₀ lawful crew s' notes := by
  have hended : ∀ k, Tables.Ended host k s.engine.toTables →
      Tables.Ended host k s'.engine.toTables := by
    intro k
    rw [h.engine, hengine]
    exact TaskEngine.ended_leads (Happening.reachable_engineAfter h.start _)
      (Happening.leads_engineAfter (hlog ▸ List.suffix_cons x s.log))
  refine h.cons hworkers hlog hengine (fun _ => ⟨rfl, rfl⟩) (fun _ _ ha => ha) (fun _ _ hh => hh)
    (fun i k o hb => absurd hb (hx.begins i k o)) (fun i k o hs => absurd hs (hx.starts i k o))
    (fun i event agentId instruction outcome heq => absurd
      (Or.inl ⟨event, agentId, instruction, outcome, heq, rfl, rfl⟩)
      (hx.starts i event.runId event.offerId)) ?_
    (fun i k t p ho => Or.inl (ho.of_cons (hx.starts i k t)))
    (fun i k t hd => absurd (Or.inr hd) (hx.starts i k t))
    (fun i t p hp => absurd hp (hx.hinted i t p)) ?_ ?_ ?_
  · rw [hx.asks]
    exact h.once
  · intro i
    rw [hx.hints]
    exact h.hints i
  · exact fun i => ⟨(h.polling i).1, knows_cons (h.polling i).2 (congrFun hworkers i) hlog hended
      fun o _ => hx.not_about i o⟩
  · exact fun i => ⟨(h.executing i).1, knows_cons (h.executing i).2 (congrFun hworkers i) hlog hended
      fun o _ => hx.not_about i o⟩

/-! ### What the threads know -/

omit [DecidableEq ι] in
/-- A note only looks at its worker, at the log and at the service. -/
theorem knows_congr (h : n.Knows host e₀ lawful crew i s) (hworkers : s'.workers i = s.workers i)
    (hlog : s'.log = s.log) (hengine : s'.engine = s.engine) :
    n.Knows host e₀ lawful crew i s' := by
  cases n <;> simp only [RunNote.Knows, hworkers, hlog, hengine] at h ⊢ <;> exact h

omit [DecidableEq ι] in
/-- What an executing thread knows depends on the result of its own job only. -/
theorem knows_executing (hexecutes : n.Executes) (h : n.Knows host e₀ lawful crew i s)
    (hlog : s'.log = s.log)
    (hresult : ∀ job ∈ n.jobs, (s'.workers i).pendingResults.get? job.token =
      (s.workers i).pendingResults.get? job.token) : n.Knows host e₀ lawful crew i s' := by
  cases n with
  | idle => trivial
  | working job | begun job =>
      simp only [RunNote.Knows, hlog] at h ⊢
      exact h
  | asked job outcome recorded =>
      simp only [RunNote.Knows, hlog, hresult job (List.mem_singleton_self job)] at h ⊢
      exact h
  | room | pulled | reading | finishing | publishing | published | hinted | settled | closed =>
      exact hexecutes.elim

omit [DecidableEq ι] in
/-- What a polling thread knows depends on what is to be finished, and there is never less room. -/
theorem knows_polling (hpolls : n.Polls) (h : n.Knows host e₀ lawful crew i s)
    (hlog : s'.log = s.log) (hengine : s'.engine = s.engine)
    (hseen : (s'.workers i).seen.length ≤ (s.workers i).seen.length)
    (hfinish : ∀ t e, (s.workers i).pendingFinishes.get? t = some e →
      (s'.workers i).pendingFinishes.get? t = some e)
    (hresult : ∀ t ∈ (s.workers i).pendingFinishes.keys,
      (s'.workers i).pendingResults.get? t = (s.workers i).pendingResults.get? t) :
    n.Knows host e₀ lawful crew i s' := by
  have hlisted : ∀ {entries}, (s.workers i).Listed entries → (s'.workers i).Listed entries :=
    fun hl => ⟨hl.1, fun e he => hfinish _ _ (hl.2 e he)⟩
  have hsame : ∀ {token}, n.token = some token → (s'.workers i).pendingResults.get? token =
      (s.workers i).pendingResults.get? token :=
    fun ht => hresult _ (key_of_token hpolls h ht)
  cases n with
  | idle => trivial
  | working | begun | asked => exact hpolls.elim
  | room => exact hseen.trans_lt h
  | pulled event => exact ⟨hseen.trans_lt h.1, hlog ▸ h.2⟩
  | reading event task => exact ⟨hseen.trans_lt h.1, hlog ▸ h.2⟩
  | finishing entries => exact hlisted h
  | publishing token entry result entries => exact ⟨hlisted h.1, (hsame rfl).trans h.2⟩
  | published token entry result entries =>
      exact ⟨hlisted h.1, (hsame rfl).trans h.2.1, hlog ▸ h.2.2⟩
  | hinted token entry entries =>
      obtain ⟨hl, result, hr, hc⟩ := h
      exact ⟨hlisted hl, result, (hsame rfl).trans hr, hlog ▸ hc⟩
  | settled token entry entries =>
      obtain ⟨hl, hr, hready⟩ := h
      refine ⟨hlisted hl, ?_, hlog ▸ hready⟩
      rw [← PyDict.get?_eq_none_iff, hsame rfl, PyDict.get?_eq_none_iff]
      exact hr
  | closed token entry entries =>
      obtain ⟨hl, hr, hended⟩ := h
      refine ⟨hlisted hl, ?_, ?_⟩
      · rw [← PyDict.get?_eq_none_iff, hsame rfl, PyDict.get?_eq_none_iff]
        exact hr
      · rw [hlog, hengine]
        exact hended

/-- **The polling thread knows something else.** -/
theorem Executions.renote_polling (h : Executions host e₀ lawful crew s notes) (hpolls : n.Polls)
    (hhinting : ∀ t, (notes (WorkerThread.polling i)).hinting = some t →
      (s.workers i).pendingResults.get? t = none ∨ n.hinting = some t)
    (hn : n.Knows host e₀ lawful crew i s) :
    Executions host e₀ lawful crew s (Function.update notes (WorkerThread.polling i) n) := by
  have hexec : ∀ i', Function.update notes (WorkerThread.polling i) n (WorkerThread.executing i') =
      notes (WorkerThread.executing i') := fun i' => Function.update_of_ne (by simp) _ _
  refine ⟨h.start, h.engine, fun i' => ?_, h.jobs, h.entries, h.begun, h.unique, fun i' k o y hy hs => ?_,
    h.questions, h.once, h.results, h.owed, h.sent, fun i' t p hp => ?_, h.hints, fun i' => ?_, fun i' => ?_⟩
  · rw [hexec]
    exact h.books i'
  · rw [Placed, hexec]
    exact h.started i' k o y hy hs
  · obtain ⟨ho, hc, hh⟩ := h.hinted i' t p hp
    refine ⟨ho, hc, ?_⟩
    by_cases hi : i' = i
    · subst hi
      rw [Function.update_self]
      exact hh.elim Or.inl (hhinting t)
    · rw [Function.update_of_ne (by simpa using hi)]
      exact hh
  · by_cases hi : i' = i
    · subst hi
      rw [Function.update_self]
      exact ⟨hpolls, hn⟩
    · rw [Function.update_of_ne (by simpa using hi)]
      exact h.polling i'
  · rw [hexec]
    exact h.executing i'

/-- **The executing thread knows something else of its job.** -/
theorem Executions.renote_executing (h : Executions host e₀ lawful crew s notes)
    (hexecutes : n.Executes) (hjobs : n.jobs = (notes (WorkerThread.executing i)).jobs)
    (hrecorded : n.recorded = (notes (WorkerThread.executing i)).recorded)
    (hasking : (notes (WorkerThread.executing i)).asking = none)
    (hn : n.Knows host e₀ lawful crew i s) :
    Executions host e₀ lawful crew s (Function.update notes (WorkerThread.executing i) n) := by
  have hpoll : ∀ i', Function.update notes (WorkerThread.executing i) n (WorkerThread.polling i') =
      notes (WorkerThread.polling i') := fun i' => Function.update_of_ne (by simp) _ _
  refine ⟨h.start, h.engine, fun i' => ?_, h.jobs, h.entries, h.begun, h.unique, fun i' k o y hy hs => ?_,
    h.questions, h.once, h.results, h.owed, h.sent, fun i' t p hp => ?_, h.hints, fun i' => ?_, fun i' => ?_⟩
  · by_cases hi : i' = i
    · subst hi
      rw [Function.update_self, hjobs, hrecorded]
      exact h.books i'
    · rw [Function.update_of_ne (by simpa using hi)]
      exact h.books i'
  · obtain ⟨hb, ha | hplaced⟩ := h.started i' k o y hy hs
    · refine ⟨hb, Or.inl ?_⟩
      by_cases hi : i' = i
      · subst hi
        rw [hasking] at ha
        cases ha
      · rw [Function.update_of_ne (by simpa using hi)]
        exact ha
    · exact ⟨hb, Or.inr hplaced⟩
  · rw [hpoll]
    exact h.hinted i' t p hp
  · rw [hpoll]
    exact h.polling i'
  · by_cases hi : i' = i
    · subst hi
      rw [Function.update_self]
      exact ⟨hexecutes, hn⟩
    · rw [Function.update_of_ne (by simpa using hi)]
      exact h.executing i'

/-! ### What the workers change -/

/-- **A worker changes its tables.** -/
theorem Executions.tables (h : Executions host e₀ lawful crew s notes) (hj : Of i j)
    {w : NativeTaskWorker} (hs' : s' = { s with workers := Function.update s.workers i w })
    {notes' : WorkerThread ι → RunNote} (hnotes : notes' = Function.update notes j n)
    (hbooks : Books ((notes' (WorkerThread.executing i)).jobs ++ w.jobs)
      (notes' (WorkerThread.executing i)).recorded w)
    (hjobs : ∀ job ∈ w.jobs, job.Reads host e₀ s.log)
    (hentries : ∀ t e, w.pendingFinishes.get? t = some e → e.event.offerId = t ∧
      (Harmless e.outcome ∨ ∃ x ∈ s.log, Begins i e.event.runId t x))
    (hplaced : ∀ k o, (∃ x ∈ s.log, Starts i k o x) → Placed host i k o s notes →
      (notes' (WorkerThread.executing i)).asking = some (k, o) ∨
        (∃ e, w.pendingFinishes.get? o = some e ∧ e.event.runId = k) ∨
        Tables.Ended host k s.engine.toTables)
    (hresults : ∀ t p, w.pendingResults.get? t = some p → ∃ k, Owed host e₀ i k t p s.log)
    (howed : ∀ k t p e, Owed host e₀ i k t p s.log → w.pendingFinishes.get? t = some e →
      Committed host e₀ lawful crew i t p s.log ∨ Harmless e.outcome ∨
        w.pendingResults.get? t = some p)
    (hhinted : ∀ t p, Happening.hinted i t p ∈ s.log → w.pendingResults.get? t = none ∨
      (notes' (WorkerThread.polling i)).hinting = some t)
    (hpolling : (notes' (WorkerThread.polling i)).Polls ∧
      (notes' (WorkerThread.polling i)).Knows host e₀ lawful crew i s')
    (hexecuting : (notes' (WorkerThread.executing i)).Executes ∧
      (notes' (WorkerThread.executing i)).Knows host e₀ lawful crew i s') :
    Executions host e₀ lawful crew s' notes' := by
  have hself : s'.workers i = w := by
    rw [hs']
    exact Function.update_self i w s.workers
  -- The notes and the tables of the other workers are the same.
  have hother : ∀ i', i' ≠ i → s'.workers i' = s.workers i' ∧
      notes' (WorkerThread.polling i') = notes (WorkerThread.polling i') ∧
      notes' (WorkerThread.executing i') = notes (WorkerThread.executing i') := by
    intro i' hi
    rw [hs', hnotes]
    refine ⟨Function.update_of_ne hi _ _, Function.update_of_ne ?_ _ _,
      Function.update_of_ne ?_ _ _⟩
    · rcases hj with rfl | rfl <;> simp [hi]
    · rcases hj with rfl | rfl <;> simp [hi]
  have hlog : s'.log = s.log := by rw [hs']
  have hengine : s'.engine = s.engine := by rw [hs']
  -- What is said of the tables of each worker alone needs a proof for this worker alone.
  have hall : ∀ {C : ι → NativeTaskWorker → Prop}, (∀ i', C i' (s.workers i')) → C i w →
      ∀ i', C i' (s'.workers i') := by
    intro C hC hw
    rw [hs']
    exact (Function.forall_update_iff s.workers (p := C)).2 ⟨hw, fun i' _ => hC i'⟩
  exact
    { start := h.start
      engine := by rw [hengine, hlog]; exact h.engine
      books := fun i' => by
        by_cases hi : i' = i
        · subst hi
          rw [hself]
          exact hbooks
        · obtain ⟨hw, _, he⟩ := hother i' hi
          rw [hw, he]
          exact h.books i'
      jobs := by
        rw [hlog]
        exact hall (C := fun _ w => ∀ job ∈ w.jobs, job.Reads host e₀ s.log) h.jobs hjobs
      entries := by
        rw [hlog]
        exact hall (C := fun i w => ∀ t e, w.pendingFinishes.get? t = some e → e.event.offerId = t ∧
          (Harmless e.outcome ∨ ∃ x ∈ s.log, Begins i e.event.runId t x)) h.entries hentries
      begun := fun i' k o x hx hb => hengine ▸ h.begun i' k o x (hlog ▸ hx) hb
      unique := fun i₁ k o i₂ k' o' x hx x' hx' =>
        h.unique i₁ k o i₂ k' o' x (hlog ▸ hx) x' (hlog ▸ hx')
      started := fun i' k o x hx hst => by
        rw [hlog] at hx ⊢
        obtain ⟨hb, hp⟩ := h.started i' k o x hx hst
        refine ⟨hb, ?_⟩
        rw [Placed, hengine]
        by_cases hi : i' = i
        · subst hi
          rw [hself]
          exact hplaced k o ⟨x, hx, hst⟩ hp
        · obtain ⟨hw, _, he⟩ := hother i' hi
          rw [hw, he]
          exact hp
      questions := fun i event agentId instruction outcome earlier hsuffix =>
        h.questions i event agentId instruction outcome earlier (hlog ▸ hsuffix)
      once := hlog ▸ h.once
      results := by
        rw [hlog]
        exact hall (C := fun i w => ∀ t p, w.pendingResults.get? t = some p →
          ∃ k, Owed host e₀ i k t p s.log) h.results hresults
      owed := by
        rw [hlog]
        exact hall (C := fun i w => ∀ k t p e, Owed host e₀ i k t p s.log →
          w.pendingFinishes.get? t = some e → Committed host e₀ lawful crew i t p s.log ∨
            Harmless e.outcome ∨ w.pendingResults.get? t = some p) h.owed howed
      sent := fun i' k t x hx hd k' p ho => by
        rw [hlog] at hx ho ⊢
        exact h.sent i' k t x hx hd k' p ho
      hinted := fun i' t p hp => by
        rw [hlog] at hp ⊢
        obtain ⟨ho, hc, hh⟩ := h.hinted i' t p hp
        refine ⟨ho, hc, ?_⟩
        by_cases hi : i' = i
        · subst hi
          rw [hself]
          exact hhinted t p hp
        · obtain ⟨hw, hn, _⟩ := hother i' hi
          rw [hw, hn]
          exact hh
      hints := fun i' => hlog ▸ h.hints i'
      polling := fun i' => by
        by_cases hi : i' = i
        · subst hi
          exact hpolling
        · obtain ⟨hw, hn, _⟩ := hother i' hi
          rw [hn]
          exact ⟨(h.polling i').1, knows_congr (h.polling i').2 hw hlog hengine⟩
      executing := fun i' => by
        by_cases hi : i' = i
        · subst hi
          exact hexecuting
        · obtain ⟨hw, _, he⟩ := hother i' hi
          rw [he]
          exact ⟨(h.executing i').1, knows_congr (h.executing i').2 hw hlog hengine⟩ }

/-- A note stays true as long as the tables stay what they are. -/
theorem knows_same {w : NativeTaskWorker} (hsame : NativeTaskWorker.SameBooks (s.workers i) w)
    (h : n.Knows host e₀ lawful crew i s) :
    n.Knows host e₀ lawful crew i { s with workers := Function.update s.workers i w } := by
  cases n <;> simp only [RunNote.Knows, NativeTaskWorker.Listed, Function.update_self,
    hsame.seen, hsame.pendingFinishes, hsame.pendingResults] at h ⊢ <;> exact h

/-- The tables stay what they are. -/
theorem Executions.same (h : Executions host e₀ lawful crew s notes) {w : NativeTaskWorker}
    (hsame : NativeTaskWorker.SameBooks (s.workers i) w) :
    Executions host e₀ lawful crew { s with workers := Function.update s.workers i w } notes := by
  refine h.tables (j := WorkerThread.polling i) (n := notes (WorkerThread.polling i)) (Or.inl rfl) rfl
    (Function.update_eq_self _ _).symm ?_ (fun job hjob => h.jobs i job (hsame.jobs ▸ hjob)) ?_ ?_ ?_ ?_
    ?_ ⟨(h.polling i).1, knows_same hsame (h.polling i).2⟩
    ⟨(h.executing i).1, knows_same hsame (h.executing i).2⟩
  · rw [hsame.jobs]
    exact (h.books i).same hsame
  · rw [hsame.pendingFinishes]
    exact h.entries i
  · intro k o _ hp
    rw [hsame.pendingFinishes]
    exact hp
  · rw [hsame.pendingResults]
    exact h.results i
  · rw [hsame.pendingFinishes, hsame.pendingResults]
    exact h.owed i
  · intro t p hp
    rw [hsame.pendingResults]
    exact (h.hinted i t p hp).2.2

/-! ### Who has asked for it -/

variable (crew) in
/-- A run of a worker that is done, and every request that may still arrive and would make one done,
have been asked for by the polling thread of the worker. -/
structure Accounted (s : WorkerSystem ι) : Prop where
  late : ∀ i k o outcome code, (i, RpcCall.finish k o outcome code) ∈ s.late →
    RunState.ofOutcome outcome = RunState.done → ∃ x ∈ s.log, AsksDone i k o x
  done : ∀ k run, s.engine.runs.get? k = some run → run.state = RunState.done →
    ∀ i, run.owner = (crew.config i).owner → ∃ x ∈ s.log, AsksDone i k run.event.offerId x

/-- An input that makes a run done only if that was asked for. -/
def Requested (crew : Workers ι) (inp : Input) (log : List (Happening ι)) : Prop :=
  ∀ i env k o outcome statusCode peer, inp = Input.call env (Op.worker (crew.config i).owner
      (WorkerOp.finish k o outcome statusCode)) peer →
    RunState.ofOutcome (outcome.getD "done") = RunState.done → ∃ x ∈ log, AsksDone i k o x

omit [DecidableEq ι] in
/-- **The service answers an input.** -/
theorem Accounted.respond (h : Accounted crew s)
    (hreach : (TaskEngine.machine host).Reachable s.engine) (inp : Input)
    (hengine : s'.engine = (s.engine.respond host inp).2) (hlate : s'.late ⊆ s.late)
    (hlog : s.log ⊆ s'.log) (hinp : Requested crew inp s'.log) : Accounted crew s' where
  late := fun i k o outcome code hmem hdone =>
    (h.late i k o outcome code (hlate hmem) hdone).imp fun _ hx => ⟨hlog hx.1, hx.2⟩
  done := by
    intro k run hrun hdone i howner
    rw [hengine] at hrun
    rcases TaskEngine.done_of_respond hreach inp hrun hdone with
      hold | ⟨env, peer, outcome, statusCode, rfl, ho⟩
    · exact (h.done k run hold hdone i howner).imp fun _ hx => ⟨hlog hx.1, hx.2⟩
    · rw [howner] at hinp
      exact hinp i env k _ outcome statusCode peer rfl ho

omit [DecidableEq ι] in
/-- The service has not heard of anything. -/
theorem Accounted.unheard (h : Accounted crew s) (hengine : s'.engine = s.engine)
    (hlate : ∀ i k o outcome code, (i, RpcCall.finish k o outcome code) ∈ s'.late →
      (i, RpcCall.finish k o outcome code) ∈ s.late ∨
        (RunState.ofOutcome outcome = RunState.done → ∃ x ∈ s'.log, AsksDone i k o x))
    (hlog : s.log ⊆ s'.log) : Accounted crew s' where
  late := by
    intro i k o outcome code hmem hdone
    rcases hlate i k o outcome code hmem with hold | hnew
    · exact (h.late i k o outcome code hold hdone).imp fun _ hx => ⟨hlog hx.1, hx.2⟩
    · exact hnew hdone
  done := by
    intro k run hrun hdone i howner
    rw [hengine] at hrun
    exact (h.done k run hrun hdone i howner).imp fun _ hx => ⟨hlog hx.1, hx.2⟩

omit [DecidableEq ι] in
/-- What a worker asks for when it makes this call. -/
theorem requested_request {c : RpcCall} {env : Env} {log : List (Happening ι)}
    (hc : ∀ k o outcome code, c = RpcCall.finish k o outcome code →
      RunState.ofOutcome outcome = RunState.done → ∃ x ∈ log, AsksDone i k o x) :
    Requested crew (crew.request i c env) log := by
  intro i' env' k o outcome statusCode peer hinp hdone
  cases c with
  | finish k' o' outcome' code =>
      simp only [Workers.request, RpcCall.op, Input.call.injEq, Op.worker.injEq,
        WorkerOp.finish.injEq] at hinp
      obtain ⟨_, ⟨howner, rfl, rfl, rfl, _⟩, _⟩ := hinp
      obtain rfl := crew.owner_injective howner
      exact hc _ _ _ _ rfl hdone
  | _ => simp [Workers.request, RpcCall.op] at hinp

omit [DecidableEq ι] in
/-- **A thread makes a call.**  Only a polling thread asks to make a run done. -/
theorem Accounted.call (h : Accounted crew s)
    (hreach : (TaskEngine.machine host).Reachable s.engine) {c : RpcCall} {o : WorkerChoice}
    {answer : Except PyError Reply} (hcall : crew.call host i j c o s = some (answer, s'))
    (hc : ∀ k o outcome code, c = RpcCall.finish k o outcome code →
      RunState.ofOutcome outcome = RunState.done → j = WorkerThread.polling i) :
    Accounted crew s' := by
  have hasks : ∀ {log : List (Happening ι)} k o outcome code,
      c = RpcCall.finish k o outcome code → RunState.ofOutcome outcome = RunState.done →
      ∃ x ∈ Happening.told j c answer :: log, AsksDone i k o x := by
    intro log k o outcome code heq hdone
    obtain rfl := hc k o outcome code heq hdone
    subst heq
    exact ⟨_, List.mem_cons_self, outcome, code, answer, hdone, rfl⟩
  cases o with
  | served env heard =>
      simp only [Workers.call] at hcall
      split_ifs at hcall with hfits hheard
      · cases hcall
        exact h.respond hreach (crew.request i c env) rfl (List.Subset.refl _)
          (fun _ hx => List.mem_cons_of_mem _ (List.mem_cons_of_mem _ hx)) (requested_request hasks)
      · cases hcall
        exact h.respond hreach (crew.request i c env) rfl (List.Subset.refl _)
          (fun _ hx => List.mem_cons_of_mem _ (List.mem_cons_of_mem _ hx)) (requested_request hasks)
      · cases hcall
        exact h.unheard rfl (fun _ _ _ _ _ hmem => Or.inl hmem)
          fun _ hx => List.mem_cons_of_mem _ hx
  | lost late =>
      simp only [Workers.call, Option.some.injEq, Prod.mk.injEq] at hcall
      obtain ⟨rfl, rfl⟩ := hcall
      refine h.unheard rfl (fun i' k o outcome code hmem => ?_) fun _ hx => List.mem_cons_of_mem _ hx
      simp only [note] at hmem
      split_ifs at hmem
      · rcases List.mem_append.1 hmem with hold | hnew
        · exact Or.inl hold
        · obtain ⟨rfl, rfl⟩ := Prod.mk.inj (List.mem_singleton.1 hnew)
          exact Or.inr (hasks k o outcome code rfl)
      · exact Or.inl hmem
  | _ => cases hcall

end WorkerSystem
