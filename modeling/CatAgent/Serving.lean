/-
**From the queue to the inbox.**

A run of a query is queued, offered to a worker, begun, its result is published, the run is
finished, and the result is acknowledged.  The calls are followed here one after the other.  What
matters of the table of runs is which runs have not ended; those that have ended come and go with
the trimming of the journal.

Main definitions:

* `Tables.Live` — the runs that have not ended are exactly these;
* `Tables.Idle` — a query that nobody works on.

Main results:

* `Tables.get?_reconcile_running` — a run whose worker is alive stays running;
* `Tables.publish_of_acceptable` — an acceptable payload is committed, or was before;
* `TaskEngine.delivered`, `TaskEngine.served` — **a query that nobody works on can be executed, and
  its result acknowledged, and is idle again**.
-/

import CatAgent.Grants

set_option relaxedAutoImplicit false
set_option autoImplicit false

/-! ### The live runs -/

namespace Tables

variable {host : Host} {t : Tables} {run : Run} {l : List Run} {env : Env}

/-- **A run whose worker is alive stays running.** -/
theorem get?_reconcile_running {k : PyStr} (hk : t.runs.get? k = some run)
    (hstate : run.state = RunState.running) (halive : env.alive run.peer = true) :
    (t.reconcile env).runs.get? k = some run := by
  have hsame : run.reconciled env t.registry.tasks t.workers = run := by
    simp [Run.reconciled, hstate, halive]
  have hlive := get?_reconcile_of_live env hk (by rw [hsame, hstate]; rfl)
  rwa [hsame] at hlive

/-- The runs that have not ended are exactly these. -/
def Live (t : Tables) (l : List Run) : Prop :=
  ∀ run, run.state.terminal = false → (t.runs.get? run.event.runId = some run ↔ run ∈ l)

/-- The runs that have not ended, read off the table. -/
theorem live_of_values (h : (t.runs.values.filter fun run => ! run.state.terminal) = l) :
    t.Live l := by
  intro run hend
  rw [← h, List.mem_filter, Table.mem_values_iff]
  simp [hend]

theorem Live.get? (h : t.Live l) (hr : run ∈ l) (hend : run.state.terminal = false) :
    t.runs.get? run.event.runId = some run := (h run hend).2 hr

theorem reconciled_of_terminal {tasks : TaskTable} {workers : WorkerTable}
    (h : run.state.terminal = true) : run.reconciled env tasks workers = run := by
  have hstate : run.state ≠ RunState.pending ∧ run.state ≠ RunState.offered ∧
      run.state ≠ RunState.running := by
    refine ⟨?_, ?_, ?_⟩ <;>
      · intro hs
        rw [hs] at h
        cases h
  simp [Run.reconciled, hstate]

/-- Nothing happens to runs whose grants stand. -/
theorem Live.reconcile (h : t.Live l)
    (hl : ∀ run ∈ l, run.reconciled env t.registry.tasks t.workers = run) :
    (t.reconcile env).Live l := by
  intro run hend
  constructor
  · intro hrun
    obtain ⟨old, hold, rfl⟩ := get?_reconcile hrun
    have hlive : old.state.terminal = false := by
      by_contra hterm
      rw [reconciled_of_terminal (Bool.not_eq_false _ ▸ hterm)] at hend
      exact hterm hend
    have hmem : old ∈ l := by
      refine (h old hlive).1 ?_
      rwa [Run.reconciled_runId] at hold
    rwa [hl old hmem]
  · intro hmem
    have hget := h.get? hmem hend
    have := get?_reconcile_of_live env hget (by rw [hl run hmem]; exact hend)
    rwa [hl run hmem] at this

/-- A new run. -/
theorem Live.put (h : t.Live l) (hnew : t.runs.get? run.event.runId = none) :
    { t with runs := t.runs.put run }.Live (run :: l) := by
  intro r hr
  change (t.runs.put run).get? r.event.runId = some r ↔ r ∈ run :: l
  rw [Table.get?_put, List.mem_cons]
  split
  next hid =>
    constructor
    · intro hsome
      exact Or.inl (Option.some.inj hsome).symm
    · rintro (rfl | hmem)
      · rfl
      · rw [hid, (h r hr).2 hmem] at hnew
        cases hnew
  next hid =>
    rw [h r hr]
    constructor
    · exact Or.inr
    · rintro (rfl | hmem)
      · exact absurd rfl hid
      · exact hmem

/-- A run is updated. -/
theorem Live.update {f : Run → Run} (hf : ∀ run, (f run).event.runId = run.event.runId)
    (h : t.Live (run :: l)) (hlive : run.state.terminal = false)
    (hne : ∀ r ∈ l, r.event.runId ≠ run.event.runId) :
    (t.updateRun run.event.runId f hf).Live
      (if (f run).state.terminal then l else f run :: l) := by
  have hrun := h.get? List.mem_cons_self hlive
  intro r hr
  change (t.runs.modify run.event.runId f hf).get? r.event.runId = some r ↔ _
  rw [Table.get?_modify]
  split
  next hid =>
    rw [← hid, hrun, Option.map_some, Option.some.injEq]
    have hmem : r ∉ l := fun hm => hne r hm hid.symm
    split
    next hterm =>
      constructor
      · rintro rfl
        rw [hr] at hterm
        cases hterm
      · exact fun hm => absurd hm hmem
    next =>
      rw [List.mem_cons]
      constructor
      · rintro rfl
        exact Or.inl rfl
      · rintro (rfl | hm)
        · rfl
        · exact absurd hm hmem
  next hid =>
    rw [h r hr, List.mem_cons]
    have hne' : r ≠ run := by
      rintro rfl
      exact hid rfl
    have hne'' : r ≠ f run := by
      rintro rfl
      exact hid (hf run).symm
    split
    next => simp [hne']
    next => simp [hne', hne'']

/-- There are no more runs that have not ended than that. -/
theorem Live.pendingCount_le (h : t.Live l) : t.runs.pendingCount ≤ l.length := by
  rw [RunTable.pendingCount, List.countP_eq_length_filter]
  have hnodup : (t.runs.values.filter fun run => ! run.state.terminal).Nodup :=
    (List.Nodup.of_map _ t.runs.nodup_keys).filter _
  refine (hnodup.subperm fun run hrun => ?_).length_le
  obtain ⟨hvalue, hlive⟩ := List.mem_filter.1 hrun
  exact (h run (by simpa using hlive)).1 (Table.mem_values_iff.1 hvalue)

end Tables

/-! ### The calls of an executor -/

namespace Tables

variable {host : Host} {env : Env} {t : Tables} {run : Run} {l : List Run} {task : TaskRecord}
  {e : Executor} {owner peer runId offerId : PyStr} {p : QueryPayload}

/-- The call that publishes a payload. -/
abbrev publishOp (owner runId offerId : PyStr) (p : QueryPayload) : Op :=
  Op.worker owner (WorkerOp.publishResult (some (Json.str runId)) (some (Json.str offerId))
    (some p.toJson))

/-- An acceptable payload is committed, or it has been committed already. -/
theorem publish_of_acceptable (host : Host) {results : QueryTable} (howner : owner ≠ [])
    (hpeer : peer ≠ []) (hrun : runId ≠ []) (hp : QueryPayload.Acceptable runId p)
    (hchecked : t.queryResults.publishChecked t.registry.tasks (t.reconcile env).runs owner peer
      offerId p = Except.ok (true, results)) :
    t.dispatch host env peer (publishOp owner runId offerId p) =
      Except.ok (Reply.bool true, { t.reconcile env with queryResults := results }) := by
  have hid : raiseIf (peer = [] ∨ owner = [])
      (PyError.taskStoreError "worker identity required") = Except.ok () :=
    raiseIf_eq_ok_iff.2 fun h => h.elim hpeer howner
  have hne : raiseIf (runId = [])
      (PyError.taskStoreError "publish_result requires RUN and offer IDs") = Except.ok () :=
    raiseIf_eq_ok_iff.2 hrun
  have hvalid := (QueryPayload.validate_toJson_iff runId p p).2 ⟨rfl, hp⟩
  refine bind_eq_ok_iff.2 ⟨(), hid, ?_⟩
  refine bind_eq_ok_iff.2 ⟨(true, results), ?_, rfl⟩
  exact bind_eq_ok_iff.2 ⟨(), hne, bind_eq_ok_iff.2 ⟨p, hvalid, hchecked⟩⟩

/-- A query that nobody works on: its task is enabled and pinned to an executor, the runs that have
not ended are running, for other tasks, and the worker is not registered. -/
structure Idle (t : Tables) (task : TaskRecord) (e : Executor) (owner peer : PyStr)
    (l : List Run) : Prop where
  found : t.registry.tasks.get? task.taskId = some task
  enabled : task.enabled = true
  query : task.method = TaskMethod.query
  pinned : task.executor = Policy.pinned e
  live : t.Live l
  running : ∀ run ∈ l, run.state = RunState.running ∧ run.event.taskId ≠ some task.taskId
  room : l.length < RunTable.maxPending
  unregistered : t.workers.get? (owner, peer) = none

/-- What a call leaves alone: the tasks and the workers. -/
def Leaves (t t' : Tables) : Prop :=
  t'.registry.tasks = t.registry.tasks ∧ t'.workers = t.workers

/-- A running run is left alone while every process is alive. -/
theorem reconciled_of_running {tasks : TaskTable} {workers : WorkerTable}
    (h : run.state = RunState.running) : run.reconciled Env.quiet tasks workers = run := by
  simp [Run.reconciled, h, Env.quiet]

/-- The run of `runTask`. -/
def manualRun (host : Host) (t : Tables) (task : TaskRecord) : Run :=
  RunTable.newRun (host.uuid4 t.registry.uuids) (manualEvent 0 task) task

/-- The task is run. -/
theorem dispatch_runTask (h : t.Idle task e owner peer l)
    (hnew : t.runs.get? (host.uuid4 t.registry.uuids) = none) :
    ∃ t', t.dispatch host Env.quiet [] (Op.runTask task.taskId) =
        Except.ok (Reply.runId (some (host.uuid4 t.registry.uuids)), t') ∧
      t.Leaves t' ∧ t'.queryResults = t.queryResults ∧
      t'.registry.uuids = t.registry.uuids + 1 ∧ t'.Live (t.manualRun host task :: l) := by
  have hqueue : t.runs.queue (host.uuid4 t.registry.uuids) t.registry.tasks (manualEvent 0 task) =
      Except.ok (some (host.uuid4 t.registry.uuids), t.runs.put (t.manualRun host task)) := by
    have hroom : ¬ RunTable.maxPending ≤ t.runs.pendingCount :=
      not_le.2 (h.live.pendingCount_le.trans_lt h.room)
    have hmanual : PyStr.ofString "manual" ≠ PyStr.ofString "timer" := by decide
    simp [RunTable.queue, manualEvent, h.found, h.enabled, hmanual, hroom, manualRun]
  have hlive : { t with runs := t.runs.put (t.manualRun host task) }.Live (t.manualRun host task :: l) :=
    h.live.put hnew
  refine ⟨{ t with
    registry := { t.registry with uuids := t.registry.uuids + 1 }
    runs := t.runs.put (t.manualRun host task) }, ?_, ⟨rfl, rfl⟩, rfl, rfl, hlive⟩
  refine bind_eq_ok_iff.2 ⟨task, by simp [TaskStore.require, h.found], ?_⟩
  rw [show Env.quiet.monotonic = 0 from rfl, queue, hqueue]
  rfl

/-- The run at hand, for a task that nobody else works on. -/
structure AtHand (t : Tables) (task : TaskRecord) (run : Run) (l : List Run) : Prop where
  live : t.Live (run :: l)
  taskId : run.event.taskId = some task.taskId
  generation : run.event.taskGeneration = task.generation
  policy : run.policy = some task.executor
  other : ∀ r ∈ l, r.event.runId ≠ run.event.runId

/-- The run is current. -/
theorem AtHand.current {t₀ : Tables} (h : t₀.Idle task e owner peer l) (ht : t₀.Leaves t)
    (hr : t.AtHand task run l) : run.current t.registry.tasks = true := by
  rw [ht.1]
  exact Run.current_iff.2 ⟨task.taskId, task, hr.taskId, h.found, h.enabled, hr.generation.symm⟩

/-- While every process is alive, the runs that have not ended are left alone. -/
theorem AtHand.reconcile {t₀ : Tables} (h : t₀.Idle task e owner peer l) (ht : t₀.Leaves t)
    (hr : t.AtHand task run l) (howner : run.owner = owner) (hpeer : run.peer = peer) :
    (t.reconcile Env.quiet).AtHand task run l := by
  have hw : t.workers.get? (run.owner, run.peer) = none := by
    rw [ht.2, howner, hpeer]
    exact h.unregistered
  have hlost : run.offerLost Env.quiet t.workers = false := by
    have halive : Env.quiet.alive run.peer = true := rfl
    simp [Run.offerLost, halive, Run.policyOf, hr.policy, h.pinned, hw]
  have hrun : run.reconciled Env.quiet t.registry.tasks t.workers = run := by
    have halive : Env.quiet.alive run.peer = true := rfl
    simp [Run.reconciled, AtHand.current h ht hr, hlost, halive]
  refine { hr with live := hr.live.reconcile fun r hmem => ?_ }
  rcases List.mem_cons.1 hmem with rfl | hmem
  · exact hrun
  · exact reconciled_of_running (h.running r hmem).1

/-- The worker has names. -/
theorem identified (howner : owner ≠ []) (hpeer : peer ≠ []) :
    raiseIf (peer = [] ∨ owner = []) (PyError.taskStoreError "worker identity required") =
      Except.ok () :=
  raiseIf_eq_ok_iff.2 fun h => h.elim hpeer howner

/-- A run of the table: it has ended, it is the run at hand, or it is one of the others. -/
theorem AtHand.cases (hr : t.AtHand task run l) {r : Run} (h : r ∈ t.runs.values) :
    r.state.terminal = true ∨ r = run ∨ r ∈ l := by
  by_cases hterm : r.state.terminal = true
  · exact Or.inl hterm
  · exact Or.inr (List.mem_cons.1 ((hr.live r (Bool.not_eq_true _ ▸ hterm)).1
      (Table.mem_values_iff.1 h)))

/-- The run at hand is the only one that is pending, so it is offered. -/
theorem AtHand.nextOffer {t₀ : Tables} (h : t₀.Idle task e owner peer l) (ht : t₀.Leaves t)
    (hr : t.AtHand task run l) (hpending : run.state = RunState.pending) :
    t.runs.heldOffer owner peer [] [] = none ∧
      t.runs.nextOffer Env.quiet t.workers e owner peer [] = some run := by
  have hnot : ∀ r ∈ t.runs.values, r.state = RunState.offered → False := by
    intro r hmem hs
    rcases hr.cases hmem with hterm | rfl | hl
    · rw [hs] at hterm
      cases hterm
    · rw [hpending] at hs
      cases hs
    · rw [(h.running r hl).1] at hs
      cases hs
  have hfree : run.event.taskId ∉ t.runs.occupied := by
    intro hocc
    obtain ⟨r, hmem, hid⟩ := List.mem_map.1 hocc
    obtain ⟨hvalue, hactive⟩ := List.mem_filter.1 hmem
    rcases hr.cases hvalue with hterm | rfl | hl
    · cases hs : r.state <;> rw [hs] at hterm hactive <;> cases hterm <;> cases hactive
    · rw [hpending] at hactive
      cases hactive
    · exact (h.running r hl).2 (hid.trans hr.taskId)
  have heligible : RunTable.eligible Env.quiet t.workers e owner peer run.policyOf = true := by
    have hw : t.workers.get? (owner, peer) = none := by
      rw [ht.2]
      exact h.unregistered
    simp [RunTable.eligible, Run.policyOf, hr.policy, h.pinned, RunTable.selected, hw]
  constructor
  · refine List.find?_eq_none.2 fun r hmem hp => ?_
    simp only [Bool.and_eq_true, decide_eq_true_eq] at hp
    exact hnot r hmem hp.1.1.1.1
  · have hmem : run ∈ t.runs.values :=
      Table.mem_values_of_get? (hr.live.get? List.mem_cons_self (by rw [hpending]; rfl))
    cases hfind : t.runs.nextOffer Env.quiet t.workers e owner peer [] with
    | none =>
        refine absurd ?_ (List.find?_eq_none.1 hfind run hmem)
        simp [hpending, hfree, heligible]
    | some r =>
        obtain ⟨hget, hp, _⟩ := nextOffer_spec hfind
        rcases hr.cases (Table.mem_values_of_get? hget) with hterm | rfl | hl
        · rw [hp] at hterm
          cases hterm
        · rfl
        · rw [(h.running r hl).1] at hp
          cases hp

/-- The run is offered. -/
theorem dispatch_pull (host : Host) {t₀ : Tables} (h : t₀.Idle task e owner peer l) (ht : t₀.Leaves t)
    (howner : owner ≠ []) (hpeer : peer ≠ []) (hr : t.AtHand task run l)
    (hpending : run.state = RunState.pending) :
    ∃ t', t.dispatch host Env.quiet peer (Op.worker owner (WorkerOp.pull e.name [] [])) =
        Except.ok (Reply.event
          (some (run.offered e owner peer (host.uuid4 t.registry.uuids)).event), t') ∧
      t.Leaves t' ∧ t'.queryResults = t.queryResults ∧
      t'.registry.uuids = t.registry.uuids + 1 ∧
      t'.AtHand task (run.offered e owner peer (host.uuid4 t.registry.uuids)) l := by
  have hstays : ∀ r ∈ run :: l, r.reconciled Env.quiet t.registry.tasks t.workers = r := by
    intro r hmem
    rcases List.mem_cons.1 hmem with rfl | hmem
    · simp [Run.reconciled, hpending, AtHand.current h ht hr]
    · exact reconciled_of_running (h.running r hmem).1
  have hr' : (t.reconcile Env.quiet).AtHand task run l :=
    { hr with live := hr.live.reconcile hstays }
  obtain ⟨hheld, hnext⟩ := AtHand.nextOffer h (t := t.reconcile Env.quiet) ht hr' hpending
  have hupdate := hr'.live.update (f := fun run => run.offered e owner peer
    (host.uuid4 t.registry.uuids)) (fun _ => rfl) (by rw [hpending]; rfl) hr.other
  refine ⟨(t.reconcile Env.quiet).offer host e owner peer run.event.runId, ?_, ⟨rfl, rfl⟩, rfl,
    rfl, { live := hupdate, taskId := hr.taskId, generation := hr.generation, policy := hr.policy,
           other := hr.other }⟩
  refine bind_eq_ok_iff.2 ⟨(), identified howner hpeer, ?_⟩
  simp only [pull, Executor.ofName_name, hheld, hnext]
  rfl

/-- A grant of the run at hand. -/
structure Granted (run : Run) (state : RunState) (owner peer offerId : PyStr) : Prop where
  state : run.state = state
  owner : run.owner = owner
  peer : run.peer = peer
  offer : run.event.offerId = offerId

theorem granted_of_atHand {state : RunState} (hr : t.AtHand task run l)
    (hg : Granted run state owner peer offerId) (hlive : state.terminal = false) :
    t.granted owner peer run.event.runId offerId = some run := by
  have hget := hr.live.get? List.mem_cons_self (by rw [hg.state]; exact hlive)
  simp [granted, hget, hg.owner, hg.peer, hg.offer]

/-- The run is begun. -/
theorem dispatch_begin (host : Host) (offerId : PyStr) {t₀ : Tables} (h : t₀.Idle task e owner peer l) (ht : t₀.Leaves t)
    (howner : owner ≠ []) (hpeer : peer ≠ []) (hr : t.AtHand task run l)
    (hg : Granted run RunState.offered owner peer offerId) :
    ∃ t', t.dispatch host Env.quiet peer
        (Op.worker owner (WorkerOp.begin run.event.runId offerId)) =
          Except.ok (Reply.bool true, t') ∧
      t.Leaves t' ∧ t'.queryResults = t.queryResults ∧ t'.registry.uuids = t.registry.uuids ∧
      t'.AtHand task { run with state := RunState.running } l := by
  have hr' := AtHand.reconcile h ht hr hg.owner hg.peer
  have hgranted := granted_of_atHand hr' hg rfl
  have hsay : (t.reconcile Env.quiet).maySay run = true := by
    have hcurrent := AtHand.current h (t := t.reconcile Env.quiet) ht hr'
    simp [maySay, hg.state, RunState.active, hcurrent]
  have hupdate := hr'.live.update (f := fun run => { run with state := RunState.running })
    (fun _ => rfl) (by rw [hg.state]; rfl) hr.other
  refine ⟨(t.reconcile Env.quiet).updateRun run.event.runId
      (fun run => { run with state := RunState.running }) fun _ => rfl, ?_, ⟨rfl, rfl⟩, rfl, rfl,
    { live := hupdate, taskId := hr.taskId, generation := hr.generation, policy := hr.policy,
      other := hr.other }⟩
  refine bind_eq_ok_iff.2 ⟨(), identified howner hpeer, ?_⟩
  simp only [begin, hgranted, hsay, if_true]
  rfl

/-- The result of the run is published. -/
theorem dispatch_publish (host : Host) (offerId : PyStr) {t₀ : Tables} (h : t₀.Idle task e owner peer l) (ht : t₀.Leaves t)
    (howner : owner ≠ []) (hpeer : peer ≠ []) (hid : run.event.runId ≠ [])
    (hr : t.AtHand task run l) (hg : Granted run RunState.running owner peer offerId)
    (hp : QueryPayload.Acceptable run.event.runId p) (htask : p.taskId = task.taskId)
    (hsource : p.source = run.event.source)
    (hnone : t.queryResults.get? run.event.runId = none)
    (hroom : t.queryResults.unackedCount < QueryTable.maxPending) :
    ∃ t', t.dispatch host Env.quiet peer (publishOp owner run.event.runId offerId p) =
        Except.ok (Reply.bool true, t') ∧
      t.Leaves t' ∧
      t'.queryResults = t.queryResults.put { owner, peer, offerId, payload := p, acked := false } ∧
      t'.registry.uuids = t.registry.uuids ∧ t'.AtHand task run l := by
  have hr' := AtHand.reconcile h ht hr hg.owner hg.peer
  have hget := hr'.live.get? List.mem_cons_self (by rw [hg.state]; rfl)
  have hmay : QueryTable.mayPublish t.registry.tasks owner peer offerId p run = true := by
    have hcurrent := AtHand.current h ht hr
    simp [QueryTable.mayPublish, hg.owner, hg.peer, hg.offer, hg.state, hcurrent, hr.taskId, htask,
      hsource]
  have hquery : QueryTable.isQuery t.registry.tasks p.taskId = true := by
    rw [htask, ht.1]
    simp [QueryTable.isQuery, h.found, h.query]
  have hchecked : t.queryResults.publishChecked t.registry.tasks (t.reconcile Env.quiet).runs
      owner peer offerId p = Except.ok (true,
        t.queryResults.put { owner, peer, offerId, payload := p, acked := false }) := by
    have hid := hp.runId_eq
    simp only [QueryTable.publishChecked, hid, hnone, QueryTable.commit, hget, hmay, hquery]
    simp [not_le.2 hroom]
  exact ⟨_, publish_of_acceptable host howner hpeer hid hp hchecked, ⟨rfl, rfl⟩, rfl, rfl,
    { hr' with }⟩

/-- The run is finished. -/
theorem dispatch_finish (host : Host) (offerId : PyStr) {t₀ : Tables} (h : t₀.Idle task e owner peer l) (ht : t₀.Leaves t)
    (howner : owner ≠ []) (hpeer : peer ≠ []) (hr : t.AtHand task run l)
    (hg : Granted run RunState.running owner peer offerId) :
    ∃ t', t.dispatch host Env.quiet peer
        (Op.worker owner (WorkerOp.finish run.event.runId offerId none none)) =
          Except.ok (Reply.bool true, t') ∧
      t.Leaves t' ∧ t'.queryResults = t.queryResults ∧ t'.registry.uuids = t.registry.uuids ∧
      t'.Live l := by
  have hr' := AtHand.reconcile h ht hr hg.owner hg.peer
  have hgranted := granted_of_atHand hr' hg rfl
  have hupdate := hr'.live.update (f := Run.finished "done" 0) (fun _ => rfl)
    (by rw [hg.state]; rfl) hr.other
  refine ⟨(t.reconcile Env.quiet).updateRun run.event.runId (Run.finished "done" 0) fun _ => rfl,
    ?_, ⟨rfl, rfl⟩, rfl, rfl, ?_⟩
  · refine bind_eq_ok_iff.2 ⟨(), identified howner hpeer, ?_⟩
    have hcode : statusCodeOf (PyStr.ofString "done") none = Except.ok 0 := by decide
    have hlive : RunState.running.terminal = false := rfl
    have hnot : ¬ (RunState.running = RunState.offered ∧
        run.current (t.reconcile Env.quiet).registry.tasks = true) := nofun
    simp only [finish, hgranted, hg.state, hlive, Option.getD_none]
    rw [if_neg (by decide)]
    refine bind_eq_ok_iff.2 ⟨(true, _), ?_, rfl⟩
    refine bind_eq_ok_iff.2 ⟨0, hcode, ?_⟩
    rw [if_neg hnot]
    rfl
  · have hterm : (run.finished "done" 0).state.terminal = true :=
      RunState.terminal_ofOutcome (PyStr.ofString "done")
    rwa [if_pos hterm] at hupdate

end Tables

/-! ### The life of a query's run -/

namespace TaskEngine

open Tables (Idle Live AtHand Granted Leaves)

variable {host : Host} {s : TaskEngine} {task : TaskRecord} {e : Executor} {owner peer : PyStr}
  {l : List Run} {p : QueryPayload}

/-- A call that can save does what its dispatch does. -/
theorem leads_of_dispatch {s₁ : TaskEngine} {op : Op} {reply : Reply} {t t' : Tables}
    {peer : PyStr} (h : (machine host).Leads (fun _ _ => True) s s₁) (hs₁ : s₁.toTables = t)
    (hd : t.dispatch host Env.quiet peer op = Except.ok (reply, t')) :
    ∃ s₂, (machine host).Leads (fun _ _ => True) s s₂ ∧ s₂.toTables = t' := by
  subst hs₁
  exact ⟨_, h.tail (i := Input.call Env.quiet op peer) trivial, (transact_of_ok _ hd rfl).2⟩

/-- **The run of a query that nobody works on can be executed**: it is queued, offered and begun, its
result is published, and the run is finished.  Then the query is idle again. -/
theorem delivered (hs : (machine host).Reachable s) (h : s.toTables.Idle task e owner peer l)
    (howner : owner ≠ []) (hpeer : peer ≠ [])
    (hp : QueryPayload.Acceptable (host.uuid4 s.registry.uuids) p) (htask : p.taskId = task.taskId)
    (hsource : p.source = "manual")
    (hfresh : s.queryResults.get? (host.uuid4 s.registry.uuids) = none)
    (hroom : s.queryResults.unackedCount < QueryTable.maxPending) :
    ∃ s', (machine host).Leads (fun _ _ => True) s s' ∧ s'.toTables.Idle task e owner peer l ∧
      s'.registry.tasks = s.registry.tasks ∧
      s'.queryResults = s.queryResults.put
        { owner, peer, offerId := host.uuid4 (s.registry.uuids + 1), payload := p,
          acked := false } := by
  have hnew : s.runs.get? (host.uuid4 s.registry.uuids) = none := by
    cases hget : s.runs.get? (host.uuid4 s.registry.uuids) with
    | none => rfl
    | some run =>
        obtain ⟨n, hn, hid⟩ := allocated_of_reachable hs _ run hget
        exact absurd (host.uuid4_injective hid) hn.ne'
  -- The run is queued.
  obtain ⟨t₁, hd₁, hl₁, hq₁, hu₁, hlive₁⟩ := Tables.dispatch_runTask h hnew
  have hother : ∀ r ∈ l, r.event.runId ≠ host.uuid4 s.registry.uuids := by
    intro r hr hid
    have hget := h.live.get? hr (by rw [(h.running r hr).1]; rfl)
    rw [hid, hnew] at hget
    cases hget
  have hr₁ : t₁.AtHand task (s.toTables.manualRun host task) l :=
    { live := hlive₁, taskId := rfl, generation := rfl, policy := rfl, other := hother }
  -- It is offered and begun.
  obtain ⟨t₂, hd₂, hl₂, hq₂, hu₂, hr₂⟩ :=
    Tables.dispatch_pull host h hl₁ howner hpeer hr₁ rfl
  have hl₂ : s.toTables.Leaves t₂ := ⟨hl₂.1.trans hl₁.1, hl₂.2.trans hl₁.2⟩
  rw [hu₁] at hd₂ hr₂
  obtain ⟨t₃, hd₃, hl₃, hq₃, hu₃, hr₃⟩ := Tables.dispatch_begin host
    (host.uuid4 (s.registry.uuids + 1)) h hl₂ howner hpeer hr₂ ⟨rfl, rfl, rfl, rfl⟩
  have hl₃ : s.toTables.Leaves t₃ := ⟨hl₃.1.trans hl₂.1, hl₃.2.trans hl₂.2⟩
  -- Its result is published, and the run is finished.
  have hq : t₃.queryResults = s.queryResults := hq₃.trans (hq₂.trans hq₁)
  obtain ⟨t₄, hd₄, hl₄, hq₄, hu₄, hr₄⟩ := Tables.dispatch_publish host
    (host.uuid4 (s.registry.uuids + 1)) h hl₃ howner hpeer (host.uuid4_ne_nil _) hr₃
    ⟨rfl, rfl, rfl, rfl⟩ hp htask hsource (by rw [hq]; exact hfresh) (by rw [hq]; exact hroom)
  have hl₄ : s.toTables.Leaves t₄ := ⟨hl₄.1.trans hl₃.1, hl₄.2.trans hl₃.2⟩
  obtain ⟨t₅, hd₅, hl₅, hq₅, hu₅, hlive₅⟩ := Tables.dispatch_finish host
    (host.uuid4 (s.registry.uuids + 1)) h hl₄ howner hpeer hr₄ ⟨rfl, rfl, rfl, rfl⟩
  have hl₅ : s.toTables.Leaves t₅ := ⟨hl₅.1.trans hl₄.1, hl₅.2.trans hl₄.2⟩
  obtain ⟨s₁, hled₁, hs₁⟩ := leads_of_dispatch Machine.Leads.refl rfl hd₁
  obtain ⟨s₂, hled₂, hs₂⟩ := leads_of_dispatch hled₁ hs₁ hd₂
  obtain ⟨s₃, hled₃, hs₃⟩ := leads_of_dispatch hled₂ hs₂ hd₃
  obtain ⟨s₄, hled₄, hs₄⟩ := leads_of_dispatch hled₃ hs₃ hd₄
  obtain ⟨s₅, hled₅, hs₅⟩ := leads_of_dispatch hled₄ hs₄ hd₅
  have hidle : t₅.Idle task e owner peer l :=
    { found := by rw [hl₅.1]; exact h.found
      enabled := h.enabled
      query := h.query
      pinned := h.pinned
      live := hlive₅
      running := h.running
      room := h.room
      unregistered := by rw [hl₅.2]; exact h.unregistered }
  refine ⟨s₅, hled₅, hs₅ ▸ hidle, ?_, ?_⟩
  · rw [hs₅]
    exact hl₅.1
  · rw [hs₅, hq₅, hq₄, hq]

/-- **A query that nobody works on can be served, and is idle again**: its run is executed, and the
result is acknowledged. -/
theorem served (hs : (machine host).Reachable s) (h : s.toTables.Idle task e owner peer l)
    (howner : owner ≠ []) (hpeer : peer ≠ [])
    (hp : QueryPayload.Acceptable (host.uuid4 s.registry.uuids) p) (htask : p.taskId = task.taskId)
    (hsource : p.source = "manual")
    (hfresh : s.queryResults.get? (host.uuid4 s.registry.uuids) = none)
    (hroom : s.queryResults.unackedCount < QueryTable.maxPending) :
    ∃ s', (machine host).Leads (fun _ _ => True) s s' ∧ s'.toTables.Idle task e owner peer l ∧
      s'.registry.tasks = s.registry.tasks ∧
      s'.queryResults = QueryTable.prune (QueryTable.markAcked (host.uuid4 s.registry.uuids)
        (s.queryResults.put
          { owner, peer, offerId := host.uuid4 (s.registry.uuids + 1), payload := p,
            acked := false })) := by
  obtain ⟨s₁, hled₁, hidle, htasks, hq⟩ :=
    delivered hs h howner hpeer hp htask hsource hfresh hroom
  have hget : s₁.queryResults.get? (host.uuid4 s.registry.uuids) = some
      { owner, peer, offerId := host.uuid4 (s.registry.uuids + 1), payload := p,
        acked := false } := by
    rw [hq, ← hp.runId_eq]
    exact Table.get?_put_self _ _
  have hd : s₁.toTables.dispatch host Env.quiet []
      (Op.notificationsAck [Json.str (host.uuid4 s.registry.uuids)]) = Except.ok (Reply.bool true,
        { s₁.toTables with
          queryResults := QueryTable.prune
            (QueryTable.markAcked (host.uuid4 s.registry.uuids) s₁.queryResults) }) := by
    refine bind_eq_ok_iff.2 ⟨(true, _), ?_, rfl⟩
    simp only [QueryTable.ack, hget]
  obtain ⟨s₂, hled₂, hs₂⟩ := leads_of_dispatch hled₁ rfl hd
  refine ⟨s₂, hled₂, ?_, ?_, ?_⟩
  · rw [hs₂]
    exact { hidle with }
  · rw [hs₂]
    exact htasks
  · rw [hs₂, ← hq]

end TaskEngine
