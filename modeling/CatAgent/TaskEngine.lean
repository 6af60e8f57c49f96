/-
**The operations of the task engine.**

The engine owns the registry of tasks, bindings and timers, the run table, the inbox of query
results and the leases of the workers.  A request names a target and a method; `dispatch` answers
it and changes the tables in memory.  Whether the change is kept is decided afterwards, by the
transaction around `dispatch` (`CatAgent.Transaction`).

Main definitions:

* `Tables` — everything that a request can read or write in memory;
* `AdminOp`, `AdminOp.apply` — the requests that only concern the registry;
* `WorkerOp`, `Tables.worker` — the requests of the workers;
* `Op`, `Tables.dispatch` — all requests, and the answer to each;
* `Tables.poll` — what a tick does.

Main results:

* `AdminOp.follows` — an administrative request follows the rules of the registry.
-/

import CatAgent.QueryInbox

set_option relaxedAutoImplicit false
set_option autoImplicit false

/-- The tables of the engine. -/
structure Tables where
  registry : Registry
  runs : RunTable
  queryResults : QueryTable
  workers : WorkerTable

/-- The answer to a request. -/
inductive Reply where
  | none
  | bool (b : Bool)
  | text (s : PyStr)
  | task (task : Option TaskRecord)
  | tasks (tasks : List TaskRecord)
  | binding (b : Option EventBinding)
  | bindings (bs : List EventBinding)
  | taskTimers (ts : List TaskTimerSpec)
  | timers (ts : List TimerSpec)
  | runId (identifier : Option PyStr)
  | event (event : Option SystemEvent)
  | runs (runs : List Run)
  | cores (cores : List (Executor × Bool × PyStr))
  | payloads (payloads : List QueryPayload)
deriving DecidableEq

/-! ### Requests that concern the registry only -/

/-- The requests with target `tasks`, `events` or `system` that only read or write the registry. -/
inductive AdminOp where
  /-- `tasks.get` -/
  | get (taskId : ℤ)
  /-- `tasks.require` -/
  | require (taskId : ℤ)
  /-- `tasks.list`, `system.task_snapshot` -/
  | list
  /-- `tasks.create` -/
  | create (spec : TaskSpec)
  /-- `tasks.delete`, `system.delete_task` -/
  | delete (taskId : ℤ)
  /-- `tasks.set_enabled(task_id, True)`, `system.start_task`; `system.resume_task` preserves the
  generation -/
  | startTask (taskId : ℤ) (preserveGeneration : Bool)
  /-- `tasks.set_enabled(task_id, False)`, `system.stop_task` -/
  | stopTask (taskId : ℤ) (preserveGeneration : Bool)
  /-- `tasks.set_timer_period`, `system.set_task_period` -/
  | setTaskPeriod (taskId : ℤ) (periodSeconds : PyNumber)
  /-- `tasks.set_executor` -/
  | setExecutor (taskId : ℤ) (executor : PyStr)
  /-- `events.resolve` -/
  | resolve (source name : PyStr)
  /-- `events.snapshot` -/
  | snapshot
  /-- `events.unregister_task` -/
  | unregisterTask (taskId : ℤ)
  /-- `events.register` -/
  | register (taskId : ℤ) (description : PyStr) (spec : BindingSpec)
  /-- `system.create_task` -/
  | createTask (description text : PyStr) (skills : List PyStr) (executor : PyStr)
  /-- `system.create_periodic_task` -/
  | createPeriodicTask (description text : PyStr) (skills : List PyStr) (periodSeconds : PyNumber)
      (method executor : PyStr) (agentId : Option PyStr)
  /-- `system.create_external_task` -/
  | createExternalTask (task : TaskSpec) (binding : BindingSpec)
  /-- `system.task_timer_snapshot` -/
  | taskTimerSnapshot
  /-- `system.timer_snapshot` -/
  | timerSnapshot

/-- Answer with the record of a task. -/
def Reply.ofTask (result : Except PyError (TaskRecord × Registry)) :
    Except PyError (Reply × Registry) :=
  result.map fun p => (Reply.task (some p.1), p.2)

/-- The answer to an administrative request. -/
def AdminOp.apply (host : Host) (now : ℚ) (r : Registry) :
    AdminOp → Except PyError (Reply × Registry)
  | get taskId => Except.ok (Reply.task (r.tasks.get? taskId), r)
  | require taskId => (TaskStore.require r.tasks taskId).map fun task => (Reply.task (some task), r)
  | list => Except.ok (Reply.tasks (TaskStore.list r.tasks), r)
  | create spec => Reply.ofTask (r.createWithTimer host now spec)
  | delete taskId => Except.ok (Reply.bool (r.delete taskId).1, (r.delete taskId).2)
  | startTask taskId preserve => Reply.ofTask (r.startTask host now taskId preserve)
  | stopTask taskId preserve => Reply.ofTask (r.stopTask host taskId preserve)
  | setTaskPeriod taskId period => Reply.ofTask (r.setTaskPeriod host now taskId period)
  | setExecutor taskId executor => Reply.ofTask (r.setExecutor host taskId executor)
  | resolve source name => Except.ok
      (Reply.binding ((EventStore.resolve host source name r.bindings).map BindingObject.binding), r)
  | snapshot => Except.ok
      (Reply.bindings ((EventStore.snapshot r.bindings).map BindingObject.binding), r)
  | unregisterTask taskId => Except.ok (Reply.none, r.unregisterTask taskId)
  | register taskId description spec =>
      (r.registerForTask host taskId description spec).map fun p =>
        (Reply.binding (some p.1), p.2)
  | createTask description text skills executor =>
      Reply.ofTask (r.createTask host description text skills executor)
  | createPeriodicTask description text skills period method executor agentId => Reply.ofTask
      (r.createPeriodicTask host now description text skills period method executor agentId)
  | createExternalTask task binding => Reply.ofTask (r.createExternalTask host task binding)
  | taskTimerSnapshot => Except.ok (Reply.taskTimers r.taskTimers.values, r)
  | timerSnapshot => Except.ok (Reply.timers r.timers.values, r)

/-! ### Requests of the workers -/

/-- The methods with target `worker`. -/
inductive WorkerOp where
  | heartbeat (executor : PyStr) (ready : Bool) (reason : PyStr)
  | offline
  | publishResult (runId offerId result : Option Json)
  | pull (executor : PyStr) (seen skipRunIds : List PyStr)
  | begin (runId offerId : PyStr)
  | valid (runId offerId : PyStr)
  | finish (runId offerId : PyStr) (outcome : Option PyStr) (statusCode : Option Json)

/-- `readiness.REASONS`. -/
def readinessReasons : List PyStr :=
  ["", "initializing", "stopping", "runtime_unavailable", "readiness_unknown", "missing_api_key",
    "credentials_invalid", "quota_exhausted", "usage_api_error", "usage_invalid_response",
    "usage_network_error", "ollama_unavailable", "ollama_invalid_response", "openai_unavailable",
    "openai_invalid_response", "openai_model_unavailable"].map PyStr.ofString

namespace Tables

/-- `TaskEngine._reconcile`. -/
def reconcile (env : Env) (t : Tables) : Tables :=
  { t with runs := t.runs.reconcile env t.registry.tasks t.workers }

/-- `TaskEngine._queue`. -/
def queue (host : Host) (event : SystemEvent) (t : Tables) :
    Except PyError (Option PyStr × Tables) := do
  let (identifier, runs) ←
    t.runs.queue (host.uuid4 t.registry.uuids) t.registry.tasks event
  return (identifier,
    { t with runs, registry := { t.registry with uuids := t.registry.uuids + 1 } })

/-- `heartbeat`. -/
def heartbeat (env : Env) (owner peer executor : PyStr) (ready : Bool) (reason : PyStr)
    (t : Tables) : Except PyError (Reply × Tables) :=
  match Executor.ofName executor with
  | none => Except.error (PyError.taskStoreError "invalid CORE heartbeat")
  | some e =>
      let reason := if reason ∈ readinessReasons then reason else "readiness_unknown"
      let reason := if ready then [] else if reason = [] then "readiness_unknown" else reason
      Except.ok (Reply.bool true,
        { t with
          workers := t.workers.put
            { owner, peer, executor := e, ready, reason, lastSeen := env.clock } })

/-- `offline`. -/
def offline (env : Env) (owner peer : PyStr) (t : Tables) : Tables :=
  reconcile env
    { t with
      workers := t.workers.modify (owner, peer)
        (fun w => { w with
          ready := false, reason := "stopping", lastSeen := env.clock - leaseSeconds })
        fun _ => rfl }

/-- Offer a run to a worker under a fresh offer identifier. -/
def offer (host : Host) (executor : Executor) (owner peer : PyStr) (runId : PyStr) (t : Tables) :
    Tables :=
  { t with
    registry := { t.registry with uuids := t.registry.uuids + 1 }
    runs := t.runs.modify runId
      (fun run => run.offered executor owner peer (host.uuid4 t.registry.uuids)) fun _ => rfl }

/-- `pull`. -/
def pull (host : Host) (env : Env) (owner peer executor : PyStr) (seen skipRunIds : List PyStr)
    (t : Tables) : Except PyError (Reply × Tables) :=
  match Executor.ofName executor with
  | none => Except.error
      (PyError.taskStoreError "worker executor must be litert or openai")
  | some e =>
      match t.runs.heldOffer owner peer seen skipRunIds with
      | some run => Except.ok (Reply.event (some run.event), t)
      | none =>
          match t.runs.nextOffer env t.workers e owner peer skipRunIds with
          | none => Except.ok (Reply.event none, t)
          | some run =>
              let granted := run.offered e owner peer (host.uuid4 t.registry.uuids)
              Except.ok (Reply.event (some granted.event),
                t.offer host e owner peer run.event.runId)

/-- The run that a worker names, if it still holds it under that offer. -/
def granted (owner peer runId offerId : PyStr) (t : Tables) : Option Run :=
  (t.runs.get? runId).filter fun run => decide (run.owner = owner) && decide (run.peer = peer) &&
    decide (run.event.offerId = offerId)

/-- `run['state'] not in {'offered', 'running'} or not self._current(run)`, negated. -/
def maySay (run : Run) (t : Tables) : Bool := run.state.active && run.current t.registry.tasks

/-- Update a run. -/
def updateRun (runId : PyStr) (f : Run → Run) (hf : ∀ run, (f run).event.runId = run.event.runId)
    (t : Tables) : Tables :=
  { t with runs := t.runs.modify runId f hf }

/-- `begin`. -/
def begin (owner peer runId offerId : PyStr) (t : Tables) : Bool × Tables :=
  match t.granted owner peer runId offerId with
  | none => (false, t)
  | some run =>
      if t.maySay run then
        (true, t.updateRun runId (fun run => { run with state := RunState.running }) fun _ => rfl)
      else (false, t)

/-- `valid`. -/
def valid (owner peer runId offerId : PyStr) (t : Tables) : Bool :=
  match t.granted owner peer runId offerId with
  | none => false
  | some run => t.maySay run

/-- The checked `status_code` of `finish`. -/
def statusCodeOf (outcome : PyStr) (statusCode : Option Json) : Except PyError ℤ :=
  match statusCode.getD (Json.int (if outcome = PyStr.ofString "done" then 0 else 1)) with
  | Json.int n =>
      if n < 0 then Except.error
        (PyError.taskStoreError "status_code must be a non-negative integer")
      else Except.ok n
  | _ => Except.error (PyError.taskStoreError "status_code must be a non-negative integer")

/-- `finish`. -/
def finish (owner peer runId offerId : PyStr) (outcome : Option PyStr) (statusCode : Option Json)
    (t : Tables) : Except PyError (Bool × Tables) :=
  match t.granted owner peer runId offerId with
  | none => Except.ok (false, t)
  | some run =>
      if run.state.terminal then Except.ok (true, t)
      else do
        let outcome := outcome.getD "done"
        let code ← statusCodeOf outcome statusCode
        if run.state = RunState.offered ∧ run.current t.registry.tasks then
          return (true, t.updateRun runId Run.returnPending fun _ => rfl)
        else return (true, t.updateRun runId (Run.finished outcome code) fun _ => rfl)

/-- `TaskEngine._worker`. -/
def worker (host : Host) (env : Env) (owner peer : PyStr) (op : WorkerOp) (t : Tables) :
    Except PyError (Reply × Tables) := do
  raiseIf (peer = [] ∨ owner = []) (PyError.taskStoreError "worker identity required")
  -- Expired grants are revoked before a renewed heartbeat is accepted.
  let t := t.reconcile env
  match op with
  | WorkerOp.heartbeat executor ready reason => t.heartbeat env owner peer executor ready reason
  | WorkerOp.offline => return (Reply.bool true, t.offline env owner peer)
  | WorkerOp.publishResult runId offerId result =>
      let (b, queryResults) ← t.queryResults.publish t.registry.tasks t.runs owner peer
        runId offerId result
      return (Reply.bool b, { t with queryResults })
  | WorkerOp.pull executor seen skipRunIds => t.pull host env owner peer executor seen skipRunIds
  | WorkerOp.begin runId offerId =>
      return (Reply.bool (t.begin owner peer runId offerId).1, (t.begin owner peer runId offerId).2)
  | WorkerOp.valid runId offerId => return (Reply.bool (t.valid owner peer runId offerId), t)
  | WorkerOp.finish runId offerId outcome statusCode =>
      let (b, t) ← t.finish owner peer runId offerId outcome statusCode
      return (Reply.bool b, t)

/-! ### All requests -/

/-- One line of `TaskEngine.status_text`. -/
def statusLine (host : Host) (t : Tables) (task : TaskRecord) : PyStr :=
  let live := t.runs.values.filter fun run =>
    decide (run.event.taskId = some task.taskId) && ! run.state.terminal
  -- The names of the states that occur, in alphabetical order.
  let states := [RunState.offered, RunState.pending, RunState.running].filter fun state =>
    live.any fun run => decide (run.state = state)
  let names := if states = [] then PyStr.ofString "idle"
    else (PyStr.ofString ",").intercalate (states.map RunState.name)
  PyStr.ofString "TASK " ++ PyStr.ofString (toString task.taskId) ++
    PyStr.ofString " executor=" ++ task.executor.name ++
    PyStr.ofString (if task.enabled then " started" else " stopped") ++
    PyStr.ofString " period=" ++
    (match task.timerPeriodSeconds with
      | none => PyStr.ofString "None"
      | some p => host.strFloat p.val) ++
    PyStr.ofString " runs=" ++ names ++ PyStr.ofString " " ++ task.description

/-- `TaskEngine.status_text`. -/
def statusText (host : Host) (t : Tables) : PyStr :=
  let lines := (TaskStore.list t.registry.tasks).map (t.statusLine host)
  if lines = [] then PyStr.ofString "no tasks" else (PyStr.ofString "\n").intercalate lines

/-- `TaskEngine.core_status`. -/
def coreStatus (env : Env) (t : Tables) : List (Executor × Bool × PyStr) :=
  [Executor.openai, Executor.litert].map fun e => (e, t.workers.coreStatus env e)

/-- The manual event of `run_task`. -/
def manualEvent (now : ℚ) (task : TaskRecord) : SystemEvent :=
  { source := "manual"
    name := PyStr.ofString "task:" ++ PyStr.ofString (toString task.taskId)
    task := []
    createdMonotonic := now
    taskId := some task.taskId
    taskGeneration := task.generation }

/-- `external_event`: queue a run for the task of a binding. -/
def externalEvent (host : Host) (env : Env) (source name : PyStr) (value : Option PyStr)
    (t : Tables) : Except PyError (Option PyStr × Tables) :=
  match EventStore.resolve host source name t.registry.bindings with
  | none => Except.ok (none, t)
  | some o =>
      match t.registry.tasks.get? o.binding.taskId with
      | none => Except.ok (none, t)
      | some task =>
          t.queue host
            { source, name, task := value.getD [], createdMonotonic := env.monotonic
              taskId := some task.taskId, taskGeneration := task.generation }

end Tables

/-- The requests. -/
inductive Op where
  /-- A request that concerns the registry only. -/
  | admin (op : AdminOp)
  /-- `tasks.status_text`, `system.task_status_text` -/
  | statusText
  /-- `system.pause_task` -/
  | pauseTask (taskId : ℤ)
  /-- `system.ping` -/
  | ping
  /-- `system.run_task` -/
  | runTask (taskId : ℤ)
  /-- `system.cores` -/
  | cores
  /-- `system.runs` -/
  | runs
  /-- `system.external_event` -/
  | externalEvent (source name : PyStr) (value : Option PyStr)
  /-- `system.submit_event` -/
  | submitEvent (event : SystemEvent)
  /-- `notifications.list` -/
  | notificationsList (limit : Option Json)
  /-- `notifications.ack` -/
  | notificationsAck (args : List Json)
  /-- `worker.*` -/
  | worker (owner : PyStr) (op : WorkerOp)
  /-- A request that raises whatever the tables are: an unknown operation, a missing argument, an
  argument of the wrong type. -/
  | malformed (e : PyError)

/-- Answer with the identifier of a queued run. -/
def Reply.ofRunId (result : Except PyError (Option PyStr × Tables)) :
    Except PyError (Reply × Tables) :=
  result.map fun p => (Reply.runId p.1, p.2)

namespace Tables

/-- `TaskEngine._dispatch`. -/
def dispatch (host : Host) (env : Env) (peer : PyStr) (t : Tables) :
    Op → Except PyError (Reply × Tables)
  | Op.admin op => do
      let (reply, registry) ← op.apply host env.monotonic t.registry
      return (reply, { t with registry })
  | Op.statusText => return (Reply.text (t.statusText host), t)
  | Op.pauseTask taskId => do
      let (task, registry) ← t.registry.stopTask host taskId true
      -- Runs that have not started are revoked while the task is disabled.
      return (Reply.task (some task), reconcile env { t with registry })
  | Op.ping => return (Reply.text "TASK_SYSTEM_READY", t)
  | Op.runTask taskId => do
      let task ← TaskStore.require t.registry.tasks taskId
      Reply.ofRunId (t.queue host (manualEvent env.monotonic task))
  | Op.cores => return (Reply.cores (t.coreStatus env), t)
  | Op.runs => return (Reply.runs t.runs.values, t)
  | Op.externalEvent source name value =>
      Reply.ofRunId (t.externalEvent host env source name value)
  | Op.submitEvent event => Reply.ofRunId (t.queue host event)
  | Op.notificationsList limit => do
      let n ← QueryTable.listLimit limit
      return (Reply.payloads (t.queryResults.listed n), t)
  | Op.notificationsAck args => do
      let (b, queryResults) ← t.queryResults.ack args
      return (Reply.bool b, { t with queryResults })
  | Op.worker owner op => t.worker host env owner peer op
  | Op.malformed e => throw e

/-- Queue the events of a tick one after the other. -/
def queueAll (host : Host) : List SystemEvent → Tables → Except PyError Tables
  | [], t => Except.ok t
  | event :: events, t => do
      let (_, t) ← t.queue host event
      queueAll host events t

/-- The body of `TaskEngine.tick`. -/
def poll (host : Host) (env : Env) (now : Option ℚ) (t : Tables) : Except PyError Tables := do
  let t := t.reconcile env
  let (events, registry) ← t.registry.pollDueFloat (now.getD env.monotonic) false
  queueAll host events { t with registry }

end Tables

/-! ### Administrative requests follow the rules of the registry -/

theorem Reply.ofTask_eq_ok {result : Except PyError (TaskRecord × Registry)} {reply : Reply}
    {r : Registry} (h : Reply.ofTask result = Except.ok (reply, r)) :
    ∃ task, result = Except.ok (task, r) ∧ reply = Reply.task (some task) := by
  cases result with
  | error e => cases h
  | ok p =>
      cases h
      exact ⟨p.1, rfl, rfl⟩

/-- The requests that can add or remove bindings. -/
def AdminOp.bindingOp : AdminOp → Bool
  | delete _ | unregisterTask _ | register _ _ _ | createExternalTask _ _ => true
  | _ => false

/-- The other requests leave the bindings alone. -/
theorem AdminOp.keepsBindings {host : Host} {now : ℚ} {r r' : Registry} {op : AdminOp}
    {reply : Reply} (h : op.apply host now r = Except.ok (reply, r'))
    (hop : op.bindingOp = false) : Registry.KeepsBindings host r r' := by
  cases op with
  | get | list | resolve | snapshot | taskTimerSnapshot | timerSnapshot =>
      cases h
      exact Registry.KeepsBindings.refl _
  | require taskId =>
      simp only [AdminOp.apply] at h
      cases hr : TaskStore.require r.tasks taskId with
      | error e =>
          rw [hr] at h
          cases h
      | ok task =>
          rw [hr] at h
          cases h
          exact Registry.KeepsBindings.refl _
  | create spec =>
      obtain ⟨task, h, _⟩ := Reply.ofTask_eq_ok h
      exact Registry.keeps_createWithTimer h
  | startTask taskId preserve =>
      obtain ⟨task, h, _⟩ := Reply.ofTask_eq_ok h
      exact Registry.keeps_startTask h
  | stopTask taskId preserve =>
      obtain ⟨task, h, _⟩ := Reply.ofTask_eq_ok h
      exact Registry.keeps_stopTask h
  | setTaskPeriod taskId period =>
      obtain ⟨task, h, _⟩ := Reply.ofTask_eq_ok h
      exact Registry.keeps_setTaskPeriod h
  | setExecutor taskId executor =>
      obtain ⟨task, h, _⟩ := Reply.ofTask_eq_ok h
      exact Registry.keeps_setExecutor h
  | createTask description text skills executor =>
      obtain ⟨task, h, _⟩ := Reply.ofTask_eq_ok h
      exact Registry.keeps_create h
  | createPeriodicTask description text skills period method executor agentId =>
      obtain ⟨task, h, _⟩ := Reply.ofTask_eq_ok h
      exact Registry.keeps_createPeriodicTask h
  | delete | unregisterTask | register | createExternalTask => cases hop

theorem registerForTask_of_apply {host : Host} {now : ℚ} {r r' : Registry} {reply : Reply}
    {taskId : ℤ} {description : PyStr} {spec : BindingSpec}
    (h : (AdminOp.register taskId description spec).apply host now r = Except.ok (reply, r')) :
    ∃ b, r.registerForTask host taskId description spec = Except.ok (b, r') ∧
      reply = Reply.binding (some b) := by
  simp only [AdminOp.apply] at h
  cases hr : r.registerForTask host taskId description spec with
  | error e =>
      rw [hr] at h
      cases h
  | ok p =>
      rw [hr] at h
      cases h
      exact ⟨p.1, rfl, rfl⟩

/-- **An administrative request follows the rules of the registry.** -/
theorem AdminOp.follows {host : Host} {now : ℚ} {r r' : Registry} {op : AdminOp} {reply : Reply}
    (h : op.apply host now r = Except.ok (reply, r')) : Registry.Follows host r r' := by
  cases hop : op.bindingOp with
  | false => exact (AdminOp.keepsBindings h hop).follows
  | true =>
      cases op with
      | delete taskId =>
          cases h
          exact Registry.follows_delete taskId
      | unregisterTask taskId =>
          cases h
          exact Registry.follows_unregisterTask taskId
      | register taskId description spec =>
          obtain ⟨b, hr, _⟩ := registerForTask_of_apply h
          exact Registry.follows_registerForTask hr
      | createExternalTask task binding =>
          obtain ⟨task, h, _⟩ := Reply.ofTask_eq_ok h
          exact Registry.follows_createExternalTask h
      | _ => cases hop

/-- One change of the registry: an administrative request out of those that are allowed, a poll of
the timers, or an identifier that is handed out. -/
inductive Registry.Change (host : Host) (ok : AdminOp → Prop) (r : Registry) : Registry → Prop
  | admin (op : AdminOp) (now : ℚ) (reply : Reply) (r' : Registry) (hop : ok op)
      (h : op.apply host now r = Except.ok (reply, r')) : Change host ok r r'
  | pollDue (current : ℚ) (events : List SystemEvent) (r' : Registry)
      (h : r.pollDue current false = Except.ok (events, r')) : Change host ok r r'
  | nextUuid : Change host ok r { r with uuids := r.uuids + 1 }

theorem Registry.Change.follows {host : Host} {ok : AdminOp → Prop} {r r' : Registry}
    (h : Registry.Change host ok r r') : Registry.Follows host r r' := by
  cases h with
  | admin op now reply _ hop h => exact AdminOp.follows h
  | pollDue current events _ h => exact (Registry.keeps_pollDue h).follows
  | nextUuid => exact Registry.keeps_nextUuid.follows
