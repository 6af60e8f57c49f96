/-
**The native task worker.**

A worker has two threads.  One polls the service: it finishes what has been executed, gives offers
back, pulls the next run and submits it to the scheduler.  The other executes what was submitted,
one run after the other.  The threads share the fields of `NativeTaskWorker`, which they read and
write under a lock, and both of them call the service.

The programs below follow the source.  Every access under the lock is one operation, and so is
every call to the service, every look at a clock or at the agents, and the call of the model.
Left out are the telemetry for the display, the handoff of old notifications, and the log.

Main definitions:

* `NativeTaskWorker` — the shared fields;
* `WorkerEffect`, `WorkerM` — the operations, and programs over them;
* `NativeTaskWorker.finishPending`, `NativeTaskWorker.flushDefers`, `NativeTaskWorker.deferOffer`,
  `NativeTaskWorker.pollOnce`, `NativeTaskWorker.close` — the polling thread;
* `NativeTaskWorker.execute` — the executing thread;
* `NativeTaskWorker.Records`, `NativeTaskWorker.resultOf` — which texts are recorded as query
  results, and as what;
* `NativeTaskWorker.atOnce` — a worker whose calls are all answered at once;
* `NativeTaskWorker.Quiet` — the operations that admit and finish nothing.
-/

import CatAgent.Program
import CatAgent.TaskRpc

set_option relaxedAutoImplicit false
set_option autoImplicit false

/-- What the constructor of a worker fixes. -/
structure WorkerConfig where
  owner : PyStr
  /-- `self.permissions`: the agents, and the tools that each of them may use. -/
  permissions : List (PyStr × List PyStr)
  /-- `self._mqtt_active_states`, by topic and field. -/
  activeStates : PyStr → PyStr → Option PyStr

/-- An operation that was submitted to the scheduler. -/
structure Job where
  event : SystemEvent
  task : TaskRecord
  agentId : PyStr

/-- An entry of `_pending_finishes`. -/
structure PendingFinish where
  event : SystemEvent
  outcome : PyStr
  statusCode : ℤ

/-- The fields that the threads of a worker share. -/
structure NativeTaskWorker where
  /-- `_ready`. -/
  ready : Bool
  /-- `_next_heartbeat`. -/
  nextHeartbeat : ℚ
  /-- `_seen`. -/
  seen : List PyStr
  /-- `_reserved`. -/
  reserved : List PyStr
  /-- `_pending_finishes`, by offer. -/
  pendingFinishes : PyDict PyStr PendingFinish
  /-- `_pending_results`, by offer. -/
  pendingResults : PyDict PyStr QueryPayload
  /-- `_deferred`, by run. -/
  deferred : PyDict PyStr ℚ
  /-- `_pending_defers`, by offer. -/
  pendingDefers : PyDict PyStr SystemEvent
  /-- What the scheduler has been given and has not started. -/
  jobs : List Job

/-- What `manager.run_agent` does. -/
inductive AgentOutcome where
  | raised
  | returned (free : Bool) (statusCode : ℤ) (text : PyStr)

/-- The operations of the threads. -/
inductive WorkerEffect : Type 1 where
  /-- A block under `self._lock`. -/
  | locked (β : Type) (f : NativeTaskWorker → β × NativeTaskWorker)
  /-- A call to the service. -/
  | rpc (c : RpcCall)
  /-- `self.clock()`. -/
  | clock
  /-- `self._can_run()`. -/
  | canRun
  /-- `manager.agent_status()`: the agents, and whether they are `FREE`. -/
  | agentStatus
  /-- `self.agent_blocked(ident)`. -/
  | agentBlocked (ident : PyStr)
  /-- Whether `scheduler.submit` admits another operation. -/
  | admits
  /-- `manager.run_agent(agent_id, instruction)`, on behalf of the given event. -/
  | runAgent (event : SystemEvent) (agentId instruction : PyStr)
  /-- `self.on_query_result(result)`, on behalf of the given offer. -/
  | onQueryResult (offerId : PyStr) (result : QueryPayload)

/-- The answers to the operations. -/
def WorkerEffect.Answer : WorkerEffect → Type
  | locked β _ => β
  | rpc _ => Except PyError Reply
  | clock => ℚ
  | canRun | agentBlocked _ | admits => Bool
  | agentStatus => List (PyStr × Bool)
  | runAgent _ _ _ => AgentOutcome
  | onQueryResult _ _ => Unit

/-- Programs of a worker's threads. -/
abbrev WorkerM := Program WorkerEffect WorkerEffect.Answer

namespace NativeTaskWorker

/-- A worker that has just been made. -/
def initial : NativeTaskWorker where
  ready := false
  nextHeartbeat := 0
  seen := []
  reserved := []
  pendingFinishes := PyDict.empty
  pendingResults := PyDict.empty
  deferred := PyDict.empty
  pendingDefers := PyDict.empty
  jobs := []

/-- A block under the lock. -/
def locked {β : Type} (f : NativeTaskWorker → β × NativeTaskWorker) : WorkerM β :=
  Program.operation (E := WorkerEffect) (A := WorkerEffect.Answer) (WorkerEffect.locked β f)

/-- A block under the lock that only writes. -/
def update (f : NativeTaskWorker → NativeTaskWorker) : WorkerM Unit := locked fun w => ((), f w)

/-- A block under the lock that only reads. -/
def read {β : Type} (f : NativeTaskWorker → β) : WorkerM β := locked fun w => (f w, w)

def rpc (c : RpcCall) : WorkerM (Except PyError Reply) :=
  Program.operation (E := WorkerEffect) (A := WorkerEffect.Answer) (WorkerEffect.rpc c)

def clock : WorkerM ℚ :=
  Program.operation (E := WorkerEffect) (A := WorkerEffect.Answer) WorkerEffect.clock

def canRun : WorkerM Bool :=
  Program.operation (E := WorkerEffect) (A := WorkerEffect.Answer) WorkerEffect.canRun

def agentStatus : WorkerM (List (PyStr × Bool)) :=
  Program.operation (E := WorkerEffect) (A := WorkerEffect.Answer) WorkerEffect.agentStatus

def agentBlocked (ident : PyStr) : WorkerM Bool :=
  Program.operation (E := WorkerEffect) (A := WorkerEffect.Answer)
    (WorkerEffect.agentBlocked ident)

def admits : WorkerM Bool :=
  Program.operation (E := WorkerEffect) (A := WorkerEffect.Answer) WorkerEffect.admits

def runAgent (event : SystemEvent) (agentId instruction : PyStr) : WorkerM AgentOutcome :=
  Program.operation (E := WorkerEffect) (A := WorkerEffect.Answer)
    (WorkerEffect.runAgent event agentId instruction)

def onQueryResult (offerId : PyStr) (result : QueryPayload) : WorkerM Unit :=
  Program.operation (E := WorkerEffect) (A := WorkerEffect.Answer)
    (WorkerEffect.onQueryResult offerId result)

/-! ### Finishing -/

/-- `MAX_UNACKNOWLEDGED`. -/
def maxUnacknowledged : ℕ := 32

/-- `HEARTBEAT_SECONDS`. -/
def heartbeatSeconds : ℚ := 5

/-- `bool(reply)`, for the calls that answer with a boolean. -/
def truthy : Reply → Bool
  | Reply.bool b => b
  | _ => false

/-- `_seen.discard(token)`. -/
def unsee (token : PyStr) (w : NativeTaskWorker) : NativeTaskWorker :=
  { w with seen := w.seen.filter fun other => decide (other ≠ token) }

/-- The result of a run has been dealt with: how the run is finished is settled. -/
def settle (token : PyStr) (entry : PendingFinish) (w : NativeTaskWorker) : NativeTaskWorker :=
  { w with
    pendingResults := w.pendingResults.erase token
    pendingFinishes := w.pendingFinishes.set token entry }

/-- The `finish` of one entry, and whether it was acknowledged. -/
def finishEntry (token : PyStr) (entry : PendingFinish) : WorkerM Bool := do
  match ← rpc (RpcCall.finish entry.event.runId entry.event.offerId entry.outcome
      (some entry.statusCode)) with
  | Except.error _ => return false
  | Except.ok _ => do
      -- An answer `False` means that the offer was revoked; it is not tried again either.
      update fun w => unsee token { w with pendingFinishes := w.pendingFinishes.erase token }
      return true

/-- The first half of one round of the loop: publishing the result, if there is one.  The entry
that comes back says how the run is finished; there is none if the store did not answer. -/
def publishEntry (token : PyStr) (entry : PendingFinish) : WorkerM (Option PendingFinish) := do
  match ← read fun w => w.pendingResults.get? token with
  | none => return some entry
  | some result =>
      match ← rpc (RpcCall.publishResult entry.event.runId entry.event.offerId result) with
      | Except.error _ => return none
      | Except.ok persisted =>
          if truthy persisted then do
            onQueryResult token result
            update (settle token entry)
            return some entry
          else do
            -- The run was revoked; the result is never claimed to be saved.
            let entry := { entry with outcome := "cancelled", statusCode := 1 }
            update (settle token entry)
            return some entry

/-- The loop of `_finish_pending`. -/
def finishEntries : List (PyStr × PendingFinish) → WorkerM Bool
  | [] => return true
  | (token, entry) :: rest => do
      match ← publishEntry token entry with
      | none => return false
      | some entry =>
          if ← finishEntry token entry then finishEntries rest
          else return false

/-- `NativeTaskWorker._finish_pending`. -/
def finishPending : WorkerM Bool := do
  let entries ← read fun w => w.pendingFinishes.entries
  finishEntries entries

/-- The loop of `_flush_defers`. -/
def flushEntries : List (PyStr × SystemEvent) → WorkerM Bool
  | [] => return true
  | (token, event) :: rest => do
      match ← rpc (RpcCall.finish event.runId token "cancelled" none) with
      | Except.error _ => return false
      | Except.ok _ => do
          update fun w => { w with pendingDefers := w.pendingDefers.erase token }
          flushEntries rest

/-- `NativeTaskWorker._flush_defers`. -/
def flushDefers : WorkerM Bool := do
  let entries ← read fun w => w.pendingDefers.entries
  flushEntries entries

/-- `NativeTaskWorker._defer_offer`: an offer that has not begun is given back, and its run is not
pulled for some seconds. -/
def deferOffer (event : SystemEvent) (seconds : ℚ) : WorkerM Bool := do
  let now ← clock
  update fun w =>
    { w with
      deferred := w.deferred.set event.runId (now + seconds)
      pendingDefers := w.pendingDefers.set event.offerId event }
  flushDefers

/-! ### Polling -/

/-- `NativeTaskWorker._heartbeat`. -/
def heartbeat : WorkerM Bool := do
  let now ← clock
  let fresh ← read fun w => decide (now < w.nextHeartbeat) && w.ready
  if fresh then return true
  else
    match ← rpc RpcCall.heartbeat with
    | Except.error _ => do
        update fun w => { w with ready := false }
        return false
    | Except.ok _ => do
        let now ← clock
        update fun w => { w with ready := true, nextHeartbeat := now + heartbeatSeconds }
        return true

/-- `set(required).issubset(granted)`. -/
def permits (required granted : List PyStr) : Bool := required.all fun tool => decide (tool ∈ granted)

/-- The second loop of `_select_agent`: the first agent that is free and may use the tools. -/
def firstAgent (required : List PyStr) (agents : List (PyStr × Bool)) :
    List (PyStr × List PyStr) → WorkerM (Option PyStr)
  | [] => return none
  | (ident, granted) :: rest =>
      if permits required granted ∧ agents.lookup ident = some true then do
        if ← agentBlocked ident then firstAgent required agents rest
        else do
          let reserved ← read fun w => decide (ident ∈ w.reserved)
          if reserved then firstAgent required agents rest else return some ident
      else firstAgent required agents rest

/-- `NativeTaskWorker._select_agent`. -/
def selectAgent (config : WorkerConfig) (task : TaskRecord) : WorkerM (Option PyStr) := do
  let agents ← agentStatus
  match task.agentId with
  | none => firstAgent task.skills agents config.permissions
  | some target =>
      match config.permissions.lookup target with
      | none => return none
      | some granted =>
          if agents.lookup target = some true ∧ permits task.skills granted then do
            if ← agentBlocked target then return none
            else read fun w => if target ∈ w.reserved then none else some target
          else return none

/-- `scheduler.submit` under the lock: the agent is reserved and the offer is seen before the
operation can run; if it is not admitted, nothing has changed. -/
def submit (job : Job) (admitted : Bool) (w : NativeTaskWorker) : Bool × NativeTaskWorker :=
  if job.agentId ∈ w.reserved ∨ job.event.offerId ∈ w.seen ∨ ¬ admitted then (false, w)
  else (true,
    { w with
      reserved := job.agentId :: w.reserved
      seen := job.event.offerId :: w.seen
      jobs := w.jobs ++ [job] })

/-- The end of `poll_once`: an offer whose task has been read. -/
def submitOffer (config : WorkerConfig) (event : SystemEvent) (task : Option TaskRecord) :
    WorkerM Bool :=
  match task with
  | none => do
      let _ ← deferOffer event 30
      return false
  | some task =>
      if task.enabled = true ∧ task.generation = event.taskGeneration then do
        match ← selectAgent config task with
        | none => do
            let _ ← deferOffer event 2
            return false
        | some agentId => do
            let admitted ← admits
            locked (submit { event, task, agentId } admitted)
      else do
        let _ ← deferOffer event 30
        return false

/-- What a worker passes to `pull`, unless too much is unacknowledged: the offers that it has seen
and the runs that it does not want. -/
def pullArgs (now : ℚ) (w : NativeTaskWorker) :
    Option (List PyStr × List PyStr) × NativeTaskWorker :=
  if maxUnacknowledged ≤ w.seen.length then (none, w)
  else
    let deferred := w.deferred.filter fun _ expiry => decide (now < expiry)
    (some (w.seen, deferred.keys), { w with deferred })

/-- `pull`, and what follows it. -/
def pullOnce (config : WorkerConfig) : WorkerM Bool := do
  let now ← clock
  match ← locked (pullArgs now) with
  | none => return false
  | some (seen, skipRunIds) =>
      match ← rpc (RpcCall.pull seen skipRunIds) with
      | Except.ok (Reply.event (some event)) =>
          if event.runId = [] ∨ event.offerId = [] ∨ event.offerId ∈ seen then return false
          else
            match ← rpc (RpcCall.getTask (event.taskId.getD 0)) with
            | Except.ok (Reply.task task) => submitOffer config event task
            | _ => return false
      | _ => return false

/-- `NativeTaskWorker.poll_once`. -/
def pollOnce (config : WorkerConfig) : WorkerM Bool := do
  if ← heartbeat then
    if ← canRun then
      if ← finishPending then
        if ← flushDefers then pullOnce config
        else return false
      else return false
    else return false
  else return false

/-- `NativeTaskWorker.close`, after the polling thread has stopped. -/
def close : WorkerM Bool := do
  let _ ← finishPending
  let _ ← flushDefers
  let _ ← rpc RpcCall.offline
  update fun w => { w with ready := false }
  return false

/-! ### Executing -/

/-- `result.text[:4096]`. -/
def truncate (text : PyStr) : PyStr := text.take 4096

/-- The query result that `_execute` makes of a text. -/
def resultOf (job : Job) (text : PyStr) : QueryPayload where
  runId := job.event.runId
  taskId := job.event.taskId.getD 0
  source := job.event.source
  agentId := job.agentId
  agentOk := true
  text := truncate text

/-- A result is recorded for a query whose agent reports no error and says something. -/
def Records (job : Job) (statusCode : ℤ) (text : PyStr) : Prop :=
  job.task.method = TaskMethod.query ∧ statusCode = 0 ∧ PyStr.strip text ≠ []

instance (job : Job) (statusCode : ℤ) (text : PyStr) : Decidable (Records job statusCode text) :=
  inferInstanceAs (Decidable (_ ∧ _))

/-- `result.status_code`, or 1 if an agent that is not free reports none. -/
def statusOf (free : Bool) (statusCode : ℤ) : ℤ :=
  if free ∨ statusCode ≠ 0 then statusCode else 1

/-- The instruction of a run, which for an MQTT event is the text of the task and the event.  There
is none if the value is not the active one: then the run only rearms the monitor. -/
def instruction (config : WorkerConfig) (host : Host) (job : Job) (binding : Option EventBinding) :
    Except PyError (Option PyStr) :=
  match binding with
  | none => Except.error (PyError.valueError "MQTT event binding is missing or does not match TASK")
  | some b =>
      if b.taskId ≠ job.task.taskId then
        Except.error (PyError.valueError "MQTT event binding is missing or does not match TASK")
      else
        let value := job.event.task
        let boolean := decide (b.valueType = PyStr.ofString "boolean")
        if boolean = true ∧ value ≠ PyStr.ofString "true" ∧ value ≠ PyStr.ofString "false" then
          Except.error (PyError.valueError "Invalid boolean MQTT event value")
        else if (config.activeStates b.topic b.field).any fun active => decide (active ≠ value) then
          Except.ok none
        else Except.ok (some (job.task.text ++ PyStr.ofString "\n\n[SYSTEM_MQTT_EVENT]\n" ++
          Json.dumps host.strFloat (Json.obj
            [(PyStr.ofString "topic", Json.str b.topic), (PyStr.ofString "field", Json.str b.field),
              (PyStr.ofString "value", if boolean = true
                then Json.bool (decide (value = PyStr.ofString "true")) else Json.str value),
              (PyStr.ofString "event_name", Json.str job.event.name),
              (PyStr.ofString "note", Json.str
                "Значение в момент события; не заменяй его повторным чтением датчика.")]) ++
          PyStr.ofString "\n[/SYSTEM_MQTT_EVENT]"))

/-- How an execution ended: whether `begin` was called, the outcome, and the status. -/
structure Execution where
  started : Bool
  outcome : PyStr
  statusCode : ℤ

/-- The call of the model, and the record of its result. -/
def runModel (job : Job) (instruction : PyStr) : WorkerM Execution := do
  match ← runAgent job.event job.agentId instruction with
  | AgentOutcome.raised => return ⟨true, "error", 1⟩
  | AgentOutcome.returned free statusCode text => do
      let status := statusOf free statusCode
      if Records job status text then do
        update fun w =>
          { w with
            pendingResults := w.pendingResults.set job.event.offerId (resultOf job text) }
        return ⟨true, if status ≠ 0 then "error" else "done", status⟩
      else return ⟨true, if status ≠ 0 then "error" else "done", status⟩

/-- A run that has begun: the event is resolved if it came over MQTT, and the model is called. -/
def runBegun (config : WorkerConfig) (host : Host) (job : Job) : WorkerM Execution :=
  if job.event.source = PyStr.ofString "mqtt" then do
    match ← rpc (RpcCall.resolve "mqtt" job.event.name) with
    | Except.ok (Reply.binding binding) =>
        match instruction config host job binding with
        | Except.error _ => return ⟨true, "error", 1⟩
        | Except.ok none => return ⟨true, "done", 0⟩
        | Except.ok (some instruction) => runModel job instruction
    | _ => return ⟨true, "error", 1⟩
  else runModel job job.task.text

/-- The body of the `try` in `_execute`. -/
def executeBody (config : WorkerConfig) (host : Host) (job : Job) : WorkerM Execution := do
  if ← canRun then
    let agents ← agentStatus
    let blocked ← agentBlocked job.agentId
    if agents.lookup job.agentId = some true ∧ blocked = false then
      match ← rpc (RpcCall.begin job.event.runId job.event.offerId) with
      | Except.error _ => do
          -- Whether the run has begun is not known.
          let now ← clock
          update fun w => { w with deferred := w.deferred.set job.event.runId (now + 2) }
          return ⟨true, "interrupted", 1⟩
      | Except.ok allowed =>
          if truthy allowed then
            match ← rpc (RpcCall.valid job.event.runId job.event.offerId) with
            | Except.error _ => return ⟨true, "interrupted", 1⟩
            | Except.ok valid =>
                if truthy valid then runBegun config host job
                else return ⟨true, "cancelled", 1⟩
          else return ⟨true, "cancelled", 1⟩
    else return ⟨false, "cancelled", 1⟩
  else return ⟨false, "cancelled", 1⟩

/-- The `finally` of `_execute`. -/
def release (job : Job) (e : Execution) (w : NativeTaskWorker) : NativeTaskWorker :=
  let w := { w with reserved := w.reserved.filter fun ident => decide (ident ≠ job.agentId) }
  if e.started then
    { w with
      pendingFinishes := w.pendingFinishes.set job.event.offerId
        { event := job.event, outcome := e.outcome, statusCode := e.statusCode } }
  else w.unsee job.event.offerId

/-- `NativeTaskWorker._execute`. -/
def execute (config : WorkerConfig) (host : Host) (job : Job) : WorkerM Unit := do
  let e ← executeBody config host job
  update (release job e)

/-! ### Without loss -/

/-- A worker whose calls are answered at once by `call`, whose clock shows `now`, and whose
scheduler is closed. -/
def atOnce {σ : Type} (now : ℚ) (call : RpcCall → σ → Except PyError Reply × σ) :
    (e : WorkerEffect) → NativeTaskWorker × σ → e.Answer × (NativeTaskWorker × σ)
  | WorkerEffect.locked _ f, p => ((f p.1).1, ((f p.1).2, p.2))
  | WorkerEffect.rpc c, p => ((call c p.2).1, (p.1, (call c p.2).2))
  | WorkerEffect.clock, p => (now, p)
  | WorkerEffect.canRun, p => (true, p)
  | WorkerEffect.agentStatus, p => ([], p)
  | WorkerEffect.agentBlocked _, p => (false, p)
  | WorkerEffect.admits, p => (false, p)
  | WorkerEffect.runAgent _ _ _, p => (AgentOutcome.raised, p)
  | WorkerEffect.onQueryResult _ _, p => ((), p)

section AtOnce

variable {σ α β : Type} {now : ℚ} {call : RpcCall → σ → Except PyError Reply × σ}
  {w : NativeTaskWorker} {s : σ}

@[simp] theorem run_locked_bind (f : NativeTaskWorker → β × NativeTaskWorker)
    (next : β → WorkerM α) :
    (locked f >>= next).run (atOnce now call) (w, s) =
      (next (f w).1).run (atOnce now call) ((f w).2, s) := rfl

@[simp] theorem run_read_bind (f : NativeTaskWorker → β) (next : β → WorkerM α) :
    (read f >>= next).run (atOnce now call) (w, s) =
      (next (f w)).run (atOnce now call) (w, s) := rfl

@[simp] theorem run_update_bind (f : NativeTaskWorker → NativeTaskWorker)
    (next : Unit → WorkerM α) :
    (update f >>= next).run (atOnce now call) (w, s) =
      (next ()).run (atOnce now call) (f w, s) := rfl

@[simp] theorem run_rpc_bind (c : RpcCall) (next : Except PyError Reply → WorkerM α) :
    (rpc c >>= next).run (atOnce now call) (w, s) =
      (next (call c s).1).run (atOnce now call) (w, (call c s).2) := rfl

@[simp] theorem run_onQueryResult_bind (offerId : PyStr) (result : QueryPayload)
    (next : Unit → WorkerM α) :
    (onQueryResult offerId result >>= next).run (atOnce now call) (w, s) =
      (next ()).run (atOnce now call) (w, s) := rfl

end AtOnce

/-! ### Operations that admit and finish nothing -/

/-- The tables of what is admitted and of what is to be finished are the same. -/
structure SameBooks (w w' : NativeTaskWorker) : Prop where
  seen : w'.seen = w.seen
  reserved : w'.reserved = w.reserved
  pendingFinishes : w'.pendingFinishes = w.pendingFinishes
  pendingResults : w'.pendingResults = w.pendingResults
  jobs : w'.jobs = w.jobs

/-- An operation that leaves those tables alone and does not call the model. -/
def Quiet : WorkerEffect → Prop
  | WorkerEffect.locked _ f => ∀ w, SameBooks w (f w).2
  | WorkerEffect.runAgent _ _ _ => False
  | _ => True

open Program (all_bind all_pure all_operation)

theorem quiet_update {f : NativeTaskWorker → NativeTaskWorker} (h : ∀ w, SameBooks w (f w)) :
    (update f).All Quiet := all_operation h

theorem quiet_read {β : Type} (f : NativeTaskWorker → β) : (read f).All Quiet :=
  all_operation (P := Quiet) fun _ => ⟨rfl, rfl, rfl, rfl, rfl⟩

theorem quiet_rpc (c : RpcCall) : (rpc c).All Quiet := all_operation trivial

theorem quiet_clock : clock.All Quiet := all_operation trivial

theorem quiet_canRun : canRun.All Quiet := all_operation trivial

theorem quiet_agentStatus : agentStatus.All Quiet := all_operation trivial

theorem quiet_admits : admits.All Quiet := all_operation trivial

theorem quiet_agentBlocked (ident : PyStr) : (agentBlocked ident).All Quiet :=
  all_operation trivial

theorem quiet_onQueryResult (offerId : PyStr) (result : QueryPayload) :
    (onQueryResult offerId result).All Quiet := all_operation trivial

theorem quiet_flushEntries (l : List (PyStr × SystemEvent)) : (flushEntries l).All Quiet := by
  induction l with
  | nil => exact all_pure _
  | cons e rest ih =>
      refine all_bind (quiet_rpc _) fun answer => ?_
      cases answer with
      | error e => exact all_pure _
      | ok reply => exact all_bind (quiet_update fun _ => ⟨rfl, rfl, rfl, rfl, rfl⟩) fun _ => ih

theorem quiet_flushDefers : flushDefers.All Quiet := all_bind (quiet_read _) quiet_flushEntries

theorem quiet_deferOffer (event : SystemEvent) (seconds : ℚ) :
    (deferOffer event seconds).All Quiet :=
  all_bind quiet_clock fun _ => all_bind (quiet_update fun _ => ⟨rfl, rfl, rfl, rfl, rfl⟩)
    fun _ => quiet_flushDefers

theorem quiet_heartbeat : heartbeat.All Quiet := by
  refine all_bind quiet_clock fun now => all_bind (quiet_read _) fun fresh => ?_
  cases fresh with
  | true => exact all_pure _
  | false =>
      refine all_bind (quiet_rpc _) fun answer => ?_
      cases answer with
      | error e =>
          exact all_bind (quiet_update fun _ => ⟨rfl, rfl, rfl, rfl, rfl⟩) fun _ => all_pure _
      | ok reply =>
          exact all_bind quiet_clock fun _ =>
            all_bind (quiet_update fun _ => ⟨rfl, rfl, rfl, rfl, rfl⟩) fun _ => all_pure _

theorem quiet_firstAgent (required : List PyStr) (agents : List (PyStr × Bool))
    (l : List (PyStr × List PyStr)) : (firstAgent required agents l).All Quiet := by
  induction l with
  | nil => exact all_pure _
  | cons e rest ih =>
      obtain ⟨ident, granted⟩ := e
      simp only [firstAgent]
      split_ifs
      · refine all_bind (quiet_agentBlocked ident) fun blocked => ?_
        cases blocked with
        | true => exact ih
        | false =>
            refine all_bind (quiet_read _) fun reserved => ?_
            cases reserved with
            | true => exact ih
            | false => exact all_pure _
      · exact ih

theorem quiet_selectAgent (config : WorkerConfig) (task : TaskRecord) :
    (selectAgent config task).All Quiet := by
  refine all_bind quiet_agentStatus fun agents => ?_
  cases task.agentId with
  | none => exact quiet_firstAgent _ _ _
  | some target =>
      dsimp only
      cases config.permissions.lookup target with
      | none => exact all_pure _
      | some granted =>
          dsimp only
          split_ifs
          · refine all_bind (quiet_agentBlocked target) fun blocked => ?_
            cases blocked with
            | true => exact all_pure _
            | false => exact quiet_read _
          · exact all_pure _

end NativeTaskWorker
