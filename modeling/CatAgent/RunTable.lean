/-
**The run table.**

A RUN is one activation of a task.  It is queued as `pending`, `offered` to one worker process
under a fresh offer identifier, `running` once that worker has begun it, and then ends in one of
four terminal states.  An offer can be withdrawn; a run that has begun is never offered again.

This module holds the parts of the engine that work on runs and on the leases of the workers.

Main definitions:

* `Run`, `RunTable`, `WorkerLease`, `WorkerTable` — runs and leases;
* `Env` — what one call reads from the outside: which processes are alive, and the clocks;
* `Run.reconciled`, `RunTable.trim`, `RunTable.reconcile` — withdrawing grants that are lost;
* `RunTable.queue`, `RunTable.heldOffer`, `RunTable.nextOffer`, `Run.offered`,
  `Run.returnPending`, `Run.finished` — the operations on runs.
-/

import CatAgent.SystemRuntime

set_option relaxedAutoImplicit false
set_option autoImplicit false

/-- The states of a run. -/
inductive RunState where
  | pending
  | offered
  | running
  | done
  | error
  | cancelled
  | interrupted
deriving DecidableEq

namespace RunState

/-- The names of the states. -/
def name : RunState → PyStr
  | pending => "pending"
  | offered => "offered"
  | running => "running"
  | done => "done"
  | error => "error"
  | cancelled => "cancelled"
  | interrupted => "interrupted"

/-- All states. -/
def all : List RunState := [pending, offered, running, done, error, cancelled, interrupted]

/-- The state with a given name. -/
def ofName (s : PyStr) : Option RunState := all.find? fun state => decide (state.name = s)

@[simp] theorem ofName_name (state : RunState) : ofName state.name = some state := by
  cases state <;> decide

/-- `TERMINAL`. -/
def terminal : RunState → Bool
  | done | error | cancelled | interrupted => true
  | _ => false

/-- The states that occupy their task. -/
def active : RunState → Bool
  | offered | running => true
  | _ => false

/-- `outcome if outcome in TERMINAL else 'done'`. -/
def ofOutcome (outcome : PyStr) : RunState :=
  match ofName outcome with
  | some state => if state.terminal then state else done
  | none => done

@[simp] theorem terminal_ofOutcome (outcome : PyStr) : (ofOutcome outcome).terminal = true := by
  unfold ofOutcome
  split
  · split_ifs with h
    · exact h
    · rfl
  · rfl

end RunState

/-- A run. -/
structure Run where
  event : SystemEvent
  /-- The policy of the task when the run was queued; journals written before `auto` lack it. -/
  policy : Option Policy
  executor : Option Executor
  state : RunState
  owner : PyStr
  peer : PyStr
  outcome : PyStr
  /-- Written by `finish`. -/
  statusCode : Option ℤ := none
deriving DecidableEq

/-- `TaskEngine.runs`. -/
abbrev RunTable := Table fun run : Run => run.event.runId

/-- What the engine knows about a worker. -/
structure WorkerLease where
  owner : PyStr
  peer : PyStr
  executor : Executor
  ready : Bool
  reason : PyStr
  lastSeen : ℚ
deriving DecidableEq

/-- `TaskEngine.workers`. -/
abbrev WorkerTable := Table fun w : WorkerLease => (w.owner, w.peer)

/-- What one call of the engine reads from the outside. -/
structure Env where
  /-- `self.alive`. -/
  alive : PyStr → Bool
  /-- `self.clock()`. -/
  clock : ℚ
  /-- `time.monotonic()`. -/
  monotonic : ℚ
  /-- Writing the row succeeds. -/
  writable : Bool

/-! ### Leases -/

/-- `lease_seconds`. -/
def leaseSeconds : ℚ := 20

/-- `TaskEngine._lease_live`, for a worker that is registered. -/
def WorkerLease.live (env : Env) (w : WorkerLease) : Bool :=
  env.alive w.peer && decide (env.clock - w.lastSeen < leaseSeconds)

namespace WorkerTable

/-- `TaskEngine._worker_ready`. -/
def workerReady (env : Env) (workers : WorkerTable) (owner peer : PyStr) : Bool :=
  match workers.get? (owner, peer) with
  | none => false
  | some w => w.live env && w.ready

/-- `TaskEngine._best_ready`. -/
def bestReady (env : Env) (workers : WorkerTable) : Option Executor :=
  [Executor.openai, Executor.litert].find? fun executor =>
    workers.values.any fun w => decide (w.executor = executor) && w.live env && w.ready

/-- The lease that was seen last, the first of them if there are several. -/
def lastSeenLease : List WorkerLease → Option WorkerLease
  | [] => none
  | w :: ws => some (ws.foldl (fun best v => if best.lastSeen < v.lastSeen then v else best) w)

/-- One line of `TaskEngine.core_status`: whether a CORE is ready, and the reason if it is not. -/
def coreStatus (env : Env) (workers : WorkerTable) (executor : Executor) : Bool × PyStr :=
  let mine := workers.values.filter fun w => decide (w.executor = executor)
  let fresh := mine.filter fun w => w.live env
  if fresh.any fun w => w.ready then (true, [])
  else match lastSeenLease fresh with
    | some w => (false, w.reason)
    | none =>
        if mine = [] then (false, "not_registered")
        else if mine.any fun w => env.alive w.peer then (false, "heartbeat_expired")
        else (false, "process_unavailable")

end WorkerTable

namespace Run

/-- `TaskEngine._policy`: journals without a policy stay pinned. -/
def policyOf (run : Run) : Option Policy :=
  match run.policy with
  | some p => some p
  | none => run.executor.map Policy.pinned

/-- The task of a run, if it is still registered. -/
def taskOf (tasks : TaskTable) (run : Run) : Option TaskRecord :=
  run.event.taskId.bind tasks.get?

/-- `TaskEngine._current`. -/
def current (tasks : TaskTable) (run : Run) : Bool :=
  match run.taskOf tasks with
  | none => false
  | some task => task.enabled && decide (task.generation = run.event.taskGeneration)

/-- `TaskEngine._offer_lost`. -/
def offerLost (env : Env) (workers : WorkerTable) (run : Run) : Bool :=
  if ¬ env.alive run.peer then true
  else if run.policyOf = some Policy.auto then ! workers.workerReady env run.owner run.peer
  else match workers.get? (run.owner, run.peer) with
    | none => false
    | some w => ! w.live env

/-- `TaskEngine._return_pending`. -/
def returnPending (run : Run) : Run :=
  { run with
    state := RunState.pending
    owner := []
    peer := []
    event := { run.event with offerId := [] }
    executor := if run.policyOf = some Policy.auto then none else run.executor }

/-- What `TaskEngine._reconcile` does to one run. -/
def reconciled (env : Env) (tasks : TaskTable) (workers : WorkerTable) (run : Run) : Run :=
  if (run.state = RunState.pending ∨ run.state = RunState.offered) ∧ ¬ run.current tasks then
    { run with state := RunState.cancelled }
  else if run.state = RunState.offered ∧ run.offerLost env workers then run.returnPending
  else if run.state = RunState.running ∧ ¬ env.alive run.peer then
    { run with state := RunState.interrupted, owner := [], peer := [] }
  else run

/-- The grant of a run to a worker. -/
def offered (executor : Executor) (owner peer offerId : PyStr) (run : Run) : Run :=
  { run with
    state := RunState.offered, owner, peer
    executor := some executor
    event := { run.event with offerId } }

/-- The end of a run. -/
def finished (outcome : PyStr) (statusCode : ℤ) (run : Run) : Run :=
  { run with
    state := RunState.ofOutcome outcome, outcome
    statusCode := some statusCode }

/-- `run['event'].get('offer_id') or run['event']['run_id']`. -/
def token (run : Run) : PyStr :=
  if run.event.offerId = [] then run.event.runId else run.event.offerId

@[simp] theorem returnPending_runId (run : Run) :
    run.returnPending.event.runId = run.event.runId := rfl

@[simp] theorem offered_runId (executor : Executor) (owner peer offerId : PyStr) (run : Run) :
    (run.offered executor owner peer offerId).event.runId = run.event.runId := rfl

@[simp] theorem finished_runId (outcome : PyStr) (statusCode : ℤ) (run : Run) :
    (run.finished outcome statusCode).event.runId = run.event.runId := rfl

@[simp] theorem reconciled_runId (env : Env) (tasks : TaskTable) (workers : WorkerTable)
    (run : Run) : (run.reconciled env tasks workers).event.runId = run.event.runId := by
  unfold reconciled
  split_ifs <;> rfl

/-- A run is current while its task is enabled and has the generation of the run. -/
theorem current_iff {tasks : TaskTable} {run : Run} :
    run.current tasks = true ↔ ∃ taskId task, run.event.taskId = some taskId ∧
      tasks.get? taskId = some task ∧ task.enabled = true ∧
      task.generation = run.event.taskGeneration := by
  unfold current taskOf
  cases hid : run.event.taskId with
  | none => simp
  | some taskId =>
      cases htask : tasks.get? taskId with
      | none => simp [htask]
      | some task => simp [htask]

end Run

/-! ### The table -/

namespace RunTable

/-- How many terminal runs the journal keeps. -/
def keptRuns : ℕ := 100

/-- The bound on the runs that are not terminal. -/
def maxPending : ℕ := 1024

/-- The identifiers of the terminal runs, oldest first. -/
def completed (runs : RunTable) : List PyStr :=
  (runs.values.filter fun run => run.state.terminal).map fun run => run.event.runId

/-- `completed[:-100]`. -/
def evicted (runs : RunTable) : List PyStr :=
  runs.completed.take (runs.completed.length - keptRuns)

/-- The end of `TaskEngine._reconcile`: only the last terminal runs are kept. -/
def trim (runs : RunTable) : RunTable :=
  runs.filter fun run => decide (run.event.runId ∉ runs.evicted)

/-- `TaskEngine._reconcile`. -/
def reconcile (env : Env) (tasks : TaskTable) (workers : WorkerTable) (runs : RunTable) :
    RunTable :=
  trim (runs.map (fun run => run.reconciled env tasks workers)
    fun run => run.reconciled_runId env tasks workers)

/-- A run of the task and generation of `task` is not terminal. -/
def live (runs : RunTable) (task : TaskRecord) : Bool :=
  runs.values.any fun run => decide (run.event.taskId = some task.taskId) &&
    decide (run.event.taskGeneration = task.generation) && ! run.state.terminal

/-- How many runs are not terminal. -/
def pendingCount (runs : RunTable) : ℕ := runs.values.countP fun run => ! run.state.terminal

/-- The run that is queued for an event of `task`. -/
def newRun (identifier : PyStr) (event : SystemEvent) (task : TaskRecord) : Run :=
  { event := { event with runId := identifier }
    policy := some task.executor
    executor := match task.executor with
      | Policy.auto => none
      | Policy.pinned e => some e
    state := RunState.pending
    owner := [], peer := [], outcome := [] }

@[simp] theorem newRun_runId (identifier : PyStr) (event : SystemEvent) (task : TaskRecord) :
    (newRun identifier event task).event.runId = identifier := rfl

/-- `TaskEngine._queue`; `identifier` is what `uuid4` hands out. -/
def queue (identifier : PyStr) (tasks : TaskTable) (event : SystemEvent) (runs : RunTable) :
    Except PyError (Option PyStr × RunTable) :=
  match event.taskId with
  | none => Except.error (PyError.taskStoreError "shared scheduling requires a saved TASK")
  | some taskId =>
      match tasks.get? taskId with
      | none => Except.ok (none, runs)
      | some task =>
          if ¬ task.enabled ∨ task.generation ≠ event.taskGeneration then Except.ok (none, runs)
          else if event.source = PyStr.ofString "timer" ∧ runs.live task then
            -- Missed timer ticks are coalesced.
            Except.ok (none, runs)
          else if maxPending ≤ runs.pendingCount then
            Except.error (PyError.taskStoreError "Task SYSTEM pending queue is full")
          else Except.ok (some identifier, runs.put (newRun identifier event task))

/-- The tasks that are occupied by a run. -/
def occupied (runs : RunTable) : List (Option ℤ) :=
  (runs.values.filter fun run => run.state.active).map fun run => run.event.taskId

/-- The first loop of `pull`: an offer that this worker holds and has not seen. -/
def heldOffer (owner peer : PyStr) (seen skipRunIds : List PyStr) (runs : RunTable) :
    Option Run :=
  runs.values.find? fun run =>
    decide (run.state = RunState.offered) && decide (run.owner = owner) &&
      decide (run.peer = peer) && decide (run.token ∉ seen) &&
      decide (run.event.runId ∉ skipRunIds)

/-- The CORE that a policy selects. -/
def selected (env : Env) (workers : WorkerTable) : Option Policy → Option Executor
  | some Policy.auto => workers.bestReady env
  | some (Policy.pinned e) => some e
  | none => none

/-- The filters of the second loop of `pull` that do not look at the table. -/
def eligible (env : Env) (workers : WorkerTable) (executor : Executor) (owner peer : PyStr)
    (policy : Option Policy) : Bool :=
  decide (selected env workers policy = some executor) &&
    match workers.get? (owner, peer) with
    | none => decide (policy ≠ some Policy.auto)
    | some w => w.live env &&
        (decide (policy ≠ some Policy.auto) || w.ready && decide (w.executor = executor))

/-- The second loop of `pull`: the first pending run that passes the filters. -/
def nextOffer (env : Env) (workers : WorkerTable) (executor : Executor) (owner peer : PyStr)
    (skipRunIds : List PyStr) (runs : RunTable) : Option Run :=
  runs.values.find? fun run =>
    decide (run.state = RunState.pending) && decide (run.event.taskId ∉ runs.occupied) &&
      decide (run.event.runId ∉ skipRunIds) &&
      eligible env workers executor owner peer run.policyOf

end RunTable
