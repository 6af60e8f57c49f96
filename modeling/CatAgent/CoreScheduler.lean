/-
**The queue and the contexts of the core's scheduler.**

The scheduler has a queue of requests and one executor thread.  This file has the requests, the
fields of the scheduler that its threads share, and what is done to the fields under the lock: how
a request is admitted, which of the queued requests is started next, and how the two contexts of
the manager come and go.  The threads follow in `SchedulerThreads`.

Telemetry and the log file are left out.

Main definitions:

* `PriorityRequest`, `CoreScheduler` — the requests, and the fields that the threads share;
* `CoreScheduler.submitInput`, `CoreScheduler.enqueueEvent` — the admission of requests;
* `CoreScheduler.Runnable`, `CoreScheduler.startNext` — the choice of the next one;
* `CoreScheduler.takeAvailable`, `CoreScheduler.assignPooled`, `CoreScheduler.resetDone`,
  `CoreScheduler.resetFailed`, `CoreScheduler.registerKv2`, `CoreScheduler.recovered` — the pool
  of the manager's contexts.
-/

import CatAgent.PyDict
import CatAgent.SystemRuntime
import Mathlib.Data.Finset.Card

set_option relaxedAutoImplicit false
set_option autoImplicit false

/-! ### Requests -/

/-- `ManagerTurn`. -/
structure ManagerTurn where
  kind : PyStr
  text : PyStr
deriving DecidableEq

namespace ManagerTurn

/-- `ManagerTurn("silent", "")`. -/
def silent : ManagerTurn := ⟨"silent", []⟩

/-- `ManagerTurn("cancelled", text)`. -/
def cancelled (text : PyStr) : ManagerTurn := ⟨"cancelled", text⟩

/-- `ManagerTurn("error", text)`. -/
def error (text : PyStr) : ManagerTurn := ⟨"error", text⟩

end ManagerTurn

/-- `AutonomousTaskCompletion`. -/
structure AutonomousTaskCompletion where
  turn : Option ManagerTurn := none
  queryTaskId : Option ℤ := none
  queryResult : PyStr := []
deriving DecidableEq

/-- `_PriorityRequest.kind`. -/
inductive RequestKind where
  | user
  | system
  | manager
deriving DecidableEq

/-- `_PriorityRequest.payload`; a `_ManagerQueryResult` is a task and its result. -/
inductive RequestPayload where
  | text (text : PyStr)
  | event (event : SystemEvent)
  | queryResult (taskId : ℤ) (result : PyStr)
deriving DecidableEq

/-- `item.payload.task_id`, for an event. -/
def RequestPayload.taskId? : RequestPayload → Option ℤ
  | text _ => none
  | event e => e.taskId
  | queryResult _ _ => none

/-- Where the iterator of a request stands: it has not started, it is suspended in the loop of a
task, it is suspended in a dialogue, or it has ended. -/
inductive StepsIterator where
  | fresh
  | task
  | dialogue
  | ended
deriving DecidableEq

/-- `_PriorityRequest`. -/
structure PriorityRequest where
  kind : RequestKind
  label : PyStr
  payload : RequestPayload
  queuedAt : ℚ
  priority : ℤ
  coalesceKey : Option PyStr := none
  requestId : PyStr
  sessionId : PyStr := []
  iterator : Option StepsIterator := none
  context : Option ℕ := none
  cancelled : Bool := false
  taskRun : Option SystemEvent := none
  taskStarted : Bool := false
deriving DecidableEq

/-- What `_advance` returns: nothing yet, a turn, or the completion of a task. -/
inductive Advanced where
  | paused
  | turn (turn : ManagerTurn)
  | completion (completion : AutonomousTaskCompletion)
deriving DecidableEq

/-- An operation that was submitted to the executor. -/
inductive SchedulerJob where
  | advance (request : ℕ)
  | releaseContext (sessionId : PyStr)
  | warmManagerKv2
  | discard (request : ℕ)
  | closeAllContexts
deriving DecidableEq

/-- The two contexts of the manager. -/
inductive ManagerSlot where
  | kv1
  | kv2
deriving DecidableEq

/-- `_kv2_state`. -/
inductive Kv2State where
  | notReady
  | queued
  | warming
  | ready
deriving DecidableEq

/-- What the constructor is given: the limit of the queue, whether the runtime can fork contexts,
whether its contexts are pooled, and whether the system is a remote one. -/
structure SchedulerConfig where
  host : Host
  maxPending : ℕ
  two_le_maxPending : 2 ≤ maxPending
  forks : Bool
  managerPoolEnabled : Bool
  forks_of_pool : managerPoolEnabled = true → forks = true
  isRemote : Bool

/-- What the threads have done, as far as it is spoken about below. -/
inductive SchedulerEvent where
  /-- A request was admitted when so many others were live. -/
  | admitted (request live : ℕ)
  /-- `accepted(event)` was called. -/
  | accepted (event : SystemEvent)
  /-- `_complete(item, turn)` was called. -/
  | completed (request : ℕ) (turn : ManagerTurn)
  /-- A pooled context was given to a dialogue; `ready` is the flag of its slot. -/
  | handed (context : ℕ) (key : PyStr) (ready : Bool)
  /-- The request of a dialogue has run on a context. -/
  | used (context : ℕ) (key : PyStr)
  /-- A context was reset to its base. -/
  | based (context : ℕ)
  /-- Discarding a request at the shutdown has raised. -/
  | discardRaised (request : ℕ)
deriving DecidableEq

/-- The fields that the threads share, the queue of the executor, and the results of its futures. -/
structure CoreScheduler where
  /-- The request objects. -/
  requests : ℕ → PriorityRequest
  nextRequest : ℕ
  /-- `_pending`. -/
  pending : List ℕ
  /-- What the loop of `close` has not dealt with, its `remaining`. -/
  remaining : List ℕ
  /-- `_active_request`. -/
  activeRequest : Option ℕ
  /-- `_active_future`, and its result once it is done. -/
  activeFuture : Option (Option (Except PyStr Advanced))
  /-- `_contexts`. -/
  contexts : PyDict PyStr ℕ
  nextContext : ℕ
  /-- `_manager_slots`. -/
  managerSlots : ManagerSlot → Option ℕ
  /-- `_manager_slot_ready`. -/
  managerSlotReady : ManagerSlot → Bool
  /-- `_manager_available`. -/
  managerAvailable : List ℕ
  /-- `_kv2_state`. -/
  kv2State : Kv2State
  /-- `_kv2_requested`. -/
  kv2Requested : Bool
  /-- `_kv2_future`, and its result once it is done. -/
  kv2Future : Option (Option (Except PyStr Unit))
  /-- `_released_sessions`. -/
  releasedSessions : List PyStr
  /-- `_stop`. -/
  stop : Bool
  /-- The closing thread waits for the loop to end, or has gone on. -/
  joining : Bool
  closed : Bool
  /-- `_rejected`. -/
  rejected : ℕ
  /-- What the executor has been given and has not started. -/
  jobs : List SchedulerJob
  /-- The future that the closing thread waits for. -/
  shutdownFuture : Option (Option (Except PyStr Unit))
  /-- The executor accepts nothing any more. -/
  isShutdown : Bool
  clock : ℚ
  /-- What has happened, latest first. -/
  log : List SchedulerEvent

namespace CoreScheduler

/-- `bundle.runtime`, the first context of the manager. -/
def runtime : ℕ := 0

/-- `MANAGER_PRIORITY`. -/
def managerPriority : ℤ := 0

/-- `HARDWARE_EVENT_PRIORITY`. -/
def hardwareEventPriority : ℤ := 10

/-- `DEFAULT_EVENT_PRIORITY`. -/
def defaultEventPriority : ℤ := 100

/-- `VOICE_PRIORITY`. -/
def voicePriority : ℤ := managerPriority - 10

/-- A request object that has not been made. -/
def noRequest : PriorityRequest where
  kind := RequestKind.system
  label := []
  payload := RequestPayload.text []
  queuedAt := 0
  priority := 0
  requestId := []

/-- `CoreScheduler.__init__`. -/
def initial (config : SchedulerConfig) : CoreScheduler where
  requests := fun _ => noRequest
  nextRequest := 0
  pending := []
  remaining := []
  activeRequest := none
  activeFuture := none
  contexts := PyDict.empty
  nextContext := 1
  managerSlots
    | ManagerSlot.kv1 => if config.managerPoolEnabled then some runtime else none
    | ManagerSlot.kv2 => none
  managerSlotReady
    | ManagerSlot.kv1 => config.managerPoolEnabled
    | ManagerSlot.kv2 => false
  managerAvailable := if config.managerPoolEnabled then [runtime] else []
  kv2State := Kv2State.notReady
  kv2Requested := false
  kv2Future := none
  releasedSessions := []
  stop := false
  joining := false
  closed := false
  rejected := 0
  jobs := []
  shutdownFuture := none
  isShutdown := false
  clock := 0
  log := []

/-! ### The queue -/

/-- A change of one request object. -/
def modify (s : CoreScheduler) (u : ℕ) (f : PriorityRequest → PriorityRequest) : CoreScheduler :=
  { s with requests := Function.update s.requests u (f (s.requests u)) }

/-- `[*self._pending, self._active_request]`. -/
def live (s : CoreScheduler) : List ℕ := s.pending ++ s.activeRequest.toList

/-- `_context_key`. -/
def contextKey (item : PriorityRequest) : PyStr :=
  if item.label = "voice" then "voice"
  else if item.kind = RequestKind.user then PyStr.ofString "human:" ++ item.sessionId
  else "notifications"

/-- The number of requests that are queued or active. -/
def liveCount (s : CoreScheduler) : ℕ := s.live.toFinset.card

/-- The bound of `_append_locked`, which reserves admission space for people. -/
def limit (config : SchedulerConfig) (item : PriorityRequest) : ℕ :=
  if item.kind = RequestKind.user then config.maxPending else max 1 (config.maxPending - 8)

/-- A new request at the end of the queue. -/
def enlist (item : PriorityRequest) (s : CoreScheduler) : CoreScheduler :=
  { s with
    requests := Function.update s.requests s.nextRequest item
    nextRequest := s.nextRequest + 1
    pending := s.pending ++ [s.nextRequest]
    log := SchedulerEvent.admitted s.nextRequest s.liveCount :: s.log }

/-- `_append_locked`, for a new request; it raises `QueueFull` if this returns `false`. -/
def appendLocked (config : SchedulerConfig) (item : PriorityRequest) (s : CoreScheduler) :
    Bool × CoreScheduler :=
  if limit config item ≤ s.pending.length + s.activeRequest.toList.length then
    (false, { s with rejected := s.rejected + 1 })
  else (true, s.enlist item)

/-- `_submit_input`.  The callers hold a lock of their own from the time stamp to the admission, so
the two are one step. -/
def submitInput (config : SchedulerConfig) (text label : PyStr) (priority : ℤ) (sessionId : PyStr)
    (requestId : Option PyStr) (now : ℚ) (s : CoreScheduler) : CoreScheduler :=
  if PyStr.strip text = [] then s
  else (s.appendLocked config
    { kind := RequestKind.user
      label
      payload := RequestPayload.text (PyStr.strip text)
      queuedAt := now
      priority
      requestId := requestId.getD (config.host.uuid4 s.nextRequest)
      sessionId }).2

/-- `submit_user`. -/
def submitUser (config : SchedulerConfig) (text sessionId : PyStr) (requestId : Option PyStr)
    (now : ℚ) (s : CoreScheduler) : CoreScheduler :=
  s.submitInput config text "user" managerPriority sessionId requestId now

/-- `submit_voice`. -/
def submitVoice (config : SchedulerConfig) (text sessionId : PyStr) (requestId : Option PyStr)
    (now : ℚ) (s : CoreScheduler) : CoreScheduler :=
  s.submitInput config text "voice" voicePriority sessionId requestId now

/-- The first half of `release_human_session`. -/
def markReleased (sessionId : PyStr) (s : CoreScheduler) : CoreScheduler :=
  { s with
    requests := fun u =>
      let item := s.requests u
      if u ∈ s.live ∧ item.kind = RequestKind.user ∧ item.label ≠ "voice" ∧
          item.sessionId = sessionId then
        { item with cancelled := true }
      else item
    releasedSessions := sessionId :: s.releasedSessions }

/-- `_event_label`. -/
def eventLabel (event : SystemEvent) : PyStr := event.source ++ PyStr.ofString ":" ++ event.name

/-- Whether `_enqueue_event` ignores the event: one with the same coalescing key, or the same grant,
is queued or active. -/
def Duplicate (event : SystemEvent) (coalesceKey : Option PyStr) (s : CoreScheduler) : Prop :=
  (coalesceKey ≠ none ∧ ∃ u ∈ s.live, (s.requests u).coalesceKey = coalesceKey) ∨
  (event.runId ≠ [] ∧ ∃ u ∈ s.live, (s.requests u).taskRun.any
    fun e => decide (e.runId = event.runId) && decide (e.offerId = event.offerId))

instance (event : SystemEvent) (coalesceKey : Option PyStr) (s : CoreScheduler) :
    Decidable (s.Duplicate event coalesceKey) :=
  inferInstanceAs (Decidable (_ ∨ _))

/-- The block under the lock of `_enqueue_event`: whether a duplicate was ignored, the queue was
full, or the event was admitted. -/
def enqueueEvent (config : SchedulerConfig) (event : SystemEvent) (priority : ℤ)
    (coalesceKey : Option PyStr) (s : CoreScheduler) : Option Bool × CoreScheduler :=
  if s.Duplicate event coalesceKey then (none, s)
  else
    let r := s.appendLocked config
      { kind := RequestKind.system
        label := eventLabel event
        payload := RequestPayload.event event
        queuedAt := event.createdMonotonic
        priority
        coalesceKey
        requestId := config.host.uuid4 s.nextRequest
        taskRun := if event.runId = [] then none else some event }
    (some r.1, r.2)

/-- What `_runnable` reads elsewhere: whether the context of a request waits for a worker while the
pool has none, and whether a worker could begin the task of a request now. -/
structure PoolView where
  waiting : ℕ → Bool
  canBegin : ℕ → Bool

/-- A request that belongs to a dialogue. -/
def Dialogic (item : PriorityRequest) : Prop :=
  item.kind = RequestKind.user ∨ item.kind = RequestKind.manager

instance (item : PriorityRequest) : Decidable (Dialogic item) := inferInstanceAs (Decidable (_ ∨ _))

/-- `_runnable`. -/
def Runnable (view : PoolView) (s : CoreScheduler) (u : ℕ) : Prop :=
  let item := s.requests u
  if item.cancelled = false ∧ item.context ≠ none ∧ view.waiting u = true then False
  else if item.cancelled = true ∨ item.iterator ≠ none then True
  else if item.kind = RequestKind.system ∧ item.payload.taskId? ≠ none then view.canBegin u = true
  else if Dialogic item then
    -- A later input in the same dialogue cannot overtake its suspended turn.
    ∀ v ∈ s.pending, v ≠ u → Dialogic (s.requests v) →
      contextKey (s.requests v) = contextKey item → (s.requests v).iterator = none
  else True

instance (view : PoolView) (s : CoreScheduler) (u : ℕ) : Decidable (s.Runnable view u) := by
  unfold Runnable
  infer_instance

/-- `(priority, queued_at)`, compared; `min` takes the first of the smallest. -/
def Precedes (s : CoreScheduler) (u v : ℕ) : Prop :=
  (s.requests u).priority < (s.requests v).priority ∨
  ((s.requests u).priority = (s.requests v).priority ∧
    (s.requests u).queuedAt < (s.requests v).queuedAt)

instance (s : CoreScheduler) (u v : ℕ) : Decidable (s.Precedes u v) :=
  inferInstanceAs (Decidable (_ ∨ _))

/-- The first of the smallest elements of a list. -/
def firstMin (s : CoreScheduler) : List ℕ → Option ℕ
  | [] => none
  | u :: rest =>
      match s.firstMin rest with
      | none => some u
      | some v => if s.Precedes v u then some v else some u

/-- `executor.submit`. -/
def submitJob (job : SchedulerJob) (s : CoreScheduler) : CoreScheduler :=
  if s.isShutdown then s else { s with jobs := s.jobs ++ [job] }

/-- `_start_next`, once the executor is known to be free. -/
def startNext (view : PoolView) (s : CoreScheduler) : CoreScheduler :=
  match s.firstMin (s.pending.filter fun u => decide (s.Runnable view u)) with
  | none => s
  | some u =>
      { s with
        pending := s.pending.erase u
        activeRequest := some u
        activeFuture := some none }.submitJob (SchedulerJob.advance u)

/-! ### The contexts of the manager -/

/-- `_manager_slot_index`. -/
def managerSlotIndex (s : CoreScheduler) (context : ℕ) : Option ManagerSlot :=
  if s.managerSlots ManagerSlot.kv1 = some context then some ManagerSlot.kv1
  else if s.managerSlots ManagerSlot.kv2 = some context then some ManagerSlot.kv2
  else none

/-- The sort key of `_sort_manager_available_locked`. -/
def slotRank (s : CoreScheduler) (context : ℕ) : ℕ :=
  match s.managerSlotIndex context with
  | some ManagerSlot.kv1 => 0
  | some ManagerSlot.kv2 => 1
  | none => 99

/-- Appending a context to `_manager_available`, which is then sorted by slot. -/
def offerContext (context : ℕ) (s : CoreScheduler) : CoreScheduler :=
  { s with
    managerAvailable := (s.managerAvailable ++ [context]).mergeSort
      fun a b => decide (s.slotRank a ≤ s.slotRank b) }

/-- The end of `_warm_manager_kv2` under the lock, if KV2 is not ready by now. -/
def registerKv2 (context : ℕ) (s : CoreScheduler) : CoreScheduler :=
  { { s with
      managerSlots := Function.update s.managerSlots ManagerSlot.kv2 (some context)
      managerSlotReady := Function.update s.managerSlotReady ManagerSlot.kv2 true
      }.offerContext context with kv2State := Kv2State.ready }

/-- KV2 could not be made. -/
def loseKv2 (s : CoreScheduler) : CoreScheduler :=
  { s with
    kv2State := Kv2State.notReady
    managerSlots := Function.update s.managerSlots ManagerSlot.kv2 none
    managerSlotReady := Function.update s.managerSlotReady ManagerSlot.kv2 false }

/-- The end of `_recover_manager_kv1` under the lock. -/
def recovered (context : ℕ) (s : CoreScheduler) : CoreScheduler :=
  let s := { s with
    managerSlotReady := Function.update s.managerSlotReady ManagerSlot.kv1 true }
  if context ∈ s.managerAvailable then s else s.offerContext context

/-- The end of `_close_context` under the lock, if the context was reset. -/
def resetDone (slot : ManagerSlot) (context : ℕ) (s : CoreScheduler) : CoreScheduler :=
  let s := if context ∈ s.managerAvailable then s else s.offerContext context
  { s with
    managerSlotReady := Function.update s.managerSlotReady slot true
    kv2State := if slot = ManagerSlot.kv2 then Kv2State.ready else s.kv2State }

/-- The same if the reset has failed; `client.close()` of KV2 follows. -/
def resetFailed (slot : ManagerSlot) (context : ℕ) (s : CoreScheduler) : CoreScheduler :=
  let s := { s with
    managerSlotReady := Function.update s.managerSlotReady slot false
    managerAvailable := s.managerAvailable.filter fun c => decide (c ≠ context) }
  match slot with
  | ManagerSlot.kv1 => s
  | ManagerSlot.kv2 =>
      { s with
        managerSlots := Function.update s.managerSlots ManagerSlot.kv2 none
        kv2State := Kv2State.notReady }

/-- `_take_manager_context`. -/
def takeAvailable (s : CoreScheduler) : Option ℕ × CoreScheduler :=
  match s.managerAvailable with
  | [] => (none, s)
  | context :: rest => (some context, { s with managerAvailable := rest })

/-- `self._contexts[key] = context`, for a context of the pool. -/
def assignPooled (key : PyStr) (context : ℕ) (s : CoreScheduler) : CoreScheduler :=
  { s with
    contexts := s.contexts.set key context
    log := SchedulerEvent.handed context key
      ((s.managerSlotIndex context).any s.managerSlotReady) :: s.log }

/-- The end of `_close_all_contexts`. -/
def forgetContexts (config : SchedulerConfig) (s : CoreScheduler) : CoreScheduler :=
  { s with
    contexts := PyDict.empty
    managerAvailable := []
    managerSlots
      | ManagerSlot.kv1 => if config.managerPoolEnabled then some runtime else none
      | ManagerSlot.kv2 => none
    managerSlotReady := fun _ => false
    kv2State := Kv2State.notReady }

end CoreScheduler
