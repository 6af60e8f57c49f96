/-
**The threads of the core's scheduler.**

The loop of the scheduler polls the system for events, looks whether the executor is done with the
active request, and starts the next one.  The executor advances a request by one step of its
iterator, releases the dialogues of sessions that have gone, and warms the second context of the
manager.  Clients submit requests and release their sessions.  When the scheduler is closed, the
closing thread waits for the loop to end and then does the rest of the work in its place.

The programs below follow the source.  An access under `_queue_lock` is one operation, and so is an
access to a field that another thread uses.  Callbacks, whose exceptions are caught, are left out.

Main definitions:

* `SchedulerEffect`, `SchedulerM` — the operations of the threads, and programs over them;
* `CoreScheduler.advance`, `CoreScheduler.takeContext`, `CoreScheduler.closeContext`,
  `CoreScheduler.runJob` — the executor;
* `CoreScheduler.finishRegularRequest`, `CoreScheduler.runOnce`, `CoreScheduler.shutdown` — the
  loop, and the end of the closing thread;
* `CoreScheduler.clientCall` — the clients;
* `CoreScheduler.system` — the threads, and what their operations do;
* `CoreScheduler.loses`, `CoreScheduler.within` — the answers with which the scheduler loses track of
  a request, and the scheduler in an environment that may be safe from them.
-/

import CatAgent.CoreScheduler
import CatAgent.Threads

set_option relaxedAutoImplicit false
set_option autoImplicit false

namespace CoreScheduler

/-! ### Operations -/

/-- What `begin_autonomous_task` does. -/
inductive TaskBegin where
  | raised (msg : PyStr)
  | completed (completion : AutonomousTaskCompletion)
  | execution

/-- What `step_autonomous_task` does. -/
inductive TaskStep where
  | raised (msg : PyStr)
  | completed (completion : AutonomousTaskCompletion)
  | paused

/-- What one step of a dialogue does. -/
inductive DialogueStep where
  | raised (msg : PyStr)
  | returned (turn : ManagerTurn)
  | paused

end CoreScheduler

open CoreScheduler

/-- The operations of the threads. -/
inductive SchedulerEffect : Type 1 where
  /-- An access to the shared fields. -/
  | access (β : Type) (f : CoreScheduler → β × CoreScheduler)
  /-- Waiting for a value that another thread provides. -/
  | await (β : Type) (f : CoreScheduler → Option β)
  /-- `system_runtime.poll_due(busy=False)`. -/
  | pollDue
  /-- `system_runtime.accepted(event)`. -/
  | accepted (event : SystemEvent)
  /-- `system_runtime.begin_run(event)`. -/
  | beginRun (event : SystemEvent)
  /-- `system_runtime.valid_run(event)`. -/
  | validRun (event : SystemEvent)
  /-- `system_runtime.finish_run(event, outcome)`. -/
  | finishRun (event : SystemEvent) (outcome : PyStr)
  /-- `system_runtime.stop_worker()`. -/
  | stopWorker
  /-- `system_runtime.flush_completions()`. -/
  | flushCompletions
  /-- The pool and the waiting contexts, as `_runnable` sees them. -/
  | poolView
  /-- `runtime.begin_autonomous_task(event)`, for a request. -/
  | beginAutonomousTask (request : ℕ) (event : SystemEvent)
  /-- `runtime.step_autonomous_task(result)`, for a request. -/
  | stepAutonomousTask (request : ℕ)
  /-- The next step of the dialogue of a request on a context. -/
  | dialogueStep (request context : ℕ) (key : PyStr)
  /-- `item.iterator.close()`. -/
  | closeIterator (request : ℕ)
  /-- `runtime.fork_context(label)`. -/
  | forkContext (label : PyStr)
  /-- `context.client.set_event_handler(…)`. -/
  | setEventHandler (context : ℕ)
  /-- `context.client.prepare_prefix(context._base_messages)`. -/
  | preparePrefix (context : ℕ)
  /-- `context.reset_for_new_session()`. -/
  | resetForNewSession (context : ℕ)
  /-- `context.client.close()`. -/
  | closeClient (context : ℕ)
  /-- `context._abort_context()`. -/
  | abortContext (context : ℕ)
  /-- `context._chat_mode or context._direct_waiting`. -/
  | keepsDialogue (context : ℕ)

/-- The answers to the operations. -/
def SchedulerEffect.Answer : SchedulerEffect → Type
  | access β _ | await β _ => β
  | pollDue => Except PyStr (List SystemEvent)
  | accepted _ | finishRun _ _ | stopWorker | flushCompletions | abortContext _ => Unit
  -- The only exception of these calls is `TaskStoreError`.
  | beginRun _ | validRun _ => Except PyStr Bool
  | poolView => PoolView
  | beginAutonomousTask _ _ => TaskBegin
  | stepAutonomousTask _ => TaskStep
  | dialogueStep _ _ _ => DialogueStep
  | closeIterator _ | setEventHandler _ | preparePrefix _ | resetForNewSession _
  | closeClient _ => Except PyStr Unit
  | forkContext _ => Except PyStr ℕ
  | keepsDialogue _ => Bool

/-- Programs of the threads. -/
abbrev SchedulerM := Program SchedulerEffect SchedulerEffect.Answer

namespace CoreScheduler

/-- A single operation. -/
def perform (e : SchedulerEffect) : SchedulerM e.Answer := Program.perform e Program.done

/-- An access to the shared fields. -/
def access {β : Type} (f : CoreScheduler → β × CoreScheduler) : SchedulerM β :=
  Program.perform (SchedulerEffect.access β f) Program.done

/-- An access that only writes. -/
def update (f : CoreScheduler → CoreScheduler) : SchedulerM Unit := access fun s => ((), f s)

/-- An access that only reads. -/
def read {β : Type} (f : CoreScheduler → β) : SchedulerM β := access fun s => (f s, s)

/-- Waiting for a value. -/
def await {β : Type} (f : CoreScheduler → Option β) : SchedulerM β :=
  Program.perform (SchedulerEffect.await β f) Program.done

/-- Going on unless an exception was raised. -/
def andThen {α β : Type} (p : SchedulerM (Except PyStr α))
    (f : α → SchedulerM (Except PyStr β)) : SchedulerM (Except PyStr β) := do
  match ← p with
  | Except.error msg => return Except.error msg
  | Except.ok a => f a

/-- An operation that cannot raise. -/
def succeed {α : Type} (p : SchedulerM α) : SchedulerM (Except PyStr α) := do
  let a ← p
  return Except.ok a

/-! ### The contexts of the manager -/

/-- `_warm_manager_kv2`. -/
def warmManagerKv2 : SchedulerM (Except PyStr Unit) := do
  if ← access fun s =>
      if s.managerSlotReady ManagerSlot.kv2 then (true, { s with kv2State := Kv2State.ready })
      else (false, s) then
    return Except.ok ()
  else
    andThen (perform (SchedulerEffect.forkContext "manager:kv2")) fun context =>
      andThen (perform (SchedulerEffect.setEventHandler context)) fun _ => do
        if ← access fun s =>
            if s.managerSlotReady ManagerSlot.kv2 then (true, s)
            else (false, s.registerKv2 context) then
          perform (SchedulerEffect.closeClient context)
        else return Except.ok ()

/-- The `try` of `_recover_manager_kv1`, and what follows it. -/
def rebuildKv1 (context : ℕ) : SchedulerM (Except PyStr Unit) :=
  andThen (perform (SchedulerEffect.preparePrefix context)) fun _ =>
    andThen (perform (SchedulerEffect.resetForNewSession context)) fun _ =>
      succeed (update (recovered context))

/-- `_recover_manager_kv1`; a failure leaves KV1 unavailable. -/
def recoverManagerKv1 : SchedulerM Unit := do
  match ← read fun s => s.managerSlots ManagerSlot.kv1 with
  | none => return ()
  | some context => do
      let _ ← rebuildKv1 context
      return ()

/-- `_ensure_manager_kv2_for_request`. -/
def ensureManagerKv2ForRequest : SchedulerM (Except PyStr Unit) := do
  if ← access fun s =>
      if s.managerSlotReady ManagerSlot.kv2 then (true, s)
      else (false, { s with kv2State := Kv2State.warming, kv2Requested := false }) then
    return Except.ok ()
  else
    match ← warmManagerKv2 with
    | Except.error msg => do
        update loseKv2
        return Except.error msg
    | Except.ok () => return Except.ok ()

/-- The end of the choice of a context: there is one, or all of them are occupied. -/
def occupied : Option ℕ → Except PyStr ℕ
  | some context => Except.ok context
  | none => Except.error "all manager KV contexts are occupied"

/-- The choice of a context of the pool in `_context`. -/
def takeManagerContext : SchedulerM (Except PyStr ℕ) := do
  if ← read fun s => !s.managerSlotReady ManagerSlot.kv1 then recoverManagerKv1
  match ← access takeAvailable with
  | some context => return Except.ok context
  | none =>
      if ← read fun s => s.managerSlotReady ManagerSlot.kv2 then return occupied none
      else
        andThen ensureManagerKv2ForRequest fun _ => do
          let context ← access takeAvailable
          return occupied context

/-- The entry of `_contexts` that `_context` makes. -/
def newContext (config : SchedulerConfig) (item : PriorityRequest) (key : PyStr) :
    SchedulerM (Except PyStr Unit) :=
  if item.kind = RequestKind.user ∧ config.managerPoolEnabled = true then
    andThen takeManagerContext fun context => succeed (update (assignPooled key context))
  else if config.forks = true then
    andThen (perform (SchedulerEffect.forkContext key)) fun context =>
      succeed (update fun s => { s with contexts := s.contexts.set key context })
  else succeed (update fun s => { s with contexts := s.contexts.set key runtime })

/-- `self._contexts[key]`. -/
def contextOf (key : PyStr) (s : CoreScheduler) : Except PyStr ℕ :=
  match s.contexts.get? key with
  | some context => Except.ok context
  | none => Except.error key

/-- The body of the `if` in `_context`. -/
def makeContext (config : SchedulerConfig) (item : PriorityRequest) (key : PyStr) :
    SchedulerM (Except PyStr Unit) :=
  andThen (newContext config item key) fun _ =>
    if config.forks = true then
      andThen (read (contextOf key)) fun context =>
        perform (SchedulerEffect.setEventHandler context)
    else return Except.ok ()

/-- The end of `_context`. -/
def giveContext (u : ℕ) (key : PyStr) : SchedulerM (Except PyStr ℕ) :=
  access fun s => (s.contextOf key,
    s.modify u fun item => { item with context := s.contexts.get? key })

/-- `_context`. -/
def takeContext (config : SchedulerConfig) (u : ℕ) : SchedulerM (Except PyStr ℕ) := do
  let item ← read fun s => s.requests u
  let key := contextKey item
  if ← read fun s => decide (s.contexts.get? key = none) then
    andThen (makeContext config item key) fun _ => giveContext u key
  else giveContext u key

/-- `_close_context`. -/
def closeContext (key : PyStr) : SchedulerM (Except PyStr Unit) := do
  match ← access fun s => (s.contexts.get? key, { s with contexts := s.contexts.erase key }) with
  | none => return Except.ok ()
  | some context =>
      match ← read fun s => s.managerSlotIndex context with
      | some slot =>
          if ← read fun s => s.stop then return Except.ok ()
          else
            match ← perform (SchedulerEffect.resetForNewSession context) with
            | Except.error _ => do
                update (resetFailed slot context)
                -- This call stands in the handler of the failed reset, so what it raises escapes.
                if slot = ManagerSlot.kv2 then perform (SchedulerEffect.closeClient context)
                else return Except.ok ()
            | Except.ok () => succeed (update (resetDone slot context))
      | none =>
          if context = runtime then return Except.ok ()
          else perform (SchedulerEffect.closeClient context)

/-! ### The executor -/

/-- A change of one request object. -/
def updateRequest (u : ℕ) (f : PriorityRequest → PriorityRequest) : SchedulerM Unit :=
  update fun s => s.modify u f

/-- `item.iterator` moves on. -/
def setIterator (u : ℕ) (iterator : StepsIterator) : SchedulerM Unit :=
  updateRequest u fun item => { item with iterator := some iterator }

/-- `item.iterator.close()`, if there is an iterator. -/
def closeIterator (u : ℕ) (item : PriorityRequest) : SchedulerM (Except PyStr Unit) := do
  if item.iterator = none then return Except.ok ()
  else do
    let closed ← perform (SchedulerEffect.closeIterator u)
    setIterator u StepsIterator.ended
    return closed

/-- `_discard`. -/
def discard (u : ℕ) : SchedulerM (Except PyStr Unit) := do
  let item ← read fun s => s.requests u
  andThen (closeIterator u item) fun _ =>
    match item.context with
    | none => return Except.ok ()
    | some context => succeed (perform (SchedulerEffect.abortContext context))

/-- One turn of the loop of `_steps` over a task. -/
def stepTask (u : ℕ) : SchedulerM (Except PyStr Advanced) := do
  match ← perform (SchedulerEffect.stepAutonomousTask u) with
  | TaskStep.raised msg => do
      setIterator u StepsIterator.ended
      return Except.error msg
  | TaskStep.completed completion => do
      setIterator u StepsIterator.ended
      return Except.ok (Advanced.completion completion)
  | TaskStep.paused => do
      setIterator u StepsIterator.task
      return Except.ok Advanced.paused

/-- One step of a dialogue. -/
def stepDialogue (u context : ℕ) (key : PyStr) : SchedulerM (Except PyStr Advanced) := do
  match ← perform (SchedulerEffect.dialogueStep u context key) with
  | DialogueStep.raised msg => do
      setIterator u StepsIterator.ended
      return Except.error msg
  | DialogueStep.returned turn => do
      setIterator u StepsIterator.ended
      return Except.ok (Advanced.turn turn)
  | DialogueStep.paused => do
      setIterator u StepsIterator.dialogue
      return Except.ok Advanced.paused

/-- The start of `_steps` in a dialogue. -/
def startDialogue (config : SchedulerConfig) (u : ℕ) (item : PriorityRequest) :
    SchedulerM (Except PyStr Advanced) := do
  match ← takeContext config u with
  | Except.error msg => do
      setIterator u StepsIterator.ended
      return Except.error msg
  | Except.ok context => stepDialogue u context (contextKey item)

/-- The start of `_steps` for a task. -/
def startTask (u : ℕ) (event : SystemEvent) : SchedulerM (Except PyStr Advanced) := do
  match ← perform (SchedulerEffect.beginAutonomousTask u event) with
  | TaskBegin.raised msg => do
      setIterator u StepsIterator.ended
      return Except.error msg
  | TaskBegin.completed completion => do
      setIterator u StepsIterator.ended
      return Except.ok (Advanced.completion completion)
  | TaskBegin.execution => stepTask u

/-- The start of `_steps`. -/
def startSteps (config : SchedulerConfig) (u : ℕ) (item : PriorityRequest) :
    SchedulerM (Except PyStr Advanced) :=
  match item.kind, item.payload with
  | RequestKind.system, RequestPayload.event event =>
      if event.taskId = none then startDialogue config u item else startTask u event
  | _, _ => startDialogue config u item

/-- `next(item.iterator)`. -/
def nextStep (config : SchedulerConfig) (u : ℕ) : SchedulerM (Except PyStr Advanced) := do
  let item ← read fun s => s.requests u
  match item.iterator, item.context with
  | some StepsIterator.fresh, _ => startSteps config u item
  | some StepsIterator.task, _ => stepTask u
  | some StepsIterator.dialogue, some context => stepDialogue u context (contextKey item)
  | _, _ => return Except.ok (Advanced.turn ManagerTurn.silent)

/-- `valid_run` for a run that has begun, `begin_run` otherwise. -/
def askGrant (event : SystemEvent) (started : Bool) : SchedulerM (Except PyStr Bool) :=
  if started then perform (SchedulerEffect.validRun event)
  else perform (SchedulerEffect.beginRun event)

/-- The first part of `_advance`, which asks whether the grant of a run still stands; `false` means
that the service did not answer. -/
def checkGrant (u : ℕ) : SchedulerM (Except PyStr Bool) := do
  let item ← read fun s => s.requests u
  match item.taskRun with
  | none => return Except.ok true
  | some event =>
      if item.cancelled = true then return Except.ok true
      else
        match ← askGrant event item.taskStarted with
        -- Pause at the boundary until the authoritative service returns.
        | Except.error _ => return Except.ok false
        | Except.ok allowed => do
            updateRequest u fun item =>
              if allowed then { item with taskStarted := true } else { item with cancelled := true }
            return Except.ok true

/-- The body of the `try` in `_advance`. -/
def advanceBody (config : SchedulerConfig) (u : ℕ) : SchedulerM (Except PyStr Advanced) :=
  andThen (checkGrant u) fun
    | false => return Except.ok Advanced.paused
    | true => do
        if ← read fun s => (s.requests u).cancelled then
          andThen (discard u) fun _ =>
            return Except.ok (Advanced.turn (ManagerTurn.cancelled []))
        else do
          updateRequest u fun item =>
            { item with iterator := item.iterator.or (some StepsIterator.fresh) }
          nextStep config u

/-- `_advance`; what it raises is the exception of its future. -/
def advance (config : SchedulerConfig) (u : ℕ) : SchedulerM (Except PyStr Advanced) := do
  match ← advanceBody config u with
  | Except.ok result => return Except.ok result
  | Except.error msg =>
      andThen (discard u) fun _ => return Except.ok (Advanced.turn (ManagerTurn.error msg))

/-- The key of the dialogue of a session. -/
def humanKey (sessionId : PyStr) : PyStr := PyStr.ofString "human:" ++ sessionId

/-- `_release_context`. -/
def releaseContext (sessionId : PyStr) : SchedulerM Unit := do
  if ← read fun s => s.live.any fun u => decide ((s.requests u).sessionId = sessionId) then
    return ()
  else
    match ← closeContext (humanKey sessionId) with
    | Except.error _ => return ()
    | Except.ok () => update fun s =>
        { s with releasedSessions := s.releasedSessions.filter fun t => decide (t ≠ sessionId) }

/-- The loop of `_close_all_contexts`. -/
def closeClients : List ℕ → SchedulerM (Except PyStr Unit)
  | [] => return Except.ok ()
  | context :: rest =>
      if context = runtime then closeClients rest
      else andThen (perform (SchedulerEffect.closeClient context)) fun _ => closeClients rest

/-- `_close_all_contexts`. -/
def closeAllContexts (config : SchedulerConfig) : SchedulerM (Except PyStr Unit) := do
  let contexts ← read fun s => (s.contexts.values ++
    (s.managerSlots ManagerSlot.kv1).toList ++ (s.managerSlots ManagerSlot.kv2).toList).dedup
  andThen (closeClients contexts) fun _ => succeed (update (forgetContexts config))

/-- The executor performs an operation and settles its future. -/
def runJob (config : SchedulerConfig) : SchedulerJob → SchedulerM Unit
  | SchedulerJob.advance u => do
      let result ← advance config u
      update fun s => { s with activeFuture := some (some result) }
  | SchedulerJob.releaseContext sessionId => releaseContext sessionId
  | SchedulerJob.warmManagerKv2 => do
      let result ← warmManagerKv2
      update fun s => { s with kv2Future := some (some result) }
  | SchedulerJob.discard u => do
      let result ← discard u
      update fun s => { s with shutdownFuture := some (some result) }
  | SchedulerJob.closeAllContexts => do
      let result ← closeAllContexts config
      update fun s => { s with shutdownFuture := some (some result) }

/-! ### The loop -/

/-- `_enqueue_event`; it raises `QueueFull` if this returns `false`. -/
def enqueue (config : SchedulerConfig) (event : SystemEvent) (priority : ℤ)
    (coalesceKey : Option PyStr) : SchedulerM Bool := do
  match ← access fun s => s.enqueueEvent config event priority coalesceKey with
  | none => return true
  | some false => return false
  | some true => do
      if event.runId ≠ [] then perform (SchedulerEffect.accepted event)
      return true

/-- The loop of `_poll_system_events`. -/
def enqueueAll (config : SchedulerConfig) : List SystemEvent → SchedulerM Unit
  | [] => return ()
  | event :: rest => do
      let _ ← enqueue config event
        (if event.source = "mqtt" then hardwareEventPriority else defaultEventPriority)
        (if event.source = "timer" then some (eventLabel event) else none)
      enqueueAll config rest

/-- `_poll_system_events`. -/
def pollSystemEvents (config : SchedulerConfig) : SchedulerM (Except PyStr Unit) :=
  andThen (perform SchedulerEffect.pollDue) fun events => succeed (enqueueAll config events)

/-- `_complete`, without its callbacks. -/
def complete (u : ℕ) (turn : ManagerTurn) : SchedulerM Unit := do
  let item ← access fun s =>
    (s.requests u, { s with log := SchedulerEvent.completed u turn :: s.log })
  match item.taskRun with
  | none => return ()
  | some event => perform (SchedulerEffect.finishRun event turn.kind)

/-- `context._chat_mode or context._direct_waiting`. -/
def keepsDialogue (context : ℕ) : SchedulerM Bool := perform (SchedulerEffect.keepsDialogue context)

/-- `_recycle_completed_interactive_context`. -/
def recycleCompletedInteractiveContext (u : ℕ) (turn : ManagerTurn) :
    SchedulerM (Except PyStr Unit) := do
  let item ← read fun s => s.requests u
  match item.context with
  | none => return Except.ok ()
  | some context =>
      if item.kind ≠ RequestKind.user ∨ (turn.kind ≠ "reply" ∧ turn.kind ≠ "silent") then
        return Except.ok ()
      else do
        let keeps ← keepsDialogue context
        let assigned ← read fun s => s.contexts.get? (contextKey item)
        if keeps = false ∧ assigned = some context then closeContext (contextKey item)
        else return Except.ok ()

/-- The request goes back to the end of the queue. -/
def requeue (u : ℕ) : SchedulerM Unit := update fun s => { s with pending := s.pending ++ [u] }

/-- The result of a query becomes a turn of the manager. -/
def convert (u : ℕ) (taskId : ℤ) (result : PyStr) : SchedulerM Unit :=
  updateRequest u fun item =>
    { item with
      kind := RequestKind.manager
      label := PyStr.ofString "query-result:task:" ++ PyStr.ofString (toString taskId)
      payload := RequestPayload.queryResult taskId result
      priority := managerPriority
      iterator := none }

/-- The end of a request. -/
def completeAndRecycle (u : ℕ) (turn : ManagerTurn) : SchedulerM (Except PyStr Unit) := do
  complete u turn
  recycleCompletedInteractiveContext u turn

/-- The middle part of `_finish_regular_request`, which deals with the result. -/
def settle (u : ℕ) : Advanced → SchedulerM (Except PyStr Unit)
  | Advanced.paused => succeed (requeue u)
  | Advanced.turn turn => completeAndRecycle u turn
  | Advanced.completion completion =>
      match completion.queryTaskId with
      | some taskId => do
          -- The activation already occupied one admission slot.
          convert u taskId completion.queryResult
          succeed (requeue u)
      | none => completeAndRecycle u (completion.turn.getD ManagerTurn.silent)

/-- `future.result()`, or the turn that reports its exception. -/
def resultOf : Except PyStr Advanced → Advanced
  | Except.ok result => result
  | Except.error msg => Advanced.turn (ManagerTurn.error msg)

/-- The end of `_finish_regular_request`. -/
def clearActive (u : ℕ) : SchedulerM Unit := do
  let sessionId ← access fun s => ((s.requests u).sessionId,
    { s with activeRequest := none, activeFuture := none })
  if ← read fun s => decide (sessionId ∈ s.releasedSessions) then
    update (submitJob (SchedulerJob.releaseContext sessionId))

/-- `_finish_regular_request`.  If it raises, the request stays active with a future that is
done. -/
def finishRegularRequest (future : Except PyStr Advanced) : SchedulerM (Except PyStr Unit) := do
  match ← read fun s => s.activeRequest with
  | none => return Except.ok ()
  | some u => andThen (settle u (resultOf future)) fun _ => succeed (clearActive u)

/-- `_poll_future`. -/
def pollFuture : SchedulerM (Except PyStr Unit) := do
  match ← read fun s => s.activeFuture with
  | some (some future) => finishRegularRequest future
  | _ => return Except.ok ()

/-- `_poll_manager_kv2_warm`. -/
def pollManagerKv2Warm : SchedulerM Unit := do
  match ← read fun s => s.kv2Future with
  | some none => return ()
  | some (some (Except.error _)) => update fun s => { s.loseKv2 with kv2Future := none }
  | some (some (Except.ok ())) => update fun s => { s with kv2Future := none }
  | none =>
      if ← read fun s => s.kv2Requested && s.activeFuture.isNone then
        update fun s =>
          { s with
            kv2Requested := false
            kv2State := Kv2State.warming
            kv2Future := some none }.submitJob SchedulerJob.warmManagerKv2
      else return ()

/-- `_start_next`. -/
def startNextRequest : SchedulerM Unit := do
  if ← read fun s => s.activeFuture.isSome || s.kv2Future.isSome then return ()
  else do
    let view ← perform SchedulerEffect.poolView
    update (startNext view)

/-- The body of the loop of `_run`. -/
def runOnce (config : SchedulerConfig) : SchedulerM Unit := do
  let _ ← andThen (pollSystemEvents config) fun _ => andThen pollFuture fun _ => do
    pollManagerKv2Warm
    succeed startNextRequest
  return ()

/-- `executor.submit(…).result()`, in the closing thread. -/
def callExecutor (job : SchedulerJob) : SchedulerM (Except PyStr Unit) := do
  update fun s => { s with shutdownFuture := some none }.submitJob job
  await fun s => s.shutdownFuture.join

/-- The loop of `close`. -/
def completeRemaining : List ℕ → SchedulerM (Except PyStr Unit)
  | [] => return Except.ok ()
  | u :: rest => do
      match ← callExecutor (SchedulerJob.discard u) with
      | Except.error msg => do
          update fun s =>
            { s with remaining := [], log := SchedulerEvent.discardRaised u :: s.log }
          return Except.error msg
      | Except.ok () => do
          complete u (ManagerTurn.cancelled "CORE остановлен")
          update fun s => { s with remaining := rest }
          completeRemaining rest

/-- What `close` does with the active request; `self._active_future.result()` raises what
`_advance` has raised. -/
def finishActive : SchedulerM (Except PyStr Unit) := do
  match ← await fun s => match s.activeFuture with
      | none => some none
      | some result => result.map some with
  | none => return Except.ok ()
  | some (Except.error msg) => return Except.error msg
  | some (Except.ok _) => pollFuture

/-- What `close` does with the future of KV2. -/
def finishKv2 : SchedulerM (Except PyStr Unit) :=
  andThen (await fun s => match s.kv2Future with
      | none => some (Except.ok ())
      | some result => result) fun _ =>
    succeed (update fun s => { s with kv2Future := none })

/-- `close`, after the loop has ended. -/
def closeAfterJoin (config : SchedulerConfig) : SchedulerM (Except PyStr Unit) :=
  andThen finishActive fun _ => andThen finishKv2 fun _ => do
    let remaining ← access fun s => (s.pending, { s with pending := [], remaining := s.pending })
    andThen (completeRemaining remaining) fun _ => do
      if config.isRemote then perform SchedulerEffect.flushCompletions
      andThen (callExecutor SchedulerJob.closeAllContexts) fun _ =>
        succeed (update fun s => { s with isShutdown := true })

/-- The end of the closing thread. -/
def shutdown (config : SchedulerConfig) : SchedulerM Unit := do
  let _ ← closeAfterJoin config
  return ()

/-! ### Clients -/

/-- What a client of the scheduler asks for. -/
inductive ClientCall where
  | submitUser (text sessionId : PyStr) (requestId : Option PyStr) (now : ℚ)
  | submitVoice (text sessionId : PyStr) (requestId : Option PyStr) (now : ℚ)
  | releaseHumanSession (sessionId : PyStr)
  | enqueueExternalEvent (event : SystemEvent) (priority : ℤ) (coalesce : Bool)
  | requestManagerKv2Warm
  | close

/-- `request_manager_kv2_warm`. -/
def requestWarm (config : SchedulerConfig) (s : CoreScheduler) : CoreScheduler :=
  if config.managerPoolEnabled = false ∨ s.managerSlotReady ManagerSlot.kv2 = true ∨
      s.kv2State = Kv2State.queued ∨ s.kv2State = Kv2State.warming then s
  else { s with kv2State := Kv2State.queued, kv2Requested := true }

/-- Moving the clock, which never goes back. -/
def atTime (now : ℚ) (f : ℚ → CoreScheduler → CoreScheduler) (s : CoreScheduler) : CoreScheduler :=
  let now := max s.clock now
  f now { s with clock := now }

/-- What the calls of a client do. -/
def clientCall (config : SchedulerConfig) : ClientCall → SchedulerM Unit
  | ClientCall.submitUser text sessionId requestId now =>
      update (atTime now (submitUser config text sessionId requestId))
  | ClientCall.submitVoice text sessionId requestId now =>
      update (atTime now (submitVoice config text sessionId requestId))
  | ClientCall.releaseHumanSession sessionId => do
      update (markReleased sessionId)
      update (submitJob (SchedulerJob.releaseContext sessionId))
  | ClientCall.enqueueExternalEvent event priority coalesce => do
      -- A remote system is sent the event; it comes back when it is polled.
      if config.isRemote = true ∨ priority ≤ managerPriority then return ()
      else
        let _ ← enqueue config event priority (if coalesce then some (eventLabel event) else none)
        return ()
  | ClientCall.requestManagerKv2Warm => update (requestWarm config)
  | ClientCall.close => do
      update fun s => { s with stop := true }
      if config.isRemote then perform SchedulerEffect.stopWorker
      update fun s => { s with joining := true }

end CoreScheduler

/-! ### The threads -/

/-- The threads: the loop, which the closing thread replaces when it has ended, the executor, and
the clients. -/
inductive SchedulerThread where
  | driver
  | executor
  | client (n : ℕ)
deriving DecidableEq

/-- What the environment decides. -/
inductive SchedulerChoice where
  | proceed
  | call (c : ClientCall)
  | events (r : Except PyStr (List SystemEvent))
  | grant (r : Except PyStr Bool)
  | view (v : PoolView)
  | begun (r : TaskBegin)
  | stepped (r : TaskStep)
  | spoke (r : DialogueStep)
  | outcome (r : Except PyStr Unit)
  | flag (b : Bool)

namespace CoreScheduler

/-- Adding to the log. -/
def record (event : SchedulerEvent) (s : CoreScheduler) : CoreScheduler :=
  { s with log := event :: s.log }

/-- What the operations do. -/
def handle (_ : SchedulerThread) : (e : SchedulerEffect) → SchedulerChoice → CoreScheduler →
    Option (e.Answer × CoreScheduler)
  | SchedulerEffect.access _ f, SchedulerChoice.proceed, s => some (f s)
  | SchedulerEffect.await _ f, SchedulerChoice.proceed, s => (f s).map fun x => (x, s)
  | SchedulerEffect.pollDue, SchedulerChoice.events r, s => some (r, s)
  | SchedulerEffect.accepted event, SchedulerChoice.proceed, s =>
      some ((), s.record (SchedulerEvent.accepted event))
  | SchedulerEffect.beginRun _, SchedulerChoice.grant r, s
  | SchedulerEffect.validRun _, SchedulerChoice.grant r, s => some (r, s)
  | SchedulerEffect.finishRun _ _, SchedulerChoice.proceed, s
  | SchedulerEffect.stopWorker, SchedulerChoice.proceed, s
  | SchedulerEffect.flushCompletions, SchedulerChoice.proceed, s
  | SchedulerEffect.abortContext _, SchedulerChoice.proceed, s => some ((), s)
  | SchedulerEffect.poolView, SchedulerChoice.view v, s => some (v, s)
  | SchedulerEffect.beginAutonomousTask _ _, SchedulerChoice.begun r, s => some (r, s)
  | SchedulerEffect.stepAutonomousTask _, SchedulerChoice.stepped r, s => some (r, s)
  | SchedulerEffect.dialogueStep _ context key, SchedulerChoice.spoke r, s =>
      some (r, s.record (SchedulerEvent.used context key))
  | SchedulerEffect.closeIterator _, SchedulerChoice.outcome r, s
  | SchedulerEffect.setEventHandler _, SchedulerChoice.outcome r, s
  | SchedulerEffect.preparePrefix _, SchedulerChoice.outcome r, s
  | SchedulerEffect.closeClient _, SchedulerChoice.outcome r, s => some (r, s)
  | SchedulerEffect.resetForNewSession context, SchedulerChoice.outcome r, s =>
      match r with
      | Except.ok () => some (r, s.record (SchedulerEvent.based context))
      | Except.error _ => some (r, s)
  | SchedulerEffect.forkContext _, SchedulerChoice.outcome r, s =>
      match r with
      | Except.ok () => some (Except.ok s.nextContext, { s with nextContext := s.nextContext + 1 })
      | Except.error msg => some (Except.error msg, s)
  | SchedulerEffect.keepsDialogue _, SchedulerChoice.flag b, s => some (b, s)
  | _, _, _ => none

/-- What an idle thread takes up. -/
def starts (config : SchedulerConfig) :
    SchedulerThread → SchedulerChoice → CoreScheduler → Option (SchedulerM Unit × CoreScheduler)
  | SchedulerThread.driver, SchedulerChoice.proceed, s =>
      if s.stop = false then some (runOnce config, s)
      else if s.joining = true ∧ s.closed = false then
        some (shutdown config, { s with closed := true })
      else none
  | SchedulerThread.executor, SchedulerChoice.proceed, s =>
      match s.jobs with
      | [] => none
      | job :: rest => some (runJob config job, { s with jobs := rest })
  | SchedulerThread.client _, SchedulerChoice.call c, s => some (clientCall config c, s)
  | _, _, _ => none

/-- The scheduler and its threads. -/
def system (config : SchedulerConfig) :
    Threads SchedulerThread SchedulerEffect SchedulerEffect.Answer SchedulerChoice
      CoreScheduler where
  init := fun s => s = initial config
  starts := starts config
  handle := handle

/-- The answers with which the scheduler loses track of a request: in the loop, closing the context
of a request that has been completed raises, or closing the iterator of a request that `close`
discards does. -/
def loses (i : SchedulerThread) (e : SchedulerEffect) (o : SchedulerChoice)
    (s : CoreScheduler) : Bool :=
  match e, o with
  | SchedulerEffect.closeClient _, SchedulerChoice.outcome (Except.error _) =>
      decide (i = SchedulerThread.driver) && !s.closed
  | SchedulerEffect.closeIterator u, SchedulerChoice.outcome (Except.error _) =>
      decide (u ∈ s.remaining)
  | _, _ => false

/-- The scheduler in an environment that, if it is `safe`, gives none of these answers. -/
def within (config : SchedulerConfig) (safe : Bool) :
    Threads SchedulerThread SchedulerEffect SchedulerEffect.Answer SchedulerChoice
      CoreScheduler where
  init := fun s => s = initial config
  starts := starts config
  handle := fun i e o s => if (safe && loses i e o s) = true then none else handle i e o s

theorem system_eq (config : SchedulerConfig) : system config = within config false := rfl

theorem handle_of_within {config : SchedulerConfig} {safe : Bool} {i : SchedulerThread}
    {e : SchedulerEffect} {o : SchedulerChoice} {s : CoreScheduler} {r : e.Answer × CoreScheduler}
    (h : (within config safe).handle i e o s = some r) :
    handle i e o s = some r ∧ (safe = true → loses i e o s = false) := by
  change (if (safe && loses i e o s) = true then none else handle i e o s) = some r at h
  split at h
  · cases h
  · rename_i hsafe
    refine ⟨h, fun hs => ?_⟩
    rw [hs, Bool.true_and, Bool.not_eq_true] at hsafe
    exact hsafe

end CoreScheduler
