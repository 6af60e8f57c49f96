/-
**The sessions and the background jobs of a native CORE.**

One client at a time owns the session.  Its requests, the steps of its background jobs, the tasks of
the task service and the resets of the models all become operations of the scheduler, whose single
thread alone touches the models.  Clients come, go and send messages at any time, also while an
operation runs; an operation is therefore cut at every point where it takes the lock or calls a
model.

A job is a chain of operations: each step submits the next one.  It is cancelled by a mark, and by
an operation that cleans up; the chain may be anywhere at that time.

Main definitions:

* `BackgroundJob`, `CoreOperation`, `CorePoint` — jobs, operations, and where the thread stands;
* `CoreHistory` — a record of what has happened;
* `NativeCore` — the CORE;
* `NativeCore.advance` — the next step of the thread of the scheduler;
* `NativeCore.step`, `NativeCore.machine` — the clients, the task service and the thread, in any
  order.

The CORE is not shut down here.
-/

import CatAgent.CoreServer
import CatAgent.NativeManager
import CatAgent.PriorityScheduler

set_option relaxedAutoImplicit false
set_option autoImplicit false

/-! ### Jobs and operations -/

/-- The states of a background job. -/
inductive JobState where
  | queued
  | running
  | waiting
  | cancelling
  | completed
  | failed
  | cancelled
  | timedOut
deriving DecidableEq

/-- `_BackgroundJob`. -/
structure BackgroundJob where
  client : ℕ
  epoch : ℕ
  agentId : PyStr
  steps : List PyStr
  index : ℕ
  cancelled : Bool
  state : JobState
  /-- `started_at + max_runtime_seconds`. -/
  deadline : ℚ
  lastResult : PyStr
  deliveryFailed : Bool

/-- A session: the client that owns it, and its epoch. -/
structure CoreSession where
  client : ℕ
  epoch : ℕ
deriving DecidableEq

/-- What the callback of an operation calls. -/
inductive CoreOperation where
  | releaseSession
  | clearContext (agentId jobId : PyStr)
  | clearTimedOut (agentId jobId : PyStr)
  | modelWorker (session : CoreSession) (requestId text : PyStr) (agentId : Option PyStr)
  | hardwareProbe (session : CoreSession) (eventId agentId task : PyStr)
  | backgroundStep (jobId : PyStr)
  /-- A run of the task service. -/
  | execute (agentId task : PyStr)
deriving DecidableEq

/-- Where the thread of the scheduler stands. -/
inductive CorePoint where
  | idle
  /-- The callback is called. -/
  | entered (operation : CoreOperation)
  /-- `_model_worker`, before the manager is called. -/
  | turn (session : CoreSession) (requestId text : PyStr)
  /-- In the turn of the manager. -/
  | managing (session : CoreSession) (requestId : PyStr)
  /-- Before an agent is called. -/
  | agentTask (session : CoreSession) (requestId text agentId : PyStr)
  /-- Before the answer is sent. -/
  | answer (session : CoreSession) (requestId : PyStr) (turn : ManagerTurn)
  /-- `_background_step`, before the agent is called, and after it has returned. -/
  | slice (jobId agentId instruction : PyStr) (final : Bool)
  | sliced (jobId : PyStr) (final ok : Bool) (text : PyStr)
  /-- A suspended context has been discarded, or could not be. -/
  | aborted (jobId : PyStr) (timedOut : Bool) (error : Option PyStr)
  | probe (session : CoreSession) (eventId agentId task : PyStr)
  | probed (session : CoreSession) (eventId : PyStr)
  | tasking (agentId task : PyStr)
deriving DecidableEq

/-- What the outside world does in one step of the thread. -/
structure CoreEnv where
  /-- The native calls of this step. -/
  native : AgentEnv
  /-- The tool calls of the manager while it is asked. -/
  tools : List (EnqueueArgs × Json)
  /-- `time.monotonic()`. -/
  now : ℚ
  /-- How the messages about a background job are sent. -/
  progress : SendOutcome
  terminal : SendOutcome
  /-- The task service lets the run begin. -/
  allowed : Bool

/-! ### What has happened -/

/-- Who a conversation of an agent is used by: a background job, or the task of the given number. -/
inductive CloneUser where
  | job (jobId : PyStr)
  | task (n : ℕ)
deriving DecidableEq

/-- A question to a conversation of an agent. -/
structure CloneUse where
  agentId : PyStr
  clone : Option ℕ
  user : CloneUser
deriving DecidableEq

/-- The end of a job: its state, and that of its agent. -/
structure JobEnd where
  jobId : PyStr
  state : JobState
  agentState : Option AgentState
deriving DecidableEq

/-- A record of what has happened; the newest first. -/
structure CoreHistory where
  /-- The end of a session has left the conversation of the manager in place. -/
  releaseFailed : Bool
  /-- The questions to the manager: the conversation, and for whom it was asked. -/
  asked : List (Option ℕ × CoreSession)
  /-- The requests that were accepted, that have begun, and that were answered. -/
  accepted : List (PyStr × CoreSession)
  begun : List (PyStr × CoreSession)
  answered : List (PyStr × CoreSession)
  /-- The hardware events whose outcome was sent. -/
  probes : List (PyStr × CoreSession)
  /-- The questions to the agents. -/
  uses : List CloneUse
  /-- The instructions of jobs that were run. -/
  slices : List (PyStr × PyStr)
  ended : List JobEnd
  /-- The jobs whose message about a step could not be encoded. -/
  stranded : List PyStr

/-! ### The CORE -/

/-- `CoreServer`, with its manager, its agents and its scheduler. -/
structure NativeCore where
  /-- `_human`. -/
  human : Option ℕ
  /-- `client.epoch`. -/
  epoch : ℕ → ℕ
  scheduler : PriorityScheduler CoreOperation
  /-- All jobs that were ever made, and the names of those in `_backgrounds`. -/
  jobs : PyDict PyStr BackgroundJob
  backgrounds : List PyStr
  /-- `_reserved` of the worker of the task service. -/
  reserved : List PyStr
  manager : NativeManager
  /-- The conversation of the manager. -/
  chat : ConversationChat
  agents : PyDict PyStr AgentRecord
  point : CorePoint
  history : CoreHistory

namespace NativeCore

variable (s : NativeCore)

/-- `_client_still_active`. -/
def owns (session : CoreSession) : Bool :=
  decide (s.human = some session.client) && decide (s.epoch session.client = session.epoch)

/-- An operation is submitted. -/
def submit (kind : OperationKind) (operation : CoreOperation) (continuation : Bool) : NativeCore :=
  { s with scheduler := (s.scheduler.submit kind operation continuation).2 }

/-- The operation has been admitted. -/
def admits (kind : OperationKind) (operation : CoreOperation) : Bool :=
  (s.scheduler.submit kind operation false).1.isOk

/-- The callback is over. -/
def done : NativeCore := { s with point := CorePoint.idle, scheduler := s.scheduler.finish }

/-- The thread stands somewhere else. -/
def goto (point : CorePoint) : NativeCore := { s with point }

/-- A job is changed. -/
def modifyJob (jobId : PyStr) (f : BackgroundJob → BackgroundJob) : NativeCore :=
  { s with jobs := s.jobs.modify jobId f }

/-- `_backgrounds.get(job_id)`. -/
def activeJob (jobId : PyStr) : Option BackgroundJob :=
  if jobId ∈ s.backgrounds then s.jobs.get? jobId else none

/-! #### Jobs -/

/-- A job is marked, and will be cleaned up. -/
def mark (jobId : PyStr) (operation : CoreOperation) : NativeCore :=
  (s.modifyJob jobId fun job =>
    { job with cancelled := true, state := JobState.cancelling }).submit
      OperationKind.control operation false

/-- One round of the loop of `_cancel_backgrounds`. -/
def cancelOne (client : ℕ) (jobId : PyStr) (s : NativeCore) : NativeCore :=
  match s.activeJob jobId with
  | some job =>
      if job.client ≠ client ∨ job.cancelled then s
      else s.mark jobId (CoreOperation.clearContext job.agentId jobId)
  | none => s

/-- `_cancel_backgrounds(client, job_id)`. -/
def cancelBackgrounds (client : ℕ) (jobId : Option PyStr) : NativeCore :=
  (s.backgrounds.filter fun id => decide (jobId = none ∨ jobId = some id)).foldl
    (fun s id => s.cancelOne client id) s

/-- `_schedule_release`. -/
def scheduleRelease : NativeCore :=
  s.submit OperationKind.control CoreOperation.releaseSession false

/-- `_finish_background`. -/
def finishBackground (jobId : PyStr) (state : JobState) (result : PyStr) : NativeCore :=
  let agentState := (s.jobs.get? jobId).bind fun job =>
    (s.agents.get? job.agentId).map fun r => r.agent.state
  { s.modifyJob jobId fun job => { job with state, lastResult := result.take 2048 } with
    backgrounds := s.backgrounds.erase jobId
    history := { s.history with ended := { jobId, state, agentState } :: s.history.ended } }

/-- What `_send_background_event` does: it returns `True` or `False`, or it raises. -/
inductive Delivery where
  | sent
  | gone
  | raised
deriving DecidableEq

/-- `_send_background_event`. -/
def sendBackgroundEvent (jobId : PyStr) (outcome : SendOutcome) : Delivery × NativeCore :=
  match s.jobs.get? jobId with
  | none => (Delivery.raised, s)
  | some job =>
      if job.deliveryFailed then (Delivery.gone, s)
      else if s.owns ⟨job.client, job.epoch⟩ = false then
        (Delivery.gone, s.cancelBackgrounds job.client (some jobId))
      else
        match outcome with
        | SendOutcome.sent => (Delivery.sent, s)
        | SendOutcome.osError =>
            (Delivery.gone,
              (s.modifyJob jobId fun job => { job with deliveryFailed := true }).cancelBackgrounds
                job.client (some jobId))
        | SendOutcome.unicodeError => (Delivery.raised, s)

/-- `_finish_background` and `_notify_background_terminal`. -/
def terminate (env : CoreEnv) (jobId : PyStr) (state : JobState) (result : PyStr) : NativeCore :=
  ((s.finishBackground jobId state result).sendBackgroundEvent jobId env.terminal).2

/-! #### Agents -/

/-- The conversation of an agent is asked. -/
def noteUse (agentId : PyStr) (r : AgentRecord) (user : CloneUser) : NativeCore :=
  { s with
    history := { s.history with uses := { agentId, clone := r.resident, user } :: s.history.uses } }

/-- The agent refuses the task. -/
def refuses : Except AgentError NativeAgent.AgentOutcome → Bool
  | Except.error (AgentError.unavailable _ _) => true
  | Except.error AgentError.emptyTask => true
  | Except.error AgentError.emptySlice => true
  | _ => false

/-- `agents.run(task, agent_id)`. -/
def runAgent (env : CoreEnv) (agentId task : PyStr) :
    Except PyStr NativeAgent.AgentOutcome × NativeCore :=
  match s.agents.get? agentId with
  | none => (Except.error (PyStr.ofString "Unknown agent: " ++ agentId), s)
  | some r =>
      let result := (r.agent.run env.native task).1
      let s' :=
        if refuses result then s
        else s.noteUse agentId r (CloneUser.task s.history.uses.length)
      (result.mapError AgentError.text,
        { s' with
          agents := s.agents.set agentId (r.step (NativeAgent.Call.run env.native task)) })

/-- `agents.run_slice(agent_id, instruction, final=final)`. -/
def runSlice (env : CoreEnv) (jobId agentId instruction : PyStr) (final : Bool) :
    Except PyStr NativeAgent.AgentOutcome × NativeCore :=
  match s.agents.get? agentId with
  | none => (Except.error (PyStr.ofString "Unknown agent: " ++ agentId), s)
  | some r =>
      let result := (r.agent.runSlice env.native instruction final).1
      let s' := if refuses result then s else s.noteUse agentId r (CloneUser.job jobId)
      let call := NativeAgent.Call.runSlice env.native instruction final
      (result.mapError AgentError.text, { s' with agents := s.agents.set agentId (r.step call) })

/-- `agents.abort_slices(agent_id)`: the text of the exception, if it raises. -/
def abortSlices (env : CoreEnv) (agentId : PyStr) : Option PyStr × NativeCore :=
  match s.agents.get? agentId with
  | none => (some (PyStr.ofString "Unknown agent: " ++ agentId), s)
  | some r =>
      (match (r.agent.abortSlices env.native).1 with
        | Except.error e => some e.text
        | Except.ok () => none,
        { s with
          agents := s.agents.set agentId (r.step (NativeAgent.Call.abortSlices env.native)) })

/-! #### The manager -/

/-- The base is cloned, so the conversation is a new one afterwards. -/
def clones (env : CoreEnv) : Bool := (s.chat.cloneBase env.native).isOk

/-- `chat.new_dialogue()`. -/
def resetChat (env : CoreEnv) : NativeCore :=
  { s with chat := (s.chat.newDialogue env.native).2 }

/-- `release_session`. -/
def releaseSession (env : CoreEnv) : NativeCore :=
  { s.resetChat env with
    history := { s.history with releaseFailed := s.history.releaseFailed || !s.clones env } }

/-- The text that the manager is asked. -/
def question (manager : NativeManager) : PyStr :=
  match manager.log with
  | TurnEvent.asked text :: _ => text
  | _ => []

/-- `chat.ask(text)`, with the tool calls in the meantime. -/
def askManager (env : CoreEnv) (session : CoreSession) : NativeCore :=
  let r := s.chat.ask env.native (question s.manager)
  let manager := env.tools.foldl
    (fun m call => m.step (ManagerInput.enqueue call.1 call.2)) s.manager
  { s with
    chat := r.2
    manager := manager.step (ManagerInput.answered r.1)
    history := { s.history with
      asked := (s.chat.working.map Dialogue.clone, session) :: s.history.asked } }

/-- `_respond_turn`, up to the first call that leaves it. -/
def respond (env : CoreEnv) (text : PyStr) : NativeCore :=
  let reset := s.chat.newDialogue env.native
  let s' := if PyStr.strip text = PyStr.ofString "/new" then s.resetChat env else s
  { s' with manager := s.manager.step (ManagerInput.respond text reset.1) }

/-- What the manager hears of an agent. -/
def replyOf : Except PyStr NativeAgent.AgentOutcome → AgentReply
  | Except.ok outcome => AgentReply.returned outcome
  | Except.error text => AgentReply.raised text

/-- The turn of the manager goes on; when it is over, the answer is known.  After an exception the
conversation is reset. -/
def manage (env : CoreEnv) (session : CoreSession) (requestId : PyStr) : NativeCore :=
  match s.manager.point with
  | TurnPoint.idle =>
      match s.manager.last with
      | some (Except.ok turn) => s.goto (CorePoint.answer session requestId turn)
      | some (Except.error text) =>
          (s.resetChat env).goto (CorePoint.answer session requestId (ManagerTurn.error text))
      | none => s.goto (CorePoint.answer session requestId ManagerTurn.silent)
  | TurnPoint.plain => s.askManager env session
  | TurnPoint.asking => s.askManager env session
  | TurnPoint.running _ item _ =>
      let r := s.runAgent env item.agentId item.task
      { r.2 with manager := s.manager.step (ManagerInput.agent (replyOf r.1)) }
  | _ => { s with manager := s.manager.step (ManagerInput.session (Except.ok (s.owns session))) }

/-! #### The thread of the scheduler -/

/-- The answer of an agent to a request. -/
def agentTurn : Except PyStr NativeAgent.AgentOutcome → ManagerTurn
  | Except.ok outcome =>
      if outcome.state = AgentState.free then ⟨"reply", outcome.text⟩
      else ManagerTurn.error outcome.text
  | Except.error text => ManagerTurn.error text

/-- `_model_worker`, up to the first call of a model. -/
def enterModelWorker (session : CoreSession) (requestId text : PyStr) (agentId : Option PyStr) :
    NativeCore :=
  if s.owns session = false then s.done
  else
    let s :=
      { s with history := { s.history with begun := (requestId, session) :: s.history.begun } }
    match agentId with
    | none => s.goto (CorePoint.turn session requestId text)
    | some agentId => s.goto (CorePoint.agentTask session requestId text agentId)

/-- `_background_step`, up to the call of the agent. -/
def enterBackgroundStep (env : CoreEnv) (jobId : PyStr) : NativeCore :=
  match s.activeJob jobId with
  | none => s.done
  | some job =>
      if job.cancelled then s.done
      else
        match job.steps[job.index]? with
        | none => s.done
        | some instruction =>
            if job.deadline ≤ env.now then
              (s.mark jobId (CoreOperation.clearTimedOut job.agentId jobId)).done
            else
              (s.modifyJob jobId fun job => { job with state := JobState.running }).goto
                (CorePoint.slice jobId job.agentId instruction
                  (decide (job.index + 1 = job.steps.length)))

/-- The call of the agent in `_background_step`. -/
def callSlice (env : CoreEnv) (jobId agentId instruction : PyStr) (final : Bool) : NativeCore :=
  let r := s.runSlice env jobId agentId instruction final
  let s' :=
    { r.2 with
      history := { r.2.history with slices := (jobId, instruction) :: r.2.history.slices } }
  match r.1 with
  | Except.ok outcome =>
      s'.goto (CorePoint.sliced jobId final
        (decide (outcome.state = AgentState.free ∨ outcome.state = AgentState.waiting))
        (outcome.text.take 2048))
  | Except.error text => s'.goto (CorePoint.sliced jobId final false (text.take 2048))

/-- The rest of `_background_step`. -/
def leaveSlice (env : CoreEnv) (jobId : PyStr) (final ok : Bool) (text : PyStr) : NativeCore :=
  match s.jobs.get? jobId with
  | none => s.done
  | some job =>
      if job.cancelled then s.done
      else
        let s := s.modifyJob jobId fun job =>
          { job with index := job.index + 1, lastResult := text }
        match s.sendBackgroundEvent jobId env.progress with
        | (Delivery.gone, s) => s.done
        | (Delivery.raised, s) =>
            { s with
              history := { s.history with stranded := jobId :: s.history.stranded } }.done
        | (Delivery.sent, s) =>
            if ok && !final then
              if job.deadline ≤ env.now then
                (s.mark jobId (CoreOperation.clearTimedOut job.agentId jobId)).done
              else
                ((s.modifyJob jobId fun job => { job with state := JobState.waiting }).submit
                  OperationKind.background (CoreOperation.backgroundStep jobId) true).done
            else
              (s.terminate env jobId (if ok then JobState.completed else JobState.failed) text).done

/-- The rest of `_clear_background_context` and `_clear_timed_out_context`. -/
def leaveClear (env : CoreEnv) (jobId : PyStr) (timedOut : Bool) (error : Option PyStr) :
    NativeCore :=
  match s.activeJob jobId with
  | none => s.done
  | some job =>
      if timedOut = false ∧ job.cancelled = false then s.done
      else
        let state :=
          if error.isSome then JobState.failed
          else if timedOut then JobState.timedOut else JobState.cancelled
        let result := error.getD
          (if timedOut then "Deadline reached between native calls"
            else "Cancelled before next native call")
        (s.terminate env jobId state result).done

/-- A background job uses the agent. -/
def blocked (agentId : PyStr) : Bool :=
  s.backgrounds.any fun id => decide ((s.jobs.get? id).map BackgroundJob.agentId = some agentId)

/-- The checks of `_execute` before the agent is called. -/
def enterExecute (env : CoreEnv) (agentId task : PyStr) : NativeCore :=
  if (s.agents.get? agentId).map (fun r => r.agent.state) = some AgentState.free ∧
      s.blocked agentId = false ∧ env.allowed = true then
    s.goto (CorePoint.tasking agentId task)
  else { s.done with reserved := s.reserved.erase agentId }

/-- The callback of an operation begins. -/
def enter (env : CoreEnv) : CoreOperation → NativeCore
  | CoreOperation.releaseSession => (s.releaseSession env).done
  | CoreOperation.clearContext agentId jobId =>
      let r := s.abortSlices env agentId
      r.2.goto (CorePoint.aborted jobId false r.1)
  | CoreOperation.clearTimedOut agentId jobId =>
      let r := s.abortSlices env agentId
      r.2.goto (CorePoint.aborted jobId true r.1)
  | CoreOperation.modelWorker session requestId text agentId =>
      s.enterModelWorker session requestId text agentId
  | CoreOperation.hardwareProbe session eventId agentId task =>
      if s.owns session then s.goto (CorePoint.probe session eventId agentId task) else s.done
  | CoreOperation.backgroundStep jobId => s.enterBackgroundStep env jobId
  | CoreOperation.execute agentId task => s.enterExecute env agentId task

/-- **The next step of the thread.** -/
def advance (env : CoreEnv) : NativeCore :=
  match s.point with
  | CorePoint.idle =>
      match s.scheduler.pop with
      | none => s
      | some (operation, scheduler) =>
          { s with scheduler, point := CorePoint.entered operation.callback }
  | CorePoint.entered operation => s.enter env operation
  | CorePoint.turn session requestId text =>
      (s.respond env text).goto (CorePoint.managing session requestId)
  | CorePoint.managing session requestId => s.manage env session requestId
  | CorePoint.agentTask session requestId text agentId =>
      let r := s.runAgent env agentId text
      r.2.goto (CorePoint.answer session requestId (agentTurn r.1))
  | CorePoint.answer session requestId _ =>
      if s.owns session then
        { s with
          history :=
            { s.history with answered := (requestId, session) :: s.history.answered } }.done
      else s.done
  | CorePoint.slice jobId agentId instruction final =>
      s.callSlice env jobId agentId instruction final
  | CorePoint.sliced jobId final ok text => s.leaveSlice env jobId final ok text
  | CorePoint.aborted jobId timedOut error => s.leaveClear env jobId timedOut error
  | CorePoint.probe session eventId agentId task =>
      (s.runAgent env agentId task).2.goto (CorePoint.probed session eventId)
  | CorePoint.probed session eventId =>
      if s.owns session then
        { s with
          history := { s.history with probes := (eventId, session) :: s.history.probes } }.done
      else s.done
  | CorePoint.tasking agentId task =>
      { (s.runAgent env agentId task).2.done with reserved := s.reserved.erase agentId }

/-! #### The clients and the task service -/

/-- A message of a client, the end of its connection, an offer of the task service, or the next step
of the thread. -/
inductive Input where
  | acquire (client : ℕ)
  | release (client : ℕ)
  | user (client : ℕ) (requestId text : PyStr) (agentId : Option PyStr)
  | background (client : ℕ) (jobId agentId : PyStr) (steps : List PyStr) (runtime now : ℚ)
  | cancelBackground (client : ℕ) (jobId : PyStr)
  | hardware (client : ℕ) (eventId agentId task : PyStr)
  /-- The worker of the task service has chosen the agent. -/
  | offer (mqtt : Bool) (agentId task : PyStr)
  | advance (env : CoreEnv)

/-- `acquire`. -/
def acquire (client : ℕ) : NativeCore :=
  match s.human with
  | none =>
      { s with
        human := some client
        epoch := Function.update s.epoch client (s.epoch client + 1) }
  | some _ => s

/-- `release`, and the end of a connection. -/
def release (client : ℕ) : NativeCore :=
  if s.human = some client then
    ({ s with
      human := none
      epoch := Function.update s.epoch client (s.epoch client + 1) }.cancelBackgrounds
        client none).scheduleRelease
  else s

/-- The text of a request may be sent to a model. -/
def sendable (text : PyStr) : Bool :=
  decide (PyStr.strip text ≠ []) && decide (PyStr.Encodable text)

/-- `user` and `agent_task`. -/
def user (client : ℕ) (requestId text : PyStr) (agentId : Option PyStr) : NativeCore :=
  let session : CoreSession := ⟨client, s.epoch client⟩
  let operation := CoreOperation.modelWorker session requestId text agentId
  if sendable text = false ∨ (∃ id, agentId = some id ∧ s.agents.get? id = none) ∨
      s.human ≠ some client ∨ s.admits OperationKind.human operation = false then s
  else
    { s.submit OperationKind.human operation false with
      history :=
        { s.history with accepted := (requestId, session) :: s.history.accepted } }

/-- A step of a background job that is accepted. -/
def validStep (text : PyStr) : Bool :=
  decide (PyStr.strip text ≠ []) && decide ((PyStr.strip text).length ≤ 2048) &&
    decide (PyStr.Encodable text)

/-- `_submit_background`. -/
def background (client : ℕ) (jobId agentId : PyStr) (steps : List PyStr) (runtime now : ℚ) :
    NativeCore :=
  let operation := CoreOperation.backgroundStep jobId
  if steps.length < 2 ∨ 8 < steps.length ∨ steps.all validStep = false ∨ runtime < 1 ∨
      3600 < runtime ∨ s.human ≠ some client ∨ s.agents.get? agentId = none ∨
      s.blocked agentId = true ∨ agentId ∈ s.reserved ∨
      s.admits OperationKind.background operation = false then s
  else
    { s.submit OperationKind.background operation false with
      backgrounds := s.backgrounds ++ [jobId]
      jobs := s.jobs.set jobId
        { client
          epoch := s.epoch client
          agentId
          steps := steps.map PyStr.strip
          index := 0
          cancelled := false
          state := JobState.queued
          deadline := now + runtime
          lastResult := []
          deliveryFailed := false } }

/-- `cancel_background`. -/
def cancelBackground (client : ℕ) (jobId : PyStr) : NativeCore :=
  if s.human = some client then s.cancelBackgrounds client (some jobId) else s

/-- `_submit_hardware_probe`. -/
def hardware (client : ℕ) (eventId agentId task : PyStr) : NativeCore :=
  let operation :=
    CoreOperation.hardwareProbe ⟨client, s.epoch client⟩ eventId agentId (PyStr.strip task)
  if sendable task = false ∨ 2048 < (PyStr.strip task).length ∨ s.human ≠ some client ∨
      s.agents.get? agentId = none ∨ s.blocked agentId = true ∨ agentId ∈ s.reserved then s
  else s.submit OperationKind.hardware operation false

/-- A run of the task service is admitted. -/
def offer (mqtt : Bool) (agentId task : PyStr) : NativeCore :=
  let kind := if mqtt then OperationKind.hardware else OperationKind.background
  let operation := CoreOperation.execute agentId task
  if agentId ∈ s.reserved ∨ s.admits kind operation = false then s
  else { s.submit kind operation false with reserved := agentId :: s.reserved }

/-- A step. -/
def step (s : NativeCore) : Input → NativeCore
  | Input.acquire client => s.acquire client
  | Input.release client => s.release client
  | Input.user client requestId text agentId => s.user client requestId text agentId
  | Input.background client jobId agentId steps runtime now =>
      s.background client jobId agentId steps runtime now
  | Input.cancelBackground client jobId => s.cancelBackground client jobId
  | Input.hardware client eventId agentId task => s.hardware client eventId agentId task
  | Input.offer mqtt agentId task => s.offer mqtt agentId task
  | Input.advance env => s.advance env

/-- A new CORE. -/
structure Initial (s : NativeCore) : Prop where
  human : s.human = none
  scheduler : ∃ maxPending, s.scheduler = PriorityScheduler.create maxPending
  jobs : s.jobs = PyDict.empty
  backgrounds : s.backgrounds = []
  reserved : s.reserved = []
  /-- The broker is created, and then enabled or not, before the CORE gets the manager. -/
  manager : ∃ manager enabled, NativeManager.machine.init manager ∧
    s.manager = manager.step (ManagerInput.setEnabled enabled)
  chat : ∃ kv, s.chat =
    { closed := false, baseKvTokens := kv, clones := 1
      working := some { clone := 0, kv := kv, sent := [] } }
  agents : ∀ id r, s.agents.get? id = some r → NativeAgent.machine.init r
  point : s.point = CorePoint.idle
  history : s.history =
    { releaseFailed := false, asked := [], accepted := [], begun := [], answered := []
      probes := [], uses := [], slices := [], ended := [], stranded := [] }

/-- The name of a new job is a new one. -/
def NewNames (s : NativeCore) : Input → Prop
  | Input.background _ jobId _ _ _ _ => jobId ∉ s.jobs.keys
  | _ => True

/-- The clients, the task service and the thread, in any order. -/
def machine : Machine NativeCore Input where
  init := Initial
  step := step

end NativeCore
