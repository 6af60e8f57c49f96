/-
**The turns of the manager.**

A turn asks the manager, runs the agents that the manager's tool calls have queued, reports what
they did and asks again, until a question leaves nothing queued.  The code is one loop; here it is
cut at the calls that leave it.  A point says which call the turn is waiting for, and an answer to
that call takes the turn to the next point.  Tool calls may arrive at any time, and nothing is
assumed about the answers: a question, an agent or the check of the session may also raise.

The core serialises the calls of the manager, so a message that arrives during a turn is no step.

Main definitions:

* `TurnPoint`, `TurnEvent`, `NativeManager` — where a turn is, what it has done, and the manager;
* `NativeManager.step`, `NativeManager.machine` — one answer, one tool call, one message;
* `TurnEvent.asks`, `TurnEvent.accepted`, `TurnEvent.started`, `TurnEvent.Serial` — what the record
  of a turn says;
* `NativeManager.Answers`, `NativeManager.answers` — answers to the calls of a turn.

Main results:

* `NativeManager.Bounded.step` — the step lemma;
* `NativeManager.work_step` — an answer takes a turn nearer to its end;
* `NativeManager.turns_bounded` — **a turn asks at most four times, runs at most three agents, in
  the order in which they were queued, and ends with nothing queued**.
-/

import CatAgent.CoreScheduler
import CatAgent.Delegation
import CatAgent.NativeAgent

set_option relaxedAutoImplicit false
set_option autoImplicit false

/-- An entry of `results`, as the manager is told about it. -/
structure AgentResult where
  callId : PyStr
  agentId : PyStr
  ok : Bool
  statusCode : ℤ
  result : PyStr
deriving DecidableEq

/-- The call that `_respond_turn` is waiting for. -/
inductive TurnPoint where
  /-- There is no turn. -/
  | idle
  /-- `chat.ask`, without a broker and without a task controller. -/
  | plain
  /-- `chat.ask`. -/
  | asking
  /-- `is_session_active`, before any of the tasks taken is started. -/
  | guard (pending : List PendingDelegation)
  /-- `is_session_active`, before the task is started. -/
  | itemGuard (results : List AgentResult) (item : PendingDelegation)
      (rest : List PendingDelegation)
  /-- `agents.run`. -/
  | running (results : List AgentResult) (item : PendingDelegation)
      (rest : List PendingDelegation)
  /-- `is_session_active`, before the report. -/
  | closing (results : List AgentResult)
deriving DecidableEq

/-- Something that a turn has done. -/
inductive TurnEvent where
  | asked (text : PyStr)
  | answered
  | accepted (item : PendingDelegation)
  | started (item : PendingDelegation)
  | finished (item : PendingDelegation)
deriving DecidableEq

/-- `NativeManager`. -/
structure NativeManager where
  closed : Bool
  broker : Option DelegationBroker
  /-- `task_controller.in_turn`, if there is a task controller. -/
  taskTurn : Option Bool
  point : TurnPoint
  /-- What the turn has done so far, or the last turn if there is none; the newest first. -/
  log : List TurnEvent
  /-- What the last turn returned or raised. -/
  last : Option (Except PyStr ManagerTurn)
deriving DecidableEq

/-- What `agents.run` does: it returns, raises an ordinary exception or is torn down. -/
inductive AgentReply where
  | returned (outcome : NativeAgent.AgentOutcome)
  | raised (message : PyStr)
  | aborted (message : PyStr)

/-- What the outside world does. -/
inductive ManagerInput where
  /-- A message; `reset` is what `chat.new_dialogue` does if it is called. -/
  | respond (text : PyStr) (reset : Except PyStr Unit)
  /-- A tool call; `controller` is what the periodic controller answers if it is called. -/
  | enqueue (args : EnqueueArgs) (controller : Json)
  | setEnabled (enabled : Bool)
  | close
  /-- `chat.ask` returns or raises. -/
  | answered (answer : Except PyStr PyStr)
  /-- `is_session_active` returns or raises. -/
  | session (active : Except PyStr Bool)
  | agent (reply : AgentReply)

namespace NativeManager

/-! ### One turn -/

/-- `ManagerTurn("reply", answer) if answer.strip() else ManagerTurn("silent")`. -/
def replyOf (answer : PyStr) : ManagerTurn :=
  if (PyStr.strip answer).isEmpty then ManagerTurn.silent else ⟨"reply", answer⟩

/-- `finally`: the controller and the broker finish their turn, however the turn ends. -/
def finish (result : Except PyStr ManagerTurn) (s : NativeManager) : NativeManager :=
  { s with
    taskTurn := s.taskTurn.map fun _ => false
    broker := s.broker.map DelegationBroker.finishTurn
    point := TurnPoint.idle
    last := some result }

/-- `chat.ask(text)` is called. -/
def ask (text : PyStr) (s : NativeManager) : NativeManager :=
  { s with point := TurnPoint.asking, log := TurnEvent.asked text :: s.log }

/-- `while broker is not None and (pending := broker.take_pending())`. -/
def drain (answer : PyStr) (s : NativeManager) : NativeManager :=
  match s.broker with
  | none => s.finish (Except.ok (replyOf answer))
  | some b =>
      match b.takePending with
      | ([], b) => { s with broker := some b }.finish (Except.ok (replyOf answer))
      | (pending, b) => { s with broker := some b, point := TurnPoint.guard pending }

/-- `for item in pending`. -/
def nextItem (results : List AgentResult) (pending : List PendingDelegation) (s : NativeManager) :
    NativeManager :=
  match pending with
  | [] => { s with point := TurnPoint.closing results }
  | item :: rest => { s with point := TurnPoint.itemGuard results item rest }

/-- `agents.run(item.task, item.agent_id)` is called. -/
def start (results : List AgentResult) (item : PendingDelegation)
    (rest : List PendingDelegation) (s : NativeManager) : NativeManager :=
  { s with point := TurnPoint.running results item rest, log := TurnEvent.started item :: s.log }

/-- What the manager is told about a task; a successful task without a text is left out. -/
def resultOf (item : PendingDelegation) (ok : Bool) (statusCode : ℤ) (text : PyStr) :
    List AgentResult :=
  if ok && (PyStr.strip text).isEmpty then []
  else
    [{ callId := item.callId, agentId := item.agentId, ok := ok, statusCode := statusCode
       result := text.take 4096 }]

/-- `outcome.status_code if outcome.state is AgentState.FREE else outcome.status_code or 1`. -/
def statusOf (outcome : NativeAgent.AgentOutcome) : ℤ :=
  if outcome.state = AgentState.free then outcome.statusCode
  else if outcome.statusCode = 0 then 1 else outcome.statusCode

/-- The report of a task that ended with a return or with an ordinary exception. -/
def reportOf (item : PendingDelegation) : AgentReply → List AgentResult
  | AgentReply.returned outcome =>
      resultOf item (statusOf outcome == 0) (statusOf outcome) outcome.text
  | AgentReply.raised message => resultOf item false 1 message
  | AgentReply.aborted _ => []

/-- The control message: `{"kind": "agent_results", "results": results}`. -/
def payload (results : List AgentResult) : PyStr :=
  -- No float occurs in it.
  Json.compact (fun _ => [])
    (Json.obj [("kind", Json.str "agent_results"),
      ("results", Json.arr (results.map fun r =>
        Json.obj [("call_id", Json.str r.callId), ("agent_id", Json.str r.agentId),
          ("ok", Json.bool r.ok), ("status_code", Json.int r.statusCode),
          ("result", Json.str r.result)]))])

/-- A new turn, whose record is empty. -/
def begin (text : PyStr) (s : NativeManager) : NativeManager :=
  match s.broker, s.taskTurn with
  | none, none => { s with point := TurnPoint.plain, log := [TurnEvent.asked text] }
  | broker, taskTurn =>
      match broker.mapM DelegationBroker.beginTurn with
      | Except.error message => { s with last := some (Except.error message) }
      | Except.ok broker =>
          if taskTurn = some true then
            -- `task_controller.begin_turn()` raises before the `try`: the broker stays in its turn.
            { s with
              broker := broker
              last := some (Except.error "Nested native TASK management turn") }
          else
            { s with broker := broker, taskTurn := taskTurn.map fun _ => true, log := [] }.ask text

/-- `_respond_turn(session_id, text, is_session_active)`, up to the first question. -/
def respond (text : PyStr) (reset : Except PyStr Unit) (s : NativeManager) : NativeManager :=
  if s.closed then { s with last := some (Except.error "Manager is closed") }
  else if PyStr.strip text = PyStr.ofString "/new" then
    match reset with
    | Except.error message => { s with last := some (Except.error message) }
    | Except.ok () =>
        { s with last := some (Except.ok ⟨"reply", "Контекст MANAGER сброшен до BASE."⟩) }
  else s.begin text

/-- A tool call is served. -/
def serve (args : EnqueueArgs) (controller : Json) (s : NativeManager) : NativeManager :=
  match s.broker with
  | none => s
  | some b =>
      let b' := (b.enqueue args fun _ => controller).2.2
      { s with
        broker := some b'
        log := ((b.queued b').map TurnEvent.accepted).reverse ++ s.log }

/-- `chat.ask` returns or raises. -/
def onAnswer (answer : Except PyStr PyStr) (s : NativeManager) : NativeManager :=
  let s := { s with log := TurnEvent.answered :: s.log }
  match answer with
  | Except.error message => s.finish (Except.error message)
  | Except.ok answer => s.drain answer

/-- `is_session_active` returns or raises; `next` is done if the session is active. -/
def onSession (active : Except PyStr Bool) (next : NativeManager → NativeManager)
    (s : NativeManager) : NativeManager :=
  match active with
  | Except.error message => s.finish (Except.error message)
  | Except.ok false => s.finish (Except.ok ManagerTurn.silent)
  | Except.ok true => next s

/-- `if not results: return ManagerTurn("silent")`, and otherwise the report. -/
def report (results : List AgentResult) (s : NativeManager) : NativeManager :=
  if results.isEmpty then s.finish (Except.ok ManagerTurn.silent) else s.ask (payload results)

/-- `agents.run` returns or raises. -/
def onAgent (reply : AgentReply) (results : List AgentResult) (item : PendingDelegation)
    (rest : List PendingDelegation) (s : NativeManager) : NativeManager :=
  let s := { s with log := TurnEvent.finished item :: s.log }
  match reply with
  | AgentReply.aborted message => s.finish (Except.error message)
  | reply => s.nextItem (results ++ reportOf item reply) rest

/-- One step. -/
def step (s : NativeManager) : ManagerInput → NativeManager
  | ManagerInput.respond text reset =>
      if s.point = TurnPoint.idle then s.respond text reset else s
  | ManagerInput.enqueue args controller => s.serve args controller
  | ManagerInput.setEnabled enabled =>
      { s with broker := s.broker.map fun b => { b with enabled := enabled } }
  | ManagerInput.close => { s with closed := true }
  | ManagerInput.answered answer =>
      match s.point with
      | TurnPoint.plain =>
          { s with
            point := TurnPoint.idle
            log := TurnEvent.answered :: s.log
            last := some (answer.map replyOf) }
      | TurnPoint.asking => s.onAnswer answer
      | _ => s
  | ManagerInput.session active =>
      match s.point with
      | TurnPoint.guard pending => s.onSession active (nextItem [] pending)
      | TurnPoint.itemGuard results item rest => s.onSession active (start results item rest)
      | TurnPoint.closing results => s.onSession active (report results)
      | _ => s
  | ManagerInput.agent reply =>
      match s.point with
      | TurnPoint.running results item rest => s.onAgent reply results item rest
      | _ => s

/-- The manager, from its creation on. -/
def machine : Machine NativeManager ManagerInput where
  init := fun s =>
    (∀ b, s.broker = some b →
      ∃ ids periodic, DelegationBroker.create ids periodic = Except.ok b) ∧
    s.taskTurn ≠ some true ∧ s.closed = false ∧ s.point = TurnPoint.idle ∧ s.log = [] ∧
    s.last = none
  step := step

end NativeManager

/-! ### What the record says -/

/-- What a turn has done, the newest first. -/
abbrev TurnLog := List TurnEvent

namespace TurnLog

/-- How often the manager has been asked. -/
def asks : TurnLog → ℕ
  | [] => 0
  | TurnEvent.asked _ :: l => asks l + 1
  | _ :: l => asks l

/-- The tasks that the broker has accepted, in that order. -/
def accepted : TurnLog → List PendingDelegation
  | [] => []
  | TurnEvent.accepted item :: l => accepted l ++ [item]
  | _ :: l => accepted l

/-- The tasks that have been started, in that order. -/
def started : TurnLog → List PendingDelegation
  | [] => []
  | TurnEvent.started item :: l => started l ++ [item]
  | _ :: l => started l

/-- The manager is being asked. -/
def inAsk : TurnLog → Bool
  | [] => false
  | TurnEvent.asked _ :: _ => true
  | TurnEvent.answered :: _ => false
  | _ :: l => inAsk l

/-- No task was started while the manager was being asked. -/
def Serial : TurnLog → Prop
  | [] => True
  | TurnEvent.started _ :: l => inAsk l = false ∧ Serial l
  | _ :: l => Serial l

end TurnLog

namespace TurnPoint

/-- A turn that can delegate is in progress. -/
def inTurn : TurnPoint → Bool
  | idle | plain => false
  | _ => true

/-- The turn waits for an answer of the manager. -/
def isAsking : TurnPoint → Bool
  | plain | asking => true
  | _ => false

/-- The tasks that the turn has taken and not yet started. -/
def inHand : TurnPoint → List PendingDelegation
  | guard pending => pending
  | itemGuard _ item rest => item :: rest
  | running _ _ rest => rest
  | _ => []

/-- How many more questions than tasks there may have been: after the tasks of a round, none. -/
def slack : TurnPoint → ℕ
  | running .. | closing _ => 0
  | _ => 1

/-- A turn that has taken tasks has taken at least one. -/
def HasTask : TurnPoint → Prop
  | guard pending => pending ≠ []
  | _ => True

end TurnPoint

namespace NativeManager

/-- The queued tasks. -/
def pending (s : NativeManager) : List PendingDelegation :=
  match s.broker with
  | none => []
  | some b => b.pending

/-- How many tasks have been accepted in the turn. -/
def count (s : NativeManager) : ℕ :=
  match s.broker with
  | none => 0
  | some b => b.count

/-! ### The invariant -/

/-- The tasks of the turn are numbered from one on, there are at most three, and none was started
while the manager was being asked. -/
structure Numbered (s : NativeManager) : Prop where
  count_le : s.count ≤ DelegationBroker.maxDelegationsPerTurn
  callIds : (TurnLog.accepted s.log).map PendingDelegation.callId =
    (List.range s.count).map fun i => DelegationBroker.callId (i + 1)
  serial : TurnLog.Serial s.log

/-- The invariant: what has been accepted has been started, is in hand or is queued. -/
structure Bounded (s : NativeManager) : Prop extends Numbered s where
  active : ∀ b, s.broker = some b → b.turnActive = s.point.inTurn
  task : ∀ t, s.taskTurn = some t → t = s.point.inTurn
  plain : s.point = TurnPoint.plain → s.broker = none
  split : s.point.inTurn = true →
    TurnLog.accepted s.log = TurnLog.started s.log ++ s.point.inHand ++ s.pending
  done : s.point.inTurn = false →
    s.pending = [] ∧ TurnLog.started s.log <+: TurnLog.accepted s.log
  asks_le : TurnLog.asks s.log ≤ (TurnLog.started s.log).length + s.point.slack
  inAsk : TurnLog.inAsk s.log = s.point.isAsking
  hasTask : s.point.HasTask

variable {s : NativeManager}

/-- Accepted tasks that are started at most in order are a beginning of the accepted ones. -/
theorem Bounded.started_prefix (hs : s.Bounded) :
    TurnLog.started s.log <+: TurnLog.accepted s.log := by
  cases hturn : s.point.inTurn with
  | false => exact (hs.done hturn).2
  | true =>
      rw [hs.split hturn, List.append_assoc]
      exact List.prefix_append _ _

theorem Numbered.length_accepted (hs : s.Numbered) :
    (TurnLog.accepted s.log).length = s.count := by
  have h := congrArg List.length hs.callIds
  rwa [List.length_map, List.length_map, List.length_range] at h

/-- No task is accepted twice. -/
theorem Numbered.nodup (hs : s.Numbered) : (TurnLog.accepted s.log).Nodup := by
  refine List.Nodup.of_map PendingDelegation.callId ?_
  rw [hs.callIds]
  refine List.Nodup.map ?_ List.nodup_range
  intro i j h
  exact Nat.succ_injective (DelegationBroker.callId_injective h)

@[simp] theorem count_finish {result : Except PyStr ManagerTurn} :
    (s.finish result).count = s.count := by
  obtain ⟨closed, broker, taskTurn, point, log, last⟩ := s
  cases broker <;> rfl

@[simp] theorem pending_finish {result : Except PyStr ManagerTurn} :
    (s.finish result).pending = [] := by
  obtain ⟨closed, broker, taskTurn, point, log, last⟩ := s
  cases broker <;> rfl

/-- **However a turn ends, nothing is left queued.** -/
theorem Numbered.finish {result : Except PyStr ManagerTurn} (hs : s.Numbered)
    (hstart : TurnLog.started s.log <+: TurnLog.accepted s.log)
    (hasks : TurnLog.asks s.log ≤ (TurnLog.started s.log).length + 1)
    (hidle : TurnLog.inAsk s.log = false) : (s.finish result).Bounded where
  count_le := by
    rw [count_finish]
    exact hs.count_le
  callIds := by
    rw [count_finish]
    exact hs.callIds
  serial := hs.serial
  active := by
    intro b hb
    obtain ⟨b', -, rfl⟩ := Option.map_eq_some_iff.1 hb
    rfl
  task := by
    intro t ht
    obtain ⟨t', -, rfl⟩ := Option.map_eq_some_iff.1 ht
    rfl
  plain := nofun
  split := nofun
  done := by
    intro _
    exact ⟨pending_finish, hstart⟩
  asks_le := hasks
  inAsk := hidle
  hasTask := trivial

/-- A turn that waits for the session or for an agent can end. -/
theorem Bounded.finish {result : Except PyStr ManagerTurn} (hs : s.Bounded)
    (hidle : s.point.isAsking = false) : (s.finish result).Bounded := by
  refine hs.toNumbered.finish hs.started_prefix ?_ (hs.inAsk.trans hidle)
  have h := hs.asks_le
  have hslack : s.point.slack ≤ 1 := by cases s.point <;> simp [TurnPoint.slack]
  omega

/-! ### The steps of a turn -/

/-- The first task of those in hand is looked at next. -/
theorem Bounded.nextItem_guard {tasks : List PendingDelegation} (hs : s.Bounded)
    (hpoint : s.point = TurnPoint.guard tasks) : (s.nextItem [] tasks).Bounded := by
  obtain ⟨hnumbered, hactive, htask, -, hsplit, -, hasks, hask, hne⟩ := hs
  simp only [hpoint] at *
  cases tasks with
  | nil => exact absurd rfl hne
  | cons item rest =>
      exact ⟨⟨hnumbered.1, hnumbered.2, hnumbered.3⟩, hactive, htask, nofun, hsplit, nofun, hasks,
        hask, trivial⟩

/-- A task is started. -/
theorem Bounded.start {results : List AgentResult} {item : PendingDelegation}
    {rest : List PendingDelegation} (hs : s.Bounded)
    (hpoint : s.point = TurnPoint.itemGuard results item rest) :
    (s.start results item rest).Bounded := by
  obtain ⟨hnumbered, hactive, htask, -, hsplit, -, hasks, hask, -⟩ := hs
  simp only [hpoint] at *
  refine ⟨⟨hnumbered.1, hnumbered.2, hask, hnumbered.3⟩, hactive, htask, nofun, ?_, nofun, ?_, hask,
    trivial⟩
  · intro _
    have h := hsplit rfl
    simp only [TurnPoint.inHand] at h
    simp only [NativeManager.start, TurnLog.accepted, TurnLog.started, TurnPoint.inHand, h,
      List.append_assoc, List.cons_append, List.nil_append]
    rfl
  · simp only [TurnPoint.slack] at hasks
    simp only [NativeManager.start, TurnLog.asks, TurnLog.started, TurnPoint.slack,
      List.length_append, List.length_singleton]
    exact hasks

/-- An agent has returned or raised. -/
theorem Bounded.onAgent {reply : AgentReply} {results : List AgentResult}
    {item : PendingDelegation} {rest : List PendingDelegation} (hs : s.Bounded)
    (hpoint : s.point = TurnPoint.running results item rest) :
    (s.onAgent reply results item rest).Bounded := by
  have hlater : { s with log := TurnEvent.finished item :: s.log }.Bounded :=
    ⟨⟨hs.count_le, hs.callIds, hs.serial⟩, hs.active, hs.task, hs.plain, hs.split, hs.done,
      hs.asks_le, hs.inAsk, hs.hasTask⟩
  have hnext : ∀ results', ({ s with log := TurnEvent.finished item :: s.log }.nextItem results'
      rest).Bounded := by
    intro results'
    obtain ⟨hnumbered, hactive, htask, -, hsplit, -, hasks, hask, -⟩ := hlater
    simp only [hpoint] at *
    cases rest with
    | nil =>
        exact ⟨⟨hnumbered.1, hnumbered.2, hnumbered.3⟩, hactive, htask, nofun, hsplit, nofun,
          hasks, hask, trivial⟩
    | cons next rest =>
        exact ⟨⟨hnumbered.1, hnumbered.2, hnumbered.3⟩, hactive, htask, nofun, hsplit, nofun,
          Nat.le_succ_of_le hasks, hask, trivial⟩
  cases reply with
  | returned outcome => exact hnext _
  | raised message => exact hnext _
  | aborted message => exact hlater.finish (by simp only [hpoint, TurnPoint.isAsking])

/-- The agents' results are reported, or there are none. -/
theorem Bounded.report {results : List AgentResult} (hs : s.Bounded)
    (hpoint : s.point = TurnPoint.closing results) : (s.report results).Bounded := by
  unfold NativeManager.report
  split_ifs
  · exact hs.finish (by rw [hpoint]; rfl)
  · obtain ⟨hnumbered, hactive, htask, -, hsplit, -, hasks, -, -⟩ := hs
    simp only [hpoint] at *
    exact ⟨⟨hnumbered.1, hnumbered.2, hnumbered.3⟩, hactive, htask, nofun, hsplit, nofun,
      Nat.succ_le_succ hasks, rfl, trivial⟩

/-- The session has been checked. -/
theorem Bounded.onSession {active : Except PyStr Bool} {next : NativeManager → NativeManager}
    (hs : s.Bounded) (hidle : s.point.isAsking = false) (hnext : (next s).Bounded) :
    (s.onSession active next).Bounded := by
  cases active with
  | error message => exact hs.finish hidle
  | ok active =>
      cases active with
      | false => exact hs.finish hidle
      | true => exact hnext

/-- The manager has answered. -/
theorem Bounded.onAnswer {answer : Except PyStr PyStr} (hs : s.Bounded)
    (hpoint : s.point = TurnPoint.asking) : (s.onAnswer answer).Bounded := by
  have hnumbered : Numbered { s with log := TurnEvent.answered :: s.log } :=
    ⟨hs.count_le, hs.callIds, hs.serial⟩
  have hasks := hs.asks_le
  rw [hpoint] at hasks
  have hfinish : ∀ result,
      ({ s with log := TurnEvent.answered :: s.log }.finish result).Bounded := fun result =>
    hnumbered.finish hs.started_prefix hasks rfl
  unfold NativeManager.onAnswer
  cases answer with
  | error message => exact hfinish _
  | ok answer =>
      simp only [drain]
      cases hbroker : s.broker with
      | none =>
          simp only [hbroker] at hfinish ⊢
          exact hfinish _
      | some b =>
          cases hpending : b.pending with
          | nil =>
              simp only [DelegationBroker.takePending, hpending]
              have hb : { b with pending := [] } = b := by rw [← hpending]
              rw [hb, ← hbroker]
              exact hfinish _
          | cons item rest =>
              simp only [DelegationBroker.takePending, hpending]
              have hsplit := hs.split (by rw [hpoint]; rfl)
              simp only [hpoint, TurnPoint.inHand, List.append_nil, pending, hbroker, hpending]
                at hsplit
              refine ⟨⟨?_, ?_, hs.serial⟩, ?_, ?_, nofun, ?_, nofun, hasks, rfl, List.cons_ne_nil _ _⟩
              · simpa only [count, hbroker] using hs.count_le
              · simpa only [count, hbroker, TurnLog.accepted] using hs.callIds
              · rintro _ ⟨⟩
                exact (hs.active b hbroker).trans (by rw [hpoint]; rfl)
              · intro t ht
                exact (hs.task t ht).trans (by rw [hpoint]; rfl)
              · intro _
                simp only [TurnLog.accepted, TurnLog.started, TurnPoint.inHand, pending,
                  List.append_nil]
                exact hsplit

/-! ### The other steps -/

/-- A tool call has been served. -/
theorem Bounded.serve {args : EnqueueArgs} {controller : Json} (hs : s.Bounded) :
    (s.serve args controller).Bounded := by
  unfold NativeManager.serve
  cases hbroker : s.broker with
  | none => exact hs
  | some b =>
      simp only
      rcases @DelegationBroker.enqueue_cases b args (fun _ => controller) with
        hsame | ⟨-, hactive, hroom, agentId, task, -, -, hqueue⟩
      · have hnone : b.queued b = [] := by simp [DelegationBroker.queued]
        rw [hsame, hnone, ← hbroker]
        exact hs
      · have hone : b.queued (b.queue agentId task) = [b.item agentId task] := by
          simp [DelegationBroker.queued, DelegationBroker.queue]
        rw [hqueue, hone]
        have hturn : s.point.inTurn = true := (hs.active b hbroker).symm.trans hactive
        have hids := hs.callIds
        simp only [count, hbroker] at hids
        refine ⟨⟨?_, ?_, hs.serial⟩, ?_, hs.task, ?_, ?_, ?_, hs.asks_le, hs.inAsk, hs.hasTask⟩
        · simp only [count, DelegationBroker.queue]
          exact hroom
        · simp only [List.map_cons, List.map_nil, List.reverse_singleton, List.singleton_append,
            TurnLog.accepted, List.map_append, hids, count, DelegationBroker.queue,
            DelegationBroker.item, List.range_succ]
        · rintro _ ⟨⟩
          exact hs.active b hbroker
        · intro hplain
          rw [hs.plain hplain] at hbroker
          cases hbroker
        · intro _
          have hsplit := hs.split hturn
          simp only [pending, hbroker] at hsplit
          simp only [List.map_cons, List.map_nil, List.reverse_singleton, List.singleton_append,
            TurnLog.accepted, TurnLog.started, hsplit, pending, DelegationBroker.queue,
            List.append_assoc]
        · intro hidle
          rw [hturn] at hidle
          cases hidle

/-- A turn begins, or it is refused. -/
theorem Bounded.begin {text : PyStr} (hs : s.Bounded) (hpoint : s.point = TurnPoint.idle) :
    (s.begin text).Bounded := by
  have hinactive : ∀ b, s.broker = some b → b.turnActive = false := fun b hb =>
    (hs.active b hb).trans (by rw [hpoint]; rfl)
  have hcontroller : s.taskTurn ≠ some true := by
    intro h
    have := hs.task true h
    rw [hpoint] at this
    cases this
  unfold NativeManager.begin
  split
  · next hbroker htask =>
      refine ⟨⟨?_, ?_, trivial⟩, ?_, ?_, fun _ => hbroker, nofun, ?_, le_rfl, rfl, trivial⟩
      · simp [count, hbroker]
      · simp [count, hbroker, TurnLog.accepted]
      · intro b hb
        rw [hbroker] at hb
        cases hb
      · intro t ht
        rw [htask] at ht
        cases ht
      · intro _
        exact ⟨by simp [pending, hbroker], List.prefix_rfl⟩
  · next broker taskTurn _ =>
      have hbegun : s.broker.mapM DelegationBroker.beginTurn = Except.ok
          (s.broker.map fun b => { b with turnActive := true, pending := [], count := 0 }) := by
        cases hbroker : s.broker with
        | none => rfl
        | some b =>
            simp only [Option.mapM_some, DelegationBroker.beginTurn, hinactive b hbroker,
              Bool.false_eq_true, if_false]
            rfl
      rw [hbegun]
      simp only [hcontroller, if_false]
      refine ⟨⟨?_, ?_, trivial⟩, ?_, ?_, nofun, ?_, nofun, le_rfl, rfl, trivial⟩
      · cases s.broker <;> simp [ask, count]
      · cases s.broker <;> simp [ask, count, TurnLog.accepted]
      · intro b hb
        obtain ⟨b', -, rfl⟩ := Option.map_eq_some_iff.1 hb
        rfl
      · intro t ht
        obtain ⟨t', -, rfl⟩ := Option.map_eq_some_iff.1 ht
        rfl
      · intro _
        cases s.broker <;>
          simp [ask, pending, TurnLog.accepted, TurnLog.started, TurnPoint.inHand]

/-- What a turn returned is not part of the invariant. -/
theorem Bounded.setLast {last : Option (Except PyStr ManagerTurn)} (hs : s.Bounded) :
    { s with last := last }.Bounded :=
  ⟨⟨hs.count_le, hs.callIds, hs.serial⟩, hs.active, hs.task, hs.plain, hs.split, hs.done,
    hs.asks_le, hs.inAsk, hs.hasTask⟩

/-- **Every step keeps the invariant.** -/
theorem Bounded.step (hs : s.Bounded) (i : ManagerInput) : (s.step i).Bounded := by
  cases i with
  | respond text reset =>
      simp only [NativeManager.step]
      split_ifs with hpoint
      · unfold respond
        split_ifs
        · exact hs.setLast
        · cases reset <;> exact hs.setLast
        · exact hs.begin hpoint
      · exact hs
  | enqueue args controller => exact hs.serve
  -- Enabling the broker touches neither its tasks nor the turn.
  | setEnabled enabled =>
      simp only [NativeManager.step]
      cases hbroker : s.broker with
      | none =>
          rw [Option.map_none, ← hbroker]
          exact hs
      | some b =>
          obtain ⟨hnumbered, hactive, htask, hplain, hsplit, hdone, hasks, hask, hhas⟩ := hs
          obtain ⟨hcount, hids, hserial⟩ := hnumbered
          simp only [count, pending, hbroker] at hcount hids hsplit hdone
          refine ⟨⟨hcount, hids, hserial⟩, ?_, htask, ?_, hsplit, hdone, hasks, hask, hhas⟩
          · rintro _ ⟨⟩
            exact hactive b hbroker
          · intro h
            rw [hplain h] at hbroker
            cases hbroker
  | close =>
      exact ⟨⟨hs.count_le, hs.callIds, hs.serial⟩, hs.active, hs.task, hs.plain, hs.split, hs.done,
        hs.asks_le, hs.inAsk, hs.hasTask⟩
  | answered answer =>
      simp only [NativeManager.step]
      cases hpoint : s.point with
      -- Without a broker the answer ends the turn.
      | plain =>
          have hbroker : s.broker = none := hs.plain hpoint
          refine ⟨⟨hs.count_le, hs.callIds, hs.serial⟩, ?_, ?_, nofun, nofun, ?_, ?_, rfl, trivial⟩
          · intro b hb
            rw [hbroker] at hb
            cases hb
          · intro t ht
            exact (hs.task t ht).trans (by rw [hpoint]; rfl)
          · intro _
            exact ⟨by simp [pending, hbroker], hs.started_prefix⟩
          · have h := hs.asks_le
            rw [hpoint] at h
            exact h
      | asking => exact hs.onAnswer hpoint
      | _ => exact hs
  | session active =>
      simp only [NativeManager.step]
      cases hpoint : s.point with
      | guard tasks => exact hs.onSession (by rw [hpoint]; rfl) (hs.nextItem_guard hpoint)
      | itemGuard results item rest => exact hs.onSession (by rw [hpoint]; rfl) (hs.start hpoint)
      | closing results => exact hs.onSession (by rw [hpoint]; rfl) (hs.report hpoint)
      | _ => exact hs
  | agent reply =>
      simp only [NativeManager.step]
      cases hpoint : s.point with
      | running results item rest => exact hs.onAgent hpoint
      | _ => exact hs

/-- **The invariant holds along every run.** -/
theorem bounded_of_reachable (h : machine.Reachable s) : s.Bounded := by
  refine h.invariant ?_ fun s i _ hs => hs.step i
  rintro s ⟨hbroker, htask, -, hpoint, hlog, -⟩
  have hfresh : ∀ b, s.broker = some b →
      b.turnActive = false ∧ b.count = 0 ∧ b.pending = [] := by
    intro b hb
    obtain ⟨ids, periodic, hcreate⟩ := hbroker b hb
    unfold DelegationBroker.create at hcreate
    split_ifs at hcreate
    cases hcreate
    exact ⟨rfl, rfl, rfl⟩
  have hcount : s.count = 0 := by
    unfold count
    cases hb : s.broker with
    | none => rfl
    | some b => exact (hfresh b hb).2.1
  have hpending : s.pending = [] := by
    unfold pending
    cases hb : s.broker with
    | none => rfl
    | some b => exact (hfresh b hb).2.2
  refine ⟨⟨by rw [hcount]; decide, by rw [hcount, hlog]; rfl, by rw [hlog]; trivial⟩, ?_, ?_, ?_,
    ?_, ?_, by rw [hlog]; exact Nat.zero_le _, by rw [hlog, hpoint]; rfl, by rw [hpoint]; trivial⟩
  · intro b hb
    rw [(hfresh b hb).1, hpoint]
    rfl
  · intro t ht
    rw [hpoint]
    cases t with
    | false => rfl
    | true => exact absurd ht htask
  · intro h
    rw [hpoint] at h
    cases h
  · intro h
    rw [hpoint] at h
    cases h
  · intro _
    exact ⟨hpending, by rw [hlog]; exact List.prefix_rfl⟩

/-! ### The end of a turn -/

/-- The input answers the call that the turn is waiting for. -/
def Answers : TurnPoint → ManagerInput → Bool
  | TurnPoint.plain, ManagerInput.answered _ => true
  | TurnPoint.asking, ManagerInput.answered _ => true
  | TurnPoint.guard _, ManagerInput.session _ => true
  | TurnPoint.itemGuard .., ManagerInput.session _ => true
  | TurnPoint.closing _, ManagerInput.session _ => true
  | TurnPoint.running .., ManagerInput.agent _ => true
  | _, _ => false

/-- How many of the inputs answer a call. -/
def answers : NativeManager → List ManagerInput → ℕ
  | _, [] => 0
  | s, i :: l => (if Answers s.point i then 1 else 0) + answers (s.step i) l

/-- The tasks that may still be started in the turn. -/
def room (s : NativeManager) : ℕ :=
  DelegationBroker.maxDelegationsPerTurn - s.count + s.pending.length + s.point.inHand.length

/-- How many answers may still come before the turn ends. -/
def work (s : NativeManager) : ℕ :=
  match s.point with
  | TurnPoint.idle => 0
  | TurnPoint.plain => 1
  | TurnPoint.asking => 5 * s.room + 1
  | TurnPoint.guard _ => 5 * s.room
  | TurnPoint.itemGuard .. => 5 * s.room - 1
  | TurnPoint.running .. => 5 * s.room + 3
  | TurnPoint.closing _ => 5 * s.room + 2

/-- A tool call leaves the work of a turn as it is. -/
theorem work_serve {args : EnqueueArgs} {controller : Json} :
    (s.serve args controller).work = s.work := by
  have hroom : (s.serve args controller).room = s.room := by
    unfold serve
    cases hbroker : s.broker with
    | none => rfl
    | some b =>
        simp only [room, count, pending, hbroker]
        rcases @DelegationBroker.enqueue_cases b args (fun _ => controller) with
          hsame | ⟨-, -, hlt, agentId, task, -, -, hqueue⟩
        · rw [hsame]
        · rw [hqueue]
          simp only [DelegationBroker.queue, List.length_append, List.length_singleton]
          omega
  have hpoint : (s.serve args controller).point = s.point := by
    unfold serve
    cases s.broker <;> rfl
  simp only [work, hroom, hpoint]

/-- A session that is active leads on; otherwise the turn ends. -/
theorem work_onSession {active : Except PyStr Bool} {next : NativeManager → NativeManager} {n : ℕ}
    (hnext : (next s).work ≤ n) : (s.onSession active next).work ≤ n := by
  cases active with
  | error message => exact Nat.zero_le _
  | ok active =>
      cases active with
      | false => exact Nat.zero_le _
      | true => exact hnext

/-- The model has answered: the tasks that are pending are in hand now, so that as many can still be
started as before. -/
theorem work_onAnswer (answer : Except PyStr PyStr) (hpoint : s.point = TurnPoint.asking) :
    (s.onAnswer answer).work + 1 ≤ s.work := by
  have hwork : s.work = 5 * s.room + 1 := by simp only [work, hpoint]
  rw [hwork]
  cases answer with
  | error message => exact Nat.succ_le_succ (Nat.zero_le _)
  | ok answer =>
      simp only [onAnswer, drain]
      cases hbroker : s.broker with
      | none => exact Nat.succ_le_succ (Nat.zero_le _)
      | some b =>
          cases hpending : b.pending with
          | nil =>
              simp only [DelegationBroker.takePending, hpending]
              exact Nat.succ_le_succ (Nat.zero_le _)
          | cons item rest =>
              simp only [DelegationBroker.takePending, hpending, work, room, count, pending,
                hbroker, hpoint, TurnPoint.inHand, List.length_cons, List.length_nil]
              omega

/-- An agent has run: the item it was for is no longer in hand. -/
theorem work_nextItem {results : List AgentResult} {item : PendingDelegation}
    {rest : List PendingDelegation} (hpoint : s.point = TurnPoint.running results item rest)
    (results' : List AgentResult) :
    ({ s with log := TurnEvent.finished item :: s.log }.nextItem results' rest).work ≤
      5 * s.room + 2 := by
  cases rest with
  | nil =>
      simp only [nextItem, work, room, count, pending, hpoint, TurnPoint.inHand]
      exact le_rfl
  | cons next rest =>
      simp only [nextItem, work, room, count, pending, hpoint, TurnPoint.inHand]
      omega

/-- **An answer takes a turn nearer to its end.** -/
theorem work_step {i : ManagerInput} (hs : s.Bounded)
    (hanswers : Answers s.point i = true) : (s.step i).work + 1 ≤ s.work := by
  cases hpoint : s.point with
  | idle =>
      rw [hpoint] at hanswers
      cases i <;> cases hanswers
  | plain =>
      rw [hpoint] at hanswers
      cases i with
      | answered answer => simp only [step, hpoint, work]; exact le_rfl
      | _ => cases hanswers
  | asking =>
      rw [hpoint] at hanswers
      cases i with
      | answered answer =>
          simp only [step, hpoint]
          exact work_onAnswer answer hpoint
      | _ => cases hanswers
  | guard tasks =>
      rw [hpoint] at hanswers
      cases i with
      | session active =>
          simp only [step, hpoint]
          have hne := hs.hasTask
          rw [hpoint] at hne
          cases tasks with
          | nil => exact absurd rfl hne
          | cons item rest =>
              have hwork : s.work = 5 * s.room := by simp only [work, hpoint]
              have hroom : 1 ≤ s.room := by
                simp only [room, hpoint, TurnPoint.inHand, List.length_cons]
                omega
              have hnext : (s.nextItem [] (item :: rest)).work ≤ 5 * s.room - 1 := by
                simp only [nextItem, work, room, count, pending, hpoint, TurnPoint.inHand]
                exact le_rfl
              have h := @work_onSession _ active _ _ hnext
              omega
      | _ => cases hanswers
  | itemGuard results item rest =>
      rw [hpoint] at hanswers
      cases i with
      | session active =>
          simp only [step, hpoint]
          have hwork : s.work = 5 * s.room - 1 := by simp only [work, hpoint]
          have hnext : (s.start results item rest).work ≤ 5 * s.room - 2 := by
            simp only [start, work, room, count, pending, hpoint, TurnPoint.inHand,
              List.length_cons]
            omega
          have hpositive : 1 ≤ s.room := by
            simp only [room, hpoint, TurnPoint.inHand, List.length_cons]
            omega
          have h := @work_onSession _ active _ _ hnext
          omega
      | _ => cases hanswers
  | running results item rest =>
      rw [hpoint] at hanswers
      cases i with
      | agent reply =>
          simp only [step, hpoint]
          have hwork : s.work = 5 * s.room + 3 := by simp only [work, hpoint]
          have hnext := work_nextItem hpoint
          rw [hwork]
          cases reply with
          | aborted message => exact Nat.succ_le_succ (Nat.zero_le _)
          | returned outcome => exact Nat.succ_le_succ (hnext _)
          | raised message => exact Nat.succ_le_succ (hnext _)
      | _ => cases hanswers
  | closing results =>
      rw [hpoint] at hanswers
      cases i with
      | session active =>
          simp only [step, hpoint]
          have hwork : s.work = 5 * s.room + 2 := by simp only [work, hpoint]
          have hnext : (s.report results).work ≤ 5 * s.room + 1 := by
            unfold report
            split_ifs
            · exact Nat.zero_le _
            · simp only [ask, work, room, count, pending, hpoint, TurnPoint.inHand]
              exact le_rfl
          have h := @work_onSession _ active _ _ hnext
          omega
      | _ => cases hanswers

/-- Nothing else takes it farther away. -/
theorem work_step_le {i : ManagerInput} (hs : s.Bounded) (hturn : s.point ≠ TurnPoint.idle) :
    (s.step i).work ≤ s.work := by
  cases hanswers : Answers s.point i with
  | true => exact Nat.le_of_succ_le (work_step hs hanswers)
  | false =>
      cases i with
      | respond text reset => simp only [step, hturn, if_false, le_refl]
      | enqueue args controller => exact work_serve.le
      | setEnabled enabled =>
          cases hbroker : s.broker <;>
            simp only [step, hbroker, Option.map_none, Option.map_some, work, room, count, pending,
              le_refl]
      | close => exact le_rfl
      | answered answer =>
          simp only [step]
          cases hpoint : s.point with
          | plain => rw [hpoint] at hanswers; cases hanswers
          | asking => rw [hpoint] at hanswers; cases hanswers
          | _ => exact le_rfl
      | session active =>
          simp only [step]
          cases hpoint : s.point with
          | guard tasks => rw [hpoint] at hanswers; cases hanswers
          | itemGuard results item rest => rw [hpoint] at hanswers; cases hanswers
          | closing results => rw [hpoint] at hanswers; cases hanswers
          | _ => exact le_rfl
      | agent reply =>
          simp only [step]
          cases hpoint : s.point with
          | running results item rest => rw [hpoint] at hanswers; cases hanswers
          | _ => exact le_rfl

/-- **A turn that is given more answers than it has work left has ended in between.** -/
theorem exists_idle (hs : s.Bounded) {l : List ManagerInput} (hl : s.work < answers s l) :
    ∃ l₁ l₂, l = l₁ ++ l₂ ∧ (machine.exec s l₁).point = TurnPoint.idle := by
  induction l generalizing s with
  | nil => exact absurd hl (Nat.not_lt_zero _)
  | cons i l ih =>
      by_cases hidle : s.point = TurnPoint.idle
      · exact ⟨[], i :: l, rfl, hidle⟩
      have hrest : (s.step i).work < answers (s.step i) l := by
        simp only [answers] at hl
        cases hanswers : Answers s.point i with
        | true =>
            have h := work_step hs hanswers
            simp only [hanswers, if_true] at hl
            omega
        | false =>
            have h := work_step_le (i := i) hs hidle
            simp only [hanswers, Bool.false_eq_true, if_false] at hl
            omega
      obtain ⟨l₁, l₂, hsplit, hpoint⟩ := ih (hs.step i) hrest
      exact ⟨i :: l₁, l₂, by rw [hsplit, List.cons_append], hpoint⟩

theorem Bounded.work_le (hs : s.Bounded) : s.work ≤ 18 := by
  have hroom : s.point.inTurn = true → s.room ≤ 3 := by
    intro hturn
    have hlength := congrArg List.length (hs.split hturn)
    rw [hs.toNumbered.length_accepted] at hlength
    simp only [List.length_append] at hlength
    simp only [room, DelegationBroker.maxDelegationsPerTurn]
    have hcount : s.count ≤ 3 := hs.count_le
    omega
  cases hpoint : s.point with
  | idle => simp only [work, hpoint]; omega
  | plain => simp only [work, hpoint]; omega
  | _ =>
      have h := hroom (by rw [hpoint]; rfl)
      simp only [work, hpoint]
      omega

/-- **Whatever the manager and the agents do, a turn runs at most three agents and asks at most
four times.  Every accepted task is started at most once, in the order of the queue, in the turn
that queued it and not while the manager is being asked.  After eighteen answers the turn has
ended, and then nothing is queued and `enqueue` refuses.** -/
theorem turns_bounded (h : machine.Reachable s) :
    (TurnLog.started s.log).length ≤ 3 ∧ TurnLog.asks s.log ≤ 4 ∧
      TurnLog.started s.log <+: TurnLog.accepted s.log ∧ (TurnLog.accepted s.log).Nodup ∧
      TurnLog.Serial s.log ∧
      (s.point = TurnPoint.idle → ∀ b, s.broker = some b → b.pending = [] ∧
        ∀ args controller,
          b.enqueue args controller =
              ([], DelegationBroker.refusal "delegation_disabled_during_warm", b) ∨
            b.enqueue args controller =
              ([], DelegationBroker.refusal "no_active_manager_turn", b)) ∧
      ∀ l, 18 < answers s l →
        ∃ l₁ l₂, l = l₁ ++ l₂ ∧ (machine.exec s l₁).point = TurnPoint.idle := by
  have hs := bounded_of_reachable h
  have hstarted : (TurnLog.started s.log).length ≤ 3 :=
    calc
      _ ≤ (TurnLog.accepted s.log).length := hs.started_prefix.length_le
      _ = s.count := hs.toNumbered.length_accepted
      _ ≤ 3 := hs.count_le
  refine ⟨hstarted, ?_, hs.started_prefix, hs.toNumbered.nodup, hs.serial, ?_, ?_⟩
  · have hasks := hs.asks_le
    have hslack : s.point.slack ≤ 1 := by cases s.point <;> simp [TurnPoint.slack]
    omega
  · intro hidle b hb
    have hinactive : b.turnActive = false := (hs.active b hb).trans (by rw [hidle]; rfl)
    have hpending := (hs.done (by rw [hidle]; rfl)).1
    simp only [pending, hb] at hpending
    exact ⟨hpending, fun args controller => DelegationBroker.enqueue_of_inactive hinactive⟩
  · intro l hl
    exact exists_idle hs (lt_of_le_of_lt hs.work_le hl)

/-- A manager with one agent, before its first message. -/
def sample : NativeManager where
  closed := false
  broker := some
    { agentIds := ["a"], periodicController := false, enabled := false, turnActive := false
      count := 0, pending := [] }
  taskTurn := none
  point := TurnPoint.idle
  log := []
  last := none

/-- One task is queued while the manager answers, and it is run. -/
def oneTask : List ManagerInput :=
  [ManagerInput.setEnabled true, ManagerInput.respond "hi" (Except.ok ()),
    ManagerInput.enqueue { agentId := Json.str "a", task := Json.str "go" } Json.null,
    ManagerInput.answered (Except.ok "ok"), ManagerInput.session (Except.ok true),
    ManagerInput.session (Except.ok true)]

theorem turns_bounded_oneTask : (TurnLog.started (machine.exec sample oneTask).log).length = 1 ∧
    TurnLog.asks (machine.exec sample oneTask).log ≤ 4 :=
  have hinit : machine.init sample :=
    ⟨by rintro _ ⟨⟩; exact ⟨["a"], false, rfl⟩, by decide, rfl, rfl, rfl, rfl⟩
  ⟨by decide, (turns_bounded (Machine.Reachable.exec (Machine.Reach.of_init hinit) oneTask)).2.1⟩

end NativeManager
