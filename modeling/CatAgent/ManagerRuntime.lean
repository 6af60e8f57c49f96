/-
**The manager and its workers.**

The manager of the core answers a user, or reports the result of a query, in a dialogue with its
model.  An answer of the model may be a command; a task that is to be done at once is given to a
worker of the pool, and so are the tasks that are due.  Every request is a generator that is advanced
from one `yield` to the next, while the generators of other requests are suspended, and that may be
closed at any `yield`.

The model, the tools, the task service and the files of the prompts are the outside world: what they
do until the next `yield` is the value of type `ManagerEnv` that the generator is advanced with.

Main definitions:

* `AgentPool` — the workers;
* `ManagerContext` — the dialogue of one user;
* `ManagerEnv` — the outside world;
* `ManagerRuntime.resume`, `ManagerRuntime.stepTask` — a generator goes on;
* `ManagerSystem`, `ManagerSystem.machine` — the requests, in any order.

Main results:

* `ManagerRuntime.moves_resume`, `ManagerRuntime.moves_stepTask` — which workers a generator takes
  and gives back;
* `ManagerSystem.workers_leased` — **a worker is at work exactly for one request**, and when all
  requests have ended, all workers are free.
-/

import CatAgent.AgentWorker
import CatAgent.CoreScheduler
import CatAgent.Leasing
import CatAgent.ShellWords
import CatAgent.ToolDispatcher

set_option relaxedAutoImplicit false
set_option autoImplicit false

open AgentWorker (State Status Outcome Raised StepEnv BeginEnv ChatAnswer ToolAnswer
  ScriptResult)

/-! ### The pool -/

/-- `AgentPool`: the workers in the order of their configuration. -/
structure AgentPool where
  workers : PyDict PyStr AgentWorker
  eventWorkerId : Option PyStr

namespace AgentPool

variable (pool : AgentPool)

/-- `acquire`: the first free worker that is not kept for events. -/
def acquire : Option (PyStr × AgentWorker) :=
  pool.workers.entries.find? fun e =>
    decide (pool.eventWorkerId ≠ some e.1) && decide (e.2.state = State.free)

/-- `acquire_event`. -/
def acquireEvent : Option (PyStr × AgentWorker) :=
  match pool.eventWorkerId with
  | some id =>
      match pool.workers.get? id with
      | some w => if w.state = State.free then some (id, w) else none
      | none => none
  | none => pool.acquire

/-- A worker has changed. -/
def put (id : PyStr) (w : AgentWorker) : AgentPool :=
  { pool with workers := pool.workers.set id w }

/-- The worker is not free. -/
def Busy (id : PyStr) : Prop := ∃ w, pool.workers.get? id = some w ∧ w.state ≠ State.free

end AgentPool

/-! ### Dialogues -/

/-- The state of one dialogue, with a record of the message lists that the model was given since the
request began. -/
structure ManagerContext where
  /-- `messages`; the first one is `_base_messages`. -/
  dialogue : AgentWorker.Dialogue
  chatMode : Bool
  closeChatAfterReply : Bool
  waitingForWorker : Bool
  activeRequestText : PyStr
  asked : List (List ChatMessage)

namespace ManagerContext

variable (context : ManagerContext)

/-- The blocks of a content. -/
def blocks : ChatContent → List ContentPart
  | ChatContent.text s => [ContentPart.text s]
  | ChatContent.parts l => l

/-- The content of a message of the user that another one follows. -/
def joined (previous content : ChatContent) : ChatContent :=
  match previous, content with
  | ChatContent.text before, ChatContent.text after =>
      let before := before.rdropWhile PyStr.isSpace
      if before = [] then ChatContent.text after
      else ChatContent.text (before ++ PyStr.ofString "\n\n" ++ after)
  | _, _ => ChatContent.parts (blocks previous ++ blocks content)

/-- A text without the white space around it. -/
def stripped : ChatContent → ChatContent
  | ChatContent.text s => ChatContent.text (PyStr.strip s)
  | ChatContent.parts l => ChatContent.parts l

/-- The last message. -/
def last : ChatMessage := context.dialogue.turns.getLast?.getD context.dialogue.base

/-- `_append_user`. -/
def appendUser (content : ChatContent) : ManagerContext :=
  let content := stripped content
  { context with dialogue :=
      match context.dialogue.turns.getLast? with
      | some m =>
          if m.role = ChatRole.user then
            { context.dialogue with
              turns := context.dialogue.turns.dropLast ++ [{ m with content := joined m.content content }] }
          else context.dialogue.append ChatRole.user content
      | none => context.dialogue.append ChatRole.user content }

/-- `_append_user` of a text. -/
def told (text : PyStr) : ManagerContext := context.appendUser (ChatContent.text text)

/-- `_reset_to_base`; what the reset of the client raises is caught. -/
def resetToBase : ManagerContext :=
  { context with dialogue := { context.dialogue with turns := [] } }

/-- `_abort_context`. -/
def abortContext : ManagerContext :=
  { context with chatMode := false, closeChatAfterReply := false }.resetToBase

end ManagerContext

/-! ### The outside world -/

/-- What the outside world does until the next `yield`. -/
structure ManagerEnv where
  /-- The model of the manager and its tools. -/
  tools : StepEnv
  /-- The model of a worker and its tools, in one step. -/
  step : StepEnv
  /-- The same in the steps that `start` drives; after the last one the model raises. -/
  drive : List StepEnv
  /-- `begin` of a worker. -/
  prep : BeginEnv
  /-- `reset_to_base` of a worker that goes to sleep raises. -/
  sleepRaises : Bool
  /-- The exception of a worker is a `ValueError`, an `IndexError` or a `SkillBaseError`. -/
  caught : Raised → Bool
  /-- `str(exc)`. -/
  describe : Raised → PyStr
  /-- What the parser makes of the forms that other managers use: an error, or an action. -/
  legacy : PyStr → Option PyStr
  /-- `float(s)`, unless it raises. -/
  float : PyStr → Option PyNumber
  /-- The messages of `float(s)`, `argv[1]` and `argv.index`. -/
  floatText : PyStr → PyStr
  indexText : PyStr
  missingText : PyStr
  /-- `casefold`. -/
  casefold : PyStr → PyStr
  /-- `event.manager_text()`. -/
  eventText : PyStr
  /-- `skill_base.require`: the message of its error. -/
  require : List PyStr → Option PyStr
  /-- `task_store` is configured. -/
  store : Bool
  /-- `task_store.require`: there is nothing inside if it raises a `TaskStoreError`, and nothing at
  all if it raises something else. -/
  stored : Option (Option TaskRecord)
  /-- `task_store.get`, unless it raises. -/
  current : Option (Option TaskRecord)
  /-- `event_store.resolve`: the command of the binding. -/
  binding : Option PyStr
  /-- `mqtt_catalog.require`: the message of its error. -/
  catalog : PyStr → PyStr → Option PyStr
  /-- `create_external_task` and `create_periodic_task`: the task, or the message of an error that
  is expected; there is nothing if they raise something else. -/
  createExternal : Option (Except PyStr ℤ)
  createPeriodic : Option (Except PyStr ℤ)
  /-- `_execute_timer_command`. -/
  timer : PyStr

/-! ### Generators -/

/-- Where the dialogue of the manager is suspended: the step, and what it still needs. -/
inductive ManagerPoint where
  | responded (step : ℕ) (content : PyStr)
  | told (step : ℕ)
  | waiting (step : ℕ) (text : PyStr) (skills : List PyStr)
  | working (step : ℕ) (worker : PyStr)
  | partly (step : ℕ) (command : PyStr)
  | script (step : ℕ) (command : PyStr)
deriving DecidableEq

/-- The worker that is at work for it. -/
def ManagerPoint.worker? : ManagerPoint → Option PyStr
  | working _ id => some id
  | _ => none

/-- What a generator has done when control comes back: it stands at a `yield`, or it has ended. -/
inductive Progress (π α : Type) where
  | paused (point : π)
  | returned (a : α)
  | raised
deriving DecidableEq

/-- A function that does not suspend has returned or raised. -/
def Progress.of {π α : Type} : Option α → Progress π α
  | some a => returned a
  | none => raised

/-- The worker that is at work for a generator. -/
def Progress.worker? {π α : Type} (f : π → Option PyStr) : Progress π α → Option PyStr
  | paused point => f point
  | _ => none

/-- What the generator of a dialogue works on. -/
structure ManagerState where
  pool : AgentPool
  context : ManagerContext

namespace ManagerRuntime

variable (env : ManagerEnv) (maxSteps : ℕ)

/-! #### Workers -/

/-- `if worker.state is not AgentState.FREE: worker.sleep_to_base()`. -/
def toBase (w : AgentWorker) : AgentWorker :=
  if w.state = State.free then w else w.sleepToBase env.sleepRaises

/-- `_drive`. -/
def drive : List StepEnv → AgentWorker → Except Raised Outcome × AgentWorker
  | [], w => (Except.error Raised.client, w)
  | e :: l, w =>
      match w.advance e with
      | (Except.ok none, w) => drive l w
      | (Except.ok (some outcome), w) => (Except.ok outcome, w)
      | (Except.error x, w) => (Except.error x, w)

/-- The answers that begin with `SYSTEM_ERROR`. -/
def systemError (text : PyStr) : PyStr := PyStr.ofString "SYSTEM_ERROR\n" ++ text

/-- The answer to a task that was created. -/
def created (taskId : ℤ) : PyStr :=
  PyStr.ofString "SYSTEM_OK\nTASK " ++ PyStr.ofString (toString taskId) ++
    PyStr.ofString " created and started"

/-- `AgentOutcome.status`. -/
def statusText : Status → PyStr
  | Status.ok => "OK"
  | Status.need => "NEED"
  | Status.failed => "FAILED"

/-- `outcome.text or outcome.status`. -/
def outcomeText (outcome : Outcome) : PyStr :=
  if outcome.text = [] then statusText outcome.status else outcome.text

/-- What a command returns, a content or nothing, if it does not raise. -/
abbrev Said := Option (Option ChatContent)

/-- A text is returned. -/
def say (text : PyStr) : Said := some (some (ChatContent.text text))

/-- `text.strip() or None`. -/
def sayStripped (text : PyStr) : Said :=
  if PyStr.strip text = [] then some none else say (PyStr.strip text)

/-- `_run_one_shot_agent`, for a query. -/
def runOneShotAgent (text : PyStr) (skills : List PyStr) (pool : AgentPool) : Said × AgentPool :=
  match pool.acquire with
  | none => (say (systemError "нет свободного агента"), pool)
  | some (id, w) =>
      match w.begin env.prep text skills (some "query") with
      | (Except.error e, w) => (say (systemError (env.describe e)), pool.put id (toBase env w))
      | (Except.ok (), w) =>
          match drive env.drive w with
          | (Except.error e, w) => (say (systemError (env.describe e)), pool.put id (toBase env w))
          | (Except.ok outcome, w) =>
              match outcome.status with
              | Status.need =>
                  (say (systemError (PyStr.ofString "агенту не хватает данных: " ++ outcome.text)),
                    pool.put id (w.sleepToBase env.sleepRaises))
              | Status.failed => (say (systemError (outcomeText outcome)), pool.put id w)
              | Status.ok => (sayStripped outcome.text, pool.put id w)

/-- What `_create_external_task` makes of the command that the worker has planned. -/
def createBinding (command : PyStr) : Said :=
  match ShellWords.split command with
  | Except.error text => say (systemError (PyStr.ofString "invalid agent mqtt command: " ++ text))
  | Except.ok [name, topic, field] =>
      if name ≠ "mqtt_sub.sh" then
        say (systemError
          "external MQTT event requires agent command mqtt_sub.sh TOPIC FIELD")
      else
        match env.catalog topic field with
        | some text => say (systemError text)
        | none =>
            match env.createExternal with
            | none => none
            | some (Except.error text) => say (systemError text)
            | some (Except.ok taskId) => say (created taskId)
  | Except.ok _ =>
      say (systemError "external MQTT event requires agent command mqtt_sub.sh TOPIC FIELD")

/-- `_create_external_task`, for a query. -/
def createExternalTask (text : PyStr) (skills : List PyStr) (pool : AgentPool) :
    Said × AgentPool :=
  if PyStr.ofString "mqtt" ∉ skills then
    (say (systemError "external event currently requires mqtt tool"), pool)
  else if env.store = false then (say (systemError "task store is not configured"), pool)
  else
    match pool.acquireEvent with
    | none => (say (systemError "нет свободного событийного агента"), pool)
    | some (id, w) =>
        match w.planFirstCommand env.step env.prep text skills (some "query") with
        | (Except.error e, w) => (say (systemError (env.describe e)), pool.put id (toBase env w))
        | (Except.ok command, w) => (createBinding env command, pool.put id w)

/-! #### Commands -/

/-- The commands that create tasks. -/
def isTaskTimer (name : PyStr) : Bool :=
  decide (name = "task_timer.sh") || decide (name = "query_timer.sh")

/-- `argv.index("--", 2)`. -/
def separator (argv : List PyStr) : Option ℕ :=
  ((argv.drop 2).findIdx? fun arg : PyStr => decide (arg = "--")).map fun n => n + 2

/-- The executor that the names of the tools give, and the names without it; there is nothing if the
option has no value. -/
def executorOf (names : List PyStr) : Option (PyStr × List PyStr) :=
  match names.findIdx? fun name : PyStr => decide (name = "--executor") with
  | none => some ("auto", names)
  | some n => (names[n + 1]?).map fun executor => (executor, (names.eraseIdx n).eraseIdx n)

/-- The period of a task: at once, when something happens, or regularly. -/
inductive TaskPeriod where
  | once
  | external
  | periodic

/-- `float(argv[1])`, if it is a period. -/
def taskPeriod (text : PyStr) : Option TaskPeriod :=
  match env.float text with
  | some (PyNumber.finite q) =>
      if q < -1 ∨ (-1 < q ∧ q < 0) then none
      else if q = 0 then some TaskPeriod.once
      else if q = -1 then some TaskPeriod.external
      else some TaskPeriod.periodic
  | _ => none

/-- `_execute_task_command`. -/
def executeTaskCommand (period : PyStr) (names : List PyStr) (text executor : PyStr)
    (pool : AgentPool) : Said × AgentPool :=
  if executor ∉ ["auto", "litert", "openai"].map PyStr.ofString then
    (say (systemError "executor must be auto, litert or openai"), pool)
  else if names = [] then
    (say (systemError "usage: task_timer.sh|query_timer.sh PERIOD TOOLS TEXT"), pool)
  else
    match taskPeriod env period with
    | none => (say (systemError "period_seconds must be -1, 0 or > 0"), pool)
    | some kind =>
        let skills := (names.map PyStr.strip).filter fun name => decide (name ≠ [])
        if skills = [] ∨ ¬ skills.Nodup then (say (systemError "invalid tool list"), pool)
        else if PyStr.strip text = [] then
          (say (systemError "task text must be non-empty"), pool)
        else
          match env.require skills with
          | some error => (say (systemError error), pool)
          | none =>
              match kind with
              | TaskPeriod.once => runOneShotAgent env (PyStr.strip text) skills pool
              | TaskPeriod.external => createExternalTask env (PyStr.strip text) skills pool
              | TaskPeriod.periodic =>
                  match env.createPeriodic with
                  | none => (none, pool)
                  | some (Except.error error) => (say (systemError error), pool)
                  | some (Except.ok taskId) => (say (created taskId), pool)

/-- What `task_timer.sh` and `query_timer.sh` say about their arguments. -/
def taskTimerUsage : PyStr :=
  systemError "usage: task_timer.sh|query_timer.sh PERIOD TOOLS -- TEXT"

/-- The end of `_execute_work_command_steps`: the words of the command. -/
def runCommand (command : PyStr) (pool : AgentPool) : Said × AgentPool :=
  match ShellWords.split command with
  | Except.error text => (say (systemError (PyStr.ofString "invalid command syntax: " ++ text)), pool)
  | Except.ok [] => (say (systemError "empty command"), pool)
  | Except.ok (name :: arguments) =>
      if isTaskTimer name then
        match separator (name :: arguments) with
        | none => (say taskTimerUsage, pool)
        | some n =>
            if n < 3 ∨ n + 2 ≠ (name :: arguments).length then (say taskTimerUsage, pool)
            else
              match executorOf ((arguments.take (n - 1)).drop 1) with
              | none => (say taskTimerUsage, pool)
              | some (executor, names) =>
                  executeTaskCommand env (arguments.headD []) names (arguments.getLastD []) executor
                    pool
      else if name = "timer.sh" then (say env.timer, pool)
      else
        match env.tools.execute with
        | none => (none, pool)
        | some result => (say result.formatted, pool)

/-- What a generator has done: it stands at a `yield`, or it has returned what a command returns. -/
abbrev Answer := Progress ManagerPoint (Option ChatContent)

/-- From `skill_script_steps` on. -/
def runScript (step : ℕ) (command : PyStr) (pool : AgentPool) : Answer × AgentPool :=
  match env.tools.script with
  | ToolAnswer.boundary => (Progress.paused (ManagerPoint.script step command), pool)
  | ToolAnswer.raised => (Progress.raised, pool)
  | ToolAnswer.returned (some ScriptResult.silent) => (Progress.returned none, pool)
  | ToolAnswer.returned (some (ScriptResult.content content)) =>
      (Progress.returned (some content), pool)
  | ToolAnswer.returned none =>
      let r := runCommand env command pool
      (Progress.of r.1, r.2)

/-- From `read_partly_steps` on. -/
def runPartly (step : ℕ) (command : PyStr) (pool : AgentPool) : Answer × AgentPool :=
  match env.tools.partly with
  | ToolAnswer.boundary => (Progress.paused (ManagerPoint.partly step command), pool)
  | ToolAnswer.raised => (Progress.raised, pool)
  | ToolAnswer.returned (some text) => (Progress.of (say text), pool)
  | ToolAnswer.returned none => runScript env step command pool

/-- `_execute_work_command_steps`. -/
def executeWorkCommand (step : ℕ) (command : PyStr) (pool : AgentPool) : Answer × AgentPool :=
  match env.tools.dispatch with
  | none => (Progress.raised, pool)
  | some (some text) => (Progress.of (say text), pool)
  | some none =>
      match env.tools.picture with
      | none => (Progress.raised, pool)
      | some (some content) => (Progress.returned (some content), pool)
      | some none => runPartly env step command pool

/-! #### A task that is done at once -/

/-- An exception of a worker: the answer, if it is caught. -/
def workRaised (e : Raised) : Said :=
  if env.caught e then say (systemError (env.describe e)) else none

/-- One step of the worker that does the task; it goes back to its base on every way out but the
`yield`. -/
def stepWorker (step : ℕ) (id : PyStr) (w : AgentWorker) (pool : AgentPool) : Answer × AgentPool :=
  match w.advance env.step with
  | (Except.ok none, w) => (Progress.paused (ManagerPoint.working step id), pool.put id w)
  | (Except.ok (some outcome), w) =>
      (Progress.of
          (if outcome.status = Status.ok then sayStripped outcome.text
            else say (systemError (outcomeText outcome))),
        pool.put id (toBase env w))
  | (Except.error e, w) => (Progress.of (workRaised env e), pool.put id (toBase env w))

/-- A worker is taken, or waited for. -/
def startWork (step : ℕ) (text : PyStr) (skills : List PyStr) (s : ManagerState) :
    Answer × ManagerState :=
  match s.pool.acquire with
  | none =>
      (Progress.paused (ManagerPoint.waiting step text skills),
        { s with context := { s.context with waitingForWorker := true } })
  | some (id, w) =>
      let context := { s.context with waitingForWorker := false }
      match w.begin env.prep text skills (some "query") with
      | (Except.error e, w) => (Progress.of (workRaised env e), ⟨s.pool.put id w, context⟩)
      | (Except.ok (), w) =>
          let r := stepWorker env step id w s.pool
          (r.1, ⟨r.2, context⟩)

/-- The task that is to be done at once: its text and its tools, or the message of the error. -/
def taskAtOnce (argv : List PyStr) : Except PyStr (PyStr × List PyStr) :=
  match separator argv with
  | none => Except.error env.missingText
  | some n =>
      if n < 3 ∨ n + 2 ≠ argv.length then
        Except.error "usage: task_timer.sh 0 TOOLS -- TEXT"
      else
        let names := (argv.take n).drop 2
        if ¬ names.Nodup ∨ PyStr.strip (argv.getLastD []) = [] then
          Except.error "invalid task or tool list"
        else
          match env.require names with
          | some text => Except.error text
          | none => Except.ok (argv.getLastD [], names)

/-- `_execute_work_steps`. -/
def executeWork (step : ℕ) (command : PyStr) (s : ManagerState) : Answer × ManagerState :=
  let ordinary : Answer × ManagerState :=
    let r := executeWorkCommand env step command s.pool
    (r.1, { s with pool := r.2 })
  if ToolDispatcher.isMcp command then ordinary
  else
    match ShellWords.split command with
    | Except.error text => (Progress.of (say (systemError text)), s)
    | Except.ok [] => ordinary
    | Except.ok (name :: arguments) =>
        if isTaskTimer name = false then ordinary
        else
          match arguments with
          | [] => (Progress.of (say (systemError env.indexText)), s)
          | period :: _ =>
              match env.float period with
              | none => (Progress.of (say (systemError (env.floatText period))), s)
              | some x =>
                  if x = PyNumber.finite 0 then
                    match taskAtOnce env (name :: arguments) with
                    | Except.error text => (Progress.of (say (systemError text)), s)
                    | Except.ok (text, skills) => startWork env step text skills s
                  else ordinary

/-! #### The dialogue -/

/-- What the manager makes of an answer that is no command. -/
inductive ManagerDirective where
  | error (text : PyStr)
  | ask (body : PyStr)
  | reply (body : PyStr)
  | other
deriving DecidableEq

/-- `parse_manager_output`. -/
def parseManagerOutput (content : PyStr) : ManagerDirective :=
  let text := PyStr.strip content
  if text = [] then ManagerDirective.error "empty response"
  else if 8192 < text.length then
    ManagerDirective.error "response is longer than 8192 characters"
  else if (PyStr.ofString "\x60\x60\x60").isPrefixOf text then
    ManagerDirective.error "Markdown code fences are not accepted"
  else
    let first := PyStr.strip (text.takeWhile fun c => decide (c.val ≠ 0x0A))
    let body := PyStr.strip ((text.dropWhile fun c => decide (c.val ≠ 0x0A)).tail)
    if first = "ASK" then
      if body = [] then ManagerDirective.error "ASK requires a question on following lines"
      else ManagerDirective.ask body
    else if first = "REPLY" then
      if body = [] then ManagerDirective.error "REPLY requires text on following lines"
      else ManagerDirective.reply body
    else
      match env.legacy text with
      | some error => ManagerDirective.error error
      | none => ManagerDirective.other

/-- What the generator of a dialogue has done. -/
abbrev Turn := Progress ManagerPoint ManagerTurn

/-- The message of the error that the dialogue does not end with the user. -/
def noFreshInput : ManagerTurn :=
  ManagerTurn.error "TT violation: manager model call requires a fresh input"

/-- The loop of `_drive_manager_steps`, from the top with the step `step`. -/
def driveStep (step : ℕ) (s : ManagerState) : Turn × ManagerState :=
  if maxSteps < step then
    (Progress.returned (ManagerTurn.error (PyStr.ofString "Manager exceeded maximum of " ++
      PyStr.ofString (toString maxSteps) ++ PyStr.ofString " steps")),
      { s with context := s.context.abortContext })
  else if s.context.last.role ≠ ChatRole.user then
    (Progress.returned noFreshInput, { s with context := s.context.abortContext })
  else
    let context :=
      { s.context with asked := s.context.asked ++ [s.context.dialogue.messages] }
    match env.tools.chat with
    | ChatAnswer.raised => (Progress.raised, { s with context })
    | ChatAnswer.modelError text =>
        (Progress.returned (ManagerTurn.error (PyStr.ofString "Model request failed: " ++ text)),
          { s with context := context.abortContext })
    | ChatAnswer.reply content =>
        (Progress.paused (ManagerPoint.responded step content),
          { s with context := { context with
            dialogue := context.dialogue.append ChatRole.assistant (ChatContent.text content) } })

/-- The dialogue goes on with a message for the model. -/
def tell (step : ℕ) (text : PyStr) (s : ManagerState) : Turn × ManagerState :=
  (Progress.paused (ManagerPoint.told step), { s with context := s.context.told text })

/-- What follows the result of a command. -/
def finishWork (step : ℕ) (r : Answer × ManagerState) : Turn × ManagerState :=
  match r.1 with
  | Progress.paused point => (Progress.paused point, r.2)
  | Progress.raised => (Progress.raised, r.2)
  | Progress.returned none =>
      (Progress.returned ManagerTurn.silent,
        if r.2.context.chatMode then r.2 else { r.2 with context := r.2.context.resetToBase })
  | Progress.returned (some content) =>
      (Progress.paused (ManagerPoint.told step),
        { r.2 with context := r.2.context.appendUser content })

/-- `REPLY`. -/
def reply (body : PyStr) (s : ManagerState) : Turn × ManagerState :=
  (Progress.returned ⟨"reply", body⟩,
    if s.context.closeChatAfterReply then
      { s with context :=
        { s.context with chatMode := false, closeChatAfterReply := false }.resetToBase }
    else if s.context.chatMode then s
    else { s with context := s.context.resetToBase })

/-- What follows an answer of the model, which is already in the dialogue. -/
def respond (step : ℕ) (content : PyStr) (s : ManagerState) : Turn × ManagerState :=
  match unwrapWorkCommand (PyStr.strip content) with
  | Except.error text => tell step (AgentWorker.formatProtocolError env.tools text) s
  | Except.ok (some command) => finishWork step (executeWork env step command s)
  | Except.ok none =>
      match parseManagerOutput env content with
      | ManagerDirective.error text => tell step (AgentWorker.formatProtocolError env.tools text) s
      | ManagerDirective.ask body => (Progress.returned ⟨"ask", body⟩, s)
      | ManagerDirective.reply body => reply body s
      | ManagerDirective.other =>
          -- There is no `yield` here.
          let context := s.context.told (AgentWorker.formatProtocolError env.tools
            "manager response must be ASK, REPLY or /work#<command>")
          driveStep env maxSteps (step + 1) { s with context }

/-- **A suspended dialogue goes on.** -/
def resume (point : ManagerPoint) (s : ManagerState) : Turn × ManagerState :=
  match point with
  | ManagerPoint.responded step content => respond env maxSteps step content s
  | ManagerPoint.told step => driveStep env maxSteps (step + 1) s
  | ManagerPoint.waiting step text skills => finishWork step (startWork env step text skills s)
  | ManagerPoint.working step id =>
      match s.pool.workers.get? id with
      | some w =>
          let r := stepWorker env step id w s.pool
          finishWork step (r.1, { s with pool := r.2 })
      | none => (Progress.raised, s)
  | ManagerPoint.partly step command =>
      let r := runPartly env step command s.pool
      finishWork step (r.1, { s with pool := r.2 })
  | ManagerPoint.script step command =>
      let r := runScript env step command s.pool
      finishWork step (r.1, { s with pool := r.2 })

/-- A worker that a closed generator leaves. -/
def closeWorker (id : PyStr) (pool : AgentPool) : AgentPool :=
  match pool.workers.get? id with
  | some w => pool.put id (toBase env w)
  | none => pool

/-- `_finish_steps`: a dialogue that nobody suspends; there is nothing as long as it has not
ended. -/
def finishSteps : List ManagerEnv → Turn × ManagerState → Option (Turn × ManagerState)
  | [], (Progress.paused _, _) => none
  | env :: l, (Progress.paused point, s) => finishSteps l (resume env maxSteps point s)
  | _, r => some r

/-- The words that begin and end a chat are compared without the marks at their end. -/
def folded (text : PyStr) : PyStr :=
  (env.casefold text).rdropWhile fun c =>
    (PyStr.ofString ".!?…").any fun mark => decide (c = mark)

/-- `user_message_steps`, up to the first `yield`. -/
def userMessage (text : PyStr) (s : ManagerState) : Turn × ManagerState :=
  let text := PyStr.strip text
  let context := { s.context with activeRequestText := text, asked := [] }
  let context :=
    if folded env text = "чат" ∨ folded env text = "начало чата" then
      { context with chatMode := true, closeChatAfterReply := false }
    else if folded env text = "конец чата" then { context with closeChatAfterReply := true }
    else context
  driveStep env maxSteps 1 { s with context := context.told text }

/-- `query_result_steps`, up to the first `yield`. -/
def queryResult (taskId : ℤ) (result : PyStr) (s : ManagerState) : Turn × ManagerState :=
  let context := { s.context with asked := [] }
  let text := PyStr.ofString "SYSTEM_QUERY_RESULT TASK " ++ PyStr.ofString (toString taskId) ++
    PyStr.ofString "\n" ++ PyStr.strip result
  driveStep env maxSteps 1 { s with context := context.told text }

/-- `system_event`, for an event without a task. -/
def systemEvent (l : List ManagerEnv) (s : ManagerState) : Option (Turn × ManagerState) :=
  let context := { s.context with asked := [] }
  finishSteps maxSteps l
    (driveStep env maxSteps 1 { s with context := context.told env.eventText })

/-! #### Tasks that are due -/

/-- Where the generator of a task is suspended. -/
structure TaskPoint where
  worker : PyStr
  task : TaskRecord

/-- What the generator of a task has done. -/
abbrev TaskTurn := Progress TaskPoint AutonomousTaskCompletion

/-- A completion with a turn. -/
def ended (turn : ManagerTurn) : TaskTurn := Progress.returned { turn := some turn }

/-- `_autonomous_error_completion`. -/
def errorCompletion (task : TaskRecord) (message : PyStr) : TaskTurn :=
  match task.method with
  | TaskMethod.query =>
      Progress.returned
        { queryTaskId := some task.taskId
          queryResult := PyStr.ofString "Ошибка запроса TASK " ++
            PyStr.ofString (toString task.taskId) ++ PyStr.ofString ": " ++ message }
  | TaskMethod.task => ended ManagerTurn.silent

/-- The text `exc` of a worker. -/
def errorOf (task : TaskRecord) (e : Raised) : TaskTurn := errorCompletion task (env.describe e)

/-- `step_autonomous_task`, and the `finally` of `_steps`: the worker goes back to its base on every
way out but the `yield`. -/
def stepTask (point : TaskPoint) (pool : AgentPool) : TaskTurn × AgentPool :=
  match pool.workers.get? point.worker with
  | none => (Progress.raised, pool)
  | some w =>
      let asleep := pool.put point.worker (w.sleepToBase env.sleepRaises)
      match env.current with
      | none => (Progress.raised, pool.put point.worker (toBase env w))
      | some none => (ended (ManagerTurn.cancelled []), asleep)
      | some (some current) =>
          if current.enabled = false ∨ current.generation ≠ point.task.generation then
            (ended (ManagerTurn.cancelled []), asleep)
          else
            match w.advance env.step with
            | (Except.ok none, w) => (Progress.paused point, pool.put point.worker w)
            | (Except.error e, w) =>
                (errorOf env point.task e, pool.put point.worker (toBase env w))
            | (Except.ok (some outcome), w) =>
                (match outcome.status, point.task.method with
                  | Status.need, _ => errorCompletion point.task outcome.text
                  | _, TaskMethod.task => ended ManagerTurn.silent
                  | Status.failed, TaskMethod.query =>
                      errorCompletion point.task (outcomeText outcome)
                  | Status.ok, TaskMethod.query =>
                      if PyStr.strip outcome.text = [] then ended ManagerTurn.silent
                      else Progress.returned
                        { queryTaskId := some point.task.taskId, queryResult := outcome.text },
                  pool.put point.worker (toBase env w))

/-- The task of an event is still what it was. -/
def isCurrent (event : SystemEvent) (task : TaskRecord) : Bool :=
  task.enabled && (decide (event.taskGeneration = []) ||
    decide (event.taskGeneration = task.generation))

/-- A worker has begun, or has not. -/
def begun (task : TaskRecord) (id : PyStr) (r : Except Raised Unit × AgentWorker)
    (pool : AgentPool) : TaskTurn × AgentPool :=
  match r with
  | (Except.error e, w) => (errorOf env task e, pool.put id (toBase env w))
  | (Except.ok (), w) => stepTask env ⟨id, task⟩ (pool.put id w)

/-- The event carries the payload of a message. -/
def carriesPayload (event : SystemEvent) : Bool :=
  decide (env.tools.host.lower (PyStr.strip event.source) = "mqtt") &&
    decide (PyStr.strip event.task ≠ [])

/-- `begin_autonomous_task`, and the first step. -/
def beginTask (event : SystemEvent) (pool : AgentPool) : TaskTurn × AgentPool :=
  if env.store = false then (ended (ManagerTurn.error "Task store is not configured"), pool)
  else
    match env.stored with
    | none => (Progress.raised, pool)
    | some none => (ended ManagerTurn.silent, pool)
    | some (some task) =>
        if isCurrent event task = false then (ended (ManagerTurn.cancelled []), pool)
        else if task.skills = [] then (errorCompletion task "нет сохранённых tools", pool)
        else
          match env.require task.skills with
          | some text => (errorCompletion task text, pool)
          | none =>
              if carriesPayload env event then
                match env.binding, pool.acquireEvent with
                | none, _ => (errorCompletion task "MQTT binding не найден", pool)
                | some _, none => (errorCompletion task "нет свободного событийного агента", pool)
                | some command, some (id, w) =>
                    begun env task id (w.beginWithToolResult env.prep task.text task.skills command
                      event.task (some task.method.name)) pool
              else
                match pool.acquire with
                | none => (errorCompletion task "нет свободного агента", pool)
                | some (id, w) =>
                    begun env task id
                      (w.begin env.prep task.text task.skills (some task.method.name)) pool

end ManagerRuntime

/-! ### The requests -/

/-- Where the generator of a request is suspended; the dialogues have their contexts. -/
inductive RequestPoint (κ : Type) where
  | task (point : ManagerRuntime.TaskPoint)
  | dialogue (key : κ) (point : ManagerPoint)

/-- The worker that is at work for a request. -/
def RequestPoint.worker? {κ : Type} : RequestPoint κ → Option PyStr
  | task point => some point.worker
  | dialogue _ point => point.worker?

/-- The pool, the dialogues, and the requests whose generators are suspended. -/
structure ManagerSystem (κ ι : Type) where
  pool : AgentPool
  contexts : κ → ManagerContext
  live : ι → Option (RequestPoint κ)
  /-- A record of the turns that the dialogues have ended with. -/
  turns : List ManagerTurn

namespace ManagerSystem

variable {κ ι : Type} [DecidableEq κ] [DecidableEq ι] (maxSteps : ℕ)

/-- What happens to the requests. -/
inductive Input (κ ι : Type) where
  /-- The generator of a task is made and advanced. -/
  | startTask (i : ι) (event : SystemEvent) (env : ManagerEnv)
  | startUser (i : ι) (key : κ) (text : PyStr) (env : ManagerEnv)
  | startResult (i : ι) (key : κ) (taskId : ℤ) (result : PyStr) (env : ManagerEnv)
  /-- An event without a task, for all its steps. -/
  | systemEvent (key : κ) (env : ManagerEnv) (l : List ManagerEnv)
  /-- The generator of a request is advanced. -/
  | next (i : ι) (env : ManagerEnv)
  /-- `_discard`: the generator is closed, and its dialogue aborted. -/
  | discard (i : ι) (env : ManagerEnv)
  /-- `human_session_released`. -/
  | released (key : κ)
  /-- `reset_for_new_session`, if the reset of the client does not raise. -/
  | resetForNewSession (key : κ)

variable (s : ManagerSystem κ ι)

/-- The generator of a task has been advanced. -/
def afterTask (i : ι) (r : ManagerRuntime.TaskTurn × AgentPool) : ManagerSystem κ ι :=
  { s with
    pool := r.2
    live := Function.update s.live i
      (match r.1 with
        | Progress.paused point => some (RequestPoint.task point)
        | _ => none) }

/-- The generator of a dialogue has been advanced.  One that has raised is discarded. -/
def afterDialogue (i : ι) (key : κ) (r : ManagerRuntime.Turn × ManagerState) :
    ManagerSystem κ ι where
  pool := r.2.pool
  contexts := Function.update s.contexts key
    (match r.1 with
      | Progress.raised => r.2.context.abortContext
      | _ => r.2.context)
  live := Function.update s.live i
    (match r.1 with
      | Progress.paused point => some (RequestPoint.dialogue key point)
      | _ => none)
  turns :=
    match r.1 with
    | Progress.returned turn => turn :: s.turns
    | _ => s.turns

/-- What a dialogue works on. -/
def stateOf (key : κ) : ManagerState := ⟨s.pool, s.contexts key⟩

/-- A dialogue is changed from outside. -/
def setContext (key : κ) (f : ManagerContext → ManagerContext) : ManagerSystem κ ι :=
  { s with contexts := Function.update s.contexts key (f (s.contexts key)) }

/-- A generator is closed. -/
def closed (env : ManagerEnv) (i : ι) (point : RequestPoint κ) : ManagerSystem κ ι :=
  let pool := point.worker?.elim s.pool fun id => ManagerRuntime.closeWorker env id s.pool
  let s := { s with pool, live := Function.update s.live i none }
  match point with
  | RequestPoint.task _ => s
  | RequestPoint.dialogue key _ => s.setContext key ManagerContext.abortContext

/-- A step of the core. -/
def step (s : ManagerSystem κ ι) : Input κ ι → ManagerSystem κ ι
  | Input.startTask i event env =>
      match s.live i with
      | some _ => s
      | none => s.afterTask i (ManagerRuntime.beginTask env event s.pool)
  | Input.startUser i key text env =>
      match s.live i with
      | some _ => s
      | none => s.afterDialogue i key (ManagerRuntime.userMessage env maxSteps text (s.stateOf key))
  | Input.startResult i key taskId result env =>
      match s.live i with
      | some _ => s
      | none =>
          s.afterDialogue i key
            (ManagerRuntime.queryResult env maxSteps taskId result (s.stateOf key))
  | Input.systemEvent key env l =>
      match ManagerRuntime.systemEvent env maxSteps l (s.stateOf key) with
      | none => s
      | some r =>
          { s with
            pool := r.2.pool
            contexts := Function.update s.contexts key
              (match r.1 with
                | Progress.raised => r.2.context.abortContext
                | _ => r.2.context)
            turns :=
              match r.1 with
              | Progress.returned turn => turn :: s.turns
              | _ => s.turns }
  | Input.next i env =>
      match s.live i with
      | none => s
      | some (RequestPoint.task point) => s.afterTask i (ManagerRuntime.stepTask env point s.pool)
      | some (RequestPoint.dialogue key point) =>
          s.afterDialogue i key (ManagerRuntime.resume env maxSteps point (s.stateOf key))
  | Input.discard i env =>
      match s.live i with
      | none => s
      | some point => s.closed env i point
  | Input.released key =>
      s.setContext key fun c => if c.chatMode then c else c.abortContext
  | Input.resetForNewSession key =>
      s.setContext key fun c => { c.abortContext with waitingForWorker := false }

/-- Any sequence of steps, from free workers and fresh dialogues. -/
def machine : Machine (ManagerSystem κ ι) (Input κ ι) where
  init := fun s =>
    (∀ id w, s.pool.workers.get? id = some w → w.state = State.free) ∧
      (∀ key, (s.contexts key).dialogue.turns = [] ∧ (s.contexts key).asked = [] ∧
        (s.contexts key).dialogue.base.role = ChatRole.system) ∧
      (∀ i, s.live i = none) ∧ s.turns = []
  step := step maxSteps

end ManagerSystem

/-! ### What a step does to the state of a worker -/

namespace AgentWorker

variable {env : StepEnv} {step : ℕ} {command : PyStr} {w : AgentWorker}

/-- What a step does to a worker in the state `σ`: it is free again when the step returns something
else than a question, and else it stays in its state unless it waits. -/
def Leaves (σ : State) (r : AgentWorker.Result × AgentWorker) : Prop :=
  match r.1 with
  | Except.ok (some outcome) => outcome.status ≠ Status.need → r.2.state = State.free
  | _ => r.2.state = σ

theorem leaves_finish (σ : State) (status : Status) (text : PyStr) (preserve : Bool) :
    Leaves σ (w.finish env step status text preserve) := by
  intro _
  exact rfl

theorem leaves_continueOrLimit : Leaves w.state (w.continueOrLimit env step) := by
  unfold continueOrLimit
  by_cases hlimit : w.stepsUsed < w.maxSteps
  · rw [if_pos hlimit]
    exact rfl
  · rw [if_neg hlimit]
    exact leaves_finish _ _ _ _

theorem leaves_answer (content : ChatContent) : Leaves w.state (w.answer env step content) :=
  leaves_continueOrLimit (w := w.tell ChatRole.user content)

theorem leaves_runCommand : Leaves w.state (w.runCommand env step command) := by
  unfold runCommand
  cases env.execute with
  | none => exact rfl
  | some result =>
      dsimp only
      split_ifs
      · exact leaves_finish _ _ _ _
      · exact leaves_answer (w := { w with repeated := _ }) _

theorem leaves_runScript : Leaves w.state (w.runScript env step command) := by
  unfold runScript
  rcases env.script with (_ | _ | content) | _ | _
  · exact leaves_runCommand
  · exact leaves_finish _ _ _ _
  · exact leaves_answer content
  · exact rfl
  · exact rfl

theorem leaves_runPartly : Leaves w.state (w.runPartly env step command) := by
  unfold runPartly
  rcases env.partly with (_ | text) | _ | _
  · exact leaves_runScript
  · exact leaves_answer _
  · exact rfl
  · exact rfl

theorem leaves_runPicture : Leaves w.state (w.runPicture env step command) := by
  unfold runPicture
  rcases env.picture with _ | _ | content
  · exact rfl
  · exact leaves_runPartly
  · exact leaves_answer content

theorem leaves_runTools : Leaves w.state (w.runTools env step command) := by
  unfold runTools
  cases w.deferred with
  | some deferred =>
      dsimp only
      split_ifs
      · exact leaves_finish _ _ _ _
      · exact leaves_answer (w := { w with deferred := none }) _
  | none =>
      dsimp only
      rcases env.dispatch with _ | _ | text
      · exact rfl
      · exact leaves_runPicture
      · exact leaves_answer _

theorem leaves_respond (content : PyStr) : Leaves w.state (w.respond env step content) := by
  unfold respond
  rcases AgentDirective.read env.json content with _ | text | command | body | body
  · exact rfl
  · exact leaves_answer _
  · exact leaves_runTools
  · dsimp only
    split_ifs
    · exact leaves_answer _
    · exact leaves_answer _
    · exact leaves_finish _ _ _ _
    · exact leaves_finish _ _ _ _
  · exact fun hne => absurd rfl hne

theorem leaves_turn : Leaves w.state (w.turn env) := by
  unfold turn
  split_ifs
  · exact rfl
  cases w.messages with
  | none => exact rfl
  | some l =>
      cases w.runtime with
      | none => exact rfl
      | some skills =>
          dsimp only
          split_ifs
          · exact rfl
          cases env.chat with
          | raised => exact rfl
          | modelError text => exact leaves_finish _ _ _ _
          | reply content =>
              exact leaves_respond (w := (w.ask l.messages).tell ChatRole.assistant
                (ChatContent.text content)) content

/-- **A step.** -/
theorem leaves_advance : Leaves w.state (w.advance env) := by
  unfold advance
  rcases w.pending with _ | ⟨step, command⟩ | ⟨step, command⟩
  · exact leaves_turn
  · exact leaves_runPartly (w := { w with pending := none })
  · exact leaves_runScript (w := { w with pending := none })

/-- What the beginning of a task does to a worker in the state `σ`. -/
def Begins (σ : State) (r : Except Raised Unit × AgentWorker) : Prop :=
  match r.1 with
  | Except.ok () => r.2.state = State.running
  | Except.error _ => r.2.state = σ

/-- **A worker that has begun is running, and one that has not is as free as it was.** -/
theorem begins_begin (prep : BeginEnv) (task : PyStr) (skills : List PyStr)
    (method : Option PyStr) : Begins w.state (w.begin prep task skills method) := by
  unfold begin
  by_cases hfree : w.state ≠ State.free
  · rw [if_pos hfree]
    exact rfl
  rw [if_neg hfree]
  by_cases hmethod : method ∉ [none, some (PyStr.ofString "task"), some (PyStr.ofString "query")]
  · rw [if_pos hmethod]
    exact rfl
  rw [if_neg hmethod]
  dsimp only
  cases prep.runtime with
  | false => exact rfl
  | true =>
      cases prep.systemContext with
      | none => exact rfl
      | some systemContext =>
          cases prep.written with
          | false => exact rfl
          | true => exact rfl

theorem begins_beginWithToolResult (prep : BeginEnv) (task : PyStr) (skills : List PyStr)
    (command result : PyStr) (method : Option PyStr) :
    Begins w.state (w.beginWithToolResult prep task skills command result method) := by
  unfold beginWithToolResult
  by_cases hcommand : (PyStr.strip command).isEmpty
  · rw [if_pos hcommand]
    exact rfl
  rw [if_neg hcommand]
  by_cases hresult : (PyStr.strip result).isEmpty
  · rw [if_pos hresult]
    exact rfl
  rw [if_neg hresult]
  have hbegin := begins_begin (w := w) prep task skills method
  generalize w.begin prep task skills method = r at hbegin
  rcases r with ⟨_ | _, w'⟩
  · exact hbegin
  · exact hbegin

/-- **A worker that has planned a command is free again.** -/
theorem free_planFirstCommand (prep : BeginEnv) (task : PyStr) (skills : List PyStr)
    (method : Option PyStr) (planned : PyStr)
    (h : (w.planFirstCommand env prep task skills method).1 = Except.ok planned) :
    (w.planFirstCommand env prep task skills method).2.state = State.free := by
  unfold planFirstCommand at h ⊢
  generalize w.begin prep task skills method = r at h ⊢
  rcases r with ⟨_ | _, w'⟩
  · cases h
  generalize env.chat = chat at h ⊢
  cases chat with
  | raised => cases h
  | modelError text => exact rfl
  | reply content =>
      dsimp only at h ⊢
      generalize unwrapWorkCommand (PyStr.strip content) = unwrapped at h ⊢
      rcases unwrapped with text | _ | command
      · exact rfl
      · exact rfl
      · exact rfl

end AgentWorker

/-! ### Which workers a generator takes and gives back -/

namespace AgentPool

variable {pool : AgentPool} {id : PyStr} {w : AgentWorker}

theorem busy_put (id' : PyStr) :
    (pool.put id w).Busy id' ↔ if id' = id then w.state ≠ State.free else pool.Busy id' := by
  unfold Busy put
  by_cases hid : id' = id
  · rw [if_pos hid, hid, PyDict.get?_set_self]
    constructor
    · rintro ⟨w', hw', hbusy⟩
      cases hw'
      exact hbusy
    · exact fun hbusy => ⟨w, rfl, hbusy⟩
  · rw [if_neg hid, PyDict.get?_set_of_ne _ _ (Ne.symm hid)]

theorem not_busy_of_free (hget : pool.workers.get? id = some w) (hfree : w.state = State.free) :
    ¬pool.Busy id := by
  rintro ⟨w', hw', hbusy⟩
  rw [hget] at hw'
  cases hw'
  exact hbusy hfree

theorem free_of_acquire (h : pool.acquire = some (id, w)) :
    pool.workers.get? id = some w ∧ w.state = State.free := by
  have hmem := List.mem_of_find?_eq_some h
  have hfound := List.find?_some h
  simp only [Bool.and_eq_true, decide_eq_true_eq] at hfound
  exact ⟨PyDict.mem_entries_iff.1 hmem, hfound.2⟩

theorem free_of_acquireEvent (h : pool.acquireEvent = some (id, w)) :
    pool.workers.get? id = some w ∧ w.state = State.free := by
  unfold acquireEvent at h
  cases hevent : pool.eventWorkerId with
  | none =>
      rw [hevent] at h
      exact free_of_acquire h
  | some id' =>
      rw [hevent] at h
      dsimp only at h
      cases hget : pool.workers.get? id' with
      | none =>
          rw [hget] at h
          cases h
      | some w' =>
          rw [hget] at h
          dsimp only at h
          split_ifs at h with hfree
          cases h
          exact ⟨hget, hfree⟩

/-- A generator that holds `h` may step the worker `id`. -/
def Owns (pool : AgentPool) (h : Option PyStr) (id : PyStr) : Prop :=
  h = some id ∨ (h = none ∧ ¬pool.Busy id)

/-- A generator that holds nothing may take a worker that is free. -/
theorem owns_of_free (hget : pool.workers.get? id = some w) (hfree : w.state = State.free) :
    pool.Owns none id := Or.inr ⟨rfl, not_busy_of_free hget hfree⟩

/-- The worker is left as it is free. -/
theorem moves_freed {h : Option PyStr} (howns : pool.Owns h id) (hfree : w.state = State.free) :
    Moves h none pool.Busy (pool.put id w).Busy where
  others := by
    intro r hr _
    rw [busy_put]
    by_cases hid : r = id
    · rw [if_pos hid, hid]
      rcases howns with heq | ⟨-, hnot⟩
      · exact absurd (hid ▸ heq) hr
      · exact ⟨fun hbusy => absurd hfree hbusy, fun hbusy => absurd hbusy hnot⟩
    · rw [if_neg hid]
  taken := by
    intro r hr
    cases hr
  left := by
    intro r hr _
    rw [busy_put]
    rcases howns with heq | ⟨hnone, -⟩
    · rw [heq] at hr
      cases hr
      rw [if_pos rfl]
      exact fun hbusy => hbusy hfree
    · rw [hnone] at hr
      cases hr

/-- The worker is kept at work. -/
theorem moves_kept {h : Option PyStr} (howns : pool.Owns h id) (hbusy : w.state ≠ State.free) :
    Moves h (some id) pool.Busy (pool.put id w).Busy where
  others := by
    intro r _ hr
    have hid : r ≠ id := fun heq => hr (congrArg some heq.symm)
    rw [busy_put, if_neg hid]
  taken := by
    intro r hr
    cases hr
    refine ⟨?_, ?_⟩
    · rw [busy_put, if_pos rfl]
      exact hbusy
    · exact howns.imp_right And.right
  left := by
    intro r hr hne
    rcases howns with heq | ⟨hnone, -⟩
    · exact absurd (heq ▸ hr) hne
    · rw [hnone] at hr
      cases hr

/-- A worker that is not in the pool is not at work. -/
theorem moves_missing (hget : pool.workers.get? id = none) :
    Moves (some id) none pool.Busy pool.Busy where
  others := fun _ _ _ => Iff.rfl
  taken := by
    intro r hr
    cases hr
  left := by
    intro r hr _
    cases hr
    rintro ⟨w, hw, -⟩
    rw [hget] at hw
    cases hw

/-- A generator that holds nothing does not touch the pool. -/
theorem moves_none : Moves none none pool.Busy pool.Busy :=
  Moves.refl fun _ h => nomatch h

end AgentPool

namespace ManagerRuntime

open AgentPool (owns_of_free free_of_acquire free_of_acquireEvent moves_freed moves_kept
  moves_missing moves_none)

variable {env : ManagerEnv} {maxSteps step : ℕ} {command : PyStr} {pool : AgentPool}
  {s : ManagerState}

@[simp] theorem state_sleepToBase (w : AgentWorker) (resetRaises : Bool) :
    (w.sleepToBase resetRaises).state = State.free := rfl

@[simp] theorem state_toBase (w : AgentWorker) : (toBase env w).state = State.free := by
  unfold toBase
  by_cases hfree : w.state = State.free
  · rw [if_pos hfree]
    exact hfree
  · rw [if_neg hfree, state_sleepToBase]

/-- A worker that `start` has driven to an outcome is free, unless it needs something. -/
theorem free_drive (l : List StepEnv) (w : AgentWorker) (outcome : Outcome)
    (h : (drive l w).1 = Except.ok outcome) (hneed : outcome.status ≠ Status.need) :
    (drive l w).2.state = State.free := by
  induction l generalizing w with
  | nil => cases h
  | cons e l ih =>
      have hleaves : AgentWorker.Leaves w.state (w.advance e) := AgentWorker.leaves_advance
      unfold drive at h ⊢
      generalize w.advance e = r at h hleaves ⊢
      rcases r with ⟨_ | _ | outcome', w'⟩
      · cases h
      · exact ih w' h
      · cases h
        exact hleaves hneed

/-- What a command that does not suspend does to the pool: it gives back what it takes. -/
abbrev SaidMoves (pool : AgentPool) (r : Said × AgentPool) : Prop :=
  Moves none none pool.Busy r.2.Busy

theorem worker?_of {π α : Type} (f : π → Option PyStr) (a : Option α) :
    (Progress.of a).worker? f = none := by
  cases a with
  | none => rfl
  | some a => rfl

/-- What the generator of a command does to the pool. -/
abbrev AnswerMoves (h : Option PyStr) (pool : AgentPool) (r : Answer × AgentPool) : Prop :=
  Moves h (r.1.worker? ManagerPoint.worker?) pool.Busy r.2.Busy

theorem moves_runOneShotAgent (text : PyStr) (skills : List PyStr) :
    SaidMoves pool (runOneShotAgent env text skills pool) := by
  unfold runOneShotAgent
  cases hacquire : pool.acquire with
  | none => exact moves_none
  | some e =>
      obtain ⟨id, w⟩ := e
      obtain ⟨hget, hfree⟩ := free_of_acquire hacquire
      have howns := owns_of_free hget hfree
      dsimp only
      generalize w.begin env.prep text skills (some "query") = r
      rcases r with ⟨_ | _, w₁⟩
      · exact moves_freed howns (state_toBase w₁)
      dsimp only
      have hdrive := free_drive env.drive w₁
      generalize drive env.drive w₁ = r at hdrive
      rcases r with ⟨_ | outcome, w₂⟩
      · exact moves_freed howns (state_toBase w₂)
      dsimp only at hdrive ⊢
      cases hstatus : outcome.status with
      | need => exact moves_freed howns (state_sleepToBase w₂ _)
      | failed => exact moves_freed howns (hdrive outcome rfl (by rw [hstatus]; decide))
      | ok => exact moves_freed howns (hdrive outcome rfl (by rw [hstatus]; decide))

theorem moves_createExternalTask (text : PyStr) (skills : List PyStr) :
    SaidMoves pool (createExternalTask env text skills pool) := by
  unfold createExternalTask
  by_cases hmqtt : PyStr.ofString "mqtt" ∉ skills
  · rw [if_pos hmqtt]
    exact moves_none
  rw [if_neg hmqtt]
  by_cases hstore : env.store = false
  · rw [if_pos hstore]
    exact moves_none
  rw [if_neg hstore]
  cases hacquire : pool.acquireEvent with
  | none => exact moves_none
  | some e =>
      obtain ⟨id, w⟩ := e
      obtain ⟨hget, hfree⟩ := free_of_acquireEvent hacquire
      have howns := owns_of_free hget hfree
      dsimp only
      have hplan := @AgentWorker.free_planFirstCommand env.step w env.prep text skills
        (some "query")
      generalize w.planFirstCommand env.step env.prep text skills (some "query") = r at hplan
      rcases r with ⟨_ | planned, w'⟩
      · exact moves_freed howns (state_toBase w')
      · exact moves_freed howns (hplan planned rfl)

theorem moves_executeTaskCommand (period : PyStr) (names : List PyStr) (text executor : PyStr) :
    SaidMoves pool (executeTaskCommand env period names text executor pool) := by
  unfold executeTaskCommand
  by_cases hexecutor : executor ∉ ["auto", "litert", "openai"].map PyStr.ofString
  · rw [if_pos hexecutor]
    exact moves_none
  rw [if_neg hexecutor]
  by_cases hnames : names = []
  · rw [if_pos hnames]
    exact moves_none
  rw [if_neg hnames]
  cases taskPeriod env period with
  | none => exact moves_none
  | some kind =>
      dsimp only
      generalize (names.map PyStr.strip).filter (fun name => decide (name ≠ [])) = skills
      by_cases hskills : skills = [] ∨ ¬skills.Nodup
      · rw [if_pos hskills]
        exact moves_none
      rw [if_neg hskills]
      by_cases htext : PyStr.strip text = []
      · rw [if_pos htext]
        exact moves_none
      rw [if_neg htext]
      cases env.require skills with
      | some error => exact moves_none
      | none =>
          cases kind with
          | once => exact moves_runOneShotAgent _ _
          | external => exact moves_createExternalTask _ _
          | periodic =>
              dsimp only
              rcases env.createPeriodic with _ | _ | _
              · exact moves_none
              · exact moves_none
              · exact moves_none

theorem moves_runCommand : SaidMoves pool (runCommand env command pool) := by
  unfold runCommand
  rcases ShellWords.split command with _ | _ | ⟨name, arguments⟩
  · exact moves_none
  · exact moves_none
  dsimp only
  by_cases htask : isTaskTimer name = true
  · rw [if_pos htask]
    cases separator (name :: arguments) with
    | none => exact moves_none
    | some n =>
        dsimp only
        split_ifs
        · exact moves_none
        cases executorOf ((arguments.take (n - 1)).drop 1) with
        | none => exact moves_none
        | some p => exact moves_executeTaskCommand _ _ _ _
  · rw [if_neg htask]
    split_ifs
    · exact moves_none
    cases env.tools.execute with
    | none => exact moves_none
    | some result => exact moves_none

theorem moves_runScript : AnswerMoves none pool (runScript env step command pool) := by
  unfold runScript
  rcases env.tools.script with (_ | _ | content) | _ | _
  · unfold AnswerMoves
    dsimp only
    rw [worker?_of]
    exact moves_runCommand
  · exact moves_none
  · exact moves_none
  · exact moves_none
  · exact moves_none

theorem moves_runPartly : AnswerMoves none pool (runPartly env step command pool) := by
  unfold runPartly
  rcases env.tools.partly with (_ | text) | _ | _
  · exact moves_runScript
  · exact moves_none
  · exact moves_none
  · exact moves_none

theorem moves_executeWorkCommand :
    AnswerMoves none pool (executeWorkCommand env step command pool) := by
  unfold executeWorkCommand
  rcases env.tools.dispatch with _ | _ | text
  · exact moves_none
  · dsimp only
    rcases env.tools.picture with _ | _ | content
    · exact moves_none
    · exact moves_runPartly
    · exact moves_none
  · exact moves_none

/-- **A step of the worker that does a task at once**: it stays at work at the `yield`, and is free
on every way out. -/
theorem moves_stepWorker {h : Option PyStr} {id : PyStr} {w : AgentWorker}
    (howns : pool.Owns h id) (hbusy : w.state ≠ State.free) :
    AnswerMoves h pool (stepWorker env step id w pool) := by
  have hleaves : AgentWorker.Leaves w.state (w.advance env.step) := AgentWorker.leaves_advance
  unfold stepWorker
  generalize w.advance env.step = r at hleaves
  rcases r with ⟨e | _ | outcome, w'⟩
  · unfold AnswerMoves
    dsimp only
    rw [worker?_of]
    exact moves_freed howns (state_toBase w')
  · have hstate : w'.state = w.state := hleaves
    exact moves_kept howns (by rw [hstate]; exact hbusy)
  · unfold AnswerMoves
    dsimp only
    rw [worker?_of]
    exact moves_freed howns (state_toBase w')

/-- What the generator of a dialogue does to the pool. -/
abbrev StateMoves {α : Type} (h : Option PyStr) (s : ManagerState)
    (r : Progress ManagerPoint α × ManagerState) : Prop :=
  Moves h (r.1.worker? ManagerPoint.worker?) s.pool.Busy r.2.pool.Busy

theorem moves_startWork (text : PyStr) (skills : List PyStr) :
    StateMoves none s (startWork env step text skills s) := by
  unfold startWork
  cases hacquire : s.pool.acquire with
  | none => exact moves_none
  | some e =>
      obtain ⟨id, w⟩ := e
      obtain ⟨hget, hfree⟩ := free_of_acquire hacquire
      have howns := owns_of_free hget hfree
      dsimp only
      have hbegin := AgentWorker.begins_begin (w := w) env.prep text skills (some "query")
      generalize w.begin env.prep text skills (some "query") = r at hbegin
      rcases r with ⟨e | _, w'⟩
      · have hstate : w'.state = w.state := hbegin
        unfold StateMoves
        dsimp only
        rw [worker?_of]
        exact moves_freed howns (hstate.trans hfree)
      · have hstate : w'.state = State.running := hbegin
        exact moves_stepWorker howns (by rw [hstate]; decide)

theorem moves_executeWork : StateMoves none s (executeWork env step command s) := by
  unfold executeWork
  dsimp only
  split_ifs
  · exact moves_executeWorkCommand
  rcases ShellWords.split command with _ | _ | ⟨name, arguments⟩
  · exact moves_none
  · exact moves_executeWorkCommand
  dsimp only
  split_ifs
  · exact moves_executeWorkCommand
  rcases arguments with _ | ⟨period, arguments⟩
  · exact moves_none
  dsimp only
  cases env.float period with
  | none => exact moves_none
  | some x =>
      dsimp only
      split_ifs
      · cases taskAtOnce env (name :: period :: arguments) with
        | error text => exact moves_none
        | ok p => exact moves_startWork _ _
      · exact moves_executeWorkCommand

theorem moves_finishWork {h : Option PyStr} {r : Answer × ManagerState} (hr : StateMoves h s r) :
    StateMoves h s (finishWork step r) := by
  obtain ⟨answer, s'⟩ := r
  rcases answer with point | content | _
  · exact hr
  · cases content with
    | some content => exact hr
    | none =>
        unfold StateMoves finishWork
        dsimp only
        split_ifs
        · exact hr
        · exact hr
  · exact hr

theorem moves_driveStep : StateMoves none s (driveStep env maxSteps step s) := by
  unfold driveStep
  split_ifs
  · exact moves_none
  · exact moves_none
  dsimp only
  cases env.tools.chat with
  | raised => exact moves_none
  | modelError text => exact moves_none
  | reply content => exact moves_none

theorem moves_respond (content : PyStr) :
    StateMoves none s (respond env maxSteps step content s) := by
  unfold respond
  rcases unwrapWorkCommand (PyStr.strip content) with text | _ | command
  · exact moves_none
  · dsimp only
    cases parseManagerOutput env content with
    | error text => exact moves_none
    | ask body => exact moves_none
    | reply body =>
        unfold StateMoves reply
        dsimp only
        split_ifs
        · exact moves_none
        · exact moves_none
        · exact moves_none
    | other => exact moves_driveStep (s := { s with context := s.context.told _ })
  · exact moves_finishWork moves_executeWork

/-- **A suspended dialogue goes on.**  The worker at work for it is busy. -/
theorem moves_resume (point : ManagerPoint) (hbusy : ∀ id, point.worker? = some id → s.pool.Busy id) :
    StateMoves point.worker? s (resume env maxSteps point s) := by
  cases point with
  | responded step content => exact moves_respond content
  | told step => exact moves_driveStep
  | waiting step text skills => exact moves_finishWork (moves_startWork text skills)
  | working step id =>
      unfold resume
      obtain ⟨w, hget, hw⟩ := hbusy id rfl
      dsimp only
      rw [hget]
      exact moves_finishWork (s := s) (moves_stepWorker (Or.inl rfl) hw)
  | partly step command => exact moves_finishWork (s := s) moves_runPartly
  | script step command => exact moves_finishWork (s := s) moves_runScript

/-- A generator that is closed gives its worker back. -/
theorem moves_closeWorker (id : PyStr) :
    Moves (some id) none pool.Busy (closeWorker env id pool).Busy := by
  unfold closeWorker
  cases hget : pool.workers.get? id with
  | none => exact moves_missing hget
  | some w => exact moves_freed (Or.inl rfl) (state_toBase w)

/-- A dialogue that nobody suspends gives back what it takes. -/
theorem moves_finishSteps (l : List ManagerEnv) {r r' : Turn × ManagerState}
    (hr : StateMoves none s r) (h : finishSteps maxSteps l r = some r') :
    Moves none none s.pool.Busy r'.2.pool.Busy := by
  induction l generalizing r with
  | nil =>
      rcases r with ⟨point | turn | _, s'⟩
      · cases h
      · cases h
        exact hr
      · cases h
        exact hr
  | cons env l ih =>
      rcases r with ⟨point | turn | _, s'⟩
      · refine ih (hr.trans (moves_resume point fun id hid => ?_)) h
        exact (hr.taken id hid).1
      · cases h
        exact hr
      · cases h
        exact hr

/-- What the generator of a task does to the pool. -/
abbrev TaskMoves (h : Option PyStr) (pool : AgentPool) (r : TaskTurn × AgentPool) : Prop :=
  Moves h (r.1.worker? fun point => some point.worker) pool.Busy r.2.Busy

theorem worker?_errorCompletion (task : TaskRecord) (message : PyStr) :
    (errorCompletion task message).worker? (fun point => some point.worker) = none := by
  unfold errorCompletion
  cases task.method with
  | query => rfl
  | task => rfl

/-- **A step of a task.**  Its worker stays at work at the `yield`, and is free on every way out. -/
theorem moves_stepTask {h : Option PyStr} (point : TaskPoint) (howns : pool.Owns h point.worker)
    {w : AgentWorker} (hget : pool.workers.get? point.worker = some w)
    (hbusy : w.state ≠ State.free) : TaskMoves h pool (stepTask env point pool) := by
  unfold stepTask
  rw [hget]
  dsimp only
  have hasleep := moves_freed howns (state_sleepToBase w env.sleepRaises)
  rcases env.current with _ | _ | current
  · exact moves_freed howns (state_toBase w)
  · exact hasleep
  dsimp only
  split_ifs
  · exact hasleep
  have hleaves : AgentWorker.Leaves w.state (w.advance env.step) := AgentWorker.leaves_advance
  generalize w.advance env.step = r at hleaves
  rcases r with ⟨e | _ | outcome, w'⟩
  · unfold TaskMoves errorOf
    dsimp only
    rw [worker?_errorCompletion]
    exact moves_freed howns (state_toBase w')
  · have hstate : w'.state = w.state := hleaves
    exact moves_kept howns (by rw [hstate]; exact hbusy)
  · have hfree : (toBase env w').state = State.free := state_toBase w'
    have hfreed := moves_freed howns hfree
    unfold TaskMoves
    dsimp only
    cases outcome.status with
    | need =>
        dsimp only
        rw [worker?_errorCompletion]
        exact hfreed
    | failed =>
        cases point.task.method with
        | task => exact hfreed
        | query =>
            dsimp only
            rw [worker?_errorCompletion]
            exact hfreed
    | ok =>
        cases point.task.method with
        | task => exact hfreed
        | query =>
            dsimp only
            split_ifs
            · exact hfreed
            · exact hfreed

theorem moves_begun {task : TaskRecord} {id : PyStr} {w : AgentWorker}
    {r : Except Raised Unit × AgentWorker} (hget : pool.workers.get? id = some w)
    (hfree : w.state = State.free) (hbegin : AgentWorker.Begins w.state r) :
    TaskMoves none pool (begun env task id r pool) := by
  have howns := owns_of_free hget hfree
  rcases r with ⟨e | _, w'⟩
  · unfold TaskMoves begun errorOf
    dsimp only
    rw [worker?_errorCompletion]
    exact moves_freed howns (state_toBase w')
  · have hstate : w'.state = State.running := hbegin
    have hbusy : w'.state ≠ State.free := by
      rw [hstate]
      decide
    -- The worker has begun; it is held from now on, and makes its first step.
    exact (moves_kept howns hbusy).trans
      (moves_stepTask ⟨id, task⟩ (Or.inl rfl) (PyDict.get?_set_self _ _ _) hbusy)

/-- **A task is begun.** -/
theorem moves_beginTask (event : SystemEvent) : TaskMoves none pool (beginTask env event pool) := by
  have herror : ∀ task message, TaskMoves none pool (errorCompletion task message, pool) := by
    intro task message
    unfold TaskMoves
    dsimp only
    rw [worker?_errorCompletion]
    exact moves_none
  unfold beginTask
  by_cases hstore : env.store = false
  · rw [if_pos hstore]
    exact moves_none
  rw [if_neg hstore]
  rcases env.stored with _ | _ | task
  · exact moves_none
  · exact moves_none
  dsimp only
  by_cases hcurrent : isCurrent event task = false
  · rw [if_pos hcurrent]
    exact moves_none
  rw [if_neg hcurrent]
  by_cases hskills : task.skills = []
  · rw [if_pos hskills]
    exact herror _ _
  rw [if_neg hskills]
  cases env.require task.skills with
  | some text => exact herror _ _
  | none =>
      dsimp only
      by_cases hpayload : carriesPayload env event = true
      · rw [if_pos hpayload]
        cases env.binding with
        | none => exact herror _ _
        | some command =>
            cases hacquire : pool.acquireEvent with
            | none => exact herror _ _
            | some e =>
                obtain ⟨hget, hfree⟩ := free_of_acquireEvent hacquire
                exact moves_begun hget hfree (AgentWorker.begins_beginWithToolResult _ _ _ _ _ _)
      · rw [if_neg hpayload]
        cases hacquire : pool.acquire with
        | none => exact herror _ _
        | some e =>
            obtain ⟨hget, hfree⟩ := free_of_acquire hacquire
            exact moves_begun hget hfree (AgentWorker.begins_begin _ _ _ _)

end ManagerRuntime

namespace ManagerSystem

open ManagerRuntime (moves_resume moves_stepTask moves_beginTask moves_driveStep moves_finishSteps
  moves_closeWorker)

variable {κ ι : Type} {maxSteps : ℕ} {s : ManagerSystem κ ι}

/-- The worker that is at work for a request. -/
def holds (s : ManagerSystem κ ι) (i : ι) : Option PyStr := (s.live i).bind RequestPoint.worker?

/-- The workers that are not free are those that are at work for a request. -/
def Manned (s : ManagerSystem κ ι) : Prop := Leased s.pool.Busy s.holds

theorem holds_of_none {i : ι} (h : s.live i = none) : s.holds i = none := by
  unfold holds
  rw [h]
  rfl

theorem holds_of_some {i : ι} {point : RequestPoint κ} (h : s.live i = some point) :
    s.holds i = point.worker? := by
  unfold holds
  rw [h]
  rfl

/-- A worker at work for a request is not free. -/
theorem Manned.busy_of_live {i : ι} {point : RequestPoint κ} (h : s.Manned)
    (hlive : s.live i = some point) {id : PyStr} (hworker : point.worker? = some id) :
    s.pool.Busy id :=
  Leased.busy h i id ((holds_of_some hlive).trans hworker)

variable [DecidableEq ι]

/-- What a live request holds after one of them has been changed. -/
theorem holds_update (i : ι) (point : Option (RequestPoint κ)) {pool : AgentPool}
    {contexts : κ → ManagerContext} {turns : List ManagerTurn} :
    (ManagerSystem.mk pool contexts (Function.update s.live i point) turns).holds =
      Function.update s.holds i (point.bind RequestPoint.worker?) := by
  funext j
  unfold holds
  dsimp only
  by_cases hj : j = i
  · rw [hj, Function.update_self, Function.update_self]
  · rw [Function.update_of_ne hj, Function.update_of_ne hj]

theorem manned_afterTask {i : ι} {r : ManagerRuntime.TaskTurn × AgentPool} (h : s.Manned)
    (hr : ManagerRuntime.TaskMoves (s.holds i) s.pool r) : (s.afterTask i r).Manned := by
  unfold Manned afterTask
  rw [holds_update]
  refine h.move ?_
  obtain ⟨turn, pool⟩ := r
  cases turn with
  | paused point => exact hr
  | returned completion => exact hr
  | raised => exact hr

variable [DecidableEq κ]

theorem manned_afterDialogue {i : ι} {key : κ} {r : ManagerRuntime.Turn × ManagerState}
    (h : s.Manned) (hr : ManagerRuntime.StateMoves (s.holds i) (s.stateOf key) r) :
    (s.afterDialogue i key r).Manned := by
  unfold Manned afterDialogue
  rw [holds_update]
  refine h.move ?_
  obtain ⟨turn, s'⟩ := r
  cases turn with
  | paused point => exact hr
  | returned turn => exact hr
  | raised => exact hr

theorem manned_closed {i : ι} {point : RequestPoint κ} (env : ManagerEnv) (h : s.Manned)
    (hlive : s.live i = some point) : (s.closed env i point).Manned := by
  have hmoves : Moves (s.holds i) none s.pool.Busy
      (point.worker?.elim s.pool fun id => ManagerRuntime.closeWorker env id s.pool).Busy := by
    rw [holds_of_some hlive]
    cases hworker : point.worker? with
    | none => exact AgentPool.moves_none
    | some id => exact moves_closeWorker id
  have hclosed := h.move hmoves
  unfold closed
  cases point with
  | task point =>
      unfold Manned
      rw [holds_update]
      exact hclosed
  | dialogue key point =>
      unfold Manned setContext
      rw [holds_update]
      exact hclosed

/-- **Every step of the core.** -/
theorem manned_step (h : s.Manned) (input : Input κ ι) : (step maxSteps s input).Manned := by
  cases input with
  | startTask i event env =>
      unfold step
      dsimp only
      cases hlive : s.live i with
      | some point => exact h
      | none =>
          refine manned_afterTask h ?_
          rw [holds_of_none hlive]
          exact moves_beginTask event
  | startUser i key text env =>
      unfold step
      dsimp only
      cases hlive : s.live i with
      | some point => exact h
      | none =>
          refine manned_afterDialogue h ?_
          rw [holds_of_none hlive]
          exact moves_driveStep
  | startResult i key taskId result env =>
      unfold step
      dsimp only
      cases hlive : s.live i with
      | some point => exact h
      | none =>
          refine manned_afterDialogue h ?_
          rw [holds_of_none hlive]
          exact moves_driveStep
  | systemEvent key env l =>
      unfold step
      dsimp only
      cases hevent : ManagerRuntime.systemEvent env maxSteps l (s.stateOf key) with
      | none => exact h
      | some r => exact Leased.unheld h (moves_finishSteps l moves_driveStep hevent)
  | next i env =>
      unfold step
      dsimp only
      cases hlive : s.live i with
      | none => exact h
      | some point =>
          have hholds := holds_of_some hlive
          cases point with
          | task point =>
              refine manned_afterTask h ?_
              obtain ⟨w, hget, hbusy⟩ := h.busy_of_live hlive rfl
              rw [hholds]
              exact moves_stepTask point (Or.inl rfl) hget hbusy
          -- A dialogue that was suspended holds the worker that it waits for, if any.
          | dialogue key point =>
              refine manned_afterDialogue h ?_
              rw [hholds]
              exact moves_resume point fun id hid => h.busy_of_live hlive hid
  | discard i env =>
      unfold step
      dsimp only
      cases hlive : s.live i with
      | none => exact h
      | some point => exact manned_closed env h hlive
  | released key => exact h
  | resetForNewSession key => exact h

/-- **Every run.** -/
theorem manned_of_reachable (h : (machine maxSteps).Reachable s) : s.Manned := by
  refine h.invariant ?_ fun s input _ hs => manned_step hs input
  rintro s ⟨hfree, -, hlive, -⟩
  have hidle : ∀ id, ¬s.pool.Busy id := by
    rintro id ⟨w, hget, hbusy⟩
    exact hbusy (hfree id w hget)
  exact
    { holder := fun id hbusy => absurd hbusy (hidle id)
      busy := fun i id hheld => by
        rw [holds_of_none (hlive i)] at hheld
        cases hheld }

/-- **A worker is at work exactly for one request.**  Whatever the requests do, in whatever order
their generators are advanced and closed, and whatever the models and the tools answer: every worker
that is not free is at work for exactly one of the requests that are not yet finished, no request
holds a worker that is free, and when all requests have ended, all workers are free. -/
theorem workers_leased (h : (machine maxSteps).Reachable s) :
    (∀ id w, s.pool.workers.get? id = some w → w.state ≠ State.free →
        ∃! i, s.holds i = some id) ∧
      (∀ i id, s.holds i = some id →
        ∃ w, s.pool.workers.get? id = some w ∧ w.state ≠ State.free) ∧
      ((∀ i, s.live i = none) → ∀ id w, s.pool.workers.get? id = some w → w.state = State.free) := by
  have hmanned := manned_of_reachable h
  refine ⟨fun id w hget hbusy => hmanned.holder id ⟨w, hget, hbusy⟩, hmanned.busy, ?_⟩
  intro hended id w hget
  by_contra hbusy
  exact hmanned.not_busy (fun i => holds_of_none (hended i)) id ⟨w, hget, hbusy⟩

/-- A pool of one worker, and one dialogue. -/
def newSystem : ManagerSystem Unit ℕ where
  pool :=
    { workers := PyDict.ofList [("agent1", AgentWorker.create "agent1" 4)]
      eventWorkerId := none }
  contexts := fun _ =>
    { dialogue := { base := { role := ChatRole.system, content := ChatContent.text "base" }, turns := [] }
      chatMode := false
      closeChatAfterReply := false
      waitingForWorker := false
      activeRequestText := []
      asked := [] }
  live := fun _ => none
  turns := []

theorem init_newSystem (maxSteps : ℕ) : (machine maxSteps).init newSystem := by
  refine ⟨fun id w hget => ?_, fun _ => ⟨rfl, rfl, rfl⟩, fun _ => rfl, rfl⟩
  have hmem := PyDict.mem_values_of_get? hget
  rw [List.mem_singleton.1 hmem]
  rfl

/-- A task whose worker makes one step; the output of its model is not accepted. -/
def oneTask : TaskRecord where
  taskId := 7
  description := "d"
  text := "t"
  method := TaskMethod.task
  skills := ["clock"]
  timerPeriodSeconds := none
  enabled := true
  generation := "g"
  executor := Policy.auto
  agentId := none

def oneTaskEnv : ManagerEnv where
  tools := AgentWorker.answerEnv "?"
  step := AgentWorker.answerEnv "?"
  drive := []
  prep := { runtime := true, systemContext := some "base", written := true }
  sleepRaises := false
  caught := fun _ => false
  describe := fun _ => "?"
  legacy := fun _ => none
  float := fun _ => none
  floatText := fun _ => "?"
  indexText := "?"
  missingText := "?"
  casefold := fun text => text
  eventText := "?"
  require := fun _ => none
  store := true
  stored := some (some oneTask)
  current := some (some oneTask)
  binding := none
  catalog := fun _ _ => none
  createExternal := none
  createPeriodic := none
  timer := "?"

/-- The task is started, and its worker is at work. -/
theorem workers_leased_oneTask :
    ∃! i, ((machine 8).exec newSystem
      [Input.startTask 0
        { source := "timer", name := "task_timer7", task := [], createdMonotonic := 0 }
        oneTaskEnv]).holds i = some (PyStr.ofString "agent1") := by
  have hleased := workers_leased (Machine.Reachable.exec (Machine.Reach.of_init (init_newSystem 8))
    [Input.startTask 0
      { source := "timer", name := "task_timer7", task := [], createdMonotonic := 0 } oneTaskEnv])
  exact hleased.1 "agent1" _ rfl (by decide)

end ManagerSystem
