/-
**Agent workers: the step budget and the turns of the dialogue.**

A worker carries a task through model calls and tool calls.  Every answer of the model is followed
by one new message of the user: the result of a tool, a correction, or the context that the worker
asked for.  An activation may suspend itself to wait for context, and is then continued; a tool that
reads a text in fragments suspends a step in the middle.

The model, the tools, the files of the prompts and the reset of the model's context are the outside
world: what they do in one call is the value of type `StepEnv` or `BeginEnv` that the call is given.

Main definitions:

* `AgentWorker`, `AgentWorker.begin`, `AgentWorker.step`, `AgentWorker.continueWith` — the worker;
* `AgentWorker.machine` — any sequence of calls;
* `AgentWorker.WellTurned` — system, user, assistant, …, user;
* `AgentWorker.InBudget` — the worker is not continued when its steps are used up.

Main results:

* `AgentWorker.settled_of_reach` — the invariant;
* `AgentWorker.promises_kept` — **every call of the model is well turned, an activation makes no more
  calls than it may, and afterwards only the base message is left**;
* `AgentWorker.continued_over_budget` — but a worker that asks in its last step and is continued
  makes one call too many.
-/

import CatAgent.AgentProtocol
import CatAgent.InferenceService
import CatAgent.Host
import CatAgent.Machine

set_option relaxedAutoImplicit false
set_option autoImplicit false

namespace AgentWorker

/-! ### The worker -/

/-- `AgentState`. -/
inductive State where
  | free
  | running
  | waiting
deriving DecidableEq

/-- `AgentOutcome.status`. -/
inductive Status where
  | ok
  | need
  | failed
deriving DecidableEq

/-- `AgentOutcome`. -/
structure Outcome where
  agentId : PyStr
  status : Status
  text : PyStr
  steps : ℕ
deriving DecidableEq

/-- The exceptions that leave a call. -/
inductive Raised where
  /-- `begin` of a worker that is not free. -/
  | notFree
  | invalidMethod
  /-- `deferred command must be non-empty`. -/
  | emptyCommand
  /-- `deferred result must be non-empty`. -/
  | emptyResult
  | notRunning
  /-- The `TT violation`: a model call requires a fresh user tick. -/
  | noFreshTick
  | notWaiting
  | assertion
  /-- `begin` could not make the runtime, read the prompts or write one. -/
  | preparation
  /-- The client raised something that is no `ModelClientError`. -/
  | client
  /-- `json.loads` raised something that is no `JSONDecodeError`. -/
  | decoder
  | tool
  /-- `plan_first_command` turns what went wrong into a `RuntimeError`. -/
  | planning (text : PyStr)
deriving DecidableEq

/-- A dialogue: `_messages` is the first message and the turns after it. -/
structure Dialogue where
  base : ChatMessage
  turns : List ChatMessage
deriving DecidableEq

/-- `_messages`. -/
def Dialogue.messages (l : Dialogue) : List ChatMessage := l.base :: l.turns

/-- `_messages.append({"role": role, "content": content})`. -/
def Dialogue.append (role : ChatRole) (content : ChatContent) (l : Dialogue) : Dialogue :=
  { l with turns := l.turns ++ [{ role := role, content := content }] }

/-- The base message and one turn of the user. -/
def Dialogue.fresh (systemContext taskPrompt : PyStr) : Dialogue where
  base := { role := ChatRole.system, content := ChatContent.text systemContext }
  turns := [{ role := ChatRole.user, content := ChatContent.text taskPrompt }]

/-- What `skill_script_steps` returns for an assigned script. -/
inductive ScriptResult where
  /-- `SKILL_SILENT`. -/
  | silent
  | content (content : ChatContent)

/-- `CommandResult`, with its text. -/
structure CommandResult where
  exitCode : ℤ
  stdout : PyStr
  stderr : PyStr
  /-- `format_result(result)`. -/
  formatted : PyStr

/-- Where a step is suspended: the tool, the number of the step and the command. -/
inductive Suspended where
  | partly (step : ℕ) (command : PyStr)
  | script (step : ℕ) (command : PyStr)
deriving DecidableEq

/-- `_deferred_command` and `_deferred_result`. -/
structure Deferred where
  command : PyStr
  result : PyStr
deriving DecidableEq

end AgentWorker

/-- `AgentWorker`. -/
structure AgentWorker where
  agentId : PyStr
  maxSteps : ℕ
  state : AgentWorker.State
  messages : Option AgentWorker.Dialogue
  sessionBootstrap : Option PyStr
  /-- `_runtime`, by the names of its skills. -/
  runtime : Option (List PyStr)
  method : Option PyStr
  task : Option PyStr
  stepsUsed : ℕ
  repeated : PyDict (PyStr × ℤ × PyStr × PyStr) ℕ
  deferred : Option AgentWorker.Deferred
  /-- `_step_iterator`, between two fragments. -/
  pending : Option AgentWorker.Suspended
  /-- A record of the message lists that `client.chat` was given since the last `begin`. -/
  asked : List (List ChatMessage)

namespace AgentWorker

/-- What `client.chat` does. -/
inductive ChatAnswer where
  | reply (content : PyStr)
  /-- `ModelClientError`. -/
  | modelError (text : PyStr)
  | raised
deriving DecidableEq

/-- What a tool does when it runs, or runs on: it may stop at the boundary of a fragment. -/
inductive ToolAnswer (α : Type) where
  | returned (a : α)
  | boundary
  | raised

/-- What the outside world does in one step. -/
structure StepEnv where
  json : JsonDecoder
  host : Host
  chat : ChatAnswer
  /-- `_runtime.prompt()`. -/
  prompt : PyStr
  /-- `reset_to_base` raises. -/
  resetRaises : Bool
  /-- `tool_dispatcher.dispatch`; `none` if it raises. -/
  dispatch : Option (Option PyStr)
  /-- `read_picture`; `none` if it raises. -/
  picture : Option (Option ChatContent)
  /-- `read_partly_steps`. -/
  partly : ToolAnswer (Option PyStr)
  /-- `skill_script_steps`. -/
  script : ToolAnswer (Option ScriptResult)
  /-- `_runtime.execute`; `none` if it raises. -/
  execute : Option CommandResult

/-- What the outside world does in `begin`. -/
structure BeginEnv where
  /-- `CommandRuntime(…)` returns. -/
  runtime : Bool
  /-- `build_agent_system_context`; `none` if it raises. -/
  systemContext : Option PyStr
  /-- `write_agent_prompt` returns. -/
  written : Bool

/-- What a call of `step` returns. -/
abbrev Result := Except Raised (Option Outcome)

/-! ### Prompts -/

/-- `json.dumps(…, ensure_ascii=False, indent=2)` of an object of strings, and a line break. -/
def indented (fields : List (PyStr × PyStr)) : PyStr :=
  let line (field : PyStr × PyStr) : PyStr :=
    PyStr.ofString "\n  " ++ Json.escape field.1 ++ PyStr.ofString ": " ++ Json.escape field.2
  PyStr.ofString "\x7b" ++ Json.commaJoin (fields.map line) ++ PyStr.ofString "\n\x7d\n"

/-- `build_agent_task(task, method)`. -/
def buildAgentTask (task : PyStr) (method : Option PyStr) : PyStr :=
  indented
    ((method.toList.map fun m => (PyStr.ofString "method", m)) ++
      [(PyStr.ofString "task", PyStr.strip task)])

/-- `build_agent_context(context)`. -/
def buildAgentContext (context : PyStr) : PyStr :=
  indented [(PyStr.ofString "context", PyStr.strip context)]

/-- `format_protocol_error(message)`. -/
def formatProtocolError (env : StepEnv) (message : PyStr) : PyStr :=
  PyStr.ofString "protocol error: " ++ message ++ PyStr.ofString "\n" ++ env.prompt

/-! ### The methods -/

section Methods

variable (env : StepEnv) (step : ℕ) (command : PyStr) (w : AgentWorker)

/-- The worker appends a message. -/
def tell (role : ChatRole) (content : ChatContent) : AgentWorker :=
  { w with messages := w.messages.map (Dialogue.append role content) }

/-- `_release(preserve_session=preserve)`; the session is lost as well when its reset raises. -/
def release (resetRaises preserve : Bool) : AgentWorker :=
  let keeps := preserve && w.messages.isSome && !resetRaises
  { w with
    state := State.free
    messages := if keeps then w.messages.map fun l => { l with turns := [] } else none
    sessionBootstrap := if keeps then w.sessionBootstrap else none
    runtime := none
    method := none
    task := none
    stepsUsed := 0
    repeated := PyDict.empty
    deferred := none
    pending := none }

/-- The outcome `status`, and the worker that has been released. -/
def finish (status : Status) (text : PyStr) (preserve : Bool) : Result × AgentWorker :=
  (Except.ok (some { agentId := w.agentId, status := status, text := text, steps := step }),
    w.release env.resetRaises preserve)

/-- `_continue_or_limit(step)`. -/
def continueOrLimit : Result × AgentWorker :=
  if w.stepsUsed < w.maxSteps then (Except.ok none, w)
  else
    w.finish env (if w.stepsUsed = 0 then step else w.stepsUsed) Status.failed
      (PyStr.ofString "agent exceeded maximum of " ++ PyStr.ofString (toString w.maxSteps) ++
        PyStr.ofString " model steps") false

/-- A new message of the user, and the limit. -/
def answer (content : ChatContent) : Result × AgentWorker :=
  (w.tell ChatRole.user content).continueOrLimit env step

/-- The answer to an output that the protocol does not accept. -/
def correct (message : PyStr) : Result × AgentWorker :=
  w.answer env step (ChatContent.text (formatProtocolError env message))

/-- The end of `_step_steps`: the command is executed by the runtime. -/
def runCommand : Result × AgentWorker :=
  match env.execute with
  | none => (Except.error Raised.tool, w)
  | some result =>
      let signature := (command, result.exitCode, result.stdout, result.stderr)
      let times := (w.repeated.get? signature).getD 0 + 1
      let w := { w with repeated := w.repeated.set signature times }
      if 2 < times then
        w.finish env step Status.failed
          (PyStr.ofString "same command with the same result repeated more than twice") false
      else w.answer env step (ChatContent.text result.formatted)

/-- From `skill_script_steps` on. -/
def runScript : Result × AgentWorker :=
  match env.script with
  | ToolAnswer.boundary =>
      (Except.ok none, { w with pending := some (Suspended.script step command) })
  | ToolAnswer.raised => (Except.error Raised.tool, w)
  | ToolAnswer.returned (some ScriptResult.silent) => w.finish env step Status.ok [] true
  | ToolAnswer.returned (some (ScriptResult.content content)) => w.answer env step content
  | ToolAnswer.returned none => w.runCommand env step command

/-- From `read_partly_steps` on. -/
def runPartly : Result × AgentWorker :=
  match env.partly with
  | ToolAnswer.boundary =>
      (Except.ok none, { w with pending := some (Suspended.partly step command) })
  | ToolAnswer.raised => (Except.error Raised.tool, w)
  | ToolAnswer.returned (some text) => w.answer env step (ChatContent.text text)
  | ToolAnswer.returned none => w.runScript env step command

/-- From `read_picture` on. -/
def runPicture : Result × AgentWorker :=
  match env.picture with
  | none => (Except.error Raised.tool, w)
  | some (some content) => w.answer env step content
  | some none => w.runPartly env step command

/-- A command: its deferred result, or the tools one after the other. -/
def runTools : Result × AgentWorker :=
  match w.deferred with
  | some deferred =>
      if command ≠ deferred.command then
        w.finish env step Status.failed
          (PyStr.ofString "deferred MQTT command changed: expected " ++
            env.host.repr deferred.command ++ PyStr.ofString ", got " ++ env.host.repr command)
          false
      else
        { w with deferred := none }.answer env step (ChatContent.text deferred.result)
  | none =>
      match env.dispatch with
      | none => (Except.error Raised.tool, w)
      | some (some text) => w.answer env step (ChatContent.text text)
      | some none => w.runPicture env step command

/-- What follows an answer of the model, which is already in the dialogue. -/
def respond (content : PyStr) : Result × AgentWorker :=
  match AgentDirective.read env.json content with
  | none => (Except.error Raised.decoder, w)
  | some (AgentDirective.error text) => w.correct env step text
  | some (AgentDirective.done body) =>
      if w.method = some (PyStr.ofString "task") ∧ body ≠ [] then
        w.correct env step (PyStr.ofString "task completion must be \x7b\"done\":true\x7d")
      else if w.method = none ∧ body = [] then
        w.correct env step (PyStr.ofString
          "ordinary task completion requires a non-empty string in \x7b\"result\":\"...\"\x7d")
      else
        w.finish env step Status.ok
          (if w.method = some (PyStr.ofString "task") then [] else body) true
  | some (AgentDirective.need body) =>
      (Except.ok
          (some { agentId := w.agentId, status := Status.need, text := body, steps := step }),
        { w with state := State.waiting })
  | some (AgentDirective.command command) => w.runTools env step command

/-- The worker counts a model call and makes it with the messages `l`. -/
def ask (l : List ChatMessage) : AgentWorker :=
  { w with stepsUsed := w.stepsUsed + 1, asked := w.asked ++ [l] }

/-- A new step: one call of the model. -/
def turn : Result × AgentWorker :=
  if w.state ≠ State.running then (Except.error Raised.notRunning, w)
  else
    match w.messages, w.runtime with
    | some l, some _ =>
        if (l.turns.getLast?.getD l.base).role ≠ ChatRole.user then
          (Except.error Raised.noFreshTick, w)
        else
          let w := w.ask l.messages
          match env.chat with
          | ChatAnswer.raised => (Except.error Raised.client, w)
          | ChatAnswer.modelError text => w.finish env w.stepsUsed Status.failed text false
          | ChatAnswer.reply content =>
              (w.tell ChatRole.assistant (ChatContent.text content)).respond env w.stepsUsed content
    | _, _ => (Except.error Raised.assertion, w)

/-- `step()`: a new step, or the rest of the one that is suspended. -/
def advance : Result × AgentWorker :=
  match w.pending with
  | none => w.turn env
  | some (Suspended.partly step command) => { w with pending := none }.runPartly env step command
  | some (Suspended.script step command) => { w with pending := none }.runScript env step command

/-- The dialogue of a new activation; one that begins with the same prompt is kept. -/
def dialogue (systemContext taskPrompt : PyStr) : Dialogue :=
  match w.messages with
  | some l =>
      if w.sessionBootstrap = some systemContext then
        l.append ChatRole.user (ChatContent.text taskPrompt)
      else Dialogue.fresh systemContext taskPrompt
  | none => Dialogue.fresh systemContext taskPrompt

/-- `begin(task, skills, method=method)`. -/
def begin (prep : BeginEnv) (task : PyStr) (skills : List PyStr) (method : Option PyStr) :
    Except Raised Unit × AgentWorker :=
  if w.state ≠ State.free then (Except.error Raised.notFree, w)
  else if method ∉ [none, some (PyStr.ofString "task"), some (PyStr.ofString "query")] then
    (Except.error Raised.invalidMethod, w)
  else
    let w := { w with method := method, task := some (PyStr.strip task), deferred := none }
    if !prep.runtime then (Except.error Raised.preparation, w)
    else
      let w := { w with runtime := some skills }
      match prep.systemContext, prep.written with
      | some systemContext, true =>
          (Except.ok (),
            { w with
              messages := some (w.dialogue systemContext (buildAgentTask task method))
              sessionBootstrap := some systemContext
              stepsUsed := 0
              repeated := PyDict.empty
              state := State.running
              asked := [] })
      | _, _ => (Except.error Raised.preparation, w)

/-- `begin_with_tool_result(task, skills, command, result, method=method)`. -/
def beginWithToolResult (prep : BeginEnv) (task : PyStr) (skills : List PyStr)
    (command result : PyStr) (method : Option PyStr) : Except Raised Unit × AgentWorker :=
  if (PyStr.strip command).isEmpty then (Except.error Raised.emptyCommand, w)
  else if (PyStr.strip result).isEmpty then (Except.error Raised.emptyResult, w)
  else
    match w.begin prep task skills method with
    | (Except.error e, w) => (Except.error e, w)
    | (Except.ok (), w) =>
        (Except.ok (),
          { w with
            deferred := some { command := PyStr.strip command, result := PyStr.strip result } })

/-- `plan_first_command(task, skills, method=method)`. -/
def planFirstCommand (prep : BeginEnv) (task : PyStr) (skills : List PyStr)
    (method : Option PyStr) : Except Raised PyStr × AgentWorker :=
  match w.begin prep task skills method with
  | (Except.error e, w) => (Except.error e, w)
  | (Except.ok (), w) =>
      let w := w.ask (w.messages.elim [] Dialogue.messages)
      match env.chat with
      | ChatAnswer.raised => (Except.error Raised.client, w)
      | ChatAnswer.modelError text =>
          (Except.error (Raised.planning (PyStr.ofString "model request failed: " ++ text)),
            w.release env.resetRaises false)
      | ChatAnswer.reply content =>
          let w := w.tell ChatRole.assistant (ChatContent.text content)
          match unwrapWorkCommand (PyStr.strip content) with
          | Except.error text =>
              (Except.error
                  (Raised.planning (PyStr.ofString "invalid external event command: " ++ text)),
                w.release env.resetRaises false)
          | Except.ok none =>
              (Except.error
                  (Raised.planning
                    (PyStr.ofString "external event setup requires one /work# command")),
                w.release env.resetRaises false)
          | Except.ok (some command) => (Except.ok command, w.release env.resetRaises true)

/-- `continue_with(context)`, before the steps that it drives. -/
def continueWith (context : PyStr) : Except Raised Unit × AgentWorker :=
  if w.state ≠ State.waiting ∨ w.messages = none then (Except.error Raised.notWaiting, w)
  else
    (Except.ok (),
      { w.tell ChatRole.user (ChatContent.text (buildAgentContext context)) with
        state := State.running })

/-- `sleep_to_base()`. -/
def sleepToBase (resetRaises : Bool) : AgentWorker := w.release resetRaises true

end Methods

/-! ### Runs -/

/-- A call of one of the methods. -/
inductive Call where
  | begin (prep : BeginEnv) (task : PyStr) (skills : List PyStr) (method : Option PyStr)
  | beginWithToolResult (prep : BeginEnv) (task : PyStr) (skills : List PyStr)
      (command result : PyStr) (method : Option PyStr)
  /-- `start`, before the steps that it drives. -/
  | start (prep : BeginEnv) (task : PyStr) (skills : List PyStr) (method : Option PyStr)
  | planFirstCommand (env : StepEnv) (prep : BeginEnv) (task : PyStr) (skills : List PyStr)
      (method : Option PyStr)
  /-- `step()`, called by the owner of the worker or by `_drive`. -/
  | step (env : StepEnv)
  /-- `continue_with`, before the steps that it drives. -/
  | continueWith (context : PyStr)
  | sleepToBase (resetRaises : Bool)

/-- A worker in a run. -/
structure Record where
  worker : AgentWorker
  /-- `_drive` of `start` or `continue_with` is stepping the worker. -/
  driving : Bool
  /-- The outcome that the last step returned. -/
  last : Option Outcome

/-- The outcome that a step returns. -/
def outcomeOf : Result → Option Outcome
  | Except.ok o => o
  | Except.error _ => none

/-- `_drive` goes on. -/
def goesOn : Result → Bool
  | Except.ok none => true
  | _ => false

/-- Whether a call returned. -/
def returned {α : Type} : Except Raised α → Bool
  | Except.ok _ => true
  | Except.error _ => false

/-- A call that is no step. -/
def Record.call (s : Record) : Call → Record
  | Call.begin prep task skills method =>
      { worker := (s.worker.begin prep task skills method).2, driving := false, last := none }
  | Call.beginWithToolResult prep task skills command result method =>
      { worker := (s.worker.beginWithToolResult prep task skills command result method).2
        driving := false
        last := none }
  | Call.start prep task skills method =>
      let r := s.worker.begin prep task skills method
      { worker := r.2, driving := returned r.1, last := none }
  | Call.planFirstCommand env prep task skills method =>
      { worker := (s.worker.planFirstCommand env prep task skills method).2
        driving := false
        last := none }
  | Call.continueWith context =>
      let r := s.worker.continueWith context
      { worker := r.2, driving := returned r.1, last := none }
  | Call.sleepToBase resetRaises =>
      { worker := s.worker.sleepToBase resetRaises, driving := false, last := none }
  | Call.step _ => s

/-- A call.  While `_drive` is stepping the worker there is no other one. -/
def Record.step (s : Record) : Call → Record
  | Call.step env =>
      let r := s.worker.advance env
      { worker := r.2, driving := s.driving && goesOn r.1, last := outcomeOf r.1 }
  | c => if s.driving then s else s.call c

/-- `AgentWorker(agent_id, …, max_steps=max_steps)`. -/
def create (agentId : PyStr) (maxSteps : ℕ) : AgentWorker where
  agentId := agentId
  maxSteps := maxSteps
  state := State.free
  messages := none
  sessionBootstrap := none
  runtime := none
  method := none
  task := none
  stepsUsed := 0
  repeated := PyDict.empty
  deferred := none
  pending := none
  asked := []

/-- Any sequence of calls of a new worker; the configuration makes `max_steps` at least 1. -/
def machine : Machine Record Call where
  init := fun s =>
    ∃ agentId maxSteps, 1 ≤ maxSteps ∧
      s = { worker := create agentId maxSteps, driving := false, last := none }
  step := Record.step

/-- The worker is not continued when its steps are used up, and the client raises nothing but
`ModelClientError`. -/
def InBudget (s : Record) : Call → Prop
  | Call.step env => s.worker.pending = none → env.chat ≠ ChatAnswer.raised
  | Call.planFirstCommand env _ _ _ _ => env.chat ≠ ChatAnswer.raised
  | Call.continueWith _ => s.worker.state = State.waiting → s.worker.stepsUsed < s.worker.maxSteps
  | _ => True

/-! ### Turns -/

/-- Who speaks in a turn: the user first. -/
def turnRole (i : ℕ) : ChatRole := if i % 2 = 0 then ChatRole.user else ChatRole.assistant

/-- User and assistant take turns. -/
def Alternating (turns : List ChatMessage) : Prop :=
  ∀ i m, turns[i]? = some m → m.role = turnRole i

/-- The system message, and turns of user and assistant that end with the user. -/
def WellTurned (l : List ChatMessage) : Prop :=
  ∃ base turns, l = base :: turns ∧ base.role = ChatRole.system ∧ Alternating turns ∧
    turns.getLast?.map ChatMessage.role = some ChatRole.user

theorem alternating_append {turns : List ChatMessage} {role : ChatRole} {content : ChatContent}
    (h : Alternating turns) (hrole : role = turnRole turns.length) :
    Alternating (turns ++ [{ role := role, content := content }]) := by
  intro i m hm
  rcases Nat.lt_trichotomy i turns.length with hlt | heq | hgt
  · rw [List.getElem?_append_left hlt] at hm
    exact h i m hm
  · subst heq
    rw [List.getElem?_concat_length] at hm
    cases hm
    exact hrole
  · rw [List.getElem?_eq_none (by rw [List.length_append, List.length_singleton]; omega)] at hm
    cases hm

theorem singleton_alternating {content : ChatContent} :
    Alternating [{ role := ChatRole.user, content := content }] :=
  @alternating_append [] ChatRole.user content nofun rfl

theorem last_of_alternating {turns : List ChatMessage} (h : Alternating turns)
    (hne : turns ≠ []) : turns.getLast?.map ChatMessage.role = some (turnRole (turns.length - 1)) := by
  rw [List.getLast?_eq_getElem?]
  have hlt : turns.length - 1 < turns.length := by
    have := List.length_pos_iff.2 hne
    omega
  rw [List.getElem?_eq_getElem hlt]
  exact congrArg some (h _ _ (List.getElem?_eq_getElem hlt))

theorem wellTurned_of_odd {l : Dialogue} (hbase : l.base.role = ChatRole.system)
    (halt : Alternating l.turns) (hodd : l.turns.length % 2 = 1) : WellTurned l.messages := by
  have hne : l.turns ≠ [] := by
    intro h
    rw [h] at hodd
    cases hodd
  refine ⟨l.base, l.turns, rfl, hbase, halt, ?_⟩
  rw [last_of_alternating halt hne, turnRole, if_pos (by omega)]

/-- The check of `_step_steps` finds the user's turn. -/
theorem odd_of_last {l : Dialogue} (hbase : l.base.role = ChatRole.system)
    (halt : Alternating l.turns) (hlast : (l.turns.getLast?.getD l.base).role = ChatRole.user) :
    l.turns.length % 2 = 1 := by
  by_cases hne : l.turns = []
  · rw [hne, List.getLast?_nil, Option.getD_none, hbase] at hlast
    cases hlast
  · have hrole := last_of_alternating halt hne
    obtain ⟨m, hm⟩ := Option.isSome_iff_exists.1 (List.getLast?_isSome.2 hne)
    rw [hm] at hlast hrole
    have heq : m.role = turnRole (l.turns.length - 1) := Option.some.inj hrole
    rw [Option.getD_some, heq, turnRole] at hlast
    have hpos := List.length_pos_iff.2 hne
    by_contra hodd
    rw [if_neg (by omega)] at hlast
    cases hlast

/-! ### The invariant -/

/-- What holds of a worker at any time. -/
structure Sound (w : AgentWorker) : Prop where
  positive : 1 ≤ w.maxSteps
  base : ∀ l, w.messages = some l →
    ∃ prompt, l.base = { role := ChatRole.system, content := ChatContent.text prompt } ∧
      w.sessionBootstrap = some prompt
  alternating : ∀ l, w.messages = some l → Alternating l.turns
  turned : ∀ a ∈ w.asked, WellTurned a
  /-- Every call of the model has heard more than the ones before it. -/
  growing : w.asked.Pairwise fun a b => a.length < b.length
  within : w.asked.length ≤ w.maxSteps

/-- An activation with the dialogue `l`. -/
structure Active (w : AgentWorker) (l : Dialogue) : Prop where
  messages : w.messages = some l
  equipped : w.runtime.isSome
  counted : w.stepsUsed = w.asked.length
  older : ∀ a ∈ w.asked, a.length < l.messages.length

/-- The user has spoken, and a model call is left. -/
structure Ready (w : AgentWorker) (l : Dialogue) : Prop where
  sound : Sound w
  active : Active w l
  running : w.state = State.running
  pending : w.pending = none
  odd : l.turns.length % 2 = 1
  left : w.stepsUsed < w.maxSteps

/-- The model has spoken. -/
structure Midway (w : AgentWorker) (l : Dialogue) : Prop where
  sound : Sound w
  active : Active w l
  running : w.state = State.running
  pending : w.pending = none
  even : l.turns.length % 2 = 0

/-- What holds of a worker between two calls. -/
structure Settled (w : AgentWorker) : Prop where
  sound : Sound w
  free : w.state = State.free → w.pending = none ∧ ∀ l, w.messages = some l → l.turns = []
  waiting : w.state = State.waiting →
    w.pending = none ∧ ∃ l, Active w l ∧ l.turns.length % 2 = 0
  running : w.state = State.running →
    ∃ l, Active w l ∧ (w.pending ≠ none → l.turns.length % 2 = 0) ∧
      (l.turns.length % 2 = 1 → w.stepsUsed < w.maxSteps)

/-- A step leaves a settled worker, which is free after an outcome other than a question. -/
def Good (p : Result × AgentWorker) : Prop :=
  Settled p.2 ∧ ∀ o, p.1 = Except.ok (some o) → o.status ≠ Status.need → p.2.state = State.free

variable {env : StepEnv} {step : ℕ} {command : PyStr} {w : AgentWorker} {l : Dialogue}

theorem Ready.settled (h : Ready w l) : Settled w where
  sound := h.sound
  free := fun hs => by rw [h.running] at hs; cases hs
  waiting := fun hs => by rw [h.running] at hs; cases hs
  running := fun _ => ⟨l, h.active, fun hp => absurd h.pending hp, fun _ => h.left⟩

theorem Midway.settled (h : Midway w l) : Settled w where
  sound := h.sound
  free := fun hs => by rw [h.running] at hs; cases hs
  waiting := fun hs => by rw [h.running] at hs; cases hs
  running := fun _ => ⟨l, h.active, fun _ => h.even, fun hodd => by rw [h.even] at hodd; cases hodd⟩

theorem Midway.suspend (h : Midway w l) (p : Suspended) :
    Settled { w with pending := some p } where
  sound := ⟨h.sound.positive, h.sound.base, h.sound.alternating, h.sound.turned, h.sound.growing,
    h.sound.within⟩
  free := fun hs => by
    have hstate : w.state = State.free := hs
    rw [h.running] at hstate
    cases hstate
  waiting := fun hs => by
    have hstate : w.state = State.waiting := hs
    rw [h.running] at hstate
    cases hstate
  running := fun _ =>
    ⟨l, { h.active with }, fun _ => h.even,
      fun hodd => by rw [h.even] at hodd; cases hodd⟩

theorem Sound.release (h : Sound w) (resetRaises preserve : Bool) :
    Settled (w.release resetRaises preserve) where
  sound :=
    { positive := h.positive
      base := by
        intro l hl
        unfold AgentWorker.release at hl ⊢
        dsimp only at hl ⊢
        split_ifs at hl ⊢ with hkeeps
        obtain ⟨l₀, hl₀, rfl⟩ := Option.map_eq_some_iff.1 hl
        exact h.base l₀ hl₀
      alternating := by
        intro l hl
        unfold AgentWorker.release at hl
        dsimp only at hl
        split_ifs at hl with hkeeps
        obtain ⟨l₀, _, rfl⟩ := Option.map_eq_some_iff.1 hl
        intro i m hm
        cases hm
      turned := h.turned
      growing := h.growing
      within := h.within }
  free := by
    intro _
    refine ⟨rfl, fun l hl => ?_⟩
    unfold AgentWorker.release at hl
    dsimp only at hl
    split_ifs at hl with hkeeps
    obtain ⟨l₀, _, rfl⟩ := Option.map_eq_some_iff.1 hl
    rfl
  waiting := nofun
  running := nofun

/-! ### What the operations keep -/

theorem good_error (e : Raised) (h : Settled w) : Good (Except.error e, w) :=
  ⟨h, nofun⟩

theorem good_finish (h : Sound w) (status : Status) (text : PyStr) (preserve : Bool) :
    Good (w.finish env step status text preserve) :=
  ⟨h.release _ _, fun _ _ _ => rfl⟩

/-- The user speaks after the model; the limit is checked afterwards. -/
theorem Midway.tell_user (h : Midway w l) (content : ChatContent) :
    Sound (w.tell ChatRole.user content) ∧
      Active (w.tell ChatRole.user content) (l.append ChatRole.user content) := by
  have hmessages : (w.tell ChatRole.user content).messages =
      some (l.append ChatRole.user content) := by
    unfold tell
    rw [h.active.messages]
    rfl
  refine ⟨{ h.sound with base := ?_, alternating := ?_ },
    { messages := hmessages, equipped := h.active.equipped, counted := h.active.counted,
      older := ?_ }⟩
  · intro l' hl'
    rw [hmessages] at hl'
    cases hl'
    exact h.sound.base l h.active.messages
  · intro l' hl'
    rw [hmessages] at hl'
    cases hl'
    refine alternating_append (h.sound.alternating l h.active.messages) ?_
    rw [turnRole, if_pos h.even]
  · intro a ha
    have hlt := h.active.older a ha
    simp only [Dialogue.messages, Dialogue.append, List.length_cons, List.length_append,
      List.length_nil] at hlt ⊢
    omega

theorem odd_append {role : ChatRole} {content : ChatContent} (h : l.turns.length % 2 = 0) :
    (l.append role content).turns.length % 2 = 1 := by
  simp only [Dialogue.append, List.length_append, List.length_singleton]
  omega

theorem Midway.answer (h : Midway w l) (content : ChatContent) :
    Good (w.answer env step content) := by
  obtain ⟨hsound, hactive⟩ := h.tell_user content
  unfold AgentWorker.answer continueOrLimit
  split
  · rename_i hleft
    have hready : Ready (w.tell ChatRole.user content) (l.append ChatRole.user content) :=
      { sound := hsound
        active := hactive
        running := h.running
        pending := h.pending
        odd := odd_append h.even
        left := hleft }
    exact ⟨hready.settled, nofun⟩
  · exact good_finish hsound _ _ _

theorem Midway.runCommand (h : Midway w l) : Good (w.runCommand env step command) := by
  unfold AgentWorker.runCommand
  cases env.execute with
  | none => exact good_error _ h.settled
  | some result =>
      dsimp only
      generalize w.repeated.set _ _ = repeated
      have hmid : Midway { w with repeated := repeated } l :=
        { sound := { h.sound with }
          active := { h.active with }
          running := h.running
          pending := h.pending
          even := h.even }
      split
      · exact good_finish hmid.sound _ _ _
      · exact hmid.answer _

theorem Midway.runScript (h : Midway w l) : Good (w.runScript env step command) := by
  unfold AgentWorker.runScript
  match env.script with
  | ToolAnswer.boundary => exact ⟨h.suspend _, nofun⟩
  | ToolAnswer.raised => exact good_error _ h.settled
  | ToolAnswer.returned (some ScriptResult.silent) => exact good_finish h.sound _ _ _
  | ToolAnswer.returned (some (ScriptResult.content content)) => exact h.answer content
  | ToolAnswer.returned none => exact h.runCommand

theorem Midway.runPartly (h : Midway w l) : Good (w.runPartly env step command) := by
  unfold AgentWorker.runPartly
  match env.partly with
  | ToolAnswer.boundary => exact ⟨h.suspend _, nofun⟩
  | ToolAnswer.raised => exact good_error _ h.settled
  | ToolAnswer.returned (some text) => exact h.answer _
  | ToolAnswer.returned none => exact h.runScript

theorem Midway.runPicture (h : Midway w l) : Good (w.runPicture env step command) := by
  unfold AgentWorker.runPicture
  match env.picture with
  | none => exact good_error _ h.settled
  | some (some content) => exact h.answer content
  | some none => exact h.runPartly

theorem Midway.runTools (h : Midway w l) : Good (w.runTools env step command) := by
  unfold AgentWorker.runTools
  cases w.deferred with
  | some deferred =>
      have hmid : Midway { w with deferred := none } l :=
        { sound := { h.sound with }
          active := { h.active with }
          running := h.running
          pending := h.pending
          even := h.even }
      dsimp only
      split
      · exact good_finish h.sound _ _ _
      · exact hmid.answer _
  | none =>
      match env.dispatch with
      | none => exact good_error _ h.settled
      | some (some text) => exact h.answer _
      | some none => exact h.runPicture

/-- Whatever the model answers, the step leaves a settled worker. -/
theorem Midway.respond (h : Midway w l) (content : PyStr) : Good (w.respond env step content) := by
  unfold AgentWorker.respond
  match AgentDirective.read env.json content with
  | none => exact good_error _ h.settled
  | some (AgentDirective.error text) => exact h.answer _
  | some (AgentDirective.done body) =>
      dsimp only
      split
      · exact h.answer _
      split
      · exact h.answer _
      · exact good_finish h.sound _ _ _
  | some (AgentDirective.need body) =>
      refine ⟨?_, ?_⟩
      · exact
          { sound := { h.sound with }
            free := nofun
            waiting := fun _ => ⟨h.pending, l, { h.active with }, h.even⟩
            running := nofun }
      · intro o ho hne
        cases ho
        exact absurd rfl hne
  | some (AgentDirective.command command) => exact h.runTools

/-- A model call is well turned, and within the budget. -/
theorem Ready.ask (h : Ready w l) : Sound (w.ask l.messages) := by
  obtain ⟨prompt, hbase, _⟩ := h.sound.base l h.active.messages
  refine { h.sound with turned := ?_, growing := ?_, within := ?_ }
  · intro a ha
    rcases List.mem_append.1 ha with ha | ha
    · exact h.sound.turned a ha
    · rw [List.mem_singleton.1 ha]
      exact wellTurned_of_odd (by rw [hbase]) (h.sound.alternating l h.active.messages) h.odd
  · refine List.pairwise_append.2 ⟨h.sound.growing, List.pairwise_singleton _ _, ?_⟩
    intro a ha b hb
    rw [List.mem_singleton.1 hb]
    exact h.active.older a ha
  · have hleft := h.left
    rw [h.active.counted] at hleft
    simp only [AgentWorker.ask, List.length_append, List.length_singleton]
    exact hleft

/-- The model speaks after the user. -/
theorem Ready.tell_model (h : Ready w l) (content : ChatContent) :
    Midway ((w.ask l.messages).tell ChatRole.assistant content)
      (l.append ChatRole.assistant content) := by
  have hmessages : ((w.ask l.messages).tell ChatRole.assistant content).messages =
      some (l.append ChatRole.assistant content) := by
    unfold tell AgentWorker.ask
    rw [h.active.messages]
    rfl
  have hsound := h.ask
  refine
    { sound := { hsound with base := ?_, alternating := ?_ }
      active := { messages := hmessages, equipped := h.active.equipped, counted := ?_, older := ?_ }
      running := h.running
      pending := h.pending
      even := ?_ }
  · intro l' hl'
    rw [hmessages] at hl'
    cases hl'
    exact h.sound.base l h.active.messages
  · intro l' hl'
    rw [hmessages] at hl'
    cases hl'
    refine alternating_append (h.sound.alternating l h.active.messages) ?_
    rw [turnRole, if_neg (by rw [h.odd]; decide)]
  · simp only [tell, AgentWorker.ask, List.length_append, List.length_singleton]
    rw [h.active.counted]
  · intro a ha
    have hlt : a.length ≤ l.messages.length := by
      rcases List.mem_append.1 ha with ha | ha
      · exact (h.active.older a ha).le
      · rw [List.mem_singleton.1 ha]
    simp only [Dialogue.messages, Dialogue.append, List.length_cons, List.length_append,
      List.length_nil] at hlt ⊢
    omega
  · have hodd := h.odd
    simp only [Dialogue.append, List.length_append, List.length_singleton]
    omega

/-- A new step finds the worker ready, or makes no call. -/
theorem Settled.turn (h : Settled w) (hpending : w.pending = none)
    (hchat : env.chat ≠ ChatAnswer.raised) : Good (w.turn env) := by
  unfold AgentWorker.turn
  by_cases hstate : w.state = State.running
  · rw [if_neg (not_not_intro hstate)]
    obtain ⟨l, hactive, _, hleft⟩ := h.running hstate
    rw [hactive.messages]
    cases w.runtime with
    | none => exact good_error _ h
    | some skills =>
        dsimp only
        split
        · exact good_error _ h
        · rename_i hlast
          obtain ⟨prompt, hbase, _⟩ := h.sound.base l hactive.messages
          have hodd : l.turns.length % 2 = 1 :=
            odd_of_last (by rw [hbase]) (h.sound.alternating l hactive.messages)
              (not_not.1 hlast)
          have hready : Ready w l :=
            { sound := h.sound
              active := hactive
              running := hstate
              pending := hpending
              odd := hodd
              left := hleft hodd }
          match hanswer : env.chat with
          | ChatAnswer.raised => exact absurd hanswer hchat
          | ChatAnswer.modelError text => exact good_finish hready.ask _ _ _
          | ChatAnswer.reply content => exact (hready.tell_model _).respond content
  · rw [if_pos hstate]
    exact good_error _ h

/-- A suspended step is resumed after the model has spoken. -/
theorem Settled.midway {p : Suspended} (h : Settled w) (hpending : w.pending = some p) :
    ∃ l, Midway { w with pending := none } l := by
  have hstate : w.state = State.running := by
    cases hstate : w.state with
    | free =>
        rw [(h.free hstate).1] at hpending
        cases hpending
    | waiting =>
        rw [(h.waiting hstate).1] at hpending
        cases hpending
    | running => rfl
  obtain ⟨l, hactive, heven, _⟩ := h.running hstate
  exact ⟨l,
    { sound := { h.sound with }
      active := { hactive with }
      running := hstate
      pending := rfl
      even := heven (by rw [hpending]; exact Option.some_ne_none p) }⟩

theorem Settled.advance (h : Settled w)
    (hchat : w.pending = none → env.chat ≠ ChatAnswer.raised) : Good (w.advance env) := by
  unfold AgentWorker.advance
  match hpending : w.pending with
  | none => exact h.turn hpending (hchat hpending)
  | some (Suspended.partly step command) =>
      obtain ⟨l, hmid⟩ := h.midway hpending
      exact hmid.runPartly
  | some (Suspended.script step command) =>
      obtain ⟨l, hmid⟩ := h.midway hpending
      exact hmid.runScript

/-! ### Activations -/

variable {prep : BeginEnv} {task : PyStr} {skills : List PyStr} {method : Option PyStr}

/-- A free worker stays settled when only what it remembers of the task changes. -/
theorem Settled.remember (h : Settled w) (hfree : w.state = State.free)
    (method task : Option PyStr) (runtime : Option (List PyStr)) :
    Settled
      { w with method := method, task := task, deferred := none, runtime := runtime } where
  sound := { h.sound with }
  free := h.free
  waiting := fun hs => by
    have hstate : w.state = State.waiting := hs
    rw [hfree] at hstate
    cases hstate
  running := fun hs => by
    have hstate : w.state = State.running := hs
    rw [hfree] at hstate
    cases hstate

theorem Settled.defer (h : Settled w) (deferred : Option Deferred) :
    Settled { w with deferred := deferred } where
  sound := { h.sound with }
  free := h.free
  waiting := fun hs => by
    obtain ⟨hpending, l, hactive, heven⟩ := h.waiting hs
    exact ⟨hpending, l, { hactive with }, heven⟩
  running := fun hs => by
    obtain ⟨l, hactive, heven, hleft⟩ := h.running hs
    exact ⟨l, { hactive with }, heven, hleft⟩

/-- The dialogue of a new activation has the base message and one turn. -/
theorem Settled.dialogue (h : Settled w) (hfree : w.state = State.free)
    (systemContext taskPrompt : PyStr) :
    w.dialogue systemContext taskPrompt = Dialogue.fresh systemContext taskPrompt := by
  unfold AgentWorker.dialogue
  cases hmessages : w.messages with
  | none => rfl
  | some l =>
      dsimp only
      split
      · rename_i hsame
        obtain ⟨prompt, hbase, hbootstrap⟩ := h.sound.base l hmessages
        rw [hbootstrap] at hsame
        cases hsame
        unfold Dialogue.append
        rw [(h.free hfree).2 l hmessages, hbase, List.nil_append]
        rfl
      · rfl

/-- **An activation begins with the base message and one turn of the user.** -/
theorem Settled.begin (h : Settled w) :
    Settled (w.begin prep task skills method).2 ∧
      ((w.begin prep task skills method).1 = Except.ok () →
        ∃ l, Ready (w.begin prep task skills method).2 l) := by
  unfold AgentWorker.begin
  split
  · exact ⟨h, nofun⟩
  rename_i hbusy
  have hfree := not_not.1 hbusy
  split
  · exact ⟨h, nofun⟩
  dsimp only
  split
  · exact ⟨h.remember hfree _ _ _, nofun⟩
  split
  · rename_i systemContext _ _
    rw [(h.remember hfree method (some (PyStr.strip task)) (some skills)).dialogue hfree]
    refine (fun hready : Ready _ (Dialogue.fresh systemContext (buildAgentTask task method)) =>
      ⟨hready.settled, fun _ => ⟨_, hready⟩⟩) ?_
    exact
      { sound :=
          { positive := h.sound.positive
            base := fun l hl => by
              cases hl
              exact ⟨systemContext, rfl, rfl⟩
            alternating := fun l hl => by
              cases hl
              exact singleton_alternating
            turned := nofun
            growing := List.Pairwise.nil
            within := Nat.zero_le _ }
        active := { messages := rfl, equipped := rfl, counted := rfl, older := nofun }
        running := rfl
        pending := (h.free hfree).1
        odd := rfl
        left := h.sound.positive }
  · exact ⟨h.remember hfree _ _ _, nofun⟩

theorem Settled.beginWithToolResult (h : Settled w) {result : PyStr} :
    Settled (w.beginWithToolResult prep task skills command result method).2 := by
  unfold AgentWorker.beginWithToolResult
  split
  · exact h
  split
  · exact h
  have hbegin := @Settled.begin w prep task skills method h
  split
  · rename_i e w' heq
    rw [heq] at hbegin
    exact hbegin.1
  · rename_i w' heq
    rw [heq] at hbegin
    exact hbegin.1.defer _

theorem Settled.planFirstCommand (h : Settled w) (hchat : env.chat ≠ ChatAnswer.raised) :
    Settled (w.planFirstCommand env prep task skills method).2 := by
  unfold AgentWorker.planFirstCommand
  have hbegin := @Settled.begin w prep task skills method h
  split
  · rename_i e w' heq
    rw [heq] at hbegin
    exact hbegin.1
  · rename_i w' heq
    rw [heq] at hbegin
    obtain ⟨l, hready⟩ := hbegin.2 rfl
    have hmessages : w'.messages.elim [] Dialogue.messages = l.messages := by
      rw [hready.active.messages]
      rfl
    dsimp only
    rw [hmessages]
    match hanswer : env.chat with
    | ChatAnswer.raised => exact absurd hanswer hchat
    | ChatAnswer.modelError text => exact hready.ask.release _ _
    | ChatAnswer.reply content =>
        have hsound := (hready.tell_model (ChatContent.text content)).sound
        dsimp only
        split
        · exact hsound.release _ _
        · exact hsound.release _ _
        · exact hsound.release _ _

/-- **A worker that has steps left may be continued.** -/
theorem Settled.continueWith (h : Settled w) {context : PyStr}
    (hleft : w.state = State.waiting → w.stepsUsed < w.maxSteps) :
    Settled (w.continueWith context).2 := by
  unfold AgentWorker.continueWith
  split
  · exact h
  rename_i hwaiting
  push Not at hwaiting
  obtain ⟨hpending, l, hactive, heven⟩ := h.waiting hwaiting.1
  -- The worker is where it would be after the result of a tool.
  have hmid : Midway { w with state := State.running } l :=
    { sound := { h.sound with }
      active := { hactive with }
      running := rfl
      pending := hpending
      even := heven }
  obtain ⟨hsound, hactive'⟩ := hmid.tell_user (ChatContent.text (buildAgentContext context))
  have hready : Ready
      ({ w with state := State.running }.tell ChatRole.user
        (ChatContent.text (buildAgentContext context)))
      (l.append ChatRole.user (ChatContent.text (buildAgentContext context))) :=
    { sound := hsound
      active := hactive'
      running := rfl
      pending := hpending
      odd := odd_append heven
      left := hleft hwaiting.1 }
  exact hready.settled

/-! ### The budget -/

/-- What an outcome other than a question leaves. -/
def Rests (s : Record) : Prop :=
  ∀ o, s.last = some o → o.status ≠ Status.need → s.worker.state = State.free

theorem Settled.call {s : Record} (h : Settled s.worker) {c : Call} (hok : InBudget s c) :
    Settled (s.call c).worker := by
  cases c with
  | begin prep task skills method => exact h.begin.1
  | beginWithToolResult prep task skills command result method => exact h.beginWithToolResult
  | start prep task skills method => exact h.begin.1
  | planFirstCommand env prep task skills method => exact h.planFirstCommand hok
  | step env => exact h
  | continueWith context => exact h.continueWith hok
  | sleepToBase resetRaises => exact h.sound.release _ _

theorem rests_call {s : Record} (h : Rests s) (c : Call) : Rests (s.call c) := by
  cases c with
  | step env => exact h
  | begin | beginWithToolResult | start | planFirstCommand | continueWith | sleepToBase =>
      exact nofun

theorem settled_step {s : Record} (h : Settled s.worker) (hrests : Rests s) {c : Call}
    (hok : InBudget s c) : Settled (s.step c).worker ∧ Rests (s.step c) := by
  by_cases hstep : ∃ env, c = Call.step env
  · obtain ⟨env, rfl⟩ := hstep
    obtain ⟨hsettled, htells⟩ := h.advance hok
    refine ⟨hsettled, fun o ho hne => htells o ?_ hne⟩
    have hlast : outcomeOf (s.worker.advance env).1 = some o := ho
    cases hresult : (s.worker.advance env).1 with
    | error e =>
        rw [hresult] at hlast
        cases hlast
    | ok r =>
        rw [hresult] at hlast
        exact congrArg Except.ok hlast
  · have hcall : s.step c = if s.driving then s else s.call c := by
      cases c with
      | step env => exact absurd ⟨env, rfl⟩ hstep
      | begin | beginWithToolResult | start | planFirstCommand | continueWith | sleepToBase => rfl
    rw [hcall]
    split
    · exact ⟨h, hrests⟩
    · exact ⟨h.call hok, rests_call hrests c⟩

/-- **In a run within the budget the worker is settled after every call.** -/
theorem settled_of_reach {s : Record} (h : machine.Reach InBudget s) :
    Settled s.worker ∧ Rests s := by
  refine h.invariant (I := fun s => Settled s.worker ∧ Rests s) ?_ ?_
  · rintro s ⟨agentId, maxSteps, hpositive, rfl⟩
    refine ⟨?_, nofun⟩
    exact
      { sound :=
          { positive := hpositive
            base := nofun
            alternating := nofun
            turned := nofun
            growing := List.Pairwise.nil
            within := Nat.zero_le _ }
        free := fun _ => ⟨rfl, nofun⟩
        waiting := nofun
        running := nofun }
  · intro s c _ hs hok
    exact settled_step hs.1 hs.2 hok

/-- What is left of an activation: the base message with the prompt that it was made from, or
nothing. -/
def AtBase (w : AgentWorker) : Prop :=
  w.state = State.free ∧
    (w.messages = none ∨
      ∃ prompt, w.sessionBootstrap = some prompt ∧
        w.messages =
          some
            { base := { role := ChatRole.system, content := ChatContent.text prompt }
              turns := [] })

theorem Settled.atBase (h : Settled w) (hfree : w.state = State.free) : AtBase w := by
  refine ⟨hfree, ?_⟩
  cases hmessages : w.messages with
  | none => exact Or.inl rfl
  | some l =>
      obtain ⟨prompt, hbase, hbootstrap⟩ := h.sound.base l hmessages
      have hturns := (h.free hfree).2 l hmessages
      cases l with
      | mk base turns =>
          cases hbase
          cases hturns
          exact Or.inr ⟨prompt, hbootstrap, rfl⟩

/-- The three promises: every model call of the activation is well turned and ends in a message of
the user that no call before it has heard; there are at most `max_steps` of them; and an outcome
other than a question leaves a free worker at its base. -/
def KeepsBudget (s : Record) : Prop :=
  (∀ a ∈ s.worker.asked, WellTurned a) ∧
    (s.worker.asked.Pairwise fun a b => a.length < b.length) ∧
    s.worker.asked.length ≤ s.worker.maxSteps ∧
    ∀ o, s.last = some o → o.status ≠ Status.need → AtBase s.worker

/-- **In every run whose steps stay within the budget, the three promises are kept.** -/
theorem promises_kept {s : Record} (h : machine.Reach InBudget s) : KeepsBudget s := by
  obtain ⟨hsettled, hrests⟩ := settled_of_reach h
  exact ⟨hsettled.sound.turned, hsettled.sound.growing, hsettled.sound.within,
    fun o ho hne => hsettled.atBase (hrests o ho hne)⟩

/-! ### A question in the last step -/

theorem asked_answer (content : ChatContent) : (w.answer env step content).2.asked = w.asked := by
  unfold AgentWorker.answer continueOrLimit
  split <;> rfl

theorem asked_runCommand : (w.runCommand env step command).2.asked = w.asked := by
  unfold AgentWorker.runCommand
  cases env.execute with
  | none => rfl
  | some result =>
      dsimp only
      split
      · rfl
      · exact asked_answer _

theorem asked_runScript : (w.runScript env step command).2.asked = w.asked := by
  unfold AgentWorker.runScript
  match env.script with
  | ToolAnswer.boundary => rfl
  | ToolAnswer.raised => rfl
  | ToolAnswer.returned (some ScriptResult.silent) => rfl
  | ToolAnswer.returned (some (ScriptResult.content content)) => exact asked_answer _
  | ToolAnswer.returned none => exact asked_runCommand

theorem asked_runPicture : (w.runPicture env step command).2.asked = w.asked := by
  unfold AgentWorker.runPicture
  match env.picture with
  | none => rfl
  | some (some content) => exact asked_answer _
  | some none =>
      unfold AgentWorker.runPartly
      match env.partly with
      | ToolAnswer.boundary => rfl
      | ToolAnswer.raised => rfl
      | ToolAnswer.returned (some text) => exact asked_answer _
      | ToolAnswer.returned none => exact asked_runScript

theorem asked_runTools : (w.runTools env step command).2.asked = w.asked := by
  unfold AgentWorker.runTools
  cases w.deferred with
  | some deferred =>
      dsimp only
      split
      · rfl
      · exact asked_answer _
  | none =>
      match env.dispatch with
      | none => rfl
      | some (some text) => exact asked_answer _
      | some none => exact asked_runPicture

theorem asked_respond (content : PyStr) : (w.respond env step content).2.asked = w.asked := by
  unfold AgentWorker.respond
  match AgentDirective.read env.json content with
  | none => rfl
  | some (AgentDirective.error text) => exact asked_answer _
  | some (AgentDirective.done body) =>
      dsimp only
      split
      · exact asked_answer _
      split
      · exact asked_answer _
      · rfl
  | some (AgentDirective.need body) => rfl
  | some (AgentDirective.command command) => exact asked_runTools

/-- A step that finds the user's turn makes a call, whatever comes of it. -/
theorem asked_turn {skills : List PyStr} (hrunning : w.state = State.running)
    (hmessages : w.messages = some l) (hruntime : w.runtime = some skills)
    (hlast : (l.turns.getLast?.getD l.base).role = ChatRole.user) :
    (w.turn env).2.asked = w.asked ++ [l.messages] := by
  unfold AgentWorker.turn
  rw [if_neg (not_not_intro hrunning), hmessages, hruntime]
  dsimp only
  rw [if_neg (not_not_intro hlast)]
  match env.chat with
  | ChatAnswer.raised => rfl
  | ChatAnswer.modelError text => rfl
  | ChatAnswer.reply content => exact asked_respond content

/-- **A worker that asked in its last step and is continued makes one call too many**, whatever the
model answers. -/
theorem continued_over_budget (h : Settled w) (hwaiting : w.state = State.waiting)
    (hused : w.maxSteps ≤ w.stepsUsed) (context : PyStr) :
    w.maxSteps < ((w.continueWith context).2.advance env).2.asked.length := by
  obtain ⟨hpending, l, hactive, _⟩ := h.waiting hwaiting
  obtain ⟨skills, hskills⟩ := Option.isSome_iff_exists.1 hactive.equipped
  have hcontinued : (w.continueWith context).2 =
      { w.tell ChatRole.user (ChatContent.text (buildAgentContext context)) with
        state := State.running } := by
    unfold AgentWorker.continueWith
    rw [if_neg (by rw [hactive.messages, hwaiting]; simp)]
  have hmessages : (w.continueWith context).2.messages =
      some (l.append ChatRole.user (ChatContent.text (buildAgentContext context))) := by
    rw [hcontinued]
    exact congrArg (Option.map _) hactive.messages
  have hadvance : (w.continueWith context).2.advance env = (w.continueWith context).2.turn env := by
    unfold AgentWorker.advance
    rw [show (w.continueWith context).2.pending = none by rw [hcontinued]; exact hpending]
  rw [hadvance, @asked_turn env _ _ skills (by rw [hcontinued]) hmessages
    (by rw [hcontinued]; exact hskills) (by simp [Dialogue.append]), List.length_append,
    List.length_singleton, hcontinued]
  have hcounted := hactive.counted
  have hsame : ({ w.tell ChatRole.user (ChatContent.text (buildAgentContext context)) with
      state := State.running } : AgentWorker).asked = w.asked := rfl
  rw [hsame]
  omega

/-- A step in which no tool runs and the model answers `content`. -/
def answerEnv (content : PyStr) : StepEnv where
  json :=
    { read := { parseFloat := fun _ => Json.null, parseConstant := fun _ => Json.null }
      message := fun _ => "Expecting value"
      beyond := fun _ => false }
  host := Host.ascii
  chat := ChatAnswer.reply content
  prompt := "$"
  resetRaises := false
  dispatch := some none
  picture := some none
  partly := ToolAnswer.returned none
  script := ToolAnswer.returned none
  execute := none

/-- A query: the model asks for something, is told, and answers. -/
def oneQuestion : List Call :=
  [Call.begin { runtime := true, systemContext := some "base", written := true } "t" []
      (some "query"),
    Call.step (answerEnv "\x7b\"need\":\"x\"\x7d"), Call.continueWith "y",
    Call.step (answerEnv "\x7b\"result\":\"z\"\x7d")]

/-- A new worker that may call the model `maxSteps` times. -/
def newRecord (maxSteps : ℕ) : Record where
  worker := create "agent1" maxSteps
  driving := false
  last := none

theorem promises_kept_oneQuestion : KeepsBudget (machine.exec (newRecord 2) oneQuestion) := by
  refine promises_kept ⟨newRecord 2, ⟨"agent1", 2, by decide, rfl⟩, ?_⟩
  refine Machine.leads_of_guarded ⟨trivial, fun _ => nofun, fun _ => ?_, fun _ => nofun, trivial⟩
  decide

/-- With one step the same query makes two calls. -/
theorem not_promises_kept : ¬ ∀ s, machine.Reachable s → KeepsBudget s := by
  intro h
  have hinit : machine.init (newRecord 1) := ⟨"agent1", 1, le_refl 1, rfl⟩
  have hbad := h _ (Machine.Reachable.exec (Machine.Reach.of_init hinit) oneQuestion)
  have hlength : (machine.exec (newRecord 1) oneQuestion).worker.asked.length = 2 := by decide
  have hmax : (machine.exec (newRecord 1) oneQuestion).worker.maxSteps = 1 := by decide
  have hwithin := hbad.2.2.1
  rw [hlength, hmax] at hwithin
  omega

end AgentWorker
