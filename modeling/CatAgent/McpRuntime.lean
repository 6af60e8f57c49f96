/-
**Calls to MCP servers.**

Every MCP server has an owner, a task of one event loop, which opens the connection, takes the
requests from the queue of its server and passes them on one at a time.  Callers are other threads:
a caller has its request put into the queue, waits for the result for some time, and then tries to
cancel it.  When the runtime stops, the owners are cancelled and what is left in the queues is
answered.

An owner suspends only at the operations that wait; at each of them it may be cancelled, and when
it leaves a connection, what was raised may come out as another exception, as a cancellation, or
not at all.  What the servers do, how long everything takes and which thread goes on is decided by
the environment.

Main definitions:

* `McpTool`, `McpAnswer`, `McpRequest` — the data;
* `McpRuntime` — the fields of the runtime and the states of its tasks;
* `McpEffect`, `McpM` — what the threads do, and their programs;
* `McpRuntime.call`, `McpRuntime.ownerRound`, `McpRuntime.main`, `McpRuntime.drainRound`,
  `McpRuntime.start`, `McpRuntime.close` — the programs;
* `McpServers.threads` — the system.
-/

import CatAgent.Future
import CatAgent.Json
import CatAgent.PyDict
import CatAgent.Threads

set_option relaxedAutoImplicit false
set_option autoImplicit false

/-! ### Data -/

structure McpTool where
  server : PyStr
  name : PyStr
  description : PyStr
  schemaJson : PyStr
deriving DecidableEq

/-- `qualified_name`. -/
def McpTool.qualifiedName (tool : McpTool) : PyStr :=
  PyStr.ofString "mcp:" ++ tool.server ++ PyStr.ofString ":" ++ tool.name

/-- Why a server is unavailable. -/
inductive McpUnavailable where
  | connectionClosed
  | reconnecting
  | loopStopped
  | coreStopping
deriving DecidableEq

/-- Why the outcome of a call is not known. -/
inductive McpUnknown where
  | callFailed
  | callTimedOut
  | coreStopping
deriving DecidableEq

/-- What a caller is told. -/
inductive McpAnswer where
  | unknownTool
  | unavailable (reason : McpUnavailable)
  | invalidArguments
  | toolChanged
  | expired
  | outcomeUnknown (reason : McpUnknown)
  /-- `format_mcp_result`, without its first line. -/
  | result (payload : PyStr)
deriving DecidableEq

namespace McpAnswer

def text : McpAnswer → PyStr
  | unknownTool => "SYSTEM_ERROR\nMCP unknown_tool: not in CORE startup catalog"
  | unavailable McpUnavailable.connectionClosed =>
      "SYSTEM_ERROR\nMCP unavailable: CORE connection closed"
  | unavailable McpUnavailable.reconnecting =>
      "SYSTEM_ERROR\nMCP unavailable: server reconnecting"
  | unavailable McpUnavailable.loopStopped =>
      "SYSTEM_ERROR\nMCP unavailable: connection loop stopped"
  | unavailable McpUnavailable.coreStopping => "SYSTEM_ERROR\nMCP unavailable: CORE stopping"
  | invalidArguments =>
      "SYSTEM_ERROR\nMCP invalid_arguments: arguments do not match startup inputSchema"
  | toolChanged => "SYSTEM_ERROR\nMCP tool_changed: restart CORE to refresh catalog"
  | expired => "SYSTEM_ERROR\nMCP timeout: expired before dispatch; no call sent"
  | outcomeUnknown McpUnknown.callFailed =>
      "SYSTEM_ERROR\nMCP outcome_unknown: call failed or timed out; do not replay automatically"
  | outcomeUnknown McpUnknown.callTimedOut =>
      "SYSTEM_ERROR\nMCP outcome_unknown: call timed out; do not replay automatically"
  | outcomeUnknown McpUnknown.coreStopping =>
      "SYSTEM_ERROR\nMCP outcome_unknown: CORE stopping; do not replay automatically"
  | result payload => PyStr.ofString "MCP_RESULT\n" ++ payload

/-- The caller is told that the request expired before it was dispatched, that the tool has changed,
or that the server is unavailable. -/
def NotSent : McpAnswer → Prop
  | unavailable _ | toolChanged | expired => True
  | _ => False

/-- The caller is told that the outcome is unknown. -/
def OutcomeUnknown : McpAnswer → Prop
  | outcomeUnknown _ => True
  | _ => False

end McpAnswer

/-- `_Request`. -/
structure McpRequest where
  tool : McpTool
  arguments : Json
  result : Future McpAnswer := Future.pending
  started : Bool := false

/-! ### The runtime -/

/-- `_loop`: not there, running, or closed. -/
inductive McpLoop where
  | unset
  | running
  | closed
deriving DecidableEq

/-- Where an owner stands. -/
inductive McpPhase where
  | starting
  /-- At the beginning of the outer loop. -/
  | connecting
  /-- In the inner loop, with the tools of the connection. -/
  | serving (live : List McpTool)
  | ended
deriving DecidableEq

/-- Where the main task stands. -/
inductive McpMain where
  | starting
  | running
  /-- The owners have ended, and the queues are emptied. -/
  | draining
  | ended
deriving DecidableEq

/-- The fields of the runtime, and where its tasks stand. -/
structure McpRuntime where
  /-- `_tools`, by qualified name. -/
  tools : PyDict PyStr McpTool
  /-- `_status`, by server. -/
  status : PyStr → PyStr × PyStr
  /-- `_thread is not None`, and `_thread.is_alive()`. -/
  thread : Bool
  alive : Bool
  /-- `_started` is set. -/
  started : Bool
  loop : McpLoop
  /-- `_stop` is set. -/
  stop : Bool
  closed : Bool
  /-- The futures `initial` of the main task, by server. -/
  initialTools : PyStr → Option (List McpTool)
  phase : PyStr → McpPhase
  mainTask : McpMain

/-- How opening a connection ends. -/
inductive McpConnection where
  /-- With the names, descriptions and schemas of the tools. -/
  | opened (tools : List (PyStr × PyStr × PyStr))
  | failed (reason : PyStr) (importError : Bool)
  | cancelled

/-- How a dispatched call ends. -/
inductive McpOutcome where
  | returned (payload : PyStr)
  | raised (reason : PyStr)
  | cancelled

/-- What comes out of a connection that is left because something was raised. -/
inductive McpExit where
  | raised (reason : PyStr) (importError : Bool)
  | cancelled
  | suppressed

/-- The operations of the threads. -/
inductive McpEffect : Type 1 where
  /-- Fields of the runtime are read and written. -/
  | fields (β : Type) (f : McpRuntime → β × McpRuntime)
  /-- Waiting for a condition, with a timeout or without. -/
  | wait (p : McpRuntime → Bool) (timed : Bool)
  /-- `_Request(tool, arguments, Future())`. -/
  | newRequest (tool : McpTool) (arguments : Json)
  /-- `_loop.call_soon_threadsafe(queue.put_nowait, request)`. -/
  | putSoon (r : ℕ)
  /-- `_loop.call_soon_threadsafe(_stop.set)`. -/
  | stopSoon
  /-- `request.result.result(timeout)`. -/
  | result (r : ℕ)
  /-- `request.result.cancel()`. -/
  | cancel (r : ℕ)
  /-- A call of the runtime returns; `r` is its request, if it has made one. -/
  | tell (r : Option ℕ) (answer : McpAnswer)
  /-- `import anyio`. -/
  | importAnyio
  /-- Opening the connection, and `_list_tools`. -/
  | connect (server : PyStr)
  | sleep (server : PyStr)
  /-- `await queue.get()`. -/
  | get (server : PyStr)
  /-- `queue.get_nowait()`, unless the queue is empty. -/
  | getNowait (server : PyStr)
  /-- The variable `current` of an owner. -/
  | current (server : PyStr)
  | setCurrent (server : PyStr) (r : Option ℕ)
  | tool (r : ℕ)
  | isStarted (r : ℕ)
  | setStarted (r : ℕ)
  /-- `request.result.cancelled()`. -/
  | cancelled (r : ℕ)
  /-- `request.result.set_running_or_notify_cancel()`. -/
  | setRunning (r : ℕ)
  /-- `client.session.call_tool(name, arguments)` begins. -/
  | callTool (server : PyStr) (r : ℕ) (name : PyStr)
  /-- It ends. -/
  | outcome (server : PyStr) (r : ℕ)
  /-- `_finish`. -/
  | finish (r : ℕ) (answer : McpAnswer)
  /-- The connection is left. -/
  | exit (server : PyStr)

/-- The answers to the operations. -/
def McpEffect.Answer : McpEffect → Type
  | fields β _ => β
  | newRequest _ _ => ℕ
  | wait _ _ | putSoon _ | cancel _ | importAnyio | sleep _ | isStarted _ | cancelled _ => Bool
  | result _ => Option McpAnswer
  | connect _ => McpConnection
  | get _ | getNowait _ | current _ => Option ℕ
  | tool _ => McpTool
  | setRunning _ => Option Bool
  | outcome _ _ => McpOutcome
  | exit _ => McpExit
  | stopSoon | tell _ _ | setCurrent _ _ | setStarted _ | callTool _ _ _ | finish _ _ => Unit

/-- Programs of the threads. -/
abbrev McpM := Program McpEffect McpEffect.Answer

namespace McpRuntime

/-- A runtime that has just been made. -/
def initial : McpRuntime where
  tools := PyDict.empty
  status := fun _ => ("unavailable", "not_started")
  thread := false
  alive := false
  started := false
  loop := McpLoop.unset
  stop := false
  closed := false
  initialTools := fun _ => none
  phase := fun _ => McpPhase.starting
  mainTask := McpMain.starting

def op (e : McpEffect) : McpM e.Answer := Program.operation e

def wait (p : McpRuntime → Bool) (timed : Bool) : McpM Bool := op (McpEffect.wait p timed)

def newRequest (tool : McpTool) (arguments : Json) : McpM ℕ :=
  op (McpEffect.newRequest tool arguments)

def putSoon (r : ℕ) : McpM Bool := op (McpEffect.putSoon r)

def stopSoon : McpM Unit := op McpEffect.stopSoon

def result (r : ℕ) : McpM (Option McpAnswer) := op (McpEffect.result r)

def cancel (r : ℕ) : McpM Bool := op (McpEffect.cancel r)

def tell (r : Option ℕ) (answer : McpAnswer) : McpM Unit := op (McpEffect.tell r answer)

def importAnyio : McpM Bool := op McpEffect.importAnyio

def connect (server : PyStr) : McpM McpConnection := op (McpEffect.connect server)

def sleep (server : PyStr) : McpM Bool := op (McpEffect.sleep server)

def get (server : PyStr) : McpM (Option ℕ) := op (McpEffect.get server)

def getNowait (server : PyStr) : McpM (Option ℕ) := op (McpEffect.getNowait server)

def current (server : PyStr) : McpM (Option ℕ) := op (McpEffect.current server)

def setCurrent (server : PyStr) (r : Option ℕ) : McpM Unit := op (McpEffect.setCurrent server r)

def tool (r : ℕ) : McpM McpTool := op (McpEffect.tool r)

def isStarted (r : ℕ) : McpM Bool := op (McpEffect.isStarted r)

def setStarted (r : ℕ) : McpM Unit := op (McpEffect.setStarted r)

def cancelled (r : ℕ) : McpM Bool := op (McpEffect.cancelled r)

def setRunning (r : ℕ) : McpM (Option Bool) := op (McpEffect.setRunning r)

def callTool (server : PyStr) (r : ℕ) (name : PyStr) : McpM Unit :=
  op (McpEffect.callTool server r name)

def outcome (server : PyStr) (r : ℕ) : McpM McpOutcome := op (McpEffect.outcome server r)

def finish (r : ℕ) (answer : McpAnswer) : McpM Unit := op (McpEffect.finish r answer)

def exit (server : PyStr) : McpM McpExit := op (McpEffect.exit server)

def fields {β : Type} (f : McpRuntime → β × McpRuntime) : McpM β := op (McpEffect.fields β f)

def read {β : Type} (f : McpRuntime → β) : McpM β := fields fun rt => (f rt, rt)

def update (f : McpRuntime → McpRuntime) : McpM Unit := fields fun rt => ((), f rt)

/-- `_state`. -/
def setState (server state reason : PyStr) : McpM Unit :=
  update fun rt => { rt with status := Function.update rt.status server (state, reason) }

/-- `initial.set_result`, unless it is done. -/
def setInitial (server : PyStr) (tools : List McpTool) : McpM Unit :=
  update fun rt =>
    { rt with
      initialTools := Function.update rt.initialTools server
        (some ((rt.initialTools server).getD tools)) }

def setPhase (server : PyStr) (phase : McpPhase) : McpM Unit :=
  update fun rt => { rt with phase := Function.update rt.phase server phase }

/-! ### Callers -/

/-- `McpRuntime.call`, with the request that it has made; `valid` says whether arguments match a
schema. -/
def call (valid : PyStr → Json → Bool) (name : PyStr) (arguments : Json) :
    McpM (Option ℕ × McpAnswer) := do
  match ← read fun rt => rt.tools.get? name with
  | none => return (none, McpAnswer.unknownTool)
  | some tool =>
      if ← read fun rt => rt.closed || decide (rt.loop = McpLoop.unset) || ! rt.alive then
        return (none, McpAnswer.unavailable McpUnavailable.connectionClosed)
      else if ← read fun rt => decide ((rt.status tool.server).1 ≠ PyStr.ofString "ready") then
        return (none, McpAnswer.unavailable McpUnavailable.reconnecting)
      else if valid tool.schemaJson arguments then do
        let r ← newRequest tool arguments
        if ← putSoon r then
          match ← result r with
          | some answer => return (some r, answer)
          | none =>
              if ← cancel r then return (some r, McpAnswer.expired)
              else return (some r, McpAnswer.outcomeUnknown McpUnknown.callTimedOut)
        else return (some r, McpAnswer.unavailable McpUnavailable.loopStopped)
      else return (none, McpAnswer.invalidArguments)

/-- A caller calls, and is told the answer. -/
def ask (valid : PyStr → Json → Bool) (name : PyStr) (arguments : Json) : McpM Unit := do
  let (r, answer) ← call valid name arguments
  tell r answer

/-- `McpRuntime.close`. -/
def close : McpM Unit := do
  if ← fields fun rt => (rt.closed, { rt with closed := true }) then return ()
  else stopSoon

/-- The states of all servers. -/
def setStates (state reason : PyStr) : List PyStr → McpM Unit
  | [] => return ()
  | server :: servers => do
      setState server state reason
      setStates state reason servers

/-- `McpRuntime.start`. -/
def start (servers : List PyStr) : McpM Unit := do
  if ← fields fun rt =>
      if rt.thread || rt.closed || servers.isEmpty then (true, rt)
      else (false, { rt with thread := true, alive := true }) then return ()
  else if ← wait (fun rt => rt.started) true then return ()
  else do
    close
    setStates "unavailable" "startup_timeout" servers

/-! ### Owners -/

/-- `finally` of an owner. -/
def ending (server : PyStr) : McpM Unit := do
  setInitial server []
  match ← current server with
  | some r => do
      let started ← isStarted r
      finish r (if started then McpAnswer.outcomeUnknown McpUnknown.coreStopping
        else McpAnswer.unavailable McpUnavailable.coreStopping)
  | none => pure ()
  if ← read fun rt => rt.closed then setState server "unavailable" "closed"
  else if ← read fun rt => decide ((rt.status server).1 = PyStr.ofString "ready") then
    setState server "unavailable" "connection_owner_stopped"
  else pure ()
  setPhase server McpPhase.ended

/-- The `except` of the outer loop. -/
def failed (server reason : PyStr) (importError : Bool) : McpM Unit := do
  setState server "unavailable"
    (if importError then PyStr.ofString "sdk_missing_install_mcp_extra" else reason)
  setInitial server []
  if importError then ending server
  else if ← sleep server then setPhase server McpPhase.connecting
  else ending server

/-- An exception or a cancellation leaves the connection. -/
def leave (server : PyStr) : McpM Unit := do
  match ← exit server with
  | McpExit.raised reason importError => failed server reason importError
  | McpExit.cancelled => ending server
  | McpExit.suppressed => setPhase server McpPhase.connecting

/-- The definition of a tool has changed, or it has gone. -/
def changed (live : List McpTool) (tool : McpTool) : Bool :=
  match live.find? fun now => decide (now.name = tool.name) with
  | none => true
  | some now => decide (now.schemaJson ≠ tool.schemaJson)

/-- A call that has been committed. -/
def dispatch (server : PyStr) (r : ℕ) (tool : McpTool) : McpM Unit := do
  setStarted r
  callTool server r tool.name
  match ← outcome server r with
  | McpOutcome.returned payload => do
      finish r (McpAnswer.result payload)
      setCurrent server none
  | McpOutcome.raised reason => do
      setState server "unavailable" reason
      finish r (McpAnswer.outcomeUnknown McpUnknown.callFailed)
      setCurrent server none
      leave server
  | McpOutcome.cancelled => leave server

/-- A request that has been taken from the queue. -/
def serveRequest (server : PyStr) (live : List McpTool) (r : ℕ) : McpM Unit := do
  setCurrent server (some r)
  if ← cancelled r then setCurrent server none
  else do
    let tool ← tool r
    if changed live tool then do
      finish r McpAnswer.toolChanged
      setCurrent server none
    else
      match ← setRunning r with
      | none => leave server
      | some false => setCurrent server none
      | some true => dispatch server r tool

/-- `_owner`, from one point of suspension of its loops to the next. -/
def ownerRound (server : PyStr) : McpPhase → McpM Unit
  | McpPhase.starting => do
      if ← importAnyio then setPhase server McpPhase.connecting
      else do
        setState server "unavailable" "sdk_missing_install_mcp_extra"
        setInitial server []
        setPhase server McpPhase.ended
  | McpPhase.connecting => do
      match ← connect server with
      | McpConnection.opened tools => do
          let discovered := tools.map fun t => McpTool.mk server t.1 t.2.1 t.2.2
          setInitial server discovered
          setState server "ready" ""
          setPhase server (McpPhase.serving discovered)
      | McpConnection.failed reason importError => failed server reason importError
      | McpConnection.cancelled => ending server
  | McpPhase.serving live => do
      match ← get server with
      | none => leave server
      | some r => serveRequest server live r
  | McpPhase.ended => return ()

/-! ### The main task -/

/-- The catalog that is frozen. -/
def catalog (servers : List PyStr) (rt : McpRuntime) : PyDict PyStr McpTool :=
  PyDict.ofList ((servers.flatMap fun server => (rt.initialTools server).getD []).map
    fun tool => (tool.qualifiedName, tool))

/-- `_main`, until all owners have ended. -/
def main (servers : List PyStr) : McpM Unit := do
  update fun rt => { rt with loop := McpLoop.running, mainTask := McpMain.running }
  let _ ← wait (fun rt => servers.all fun s => (rt.initialTools s).isSome) false
  update fun rt => { rt with tools := catalog servers rt, started := true }
  let _ ← wait (fun rt => rt.stop) false
  let _ ← wait (fun rt => servers.all fun s => decide (rt.phase s = McpPhase.ended)) false
  update fun rt => { rt with mainTask := McpMain.draining }

/-- The first request that is left in a queue is answered; whether there was one. -/
def drainOne : List PyStr → McpM Bool
  | [] => return false
  | server :: servers => do
      match ← getNowait server with
      | some r => do
          finish r (McpAnswer.unavailable McpUnavailable.coreStopping)
          return true
      | none => drainOne servers

/-- The end of `_main`: one more request is answered, or the loop is closed and the thread ends. -/
def drainRound (servers : List PyStr) : McpM Unit := do
  if ← drainOne servers then return ()
  else do
    update fun rt => { rt with loop := McpLoop.closed, mainTask := McpMain.ended }
    update fun rt => { rt with alive := false }

end McpRuntime

/-! ### The system -/

/-- The threads and tasks of a system. -/
inductive McpThread where
  | outside
  | client (n : ℕ)
  | owner (server : PyStr)
  | main
deriving DecidableEq

/-- What the environment decides when a thread goes on. -/
inductive McpChoice where
  /-- The event loop runs the next callback. -/
  | callback
  | call (name : PyStr) (arguments : Json)
  | close
  | start
  | proceed
  | timeout
  | interrupt
  | connection (c : McpConnection)
  | outcome (o : McpOutcome)
  | exit (x : McpExit)

/-- What is written down. -/
inductive McpHappening where
  /-- A request is passed to `call_tool`. -/
  | dispatched (r : ℕ) (name : PyStr) (arguments : Json)
  /-- `call_tool` has returned. -/
  | returned (r : ℕ) (payload : PyStr)
  /-- A caller is told an answer. -/
  | told (r : Option ℕ) (answer : McpAnswer)

/-- The request that something happens to. -/
def McpHappening.request : McpHappening → Option ℕ
  | dispatched r _ _ | returned r _ => some r
  | told r _ => r

/-- What the event loop is to run. -/
inductive McpCallback where
  | put (r : ℕ)
  | stop

/-- The state of the system. -/
structure McpSystem where
  runtime : McpRuntime
  /-- How many requests there have been. -/
  fresh : ℕ
  request : ℕ → McpRequest
  /-- What `call_soon_threadsafe` has been given. -/
  scheduled : List McpCallback
  /-- The queues, by server. -/
  queue : PyStr → List ℕ
  /-- The variables `current` of the owners. -/
  current : PyStr → Option ℕ
  log : List McpHappening

/-- What is fixed: the servers in the order of the configuration, and which arguments match a
schema. -/
structure McpServers where
  names : List PyStr
  valid : PyStr → Json → Bool

namespace McpSystem

/-- Something is written down. -/
def note (x : McpHappening) (s : McpSystem) : McpSystem := { s with log := x :: s.log }

/-- A request is changed. -/
def modify (r : ℕ) (f : McpRequest → McpRequest) (s : McpSystem) : McpSystem :=
  { s with request := Function.update s.request r (f (s.request r)) }

/-- The future of a request is changed. -/
def setFuture (r : ℕ) (f : Future McpAnswer) (s : McpSystem) : McpSystem :=
  s.modify r fun request => { request with result := f }

/-- A request is taken from the queue. -/
def pop (server : PyStr) (s : McpSystem) : Option (ℕ × McpSystem) :=
  match s.queue server with
  | [] => none
  | r :: rest => some (r, { s with queue := Function.update s.queue server rest })

/-- A condition holds, or the time is up. -/
def wait (p : McpRuntime → Bool) (timed : Bool) (o : McpChoice) (s : McpSystem) :
    Option (Bool × McpSystem) :=
  if p s.runtime then some (true, s)
  else match o with
    | McpChoice.timeout => if timed then some (false, s) else none
    | _ => none

/-- `call_soon_threadsafe`, and whether it returns. -/
def schedule (c : McpCallback) (s : McpSystem) : Bool × McpSystem :=
  if s.runtime.loop = McpLoop.running then (true, { s with scheduled := s.scheduled ++ [c] })
  else (false, s)

/-- `result(timeout)`: the caller waits until there is a result or the time is up. -/
def result (r : ℕ) (o : McpChoice) (s : McpSystem) : Option (Option McpAnswer × McpSystem) :=
  match (s.request r).result with
  | Future.finished a => some (some a, s)
  | _ => match o with
    | McpChoice.timeout => some (none, s)
    | _ => none

/-- `await queue.get()`: the owner waits until there is a request, or it is interrupted. -/
def get (server : PyStr) (o : McpChoice) (s : McpSystem) : Option (Option ℕ × McpSystem) :=
  match o with
  | McpChoice.interrupt => some (none, s)
  | _ => (s.pop server).map fun p => (some p.1, p.2)

/-- `set_running_or_notify_cancel()`, or it raises. -/
def setRunning (r : ℕ) (s : McpSystem) : Option Bool × McpSystem :=
  match (s.request r).result.setRunningOrNotifyCancel with
  | none => (none, s)
  | some (b, f) => (some b, s.setFuture r f)

/-- How a dispatched call ends. -/
def outcome (r : ℕ) (o : McpChoice) (s : McpSystem) : Option (McpOutcome × McpSystem) :=
  match o with
  | McpChoice.outcome (McpOutcome.returned payload) =>
      some (McpOutcome.returned payload, s.note (McpHappening.returned r payload))
  | McpChoice.outcome x => some (x, s)
  | _ => none

/-- An operation. -/
def perform : (e : McpEffect) → McpChoice → McpSystem → Option (e.Answer × McpSystem)
  | McpEffect.fields _ f, _, s => some ((f s.runtime).1, { s with runtime := (f s.runtime).2 })
  | McpEffect.wait p timed, o, s => s.wait p timed o
  | McpEffect.newRequest tool arguments, _, s =>
      some (s.fresh, { s with
        fresh := s.fresh + 1
        request := Function.update s.request s.fresh { tool, arguments } })
  | McpEffect.putSoon r, _, s => some (s.schedule (McpCallback.put r))
  | McpEffect.stopSoon, _, s => some ((), (s.schedule McpCallback.stop).2)
  | McpEffect.result r, o, s => s.result r o
  | McpEffect.cancel r, _, s =>
      some ((s.request r).result.cancel.1, s.setFuture r (s.request r).result.cancel.2)
  | McpEffect.tell r answer, _, s => some ((), s.note (McpHappening.told r answer))
  | McpEffect.importAnyio, o, s =>
      match o with
      | McpChoice.interrupt => some (false, s)
      | _ => some (true, s)
  | McpEffect.connect _, o, s =>
      match o with
      | McpChoice.connection c => some (c, s)
      | _ => none
  | McpEffect.sleep _, o, s =>
      match o with
      | McpChoice.interrupt => some (false, s)
      | _ => some (true, s)
  | McpEffect.get server, o, s => s.get server o
  | McpEffect.getNowait server, _, s =>
      match s.pop server with
      | none => some (none, s)
      | some (r, s) => some (some r, s)
  | McpEffect.current server, _, s => some (s.current server, s)
  | McpEffect.setCurrent server r, _, s =>
      some ((), { s with current := Function.update s.current server r })
  | McpEffect.tool r, _, s => some ((s.request r).tool, s)
  | McpEffect.isStarted r, _, s => some ((s.request r).started, s)
  | McpEffect.setStarted r, _, s =>
      some ((), s.modify r fun request => { request with started := true })
  | McpEffect.cancelled r, _, s => some ((s.request r).result.isCancelled, s)
  | McpEffect.setRunning r, _, s => some (s.setRunning r)
  | McpEffect.callTool _ r name, _, s =>
      some ((), s.note (McpHappening.dispatched r name (s.request r).arguments))
  | McpEffect.outcome _ r, o, s => s.outcome r o
  | McpEffect.finish r answer, _, s =>
      some ((), s.setFuture r ((s.request r).result.setResult answer))
  | McpEffect.exit _, o, s =>
      match o with
      | McpChoice.exit x => some (x, s)
      | _ => none

/-- The event loop runs a callback. -/
def runCallback (c : McpCallback) (s : McpSystem) : McpSystem :=
  match c with
  | McpCallback.put r =>
      { s with
        queue := Function.update s.queue (s.request r).tool.server
          (s.queue (s.request r).tool.server ++ [r]) }
  | McpCallback.stop => { s with runtime := { s.runtime with stop := true } }

end McpSystem

namespace McpServers

/-- What an idle thread takes up. -/
def starts (servers : McpServers) (j : McpThread) (o : McpChoice) (s : McpSystem) :
    Option (McpM Unit × McpSystem) :=
  match j with
  | McpThread.outside =>
      match s.scheduled with
      | [] => none
      | c :: rest =>
          if s.runtime.loop = McpLoop.running then
            some (pure (), { s with scheduled := rest }.runCallback c)
          else none
  | McpThread.client _ =>
      match o with
      | McpChoice.call name arguments => some (McpRuntime.ask servers.valid name arguments, s)
      | McpChoice.close => some (McpRuntime.close, s)
      | McpChoice.start => some (McpRuntime.start servers.names, s)
      | _ => none
  | McpThread.owner server =>
      -- The tasks of the owners are made by the main task.
      if server ∈ servers.names ∧ s.runtime.loop = McpLoop.running then
        some (McpRuntime.ownerRound server (s.runtime.phase server), s)
      else none
  | McpThread.main =>
      match s.runtime.mainTask with
      | McpMain.starting =>
          if s.runtime.alive then some (McpRuntime.main servers.names, s) else none
      | McpMain.draining => some (McpRuntime.drainRound servers.names, s)
      | _ => none

/-- The outside world only starts what happens at once. -/
def handle (j : McpThread) (e : McpEffect) (o : McpChoice) (s : McpSystem) :
    Option (e.Answer × McpSystem) :=
  match j with
  | McpThread.outside => none
  | _ => McpSystem.perform e o s

/-- Nothing has happened. -/
def Initial (s : McpSystem) : Prop :=
  s.runtime = McpRuntime.initial ∧ s.fresh = 0 ∧ s.scheduled = [] ∧ (∀ server, s.queue server = []) ∧
    (∀ server, s.current server = none) ∧ s.log = []

/-- The system. -/
def threads (servers : McpServers) :
    Threads McpThread McpEffect McpEffect.Answer McpChoice McpSystem where
  init := Initial
  starts := servers.starts
  handle := handle

end McpServers
