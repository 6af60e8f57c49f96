/-
**The results of queries on their way to a person.**

A result of a query stays in the inbox of the service until it is acknowledged.  While a person is
connected to a CORE, results are sent to the terminal, which acknowledges what it has displayed;
while nobody is, the CORE puts a result into the outbox, under an identifier made from that of the
run, and then acknowledges it itself.

Any number of COREs share the service and the outbox.  Each of them has a worker thread, which
hears of new results and looks through the inbox from time to time, and a thread for every client.
A process that dies is one whose threads do not go on; the process that takes its place is another
CORE.

Main definitions:

* `CoreServer` — the fields of a CORE that matter here;
* `ServerEffect`, `ServerM` — what the threads do, and their programs;
* `CoreServer.publishTaskQueryResult`, `CoreServer.recoverOfflineQueries`,
  `CoreServer.handleMessage` — the programs;
* `Cores`, `CoreSystem`, `Cores.threads` — the COREs, the service and the outbox.
-/

import CatAgent.OutboxGuarantees
import CatAgent.Inbox
import CatAgent.Threads

set_option relaxedAutoImplicit false
set_option autoImplicit false

/-- How `client.send` ends: it returns, it raises `OSError`, or the text cannot be encoded. -/
inductive SendOutcome where
  | sent
  | osError
  | unicodeError
deriving DecidableEq

/-- The fields of a CORE. -/
structure CoreServer where
  /-- `_human`: the client that owns the session. -/
  human : Option ℕ
  /-- The names that clients have given. -/
  name : ℕ → PyStr
  /-- `client.pending_notifications`. -/
  pending : ℕ → PyDict PyStr QueryPayload
  /-- `_query_results`. -/
  queryResults : PyDict PyStr QueryPayload
  /-- `_stop` is set. -/
  stop : Bool

/-- The messages of a client. -/
inductive CoreMessage where
  | acquire (client : Option Json)
  | release
  /-- `str(message.get('notification_id', ''))` -/
  | notificationAck (notificationId : PyStr)
  | taskQueryResults
  | taskQueryAck (runId : Option Json)

/-- What a client is sent. -/
inductive CoreFrame where
  | acquired (client : PyStr)
  | busy (owner : Option PyStr)
  | released
  | error (error : PyStr)
  | taskQueryResult (item : QueryPayload)
  | taskQueryResults (items : List QueryPayload)
  | taskQueryAcked (runId : PyStr) (acknowledged : Bool)

/-- The operations of the threads. -/
inductive ServerEffect : Type 1 where
  /-- A block under `self._lock`, which may send the frame. -/
  | locked (β : Type) (frame : CoreServer → Option (ℕ × CoreFrame))
      (f : SendOutcome → CoreServer → β × CoreServer)
  /-- `client.send`. -/
  | send (client : ℕ) (frame : CoreFrame)
  /-- Under the lock: whether the client that has sent the message owns the session, and who does. -/
  | owner (client : ℕ) (message : CoreMessage)
  /-- `self.outbox.enqueue`. -/
  | enqueue (text identifier : PyStr)
  /-- `self.outbox.acknowledge`. -/
  | acknowledge (identifier : PyStr)
  /-- `self._task_worker.list_results()`. -/
  | listResults
  /-- `self._task_worker.ack_result(run_id)`. -/
  | ackResult (runId : PyStr)

/-- The answers to the operations; those of the outbox say whether the call has returned. -/
def ServerEffect.Answer : ServerEffect → Type
  | locked β _ _ => β
  | send _ _ => SendOutcome
  | owner _ _ => Bool × Option PyStr
  | enqueue _ _ | acknowledge _ => Bool
  | listResults | ackResult _ => Except PyError Reply

/-- Programs of a CORE's threads. -/
abbrev ServerM := Program ServerEffect ServerEffect.Answer

namespace CoreServer

/-- A CORE that has just been made. -/
def initial : CoreServer where
  human := none
  name := fun _ => "unknown"
  pending := fun _ => PyDict.empty
  queryResults := PyDict.empty
  stop := false

/-- A block under the lock that sends nothing. -/
def locked {β : Type} (f : CoreServer → β × CoreServer) : ServerM β :=
  Program.operation (A := ServerEffect.Answer)
    (ServerEffect.locked β (fun _ => none) fun _ => f)

/-- A block under the lock that sends a frame. -/
def lockedSend {β : Type} (frame : CoreServer → Option (ℕ × CoreFrame))
    (f : SendOutcome → CoreServer → β × CoreServer) : ServerM β :=
  Program.operation (A := ServerEffect.Answer) (ServerEffect.locked β frame f)

def send (client : ℕ) (frame : CoreFrame) : ServerM SendOutcome :=
  Program.operation (A := ServerEffect.Answer) (ServerEffect.send client frame)

def owner (client : ℕ) (message : CoreMessage) : ServerM (Bool × Option PyStr) :=
  Program.operation (A := ServerEffect.Answer) (ServerEffect.owner client message)

def enqueue (text identifier : PyStr) : ServerM Bool :=
  Program.operation (A := ServerEffect.Answer) (ServerEffect.enqueue text identifier)

def acknowledge (identifier : PyStr) : ServerM Bool :=
  Program.operation (A := ServerEffect.Answer) (ServerEffect.acknowledge identifier)

def listResults : ServerM (Except PyError Reply) :=
  Program.operation (A := ServerEffect.Answer) ServerEffect.listResults

def ackResult (runId : PyStr) : ServerM (Except PyError Reply) :=
  Program.operation (A := ServerEffect.Answer) (ServerEffect.ackResult runId)

/-! ### The worker thread -/

/-- How many results the cache holds. -/
def cacheSize : ℕ := 32

/-- `popitem(last=False)` until the cache has its size. -/
def shrink (d : PyDict PyStr QueryPayload) : PyDict PyStr QueryPayload :=
  d.filter fun k _ => decide (k ∉ d.keys.take (d.keys.length - cacheSize))

/-- The item is the last of the cache. -/
def remember (item : QueryPayload) (s : CoreServer) : CoreServer :=
  { s with
    queryResults := shrink ((s.queryResults.erase item.runId).set item.runId item) }

/-- What has become of a result that was to be sent. -/
inductive Hint where
  | handed
  | offline
  | raised

/-- The block under the lock in `_publish_task_query_result`. -/
def hint (item : QueryPayload) (o : SendOutcome) (s : CoreServer) : Hint × CoreServer :=
  let s := s.remember item
  match s.human, o with
  | none, _ => (Hint.offline, s)
  | some client, SendOutcome.sent =>
      (Hint.handed,
        { s with
          pending := Function.update s.pending client ((s.pending client).set item.runId item) })
  | some _, SendOutcome.osError => (Hint.offline, s)
  | some _, SendOutcome.unicodeError => (Hint.raised, s)

/-- `'native-query:' + run_id`. -/
def nativeQuery (runId : PyStr) : PyStr := PyStr.ofString "native-query:" ++ runId

/-- `CoreServer._publish_task_query_result`, and whether it returns; `worker` says whether there is a
`_task_worker`. -/
def publishTaskQueryResult (worker : Bool) (item : QueryPayload) : ServerM Bool := do
  match ← lockedSend (fun s => s.human.map fun client => (client, CoreFrame.taskQueryResult item))
      (hint item) with
  | Hint.handed => return true
  | Hint.raised => return false
  | Hint.offline =>
      if ← enqueue item.text (nativeQuery item.runId) then
        if worker then
          match ← ackResult item.runId with
          | Except.ok _ => return true
          | Except.error _ => return false
        else return true
      else return false

/-- The loop of `_recover_offline_queries`. -/
def publishAll (worker : Bool) : List QueryPayload → ServerM Bool
  | [] => return true
  | item :: items => do
      if ← publishTaskQueryResult worker item then publishAll worker items
      else return false

/-- `CoreServer._recover_offline_queries`, and whether it returns. -/
def recoverOfflineQueries (worker : Bool) : ServerM Bool := do
  if ← locked fun s => (s.human.isSome || s.stop, s) then return true
  else if worker then
    match ← listResults with
    | Except.ok (Reply.payloads items) => publishAll worker items
    | _ => return false
  else return true

/-! ### The threads of the clients -/

/-- The error that a message is answered with that raises `ValueError`. -/
def invalid (error : PyStr) : CoreFrame :=
  CoreFrame.error (PyStr.ofString "invalid message: " ++ error)

/-- `client.send` in a handler, and whether the handler goes on: an `OSError` ends the connection, a
text that cannot be encoded is answered with an error. -/
def reply (client : ℕ) (frame : CoreFrame) : ServerM Bool := do
  match ← send client frame with
  | SendOutcome.sent => return true
  | SendOutcome.osError => return false
  | SendOutcome.unicodeError => do
      let o ← send client (invalid "surrogates not allowed")
      return decide (o = SendOutcome.sent)

/-- The name in an `acquire`. -/
def clientName : Option Json → Option PyStr
  | none => some "unknown"
  | some (Json.str name) => some (if PyStr.strip name = [] then "unknown" else PyStr.strip name)
  | some _ => none

/-- The block under the lock in `acquire`. -/
def acquire (client : ℕ) (name : PyStr) (s : CoreServer) :
    (Bool × Option PyStr) × CoreServer :=
  let acquired := decide (s.human = none ∨ s.human = some client)
  let s := if acquired then { s with human := some client, name := Function.update s.name client name }
    else s
  ((acquired, s.human.map s.name), s)

/-- The block under the lock in `release`. -/
def release (client : ℕ) (s : CoreServer) : CoreServer :=
  if s.human = some client then { s with human := none } else s

/-- The `finally` of the thread of a client. -/
def disconnect (client : ℕ) (s : CoreServer) : CoreServer :=
  { s.release client with pending := Function.update s.pending client PyDict.empty }

/-- The block under the lock that sends the inbox. -/
def display (client : ℕ) (items : List QueryPayload) (o : SendOutcome) (s : CoreServer) :
    SendOutcome × CoreServer :=
  match o with
  | SendOutcome.sent =>
      (o, { s with
        pending := Function.update s.pending client
          (items.foldl (fun d item => d.set item.runId item) (s.pending client)) })
  | _ => (o, s)

/-- The block under the lock after an acknowledgement. -/
def acknowledged (client : ℕ) (runId : PyStr) (yes : Bool) (s : CoreServer) : CoreServer :=
  { s with
    pending := Function.update s.pending client ((s.pending client).erase runId)
    queryResults := if yes then s.queryResults.erase runId else s.queryResults }

/-- The run of a `task_query_ack`. -/
def ackedRun : Option Json → Option PyStr
  | some (Json.str runId) => if 0 < runId.length ∧ runId.length ≤ 128 then some runId else none
  | _ => none

/-- `task_query_results`, for the client that owns the session. -/
def sendInbox (client : ℕ) (items : List QueryPayload) : ServerM Bool := do
  match ← lockedSend (fun _ => some (client, CoreFrame.taskQueryResults items))
      (display client items) with
  | SendOutcome.sent => return true
  | SendOutcome.osError => return false
  | SendOutcome.unicodeError => reply client (invalid "surrogates not allowed")

/-- `task_query_ack`, for the client that owns the session. -/
def ackInbox (worker : Bool) (client : ℕ) (runId : Option Json) : ServerM Bool :=
  match ackedRun runId with
  | none => reply client (invalid "task_query_ack requires run_id")
  | some runId =>
      if worker then do
        match ← ackResult runId with
        | Except.ok answer => do
            let yes := decide (answer = Reply.bool true)
            locked fun s => ((), s.acknowledged client runId yes)
            reply client (CoreFrame.taskQueryAcked runId yes)
        | Except.error _ => reply client (CoreFrame.error "Task SYSTEM inbox unavailable")
      else reply client (CoreFrame.error "TASK inbox not enabled")

/-- `CoreServer._handle_message`, and whether the connection goes on. -/
def handleMessage (worker : Bool) (client : ℕ) (message : CoreMessage) : ServerM Bool :=
  match message with
  | CoreMessage.acquire name =>
      match clientName name with
      | none => reply client (invalid "client must be a string")
      | some name => do
          let (acquired, owner) ← locked (acquire client name)
          reply client (if acquired then CoreFrame.acquired name else CoreFrame.busy owner)
  | CoreMessage.release => do
      locked fun s => ((), s.release client)
      reply client CoreFrame.released
  | CoreMessage.notificationAck notificationId => do
      let (owns, name) ← owner client message
      if owns then acknowledge notificationId else reply client (CoreFrame.busy name)
  | CoreMessage.taskQueryResults => do
      let (owns, name) ← owner client message
      if owns then
        if worker then
          match ← listResults with
          | Except.ok (Reply.payloads items) => sendInbox client items
          | _ => reply client (CoreFrame.error "Task SYSTEM inbox unavailable")
        else do
          let items ← locked fun s => (s.queryResults.values, s)
          sendInbox client items
      else reply client (CoreFrame.busy name)
  | CoreMessage.taskQueryAck runId => do
      let (owns, name) ← owner client message
      if owns then ackInbox worker client runId else reply client (CoreFrame.busy name)

/-- The thread of a client deals with a message; if that raises, the connection ends. -/
def serveClient (worker : Bool) (client : ℕ) (message : CoreMessage) : ServerM Unit := do
  if ← handleMessage worker client message then return ()
  else locked fun s => ((), s.disconnect client)

end CoreServer

/-! ### The system -/

/-- The COREs of a system: the scopes of their outboxes, their processes, and whether they have a
`_task_worker`. -/
structure Cores (κ : Type) where
  scope : κ → PyStr
  peer : κ → PyStr
  worker : κ → Bool

/-- The threads of a system. -/
inductive CoreThread (κ : Type) where
  | outside
  | worker (k : κ)
  | client (k : κ) (n : ℕ)
deriving DecidableEq

/-- What the environment decides when a thread goes on. -/
inductive CoreChoice (κ : Type) where
  /-- The outside world has an input for the service. -/
  | input (i : Input)
  /-- An acknowledgement that was given up by its CORE arrives. -/
  | deliver (n : ℕ) (env : Env)
  /-- Something happens to the outbox. -/
  | outbox (i : OutboxInput κ)
  /-- A CORE is told to stop; later it has no human interface any more. -/
  | stop (k : κ)
  | vacate (k : κ)
  /-- The worker has a result, or it looks through the inbox. -/
  | hint (item : QueryPayload)
  | recover
  /-- A client has sent a message, or it has gone. -/
  | message (m : CoreMessage)
  | disconnect
  | send (o : SendOutcome)
  /-- The transaction of the outbox is committed or not, and the call returns or raises. -/
  | stored (now : ℚ) (committed returned : Bool)
  /-- The call reaches the service, and the CORE hears the reply or does not. -/
  | served (env : Env) (heard : Bool)
  /-- The call does not reach the service, or not yet. -/
  | lost (late : Bool)

/-- What is written down. -/
inductive CoreHappening (κ : Type) where
  /-- The service has answered an input. -/
  | served (i : Input) (reply : Except PyError Reply)
  /-- A CORE has looked whether the client that has sent a message owns the session. -/
  | message (k : κ) (client : ℕ) (message : CoreMessage) (owns : Bool)
  /-- A client has been sent a frame. -/
  | sent (k : κ) (client : ℕ) (frame : CoreFrame)

/-- The state of the system. -/
structure CoreSystem (κ : Type) where
  engine : TaskEngine
  outbox : Outbox κ
  servers : κ → CoreServer
  /-- The acknowledgements that have been given up by their COREs and may still arrive. -/
  late : List (κ × PyStr)
  log : List (CoreHappening κ)

namespace CoreSystem

variable {κ : Type}

/-- The service answers an input. -/
def serve (host : Host) (i : Input) (s : CoreSystem κ) : Except PyError Reply × CoreSystem κ :=
  let r := s.engine.respond host i
  (r.1, { s with engine := r.2, log := CoreHappening.served i r.1 :: s.log })

/-- Something is written down. -/
def note (x : CoreHappening κ) (s : CoreSystem κ) : CoreSystem κ := { s with log := x :: s.log }

end CoreSystem

namespace Cores

variable {κ : Type} [DecidableEq κ]

/-- Something happens to the outbox. -/
def outboxStep (cores : Cores κ) (i : OutboxInput κ) (s : CoreSystem κ) : CoreSystem κ :=
  { s with outbox := Outbox.step cores.scope s.outbox i }

/-- The fields of a CORE change; the outbox sees whether it has a human interface. -/
def setServer (cores : Cores κ) (k : κ) (server : CoreServer) (s : CoreSystem κ) : CoreSystem κ :=
  { cores.outboxStep (OutboxInput.interface k server.human.isSome) s with
    servers := Function.update s.servers k server }

/-- `notifications.ack`. -/
def ackRequest (cores : Cores κ) (k : κ) (runId : PyStr) (env : Env) : Input :=
  Input.call env (Op.notificationsAck [Json.str runId]) (cores.peer k)

/-- `TaskStoreError`, for a call that was not answered. -/
def unanswered : Except PyError Reply :=
  Except.error (PyError.taskStoreError "Task SYSTEM unavailable")

/-- A call to the service; `late` is what may still arrive of it. -/
def call (host : Host) (i : Env → Input) (late : List (κ × PyStr)) :
    CoreChoice κ → CoreSystem κ → Option (Except PyError Reply × CoreSystem κ)
  | CoreChoice.served env heard, s =>
      let (reply, s) := s.serve host (i env)
      some (if heard then reply else unanswered, s)
  | CoreChoice.lost again, s =>
      some (unanswered, { s with late := if again then s.late ++ late else s.late })
  | _, _ => none

/-- A transaction of the outbox: what returns has been committed. -/
def transaction (cores : Cores κ) (i : ℚ → OutboxInput κ) :
    CoreChoice κ → CoreSystem κ → Option (Bool × CoreSystem κ)
  | CoreChoice.stored now committed returned, s =>
      if returned ∧ ¬ committed then none
      else some (returned, if committed then cores.outboxStep (i now) s else s)
  | _, _ => none

/-- A frame, if it is sent, is written down. -/
def noteSent (k : κ) (o : SendOutcome) (frame : Option (ℕ × CoreFrame)) (s : CoreSystem κ) :
    CoreSystem κ :=
  match frame, o with
  | some (client, frame), SendOutcome.sent => s.note (CoreHappening.sent k client frame)
  | _, _ => s

/-- A block under the lock of the CORE `k`. -/
def block {β : Type} (cores : Cores κ) (k : κ) (frame : CoreServer → Option (ℕ × CoreFrame))
    (f : SendOutcome → CoreServer → β × CoreServer) :
    CoreChoice κ → CoreSystem κ → Option (β × CoreSystem κ)
  | CoreChoice.send o, s =>
      some ((f o (s.servers k)).1,
        cores.setServer k (f o (s.servers k)).2 (noteSent k o (frame (s.servers k)) s))
  | _, _ => none

/-- `client.send` of the CORE `k`. -/
def send (k : κ) (client : ℕ) (frame : CoreFrame) :
    CoreChoice κ → CoreSystem κ → Option (SendOutcome × CoreSystem κ)
  | CoreChoice.send o, s => some (o, noteSent k o (some (client, frame)) s)
  | _, _ => none

/-- An operation of the CORE `k`. -/
def perform (host : Host) (cores : Cores κ) (k : κ) : (e : ServerEffect) → CoreChoice κ →
    CoreSystem κ → Option (e.Answer × CoreSystem κ)
  | ServerEffect.locked _ frame f, o, s => cores.block k frame f o s
  | ServerEffect.send client frame, o, s => send k client frame o s
  | ServerEffect.owner client message, _, s =>
      let human := (s.servers k).human
      some ((decide (human = some client), human.map (s.servers k).name),
        s.note (CoreHappening.message k client message (decide (human = some client))))
  | ServerEffect.enqueue text identifier, o, s =>
      cores.transaction (fun now => OutboxInput.enqueue k now text (some identifier) []) o s
  | ServerEffect.acknowledge identifier, o, s =>
      cores.transaction (fun now => OutboxInput.acknowledge now identifier) o s
  | ServerEffect.listResults, o, s =>
      call host (fun env => Input.call env (Op.notificationsList (some (Json.int 100)))
        (cores.peer k)) [] o s
  | ServerEffect.ackResult runId, o, s =>
      call host (cores.ackRequest k runId) [(k, runId)] o s

/-- The outside world only starts what happens at once. -/
def handle (host : Host) (cores : Cores κ) (j : CoreThread κ) (e : ServerEffect)
    (o : CoreChoice κ) (s : CoreSystem κ) : Option (e.Answer × CoreSystem κ) :=
  match j with
  | CoreThread.outside => none
  | CoreThread.worker k | CoreThread.client k _ => cores.perform host k e o s

/-- Nobody but the COREs acknowledges results. -/
def Foreign : Input → Bool
  | Input.call _ (Op.notificationsAck _) _ => false
  | _ => true

/-- What an idle thread takes up. -/
def starts (host : Host) (cores : Cores κ) : CoreThread κ → CoreChoice κ → CoreSystem κ →
    Option (ServerM Unit × CoreSystem κ)
  | CoreThread.outside, CoreChoice.input i, s =>
      if Foreign i then some (pure (), (s.serve host i).2) else none
  | CoreThread.outside, CoreChoice.deliver n env, s =>
      match s.late[n]? with
      | none => none
      | some (k, runId) =>
          let s := { s with late := s.late.eraseIdx n }
          some (pure (), (s.serve host (cores.ackRequest k runId env)).2)
  | CoreThread.outside, CoreChoice.outbox i, s => some (pure (), cores.outboxStep i s)
  | CoreThread.outside, CoreChoice.stop k, s =>
      some (pure (), cores.setServer k { s.servers k with stop := true } s)
  | CoreThread.outside, CoreChoice.vacate k, s =>
      some (pure (), cores.setServer k { s.servers k with human := none } s)
  | CoreThread.worker k, CoreChoice.hint item, s =>
      some (CoreServer.publishTaskQueryResult (cores.worker k) item >>= fun _ => pure (), s)
  | CoreThread.worker k, CoreChoice.recover, s =>
      some (CoreServer.recoverOfflineQueries (cores.worker k) >>= fun _ => pure (), s)
  | CoreThread.client k n, CoreChoice.message m, s =>
      some (CoreServer.serveClient (cores.worker k) n m, s)
  | CoreThread.client _ n, CoreChoice.disconnect, s =>
      some (CoreServer.locked fun server => ((), server.disconnect n), s)
  | _, _, _ => none

/-- A service that has just been set up, an outbox in which nobody pumps, and COREs that have just
been made. -/
def Initial (host : Host) (cores : Cores κ) (s : CoreSystem κ) : Prop :=
  (TaskEngine.machine host).init s.engine ∧ (Outbox.machine cores.scope).init s.outbox ∧
    (∀ k, s.servers k = CoreServer.initial) ∧ s.late = [] ∧ s.log = []

/-- The system. -/
def threads (host : Host) (cores : Cores κ) :
    Threads (CoreThread κ) ServerEffect ServerEffect.Answer (CoreChoice κ) (CoreSystem κ) where
  init := cores.Initial host
  starts := cores.starts host
  handle := cores.handle host

end Cores
