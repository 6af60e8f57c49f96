/-
**The service and its workers.**

Any number of workers share one service.  Each of them has a thread that polls and a thread that
executes, and the outside world sends its own requests.  A call of a worker may be lost before the
service has seen it, or its reply may be lost; then the worker goes on as if the service were down,
and the request may still arrive later.  Which thread goes on, what the clocks say and what happens
to every message is decided by the environment.

What has happened is written down in a log, newest first.  The log is not part of the program: it is
what the properties of whole runs speak about.

Main definitions:

* `Workers`, `WorkerThread`, `WorkerChoice` — what is fixed, who goes on, and what the environment
  decides;
* `Happening`, `WorkerSystem` — what is written down, and the state of the system;
* `Workers.threads` — the system, as threads that run the programs of `NativeTaskWorker`;
* `Workers.Lawful` — the outside world does not speak in the name of a worker.
-/

import CatAgent.NativeTaskWorker
import CatAgent.Threads

set_option relaxedAutoImplicit false
set_option autoImplicit false

/-- The workers of a system. -/
structure Workers (ι : Type) where
  config : ι → WorkerConfig
  peer : ι → PyStr
  /-- The owners are fresh identifiers. -/
  owner_injective : Function.Injective fun i => (config i).owner

/-- The threads of a system. -/
inductive WorkerThread (ι : Type) where
  | outside
  | polling (i : ι)
  | executing (i : ι)
deriving DecidableEq

/-- What the environment decides when a thread goes on. -/
inductive WorkerChoice where
  /-- The outside world has an input for the service. -/
  | input (i : Input)
  /-- A request that was given up by its worker arrives. -/
  | deliver (n : ℕ) (env : Env)
  /-- The polling thread polls, or shuts the worker down. -/
  | poll
  | close
  /-- The executing thread takes this job. -/
  | execute (n : ℕ)
  /-- The call reaches the service, and the worker hears the reply or does not. -/
  | served (env : Env) (heard : Bool)
  /-- The call does not reach the service, or not yet. -/
  | lost (late : Bool)
  | time (now : ℚ)
  | flag (b : Bool)
  | agents (l : List (PyStr × Bool))
  | outcome (o : AgentOutcome)

/-- What is written down. -/
inductive Happening (ι : Type) where
  /-- The service has answered an input. -/
  | served (i : Input) (reply : Except PyError Reply)
  /-- A thread has made a call, and this is what it was told. -/
  | told (j : WorkerThread ι) (c : RpcCall) (answer : Except PyError Reply)
  /-- A worker has called the model on behalf of an event. -/
  | asked (i : ι) (event : SystemEvent) (agentId instruction : PyStr) (outcome : AgentOutcome)
  /-- A worker has given the hint that a result is in the inbox. -/
  | hinted (i : ι) (offerId : PyStr) (result : QueryPayload)

/-- The state of the system. -/
structure WorkerSystem (ι : Type) where
  engine : TaskEngine
  workers : ι → NativeTaskWorker
  /-- The requests that have been given up by their workers and may still arrive. -/
  late : List (ι × RpcCall)
  log : List (Happening ι)

namespace WorkerSystem

variable {ι : Type}

/-- The service answers an input. -/
def serve (host : Host) (i : Input) (s : WorkerSystem ι) :
    Except PyError Reply × WorkerSystem ι :=
  let r := s.engine.respond host i
  (r.1, { s with engine := r.2, log := Happening.served i r.1 :: s.log })

/-- Something is written down. -/
def note (x : Happening ι) (s : WorkerSystem ι) : WorkerSystem ι := { s with log := x :: s.log }

end WorkerSystem

namespace Workers

variable {ι : Type} [DecidableEq ι]

/-- What the service receives when the worker `i` makes a call. -/
def request (crew : Workers ι) (i : ι) (c : RpcCall) (env : Env) : Input :=
  Input.call env (c.op (crew.config i).owner) (crew.peer i)

/-- `TaskStoreError`, for a call that was not answered. -/
def unanswered : Except PyError Reply :=
  Except.error (PyError.taskStoreError "Task SYSTEM unavailable")

/-- A call of the worker `i`, made by the thread `j`. -/
def call (host : Host) (crew : Workers ι) (i : ι) (j : WorkerThread ι) (c : RpcCall) :
    WorkerChoice → WorkerSystem ι → Option (Except PyError Reply × WorkerSystem ι)
  | WorkerChoice.served env heard, s =>
      if TaskRPC.Fits host (crew.config i).owner c then
        let (reply, s) := s.serve host (crew.request i c env)
        let answer := if heard then reply else unanswered
        some (answer, s.note (Happening.told j c answer))
      else some (unanswered, s.note (Happening.told j c unanswered))
  | WorkerChoice.lost late, s =>
      let s := { s with late := if late then s.late ++ [(i, c)] else s.late }
      some (unanswered, s.note (Happening.told j c unanswered))
  | _, _ => none

/-- An operation of the worker `i`, performed by the thread `j`. -/
def perform (host : Host) (crew : Workers ι) (i : ι) (j : WorkerThread ι) :
    (e : WorkerEffect) → WorkerChoice → WorkerSystem ι → Option (e.Answer × WorkerSystem ι)
  | WorkerEffect.locked _ f, _, s =>
      some ((f (s.workers i)).1,
        { s with workers := Function.update s.workers i (f (s.workers i)).2 })
  | WorkerEffect.rpc c, o, s => crew.call host i j c o s
  | WorkerEffect.clock, WorkerChoice.time now, s => some (now, s)
  | WorkerEffect.canRun, WorkerChoice.flag b, s => some (b, s)
  | WorkerEffect.agentStatus, WorkerChoice.agents l, s => some (l, s)
  | WorkerEffect.agentBlocked _, WorkerChoice.flag b, s => some (b, s)
  | WorkerEffect.admits, WorkerChoice.flag b, s => some (b, s)
  | WorkerEffect.runAgent event agentId instruction, WorkerChoice.outcome o, s =>
      some (o, s.note (Happening.asked i event agentId instruction o))
  | WorkerEffect.onQueryResult offerId result, _, s =>
      some ((), s.note (Happening.hinted i offerId result))
  | _, _, _ => none

/-- The outside world only starts what happens at once. -/
def handle (host : Host) (crew : Workers ι) (j : WorkerThread ι) (e : WorkerEffect)
    (o : WorkerChoice) (s : WorkerSystem ι) : Option (e.Answer × WorkerSystem ι) :=
  match j with
  | WorkerThread.outside => none
  | WorkerThread.polling i | WorkerThread.executing i => crew.perform host i j e o s

/-- What an idle thread takes up. -/
def starts (host : Host) (crew : Workers ι) : WorkerThread ι → WorkerChoice → WorkerSystem ι →
    Option (WorkerM Unit × WorkerSystem ι)
  | WorkerThread.outside, WorkerChoice.input i, s => some (pure (), (s.serve host i).2)
  | WorkerThread.outside, WorkerChoice.deliver n env, s =>
      match s.late[n]? with
      | none => none
      | some (i, c) =>
          let s := { s with late := s.late.eraseIdx n }
          if TaskRPC.Fits host (crew.config i).owner c then
            some (pure (), (s.serve host (crew.request i c env)).2)
          else some (pure (), s)
  | WorkerThread.polling i, WorkerChoice.poll, s =>
      some (NativeTaskWorker.pollOnce (crew.config i) >>= fun _ => pure (), s)
  | WorkerThread.polling _, WorkerChoice.close, s =>
      some (NativeTaskWorker.close >>= fun _ => pure (), s)
  | WorkerThread.executing i, WorkerChoice.execute n, s =>
      let w := s.workers i
      match w.jobs[n]? with
      | none => none
      | some job =>
          some (NativeTaskWorker.execute (crew.config i) host job,
            { s with
              workers := Function.update s.workers i { w with jobs := w.jobs.eraseIdx n } })
  | _, _, _ => none

/-- A service that has just been set up, and workers that have just been made. -/
def Initial (host : Host) (s : WorkerSystem ι) : Prop :=
  (TaskEngine.machine host).init s.engine ∧ (∀ i, s.workers i = NativeTaskWorker.initial) ∧
    s.late = [] ∧ s.log = []

/-- The system. -/
def threads (host : Host) (crew : Workers ι) :
    Threads (WorkerThread ι) WorkerEffect WorkerEffect.Answer WorkerChoice (WorkerSystem ι) where
  init := Initial host
  starts := crew.starts host
  handle := crew.handle host

/-- An input of the outside world does not speak in the name of a worker. -/
def Foreign (crew : Workers ι) : Input → Prop
  | Input.call _ (Op.worker owner _) _ => ∀ i, owner ≠ (crew.config i).owner
  | _ => True

/-- What the environment may decide: its own inputs are foreign, and everything else is free. -/
def Lawful (crew : Workers ι) (i : WorkerThread ι × WorkerChoice) : Prop :=
  match i.2 with
  | WorkerChoice.input inp => crew.Foreign inp
  | _ => True

end Workers

namespace WorkerSystem

variable {ι : Type} [DecidableEq ι] {host : Host} {crew : Workers ι} {s s' : WorkerSystem ι}
  {j : WorkerThread ι} {i : ι}

/-- The thread `j` belongs to the worker `i`. -/
def Of (i : ι) (j : WorkerThread ι) : Prop :=
  j = WorkerThread.polling i ∨ j = WorkerThread.executing i

theorem handle_of (hj : Of i j) (e : WorkerEffect) (o : WorkerChoice) (s : WorkerSystem ι) :
    (crew.threads host).handle j e o s = crew.perform host i j e o s := by
  rcases hj with rfl | rfl <;> rfl

omit [DecidableEq ι] in
/-- A call leaves the workers alone. -/
theorem workers_of_call {c : RpcCall} {o : WorkerChoice} {x : Except PyError Reply}
    (h : crew.call host i j c o s = some (x, s')) : s'.workers = s.workers := by
  cases o with
  | served env heard =>
      simp only [Workers.call] at h
      split_ifs at h
      · cases h
        rfl
      · cases h
        rfl
      · cases h
        rfl
  | lost late =>
      cases h
      rfl
  | _ => cases h

/-- So does everything that is not a block under the lock. -/
theorem workers_of_perform {e : WorkerEffect} {o : WorkerChoice} {x : e.Answer}
    (he : ∀ β f, e ≠ WorkerEffect.locked β f)
    (h : crew.perform host i j e o s = some (x, s')) : s'.workers = s.workers := by
  cases e with
  | locked β f => exact absurd rfl (he β f)
  | rpc c => exact workers_of_call h
  | onQueryResult offerId result =>
      cases h
      rfl
  | clock | canRun | agentStatus | agentBlocked | admits | runAgent =>
      cases o <;> cases h
      rfl

end WorkerSystem

/-! ### One worker -/

/-- A worker with one agent, on which runs can be evaluated. -/
def Workers.single : Workers Unit where
  config := fun _ => { owner := "w", permissions := [("agent_1", [])], activeStates := fun _ _ => none }
  peer := fun _ => "p"
  owner_injective := fun _ _ _ => rfl

/-- Nothing has happened yet. -/
def WorkerSystem.fresh : WorkerSystem Unit :=
  ⟨TaskEngine.fresh, fun _ => NativeTaskWorker.initial, [], []⟩

/-- The choices of an environment in which all goes well, except for the agent itself. -/
def WorkerChoice.smooth : WorkerEffect → WorkerChoice
  | WorkerEffect.rpc _ => WorkerChoice.served Env.quiet true
  | WorkerEffect.canRun | WorkerEffect.admits => WorkerChoice.flag true
  | WorkerEffect.agentBlocked _ => WorkerChoice.flag false
  | WorkerEffect.agentStatus => WorkerChoice.agents [("agent_1", true)]
  | WorkerEffect.runAgent _ _ _ => WorkerChoice.outcome AgentOutcome.raised
  | _ => WorkerChoice.time 0

namespace Workers

/-- The system with one worker, before anything has happened. -/
def start : Threads.Config (WorkerThread Unit) WorkerEffect WorkerEffect.Answer (WorkerSystem Unit) :=
  ⟨WorkerSystem.fresh, fun _ => Program.done ()⟩

theorem start_init (host : Host) : (single.threads host).machine.init start :=
  ⟨⟨TaskEngine.fresh_init host, fun _ => rfl, rfl, rfl⟩, fun _ => rfl⟩

/-- An input of the outside world. -/
def outer (i : Input) : WorkerThread Unit × WorkerChoice × (WorkerEffect → WorkerChoice) :=
  (WorkerThread.outside, WorkerChoice.input i, WorkerChoice.smooth)

/-- The worker polls, and executes the job that it has taken. -/
def pollAndExecute : List (WorkerThread Unit × WorkerChoice × (WorkerEffect → WorkerChoice)) :=
  [(WorkerThread.polling (), WorkerChoice.poll, WorkerChoice.smooth),
    (WorkerThread.executing (), WorkerChoice.execute 0, WorkerChoice.smooth)]

theorem smooth_ne_input (e : WorkerEffect) (i : Input) :
    WorkerChoice.smooth e ≠ WorkerChoice.input i := by
  cases e <;> exact nofun

end Workers
