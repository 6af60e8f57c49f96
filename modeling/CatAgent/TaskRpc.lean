/-
**The calls of a worker, as they travel to the service.**

A worker sends every call as one line of JSON over a Unix socket.  The client writes the line with
`ensure_ascii=False` and encodes it, so a string that holds a surrogate stops the call before
anything is sent; the service refuses a line that is longer than 1 MiB.  For the worker a call
either returns or raises `TaskStoreError`; why it raised makes no difference.

Main definitions:

* `RpcCall`, `RpcCall.op`, `RpcCall.request` — the calls that a worker makes, what the service
  answers, and what is written on the wire;
* `TaskRPC.line`, `TaskRPC.Fits`, `TaskRPC.call` — the line, whether it arrives, and a call that
  is not lost.

Main results:

* `TaskRPC.fits_iff` — **a call arrives exactly when no string in it holds a surrogate and its line
  has at most 1 MiB**.
-/

import CatAgent.Transaction

set_option relaxedAutoImplicit false
set_option autoImplicit false

/-- The calls that a worker makes. -/
inductive RpcCall where
  | heartbeat
  | pull (seen skipRunIds : List PyStr)
  | begin (runId offerId : PyStr)
  | valid (runId offerId : PyStr)
  | publishResult (runId offerId : PyStr) (result : QueryPayload)
  | finish (runId offerId outcome : PyStr) (statusCode : Option ℤ)
  | offline
  /-- `tasks.get` -/
  | getTask (taskId : ℤ)
  /-- `events.resolve` -/
  | resolve (source name : PyStr)

namespace RpcCall

/-- The request that the service answers. -/
def op (owner : PyStr) : RpcCall → Op
  | heartbeat => Op.worker owner (WorkerOp.heartbeat "litert" true [])
  | pull seen skipRunIds => Op.worker owner (WorkerOp.pull "litert" seen skipRunIds)
  | begin runId offerId => Op.worker owner (WorkerOp.begin runId offerId)
  | valid runId offerId => Op.worker owner (WorkerOp.valid runId offerId)
  | publishResult runId offerId result => Op.worker owner
      (WorkerOp.publishResult (some (Json.str runId)) (some (Json.str offerId))
        (some result.toJson))
  | finish runId offerId outcome statusCode => Op.worker owner
      (WorkerOp.finish runId offerId (some outcome) (statusCode.map Json.int))
  | offline => Op.worker owner WorkerOp.offline
  | getTask taskId => Op.admin (AdminOp.get taskId)
  | resolve source name => Op.admin (AdminOp.resolve source name)

def target : RpcCall → PyStr
  | getTask _ => "tasks"
  | resolve _ _ => "events"
  | _ => "worker"

def method : RpcCall → PyStr
  | heartbeat => "heartbeat"
  | pull _ _ => "pull"
  | begin _ _ => "begin"
  | valid _ _ => "valid"
  | publishResult _ _ _ => "publish_result"
  | finish _ _ _ _ => "finish"
  | offline => "offline"
  | getTask _ => "get"
  | resolve _ _ => "resolve"

def args : RpcCall → List Json
  | getTask taskId => [Json.int taskId]
  | resolve source name => [Json.str source, Json.str name]
  | _ => []

/-- The run and the offer that a call names. -/
def grantArgs (runId offerId : PyStr) : List (PyStr × Json) :=
  [(PyStr.ofString "run_id", Json.str runId), (PyStr.ofString "offer_id", Json.str offerId)]

/-- The keyword arguments of a call to `worker`, the owner apart. -/
def workerArgs : RpcCall → List (PyStr × Json)
  | heartbeat =>
      [(PyStr.ofString "executor", Json.str "litert"), (PyStr.ofString "ready", Json.bool true)]
  | pull seen skipRunIds =>
      [(PyStr.ofString "executor", Json.str "litert"),
        (PyStr.ofString "seen", Json.arr (seen.map Json.str)),
        (PyStr.ofString "skip_run_ids", Json.arr (skipRunIds.map Json.str))]
  | begin runId offerId | valid runId offerId => grantArgs runId offerId
  | publishResult runId offerId result =>
      grantArgs runId offerId ++ [(PyStr.ofString "result", result.toJson)]
  | finish runId offerId outcome statusCode =>
      grantArgs runId offerId ++ [(PyStr.ofString "outcome", Json.str outcome)] ++
        statusCode.toList.map fun code => (PyStr.ofString "status_code", Json.int code)
  | _ => []

def kwargs (owner : PyStr) : RpcCall → List (PyStr × Json)
  | getTask _ | resolve _ _ => []
  | c => (PyStr.ofString "owner", Json.str owner) :: c.workerArgs

/-- `dict(target=target, method=operation, args=args, kwargs=kwargs)`. -/
def request (owner : PyStr) (c : RpcCall) : Json :=
  Json.obj
    [(PyStr.ofString "target", Json.str c.target), (PyStr.ofString "method", Json.str c.method),
      (PyStr.ofString "args", Json.arr c.args), (PyStr.ofString "kwargs", Json.obj (c.kwargs owner))]

end RpcCall

namespace TaskRPC

/-- The line that `TaskRPC.call` writes. -/
def line (host : Host) (owner : PyStr) (c : RpcCall) : PyStr :=
  Json.dumps host.strFloat (c.request owner) ++ PyStr.ofString "\n"

/-- How many bytes of a line the service reads. -/
def maxLine : ℕ := 1024 * 1024

/-- The line can be encoded, and the service reads all of it. -/
def Fits (host : Host) (owner : PyStr) (c : RpcCall) : Prop :=
  PyStr.Encodable (line host owner c) ∧ PyStr.utf8Length (line host owner c) ≤ maxLine

instance (host : Host) (owner : PyStr) (c : RpcCall) : Decidable (Fits host owner c) :=
  inferInstanceAs (Decidable (_ ∧ _))

/-- `TaskRPC.call`, when the service answers: what the worker sees, and the service afterwards. -/
def call (host : Host) (env : Env) (owner peer : PyStr) (c : RpcCall) (s : TaskEngine) :
    Except PyError Reply × TaskEngine :=
  if Fits host owner c then s.call host env (c.op owner) peer
  else (Except.error (PyError.taskStoreError "Task SYSTEM unavailable"), s)

/-- **A call arrives exactly when no string in it holds a surrogate and its line has at most
1 MiB.** -/
theorem fits_iff (host : Host) (owner : PyStr) (c : RpcCall) :
    Fits host owner c ↔ (∀ s ∈ Json.strings (c.request owner), PyStr.Encodable s) ∧
      PyStr.utf8Length (line host owner c) ≤ maxLine := by
  rw [Fits, line, PyStr.encodable_append, Json.encodable_dumps_iff host.strFloat_encodable]
  simp

end TaskRPC
