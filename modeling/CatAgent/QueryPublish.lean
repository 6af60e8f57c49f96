/-
**Which query results can be published.**

A worker records the text of an agent if it is not blank, and cuts it after 4096 code points.  The
engine accepts a text of at most 4096 code points that is not blank and holds no surrogate.  The
two do not agree: a text can be blank once it is cut, and the model may return a lone surrogate,
which the client cannot even send.  Such a result is tried again for ever, before anything else.

Main definitions:

* `NativeTaskWorker.Delivering` — a worker holds a running query and delivers its result;
* `NativeTaskWorker.Deliverable` — the texts for which that works.

Main results:

* `NativeTaskWorker.publishes_iff` — **a recorded result is accepted exactly when it is
  deliverable**, and only then does `_finish_pending` get past it;
* `NativeTaskWorker.not_publishes` — a text that starts with blanks is recorded and never accepted.
-/

import CatAgent.Inbox
import CatAgent.NativeTaskWorker

set_option relaxedAutoImplicit false
set_option autoImplicit false

namespace Tables

variable {host : Host} {env : Env} {owner peer runId offerId : PyStr} {p : QueryPayload}
  {t : Tables}

/-- A payload that the engine answers with `True` has passed its checks. -/
theorem acceptable_of_publish {reply : Reply} {t' : Tables}
    (h : t.dispatch host env peer (publishOp owner runId offerId p) = Except.ok (reply, t')) :
    QueryPayload.Acceptable runId p := by
  obtain ⟨_, _, h⟩ := bind_eq_ok_iff.1 h
  obtain ⟨⟨b, results⟩, hp, _⟩ := bind_eq_ok_iff.1 h
  obtain ⟨_, _, hp⟩ := bind_eq_ok_iff.1 hp
  obtain ⟨q, hv, _⟩ := bind_eq_ok_iff.1 hp
  exact ((QueryPayload.validate_toJson_iff _ _ _).1 hv).2

end Tables

namespace NativeTaskWorker

/-- A worker delivers the result of a query: it has read the task of the run; the run is still
running, under the offer of the worker and for the current generation; the worker is alive, the
inbox is not full and the disk works.  If there is a record for the run, an earlier attempt has
left it, with this very payload. -/
structure Delivering (host : Host) (env : Env) (owner peer : PyStr) (job : Job)
    (p : QueryPayload) (s : TaskEngine) : Prop where
  task : ∃ s₀, (TaskEngine.machine host).Reachable s₀ ∧
    (TaskEngine.machine host).Leads (fun _ _ => True) s₀ s ∧
    s₀.registry.tasks.get? (job.event.taskId.getD 0) = some job.task ∧
    job.task.generation = job.event.taskGeneration
  run : ∃ run, s.runs.get? job.event.runId = some run ∧ run.state = RunState.running ∧
    run.owner = owner ∧ run.peer = peer ∧ run.event = job.event ∧
    run.current s.registry.tasks = true
  alive : env.alive peer = true
  room : s.queryResults.unackedCount < QueryTable.maxPending
  writable : env.writable = true
  own : ∀ record, s.queryResults.get? job.event.runId = some record → record.payload = p

/-- The results that are delivered: what is left of the text is not blank, nothing in the request
holds a surrogate, the agent has a name, and the line is not too long. -/
structure Deliverable (host : Host) (owner : PyStr) (job : Job) (text : PyStr) : Prop where
  text_ne : PyStr.strip (truncate text) ≠ []
  text_ok : PyStr.Encodable (truncate text)
  names_ok : ∀ s ∈ [owner, job.event.runId, job.event.offerId, job.event.source, job.agentId],
    PyStr.Encodable s
  agentId_ne : job.agentId ≠ []
  line_le : PyStr.utf8Length (TaskRPC.line host owner (RpcCall.publishResult job.event.runId
    job.event.offerId (resultOf job text))) ≤ TaskRPC.maxLine

variable {host : Host} {env : Env} {owner peer : PyStr} {job : Job} {text : PyStr}
  {p : QueryPayload} {s : TaskEngine}

theorem Delivering.reachable (h : Delivering host env owner peer job p s) :
    (TaskEngine.machine host).Reachable s := by
  obtain ⟨s₀, hs₀, hlead, _⟩ := h.task
  exact Machine.Reach.leads hs₀ hlead

/-- The worker and the run have names. -/
theorem Delivering.names (h : Delivering host env owner peer job p s) :
    owner ≠ [] ∧ peer ≠ [] ∧ job.event.runId ≠ [] := by
  obtain ⟨run, hrun, hstate, howner, hpeer, _⟩ := h.run
  have hheld := TaskEngine.held_of_reachable h.reachable _ run hrun (by rw [hstate]; rfl)
  obtain ⟨n, _, hid⟩ := TaskEngine.allocated_of_reachable h.reachable _ run hrun
  rw [howner, hpeer] at hheld
  exact ⟨hheld.1, hheld.2, hid ▸ host.uuid4_ne_nil n⟩

/-- Of a query that is delivered, the engine stores the record or has it already. -/
theorem Delivering.publishChecked (h : Delivering host env owner peer job (resultOf job text) s)
    (hmethod : job.task.method = TaskMethod.query) :
    ∃ results, s.queryResults.publishChecked s.registry.tasks (s.toTables.reconcile env).runs owner
      peer job.event.offerId (resultOf job text) = Except.ok (true, results) := by
  unfold QueryTable.publishChecked
  cases hget : s.queryResults.get? (resultOf job text).runId with
  | some existing =>
      -- The record is the one that this result has left.
      obtain ⟨run, hrun, hstate, howner, hpeer, hevent, _⟩ := h.run
      obtain ⟨_, hrecorded⟩ := TaskEngine.recorded_of_reachable h.reachable _ existing hget
      obtain ⟨hoffer, _, hgrant⟩ := hrecorded run hrun
      have hpayload := h.own existing hget
      rw [hevent] at hoffer
      rcases hgrant with hint | ⟨howner', hpeer'⟩
      · rw [hstate] at hint
        cases hint
      · refine ⟨s.queryResults, ?_⟩
        simp [QueryTable.republish, ← howner', ← hpeer', howner, hpeer, ← hoffer, hpayload,
          Except.map]
  | none =>
      obtain ⟨run, hrun, hstate, howner, hpeer, hevent, hcurrent⟩ := h.run
      have hrun' := Tables.get?_reconcile_running (t := s.toTables) hrun hstate (hpeer ▸ h.alive)
      -- The task of the run is the task that the worker has read.
      obtain ⟨s₀, hs₀, hlead, htask₀, hgen₀⟩ := h.task
      obtain ⟨taskId, task, hid, htask, _, hgen⟩ := Run.current_iff.1 hcurrent
      rw [hevent] at hid hgen
      rw [hid, Option.getD_some] at htask₀
      have hm : task.method = TaskMethod.query :=
        (TaskEngine.method_of_generation hs₀ hlead htask₀ htask (hgen.trans hgen₀.symm)).trans
          hmethod
      have hmay : QueryTable.mayPublish s.registry.tasks owner peer job.event.offerId
          (resultOf job text) run = true := by
        simp [QueryTable.mayPublish, resultOf, howner, hpeer, hevent, hstate, hcurrent, hid]
      have hquery : QueryTable.isQuery s.registry.tasks (resultOf job text).taskId = true := by
        simp [QueryTable.isQuery, resultOf, hid, htask, hm]
      have hrun'' : (s.toTables.reconcile env).runs.get? (resultOf job text).runId = some run :=
        hrun'
      refine ⟨s.queryResults.put ⟨owner, peer, job.event.offerId, resultOf job text, false⟩, ?_⟩
      simp only [QueryTable.commit, hrun'', hmay, hquery]
      rw [if_pos ⟨trivial, trivial⟩, if_neg (not_le.2 h.room)]

/-- The strings of the request that publishes a result are constants, names and the text. -/
theorem encodable_request_iff :
    (∀ s ∈ Json.strings ((RpcCall.publishResult job.event.runId job.event.offerId
        (resultOf job text)).request owner), PyStr.Encodable s) ↔
      PyStr.Encodable (truncate text) ∧
        ∀ s ∈ [owner, job.event.runId, job.event.offerId, job.event.source, job.agentId],
          PyStr.Encodable s := by
  simp [RpcCall.request, RpcCall.kwargs, RpcCall.workerArgs, RpcCall.grantArgs, RpcCall.target,
    RpcCall.method, RpcCall.args, Json.strings, Json.stringsItems, Json.stringsList,
    QueryPayload.toJson, resultOf]
  tauto

/-- A result is deliverable exactly when its call fits and its payload passes the checks. -/
theorem deliverable_iff : Deliverable host owner job text ↔
    TaskRPC.Fits host owner (RpcCall.publishResult job.event.runId job.event.offerId
        (resultOf job text)) ∧
      QueryPayload.Acceptable job.event.runId (resultOf job text) := by
  rw [TaskRPC.fits_iff, encodable_request_iff]
  constructor
  · intro h
    have hnames := h.names_ok
    refine ⟨⟨⟨h.text_ok, hnames⟩, h.line_le⟩, rfl, h.agentId_ne, h.text_ne, ?_, h.text_ok, ?_, ?_⟩
    · exact List.length_take_le _ _
    · exact hnames _ (by simp [resultOf])
    · exact hnames _ (by simp [resultOf])
  · rintro ⟨⟨⟨htext, hnames⟩, hline⟩, hp⟩
    exact ⟨hp.text_ne, htext, hnames, hp.agentId_ne, hline⟩

/-- A deliverable result is accepted. -/
theorem Delivering.call_publish (h : Delivering host env owner peer job (resultOf job text) s)
    (hmethod : job.task.method = TaskMethod.query) (hd : Deliverable host owner job text) :
    (TaskRPC.call host env owner peer
      (RpcCall.publishResult job.event.runId job.event.offerId (resultOf job text)) s).1 =
        Except.ok (Reply.bool true) := by
  obtain ⟨hfits, hp⟩ := deliverable_iff.1 hd
  obtain ⟨howner, hpeer, hrun⟩ := h.names
  obtain ⟨results, hresults⟩ := h.publishChecked hmethod
  have hb := Tables.publish_of_acceptable host howner hpeer hrun hp hresults
  rw [TaskRPC.call, if_pos hfits]
  exact (TaskEngine.transact_of_ok _ hb h.writable).1

/-- Publishing any other result raises, whatever state the engine is in. -/
theorem call_publish_raises (env : Env) (peer : PyStr) (s : TaskEngine) (hd : ¬ Deliverable host owner job text) :
    ∃ e, (TaskRPC.call host env owner peer
      (RpcCall.publishResult job.event.runId job.event.offerId (resultOf job text)) s).1 =
        Except.error e := by
  rw [deliverable_iff, not_and] at hd
  unfold TaskRPC.call
  split_ifs with hfits
  · cases hreply : (s.call host env ((RpcCall.publishResult job.event.runId job.event.offerId
        (resultOf job text)).op owner) peer).1 with
    | error e => exact ⟨e, rfl⟩
    | ok reply =>
        obtain ⟨t, hb, _⟩ := TaskEngine.transact_returned hreply
        exact absurd (Tables.acceptable_of_publish hb) (hd hfits)
  · exact ⟨_, rfl⟩

/-! ### Finishing -/

/-- Finishing with a status that is not negative never raises. -/
theorem finish_returns (host : Host) (runId offerId outcome : PyStr) (code : ℕ) (howner : owner ≠ [])
    (hpeer : peer ≠ []) (hsave : env.writable = true) (s : TaskEngine) :
    ∃ reply, (s.call host env ((RpcCall.finish runId offerId outcome (some code)).op owner)
      peer).1 = Except.ok reply := by
  have hid : raiseIf (peer = [] ∨ owner = [])
      (PyError.taskStoreError "worker identity required") = Except.ok () :=
    raiseIf_eq_ok_iff.2 fun h => h.elim hpeer howner
  have hfinish : ∃ b t, (s.toTables.reconcile env).finish owner peer runId offerId (some outcome)
      (some (Json.int code)) = Except.ok (b, t) := by
    unfold Tables.finish
    split
    · exact ⟨_, _, rfl⟩
    · split_ifs
      · exact ⟨_, _, rfl⟩
      · exact ⟨_, _, rfl⟩
      · exact ⟨_, _, rfl⟩
  obtain ⟨b, t, hfinish⟩ := hfinish
  have hb : s.toTables.dispatch host env peer
      ((RpcCall.finish runId offerId outcome (some code)).op owner) =
        Except.ok (Reply.bool b, t) :=
    bind_eq_ok_iff.2 ⟨(), hid, bind_eq_ok_iff.2 ⟨(b, t), hfinish, rfl⟩⟩
  exact ⟨Reply.bool b, (TaskEngine.transact_of_ok _ hb hsave).1⟩

/-- The call that finishes a run is shorter than the one that publishes its result. -/
theorem line_finish_le : PyStr.utf8Length (TaskRPC.line host owner
      (RpcCall.finish job.event.runId job.event.offerId "done" (some 0))) ≤
    PyStr.utf8Length (TaskRPC.line host owner (RpcCall.publishResult job.event.runId
      job.event.offerId (resultOf job text))) := by
  have hfinish : PyStr.utf8Length (Json.escape (PyStr.ofString "finish")) = 8 := by decide
  have houtcome : PyStr.utf8Length (Json.escape (PyStr.ofString "outcome")) = 9 := by decide
  have hdone : PyStr.utf8Length (Json.escape (PyStr.ofString "done")) = 6 := by decide
  have hstatus : PyStr.utf8Length (Json.escape (PyStr.ofString "status_code")) = 13 := by decide
  have hzero : PyStr.utf8Length (PyStr.ofString (Int.repr 0)) = 1 := by decide
  have hpublish : PyStr.utf8Length (Json.escape (PyStr.ofString "publish_result")) = 16 := by
    decide
  have htype : PyStr.utf8Length (Json.escape (PyStr.ofString "task_query_result")) = 19 := by
    decide
  have hagent : PyStr.utf8Length (Json.escape (PyStr.ofString "agent_id")) = 10 := by decide
  simp [TaskRPC.line, RpcCall.request, RpcCall.kwargs, RpcCall.workerArgs, RpcCall.grantArgs,
    RpcCall.target, RpcCall.method, RpcCall.args, Json.dumps, Json.dumpsItems, Json.dumpsList,
    QueryPayload.toJson, resultOf]
  omega

/-- A deliverable result can also be finished. -/
theorem Deliverable.fits_finish (hd : Deliverable host owner job text) :
    TaskRPC.Fits host owner
      (RpcCall.finish job.event.runId job.event.offerId "done" (some 0)) := by
  refine (TaskRPC.fits_iff host owner _).2 ⟨?_, line_finish_le.trans hd.line_le⟩
  have hnames := hd.names_ok
  simp only [List.forall_mem_cons] at hnames
  simp [RpcCall.request, RpcCall.kwargs, RpcCall.workerArgs, RpcCall.grantArgs, RpcCall.target,
    RpcCall.method, RpcCall.args, Json.strings, Json.stringsItems, Json.stringsList, hnames]

/-! ### `_finish_pending` -/

/-- Operations that record no result for `token`. -/
def RecordsNothing (token : PyStr) : WorkerEffect → Prop
  | WorkerEffect.locked _ f =>
      ∀ w, w.pendingResults.get? token = none → (f w).2.pendingResults.get? token = none
  | _ => True

theorem recordsNothing_publishEntry (token token' : PyStr) (entry : PendingFinish) :
    (publishEntry token' entry).All (RecordsNothing token) := by
  have hsettle : ∀ entry', (update (settle token' entry')).All (RecordsNothing token) := by
    refine fun entry' => Program.all_operation fun w hw => ?_
    change (w.pendingResults.erase token').get? token = none
    rw [PyDict.get?_erase]
    split_ifs
    · rfl
    · exact hw
  refine Program.all_bind (Program.all_operation fun w hw => hw) fun result => ?_
  cases result with
  | none => exact Program.all_pure _
  | some result =>
      refine Program.all_bind (Program.all_operation trivial) fun reply => ?_
      cases reply with
      | error e => exact Program.all_pure _
      | ok persisted =>
          simp only
          split_ifs
          · exact Program.all_bind (Program.all_operation trivial) fun _ =>
              Program.all_bind (hsettle _) fun _ => Program.all_pure _
          · exact Program.all_bind (hsettle _) fun _ => Program.all_pure _

theorem recordsNothing_finishEntry (token token' : PyStr) (entry : PendingFinish) :
    (finishEntry token' entry).All (RecordsNothing token) := by
  refine Program.all_bind (Program.all_operation trivial) fun reply => ?_
  cases reply with
  | error e => exact Program.all_pure _
  | ok acknowledged =>
      exact Program.all_bind (Program.all_operation fun w hw => hw) fun _ => Program.all_pure _

/-- Finishing records no result. -/
theorem recordsNothing_finishEntries (token : PyStr) (entries : List (PyStr × PendingFinish)) :
    (finishEntries entries).All (RecordsNothing token) := by
  induction entries with
  | nil => exact Program.all_pure _
  | cons e rest ih =>
      refine Program.all_bind (recordsNothing_publishEntry _ _ _) fun entry => ?_
      cases entry with
      | none => exact Program.all_pure _
      | some entry =>
          refine Program.all_bind (recordsNothing_finishEntry _ _ _) fun acknowledged => ?_
          cases acknowledged with
          | false => exact Program.all_pure _
          | true => exact ih

section AtOnce

variable {σ : Type} {now : ℚ} {call : RpcCall → σ → Except PyError Reply × σ}
  {w : NativeTaskWorker} {s : σ} {token : PyStr} {entry : PendingFinish} {result : QueryPayload}

/-- What is not recorded is not recorded by a program that records nothing. -/
theorem run_recordsNothing {α : Type} {program : WorkerM α}
    (hp : program.All (RecordsNothing token)) {q : NativeTaskWorker × σ}
    (hq : q.1.pendingResults.get? token = none) :
    (program.run (atOnce now call) q).2.1.pendingResults.get? token = none := by
  refine Program.run_invariant (I := fun q : NativeTaskWorker × σ =>
    q.1.pendingResults.get? token = none) ?_ hp hq
  rintro e ⟨w, s⟩ he hw
  cases e with
  | locked β f => exact he w hw
  | _ => exact hw

/-- An entry whose result cannot be published stays as it is. -/
theorem run_publishEntry_error {e : PyError}
    (hresult : w.pendingResults.get? token = some result)
    (h : (call (RpcCall.publishResult entry.event.runId entry.event.offerId result) s).1 =
      Except.error e) :
    (publishEntry token entry).run (atOnce now call) (w, s) =
      (none, (w, (call (RpcCall.publishResult entry.event.runId entry.event.offerId result) s).2)) := by
  simp only [publishEntry, run_read_bind, hresult, run_rpc_bind, h]
  rfl

/-- An entry whose result is published is settled. -/
theorem run_publishEntry_true (hresult : w.pendingResults.get? token = some result)
    (h : (call (RpcCall.publishResult entry.event.runId entry.event.offerId result) s).1 =
      Except.ok (Reply.bool true)) :
    (publishEntry token entry).run (atOnce now call) (w, s) =
      (some entry, (settle token entry w,
        (call (RpcCall.publishResult entry.event.runId entry.event.offerId result) s).2)) := by
  simp only [publishEntry, run_read_bind, hresult, run_rpc_bind, h, truthy, if_true,
    run_onQueryResult_bind, run_update_bind]
  rfl

/-- An entry whose finish is answered is done with. -/
theorem run_finishEntry_ok {reply : Reply}
    (h : (call (RpcCall.finish entry.event.runId entry.event.offerId entry.outcome
      (some entry.statusCode)) s).1 = Except.ok reply) :
    ((finishEntry token entry).run (atOnce now call) (w, s)).1 = true := by
  simp only [finishEntry, run_rpc_bind, h, run_update_bind]
  rfl

variable {rest : List (PyStr × PendingFinish)}

/-- A result that cannot be published stops the loop. -/
theorem run_finishEntries_error {e : PyError}
    (hresult : w.pendingResults.get? token = some result)
    (h : (call (RpcCall.publishResult entry.event.runId entry.event.offerId result) s).1 =
      Except.error e) :
    (finishEntries ((token, entry) :: rest)).run (atOnce now call) (w, s) =
      (false, (w,
        (call (RpcCall.publishResult entry.event.runId entry.event.offerId result) s).2)) := by
  rw [finishEntries, Program.run_bind, run_publishEntry_error hresult h]
  rfl

/-- A result that is published is no longer pending. -/
theorem run_finishEntries_true (hresult : w.pendingResults.get? token = some result)
    (h : (call (RpcCall.publishResult entry.event.runId entry.event.offerId result) s).1 =
      Except.ok (Reply.bool true)) :
    ((finishEntries ((token, entry) :: rest)).run (atOnce now call)
      (w, s)).2.1.pendingResults.get? token = none := by
  rw [finishEntries, Program.run_bind, run_publishEntry_true hresult h]
  have hsettled : (settle token entry w).pendingResults.get? token = none :=
    PyDict.get?_erase_self _ _
  refine run_recordsNothing ?_ hsettled
  refine Program.all_bind (recordsNothing_finishEntry _ _ _) fun acknowledged => ?_
  cases acknowledged with
  | false => exact Program.all_pure _
  | true => exact recordsNothing_finishEntries _ rest

/-- The loop gets past a single entry whose result is published and whose run is finished. -/
theorem run_finishEntries_singleton (hresult : w.pendingResults.get? token = some result)
    (h : (call (RpcCall.publishResult entry.event.runId entry.event.offerId result) s).1 =
      Except.ok (Reply.bool true)) {reply : Reply}
    (hfinish : (call (RpcCall.finish entry.event.runId entry.event.offerId entry.outcome
      (some entry.statusCode)) (call (RpcCall.publishResult entry.event.runId entry.event.offerId
        result) s).2).1 = Except.ok reply) :
    ((finishEntries [(token, entry)]).run (atOnce now call) (w, s)).1 = true := by
  rw [finishEntries, Program.run_bind, run_publishEntry_true hresult h]
  change (Program.run _ (finishEntry token entry >>= _) _).1 = true
  rw [Program.run_bind]
  simp only [run_finishEntry_ok hfinish]
  rfl

end AtOnce

/-- The run of a delivered result is finished. -/
theorem call_finish_returns (howner : owner ≠ []) (hpeer : peer ≠ []) (hsave : env.writable = true)
    (hd : Deliverable host owner job text) (s : TaskEngine) :
    ∃ reply, (TaskRPC.call host env owner peer
      (RpcCall.finish job.event.runId job.event.offerId "done" (some 0)) s).1 =
        Except.ok reply := by
  rw [TaskRPC.call, if_pos hd.fits_finish]
  exact finish_returns host job.event.runId job.event.offerId "done" 0 howner hpeer hsave s

/-- The entry of a query that is done. -/
def doneEntry (job : Job) : PendingFinish :=
  { event := job.event, outcome := "done", statusCode := 0 }

/-- **A recorded result is accepted exactly when it is deliverable.**  A worker delivers the result
of a query, and `_finish_pending` comes to it first.  Then the following are the same: the engine
accepts the result; the result is no longer pending afterwards; and, if nothing else is to be
finished, `_finish_pending` returns `True`, so that the worker can pull again. -/
theorem publishes_iff (now : ℚ) {statusCode : ℤ} (hrecords : Records job statusCode text)
    (h : Delivering host env owner peer job (resultOf job text) s) {w : NativeTaskWorker}
    {rest : List (PyStr × PendingFinish)}
    (hentries : w.pendingFinishes.entries = (job.event.offerId, doneEntry job) :: rest)
    (hresult : w.pendingResults.get? job.event.offerId = some (resultOf job text)) :
    ((TaskRPC.call host env owner peer
        (RpcCall.publishResult job.event.runId job.event.offerId (resultOf job text)) s).1 =
      Except.ok (Reply.bool true) ↔ Deliverable host owner job text) ∧
    ((finishPending.run (atOnce now (TaskRPC.call host env owner peer)) (w, s)).2.1.pendingResults.get?
      job.event.offerId = none ↔ Deliverable host owner job text) ∧
    (rest = [] → ((finishPending.run (atOnce now (TaskRPC.call host env owner peer)) (w, s)).1 =
      true ↔ Deliverable host owner job text)) := by
  rw [finishPending, run_read_bind, hentries]
  by_cases hd : Deliverable host owner job text
  · obtain ⟨howner, hpeer, _⟩ := h.names
    have hpublish := h.call_publish hrecords.1 hd
    refine ⟨iff_of_true hpublish hd,
      iff_of_true (run_finishEntries_true hresult hpublish) hd, fun hrest => ?_⟩
    obtain ⟨reply, hfinish⟩ := call_finish_returns howner hpeer h.writable hd _
    subst hrest
    exact iff_of_true (run_finishEntries_singleton hresult hpublish hfinish) hd
  · obtain ⟨e, he⟩ := call_publish_raises env peer s hd
    have hloop : (finishEntries ((job.event.offerId, doneEntry job) :: rest)).run
        (atOnce now (TaskRPC.call host env owner peer)) (w, s) =
          (false, (w, (TaskRPC.call host env owner peer (RpcCall.publishResult job.event.runId
            job.event.offerId (resultOf job text)) s).2)) :=
      run_finishEntries_error hresult he
    rw [hloop]
    refine ⟨iff_of_false ?_ hd, iff_of_false ?_ hd, fun _ => iff_of_false nofun hd⟩
    · rw [he]
      exact nofun
    · change w.pendingResults.get? job.event.offerId ≠ none
      rw [hresult]
      exact nofun

/-! ### A query that is delivered -/

/-- A worker has begun the run of a query. -/
def asked : TaskEngine :=
  let query := AdminOp.createPeriodicTask "watch" "look" ["see"] (PyNumber.finite 60) "query"
    "litert" none
  TaskEngine.after Host.ascii
    [Input.call Env.quiet (Op.admin query) [], Input.call Env.quiet (Op.runTask 1) [],
      Input.call Env.quiet (Op.worker "w" (WorkerOp.pull "litert" [] [])) "p",
      Input.call Env.quiet
        (Op.worker "w" (WorkerOp.begin (Host.ascii.uuid4 1) (Host.ascii.uuid4 2))) "p"]

/-- The run and its task, as the worker has read them. -/
def askedJob : Job where
  event :=
    { source := "manual", name := "task:1", task := [], createdMonotonic := 0, taskId := some 1,
      taskGeneration := Host.ascii.uuid4 0, runId := Host.ascii.uuid4 1,
      offerId := Host.ascii.uuid4 2 }
  task :=
    { taskId := 1, description := "watch", text := "look", method := TaskMethod.query,
      skills := ["see"], timerPeriodSeconds := some ⟨60, by decide⟩, enabled := true,
      generation := Host.ascii.uuid4 0, executor := Policy.pinned Executor.litert,
      agentId := none }
  agentId := "agent_1"

theorem delivering_asked (p : QueryPayload) :
    Delivering Host.ascii Env.quiet "w" "p" askedJob p asked := by
  have htask : asked.registry.tasks.get? 1 = some askedJob.task := by decide +kernel
  have hrun : (asked.runs.get? askedJob.event.runId).any (fun run => decide
      (run.state = RunState.running ∧ run.owner = PyStr.ofString "w" ∧
        run.peer = PyStr.ofString "p" ∧ run.event = askedJob.event) &&
      run.current asked.registry.tasks) = true := by decide +kernel
  have hnone : (asked.queryResults.get? askedJob.event.runId).isNone = true := by decide +kernel
  obtain ⟨run, hget, hrun⟩ := (Option.any_eq_true _ _).1 hrun
  rw [Bool.and_eq_true, decide_eq_true_eq] at hrun
  obtain ⟨⟨hstate, howner, hpeer, hevent⟩, hcurrent⟩ := hrun
  exact
    { task := ⟨asked, TaskEngine.reachable_after Host.ascii _, Machine.Leads.refl, htask, rfl⟩
      run := ⟨run, hget, hstate, howner, hpeer, hevent, hcurrent⟩
      alive := rfl
      room := by decide +kernel
      writable := rfl
      own := by
        intro record hrecord
        rw [Option.isNone_iff_eq_none.1 hnone] at hrecord
        cases hrecord }

/-- A worker that has just executed the run. -/
def executed (text : PyStr) : NativeTaskWorker where
  ready := true
  nextHeartbeat := 0
  seen := [askedJob.event.offerId]
  reserved := []
  pendingFinishes := PyDict.empty.set askedJob.event.offerId (doneEntry askedJob)
  pendingResults := PyDict.empty.set askedJob.event.offerId (resultOf askedJob text)
  deferred := PyDict.empty
  pendingDefers := PyDict.empty
  jobs := []

/-- The agent says hello. -/
theorem publishes_iff_hello :
    ((TaskRPC.call Host.ascii Env.quiet "w" "p" (RpcCall.publishResult askedJob.event.runId
        askedJob.event.offerId (resultOf askedJob "hello")) asked).1 =
      Except.ok (Reply.bool true) ↔ Deliverable Host.ascii "w" askedJob "hello") ∧
    ((finishPending.run (atOnce 0 (TaskRPC.call Host.ascii Env.quiet "w" "p"))
      (executed "hello", asked)).2.1.pendingResults.get? askedJob.event.offerId = none ↔
        Deliverable Host.ascii "w" askedJob "hello") ∧
    ((finishPending.run (atOnce 0 (TaskRPC.call Host.ascii Env.quiet "w" "p"))
      (executed "hello", asked)).1 = true ↔ Deliverable Host.ascii "w" askedJob "hello") := by
  have hrecords : Records askedJob 0 "hello" := by decide
  obtain ⟨hcall, hresult, htrue⟩ := publishes_iff 0 hrecords (delivering_asked _)
    (w := executed "hello") rfl rfl
  exact ⟨hcall, hresult, htrue rfl⟩

/-- As many blanks as the worker keeps, and then a letter. -/
def padded : PyStr := List.replicate 4096 (PyStr.ofChar ' ') ++ [PyStr.ofChar 'x']

theorem strip_padded : PyStr.strip padded ≠ [] := by
  rw [ne_eq, PyStr.strip_eq_nil_iff]
  intro h
  have hx := h (PyStr.ofChar 'x') (List.mem_append_right _ (List.mem_singleton_self _))
  exact absurd hx (by decide)

theorem strip_truncate_padded : PyStr.strip (truncate padded) = [] := by
  have htake : truncate padded = List.replicate 4096 (PyStr.ofChar ' ') := by
    rw [truncate, padded, List.take_left' (List.length_replicate ..)]
  rw [htake, PyStr.strip_eq_nil_iff]
  intro c hc
  rw [List.eq_of_mem_replicate hc]
  decide

/-- **A recorded result need not be accepted**: of a text that starts with 4096 blanks, nothing but
blanks is sent. -/
theorem not_publishes : ¬ ∀ (s : TaskEngine) (job : Job) (statusCode : ℤ) (text : PyStr),
    Records job statusCode text →
      Delivering Host.ascii Env.quiet "w" "p" job (resultOf job text) s →
      (TaskRPC.call Host.ascii Env.quiet "w" "p" (RpcCall.publishResult job.event.runId
        job.event.offerId (resultOf job text)) s).1 = Except.ok (Reply.bool true) := by
  intro h
  have hrecords : Records askedJob 0 padded := ⟨rfl, rfl, strip_padded⟩
  have hnot : ¬ Deliverable Host.ascii "w" askedJob padded :=
    fun hd => hd.text_ne strip_truncate_padded
  obtain ⟨e, he⟩ := call_publish_raises Env.quiet "p" asked hnot
  have hok := h asked askedJob 0 padded hrecords (delivering_asked _)
  rw [he] at hok
  cases hok

end NativeTaskWorker
