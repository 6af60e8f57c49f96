/-
**What becomes of an offer.**

An offer identifier is handed out once, for one run.  A run that has begun under an offer keeps it:
whoever begins the run afterwards is the same worker under the same offer, until the run has ended.
A worker that is told that its run is finished knows that the run has ended, and a run is `done`
only because its worker has said so.

These are the facts about the service on which its workers rely.  All of them are stable: no later
request, restart or loss of a lease takes them back.

Main definitions:

* `Tables.OffersApart` — the offers of active runs are old and belong to one run each;
* `Tables.Begun`, `Tables.Ended` — a run has begun under an offer, and a run has ended.

Main results:

* `TaskEngine.begun_leads`, `TaskEngine.ended_leads` — **both are stable**;
* `TaskEngine.begun_of_begin`, `TaskEngine.ended_of_finish` — what the answers of the service mean;
* `TaskEngine.done_of_respond` — **a run is done only when its worker has said so**;
* `TaskEngine.record_of_publish` — a result that is acknowledged is in the inbox.
-/

import CatAgent.Fencing
import CatAgent.Grants
import CatAgent.NativeTaskWorker

set_option relaxedAutoImplicit false
set_option autoImplicit false

/-- `_reconcile` makes no run done. -/
theorem Run.reconciled_of_done {env : Env} {tasks : TaskTable} {workers : WorkerTable} {run : Run}
    (h : (run.reconciled env tasks workers).state = RunState.done) :
    run.reconciled env tasks workers = run := by
  unfold Run.reconciled at h ⊢
  split_ifs with h₁ h₂ h₃
  · rw [if_pos h₁] at h
    cases h
  · rw [if_neg h₁, if_pos h₂] at h
    cases h
  · rw [if_neg h₁, if_neg h₂, if_pos h₃] at h
    cases h
  · rfl

namespace Tables

variable {host : Host} {P : Permits} {t t' : Tables} {owner peer k o : PyStr}

/-- The offers of active runs have been handed out, and each belongs to one run. -/
structure OffersApart (host : Host) (t : Tables) : Prop where
  allocated : ∀ k run, t.runs.get? k = some run → run.state.active = true →
    ∃ n < t.registry.uuids, run.event.offerId = host.uuid4 n
  apart : ∀ i j a b, t.runs.get? i = some a → t.runs.get? j = some b → a.state.active = true →
    b.state.active = true → a.event.offerId = b.event.offerId → i = j

/-- **A step keeps the offers apart.** -/
theorem step_apart (h : Step host P t t') (ha : OffersApart host t) : OffersApart host t' := by
  have hle := h.supplies_le.1
  rcases step_grants h with hold | ⟨k₀, run₀, hget, _, _, _, huuids, hoffer, hrest⟩
  · refine ⟨fun k run' hk hact => ?_, fun i j a b hi hj haa hba hid => ?_⟩
    · obtain ⟨run, hrun, hact', hsame⟩ := hold k run' hk hact
      obtain ⟨n, hn, heq⟩ := ha.allocated k run hrun hact'
      exact ⟨n, hn.trans_le hle, hsame.offerId.trans heq⟩
    · obtain ⟨a₀, ha₀, haa₀, hsa⟩ := hold i a hi haa
      obtain ⟨b₀, hb₀, hba₀, hsb⟩ := hold j b hj hba
      exact ha.apart i j a₀ b₀ ha₀ hb₀ haa₀ hba₀ (hsa.offerId.symm.trans (hid.trans hsb.offerId))
  · -- The new offer differs from all that have been handed out before.
    have hnew : ∀ k run, k ≠ k₀ → t'.runs.get? k = some run → run.state.active = true →
        run.event.offerId ≠ run₀.event.offerId := by
      intro k run hne hk hact heq
      obtain ⟨n, hn, hid⟩ := ha.allocated k run (hrest k run hne hk) hact
      have := host.uuid4_injective (hid.symm.trans (heq.trans hoffer))
      omega
    refine ⟨fun k run' hk hact => ?_, fun i j a b hi hj haa hba hid => ?_⟩
    · by_cases hne : k = k₀
      · subst hne
        rw [hget] at hk
        cases hk
        exact ⟨_, by omega, hoffer⟩
      · obtain ⟨n, hn, heq⟩ := ha.allocated k run' (hrest k run' hne hk) hact
        exact ⟨n, hn.trans_le hle, heq⟩
    · by_cases hi₀ : i = k₀
      · by_cases hj₀ : j = k₀
        · exact hi₀.trans hj₀.symm
        · rw [hi₀, hget] at hi
          cases hi
          exact absurd hid.symm (hnew j b hj₀ hj hba)
      · by_cases hj₀ : j = k₀
        · rw [hj₀, hget] at hj
          cases hj
          exact absurd hid (hnew i a hi₀ hi haa)
        · exact ha.apart i j a b (hrest i a hi₀ hi) (hrest j b hj₀ hj) haa hba hid

/-! ### Runs that have begun, and runs that have ended -/

/-- The run `k` has begun under the offer `o` of a worker: it is running there or it has ended, and
no other run has this offer. -/
structure Begun (host : Host) (owner peer k o : PyStr) (t : Tables) : Prop where
  run_old : ∃ n < t.registry.uuids, k = host.uuid4 n
  offer_old : ∃ n < t.registry.uuids, o = host.uuid4 n
  grant : ∀ run, t.runs.get? k = some run → run.event.offerId = o ∧
    (run.state = RunState.running ∨ run.state.terminal = true) ∧
    (run.state = RunState.interrupted ∨ run.owner = owner ∧ run.peer = peer)
  alone : ∀ k' run, t.runs.get? k' = some run → run.state.active = true →
    run.event.offerId = o → k' = k

/-- The run `k` has ended; it may have been forgotten. -/
structure Ended (host : Host) (k : PyStr) (t : Tables) : Prop where
  run_old : ∃ n < t.registry.uuids, k = host.uuid4 n
  ended : ∀ run, t.runs.get? k = some run → run.state.terminal = true

theorem begun_of_rebuilt (hr : Rebuilt t t') (h : Begun host owner peer k o t) :
    Begun host owner peer k o t' where
  run_old := h.run_old.imp fun _ hn => ⟨hn.1.trans_le hr.uuids_le, hn.2⟩
  offer_old := h.offer_old.imp fun _ hn => ⟨hn.1.trans_le hr.uuids_le, hn.2⟩
  grant := hr.runs ▸ h.grant
  alone := hr.runs ▸ h.alone

/-- **A run that has begun stays with its offer.** -/
theorem step_begun (hs : Step host P t t') (h : Begun host owner peer k o t) :
    Begun host owner peer k o t' where
  run_old := h.run_old.imp fun _ hn => ⟨hn.1.trans_le hs.supplies_le.1, hn.2⟩
  offer_old := h.offer_old.imp fun _ hn => ⟨hn.1.trans_le hs.supplies_le.1, hn.2⟩
  grant := by
    intro run' hrun'
    obtain ⟨run, hrun, hlater⟩ := (step_later hs).old h.run_old hrun'
    obtain ⟨hoffer, hstate, hheld⟩ := h.grant run hrun
    rcases hstate with hrunning | hend
    · obtain ⟨hoffer', hstate', hheld'⟩ := hlater.begun hrunning
      refine ⟨hoffer'.trans hoffer, hstate', ?_⟩
      rcases hheld' with hint | ⟨ho, hp⟩
      · exact Or.inl hint
      · rcases hheld with hint | ⟨ho', hp'⟩
        · rw [hrunning] at hint
          cases hint
        · exact Or.inr ⟨ho.trans ho', hp.trans hp'⟩
    · rw [hlater.ended hend]
      exact ⟨hoffer, Or.inr hend, hheld⟩
  alone := by
    intro k' run' hk' hact hid
    rcases step_active hs hk' hact with ⟨run, hrun, hact', hsame⟩ | ⟨_, _, _, _, hnew⟩
    · exact h.alone k' run hrun hact' (hsame.offerId.symm.trans hid)
    · obtain ⟨n, hn, heq⟩ := h.offer_old
      have := host.uuid4_injective (heq.symm.trans (hid.symm.trans hnew))
      omega

theorem Ended.later (h : Ended host k t) (hl : Later host t t') : Ended host k t' where
  run_old := h.run_old.imp fun _ hn => ⟨hn.1.trans_le hl.uuids_le, hn.2⟩
  ended := by
    intro run' hrun'
    obtain ⟨run, hrun, hlater⟩ := hl.old h.run_old hrun'
    have hend := h.ended run hrun
    rw [hlater.ended hend]
    exact hend

/-- **Only a worker that finishes a run makes it done.** -/
theorem step_done (hs : Step host P t t') {run' : Run} (hk : t'.runs.get? k = some run')
    (hdone : run'.state = RunState.done) :
    t.runs.get? k = some run' ∨ ∃ outcome, P.finish run'.owner k run'.event.offerId outcome ∧
      RunState.ofOutcome outcome = RunState.done := by
  cases hs with
  | reconcile env =>
      obtain ⟨run, hrun, rfl⟩ := get?_reconcile hk
      rw [Run.reconciled_of_done hdone]
      exact Or.inl hrun
  | registry | lease | commit | ack => exact Or.inl hk
  | queue _ event task htask henabled hid hgen htimer hfull =>
      rw [Table.get?_put] at hk
      split_ifs at hk with heq
      · cases hk
        cases hdone
      · exact Or.inl hk
  | offer env _ e owner peer skipRunIds run hrun howner hpeer hP =>
      rcases get?_updateRun hk with ⟨_, run₀, _, rfl⟩ | hk
      · cases hdone
      · exact Or.inl hk
  | begin _ owner peer runId offerId run hrun hsay =>
      rcases get?_updateRun hk with ⟨_, run₀, _, rfl⟩ | hk
      · cases hdone
      · exact Or.inl hk
  | withdraw _ owner peer runId offerId run hrun hstate =>
      rcases get?_updateRun hk with ⟨_, run₀, _, rfl⟩ | hk
      · cases hdone
      · exact Or.inl hk
  | finish _ owner peer runId offerId run outcome code hrun hstate hoffered hP =>
      rcases get?_updateRun hk with ⟨rfl, run₀, hrun₀, rfl⟩ | hk
      · obtain ⟨hget, rfl, _, rfl⟩ := granted_eq_some hrun
        rw [hget] at hrun₀
        cases hrun₀
        exact Or.inr ⟨outcome, hP, hdone⟩
      · exact Or.inl hk

end Tables

namespace TaskEngine

open Tables (Step Permits OffersApart Begun Ended)

variable {host : Host} {s : TaskEngine} {owner peer k o : PyStr} {env : Env} {reply : Reply}

theorem apart_of_reachable (hs : (machine host).Reachable s) : OffersApart host s.toTables := by
  refine tables_invariant (P := Permits.all) (I := OffersApart host)
    (hs.mono fun s i _ => s.allowed_all i) ?_ (fun t t' h hstep => Tables.step_apart hstep h) ?_
  · intro now tasks bindings uuids _
    refine ⟨fun k run hk => ?_, fun i j a b hi => ?_⟩
    · cases hk
    · cases hi
  · intro t t' h hr
    refine ⟨fun k run hk hact => ?_, hr.runs ▸ h.apart⟩
    rw [← hr.runs] at hk
    exact (h.allocated k run hk hact).imp fun _ hn => ⟨hn.1.trans_le hr.uuids_le, hn.2⟩

/-- **That a run has begun is stable.** -/
theorem begun_respond (hs : (machine host).Reachable s) (i : Input)
    (h : Begun host owner peer k o s.toTables) :
    Begun host owner peer k o (s.respond host i).2.toTables :=
  respond_tables (P := Permits.all) (rowHolds_of_reachable hs) (s.allowed_all i) h
    (fun _ _ h hstep => Tables.step_begun hstep h) fun _ _ h hr => Tables.begun_of_rebuilt hr h

theorem begun_leads {s' : TaskEngine} (hs : (machine host).Reachable s)
    (hl : (machine host).Leads (fun _ _ => True) s s') (h : Begun host owner peer k o s.toTables) :
    Begun host owner peer k o s'.toTables := by
  have hboth : (machine host).Reachable s' ∧ Begun host owner peer k o s'.toTables :=
    hl.invariant (I := fun u => (machine host).Reachable u ∧ Begun host owner peer k o u.toTables)
      ⟨hs, h⟩ fun _ i hu _ => ⟨hu.1.step i, begun_respond hu.1 i hu.2⟩
  exact hboth.2

/-- **That a run has ended is stable.** -/
theorem ended_leads {s' : TaskEngine} (hs : (machine host).Reachable s)
    (hl : (machine host).Leads (fun _ _ => True) s s') (h : Ended host k s.toTables) :
    Ended host k s'.toTables :=
  h.later (leads_later hs hl)

/-- **A worker that is allowed to begin a run holds it under its offer.** -/
theorem begun_of_begin
    (hs : (machine host).Reachable
      (s.respond host (Input.call env ((RpcCall.begin k o).op owner) peer)).2)
    (h : (s.respond host (Input.call env ((RpcCall.begin k o).op owner) peer)).1 =
      Except.ok reply) (htrue : NativeTaskWorker.truthy reply = true) :
    Begun host owner peer k o
        (s.respond host (Input.call env ((RpcCall.begin k o).op owner) peer)).2.toTables ∧
      ∃ run, (s.respond host (Input.call env ((RpcCall.begin k o).op owner) peer)).2.runs.get? k =
          some run ∧ run.state = RunState.running ∧ run.owner = owner ∧ run.event.offerId = o := by
  have hrun : ∃ run, (s.respond host (Input.call env ((RpcCall.begin k o).op owner)
      peer)).2.runs.get? k = some run ∧ run.state = RunState.running ∧ run.owner = owner ∧
        run.peer = peer ∧ run.event.offerId = o := by
    obtain ⟨t, hb, ht⟩ := transact_returned h
    obtain ⟨_, _, hb⟩ := bind_eq_ok_iff.1 hb
    cases hb
    change ∃ run, (s.call host env _ peer).2.runs.get? k = some run ∧ _
    rw [call, ht]
    simp only [NativeTaskWorker.truthy, Tables.begin] at htrue ⊢
    cases hgranted : (s.toTables.reconcile env).granted owner peer k o with
    | none =>
        rw [hgranted] at htrue
        cases htrue
    | some run =>
        simp only [hgranted] at htrue ⊢
        split_ifs at htrue ⊢
        obtain ⟨hget, howner, hpeer, hoffer⟩ := Tables.granted_eq_some hgranted
        exact ⟨{ run with state := RunState.running }, Tables.get?_updateRun_self hget, rfl, howner,
          hpeer, hoffer⟩
  obtain ⟨run, hget, hstate, howner, hpeer, hoffer⟩ := hrun
  have hact : run.state.active = true := by rw [hstate]; rfl
  refine ⟨⟨allocated_of_reachable hs k run hget, ?_, fun run' hrun' => ?_,
    fun k' run' hk' hact' hid => ?_⟩, run, hget, hstate, howner, hoffer⟩
  · exact hoffer ▸ (apart_of_reachable hs).allocated k run hget hact
  · rw [hget] at hrun'
    cases hrun'
    exact ⟨hoffer, Or.inl hstate, Or.inr ⟨howner, hpeer⟩⟩
  · exact (apart_of_reachable hs).apart k' k run' run hk' hget hact' hact (hid.trans hoffer.symm)

/-- **A run that has begun and that its worker is told is finished has ended.** -/
theorem ended_of_finish (hs : (machine host).Reachable s)
    (hbegun : Begun host owner peer k o s.toTables) {outcome : PyStr} {code : Option ℤ}
    (h : (s.respond host (Input.call env ((RpcCall.finish k o outcome code).op owner) peer)).1 =
      Except.ok reply) :
    Ended host k
      (s.respond host (Input.call env ((RpcCall.finish k o outcome code).op owner) peer)).2.toTables := by
  have hbegun' := begun_respond hs (Input.call env ((RpcCall.finish k o outcome code).op owner) peer)
    hbegun
  refine ⟨hbegun'.run_old, fun run' hrun' => ?_⟩
  have hrec : Begun host owner peer k o (s.toTables.reconcile env) :=
    Tables.step_begun (P := Permits.all) (Step.reconcile env _) hbegun
  obtain ⟨t, hb, ht⟩ := transact_returned h
  change (s.call host env _ peer).2.runs.get? k = some run' at hrun'
  rw [call, ht] at hrun'
  obtain ⟨_, _, hb⟩ := bind_eq_ok_iff.1 hb
  obtain ⟨⟨b, t₁⟩, hf, hb⟩ := bind_eq_ok_iff.1 hb
  cases hb
  simp only [Tables.finish] at hf
  split at hf
  · -- The run is not granted to the worker any more, so it is not running.
    rename_i hnone
    cases hf
    obtain ⟨hoffer, hstate, hheld⟩ := hrec.grant run' hrun'
    rcases hstate with hrunning | hend
    · rcases hheld with hint | ⟨howner, hpeer⟩
      · rw [hrunning] at hint
        cases hint
      · rw [Tables.granted, Option.filter_eq_none_iff] at hnone
        exact absurd (by simp [howner, hpeer, hoffer]) (hnone run' hrun')
    · exact hend
  · rename_i run hgranted
    obtain ⟨hget, _, _, _⟩ := Tables.granted_eq_some hgranted
    split_ifs at hf with hterm hoffered
    · cases hf
      rw [hget] at hrun'
      cases hrun'
      exact hterm
    · -- A run that has begun is not offered.
      obtain ⟨_, hstate, _⟩ := hrec.grant run hget
      rw [hoffered.1] at hstate
      rcases hstate with hrunning | hend
      · cases hrunning
      · cases hend
    · obtain ⟨status, _, hf⟩ := bind_eq_ok_iff.1 hf
      cases hf
      have hself : ((s.toTables.reconcile env).updateRun k (Run.finished outcome status)
          fun _ => rfl).runs.get? k = some (run.finished outcome status) :=
        Tables.get?_updateRun_self hget
      cases hself.symm.trans hrun'
      exact RunState.terminal_ofOutcome _

/-- **A run is done only when its worker has said so.** -/
theorem done_of_respond (hs : (machine host).Reachable s) (i : Input) {run' : Run}
    (hk : (s.respond host i).2.runs.get? k = some run') (hdone : run'.state = RunState.done) :
    s.runs.get? k = some run' ∨ ∃ env peer outcome statusCode,
      i = Input.call env (Op.worker run'.owner
        (WorkerOp.finish k run'.event.offerId outcome statusCode)) peer ∧
      RunState.ofOutcome (outcome.getD "done") = RunState.done := by
  -- The only end of a run that is permitted is the one that the input asks for.
  let asked : Permits := { Permits.all with
    finish := fun owner runId offerId outcome => ∃ env peer given statusCode,
      i = Input.call env (Op.worker owner (WorkerOp.finish runId offerId given statusCode)) peer ∧
        outcome = given.getD "done" }
  have hallowed : s.Allowed asked i := by
    cases i with
    | call env op peer =>
        change asked.Ok env peer s.toTables op
        unfold Permits.Ok
        split
        · exact fun _ _ _ _ _ => trivial
        · exact ⟨_, _, _, _, rfl, rfl⟩
        · exact fun _ => trivial
        · exact trivial
        · exact trivial
        · exact trivial
        · exact trivial
        · exact trivial
    | _ => trivial
  refine respond_tables (P := asked) (rowHolds_of_reachable hs) hallowed
    (I := fun t => ∀ run', t.runs.get? k = some run' → run'.state = RunState.done →
      s.runs.get? k = some run' ∨ ∃ env peer outcome statusCode,
        i = Input.call env (Op.worker run'.owner
          (WorkerOp.finish k run'.event.offerId outcome statusCode)) peer ∧
        RunState.ofOutcome (outcome.getD "done") = RunState.done)
    (fun run hrun _ => Or.inl hrun) ?_ ?_ run' hk hdone
  · intro t t' hI hstep run hrun hd
    rcases Tables.step_done hstep hrun hd with hold | ⟨outcome, ⟨env, peer, given, code, hi, rfl⟩, ho⟩
    · exact hI run hold hd
    · exact Or.inr ⟨env, peer, given, code, hi, ho⟩
  · intro t t' hI hr
    rw [← hr.runs]
    exact hI

/-- **A result that is acknowledged is in the inbox**, under the grant of the worker. -/
theorem record_of_publish {result : QueryPayload}
    (h : (s.respond host
      (Input.call env ((RpcCall.publishResult k o result).op owner) peer)).1 = Except.ok reply)
    (htrue : NativeTaskWorker.truthy reply = true) :
    result.runId = k ∧ ∃ record, (s.respond host (Input.call env
        ((RpcCall.publishResult k o result).op owner) peer)).2.queryResults.get? k = some record ∧
      record.owner = owner ∧ record.peer = peer ∧ record.offerId = o ∧
      record.payload = result := by
  obtain ⟨t, hb, ht⟩ := transact_returned h
  change result.runId = k ∧ ∃ record,
    (s.call host env _ peer).2.queryResults.get? k = some record ∧ _
  rw [call, ht]
  obtain ⟨_, _, hb⟩ := bind_eq_ok_iff.1 hb
  obtain ⟨⟨b, results⟩, hp, hb⟩ := bind_eq_ok_iff.1 hb
  cases hb
  obtain ⟨offer, payload, hoffer, hrun, hv, hcases⟩ := QueryTable.publish_eq_ok hp
  cases hoffer
  cases hrun
  obtain ⟨rfl, hacceptable⟩ := (QueryPayload.validate_toJson_iff _ result payload).1 hv
  refine ⟨rfl, ?_⟩
  rcases hcases with ⟨rfl, _⟩ | ⟨_, rfl, existing, hget, howner, hpeer, hoffer, hpayload⟩ |
    ⟨_, _, _, _, _, rfl⟩
  · cases htrue
  · exact ⟨existing, hget, howner, hpeer, hoffer, hpayload⟩
  · refine ⟨{ owner, peer, offerId := o, payload, acked := false }, ?_, rfl, rfl, rfl, rfl⟩
    rw [Table.get?_put, if_pos rfl]

/-- What a worker is told when it asks for a task is the task that is registered. -/
theorem task_of_get {taskId : ℤ} {task : TaskRecord}
    (h : (s.respond host (Input.call env ((RpcCall.getTask taskId).op owner) peer)).1 =
      Except.ok (Reply.task (some task))) : s.registry.tasks.get? taskId = some task := by
  obtain ⟨t, hb, _⟩ := transact_returned h
  obtain ⟨⟨reply', r⟩, ha, hb⟩ := bind_eq_ok_iff.1 hb
  cases hb
  simp only [AdminOp.apply, Except.ok.injEq, Prod.mk.injEq, Reply.task.injEq] at ha
  exact ha.1

end TaskEngine

/-! ### The events of runs -/

/-- Whatever the engine still knows of the run of an event, it is this event. -/
def SystemEvent.Known (host : Host) (event : SystemEvent) (s : TaskEngine) : Prop :=
  (∃ n < s.registry.uuids, event.runId = host.uuid4 n) ∧ ∀ run,
    s.runs.get? event.runId = some run → run.event = { event with offerId := run.event.offerId }

namespace TaskEngine

variable {host : Host} {s : TaskEngine} {event : SystemEvent}

/-- What is known stays known. -/
theorem known_respond (hs : (machine host).Reachable s) (i : Input) (h : event.Known host s) :
    event.Known host (s.respond host i).2 := by
  obtain ⟨⟨n, hn, hid⟩, hrun⟩ := h
  have hl : Tables.Later host s.toTables (s.respond host i).2.toTables :=
    respond_later (rowHolds_of_reachable hs) i
  refine ⟨⟨n, hn.trans_le hl.uuids_le, hid⟩, fun run' hrun' => ?_⟩
  obtain ⟨run, hk, hlater⟩ := hl.old ⟨n, hn, hid⟩ hrun'
  rw [hlater.event, hrun run hk]

theorem known_leads {s' : TaskEngine} (hs : (machine host).Reachable s)
    (hl : (machine host).Leads (fun _ _ => True) s s') (h : event.Known host s) :
    event.Known host s' := by
  have hboth : (machine host).Reachable s' ∧ event.Known host s' :=
    hl.invariant (I := fun u => (machine host).Reachable u ∧ event.Known host u) ⟨hs, h⟩
      fun _ i hu _ => ⟨hu.1.step i, known_respond hu.1 i hu.2⟩
  exact hboth.2

/-- The run of an event that is known is the run of the event. -/
theorem known_of_run (hs : (machine host).Reachable s) {k : PyStr} {run : Run}
    (hk : s.runs.get? k = some run) : run.event.Known host s := by
  have hid : run.event.runId = k := Table.key_of_get? (t := s.runs) hk
  refine ⟨?_, fun run' hrun' => ?_⟩
  · rw [hid]
    exact allocated_of_reachable hs k run hk
  · rw [hid, hk] at hrun'
    cases hrun'
    rfl

end TaskEngine

/-- The event of an offer is the event of a run in the table. -/
theorem Tables.event_of_pull {host : Host} {env : Env} {owner peer executor : PyStr}
    {seen skipRunIds : List PyStr} {t t' : Tables} {event : SystemEvent}
    (h : t.worker host env owner peer (WorkerOp.pull executor seen skipRunIds) =
      Except.ok (Reply.event (some event), t')) :
    ∃ run, t'.runs.get? event.runId = some run ∧ run.event = event := by
  obtain ⟨_, _, h⟩ := bind_eq_ok_iff.1 h
  simp only [pull] at h
  split at h
  · cases h
  · split at h
    · rename_i run hheld
      cases h
      exact ⟨run, Table.mem_values_iff.1 (List.mem_of_find?_eq_some hheld), rfl⟩
    · split at h
      · cases h
      · rename_i run hnext
        cases h
        refine ⟨run.offered _ owner peer (host.uuid4 _), ?_, rfl⟩
        have hget := (nextOffer_spec hnext).1
        rw [offer_eq_updateRun]
        exact get?_updateRun_self hget

/-- The offer that a worker is told of is known. -/
theorem TaskEngine.known_of_pull {host : Host} {s : TaskEngine} {env : Env} {owner peer : PyStr}
    {seen skipRunIds : List PyStr} {event : SystemEvent}
    (hs : (machine host).Reachable (s.respond host (Input.call env
      ((RpcCall.pull seen skipRunIds).op owner) peer)).2)
    (h : (s.respond host (Input.call env ((RpcCall.pull seen skipRunIds).op owner) peer)).1 =
      Except.ok (Reply.event (some event))) :
    event.Known host (s.respond host (Input.call env
      ((RpcCall.pull seen skipRunIds).op owner) peer)).2 := by
  obtain ⟨t, hb, ht⟩ := transact_returned h
  obtain ⟨run, hrun, rfl⟩ := Tables.event_of_pull hb
  refine known_of_run hs (k := run.event.runId) ?_
  change (s.call host env _ peer).2.runs.get? _ = _
  rw [call, ht]
  exact hrun
