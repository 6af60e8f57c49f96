/-
**What a request can do to the tables.**

The requests, the tick and the restart are many, but they change the tables in few ways.  This
module lists those ways once, as a step relation on the tables, and shows that every request that
returns is a sequence of such steps.  Every invariant of the run table and of the inbox is then
proved once for each kind of step.

The relation is parametrised by what is permitted: some results hold only of runs in which no
request does a certain thing.

Main definitions:

* `Tables.Permits` — which offers, commits, acknowledgements and ends of runs are permitted;
* `Tables.Step` — one change of the tables;
* `Tables.Permits.Ok` — all that a request can do is permitted;
* `Tables.Rebuilt` — the same tables after a rollback or a restart.

Main results:

* `Tables.dispatch_steps`, `Tables.poll_steps` — **a request that returns, and a tick that returns,
  are sequences of steps**;
* `TaskEngine.respond_effect` — an input performs steps, or it rebuilds the tables;
* `TaskEngine.tables_invariant` — **what steps and rebuilding preserve is an invariant**.
-/

import CatAgent.Transaction

set_option relaxedAutoImplicit false
set_option autoImplicit false

namespace Tables

/-- What is permitted. -/
structure Permits where
  /-- To offer this run to a worker that skips these runs. -/
  offer : Env → List PyStr → Tables → Run → Prop
  /-- To finish a run: the owner, the run, the offer, and the outcome. -/
  finish : PyStr → PyStr → PyStr → PyStr → Prop
  /-- To commit the result of a run. -/
  commit : PyStr → Prop
  /-- To acknowledge the result of a run. -/
  ack : PyStr → Prop
  /-- To register a worker: its owner and its peer. -/
  lease : PyStr × PyStr → Prop
  /-- To perform an administrative operation. -/
  admin : AdminOp → Prop

/-- Everything is permitted. -/
def Permits.all : Permits where
  offer := fun _ _ _ _ => True
  finish := fun _ _ _ _ => True
  commit := fun _ => True
  ack := fun _ => True
  lease := fun _ => True
  admin := fun _ => True

/-- One change of the tables. -/
inductive Step (host : Host) (P : Permits) : Tables → Tables → Prop
  /-- Withdrawing grants that are lost. -/
  | reconcile (env : Env) (t : Tables) : Step host P t (t.reconcile env)
  /-- A change of the registry. -/
  | registry (t : Tables) (r : Registry) (h : Registry.Change host P.admin t.registry r) :
      Step host P t { t with registry := r }
  /-- Queueing a run for an event of a task. -/
  | queue (t : Tables) (event : SystemEvent) (task : TaskRecord)
      (htask : t.registry.tasks.get? task.taskId = some task)
      (henabled : task.enabled = true) (hid : event.taskId = some task.taskId)
      (hgen : task.generation = event.taskGeneration)
      (htimer : ¬ (event.source = PyStr.ofString "timer" ∧ t.runs.live task = true))
      (hfull : t.runs.pendingCount < RunTable.maxPending) :
      Step host P t
        { t with
          registry := { t.registry with uuids := t.registry.uuids + 1 }
          runs := t.runs.put (RunTable.newRun (host.uuid4 t.registry.uuids) event task) }
  /-- Registering, renewing or ending a lease. -/
  | lease (t : Tables) (workers : WorkerTable)
      (hP : ∀ key, workers.get? key ≠ none → t.workers.get? key ≠ none ∨ P.lease key) :
      Step host P t { t with workers }
  /-- Offering the first run that passes the filters of `pull`. -/
  | offer (env : Env) (t : Tables) (e : Executor) (owner peer : PyStr) (skipRunIds : List PyStr)
      (run : Run) (hrun : t.runs.nextOffer env t.workers e owner peer skipRunIds = some run)
      (howner : owner ≠ []) (hpeer : peer ≠ []) (hP : P.offer env skipRunIds t run) :
      Step host P t (t.offer host e owner peer run.event.runId)
  /-- Beginning an offered run, or one that is running already. -/
  | begin (t : Tables) (owner peer runId offerId : PyStr) (run : Run)
      (hrun : t.granted owner peer runId offerId = some run) (hsay : t.maySay run = true) :
      Step host P t (t.updateRun runId (fun run => { run with state := RunState.running })
        fun _ => rfl)
  /-- Giving an offer back. -/
  | withdraw (t : Tables) (owner peer runId offerId : PyStr) (run : Run)
      (hrun : t.granted owner peer runId offerId = some run)
      (hstate : run.state = RunState.offered) :
      Step host P t (t.updateRun runId Run.returnPending fun _ => rfl)
  /-- Finishing a run. -/
  | finish (t : Tables) (owner peer runId offerId : PyStr) (run : Run) (outcome : PyStr)
      (code : ℤ) (hrun : t.granted owner peer runId offerId = some run)
      (hstate : run.state.terminal = false)
      (hoffered : ¬ (run.state = RunState.offered ∧ run.current t.registry.tasks = true))
      (hP : P.finish owner runId offerId outcome) :
      Step host P t (t.updateRun runId (Run.finished outcome code) fun _ => rfl)
  /-- Committing a query result. -/
  | commit (t : Tables) (owner peer offerId : PyStr) (payload : QueryPayload) (run : Run)
      (hpayload : QueryPayload.Acceptable payload.runId payload)
      (hnone : t.queryResults.get? payload.runId = none)
      (hrun : t.runs.get? payload.runId = some run)
      (hmay : QueryTable.mayPublish t.registry.tasks owner peer offerId payload run = true)
      (hquery : QueryTable.isQuery t.registry.tasks payload.taskId = true)
      (hfull : t.queryResults.unackedCount < QueryTable.maxPending)
      (hP : P.commit payload.runId) :
      Step host P t
        { t with
          queryResults := t.queryResults.put { owner, peer, offerId, payload, acked := false } }
  /-- Acknowledging a query result, and pruning. -/
  | ack (t : Tables) (runId : PyStr) (record : QueryResult)
      (hrecord : t.queryResults.get? runId = some record) (hP : P.ack runId) :
      Step host P t
        { t with queryResults := QueryTable.prune (t.queryResults.markAcked runId) }

/-- A result passes all checks that come before its commit. -/
def Committable (owner peer runId offerId : PyStr) (result : Option Json) (t : Tables) : Prop :=
  t.queryResults.get? runId = none ∧ ∃ payload run,
    QueryPayload.validate runId (result.getD Json.null) = Except.ok payload ∧
    t.runs.get? runId = some run ∧
    QueryTable.mayPublish t.registry.tasks owner peer offerId payload run = true ∧
    QueryTable.isQuery t.registry.tasks payload.taskId = true ∧
    t.queryResults.unackedCount < QueryTable.maxPending

/-- All that a request can do is permitted. -/
def Permits.Ok (P : Permits) (env : Env) (peer : PyStr) (t : Tables) : Op → Prop
  | Op.worker owner (WorkerOp.pull executor seen skipRunIds) =>
      ∀ e run, Executor.ofName executor = some e →
        (t.reconcile env).runs.heldOffer owner peer seen skipRunIds = none →
        (t.reconcile env).runs.nextOffer env t.workers e owner peer skipRunIds = some run →
        P.offer env skipRunIds (t.reconcile env) run
  | Op.worker owner (WorkerOp.finish runId offerId outcome _) =>
      P.finish owner runId offerId (outcome.getD "done")
  | Op.worker owner
      (WorkerOp.publishResult (some (Json.str runId)) (some (Json.str offerId)) result) =>
      Committable owner peer runId offerId result (t.reconcile env) → P.commit runId
  | Op.worker owner (WorkerOp.heartbeat _ _ _) => P.lease (owner, peer)
  | Op.notificationsAck [Json.str runId] => P.ack runId
  | Op.admin op => P.admin op
  | Op.pauseTask taskId => P.admin (AdminOp.stopTask taskId true)
  | _ => True

variable {host : Host} {P : Permits} {env : Env} {t t' : Tables}

open Relation (ReflTransGen)

/-- Queueing either changes nothing but the supply of identifiers, or queues one run. -/
theorem queue_steps {event : SystemEvent} {identifier : Option PyStr}
    (h : t.queue host event = Except.ok (identifier, t')) :
    ReflTransGen (Step host P) t t' := by
  obtain ⟨⟨ident, runs⟩, hq, h⟩ := bind_eq_ok_iff.1 h
  cases h
  -- A refused event still leaves the supply of identifiers advanced.
  have hnone : Step host P t
      { t with registry := { t.registry with uuids := t.registry.uuids + 1 } } :=
    Step.registry t _ Registry.Change.nextUuid
  unfold RunTable.queue at hq
  cases hid : event.taskId with
  | none =>
      simp only [hid] at hq
      cases hq
  | some taskId =>
      simp only [hid] at hq
      cases htask : t.registry.tasks.get? taskId with
      | none =>
          simp only [htask] at hq
          cases hq
          exact ReflTransGen.single hnone
      | some task =>
          simp only [htask] at hq
          obtain rfl := Table.key_of_get? (t := t.registry.tasks) htask
          split_ifs at hq with h₁ h₂ h₃
          · cases hq
            exact ReflTransGen.single hnone
          · cases hq
            exact ReflTransGen.single hnone
          · cases hq
            simp only [not_or, Bool.not_eq_true, Bool.not_eq_false, not_not] at h₁
            exact ReflTransGen.single
              (Step.queue t event task htask h₁.1 hid h₁.2 h₂ (not_le.1 h₃))

theorem granted_eq_some {owner peer runId offerId : PyStr} {run : Run}
    (h : t.granted owner peer runId offerId = some run) :
    t.runs.get? runId = some run ∧ run.owner = owner ∧ run.peer = peer ∧
      run.event.offerId = offerId := by
  have := Option.filter_eq_some_iff.1 h
  refine ⟨this.1, ?_⟩
  simpa [and_assoc] using this.2

/-- A worker request that returns is a sequence of steps. -/
theorem worker_steps {owner peer : PyStr} {op : WorkerOp} {reply : Reply}
    (hP : P.Ok env peer t (Op.worker owner op))
    (h : t.worker host env owner peer op = Except.ok (reply, t')) :
    ReflTransGen (Step host P) t t' := by
  obtain ⟨_, hid, h⟩ := bind_eq_ok_iff.1 h
  rw [raiseIf_eq_ok_iff, not_or] at hid
  refine ReflTransGen.head (Step.reconcile env t) ?_
  cases op with
  | heartbeat executor ready reason =>
      simp only [heartbeat] at h
      split at h
      · cases h
      · cases h
        refine ReflTransGen.single (Step.lease _ _ fun key hkey => ?_)
        by_cases heq : (owner, peer) = key
        · exact Or.inr (heq ▸ hP)
        · refine Or.inl fun hnone => hkey ?_
          rw [Table.get?_put, hnone]
          exact if_neg heq
  | offline =>
      cases h
      refine ReflTransGen.head (Step.lease _ _ fun key hkey => Or.inl ?_)
        (ReflTransGen.single (Step.reconcile env _))
      -- Only a worker that is known is marked as stopping.
      rw [Table.get?_modify] at hkey
      split_ifs at hkey with heq
      · exact fun hnone => hkey (by rw [hnone]; rfl)
      · exact hkey
  | publishResult runId offerId result =>
      obtain ⟨⟨b, queryResults⟩, hp, h⟩ := bind_eq_ok_iff.1 h
      cases h
      obtain ⟨offer, payload, rfl, rfl, hv, hcases⟩ := QueryTable.publish_eq_ok hp
      rcases hcases with ⟨_, rfl⟩ | ⟨_, rfl, _⟩ | ⟨_, hnone, ⟨run, hrun, hmay⟩, hq, hfull, rfl⟩
      · exact ReflTransGen.refl
      · exact ReflTransGen.refl
      · exact ReflTransGen.single
          (Step.commit _ owner peer offer payload run (QueryPayload.validate_spec hv) hnone hrun
            hmay hq hfull
            (hP ⟨hnone, payload, run, hv, hrun, hmay, hq, hfull⟩))
  | pull executor seen skipRunIds =>
      simp only [pull] at h
      split at h
      · cases h
      · rename_i e he
        split at h
        · cases h
          exact ReflTransGen.refl
        · rename_i hheld
          split at h
          · cases h
            exact ReflTransGen.refl
          · rename_i run hrun
            cases h
            exact ReflTransGen.single
              (Step.offer env _ e owner peer skipRunIds run hrun hid.2 hid.1
                (hP e run he hheld hrun))
  | begin runId offerId =>
      cases h
      simp only [begin]
      split
      · exact ReflTransGen.refl
      · rename_i run hrun
        split_ifs with hsay
        · exact ReflTransGen.single (Step.begin _ owner peer runId offerId run hrun hsay)
        · exact ReflTransGen.refl
  | valid runId offerId =>
      cases h
      exact ReflTransGen.refl
  | finish runId offerId outcome statusCode =>
      obtain ⟨⟨b, t₁⟩, hf, h⟩ := bind_eq_ok_iff.1 h
      cases h
      simp only [finish] at hf
      split at hf
      · cases hf
        exact ReflTransGen.refl
      · rename_i run hrun
        split_ifs at hf with hterm hoff
        · cases hf
          exact ReflTransGen.refl
        · obtain ⟨code, _, hf⟩ := bind_eq_ok_iff.1 hf
          cases hf
          exact ReflTransGen.single
            (Step.withdraw _ owner peer runId offerId run hrun hoff.1)
        · obtain ⟨code, _, hf⟩ := bind_eq_ok_iff.1 hf
          cases hf
          exact ReflTransGen.single
            (Step.finish _ owner peer runId offerId run _ code hrun (by simpa using hterm) hoff hP)

theorem ofRunId_eq_ok {result : Except PyError (Option PyStr × Tables)} {reply : Reply}
    (h : Reply.ofRunId result = Except.ok (reply, t')) :
    ∃ identifier, result = Except.ok (identifier, t') ∧ reply = Reply.runId identifier := by
  cases result with
  | error e => cases h
  | ok p =>
      cases h
      exact ⟨p.1, rfl, rfl⟩

/-- **A request that returns is a sequence of steps.** -/
theorem dispatch_steps {peer : PyStr} {op : Op} {reply : Reply} (hP : P.Ok env peer t op)
    (h : t.dispatch host env peer op = Except.ok (reply, t')) :
    ReflTransGen (Step host P) t t' := by
  cases op with
  | admin op =>
      obtain ⟨⟨reply', r⟩, ha, h⟩ := bind_eq_ok_iff.1 h
      cases h
      exact ReflTransGen.single
        (Step.registry t r (Registry.Change.admin op env.monotonic reply r hP ha))
  | pauseTask taskId =>
      obtain ⟨⟨task, r⟩, ha, h⟩ := bind_eq_ok_iff.1 h
      cases h
      have hstop : (AdminOp.stopTask taskId true).apply host env.monotonic t.registry =
          Except.ok (Reply.task (some task), r) := by
        simp only [AdminOp.apply, Reply.ofTask, ha]
        rfl
      exact ReflTransGen.head
        (Step.registry t r (Registry.Change.admin _ env.monotonic _ r hP hstop))
        (ReflTransGen.single (Step.reconcile env _))
  | statusText | ping | cores | runs =>
      cases h
      exact ReflTransGen.refl
  | runTask taskId =>
      obtain ⟨task, _, h⟩ := bind_eq_ok_iff.1 h
      obtain ⟨identifier, hq, _⟩ := ofRunId_eq_ok h
      exact queue_steps hq
  | externalEvent source name value =>
      obtain ⟨identifier, hq, _⟩ := ofRunId_eq_ok h
      simp only [externalEvent] at hq
      split at hq
      · cases hq
        exact ReflTransGen.refl
      · split at hq
        · cases hq
          exact ReflTransGen.refl
        · exact queue_steps hq
  | submitEvent event =>
      obtain ⟨identifier, hq, _⟩ := ofRunId_eq_ok h
      exact queue_steps hq
  | notificationsList limit =>
      obtain ⟨n, _, h⟩ := bind_eq_ok_iff.1 h
      cases h
      exact ReflTransGen.refl
  | notificationsAck args =>
      obtain ⟨⟨b, results⟩, ha, h⟩ := bind_eq_ok_iff.1 h
      cases h
      rcases QueryTable.ack_eq_ok ha with ⟨_, rfl⟩ | ⟨runId, record, rfl, hr, _, rfl⟩
      · exact ReflTransGen.refl
      · exact ReflTransGen.single (Step.ack t runId record hr hP)
  | worker owner op => exact worker_steps hP h
  | malformed e => cases h

theorem queueAll_steps {events : List SystemEvent}
    (h : queueAll host events t = Except.ok t') : ReflTransGen (Step host P) t t' := by
  induction events generalizing t with
  | nil =>
      cases h
      exact ReflTransGen.refl
  | cons event events ih =>
      obtain ⟨⟨identifier, t₁⟩, hq, h⟩ := bind_eq_ok_iff.1 h
      exact (queue_steps hq).trans (ih h)

/-- **A tick that returns is a sequence of steps.** -/
theorem poll_steps {now : Option ℚ} (h : t.poll host env now = Except.ok t') :
    ReflTransGen (Step host P) t t' := by
  unfold poll at h
  obtain ⟨⟨events, r⟩, hp, h⟩ := bind_eq_ok_iff.1 h
  refine ReflTransGen.head (Step.reconcile env t) ?_
  exact ReflTransGen.head (Step.registry _ r
    (Registry.Change.pollDue _ events r (Registry.pollDueFloat_eq_ok_iff.1 hp).1))
    (queueAll_steps h)

/-- The supplies of identifiers and of objects only advance. -/
theorem Step.supplies_le (h : Step host P t t') :
    t.registry.uuids ≤ t'.registry.uuids ∧ t.registry.objects ≤ t'.registry.objects := by
  cases h with
  | registry _ _ h => exact ⟨h.follows.uuids_le, h.follows.objects_le⟩
  | queue | offer => exact ⟨Nat.le_succ _, Nat.le_refl _⟩
  | _ => exact ⟨Nat.le_refl _, Nat.le_refl _⟩

theorem steps_supplies_le (h : ReflTransGen (Step host P) t t') :
    t.registry.uuids ≤ t'.registry.uuids ∧ t.registry.objects ≤ t'.registry.objects := by
  induction h with
  | refl => exact ⟨Nat.le_refl _, Nat.le_refl _⟩
  | tail _ hs ih =>
      have := hs.supplies_le
      exact ⟨ih.1.trans this.1, ih.2.trans this.2⟩

/-! ### Restoring -/

/-- The same tasks, bindings, runs and query results, rebuilt: every binding has a new object, the
leases may be lost, and monotonic deadlines may have another zero. -/
structure Rebuilt (t t' : Tables) : Prop where
  tasks : Table.Same t.registry.tasks t'.registry.tasks
  bindings : ∀ k, (t.registry.bindings.get? k).map BindingObject.binding =
    (t'.registry.bindings.get? k).map BindingObject.binding
  timers : ∀ k, (t.registry.taskTimers.get? k).map TaskTimerSpec.undated =
    (t'.registry.taskTimers.get? k).map TaskTimerSpec.undated
  runs : t.runs = t'.runs
  queryResults : t.queryResults = t'.queryResults
  uuids_le : t.registry.uuids ≤ t'.registry.uuids
  objects_le : t.registry.objects ≤ t'.registry.objects
  /-- Every object is new. -/
  fresh : ∀ k o, t'.registry.bindings.get? k = some o →
    t.registry.objects ≤ o.id ∧ o.id < t'.registry.objects

/-- Reading the deadlines at another zero changes nothing else. -/
theorem get?_taskTimers_shift (offset : ℚ) (t : Tables) (k : ℤ) :
    ((t.shift offset).registry.taskTimers.get? k).map TaskTimerSpec.undated =
      (t.registry.taskTimers.get? k).map TaskTimerSpec.undated := by
  rw [shift, Table.get?_map, Option.map_map, TaskTimerSpec.undated_comp_shift]

/-- Restoring a snapshot rebuilds the tables. -/
theorem rebuilt_of_agree {t₀ t₁ : Tables} {offset offset' a b : ℚ}
    (hu : t.registry.uuids ≤ t₀.registry.uuids) (ho : t.registry.objects ≤ t₀.registry.objects)
    (ha : Agree (t₁.shift a) (t.shift b)) :
    Rebuilt t (restoreSaved offset' (t₁.saved offset) t₀) := by
  obtain ⟨htasks, hbindings, htimers, _, hruns, hresults⟩ :=
    restoreSaved_saved offset offset' t₁ t₀
  obtain ⟨htasks', hbindings', htimers', _, hruns', hresults'⟩ := ha
  simp only [shift_tasks] at htasks htasks'
  simp only [shift_bindings] at hbindings hbindings'
  simp only [shift_runs] at hruns hruns'
  simp only [shift_queryResults] at hresults hresults'
  refine ⟨(htasks.trans htasks').symm, fun k => ((hbindings k).trans (hbindings' k)).symm,
    fun k => ?_, (hruns.trans hruns').symm, (hresults.trans hresults').symm, hu,
    ho.trans (Nat.le_add_right _ _), ?_⟩
  · rw [htimers, get?_taskTimers_shift, ← get?_taskTimers_shift a t₁, htimers',
      get?_taskTimers_shift]
  intro k o hk
  have hid := id_of_get?_rebuilt hk
  refine ⟨ho.trans hid.1, ?_⟩
  simpa [restoreSaved, saved] using hid.2

end Tables

namespace TaskEngine

open Tables (Agree Step Permits Rebuilt)
open Relation (ReflTransGen)

variable {host : Host} {P : Permits} {s : TaskEngine}

/-- All that an input can do is permitted. -/
def Allowed (P : Permits) (s : TaskEngine) : Input → Prop
  | Input.call env op peer => P.Ok env peer s.toTables op
  | _ => True

theorem allowed_all (s : TaskEngine) (i : Input) : s.Allowed Permits.all i := by
  cases i with
  | call env op peer =>
      change Permits.all.Ok env peer s.toTables op
      unfold Permits.Ok
      split
      · exact fun _ _ _ _ _ => trivial
      · exact trivial
      · exact fun _ => trivial
      · exact trivial
      · exact trivial
      · exact trivial
      · exact trivial
      · exact trivial
  | _ => trivial

/-- Rolling back rebuilds the tables. -/
theorem rollback_rebuilt {t : Tables} (hu : s.registry.uuids ≤ t.registry.uuids)
    (ho : s.registry.objects ≤ t.registry.objects) :
    Rebuilt s.toTables (s.rollback (s.snapshot s.offset) t).toTables := by
  have hr : Tables.restore s.offset (s.snapshot s.offset) t =
      some (Tables.restoreSaved s.offset (s.toTables.saved s.offset) t) := by
    simp [Tables.restore, Tables.snapshot]
  simp only [rollback, hr, Option.getD_some]
  exact Tables.rebuilt_of_agree (a := 0) (b := 0) hu ho (Agree.refl _)

/-- A restart rebuilds the tables. -/
theorem reopen_rebuilt (h : s.RowHolds) (offset : ℚ) :
    Rebuilt s.toTables (s.reopen offset).toTables := by
  obtain ⟨t, offset₀, ht, ha⟩ := h
  have hr : Tables.restore offset s.row { s.toTables with workers := Table.empty } =
      some (Tables.restoreSaved offset (t.saved offset₀)
        { s.toTables with workers := Table.empty }) := by
    rw [ht]
    simp [Tables.restore, Tables.snapshot]
  simp only [reopen, hr, Option.getD_some]
  exact Tables.rebuilt_of_agree (Nat.le_refl _) (Nat.le_refl _) ha

/-- **A transaction performs steps and returns, or raises and rebuilds the tables.** -/
theorem transact_effect {env : Env} {body : Tables → Except PyError (Reply × Tables)}
    (hbody : ∀ reply t, body s.toTables = Except.ok (reply, t) →
      ReflTransGen (Step host P) s.toTables t) :
    (∃ reply, (s.transact env body).1 = Except.ok reply ∧
      ReflTransGen (Step host P) s.toTables (s.transact env body).2.toTables) ∨
    (∃ e, (s.transact env body).1 = Except.error e) ∧
      Rebuilt s.toTables (s.transact env body).2.toTables := by
  unfold transact
  cases hb : body s.toTables with
  | error e =>
      exact Or.inr ⟨⟨e, rfl⟩, rollback_rebuilt (Nat.le_refl _) (Nat.le_refl _)⟩
  | ok p =>
      obtain ⟨reply, t⟩ := p
      have hsteps := hbody reply t hb
      have hle := Tables.steps_supplies_le hsteps
      simp only
      split_ifs
      · exact Or.inl ⟨reply, rfl, hsteps⟩
      · exact Or.inl ⟨reply, rfl, hsteps⟩
      · exact Or.inr ⟨⟨PyError.saveFailed, rfl⟩, rollback_rebuilt hle.1 hle.2⟩

/-- **What an input does**: it returns and has performed steps, or it raises and has rebuilt the
tables, or it is a restart, which rebuilds them too. -/
theorem respond_effect (host : Host) (hrow : s.RowHolds) {i : Input} (hP : s.Allowed P i) :
    (∃ reply, (s.respond host i).1 = Except.ok reply ∧
      ReflTransGen (Step host P) s.toTables (s.respond host i).2.toTables) ∨
    ((∃ e, (s.respond host i).1 = Except.error e) ∨ ∃ offset, i = Input.reopen offset) ∧
      Rebuilt s.toTables (s.respond host i).2.toTables := by
  cases i with
  | call env op peer =>
      refine (transact_effect fun reply t h => ?_).imp_right fun h => ⟨Or.inl h.1, h.2⟩
      exact Tables.dispatch_steps hP h
  | tick env now =>
      refine (transact_effect fun reply t h => ?_).imp_right fun h => ⟨Or.inl h.1, h.2⟩
      cases hp : s.toTables.poll host env now with
      | error e =>
          rw [hp] at h
          cases h
      | ok t' =>
          rw [hp] at h
          cases h
          exact Tables.poll_steps hp
  | consumeMqtt env o value =>
      simp only [respond, consumeMqtt]
      split
      · exact Or.inl ⟨Reply.none, rfl, ReflTransGen.refl⟩
      · split_ifs
        · exact Or.inl ⟨Reply.none, rfl, ReflTransGen.refl⟩
        · refine (transact_effect fun reply t h => ?_).imp_right fun h => ⟨Or.inl h.1, h.2⟩
          have hok : P.Ok env [] s.toTables
              (Op.externalEvent o.binding.source o.binding.name (some value)) := trivial
          exact Tables.dispatch_steps hok h
  | reopen offset => exact Or.inr ⟨Or.inr ⟨offset, rfl⟩, reopen_rebuilt hrow offset⟩

/-- What steps and rebuilding preserve is preserved by every input that is allowed. -/
theorem respond_tables {I : Tables → Prop} (hrow : s.RowHolds) {i : Input} (hP : s.Allowed P i)
    (hI : I s.toTables) (hstep : ∀ t t', I t → Step host P t t' → I t')
    (hrebuilt : ∀ t t', I t → Rebuilt t t' → I t') : I (s.respond host i).2.toTables := by
  rcases respond_effect host hrow hP with ⟨_, _, hsteps⟩ | ⟨_, hr⟩
  · have hrun : ∀ t, ReflTransGen (Step host P) s.toTables t → I t := by
      intro t ht
      induction ht with
      | refl => exact hI
      | tail _ hst ih => exact hstep _ _ ih hst
    exact hrun _ hsteps
  · exact hrebuilt _ _ hI hr

/-- **An invariant of the tables**: what every step and every rebuilding preserves holds in every
state that is reached by inputs that are allowed. -/
theorem tables_invariant {I : Tables → Prop}
    (hs : (machine host).Reach (Allowed P) s)
    (hinit : ∀ now tasks bindings uuids, Importable host tasks bindings uuids →
      I (Tables.imported now tasks bindings uuids))
    (hstep : ∀ t t', I t → Step host P t t' → I t')
    (hrebuilt : ∀ t t', I t → Rebuilt t t' → I t') : I s.toTables := by
  refine hs.invariant (I := fun s => I s.toTables) ?_ ?_
  · rintro s ⟨offset, now, tasks, bindings, uuids, himp, rfl⟩
    exact hinit now tasks bindings uuids himp
  · intro s i hreach hI hP
    exact respond_tables (rowHolds_of_reachable hreach.reachable) hP hI hstep hrebuilt

/-- The same for a run that starts in any reachable state. -/
theorem tables_leads {s' : TaskEngine} {I : Tables → Prop} (hs : (machine host).Reachable s)
    (h : (machine host).Leads (Allowed P) s s') (hI : I s.toTables)
    (hstep : ∀ t t', I t → Step host P t t' → I t')
    (hrebuilt : ∀ t t', I t → Rebuilt t t' → I t') : I s'.toTables := by
  have hboth : (machine host).Reachable s' ∧ I s'.toTables := by
    refine h.invariant (I := fun u => (machine host).Reachable u ∧ I u.toTables) ⟨hs, hI⟩ ?_
    intro u i hu hP
    exact ⟨hu.1.step i, respond_tables (rowHolds_of_reachable hu.1) hP hu.2 hstep hrebuilt⟩
  exact hboth.2

end TaskEngine
