/-
**What an input can add.**

A run comes into the table of runs when an event is queued: by a tick, by a manual start, by an
external event or by an event that is submitted.  A binding comes into the store when it is
registered, for a task that exists or together with its task.  Nothing else adds a run or a binding.

Main definitions:

* `Tables.NoNewRuns` — every run was there before;
* `AdminOp.binds` — the binding that a request asks for.

Main results:

* `Tables.dispatch_new_run`, `Tables.poll_new_run` — **where a new run comes from**;
* `TaskEngine.respond_new_run` — the same for an input of the engine;
* `TaskEngine.respond_new_binding` — **where a new binding comes from**.
-/

import CatAgent.Lifecycle

set_option relaxedAutoImplicit false
set_option autoImplicit false

/-- What a loop returns comes from the elements one by one. -/
theorem exists_of_mem_mapM {ε α β : Type} {f : α → Except ε β} {l : List α} {l' : List β}
    (h : l.mapM f = Except.ok l') {b : β} (hb : b ∈ l') : ∃ a ∈ l, f a = Except.ok b := by
  induction l generalizing l' with
  | nil =>
      cases h
      cases hb
  | cons a l ih =>
      rw [List.mapM_cons] at h
      obtain ⟨first, hfirst, h⟩ := bind_eq_ok_iff.1 h
      obtain ⟨others, hothers, h⟩ := bind_eq_ok_iff.1 h
      cases h
      rcases List.mem_cons.1 hb with rfl | hb
      · exact ⟨a, List.mem_cons_self, hfirst⟩
      · obtain ⟨a', ha', hf⟩ := ih hothers hb
        exact ⟨a', List.mem_cons_of_mem _ ha', hf⟩

/-! ### Runs -/

namespace Tables

variable {host : Host} {env : Env} {t t' t'' : Tables} {k : PyStr}

/-- Every run was there before. -/
def NoNewRuns (t t' : Tables) : Prop :=
  ∀ k, t.runs.get? k = none → t'.runs.get? k = none

theorem NoNewRuns.refl (t : Tables) : NoNewRuns t t := fun _ h => h

theorem NoNewRuns.trans (h : NoNewRuns t t') (h' : NoNewRuns t' t'') : NoNewRuns t t'' :=
  fun k hk => h' k (h k hk)

theorem noNewRuns_of_runs (h : t'.runs = t.runs) : NoNewRuns t t' := fun k hk => by rw [h, hk]

theorem noNewRuns_reconcile (env : Env) (t : Tables) : NoNewRuns t (t.reconcile env) := by
  intro k hk
  refine Option.eq_none_iff_forall_ne_some.2 fun run' hrun' => ?_
  obtain ⟨run, hrun, _⟩ := get?_reconcile hrun'
  rw [hk] at hrun
  cases hrun

theorem noNewRuns_updateRun (runId : PyStr) (f : Run → Run)
    (hf : ∀ run, (f run).event.runId = run.event.runId) (t : Tables) :
    NoNewRuns t (t.updateRun runId f hf) := by
  intro k hk
  change (t.runs.modify runId f hf).get? k = none
  rw [Table.get?_modify, hk]
  split_ifs <;> rfl

/-- A request of a worker adds no run. -/
theorem worker_noNewRuns {owner peer : PyStr} {op : WorkerOp} {reply : Reply}
    (h : t.worker host env owner peer op = Except.ok (reply, t')) : NoNewRuns t t' := by
  obtain ⟨_, _, h⟩ := bind_eq_ok_iff.1 h
  refine (noNewRuns_reconcile env t).trans ?_
  cases op with
  | heartbeat executor ready reason =>
      simp only [heartbeat] at h
      split at h
      · cases h
      · cases h
        exact noNewRuns_of_runs rfl
  | offline =>
      cases h
      exact fun k hk => noNewRuns_reconcile env _ k hk
  | publishResult runId offerId result =>
      obtain ⟨⟨b, queryResults⟩, _, h⟩ := bind_eq_ok_iff.1 h
      cases h
      exact noNewRuns_of_runs rfl
  | pull executor seen skipRunIds =>
      simp only [pull] at h
      split at h
      · cases h
      · split at h
        · cases h
          exact NoNewRuns.refl _
        · split at h
          · cases h
            exact NoNewRuns.refl _
          · cases h
            intro k hk
            rw [offer_eq_updateRun]
            exact noNewRuns_updateRun _ _ _ _ k hk
  | begin runId offerId =>
      cases h
      simp only [begin]
      split
      · exact NoNewRuns.refl _
      · split_ifs
        · exact noNewRuns_updateRun _ _ _ _
        · exact NoNewRuns.refl _
  | valid runId offerId =>
      cases h
      exact NoNewRuns.refl _
  | finish runId offerId outcome statusCode =>
      obtain ⟨⟨b, t₁⟩, hf, h⟩ := bind_eq_ok_iff.1 h
      cases h
      simp only [finish] at hf
      split at hf
      · cases hf
        exact NoNewRuns.refl _
      · split_ifs at hf
        · cases hf
          exact NoNewRuns.refl _
        · obtain ⟨code, _, hf⟩ := bind_eq_ok_iff.1 hf
          cases hf
          exact noNewRuns_updateRun _ _ _ _
        · obtain ⟨code, _, hf⟩ := bind_eq_ok_iff.1 hf
          cases hf
          exact noNewRuns_updateRun _ _ _ _

/-- A run that was queued under the identifier `k` for `event`. -/
def Queued (k : PyStr) (event : SystemEvent) (run : Run) : Prop :=
  run.event = { event with runId := k }

/-- Queueing adds at most the run of the event. -/
theorem queue_run {event : SystemEvent} {identifier : Option PyStr}
    (h : t.queue host event = Except.ok (identifier, t')) {run : Run}
    (hk : t'.runs.get? k = some run) :
    t.runs.get? k = some run ∨ identifier = some k ∧ Queued k event run := by
  obtain ⟨⟨ident, runs⟩, hq, h⟩ := bind_eq_ok_iff.1 h
  cases h
  change runs.get? k = some run at hk
  unfold RunTable.queue at hq
  split at hq
  · cases hq
  · split at hq
    · cases hq
      exact Or.inl hk
    · split_ifs at hq
      · cases hq
        exact Or.inl hk
      · cases hq
        exact Or.inl hk
      · cases hq
        rw [Table.get?_put] at hk
        split_ifs at hk with heq
        · cases hk
          rw [RunTable.newRun_runId] at heq
          exact Or.inr ⟨by rw [heq], by rw [Queued, ← heq]; rfl⟩
        · exact Or.inl hk

/-- The run that was not there is the run of the event. -/
theorem queue_new_run {event : SystemEvent} {identifier : Option PyStr}
    (h : t.queue host event = Except.ok (identifier, t')) (hk : t.runs.get? k = none) {run : Run}
    (hk' : t'.runs.get? k = some run) : identifier = some k ∧ Queued k event run := by
  rcases queue_run h hk' with hold | hnew
  · rw [hk] at hold
    cases hold
  · exact hnew

/-- **Where a run comes from that a request adds**: a manual start, an external event whose binding
is registered, or an event that is submitted. -/
theorem dispatch_new_run {peer : PyStr} {op : Op} {reply : Reply}
    (h : t.dispatch host env peer op = Except.ok (reply, t')) (hk : t.runs.get? k = none) {run : Run}
    (hk' : t'.runs.get? k = some run) :
    reply = Reply.runId (some k) ∧
      ((∃ taskId, op = Op.runTask taskId ∧ run.event.source = "manual") ∨
        (∃ source name value o, op = Op.externalEvent source name value ∧
          EventStore.resolve host source name t.registry.bindings = some o ∧
          run.event.runId = k ∧ run.event.source = source ∧ run.event.name = name ∧
          run.event.task = value.getD [] ∧ run.event.taskId = some o.binding.taskId) ∨
        ∃ event, op = Op.submitEvent event ∧ run.event.source = event.source) := by
  -- It is enough to look at the operations that queue a run.
  have hold : NoNewRuns t t' → False := by
    intro hno
    rw [hno k hk] at hk'
    cases hk'
  cases op with
  | admin op =>
      obtain ⟨⟨reply', r⟩, _, h⟩ := bind_eq_ok_iff.1 h
      cases h
      exact absurd (noNewRuns_of_runs rfl) hold
  | pauseTask taskId =>
      obtain ⟨⟨task, r⟩, _, h⟩ := bind_eq_ok_iff.1 h
      cases h
      refine absurd ?_ hold
      exact fun k hk => noNewRuns_reconcile env _ k hk
  | statusText | ping | cores | runs =>
      cases h
      exact absurd (NoNewRuns.refl _) hold
  | notificationsList limit =>
      obtain ⟨n, _, h⟩ := bind_eq_ok_iff.1 h
      cases h
      exact absurd (NoNewRuns.refl _) hold
  | notificationsAck args =>
      obtain ⟨⟨b, results⟩, _, h⟩ := bind_eq_ok_iff.1 h
      cases h
      exact absurd (noNewRuns_of_runs rfl) hold
  | worker owner op => exact absurd (worker_noNewRuns h) hold
  | malformed e => cases h
  | runTask taskId =>
      obtain ⟨task, _, h⟩ := bind_eq_ok_iff.1 h
      obtain ⟨identifier, hq, rfl⟩ := ofRunId_eq_ok h
      obtain ⟨rfl, hrun⟩ := queue_new_run hq hk hk'
      exact ⟨rfl, Or.inl ⟨taskId, rfl, by rw [hrun]; rfl⟩⟩
  | externalEvent source name value =>
      obtain ⟨identifier, hq, rfl⟩ := ofRunId_eq_ok h
      simp only [externalEvent] at hq
      split at hq
      · cases hq
        exact absurd (NoNewRuns.refl _) hold
      · rename_i o ho
        split at hq
        · cases hq
          exact absurd (NoNewRuns.refl _) hold
        · rename_i task htask
          obtain ⟨rfl, hrun⟩ := queue_new_run hq hk hk'
          have hid : task.taskId = o.binding.taskId :=
            Table.key_of_get? (t := t.registry.tasks) htask
          refine ⟨rfl, Or.inr (Or.inl ⟨source, name, value, o, rfl, ho, ?_⟩)⟩
          rw [hrun]
          exact ⟨rfl, rfl, rfl, rfl, congrArg some hid⟩
  | submitEvent event =>
      obtain ⟨identifier, hq, rfl⟩ := ofRunId_eq_ok h
      obtain ⟨rfl, hrun⟩ := queue_new_run hq hk hk'
      exact ⟨rfl, Or.inr (Or.inr ⟨event, rfl, by rw [hrun]⟩)⟩

/-- Queueing several events adds runs of these events. -/
theorem queueAll_run {events : List SystemEvent}
    (h : queueAll host events t = Except.ok t') {run : Run} (hk : t'.runs.get? k = some run) :
    t.runs.get? k = some run ∨ ∃ event ∈ events, Queued k event run := by
  induction events generalizing t with
  | nil =>
      cases h
      exact Or.inl hk
  | cons event events ih =>
      obtain ⟨⟨identifier, t₁⟩, hq, h⟩ := bind_eq_ok_iff.1 h
      rcases ih h with hold | ⟨other, hmem, hrun⟩
      · rcases queue_run hq hold with hold | ⟨_, hrun⟩
        · exact Or.inl hold
        · exact Or.inr ⟨event, List.mem_cons_self, hrun⟩
      · exact Or.inr ⟨other, List.mem_cons_of_mem _ hmem, hrun⟩

/-- The events of a tick come from timers. -/
theorem source_of_pollDue {current : ℚ} {busy : Bool} {r r' : Registry} {events : List SystemEvent}
    (h : r.pollDue current busy = Except.ok (events, r')) :
    ∀ event ∈ events, event.source = "timer" := by
  unfold Registry.pollDue at h
  obtain ⟨taskEvents, htask, h⟩ := bind_eq_ok_iff.1 h
  cases h
  intro event hevent
  rcases List.mem_append.1 hevent with hmem | hmem
  · obtain ⟨timer, _, rfl⟩ := List.mem_map.1 hmem
    rfl
  · obtain ⟨timer, _, hevent⟩ := exists_of_mem_mapM htask hmem
    obtain ⟨task, _, hevent⟩ := bind_eq_ok_iff.1 hevent
    cases hevent
    rfl

/-- **A run that a tick adds comes from a timer.** -/
theorem poll_new_run {now : Option ℚ} (h : t.poll host env now = Except.ok t')
    (hk : t.runs.get? k = none) {run : Run} (hk' : t'.runs.get? k = some run) :
    run.event.source = "timer" := by
  obtain ⟨⟨events, r⟩, hp, h⟩ := bind_eq_ok_iff.1 h
  rcases queueAll_run h hk' with hold | ⟨event, hmem, hrun⟩
  · have hnone := noNewRuns_reconcile env t k hk
    change (t.reconcile env).runs.get? k = some run at hold
    rw [hnone] at hold
    cases hold
  · rw [hrun]
    exact source_of_pollDue (Registry.pollDueFloat_eq_ok_iff.1 hp).1 event hmem

end Tables

/-! ### Bindings -/

/-- The binding that a request asks for: its name, its task, its source, its topic and its field. -/
structure BindingRequest where
  name : PyStr
  taskId : ℤ
  source : PyStr
  topic : PyStr
  field : PyStr

/-- The request that a binding answers. -/
def EventBinding.request (b : EventBinding) : BindingRequest :=
  ⟨b.name, b.taskId, b.source, b.topic, b.field⟩

/-- What `register` asks for. -/
def BindingSpec.request (host : Host) (taskId : ℤ) (spec : BindingSpec) : BindingRequest where
  name := PyStr.strip (EventStore.eventName host taskId spec)
  taskId := taskId
  -- The source is brought into normal form twice.
  source := host.lower (PyStr.strip (host.lower (PyStr.strip spec.source)))
  topic := PyStr.strip spec.topic
  field := PyStr.strip spec.field

/-- The binding that an administrative request asks for: of a given task, or of the task that is
created with it. -/
def AdminOp.binds (host : Host) (tasks : TaskTable) : AdminOp → Option BindingRequest
  | AdminOp.register taskId _ spec => some (spec.request host taskId)
  | AdminOp.createExternalTask _ spec =>
      (TaskStore.firstFreeId tasks).map fun taskId => spec.request host taskId
  | _ => none

namespace EventStore

variable {host : Host}

/-- A registered binding is what was asked for. -/
theorem request_of_register {id : ℕ} {taskId : ℤ} {description : PyStr} {spec : BindingSpec}
    {bindings bindings' : BindingTable} {b : EventBinding}
    (h : register host id taskId description spec bindings = Except.ok (b, bindings')) :
    b.request = spec.request host taskId := by
  obtain ⟨b', hb, h⟩ := bind_eq_ok_iff.1 h
  obtain ⟨_, _, h⟩ := bind_eq_ok_iff.1 h
  cases h
  unfold validatedBinding at hb
  obtain ⟨_, _, hb⟩ := bind_eq_ok_iff.1 hb
  obtain ⟨_, _, hb⟩ := bind_eq_ok_iff.1 hb
  obtain ⟨_, _, hb⟩ := bind_eq_ok_iff.1 hb
  obtain ⟨_, _, hb⟩ := bind_eq_ok_iff.1 hb
  obtain ⟨_, _, hb⟩ := bind_eq_ok_iff.1 hb
  cases hb
  rfl

end EventStore

/-- A task that is created gets the first number that is free. -/
theorem TaskStore.firstFreeId_of_create {host : Host} {generation : PyStr} {spec : TaskSpec}
    {tasks tasks' : TaskTable} {record : TaskRecord}
    (h : create host generation spec tasks = Except.ok (record, tasks')) :
    firstFreeId tasks = some record.taskId := by
  obtain ⟨executor, _, h⟩ := bind_eq_ok_iff.1 h
  obtain ⟨⟨m, period⟩, _, h⟩ := bind_eq_ok_iff.1 h
  cases hid : firstFreeId tasks with
  | none =>
      simp only [hid] at h
      cases h
  | some k =>
      simp only [hid] at h
      cases h
      rfl

namespace Registry

variable {host : Host} {r r' : Registry} {k : PyStr} {o : BindingObject}

/-- Registering a binding adds at most that binding. -/
theorem get?_register {taskId : ℤ} {description : PyStr} {spec : BindingSpec} {b : EventBinding}
    (h : r.register host taskId description spec = Except.ok (b, r'))
    (hk : r'.bindings.get? k = some o) :
    r.bindings.get? k = some o ∨ o.binding.request = spec.request host taskId := by
  obtain ⟨⟨b', bindings⟩, hc, h⟩ := bind_eq_ok_iff.1 h
  cases h
  have hrequest := EventStore.request_of_register hc
  obtain ⟨_, _, rfl, _⟩ := EventStore.register_spec hc
  rw [Table.get?_put] at hk
  split_ifs at hk with heq
  · cases hk
    exact Or.inr hrequest
  · exact Or.inl hk

/-- **Where a binding comes from that an administrative request adds**: it is the one that the
request asks for. -/
theorem get?_bindings_of_apply {now : ℚ} {op : AdminOp} {reply : Reply}
    (h : op.apply host now r = Except.ok (reply, r')) (hk : r'.bindings.get? k = some o) :
    r.bindings.get? k = some o ∨ op.binds host r.tasks = some o.binding.request := by
  cases hop : op.bindingOp with
  | false =>
      rw [(AdminOp.keepsBindings h hop).bindings] at hk
      exact Or.inl hk
  | true =>
      cases op with
      | delete taskId =>
          cases h
          exact Or.inl (Table.get?_filter_eq_some.1 hk).1
      | unregisterTask taskId =>
          cases h
          exact Or.inl (Table.get?_filter_eq_some.1 hk).1
      | register taskId description spec =>
          obtain ⟨b, hr, _⟩ := registerForTask_of_apply h
          obtain ⟨_, _, hr⟩ := bind_eq_ok_iff.1 hr
          refine (get?_register hr hk).imp_right fun hrequest => ?_
          rw [AdminOp.binds, hrequest]
      | createExternalTask spec binding =>
          obtain ⟨task, h, _⟩ := Reply.ofTask_eq_ok h
          obtain ⟨⟨task', r₁⟩, hc, h⟩ := bind_eq_ok_iff.1 h
          obtain ⟨⟨b, r₂⟩, hb, h⟩ := bind_eq_ok_iff.1 h
          cases h
          obtain ⟨⟨task₀, tasks⟩, hcreate, hmade⟩ := bind_eq_ok_iff.1 hc
          cases hmade
          have hid := TaskStore.firstFreeId_of_create hcreate
          have hbindings := (keeps_create hc).bindings
          rcases get?_register hb hk with hold | hrequest
          · rw [hbindings] at hold
            exact Or.inl hold
          · refine Or.inr ?_
            rw [AdminOp.binds, hid, Option.map_some, hrequest]
      | _ => cases hop

end Registry

/-! ### Inputs of the engine -/

namespace TaskEngine

variable {host : Host} {s : TaskEngine} {k : PyStr}

/-- **Where a run comes from that an input adds.** -/
theorem respond_new_run (hs : (machine host).Reachable s) (i : Input)
    (hk : s.runs.get? k = none) {run : Run} (hk' : (s.respond host i).2.runs.get? k = some run) :
    run.event.source = "timer" ∨ run.event.source = "manual" ∨
      (∃ env name value peer, i = Input.call env (Op.externalEvent run.event.source name value)
        peer) ∨
      (∃ env event peer, i = Input.call env (Op.submitEvent event) peer ∧
        run.event.source = event.source) ∨
      ∃ env o o', i = Input.consumeMqtt env o run.event.task ∧
        (s.respond host i).1 = Except.ok (Reply.runId (some k)) ∧
        EventStore.resolve host o.binding.source o.binding.name s.registry.bindings = some o' ∧
        o'.id = o.id ∧ run.event.runId = k ∧ run.event.source = o.binding.source ∧
        run.event.name = o.binding.name ∧ run.event.taskId = some o'.binding.taskId := by
  rcases respond_effect host (rowHolds_of_reachable hs) (s.allowed_all i) with
    ⟨reply, hok, _⟩ | ⟨_, hrebuilt⟩
  · cases i with
    | call env op peer =>
        obtain ⟨t, hb, ht⟩ := transact_returned hok
        change (s.call host env op peer).2.runs.get? k = some run at hk'
        rw [call, ht] at hk'
        obtain ⟨rfl, ⟨taskId, rfl, hsource⟩ | ⟨source, name, value, o, rfl, _, _, rfl, _⟩ |
          ⟨event, rfl, hsource⟩⟩ := Tables.dispatch_new_run hb hk hk'
        · exact Or.inr (Or.inl hsource)
        · exact Or.inr (Or.inr (Or.inl ⟨env, name, value, peer, rfl⟩))
        · exact Or.inr (Or.inr (Or.inr (Or.inl ⟨env, event, peer, rfl, hsource⟩)))
    | tick env now =>
        obtain ⟨t, hb, ht⟩ := transact_returned hok
        change (s.tick host env now).2.runs.get? k = some run at hk'
        rw [tick, ht] at hk'
        cases hp : s.toTables.poll host env now with
        | error e =>
            rw [hp] at hb
            cases hb
        | ok t' =>
            rw [hp] at hb
            cases hb
            exact Or.inl (Tables.poll_new_run hp hk hk')
    | consumeMqtt env o value =>
        -- A result that is dropped leaves the engine as it was, and so adds no run.
        have hsame : (s.respond host (Input.consumeMqtt env o value)).2 = s →
            False := by
          intro heq
          rw [heq, hk] at hk'
          cases hk'
        cases hres : EventStore.resolve host o.binding.source o.binding.name
            s.registry.bindings with
        | none =>
            refine absurd ?_ hsame
            simp only [respond, consumeMqtt, hres]
        | some o' =>
            by_cases hid : o'.id = o.id
            -- An event that is taken is an external event of its own binding.
            · have hcall : s.respond host (Input.consumeMqtt env o value) = s.call host env
                  (Op.externalEvent o.binding.source o.binding.name (some value)) [] := by
                simp only [respond, consumeMqtt, hres, hid, ne_eq, not_true_eq_false, if_false]
              rw [hcall] at hok hk' ⊢
              obtain ⟨t, hb, ht⟩ := transact_returned hok
              rw [call, ht] at hk'
              obtain ⟨hreply, ⟨_, hop, _⟩ | ⟨source, name, value', o₁, hop, ho₁, hrun, hsource, hname,
                htask, htaskId⟩ | ⟨_, hop, _⟩⟩ := Tables.dispatch_new_run hb hk hk'
              · cases hop
              · cases hop
                rw [hres] at ho₁
                cases ho₁
                refine Or.inr (Or.inr (Or.inr (Or.inr ⟨env, o, o', ?_, ?_, hres, hid, hrun, hsource,
                  hname, htaskId⟩)))
                · rw [htask]
                  rfl
                · rw [hok, hreply]
              · cases hop
            · refine absurd ?_ hsame
              simp only [respond, consumeMqtt, hres, ne_eq, hid, not_false_eq_true, if_true]
    | reopen offset =>
        have hruns := (reopen_rebuilt (rowHolds_of_reachable hs) offset).runs
        change (s.reopen offset).runs.get? k = some run at hk'
        rw [← hruns, hk] at hk'
        cases hk'
  -- A call that raises restores the runs.
  · rw [← hrebuilt.runs, hk] at hk'
    cases hk'

/-- All requests are permitted but those that add or remove bindings. -/
def bindingsKept : Tables.Permits :=
  { Tables.Permits.all with admin := fun op => op.bindingOp = false }

theorem step_bindings {t t' : Tables} (h : Tables.Step host bindingsKept t t') :
    t'.registry.bindings = t.registry.bindings := by
  cases h with
  | registry _ r hr =>
      cases hr with
      | admin op now reply _ hop h => exact (AdminOp.keepsBindings h hop).bindings
      | pollDue current events _ h =>
          have hkeeps : Registry.KeepsBindings host t.registry r := Registry.keeps_pollDue h
          exact hkeeps.bindings
      | nextUuid => rfl
  | _ => rfl

/-- An input that is no request about bindings is permitted. -/
theorem allowed_bindingsKept {i : Input}
    (hi : ∀ env op peer, i = Input.call env (Op.admin op) peer → op.bindingOp = false) :
    s.Allowed bindingsKept i := by
  cases i with
  | call env op peer =>
      change bindingsKept.Ok env peer s.toTables op
      unfold Tables.Permits.Ok
      split
      · exact fun _ _ _ _ _ => trivial
      · exact trivial
      · exact fun _ => trivial
      · exact trivial
      · exact trivial
      · exact hi env _ peer rfl
      · exact rfl
      · exact trivial
  | _ => trivial

/-- **Where a binding comes from that an input adds**: it was there with the same content, or the
input is a request for it that returns. -/
theorem respond_new_binding (hs : (machine host).Reachable s) (i : Input) {o : BindingObject}
    (hk : (s.respond host i).2.registry.bindings.get? k = some o) :
    (∃ o₀, s.registry.bindings.get? k = some o₀ ∧ o₀.binding = o.binding) ∨
      ∃ env op peer reply, i = Input.call env (Op.admin op) peer ∧
        (s.respond host i).1 = Except.ok reply ∧
        op.binds host s.registry.tasks = some o.binding.request := by
  by_cases hi : ∀ env op peer, i = Input.call env (Op.admin op) peer → op.bindingOp = false
  · left
    rcases respond_effect host (rowHolds_of_reachable hs) (allowed_bindingsKept (s := s) hi) with
      ⟨_, _, hsteps⟩ | ⟨_, hrebuilt⟩
    · refine ⟨o, ?_, rfl⟩
      have hsame : ∀ t, Relation.ReflTransGen (Tables.Step host bindingsKept) s.toTables t →
          t.registry.bindings = s.registry.bindings := by
        intro t ht
        induction ht with
        | refl => rfl
        | tail _ hstep ih => rw [step_bindings hstep, ih]
      rw [← hsame _ hsteps]
      exact hk
    · have hsame := hrebuilt.bindings k
      rw [hk] at hsame
      obtain ⟨o₀, ho₀, hbinding⟩ := Option.map_eq_some_iff.1 hsame
      exact ⟨o₀, ho₀, hbinding⟩
  · simp only [not_forall] at hi
    obtain ⟨env, op, peer, rfl, _⟩ := hi
    rcases respond_effect host (rowHolds_of_reachable hs)
        (s.allowed_all (Input.call env (Op.admin op) peer)) with ⟨reply, hok, _⟩ | ⟨_, hrebuilt⟩
    · obtain ⟨t, hb, ht⟩ := transact_returned hok
      obtain ⟨⟨reply', r⟩, ha, hb⟩ := bind_eq_ok_iff.1 hb
      cases hb
      change (s.call host env (Op.admin op) peer).2.registry.bindings.get? k = some o at hk
      rw [call, ht] at hk
      rcases Registry.get?_bindings_of_apply ha hk with hold | hnew
      · exact Or.inl ⟨o, hold, rfl⟩
      · exact Or.inr ⟨env, op, peer, reply, rfl, hok, hnew⟩
    · have hsame := hrebuilt.bindings k
      rw [hk] at hsame
      obtain ⟨o₀, ho₀, hbinding⟩ := Option.map_eq_some_iff.1 hsame
      exact Or.inl ⟨o₀, ho₀, hbinding⟩

end TaskEngine
