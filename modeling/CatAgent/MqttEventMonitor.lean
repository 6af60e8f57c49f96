/-
**The MQTT event monitor.**

The monitor reads the lines of `mosquitto_sub` on a thread of its own.  It remembers the last
payload of every topic, takes a snapshot of the bindings for every line, and hands each binding
whose field has changed to `consume_mqtt`, together with the new value.  Between the snapshot and
`consume_mqtt` the engine may answer any number of other requests.

`consume_mqtt` asks whether the store still holds the object that the monitor was given.  A request
that raises is rolled back by building all bindings anew; it changes no binding, but it replaces
every object.  So an event that the monitor has already seen is dropped if any request at all fails
before it is consumed.

Main definitions:

* `MqttEventMonitor`, `MqttEventMonitor.consumeLine` — the monitor, and the changes it emits for a
  line, unless `json.loads` fails in a way that nobody catches;
* `Input.Touches` — an input registers or unregisters a binding;
* `TaskEngine.QueuesEvent` — `consume_mqtt` queues a run for an event.

Main results:

* `TaskEngine.get?_of_untouched` — a binding that is not touched keeps its object, as long as
  nothing raises;
* `TaskEngine.replaced_of_raised` — **whatever raises replaces every object**;
* `TaskEngine.queuesEvent_iff` — **an event is queued exactly when nothing has raised since the
  snapshot**;
* `TaskEngine.not_queuesEvent` — a request for an unknown task makes an event disappear.
-/

import CatAgent.Grants

set_option relaxedAutoImplicit false
set_option autoImplicit false

/-! ### The monitor -/

/-- What `MqttEventMonitor._consume_line` reads and writes. -/
structure MqttEventMonitor where
  /-- `_active_states`, by topic and field. -/
  activeStates : PyStr → PyStr → Option PyStr
  /-- `_last_payloads`. -/
  lastPayloads : PyDict PyStr (List (PyStr × Json))

namespace MqttEventMonitor

/-- `MqttEventMonitor._canonical_value`. -/
def canonicalValue (host : Host) (value : Json) (valueType : PyStr) : Option PyStr :=
  if valueType = PyStr.ofString "boolean" then
    match value with
    | Json.bool true => some "true"
    | Json.bool false => some "false"
    | _ => none
  else
    match value with
    | Json.str s => some s
    | Json.null => some "null"
    | Json.bool true => some "true"
    | Json.bool false => some "false"
    | Json.int n => some (PyStr.ofString (toString n))
    | Json.num q => some (host.strFloat q)
    | _ => none

/-- What `json.loads` raises: a `JSONDecodeError`, or any other error, such as the `ValueError` of
an integer with too many digits, or a `RecursionError`. -/
inductive LoadsError where
  | jsonDecodeError
  | other
deriving DecidableEq

/-- A stripped line is a topic, a blank and a payload that `json.loads` reads as an object.  Only
`JSONDecodeError` is caught. -/
def parseLine (loads : PyStr → Except LoadsError Json) (raw : PyStr) :
    Except LoadsError (Option (PyStr × List (PyStr × Json))) :=
  let isBlank (c : CodePoint) : Bool := decide (c = PyStr.ofChar ' ')
  let line := PyStr.strip raw
  let topic := line.takeWhile fun c => ! isBlank c
  let payloadText := (line.dropWhile fun c => ! isBlank c).tail
  if topic = [] ∨ payloadText = [] then Except.ok none
  else match loads payloadText with
    | Except.ok (Json.obj payload) => Except.ok (some (topic, payload))
    | Except.ok _ => Except.ok none
    | Except.error LoadsError.jsonDecodeError => Except.ok none
    | Except.error LoadsError.other => Except.error LoadsError.other

/-- The body of the loop of `_consume_line`: the value that is emitted for a binding.  A field that
the last payload did not have is emitted only if its value is the active one. -/
def emitted (host : Host) (monitor : MqttEventMonitor) (topic : PyStr)
    (payload : List (PyStr × Json)) (b : EventBinding) : Option PyStr :=
  if b.source ≠ PyStr.ofString "mqtt" ∨ b.topic ≠ topic then none
  else do
    let value ← Json.find b.field payload
    let current ← canonicalValue host value b.valueType
    match (monitor.lastPayloads.get? topic).bind (Json.find b.field) with
    | none => if monitor.activeStates b.topic b.field = some current then some current else none
    | some last =>
        let previous ← canonicalValue host last b.valueType
        if previous = current then none else some current

/-- `MqttEventMonitor._consume_line`: the monitor afterwards, and what it passes to `_emit`. -/
def consumeLine (host : Host) (loads : PyStr → Except LoadsError Json) (bindings : BindingTable)
    (raw : PyStr) (monitor : MqttEventMonitor) :
    Except LoadsError (MqttEventMonitor × List (BindingObject × PyStr)) := do
  match ← parseLine loads raw with
  | none => Except.ok (monitor, [])
  | some (topic, payload) =>
      Except.ok ({ monitor with lastPayloads := monitor.lastPayloads.set topic payload },
        (EventStore.snapshot bindings).filterMap fun o =>
          (monitor.emitted host topic payload o.binding).map fun current => (o, current))

/-- Only bindings of the store whose source is `mqtt` are emitted. -/
theorem of_mem_consumeLine {host : Host} {loads : PyStr → Except LoadsError Json}
    {bindings : BindingTable} {raw value : PyStr} {monitor monitor' : MqttEventMonitor}
    {events : List (BindingObject × PyStr)} {o : BindingObject}
    (h : monitor.consumeLine host loads bindings raw = Except.ok (monitor', events))
    (ho : (o, value) ∈ events) :
    bindings.get? o.binding.name = some o ∧ o.binding.source = PyStr.ofString "mqtt" := by
  obtain ⟨_ | ⟨topic, payload⟩, _, h⟩ := bind_eq_ok_iff.1 h
  · cases h
    cases ho
  · cases h
    obtain ⟨o', ho', hemit⟩ := List.mem_filterMap.1 ho
    obtain ⟨current, hcurrent, heq⟩ := Option.map_eq_some_iff.1 hemit
    cases heq
    refine ⟨Table.mem_values_iff.1 (Table.mem_sorted_iff.1 ho'), ?_⟩
    by_contra hsource
    rw [emitted, if_pos (Or.inl hsource)] at hcurrent
    cases hcurrent

end MqttEventMonitor

/-! ### Requests that touch a binding -/

/-- A request that was answered with `reply` has registered or unregistered the binding `b`. -/
def AdminOp.Touches (host : Host) (b : EventBinding) (reply : Reply) : AdminOp → Prop
  | delete taskId | unregisterTask taskId => taskId = b.taskId
  | register _ _ _ => ∃ b', reply = Reply.binding (some b') ∧ b'.name = b.name
  | createExternalTask _ spec => ∃ task, reply = Reply.task (some task) ∧
      PyStr.strip (EventStore.eventName host task.taskId spec) = b.name
  | _ => False

/-- An input registers or unregisters the binding `b`, or it is a restart, which also ends the
monitor. -/
def Input.Touches (host : Host) (b : EventBinding) (s : TaskEngine) : Input → Prop
  | Input.call env (Op.admin op) peer =>
      ∃ reply, (s.call host env (Op.admin op) peer).1 = Except.ok reply ∧ op.Touches host b reply
  | Input.reopen _ => True
  | _ => False

/-- A request that does not touch a binding leaves its object in the store. -/
theorem AdminOp.get?_of_untouched {host : Host} {now : ℚ} {r r' : Registry} {op : AdminOp}
    {reply : Reply} {o : BindingObject} (h : op.apply host now r = Except.ok (reply, r'))
    (hop : ¬ op.Touches host o.binding reply) (ho : r.bindings.get? o.binding.name = some o) :
    r'.bindings.get? o.binding.name = some o := by
  cases hb : op.bindingOp with
  | false =>
      rw [(AdminOp.keepsBindings h hb).bindings]
      exact ho
  | true =>
      cases op with
      | delete taskId | unregisterTask taskId =>
          cases h
          exact Table.get?_filter_eq_some.2 ⟨ho, decide_eq_true fun heq => hop heq.symm⟩
      | register taskId description spec =>
          obtain ⟨b, hr, rfl⟩ := registerForTask_of_apply h
          obtain ⟨_, _, hr⟩ := bind_eq_ok_iff.1 hr
          obtain ⟨rfl, _, _⟩ := Registry.register_spec hr
          have hne : b.name ≠ o.binding.name := fun heq => hop ⟨b, rfl, heq⟩
          exact (EventStore.get?_put_of_ne _ _ hne).trans ho
      | createExternalTask taskSpec spec =>
          obtain ⟨task, hc, rfl⟩ := Reply.ofTask_eq_ok h
          obtain ⟨⟨task', r₁⟩, hcreate, hc⟩ := bind_eq_ok_iff.1 hc
          obtain ⟨⟨b, r₂⟩, hr, hc⟩ := bind_eq_ok_iff.1 hc
          cases hc
          obtain ⟨rfl, _, hname⟩ := Registry.register_spec hr
          have hne : b.name ≠ o.binding.name := fun heq => hop ⟨_, rfl, hname.symm.trans heq⟩
          refine (EventStore.get?_put_of_ne _ _ hne).trans ?_
          rw [(Registry.keeps_create hcreate).bindings]
          exact ho
      | _ => cases hb

namespace Tables

variable {host : Host} {t t' : Tables} {env : Env}

theorem queue_bindings {event : SystemEvent} {identifier : Option PyStr}
    (h : t.queue host event = Except.ok (identifier, t')) :
    t'.registry.bindings = t.registry.bindings := by
  obtain ⟨_, _, h⟩ := bind_eq_ok_iff.1 h
  cases h
  rfl

theorem worker_bindings {owner peer : PyStr} {op : WorkerOp} {reply : Reply}
    (h : t.worker host env owner peer op = Except.ok (reply, t')) :
    t'.registry.bindings = t.registry.bindings := by
  obtain ⟨_, _, h⟩ := bind_eq_ok_iff.1 h
  cases op with
  | heartbeat executor ready reason =>
      simp only [heartbeat] at h
      split at h
      · cases h
      · cases h
        rfl
  | offline | valid =>
      cases h
      rfl
  | publishResult runId offerId result =>
      obtain ⟨_, _, h⟩ := bind_eq_ok_iff.1 h
      cases h
      rfl
  | pull executor seen skipRunIds =>
      simp only [pull] at h
      split at h
      · cases h
      · split at h
        · cases h
          rfl
        · split at h
          · cases h
            rfl
          · cases h
            rfl
  | begin runId offerId =>
      cases h
      simp only [begin]
      split
      · rfl
      · split_ifs <;> rfl
  | finish runId offerId outcome statusCode =>
      obtain ⟨⟨b, t₁⟩, hf, h⟩ := bind_eq_ok_iff.1 h
      cases h
      simp only [finish] at hf
      split at hf
      · cases hf
        rfl
      · split_ifs at hf
        · cases hf
          rfl
        all_goals
          obtain ⟨_, _, hf⟩ := bind_eq_ok_iff.1 hf
          cases hf
          rfl

/-- Only administrative requests change the bindings. -/
theorem dispatch_bindings {peer : PyStr} {op : Op} {reply : Reply}
    (h : t.dispatch host env peer op = Except.ok (reply, t')) (hop : ∀ o, op ≠ Op.admin o) :
    t'.registry.bindings = t.registry.bindings := by
  cases op with
  | admin op => exact absurd rfl (hop op)
  | pauseTask taskId =>
      obtain ⟨⟨task, r⟩, ha, h⟩ := bind_eq_ok_iff.1 h
      cases h
      exact (Registry.keeps_stopTask ha).bindings
  | statusText | ping | cores | runs =>
      cases h
      rfl
  | runTask taskId =>
      obtain ⟨task, _, h⟩ := bind_eq_ok_iff.1 h
      obtain ⟨identifier, hq, _⟩ := ofRunId_eq_ok h
      exact queue_bindings hq
  | externalEvent source name value =>
      obtain ⟨identifier, hq, _⟩ := ofRunId_eq_ok h
      simp only [externalEvent] at hq
      split at hq
      · cases hq
        rfl
      · split at hq
        · cases hq
          rfl
        · exact queue_bindings hq
  | submitEvent event =>
      obtain ⟨identifier, hq, _⟩ := ofRunId_eq_ok h
      exact queue_bindings hq
  | notificationsList | notificationsAck =>
      obtain ⟨_, _, h⟩ := bind_eq_ok_iff.1 h
      cases h
      rfl
  | worker owner op => exact worker_bindings h
  | malformed e => cases h

theorem queueAll_bindings {events : List SystemEvent}
    (h : queueAll host events t = Except.ok t') :
    t'.registry.bindings = t.registry.bindings := by
  induction events generalizing t with
  | nil =>
      cases h
      rfl
  | cons event events ih =>
      obtain ⟨⟨identifier, t₁⟩, hq, h⟩ := bind_eq_ok_iff.1 h
      exact (ih h).trans (queue_bindings hq)

theorem poll_bindings {now : Option ℚ} (h : t.poll host env now = Except.ok t') :
    t'.registry.bindings = t.registry.bindings := by
  unfold poll at h
  obtain ⟨⟨events, r⟩, hp, h⟩ := bind_eq_ok_iff.1 h
  have hkeeps : Registry.KeepsBindings host t.registry r :=
    Registry.keeps_pollDue (Registry.pollDueFloat_eq_ok_iff.1 hp).1
  exact (queueAll_bindings h).trans hkeeps.bindings

end Tables

namespace TaskEngine

open Tables (Step Permits Rebuilt)
open Relation (ReflTransGen)
open MqttEventMonitor (LoadsError parseLine)

variable {host : Host} {s : TaskEngine}

/-! ### The objects of the store -/

/-- **An input that returns and does not touch a binding leaves its object in the store.** -/
theorem get?_of_untouched {i : Input} {reply : Reply} {o : BindingObject}
    (hreply : (s.respond host i).1 = Except.ok reply) (hi : ¬ i.Touches host o.binding s)
    (ho : s.registry.bindings.get? o.binding.name = some o) :
    (s.respond host i).2.registry.bindings.get? o.binding.name = some o := by
  cases i with
  | call env op peer =>
      obtain ⟨t, hb, ht⟩ := transact_returned hreply
      change Table.get? (s.transact env _).2.toTables.registry.bindings _ = _
      rw [ht]
      by_cases hop : ∃ op', op = Op.admin op'
      · obtain ⟨op', rfl⟩ := hop
        obtain ⟨⟨reply', r⟩, ha, hb⟩ := bind_eq_ok_iff.1 hb
        cases hb
        exact AdminOp.get?_of_untouched ha (fun hop => hi ⟨_, hreply, hop⟩) ho
      · rw [Tables.dispatch_bindings hb fun op' heq => hop ⟨op', heq⟩]
        exact ho
  | tick env now =>
      obtain ⟨t, hb, ht⟩ := transact_returned hreply
      change Table.get? (s.transact env _).2.toTables.registry.bindings _ = _
      rw [ht]
      cases hp : s.toTables.poll host env now with
      | error e =>
          rw [hp] at hb
          cases hb
      | ok t' =>
          rw [hp] at hb
          cases hb
          rw [Tables.poll_bindings hp]
          exact ho
  | consumeMqtt env o' value =>
      simp only [respond, consumeMqtt] at hreply ⊢
      split
      · exact ho
      · rename_i o'' hresolve
        simp only [hresolve] at hreply
        split_ifs with hid
        · exact ho
        · rw [if_neg hid] at hreply
          obtain ⟨t, hb, ht⟩ := transact_returned hreply
          change Table.get? (s.transact env _).2.toTables.registry.bindings _ = _
          rw [ht, Tables.dispatch_bindings hb fun _ => (by simp)]
          exact ho
  | reopen offset => exact absurd trivial hi

/-- Every object of the store has been built at the count `n` or later. -/
def BuiltSince (n : ℕ) (s : TaskEngine) : Prop :=
  n ≤ s.registry.objects ∧ ∀ k o, s.registry.bindings.get? k = some o → n ≤ o.id

theorem BuiltSince.respond {n : ℕ} (h : s.BuiltSince n) (hrow : s.RowHolds) (i : Input) :
    (s.respond host i).2.BuiltSince n := by
  rcases respond_effect host hrow (s.allowed_all i) with ⟨_, _, hsteps⟩ | ⟨_, hr⟩
  · have hf := steps_follows hsteps
    refine ⟨h.1.trans hf.objects_le, fun k o ho => ?_⟩
    rcases hf.bindings k o ho with ho | ⟨hid, _, _⟩
    · exact h.2 k o ho
    · exact h.1.trans hid
  · exact ⟨h.1.trans hr.objects_le, fun k o ho => h.1.trans (hr.fresh k o ho).1⟩

/-- **Whatever raises replaces every object.** -/
theorem replaced_of_raised {i : Input} {e : PyError} (hrow : s.RowHolds)
    (h : (s.respond host i).1 = Except.error e) :
    (s.respond host i).2.BuiltSince s.registry.objects := by
  rcases respond_effect host hrow (s.allowed_all i) with ⟨reply, hreply, _⟩ | ⟨_, hr⟩
  · rw [h] at hreply
    cases hreply
  · exact ⟨hr.objects_le, fun k o ho => (hr.fresh k o ho).1⟩

/-- Every object of the store has been built, and its binding is in normal form. -/
def StoreOk (host : Host) (t : Tables) : Prop :=
  ∀ k o, t.registry.bindings.get? k = some o → o.id < t.registry.objects ∧ o.binding.Normal host

theorem storeOk_of_reachable (hs : (machine host).Reachable s) : StoreOk host s.toTables := by
  refine tables_invariant (P := Permits.all) (I := StoreOk host)
    (hs.mono fun s i _ => s.allowed_all i) ?_ ?_ ?_
  · intro now tasks bindings uuids himp k o ho
    have hmem := Table.mem_of_get?_ofList ho
    have hid := Tables.id_of_mem_buildObjects hmem
    have hb : o.binding ∈ (Tables.buildObjects 0 bindings).map BindingObject.binding :=
      List.mem_map_of_mem hmem
    rw [Tables.map_binding_buildObjects] at hb
    refine ⟨?_, himp.normal _ hb⟩
    have hlt := hid.2
    rw [Nat.zero_add] at hlt
    exact hlt
  · intro t t' h hstep k o ho
    have hf := Tables.step_follows hstep
    rcases hf.bindings k o ho with ho | ⟨_, hlt, hn⟩
    · exact ⟨(h k o ho).1.trans_le hf.objects_le, (h k o ho).2⟩
    · exact ⟨hlt, hn⟩
  · intro t t' h hr k o ho
    have heq := hr.bindings k
    rw [ho, Option.map_some] at heq
    obtain ⟨o', ho', hb⟩ := Option.map_eq_some_iff.1 heq
    exact ⟨(hr.fresh k o ho).2, hb ▸ (h k o' ho').2⟩

/-! ### Between the snapshot and `consume_mqtt` -/

/-- An input that does not raise. -/
def Returns (host : Host) (s : TaskEngine) (i : Input) : Prop :=
  ∃ reply, (s.respond host i).1 = Except.ok reply

/-- `consume_mqtt` queues a new run for the event. -/
def QueuesEvent (host : Host) (env : Env) (o : BindingObject) (value : PyStr) (s : TaskEngine) :
    Prop :=
  ∃ runId run, (s.consumeMqtt host env o value).1 = Except.ok (Reply.runId (some runId)) ∧
    s.runs.get? runId = none ∧ (s.consumeMqtt host env o value).2.runs.get? runId = some run ∧
    run.state = RunState.pending ∧ run.event.taskId = some o.binding.taskId ∧
    run.event.name = o.binding.name ∧ run.event.task = value

/-- **An event is queued while the store holds the object that the monitor was given.** -/
theorem queuesEvent_of_get? {env : Env} {o : BindingObject} {value : PyStr} {task : TaskRecord}
    (hs : (machine host).Reachable s)
    (ho : s.registry.bindings.get? o.binding.name = some o)
    (hsource : o.binding.source = PyStr.ofString "mqtt")
    (htask : s.registry.tasks.get? o.binding.taskId = some task) (henabled : task.enabled = true)
    (hfull : s.runs.pendingCount < RunTable.maxPending) (hsave : env.writable = true) :
    s.QueuesEvent host env o value := by
  have hresolve : EventStore.resolve host o.binding.source o.binding.name s.registry.bindings =
      some o := EventStore.resolve_of_get? (storeOk_of_reachable hs _ _ ho).2 ho
  have hid : task.taskId = o.binding.taskId := Table.key_of_get? (t := s.registry.tasks) htask
  let runId := host.uuid4 s.registry.uuids
  let event : SystemEvent :=
    { source := o.binding.source, name := o.binding.name, task := value
      createdMonotonic := env.monotonic, taskId := some task.taskId
      taskGeneration := task.generation }
  -- The task is enabled and its generation is read in the same call, so the event is current.
  have hqueue : s.toTables.queue host event = Except.ok (some runId,
      { s.toTables with
        runs := s.runs.put (RunTable.newRun runId event task)
        registry := { s.registry with uuids := s.registry.uuids + 1 } }) := by
    have hmqtt : ¬ (event.source = PyStr.ofString "timer" ∧ s.runs.live task = true) := by
      rintro ⟨htimer, _⟩
      rw [show event.source = o.binding.source from rfl, hsource] at htimer
      exact absurd htimer (by decide)
    have hcurrent : ¬ (¬ task.enabled = true ∨ task.generation ≠ event.taskGeneration) := by
      simp [henabled, event]
    have hget : s.registry.tasks.get? task.taskId = some task := by
      rw [hid]
      exact htask
    simp only [Tables.queue, RunTable.queue, event, hget]
    rw [if_neg hcurrent, if_neg hmqtt, if_neg (not_le.2 hfull)]
    rfl
  have hbody : s.toTables.dispatch host env []
      (Op.externalEvent o.binding.source o.binding.name (some value)) =
      Except.ok (Reply.runId (some runId),
        { s.toTables with
          runs := s.runs.put (RunTable.newRun runId event task)
          registry := { s.registry with uuids := s.registry.uuids + 1 } }) := by
    simp only [Tables.dispatch, Tables.externalEvent, hresolve, htask, Option.getD_some]
    rw [hqueue]
    rfl
  let body (t : Tables) :=
    t.dispatch host env [] (Op.externalEvent o.binding.source o.binding.name (some value))
  obtain ⟨hreply, ht⟩ := transact_of_ok body hbody hsave
  have hconsume : s.consumeMqtt host env o value = s.transact env body := by
    simp only [consumeMqtt, hresolve, ne_eq, not_true_eq_false, if_false]
    rfl
  refine ⟨runId, RunTable.newRun runId event task, ?_, ?_, ?_, rfl, ?_, rfl, rfl⟩
  · rw [hconsume]
    exact hreply
  · cases hget : s.runs.get? runId with
    | none => rfl
    | some run =>
        obtain ⟨n, hn, heq⟩ := allocated_of_reachable hs _ _ hget
        have := host.uuid4_injective heq
        omega
  · rw [hconsume, ht]
    exact Table.get?_put_self _ _
  · exact congrArg some hid

/-- **An event is dropped once its object has been replaced.** -/
theorem not_queuesEvent_of_builtSince {env : Env} {o : BindingObject} {value : PyStr} {n : ℕ}
    (h : s.BuiltSince n) (hid : o.id < n) : ¬ s.QueuesEvent host env o value := by
  rintro ⟨runId, run, hreply, _⟩
  unfold consumeMqtt at hreply
  split at hreply
  · cases hreply
  · rename_i o' hresolve
    have hle := h.2 _ _ (EventStore.get?_of_resolve hresolve).1
    rw [if_pos (by omega)] at hreply
    cases hreply

/-- Along a run that does not touch a binding and never raises, the store keeps its object. -/
theorem get?_of_returns {o : BindingObject} {l : List Input}
    (hkept : (machine host).Guarded (fun s i => ¬ i.Touches host o.binding s) s l)
    (hret : (machine host).Guarded (Returns host) s l)
    (ho : s.registry.bindings.get? o.binding.name = some o) :
    ((machine host).exec s l).registry.bindings.get? o.binding.name = some o := by
  induction l generalizing s with
  | nil => exact ho
  | cons i l ih =>
      obtain ⟨⟨reply, hreply⟩, hret⟩ := hret
      exact ih hkept.2 hret (get?_of_untouched hreply hkept.1 ho)

/-- An object that has been replaced never comes back. -/
theorem BuiltSince.exec {n : ℕ} (h : s.BuiltSince n) (hs : (machine host).Reachable s)
    (l : List Input) : ((machine host).exec s l).BuiltSince n := by
  induction l generalizing s with
  | nil => exact h
  | cons i l ih => exact ih (h.respond (rowHolds_of_reachable hs) i) (hs.step i)

/-- Along a run that does not touch a binding but raises somewhere, its object is replaced. -/
theorem replaced_of_not_returns {o : BindingObject} {l : List Input}
    (hs : (machine host).Reachable s)
    (hkept : (machine host).Guarded (fun s i => ¬ i.Touches host o.binding s) s l)
    (hret : ¬ (machine host).Guarded (Returns host) s l)
    (ho : s.registry.bindings.get? o.binding.name = some o) :
    ∃ n, o.id < n ∧ ((machine host).exec s l).BuiltSince n := by
  induction l generalizing s with
  | nil => exact absurd trivial hret
  | cons i l ih =>
      cases hreply : (s.respond host i).1 with
      | error e =>
          have hnew := replaced_of_raised (rowHolds_of_reachable hs) hreply
          exact ⟨s.registry.objects, (storeOk_of_reachable hs _ _ ho).1,
            hnew.exec (hs.step i) l⟩
      | ok reply =>
          have ho' := get?_of_untouched hreply hkept.1 ho
          have hret' : ¬ (machine host).Guarded (Returns host) ((machine host).step s i) l :=
            fun h => hret ⟨⟨reply, hreply⟩, h⟩
          exact ih (hs.step i) hkept.2 hret' ho'

/-- **An event is queued exactly when nothing has raised since the snapshot.**  The monitor takes
its snapshot in the state `s`; the inputs `l` happen before `consume_mqtt` and touch the binding in
no way; the task is enabled then, the queue is not full, and the row can be saved. -/
theorem queuesEvent_iff {loads : PyStr → Except LoadsError Json}
    {monitor monitor' : MqttEventMonitor} {events : List (BindingObject × PyStr)}
    {raw value : PyStr} {o : BindingObject} {l : List Input} {env : Env} {task : TaskRecord}
    (hs : (machine host).Reachable s)
    (hline : monitor.consumeLine host loads s.registry.bindings raw =
      Except.ok (monitor', events))
    (hemit : (o, value) ∈ events)
    (hkept : (machine host).Guarded (fun s i => ¬ i.Touches host o.binding s) s l)
    (htask : ((machine host).exec s l).registry.tasks.get? o.binding.taskId = some task)
    (henabled : task.enabled = true)
    (hfull : ((machine host).exec s l).runs.pendingCount < RunTable.maxPending)
    (hsave : env.writable = true) :
    ((machine host).exec s l).QueuesEvent host env o value ↔
      (machine host).Guarded (Returns host) s l := by
  obtain ⟨ho, hsource⟩ := MqttEventMonitor.of_mem_consumeLine hline hemit
  constructor
  · intro hqueues
    by_contra hret
    obtain ⟨n, hid, hnew⟩ := replaced_of_not_returns hs hkept hret ho
    exact not_queuesEvent_of_builtSince hnew hid hqueues
  · intro hret
    have ho' := get?_of_returns hkept hret ho
    exact queuesEvent_of_get? (hs.exec l) ho' hsource htask henabled hfull hsave

/-- A service that looks when the door opens. -/
def doorWatch : TaskEngine :=
  after Host.ascii [Input.call Env.quiet (Op.admin (AdminOp.createExternalTask
    { description := "door", text := "look", executor := "litert" }
    { source := "mqtt", topic := "door", field := "open", valueType := "boolean"
      values := ["true", "false"], command := "look" })) []]

/-- The object that holds the binding of the door. -/
def doorBinding : BindingObject where
  id := 0
  binding :=
    { name := "task_mqtt1", source := "mqtt", taskId := 1, description := "door", topic := "door"
      field := "open", valueType := "boolean", values := ["true", "false"], command := "look" }

/-- A monitor that has seen no payload and reports a door that is found open. -/
def doorMonitor : MqttEventMonitor where
  activeStates := fun topic field =>
    if topic = PyStr.ofString "door" ∧ field = PyStr.ofString "open" then some "true" else none
  lastPayloads := PyDict.empty

/-- The line that the broker sends when the door opens. -/
def doorLine : PyStr := "door \x7b\"open\": true\x7d\n"

/-- `json.loads` on the payload of that line. -/
def doorLoads (text : PyStr) : Except LoadsError Json :=
  if text = PyStr.ofString "\x7b\"open\": true\x7d" then
    Except.ok (Json.obj [("open", Json.bool true)])
  else Except.error LoadsError.jsonDecodeError

theorem doorWatch_reachable : (machine Host.ascii).Reachable doorWatch :=
  reachable_after Host.ascii _

theorem doorMonitor_emits : ∃ monitor, doorMonitor.consumeLine Host.ascii doorLoads
    doorWatch.registry.bindings doorLine =
      Except.ok (monitor, [(doorBinding, PyStr.ofString "true")]) := by
  let payload : List (PyStr × Json) := [("open", Json.bool true)]
  have hline : parseLine doorLoads doorLine =
      Except.ok (some (PyStr.ofString "door", payload)) := by decide +kernel
  have hevents : ((EventStore.snapshot doorWatch.registry.bindings).filterMap fun o =>
      (doorMonitor.emitted Host.ascii "door" payload o.binding).map fun current => (o, current)) =
        [(doorBinding, PyStr.ofString "true")] := by
    decide +kernel
  rw [MqttEventMonitor.consumeLine, hline]
  exact ⟨_, congrArg (fun events => Except.ok (_, events)) hevents⟩

/-- The door opens while another request is answered, and the event is queued. -/
theorem queuesEvent_door :
    ((machine Host.ascii).exec doorWatch [Input.call Env.quiet Op.ping []]).QueuesEvent
      Host.ascii Env.quiet doorBinding "true" := by
  have hany : (((machine Host.ascii).exec doorWatch
      [Input.call Env.quiet Op.ping []]).registry.tasks.get? 1).any
        (fun task => task.enabled) = true := by decide +kernel
  obtain ⟨task, htask, henabled⟩ := (Option.any_eq_true _ _).1 hany
  have hfull : ((machine Host.ascii).exec doorWatch
      [Input.call Env.quiet Op.ping []]).runs.pendingCount < RunTable.maxPending := by
    decide +kernel
  have hret : (machine Host.ascii).Guarded (Returns Host.ascii) doorWatch
      [Input.call Env.quiet Op.ping []] :=
    ⟨⟨Reply.text "TASK_SYSTEM_READY", by decide +kernel⟩, trivial⟩
  have hkept : (machine Host.ascii).Guarded
      (fun s i => ¬ i.Touches Host.ascii doorBinding.binding s) doorWatch
      [Input.call Env.quiet Op.ping []] := ⟨id, trivial⟩
  obtain ⟨_, hline⟩ := doorMonitor_emits
  exact (queuesEvent_iff doorWatch_reachable hline List.mem_cons_self hkept htask henabled hfull
    rfl).2 hret

/-- **A request for an unknown task makes an event disappear**: the door opens, somebody asks for a
task that does not exist, and the event of the door is dropped. -/
theorem not_queuesEvent :
    ¬ ∀ (s : TaskEngine) (loads : PyStr → Except LoadsError Json)
        (monitor monitor' : MqttEventMonitor) (events : List (BindingObject × PyStr))
        (raw value : PyStr) (o : BindingObject) (l : List Input) (env : Env) (task : TaskRecord),
      (machine Host.ascii).Reachable s →
      monitor.consumeLine Host.ascii loads s.registry.bindings raw =
        Except.ok (monitor', events) →
      (o, value) ∈ events →
      (machine Host.ascii).Guarded (fun s i => ¬ i.Touches Host.ascii o.binding s) s l →
      ((machine Host.ascii).exec s l).registry.tasks.get? o.binding.taskId = some task →
      task.enabled = true →
      ((machine Host.ascii).exec s l).runs.pendingCount < RunTable.maxPending →
      env.writable = true →
      ((machine Host.ascii).exec s l).QueuesEvent Host.ascii env o value := by
  intro h
  let inputs : List Input := [Input.call Env.quiet (Op.runTask 99) []]
  have hany : (((machine Host.ascii).exec doorWatch inputs).registry.tasks.get? 1).any
      (fun task => task.enabled) = true := by decide +kernel
  obtain ⟨task, htask, henabled⟩ := (Option.any_eq_true _ _).1 hany
  have hfull : ((machine Host.ascii).exec doorWatch inputs).runs.pendingCount <
      RunTable.maxPending := by decide +kernel
  have hreply : (((machine Host.ascii).exec doorWatch inputs).consumeMqtt Host.ascii Env.quiet
      doorBinding "true").1 = Except.ok Reply.none := by decide +kernel
  obtain ⟨_, hline⟩ := doorMonitor_emits
  obtain ⟨runId, run, hqueued, _⟩ := h doorWatch doorLoads doorMonitor _ _ doorLine "true"
    doorBinding inputs Env.quiet task doorWatch_reachable hline List.mem_cons_self ⟨id, trivial⟩
    htask henabled hfull rfl
  rw [hreply] at hqueued
  cases hqueued

end TaskEngine
