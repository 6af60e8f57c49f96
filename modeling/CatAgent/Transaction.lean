/-
**Requests are transactions.**

Every request changes the tables in memory first.  Around it, `call` and `tick` take a snapshot,
save the row if the tables have changed, and restore the snapshot if anything raised, the save
included.  There is no undo for the single operations: the snapshot has to cover everything that
an operation can change.

The engine is a machine whose inputs are the requests, the ticks of the service loop, the changes
that the MQTT monitor reports, and restarts of the process.

Main definitions:

* `TaskEngine` — the tables, the row, and the offset between wall clock and monotonic clock, which
  is fixed while the process lives;
* `TaskEngine.transact`, `TaskEngine.call`, `TaskEngine.tick`, `TaskEngine.consumeMqtt`,
  `TaskEngine.reopen` — the operations of the engine;
* `Input`, `TaskEngine.respond`, `TaskEngine.machine` — the machine;
* `TaskEngine.RowHolds` — the row is a snapshot of the tables.

Main results:

* `TaskEngine.agree_of_raised` — **what raises changes nothing**;
* `TaskEngine.rowHolds_of_reachable` — **the row always holds the tables**;
* `TaskEngine.transactions` — the two together, and that restoring loses nothing.
-/

import CatAgent.Snapshot
import CatAgent.Machine

set_option relaxedAutoImplicit false
set_option autoImplicit false

/-- The engine. -/
structure TaskEngine extends Tables where
  /-- The saved row. -/
  row : Json
  /-- `time.time() - time.monotonic()`. -/
  offset : ℚ

/-- The tables of a service that imports tasks and bindings from their legacy files. -/
def Tables.imported (now : ℚ) (tasks : TaskTable) (bindings : List EventBinding) (uuids : ℕ) :
    Tables where
  registry :=
    { tasks
      bindings := Table.ofList (Tables.buildObjects 0 bindings)
      taskTimers := Table.ofList ((TaskStore.list tasks).filterMap fun task =>
        task.timerPeriodSeconds.map fun p =>
          { toTimerState := TimerState.armed now p task.enabled, taskId := task.taskId })
      timers := Table.empty
      uuids
      objects := bindings.length }
  runs := Table.empty
  queryResults := Table.empty
  workers := Table.empty

namespace TaskEngine

/-- `self._restore(json.loads(before))`; the leases of the workers are not in the row. -/
def rollback (before : Json) (t : Tables) (s : TaskEngine) : TaskEngine :=
  { s with toTables := (Tables.restore s.offset before t).getD s.toTables }

/-- The transaction around a request: the body of `TaskEngine.call` and of `TaskEngine.tick`. -/
def transact (env : Env) (body : Tables → Except PyError (Reply × Tables)) (s : TaskEngine) :
    Except PyError Reply × TaskEngine :=
  let before := s.snapshot s.offset
  let signature := s.snapshot 0
  match body s.toTables with
  | Except.error e => (Except.error e, s.rollback before s.toTables)
  | Except.ok (reply, t) =>
      if signature = t.snapshot 0 then (Except.ok reply, { s with toTables := t })
      else if env.writable then
        (Except.ok reply, { s with toTables := t, row := t.snapshot s.offset })
      else (Except.error PyError.saveFailed, s.rollback before t)

/-- `TaskEngine.call`. -/
def call (host : Host) (env : Env) (op : Op) (peer : PyStr) (s : TaskEngine) :
    Except PyError Reply × TaskEngine :=
  s.transact env fun t => t.dispatch host env peer op

/-- `TaskEngine.tick`. -/
def tick (host : Host) (env : Env) (now : Option ℚ) (s : TaskEngine) :
    Except PyError Reply × TaskEngine :=
  s.transact env fun t => (t.poll host env now).map fun t => (Reply.none, t)

/-- `TaskEngine.consume_mqtt`: a binding that was deleted or recreated must not receive old
payloads. -/
def consumeMqtt (host : Host) (env : Env) (o : BindingObject) (value : PyStr) (s : TaskEngine) :
    Except PyError Reply × TaskEngine :=
  match EventStore.resolve host o.binding.source o.binding.name s.registry.bindings with
  | none => (Except.ok Reply.none, s)
  | some o' =>
      if o'.id ≠ o.id then (Except.ok Reply.none, s)
      else s.call host env (Op.externalEvent o.binding.source o.binding.name (some value)) []

/-- A restart of the service: the row is restored under the offset that the clocks have now, and no
worker is known. -/
def reopen (offset : ℚ) (s : TaskEngine) : TaskEngine :=
  { toTables := (Tables.restore offset s.row { s.toTables with workers := Table.empty }).getD
      s.toTables
    row := s.row
    offset }

/-- A service that is started for the first time. -/
def opened (offset : ℚ) (t : Tables) : TaskEngine :=
  { toTables := t, row := t.snapshot offset, offset }

end TaskEngine

/-- What can happen to the engine. -/
inductive Input where
  | call (env : Env) (op : Op) (peer : PyStr)
  | tick (env : Env) (now : Option ℚ)
  | consumeMqtt (env : Env) (o : BindingObject) (value : PyStr)
  | reopen (offset : ℚ)

namespace TaskEngine

/-- The answer to an input, and the engine afterwards. -/
def respond (host : Host) (s : TaskEngine) : Input → Except PyError Reply × TaskEngine
  | Input.call env op peer => s.call host env op peer
  | Input.tick env now => s.tick host env now
  | Input.consumeMqtt env o value => s.consumeMqtt host env o value
  | Input.reopen offset => (Except.ok Reply.none, s.reopen offset)

/-- What may be imported: bindings as the event store validates them, and generations that the
source of fresh identifiers does not hand out again. -/
structure Importable (host : Host) (tasks : TaskTable) (bindings : List EventBinding)
    (uuids : ℕ) : Prop where
  generation_old : ∀ k task, tasks.get? k = some task → ∀ n, uuids ≤ n →
    task.generation ≠ host.uuid4 n
  normal : ∀ b ∈ bindings, b.Normal host

/-- The engine as a machine. -/
def machine (host : Host) : Machine TaskEngine Input where
  init := fun s => ∃ offset now tasks bindings uuids, Importable host tasks bindings uuids ∧
    s = opened offset (Tables.imported now tasks bindings uuids)
  step := fun s i => (s.respond host i).2

end TaskEngine

namespace TaskEngine

/-- A service without legacy files. -/
def fresh : TaskEngine := opened 0 (Tables.imported 0 Table.empty [] 0)

theorem fresh_init (host : Host) : (machine host).init fresh := by
  refine ⟨0, 0, Table.empty, [], 0, ⟨?_, ?_⟩, rfl⟩
  · intro k task h
    cases h
  · intro b h
    cases h

/-- A service without legacy files, after some inputs. -/
def after (host : Host) (l : List Input) : TaskEngine := (machine host).exec fresh l

theorem reachable_after (host : Host) (l : List Input) :
    (machine host).Reachable (after host l) :=
  Machine.Reachable.exec (Machine.Reach.of_init (fresh_init host)) l

end TaskEngine

/-- A call during which every process is alive, the clocks stand at zero and the disk works. -/
def Env.quiet : Env where
  alive := fun _ => true
  clock := 0
  monotonic := 0
  writable := true

/-! ### Agreement -/

namespace Tables

variable {t t' t'' : Tables}

theorem Agree.shift (h : Agree t t') (offset : ℚ) : Agree (t.shift offset) (t'.shift offset) where
  tasks := h.tasks
  bindings := h.bindings
  taskTimers := by simp only [Tables.shift, h.taskTimers]
  timers := by simp only [Tables.shift, h.timers]
  runs := h.runs
  queryResults := h.queryResults

theorem shift_shift_agree (a b : ℚ) (t : Tables) : Agree ((t.shift a).shift b) (t.shift (a + b)) where
  tasks := by
    simp only [shift_tasks]
    exact Table.Same.refl _
  bindings := by simp
  taskTimers := Table.map_map_eq _ (TaskTimerSpec.taskId_shift a) (TaskTimerSpec.taskId_shift b)
    (TaskTimerSpec.taskId_shift (a + b)) (TaskTimerSpec.shift_comp a b)
  timers := Table.map_map_eq _ (TimerSpec.name_shift a) (TimerSpec.name_shift b)
    (TimerSpec.name_shift (a + b)) (TimerSpec.shift_comp a b)
  runs := by simp
  queryResults := by simp

/-- Tables with the same snapshot agree. -/
theorem agree_of_snapshot_eq {offset : ℚ} (h : t.snapshot offset = t'.snapshot offset) :
    Agree t t' := by
  obtain ⟨u, hu, ht⟩ := restore_snapshot offset t t
  obtain ⟨u', hu', ht'⟩ := restore_snapshot offset t' t
  rw [h, hu'] at hu
  cases hu
  exact ht.symm.trans ht'

end Tables

/-! ### The row -/

namespace TaskEngine

open Tables (Agree)

variable {host : Host} {s s' : TaskEngine}

/-- The row is a snapshot of the tables in memory, perhaps taken at another offset. -/
def RowHolds (s : TaskEngine) : Prop :=
  ∃ (t : Tables) (offset : ℚ), s.row = t.snapshot offset ∧
    Agree (t.shift offset) (s.toTables.shift s.offset)

theorem RowHolds.of_agree (h : s.RowHolds) (hrow : s'.row = s.row) (hoff : s'.offset = s.offset)
    (ha : Agree s.toTables s'.toTables) : s'.RowHolds := by
  obtain ⟨t, offset, ht, hs⟩ := h
  refine ⟨t, offset, hrow.trans ht, hs.trans ?_⟩
  rw [hoff]
  exact ha.shift s.offset

/-- **The row decodes to the tables in memory.** -/
theorem RowHolds.restore (h : s.RowHolds) (t₀ : Tables) :
    ∃ t', Tables.restore s.offset s.row t₀ = some t' ∧ Agree t' s.toTables := by
  obtain ⟨t, offset, ht, hs⟩ := h
  refine ⟨Tables.restoreSaved s.offset (t.saved offset) t₀, by
    rw [ht]
    simp [Tables.restore, Tables.snapshot], ?_⟩
  have h₁ := Tables.restoreSaved_saved offset s.offset t t₀
  have h₂ := (Tables.shift_shift_agree offset (-s.offset) t).symm
  have h₃ := (hs.shift (-s.offset)).trans (Tables.shift_shift_agree s.offset (-s.offset) s.toTables)
  rw [add_neg_cancel] at h₃
  exact h₁.trans (h₂.trans (h₃.trans (Tables.shift_zero_agree _)))

/-- Rolling back to a snapshot of the tables restores them. -/
theorem rollback_agree (t : Tables) (s : TaskEngine) :
    Agree (s.rollback (s.snapshot s.offset) t).toTables s.toTables := by
  obtain ⟨t', ht', ha⟩ := Tables.restore_snapshot s.offset s.toTables t
  simp only [rollback, ht', Option.getD_some]
  exact ha

/-- **What a transaction does**: it raises and nothing has changed; or it returns, the body has
returned the new tables, and the row is a snapshot of them if their snapshot has changed. -/
theorem transact_cases (env : Env) (body : Tables → Except PyError (Reply × Tables))
    (s : TaskEngine) :
    (∃ e t, s.transact env body = (Except.error e, s.rollback (s.snapshot s.offset) t)) ∨
      ∃ reply t row, body s.toTables = Except.ok (reply, t) ∧
        s.transact env body = (Except.ok reply, { s with toTables := t, row }) ∧
        (row = s.row ∧ Agree s.toTables t ∨ row = t.snapshot s.offset) := by
  unfold transact
  cases hb : body s.toTables with
  | error e => exact Or.inl ⟨e, s.toTables, rfl⟩
  | ok p =>
      obtain ⟨reply, t⟩ := p
      simp only
      split_ifs with hsig hw
      · exact Or.inr ⟨reply, t, s.row, rfl, rfl,
          Or.inl ⟨rfl, Tables.agree_of_snapshot_eq hsig⟩⟩
      · exact Or.inr ⟨reply, t, t.snapshot s.offset, rfl, rfl, Or.inr rfl⟩
      · exact Or.inl ⟨PyError.saveFailed, t, rfl⟩

/-- Rolling back leaves the leases of the workers as they are. -/
theorem rollback_workers (t : Tables) (s : TaskEngine) :
    (s.rollback (s.snapshot s.offset) t).workers = t.workers := by
  have hr : Tables.restore s.offset (s.snapshot s.offset) t =
      some (Tables.restoreSaved s.offset (s.toTables.saved s.offset) t) := by
    simp [Tables.restore, Tables.snapshot]
  simp only [rollback, hr, Option.getD_some]
  rfl

/-- The leases after a transaction are those that the body leaves, or the old ones. -/
theorem transact_workers (env : Env) (body : Tables → Except PyError (Reply × Tables))
    (s : TaskEngine) : (s.transact env body).2.workers = s.workers ∨
      ∃ reply t, body s.toTables = Except.ok (reply, t) ∧
        (s.transact env body).2.workers = t.workers := by
  unfold transact
  cases hb : body s.toTables with
  | error e => exact Or.inl (rollback_workers s.toTables s)
  | ok p =>
      obtain ⟨reply, t⟩ := p
      refine Or.inr ⟨reply, t, rfl, ?_⟩
      simp only
      split_ifs
      · rfl
      · rfl
      · exact rollback_workers t s

/-- A transaction that returns has done what its body does. -/
theorem transact_returned {env : Env} {body : Tables → Except PyError (Reply × Tables)}
    {reply : Reply} (h : (s.transact env body).1 = Except.ok reply) :
    ∃ t, body s.toTables = Except.ok (reply, t) ∧ (s.transact env body).2.toTables = t := by
  rcases transact_cases env body s with ⟨e, t, ht⟩ | ⟨reply', t, row, hb, ht, _⟩
  · rw [ht] at h
    cases h
  · rw [ht] at h
    cases h
    exact ⟨t, hb, by rw [ht]⟩

/-- A transaction whose body returns, and that can save, returns what the body returns. -/
theorem transact_of_ok {env : Env} (body : Tables → Except PyError (Reply × Tables))
    {reply : Reply} {t : Tables} (hb : body s.toTables = Except.ok (reply, t))
    (hsave : env.writable = true) :
    (s.transact env body).1 = Except.ok reply ∧ (s.transact env body).2.toTables = t := by
  simp only [transact, hb]
  split_ifs
  · exact ⟨rfl, rfl⟩
  · exact ⟨rfl, rfl⟩

/-- What raises changes nothing. -/
theorem transact_raised {env : Env} {body : Tables → Except PyError (Reply × Tables)}
    {e : PyError} (h : (s.transact env body).1 = Except.error e) :
    Agree (s.transact env body).2.toTables s.toTables := by
  rcases transact_cases env body s with ⟨e', t, ht⟩ | ⟨reply, t, row, _, ht, _⟩
  · rw [ht]
    exact rollback_agree t s
  · rw [ht] at h
    cases h

theorem transact_offset (env : Env) (body : Tables → Except PyError (Reply × Tables))
    (s : TaskEngine) : (s.transact env body).2.offset = s.offset := by
  rcases transact_cases env body s with ⟨e', t, ht⟩ | ⟨reply, t, row, _, ht, _⟩
  · rw [ht]
    rfl
  · rw [ht]

theorem transact_rowHolds {env : Env} {body : Tables → Except PyError (Reply × Tables)}
    (h : s.RowHolds) : (s.transact env body).2.RowHolds := by
  rcases transact_cases env body s with
    ⟨e', t, ht⟩ | ⟨reply, t, row, _, ht, ⟨hrow, ha⟩ | hrow⟩
  · rw [ht]
    exact h.of_agree rfl rfl (rollback_agree t s).symm
  · rw [ht]
    exact h.of_agree hrow rfl ha
  · rw [ht]
    exact ⟨t, s.offset, hrow, Agree.refl _⟩

/-- **What raises changes nothing**, whichever way the engine was called. -/
theorem agree_of_raised {i : Input} {e : PyError} (h : (s.respond host i).1 = Except.error e) :
    Agree (s.respond host i).2.toTables s.toTables := by
  cases i with
  | call env op peer => exact transact_raised h
  | tick env now => exact transact_raised h
  | consumeMqtt env o value =>
      simp only [respond, consumeMqtt] at h ⊢
      split at h
      · cases h
      · split_ifs at h ⊢
        exact transact_raised h
  | reopen offset => cases h

/-- A restart gives the tables back: only the zero of the monotonic clock has moved. -/
theorem reopen_agree (h : s.RowHolds) (offset : ℚ) :
    Agree ((s.reopen offset).toTables.shift offset) (s.toTables.shift s.offset) := by
  obtain ⟨t, offset₀, ht, hs⟩ := h
  have hr : Tables.restore offset s.row { s.toTables with workers := Table.empty } =
      some (Tables.restoreSaved offset (t.saved offset₀)
        { s.toTables with workers := Table.empty }) := by
    rw [ht]
    simp [Tables.restore, Tables.snapshot]
  simp only [reopen, hr, Option.getD_some]
  have h₁ := (Tables.restoreSaved_saved offset₀ offset t
    { s.toTables with workers := Table.empty }).shift offset
  have h₂ := Tables.shift_shift_agree (offset₀ + -offset) offset t
  rw [neg_add_cancel_right] at h₂
  exact h₁.trans (h₂.trans hs)

/-- A restart forgets all leases. -/
theorem reopen_workers (h : s.RowHolds) (offset : ℚ) : (s.reopen offset).workers = Table.empty := by
  obtain ⟨t, offset₀, ht, _⟩ := h
  have hr : Tables.restore offset s.row { s.toTables with workers := Table.empty } =
      some (Tables.restoreSaved offset (t.saved offset₀)
        { s.toTables with workers := Table.empty }) := by
    rw [ht]
    simp [Tables.restore, Tables.snapshot]
  simp only [reopen, hr, Option.getD_some]
  rfl

theorem respond_rowHolds (h : s.RowHolds) (i : Input) : (s.respond host i).2.RowHolds := by
  cases i with
  | call env op peer => exact transact_rowHolds h
  | tick env now => exact transact_rowHolds h
  | consumeMqtt env o value =>
      simp only [respond, consumeMqtt]
      split
      · exact h
      · split_ifs
        · exact h
        · exact transact_rowHolds h
  | reopen offset =>
      obtain ⟨t, offset₀, ht, hs⟩ := h
      exact ⟨t, offset₀, ht, hs.trans (reopen_agree ⟨t, offset₀, ht, hs⟩ offset).symm⟩

/-- **In every reachable state the row holds the tables.** -/
theorem rowHolds_of_reachable (h : (machine host).Reachable s) : s.RowHolds := by
  refine h.invariant ?_ ?_
  · rintro s ⟨offset, now, tasks, bindings, uuids, _, rfl⟩
    exact ⟨_, offset, rfl, Agree.refl _⟩
  · intro s i _ hs
    exact respond_rowHolds hs i

/-- **Requests are transactions.**  In every reachable state: a call, a tick or a reported change
that raises leaves all tables as they were; after one that returns, the saved row decodes to the
tables in memory; and restoring a snapshot, under whatever offset between the clocks, gives the
same tables with the same wall-clock deadlines, also when the service is restarted. -/
theorem transactions (h : (machine host).Reachable s) :
    (∀ (i : Input) (e : PyError), (s.respond host i).1 = Except.error e →
      Agree (s.respond host i).2.toTables s.toTables ∧ (s.respond host i).2.offset = s.offset) ∧
    (∀ (i : Input) (reply : Reply) (t₀ : Tables), (s.respond host i).1 = Except.ok reply →
      ∃ t', Tables.restore (s.respond host i).2.offset (s.respond host i).2.row t₀ = some t' ∧
        Agree t' (s.respond host i).2.toTables) ∧
    (∀ (offset : ℚ) (t₀ : Tables),
      ∃ t', Tables.restore offset (s.snapshot s.offset) t₀ = some t' ∧
        Agree (t'.shift offset) (s.toTables.shift s.offset)) ∧
    (∀ offset : ℚ,
      Agree ((s.reopen offset).toTables.shift offset) (s.toTables.shift s.offset)) := by
  have hrow := rowHolds_of_reachable h
  refine ⟨?_, ?_, ?_, reopen_agree hrow⟩
  · intro i e he
    refine ⟨agree_of_raised he, ?_⟩
    cases i with
    | call env op peer => exact transact_offset _ _ _
    | tick env now => exact transact_offset _ _ _
    | consumeMqtt env o value =>
        simp only [respond, consumeMqtt]
        split
        · rfl
        · split_ifs
          · rfl
          · exact transact_offset _ _ _
    | reopen offset => cases he
  · intro i reply t₀ _
    exact (respond_rowHolds hrow i).restore t₀
  · intro offset t₀
    refine ⟨Tables.restoreSaved offset (s.toTables.saved s.offset) t₀, by
      simp [Tables.restore, Tables.snapshot], ?_⟩
    have h₁ := (Tables.restoreSaved_saved s.offset offset s.toTables t₀).shift offset
    have h₂ := Tables.shift_shift_agree (s.offset + -offset) offset s.toTables
    rw [neg_add_cancel_right] at h₂
    exact h₁.trans h₂

/-- A service with one task. -/
def oneTask : List Input :=
  [Input.call Env.quiet (Op.admin (AdminOp.createTask "watch" "look" [] "litert")) []]

/-- A run is requested of a task that the service does not have. -/
theorem transactions_unknown_task :
    Agree ((after Host.ascii oneTask).respond Host.ascii
      (Input.call Env.quiet (Op.runTask 2) [])).2.toTables (after Host.ascii oneTask).toTables :=
  ((transactions (reachable_after Host.ascii oneTask)).1 _
    (PyError.taskStoreError "unknown task: 2") (by decide +kernel)).1

end TaskEngine
