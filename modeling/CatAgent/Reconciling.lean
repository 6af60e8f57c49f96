/-
**What a tick leaves behind.**

A tick withdraws what is lost, polls the timers and queues a run for every timer that is due, all
in one transaction.  If one of these runs finds the queue full, or so many periods of a timer have
passed that their number is no float, the transaction is rolled back, and with it everything that
the tick had withdrawn.

Main definitions:

* `Run.survives` — the runs that `_reconcile` leaves alive;
* `Tables.Reconciled` — no run is lost;
* `Tables.waiting`, `Tables.Fits` — the timers that will queue a run, and room for all of them;
* `Registry.Scheduled` — timers belong to tasks.

Main results:

* `Tables.pendingCount_reconcile` — how full the queue is after reconciling;
* `Tables.queueAll_timers` — timers that fit are queued, others make the tick raise;
* `TaskEngine.scheduled_of_reachable` — every timer of the engine belongs to a task;
* `TaskEngine.tick_reconciles_iff` — **a tick leaves no lost run exactly if there was none, or the
  timers that are due fit into the queue and none of them is too late for a float**;
* `TaskEngine.not_tick_reconciles` — a tick that is rolled back.
-/

import CatAgent.Registries

set_option relaxedAutoImplicit false
set_option autoImplicit false

/-! ### Runs that are lost -/

namespace Run

/-- The run is not terminal, and `_reconcile` leaves it so. -/
def survives (env : Env) (tasks : TaskTable) (run : Run) : Bool :=
  match run.state with
  | RunState.pending | RunState.offered => run.current tasks
  | RunState.running => env.alive run.peer
  | _ => false

variable {env : Env} {tasks : TaskTable} {workers : WorkerTable} {run : Run}

/-- **What survives is what is not terminal after reconciling.** -/
theorem terminal_reconciled :
    (run.reconciled env tasks workers).state.terminal = !run.survives env tasks := by
  unfold reconciled survives
  cases hstate : run.state <;> by_cases hc : run.current tasks = true <;>
    by_cases ha : env.alive run.peer = true <;>
    by_cases ho : run.offerLost env workers = true <;>
    simp [hc, ha, ho, hstate, returnPending, RunState.terminal]

theorem reconciled_taskId : (run.reconciled env tasks workers).event.taskId = run.event.taskId := by
  unfold reconciled
  split_ifs <;> rfl

theorem reconciled_taskGeneration :
    (run.reconciled env tasks workers).event.taskGeneration = run.event.taskGeneration := by
  unfold reconciled
  split_ifs <;> rfl

/-- The run is not running with a dead peer, and if it has not started, its task is there, enabled
and of the generation of the run. -/
def Sound (env : Env) (tasks : TaskTable) (run : Run) : Prop :=
  (run.state = RunState.running → env.alive run.peer = true) ∧
    (run.state = RunState.pending ∨ run.state = RunState.offered → run.current tasks = true)

theorem current_reconciled :
    (run.reconciled env tasks workers).current tasks = run.current tasks := by
  unfold current taskOf
  rw [reconciled_taskId, reconciled_taskGeneration]

theorem sound_reconciled : (run.reconciled env tasks workers).Sound env tasks := by
  constructor
  · unfold reconciled
    split_ifs with h₁ h₂ h₃
    · nofun
    · nofun
    · nofun
    · intro hrun
      by_contra hdead
      exact h₃ ⟨hrun, by simpa using hdead⟩
  · rw [current_reconciled]
    unfold reconciled
    split_ifs with h₁ h₂ h₃
    · rintro (h | h) <;> cases h
    · intro _
      by_contra hc
      exact h₁ ⟨Or.inr h₂.1, hc⟩
    · rintro (h | h) <;> cases h
    · intro hwait
      by_contra hc
      exact h₁ ⟨hwait, hc⟩

end Run

namespace Tables

variable {host : Host} {env : Env} {now : Option ℚ} {t t' : Tables}

/-- No run is lost. -/
def Reconciled (env : Env) (t : Tables) : Prop :=
  ∀ k run, t.runs.get? k = some run → run.Sound env t.registry.tasks

/-- A run of the task and generation survives. -/
def keepsRun (env : Env) (t : Tables) (task : TaskRecord) : Bool :=
  t.runs.values.any fun run => decide (run.event.taskId = some task.taskId) &&
    decide (run.event.taskGeneration = task.generation) && run.survives env t.registry.tasks

/-- The timers that are due and whose task is enabled and has no run that survives. -/
def waiting (env : Env) (now : Option ℚ) (t : Tables) : List TaskTimerSpec :=
  t.registry.taskTimers.values.filter fun timer => timer.due (now.getD env.monotonic) &&
    match t.registry.tasks.get? timer.taskId with
    | none => false
    | some task => task.enabled && !t.keepsRun env task

/-- The runs that survive leave room for a run of every timer that waits for one. -/
def Fits (env : Env) (now : Option ℚ) (t : Tables) : Prop :=
  t.waiting env now = [] ∨
    (t.runs.values.countP fun run => run.survives env t.registry.tasks) +
      (t.waiting env now).length ≤ RunTable.maxPending

theorem reconciled_reconcile (t : Tables) : (t.reconcile env).Reconciled env := by
  intro k run' hk
  obtain ⟨run, _, rfl⟩ := get?_reconcile hk
  exact Run.sound_reconciled

/-! ### The queue after reconciling -/

/-- Trimming only takes runs that have ended. -/
theorem notMem_evicted {runs : RunTable} {run : Run} (h : run ∈ runs.values)
    (hlive : run.state.terminal = false) : run.event.runId ∉ runs.evicted := by
  intro hmem
  obtain ⟨other, hother, hid⟩ := List.mem_map.1 (List.mem_of_mem_take hmem)
  obtain ⟨hvalue, hterm⟩ := List.mem_filter.1 hother
  have hget := Table.mem_values_iff.1 hvalue
  rw [hid, Table.mem_values_iff.1 h] at hget
  cases hget
  rw [hlive] at hterm
  cases hterm

/-- Trimming leaves the runs that have not ended. -/
theorem filter_trim (runs : RunTable) (p : Run → Bool) :
    runs.trim.values.filter (fun run => p run && !run.state.terminal) =
      runs.values.filter fun run => p run && !run.state.terminal := by
  rw [RunTable.trim, Table.values_filter, List.filter_filter]
  refine List.filter_congr fun run hrun => ?_
  cases hterm : run.state.terminal with
  | true => simp
  | false => simp [notMem_evicted hrun hterm]

/-- **How full the queue is after reconciling.** -/
theorem pendingCount_reconcile (t : Tables) : (t.reconcile env).runs.pendingCount =
    t.runs.values.countP fun run => run.survives env t.registry.tasks := by
  have htrim := congrArg List.length (filter_trim (t.runs.map
    (fun run => run.reconciled env t.registry.tasks t.workers)
    fun run => run.reconciled_runId env t.registry.tasks t.workers) fun _ => true)
  simp only [Bool.true_and, ← List.countP_eq_length_filter] at htrim
  change List.countP (fun run => !run.state.terminal) (RunTable.trim _).values = _
  rw [htrim, Table.values_map, List.countP_map]
  refine List.countP_congr fun run _ => ?_
  simp [Run.terminal_reconciled]

theorem live_reconcile (t : Tables) (task : TaskRecord) :
    (t.reconcile env).runs.live task = t.keepsRun env task := by
  have htrim := filter_trim (t.runs.map
    (fun run => run.reconciled env t.registry.tasks t.workers)
    fun run => run.reconciled_runId env t.registry.tasks t.workers)
    fun run => decide (run.event.taskId = some task.taskId) &&
      decide (run.event.taskGeneration = task.generation)
  have hany : ∀ (p : Run → Bool) (l : List Run), l.any p = decide (l.filter p ≠ []) := by
    intro p l
    rw [Bool.eq_iff_iff, decide_eq_true_eq, List.any_eq_true, ne_eq, List.filter_eq_nil_iff]
    simp
  change (RunTable.trim _).values.any _ = _
  rw [hany, htrim, ← hany, Table.values_map, List.any_map, keepsRun]
  congr 1
  funext run
  simp [Run.reconciled_taskId, Run.reconciled_taskGeneration, Run.terminal_reconciled]

end Tables

/-! ### Timers belong to tasks -/

namespace Registry

variable {host : Host} {r r' r'' : Registry} {now : ℚ} {record : TaskRecord} {taskId : ℤ}

/-- There are no timers without a task. -/
structure Scheduled (r : Registry) : Prop where
  timers : r.timers.values = []
  taskTimers : ∀ k, r.taskTimers.get? k ≠ none → r.tasks.get? k ≠ none

/-- One task is written, and no timer but its own. -/
structure Writes (record : TaskRecord) (r r' : Registry) : Prop where
  tasks : r'.tasks = r.tasks.put record
  timers : r'.timers = r.timers
  taskTimers : ∀ k, record.taskId ≠ k → r'.taskTimers.get? k = r.taskTimers.get? k

/-- Every timer of a task has its task. -/
def Owned (r : Registry) : Prop := ∀ k, r.taskTimers.get? k ≠ none → r.tasks.get? k ≠ none

/-- No timer is set by name, and no timer is left without its task. -/
structure KeepsOwners (r r' : Registry) : Prop where
  timers : r'.timers = r.timers
  owned : Owned r → Owned r'

theorem Scheduled.keeps (h : Scheduled r) (hk : KeepsOwners r r') : Scheduled r' where
  timers := hk.timers ▸ h.timers
  taskTimers := hk.owned h.taskTimers

theorem KeepsOwners.refl (r : Registry) : KeepsOwners r r := ⟨rfl, id⟩

theorem KeepsOwners.trans (h : KeepsOwners r r') (h' : KeepsOwners r' r'') : KeepsOwners r r'' :=
  ⟨h'.timers.trans h.timers, h'.owned ∘ h.owned⟩

theorem Writes.keepsOwners (hw : Writes record r r') : KeepsOwners r r' where
  timers := hw.timers
  owned := by
    intro h k hk
    rw [hw.tasks, Table.get?_put]
    split_ifs with heq
    · simp
    · rw [hw.taskTimers k heq] at hk
      exact h k hk

theorem Writes.putTimer (h : Writes record r r') (state : TimerState) :
    Writes record r (r'.putTimer record.taskId state) where
  tasks := h.tasks
  timers := h.timers
  taskTimers := fun k hk => by rw [get?_putTimer, if_neg hk, h.taskTimers k hk]

theorem Writes.scheduleTimer (h : Writes record r r') (p : Period) (enabled : Bool) :
    Writes record r (r'.scheduleTimer now record.taskId p enabled) := by
  unfold Registry.scheduleTimer
  split
  · exact h.putTimer _
  · exact h.putTimer _

theorem writes_create {spec : TaskSpec} (hc : r.create host spec = Except.ok (record, r')) :
    Writes record r r' := by
  obtain ⟨⟨record', tasks⟩, hc', heq⟩ := bind_eq_ok_iff.1 hc
  cases heq
  obtain ⟨_, _, rfl⟩ := TaskStore.create_spec hc'
  exact ⟨rfl, rfl, fun _ _ => rfl⟩

theorem writes_createWithTimer {spec : TaskSpec}
    (hc : r.createWithTimer host now spec = Except.ok (record, r')) : Writes record r r' := by
  obtain ⟨⟨record', r₁⟩, hc', hr⟩ := bind_eq_ok_iff.1 hc
  cases hp : record'.timerPeriodSeconds with
  | none =>
      simp only [hp] at hr
      cases hr
      exact writes_create hc'
  | some p =>
      simp only [hp] at hr
      cases hr
      exact (writes_create hc').putTimer _

theorem writes_createPeriodicTask {description text method executor : PyStr}
    {skills : List PyStr} {periodSeconds : PyNumber} {agentId : Option PyStr}
    (hc : r.createPeriodicTask host now description text skills periodSeconds method executor
      agentId = Except.ok (record, r')) : Writes record r r' := by
  obtain ⟨_, _, hc⟩ := bind_eq_ok_iff.1 hc
  obtain ⟨p, _, hc⟩ := bind_eq_ok_iff.1 hc
  obtain ⟨⟨record', r₁⟩, hc', hr⟩ := bind_eq_ok_iff.1 hc
  cases hr
  exact (writes_create hc').putTimer _

theorem writes_setEnabled {enabled preserve : Bool}
    (hc : r.setEnabled host taskId enabled preserve = Except.ok (record, r')) :
    Writes record r r' ∧ record.taskId = taskId := by
  obtain ⟨current, _, hid, _, _, rfl⟩ := setEnabled_spec hc
  exact ⟨⟨rfl, rfl, fun _ _ => rfl⟩, hid⟩

theorem writes_startTask {preserve : Bool}
    (hc : r.startTask host now taskId preserve = Except.ok (record, r')) : Writes record r r' := by
  obtain ⟨⟨record', r₁⟩, hc', hr⟩ := bind_eq_ok_iff.1 hc
  obtain ⟨hw, rfl⟩ := writes_setEnabled hc'
  cases hp : record'.timerPeriodSeconds with
  | none =>
      simp only [hp] at hr
      cases hr
      exact hw
  | some p =>
      simp only [hp] at hr
      cases hr
      exact hw.scheduleTimer p true

theorem writes_stopTask {preserve : Bool}
    (hc : r.stopTask host taskId preserve = Except.ok (record, r')) : Writes record r r' := by
  obtain ⟨⟨record', r₁⟩, hc', hr⟩ := bind_eq_ok_iff.1 hc
  obtain ⟨hw, rfl⟩ := writes_setEnabled hc'
  simp only at hr
  split at hr
  · cases hr
    exact hw.putTimer _
  · cases hr
    exact hw

theorem writes_setTaskPeriod {period : PyNumber}
    (hc : r.setTaskPeriod host now taskId period = Except.ok (record, r')) :
    Writes record r r' := by
  obtain ⟨current, p, rfl, _, _, rfl⟩ := setTaskPeriod_spec hc
  have hw : Writes record r { r with tasks := r.tasks.put record, uuids := r.uuids + 1 } :=
    ⟨rfl, rfl, fun _ _ => rfl⟩
  exact hw.scheduleTimer p _

theorem writes_setExecutor {executor : PyStr}
    (hc : r.setExecutor host taskId executor = Except.ok (record, r')) : Writes record r r' := by
  obtain ⟨⟨record', tasks⟩, hc', heq⟩ := bind_eq_ok_iff.1 hc
  cases heq
  obtain ⟨p, _, hc'⟩ := bind_eq_ok_iff.1 hc'
  obtain ⟨current, _, rfl, rfl⟩ := TaskStore.replace_spec hc'
  exact ⟨rfl, rfl, fun _ _ => rfl⟩

theorem keepsOwners_register {description : PyStr} {spec : BindingSpec} {b : EventBinding}
    (hc : r.register host taskId description spec = Except.ok (b, r')) : KeepsOwners r r' := by
  obtain ⟨⟨b', bindings⟩, _, heq⟩ := bind_eq_ok_iff.1 hc
  cases heq
  exact ⟨rfl, id⟩

theorem keepsOwners_delete (taskId : ℤ) : KeepsOwners r (r.delete taskId).2 := by
  refine ⟨rfl, fun h k hk => ?_⟩
  have htimers : (r.delete taskId).2.taskTimers.get? k =
      if taskId = k then none else r.taskTimers.get? k := Table.get?_erase _ _ _
  rw [htimers] at hk
  split_ifs at hk with heq
  · exact absurd rfl hk
  · change (TaskStore.delete taskId r.tasks).2.get? k ≠ none
    unfold TaskStore.delete
    split
    · exact h k hk
    · rw [Table.get?_erase_of_ne _ heq]
      exact h k hk

theorem Owned.pollDue {current : ℚ} {busy : Bool} {events : List SystemEvent} (h : Owned r)
    (hc : r.pollDue current busy = Except.ok (events, r')) : Owned r' := by
  obtain ⟨taskEvents, _, hr⟩ := bind_eq_ok_iff.1 hc
  cases hr
  refine fun k hk => h k fun hnone => hk ?_
  rw [Table.get?_map, hnone]
  rfl

theorem scheduled_pollDue {current : ℚ} {busy : Bool} {events : List SystemEvent}
    (h : Scheduled r) (hc : r.pollDue current busy = Except.ok (events, r')) : Scheduled r' := by
  refine ⟨?_, Owned.pollDue h.taskTimers hc⟩
  obtain ⟨taskEvents, _, hr⟩ := bind_eq_ok_iff.1 hc
  cases hr
  rw [Table.values_map, h.timers]
  rfl

/-- **No administrative operation leaves a timer without its task.** -/
theorem keepsOwners_apply {op : AdminOp} {reply : Reply}
    (hc : op.apply host now r = Except.ok (reply, r')) : KeepsOwners r r' := by
  cases op with
  | get | list | resolve | snapshot | taskTimerSnapshot | timerSnapshot =>
      cases hc
      exact KeepsOwners.refl r
  | require taskId =>
      simp only [AdminOp.apply] at hc
      cases hr : TaskStore.require r.tasks taskId with
      | error e =>
          rw [hr] at hc
          cases hc
      | ok task =>
          rw [hr] at hc
          cases hc
          exact KeepsOwners.refl r
  | create spec =>
      obtain ⟨task, hc, _⟩ := Reply.ofTask_eq_ok hc
      exact (writes_createWithTimer hc).keepsOwners
  | delete taskId =>
      cases hc
      exact keepsOwners_delete taskId
  | startTask taskId preserve =>
      obtain ⟨task, hc, _⟩ := Reply.ofTask_eq_ok hc
      exact (writes_startTask hc).keepsOwners
  | stopTask taskId preserve =>
      obtain ⟨task, hc, _⟩ := Reply.ofTask_eq_ok hc
      exact (writes_stopTask hc).keepsOwners
  | setTaskPeriod taskId period =>
      obtain ⟨task, hc, _⟩ := Reply.ofTask_eq_ok hc
      exact (writes_setTaskPeriod hc).keepsOwners
  | setExecutor taskId executor =>
      obtain ⟨task, hc, _⟩ := Reply.ofTask_eq_ok hc
      exact (writes_setExecutor hc).keepsOwners
  | unregisterTask taskId =>
      cases hc
      exact ⟨rfl, id⟩
  | register taskId description spec =>
      obtain ⟨b, hc, _⟩ := registerForTask_of_apply hc
      obtain ⟨task, _, hc⟩ := bind_eq_ok_iff.1 hc
      exact keepsOwners_register hc
  | createTask description text skills executor =>
      obtain ⟨task, hc, _⟩ := Reply.ofTask_eq_ok hc
      exact (writes_create hc).keepsOwners
  | createPeriodicTask description text skills period method executor agentId =>
      obtain ⟨task, hc, _⟩ := Reply.ofTask_eq_ok hc
      exact (writes_createPeriodicTask hc).keepsOwners
  | createExternalTask spec binding =>
      obtain ⟨task, hc, _⟩ := Reply.ofTask_eq_ok hc
      obtain ⟨⟨record', r₁⟩, hc', hr⟩ := bind_eq_ok_iff.1 hc
      obtain ⟨⟨b, r₂⟩, hreg, hr⟩ := bind_eq_ok_iff.1 hr
      cases hr
      exact (writes_create hc').keepsOwners.trans (keepsOwners_register hreg)

end Registry

namespace Tables

variable {host : Host} {env : Env} {now : Option ℚ} {t t' : Tables}

theorem step_scheduled {P : Permits} (h : Step host P t t') (hr : t.registry.Scheduled) :
    t'.registry.Scheduled := by
  cases h with
  | registry _ r hc =>
      cases hc with
      | admin op now reply _ _ hc => exact hr.keeps (Registry.keepsOwners_apply hc)
      | pollDue current events _ hc => exact Registry.scheduled_pollDue hr hc
      | nextUuid => exact ⟨hr.timers, hr.taskTimers⟩
  | queue | offer => exact ⟨hr.timers, hr.taskTimers⟩
  | _ => exact hr

theorem Agree.scheduled (h : Agree t t') (hr : t.registry.Scheduled) : t'.registry.Scheduled where
  timers := h.timers ▸ hr.timers
  taskTimers := by
    intro k hk
    rw [← h.tasks k]
    exact hr.taskTimers k (h.taskTimers ▸ hk)

theorem scheduled_shift_iff {offset : ℚ} :
    (t.shift offset).registry.Scheduled ↔ t.registry.Scheduled := by
  have htimers : (t.shift offset).registry.timers.values = [] ↔ t.registry.timers.values = [] := by
    rw [shift, Table.values_map, List.map_eq_nil_iff]
  have htask : ∀ k, (t.shift offset).registry.taskTimers.get? k ≠ none ↔
      t.registry.taskTimers.get? k ≠ none := by
    intro k
    rw [shift, Table.get?_map, ne_eq, Option.map_eq_none_iff]
  constructor
  · exact fun h => ⟨htimers.1 h.timers, fun k hk => h.taskTimers k ((htask k).2 hk)⟩
  · exact fun h => ⟨htimers.2 h.timers, fun k hk => h.taskTimers k ((htask k).1 hk)⟩

end Tables

/-! ### Queueing the timers that are due -/

namespace Tables

variable {host : Host} {env : Env} {now : Option ℚ} {t t' : Tables}

/-- The event that the poll makes of a task timer. -/
def TimerEvent (tasks : TaskTable) (timer : TaskTimerSpec) (event : SystemEvent) : Prop :=
  event.source = PyStr.ofString "timer" ∧ event.taskId = some timer.taskId ∧
    ∃ task, tasks.get? timer.taskId = some task ∧ event.taskGeneration = task.generation

/-- The timer will queue a run. -/
def wants (t : Tables) (timer : TaskTimerSpec) : Bool :=
  match t.registry.tasks.get? timer.taskId with
  | none => false
  | some task => task.enabled && !t.runs.live task

/-- The identifiers that come next are not in the table. -/
def Unused (host : Host) (t : Tables) : Prop :=
  ∀ n, t.registry.uuids ≤ n → t.runs.get? (host.uuid4 n) = none

theorem Allocated.unused (h : Allocated host t) : Unused host t := by
  intro n hn
  rw [Option.eq_none_iff_forall_ne_some]
  intro run hrun
  obtain ⟨m, hm, heq⟩ := h _ run hrun
  have := host.uuid4_injective heq
  omega

theorem Unused.put {k : ℕ} (h : Unused host t) (hk : k = t.registry.uuids) (event : SystemEvent)
    (task : TaskRecord) {r : Registry} (hr : r.uuids = k + 1) :
    Unused host { t with
      registry := r, runs := t.runs.put (RunTable.newRun (host.uuid4 k) event task) } := by
  intro n hn
  have hne : host.uuid4 k ≠ host.uuid4 n := by
    intro heq
    have := host.uuid4_injective heq
    simp only at hn
    omega
  have hget := Table.get?_put_of_ne t.runs (v := RunTable.newRun (host.uuid4 k) event task) hne
  refine hget.trans (h n ?_)
  simp only at hn
  omega

/-- **What an event of a timer does**: nothing if the timer wants no run, else it queues a run if
there is room and raises if there is not. -/
theorem queue_timer {timer : TaskTimerSpec} {event : SystemEvent}
    (he : TimerEvent t.registry.tasks timer event) :
    (t.wants timer = false ∧ t.queue host event = Except.ok (none,
      { t with registry := { t.registry with uuids := t.registry.uuids + 1 } })) ∨
    (t.wants timer = true ∧ RunTable.maxPending ≤ t.runs.pendingCount ∧
      ∃ e, t.queue host event = Except.error e) ∨
    t.wants timer = true ∧ t.runs.pendingCount < RunTable.maxPending ∧
      ∃ task, t.registry.tasks.get? timer.taskId = some task ∧ task.enabled = true ∧
        event.taskGeneration = task.generation ∧
        t.queue host event = Except.ok (some (host.uuid4 t.registry.uuids),
          { t with
            registry := { t.registry with uuids := t.registry.uuids + 1 }
            runs := t.runs.put (RunTable.newRun (host.uuid4 t.registry.uuids) event task) }) := by
  obtain ⟨hsource, hid, task, htask, hgen⟩ := he
  have hwants : t.wants timer = (task.enabled && !t.runs.live task) := by
    simp only [wants, htask]
  have hqueue : t.runs.queue (host.uuid4 t.registry.uuids) t.registry.tasks event =
      if t.wants timer = false then Except.ok (none, t.runs)
      else if RunTable.maxPending ≤ t.runs.pendingCount then
        Except.error (PyError.taskStoreError "Task SYSTEM pending queue is full")
      else Except.ok (some (host.uuid4 t.registry.uuids),
        t.runs.put (RunTable.newRun (host.uuid4 t.registry.uuids) event task)) := by
    simp only [RunTable.queue, hid, htask, hgen, hsource, hwants]
    cases henabled : task.enabled <;> cases hlive : t.runs.live task <;> simp
  simp only [queue, hqueue]
  by_cases hw : t.wants timer = false
  · rw [if_pos hw]
    exact Or.inl ⟨hw, rfl⟩
  · rw [if_neg hw]
    rw [Bool.not_eq_false] at hw
    have henabled : task.enabled = true := by
      rw [hwants, Bool.and_eq_true] at hw
      exact hw.1
    by_cases hfull : RunTable.maxPending ≤ t.runs.pendingCount
    · rw [if_pos hfull]
      exact Or.inr (Or.inl ⟨hw, hfull, _, rfl⟩)
    · rw [if_neg hfull]
      exact Or.inr (Or.inr ⟨hw, not_le.1 hfull, task, htask, henabled, hgen, rfl⟩)

theorem values_put_newRun {event : SystemEvent} {task : TaskRecord} {identifier : PyStr}
    {runs : RunTable} (hfree : runs.get? identifier = none) :
    (runs.put (RunTable.newRun identifier event task)).values =
      runs.values ++ [RunTable.newRun identifier event task] :=
  Table.values_put_new (t := runs) (v := RunTable.newRun identifier event task) hfree

/-- A run for another task changes nothing for a timer. -/
theorem wants_put {timer other : TaskTimerSpec} {event : SystemEvent} {task : TaskRecord}
    {identifier : PyStr} (hid : event.taskId = some timer.taskId) (hne : timer.taskId ≠ other.taskId)
    (hfree : t.runs.get? identifier = none) {r : Registry} (hr : r.tasks = t.registry.tasks) :
    wants { t with registry := r, runs := t.runs.put (RunTable.newRun identifier event task) } other =
      t.wants other := by
  simp only [wants, hr]
  cases htask : t.registry.tasks.get? other.taskId with
  | none => rfl
  | some task' =>
      have hother : task'.taskId = other.taskId := Table.key_of_get? htask
      have hne' : ¬ timer.taskId = task'.taskId := fun h => hne (h.trans hother)
      have hlive : RunTable.live (t.runs.put (RunTable.newRun identifier event task)) task' =
          t.runs.live task' := by
        rw [RunTable.live, values_put_newRun hfree, List.any_append]
        simp [RunTable.newRun, hid, hne', RunTable.live]
      simp only [hlive]

theorem pendingCount_put {event : SystemEvent} {task : TaskRecord} {identifier : PyStr}
    (hfree : t.runs.get? identifier = none) :
    RunTable.pendingCount (t.runs.put (RunTable.newRun identifier event task)) =
      t.runs.pendingCount + 1 := by
  rw [RunTable.pendingCount, values_put_newRun hfree, List.countP_append]
  rfl

theorem sound_newRun {event : SystemEvent} {task : TaskRecord} {identifier : PyStr}
    {tasks : TaskTable} (hid : event.taskId = some task.taskId)
    (htask : tasks.get? task.taskId = some task) (henabled : task.enabled = true)
    (hgen : event.taskGeneration = task.generation) :
    (RunTable.newRun identifier event task).Sound env tasks :=
  ⟨nofun, fun _ => Run.current_iff.2 ⟨task.taskId, task, hid, htask, henabled, hgen.symm⟩⟩

theorem Reconciled.put (h : Reconciled env t) {run : Run} (hrun : run.Sound env t.registry.tasks)
    {r : Registry} (hr : r.tasks = t.registry.tasks) :
    Reconciled env { t with registry := r, runs := t.runs.put run } := by
  intro k run' hk
  rw [Table.get?_put] at hk
  simp only [hr]
  split_ifs at hk
  · cases hk
    exact hrun
  · exact h k run' hk

/-- **The timers that are due are queued if there is room for all of them; otherwise the tick
raises.** -/
theorem queueAll_timers {tasks : TaskTable} {timers : List TaskTimerSpec}
    {events : List SystemEvent} (he : List.Forall₂ (TimerEvent tasks) timers events)
    (htasks : t.registry.tasks = tasks) (hnodup : (timers.map TaskTimerSpec.taskId).Nodup) (hfree : Unused host t)
    (hclean : Reconciled env t) :
    if timers.countP t.wants = 0 ∨
        t.runs.pendingCount + timers.countP t.wants ≤ RunTable.maxPending then
      ∃ t', queueAll host events t = Except.ok t' ∧ Reconciled env t'
    else ∃ e, queueAll host events t = Except.error e := by
  induction he generalizing t with
  | nil => exact ⟨t, rfl, hclean⟩
  | @cons timer event timers events hevent hrest ih =>
      rw [List.map_cons, List.nodup_cons] at hnodup
      have hcount : ∀ b, t.wants timer = b →
          (timer :: timers).countP t.wants = timers.countP t.wants + b.toNat := by
        intro b hb
        rw [List.countP_cons, hb]
        cases b <;> rfl
      subst htasks
      -- The timer is not wanted, or there is no place for it, or it gets the next one.
      rcases @queue_timer host _ _ _ hevent with
        ⟨hwants, hqueue⟩ | ⟨hwants, hfull, e, hqueue⟩ |
          ⟨hwants, hroom, task, htask, henabled, hgen, hqueue⟩
      · have hall : queueAll host (event :: events) t = queueAll host events
            { t with registry := { t.registry with uuids := t.registry.uuids + 1 } } := by
          rw [queueAll, hqueue]
          rfl
        rw [hcount false hwants, hall]
        exact @ih { t with registry := { t.registry with uuids := t.registry.uuids + 1 } } rfl
          hnodup.2 (fun n hn => hfree n (Nat.le_of_succ_le hn)) hclean
      · rw [hcount true hwants, if_neg (by simp only [Bool.toNat_true]; omega)]
        exact ⟨e, by rw [queueAll, hqueue]; rfl⟩
      · obtain ⟨_, hid, _⟩ := hevent
        have htaskId : task.taskId = timer.taskId := Table.key_of_get? htask
        have hnew := hfree _ (Nat.le_refl _)
        have hall : queueAll host (event :: events) t = queueAll host events
            { t with
              registry := { t.registry with uuids := t.registry.uuids + 1 }
              runs := t.runs.put (RunTable.newRun (host.uuid4 t.registry.uuids) event task) } := by
          rw [queueAll, hqueue]
          rfl
        -- The new run is of this task, so it changes nothing for the timers of the others.
        have hsame : timers.countP (wants
            { t with
              registry := { t.registry with uuids := t.registry.uuids + 1 }
              runs := t.runs.put (RunTable.newRun (host.uuid4 t.registry.uuids) event task) }) =
            timers.countP t.wants := by
          refine List.countP_congr fun other hother => ?_
          have hne : timer.taskId ≠ other.taskId := fun heq =>
            hnodup.1 (by rw [heq]; exact List.mem_map_of_mem hother)
          have hput := @wants_put _ _ _ event task _ hid hne hnew
            { t.registry with uuids := t.registry.uuids + 1 } rfl
          rw [hput]
        have hsound := @sound_newRun env _ _ (host.uuid4 t.registry.uuids) _
          (hid.trans (congrArg some htaskId.symm)) (htaskId.symm ▸ htask) henabled hgen
        have hnext := @ih
          { t with
            registry := { t.registry with uuids := t.registry.uuids + 1 }
            runs := t.runs.put (RunTable.newRun (host.uuid4 t.registry.uuids) event task) }
          rfl hnodup.2 (hfree.put rfl event task rfl) (hclean.put hsound rfl)
        rw [hsame, pendingCount_put hnew] at hnext
        rw [hcount true hwants, hall]
        have hiff : (timers.countP t.wants + true.toNat = 0 ∨ t.runs.pendingCount +
            (timers.countP t.wants + true.toNat) ≤ RunTable.maxPending) ↔
            (timers.countP t.wants = 0 ∨ t.runs.pendingCount + 1 + timers.countP t.wants ≤
              RunTable.maxPending) := by
          simp only [Bool.toNat_true]
          omega
        rw [if_congr hiff rfl rfl]
        exact hnext

/-- Timers that have their tasks all make their event. -/
theorem taskTimerEvents {tasks : TaskTable} {timers : List TaskTimerSpec} (current : ℚ)
    (h : ∀ timer ∈ timers, tasks.get? timer.taskId ≠ none) :
    ∃ events, timers.mapM (Registry.taskTimerEvent tasks current) = Except.ok events ∧
      List.Forall₂ (TimerEvent tasks) timers events := by
  induction timers with
  | nil => exact ⟨[], rfl, List.Forall₂.nil⟩
  | cons timer timers ih =>
      rw [List.forall_mem_cons] at h
      obtain ⟨task, htask⟩ := Option.ne_none_iff_exists'.1 h.1
      obtain ⟨events, hmap, hall⟩ := ih h.2
      have hevent : Registry.taskTimerEvent tasks current timer = Except.ok
          { source := "timer"
            name := PyStr.ofString "task:" ++ PyStr.ofString (toString timer.taskId)
            task := []
            createdMonotonic := current
            taskId := some timer.taskId
            taskGeneration := task.generation } := by
        rw [Registry.taskTimerEvent, TaskStore.require_eq_ok_iff.2 htask]
        rfl
      refine ⟨{ source := "timer"
                name := PyStr.ofString "task:" ++ PyStr.ofString (toString timer.taskId)
                task := []
                createdMonotonic := current
                taskId := some timer.taskId
                taskGeneration := task.generation } :: events, ?_,
        List.Forall₂.cons ⟨rfl, rfl, task, htask, rfl⟩ hall⟩
      rw [List.mapM_cons, hevent, hmap]
      rfl

theorem owned_due {r : Registry} (h : r.Owned) (current : ℚ) :
    ∀ timer ∈ r.taskTimers.values.filter fun timer => timer.due current,
      r.tasks.get? timer.taskId ≠ none := by
  intro timer htimer
  have hvalue := Table.mem_values_iff.1 (List.mem_of_mem_filter htimer)
  refine h _ ?_
  rw [hvalue]
  exact Option.some_ne_none _

/-- The poll makes one event of every timer that is due. -/
theorem pollDue_timers {r : Registry} (h : r.Scheduled) (current : ℚ) :
    ∃ events r', r.pollDue current false = Except.ok (events, r') ∧ r'.tasks = r.tasks ∧
      r'.uuids = r.uuids ∧ List.Forall₂ (TimerEvent r.tasks)
        (r.taskTimers.values.filter fun timer => timer.due current) events := by
  obtain ⟨events, hmap, hall⟩ := taskTimerEvents current (owned_due h.taskTimers current)
  refine ⟨events, { r with
      timers := r.timers.map
        (fun timer => { timer with toTimerState := timer.poll current false }) fun _ => rfl
      taskTimers := r.taskTimers.map
        (fun timer => { timer with toTimerState := timer.poll current false }) fun _ => rfl },
    ?_, rfl, rfl, hall⟩
  simp only [Registry.pollDue, h.timers, Bool.false_eq_true, if_false, hmap]
  rfl

/-- **The body of a tick** reconciles and returns if the timers that are due fit, and raises if they
do not, provided that none of them is too late for a float. -/
theorem poll_of_inRange (h : t.registry.Scheduled) (ha : Allocated host t)
    (hrange : t.registry.overflows (now.getD env.monotonic) = false) :
    (t.Fits env now → ∃ t', t.poll host env now = Except.ok t' ∧ Reconciled env t') ∧
      (¬ t.Fits env now → ∃ e, t.poll host env now = Except.error e) := by
  obtain ⟨events, r, hpoll, htasks, huuids, hevents⟩ :=
    pollDue_timers (r := (t.reconcile env).registry) h (now.getD env.monotonic)
  have hbody : t.poll host env now = queueAll host events { t.reconcile env with registry := r } := by
    have hfloat : (t.reconcile env).registry.pollDueFloat (now.getD env.monotonic) false =
        Except.ok (events, r) := Registry.pollDueFloat_eq_ok_iff.2 ⟨hpoll, hrange⟩
    simp only [poll, hfloat]
    rfl
  have hallocated : Allocated host (t.reconcile env) := by
    intro k run' hk
    obtain ⟨run, hrun, _⟩ := get?_reconcile hk
    exact ha k run hrun
  have hunused : Unused host { t.reconcile env with registry := r } := fun n hn =>
    hallocated.unused n (huuids ▸ hn)
  have hclean : Reconciled env { t.reconcile env with registry := r } := by
    intro k run hk
    have hsound := @reconciled_reconcile env t k run hk
    simp only [htasks]
    exact hsound
  have hnodup : ((t.registry.taskTimers.values.filter fun timer =>
      timer.due (now.getD env.monotonic)).map TaskTimerSpec.taskId).Nodup :=
    t.registry.taskTimers.nodup_keys.sublist (List.filter_sublist.map _)
  have hcount : (t.registry.taskTimers.values.filter fun timer =>
      timer.due (now.getD env.monotonic)).countP (wants { t.reconcile env with registry := r }) =
      (t.waiting env now).length := by
    rw [List.countP_eq_length_filter, List.filter_filter, waiting]
    congr 1
    refine List.filter_congr fun timer _ => ?_
    rw [Bool.and_comm]
    congr 1
    simp only [wants, htasks]
    cases htask : t.registry.tasks.get? timer.taskId with
    | none =>
        have hnone : (t.reconcile env).registry.tasks.get? timer.taskId = none := htask
        simp only [hnone]
    | some task =>
        have hsome : (t.reconcile env).registry.tasks.get? timer.taskId = some task := htask
        simp only [hsome]
        rw [live_reconcile]
  have hqueue := @queueAll_timers _ env _ _ _ _ hevents htasks hnodup hunused hclean
  have hfits : (t.registry.taskTimers.values.filter fun timer =>
      timer.due (now.getD env.monotonic)).countP (wants { t.reconcile env with registry := r }) = 0 ∨
      (t.reconcile env).runs.pendingCount + (t.registry.taskTimers.values.filter fun timer =>
        timer.due (now.getD env.monotonic)).countP
          (wants { t.reconcile env with registry := r }) ≤ RunTable.maxPending ↔ t.Fits env now := by
    rw [hcount, pendingCount_reconcile, List.length_eq_zero_iff]
    rfl
  rw [hbody]
  split_ifs at hqueue with hroom
  · exact ⟨fun _ => hqueue, fun hfit => absurd (hfits.1 hroom) hfit⟩
  · exact ⟨fun hfit => absurd (hfits.2 hfit) hroom, fun _ => hqueue⟩

/-- **The body of a tick** reconciles and returns if the timers that are due fit and none of them is
too late for a float, and raises otherwise. -/
theorem poll_reconciles (h : t.registry.Scheduled) (ha : Allocated host t) :
    (t.Fits env now ∧ t.registry.overflows (now.getD env.monotonic) = false →
        ∃ t', t.poll host env now = Except.ok t' ∧ Reconciled env t') ∧
      (¬ (t.Fits env now ∧ t.registry.overflows (now.getD env.monotonic) = false) →
        ∃ e, t.poll host env now = Except.error e) := by
  cases hrange : t.registry.overflows (now.getD env.monotonic) with
  | false =>
      obtain ⟨hfits, hnot⟩ := poll_of_inRange h ha hrange
      exact ⟨fun hboth => hfits hboth.1, fun hneither => hnot fun hfit => hneither ⟨hfit, rfl⟩⟩
  | true =>
      refine ⟨fun hboth => absurd hboth.2 (by decide), fun _ => ?_⟩
      cases hpoll : t.poll host env now with
      | error e => exact ⟨e, rfl⟩
      | ok t' =>
          obtain ⟨result, hfloat, _⟩ := bind_eq_ok_iff.1 hpoll
          have hfalse : t.registry.overflows (now.getD env.monotonic) = false :=
            (Registry.pollDueFloat_eq_ok_iff.1 hfloat).2
          rw [hrange] at hfalse
          cases hfalse

/-- Tables that agree have lost the same runs. -/
theorem Agree.reconciled_iff (h : Agree t t') : Reconciled env t ↔ Reconciled env t' := by
  have hcurrent : ∀ run : Run, run.current t.registry.tasks = run.current t'.registry.tasks := by
    intro run
    unfold Run.current Run.taskOf
    have hget : t.registry.tasks.get? = t'.registry.tasks.get? := funext h.tasks
    rw [hget]
  simp only [Reconciled, Run.Sound, hcurrent, h.runs]

end Tables

namespace TaskEngine

open Tables (Agree Step Permits)

variable {host : Host} {env : Env} {now : Option ℚ} {s : TaskEngine}

/-- **Every timer of the engine belongs to a task.** -/
theorem scheduled_of_reachable (hs : (machine host).Reachable s) : s.registry.Scheduled := by
  refine hs.invariant (I := fun u => u.registry.Scheduled) ?_ ?_
  · rintro s ⟨offset, time, tasks, bindings, uuids, _, rfl⟩
    refine ⟨rfl, fun k hk => ?_⟩
    obtain ⟨timer, htimer⟩ := Option.ne_none_iff_exists'.1 hk
    have hmem := Table.mem_of_get?_ofList htimer
    obtain ⟨task, htask, hsome⟩ := List.mem_filterMap.1 hmem
    obtain ⟨p, _, rfl⟩ := Option.map_eq_some_iff.1 hsome
    have hid : task.taskId = k :=
      @Table.key_of_get? _ _ TaskTimerSpec.taskId _ _ _ _ htimer
    have hget : tasks.get? task.taskId = some task :=
      Table.mem_values_iff.1 (Table.mem_sorted_iff.1 htask)
    change tasks.get? k ≠ none
    rw [← hid, hget]
    exact nofun
  · intro u i hu h
    have hrow := rowHolds_of_reachable hu
    rcases respond_effect host hrow (u.allowed_all i) with
      ⟨_, _, hsteps⟩ | ⟨⟨e, he⟩ | ⟨offset, rfl⟩, _⟩
    · have hrun : ∀ t, Relation.ReflTransGen (Step host Permits.all) u.toTables t →
          t.registry.Scheduled := by
        intro t ht
        induction ht with
        | refl => exact h
        | tail _ hstep ih => exact Tables.step_scheduled hstep ih
      exact hrun _ hsteps
    · exact (agree_of_raised he).symm.scheduled h
    · have hagree := (reopen_agree hrow offset).symm
      exact Tables.scheduled_shift_iff.1 (hagree.scheduled (Tables.scheduled_shift_iff.2 h))

/-- A tick for which there is no room changes nothing, nor does one that meets a timer that is too
late for a float. -/
theorem tick_of_not_fits (hs : (machine host).Reachable s)
    (hfit : ¬ (s.Fits env now ∧ s.registry.overflows (now.getD env.monotonic) = false)) :
    (s.tick host env now).2.Reconciled env ↔ s.Reconciled env := by
  obtain ⟨e, hpoll⟩ := (@Tables.poll_reconciles _ env now _
    (scheduled_of_reachable hs) (allocated_of_reachable hs)).2 hfit
  have hraised : (s.tick host env now).1 = Except.error e := by
    simp only [tick, transact, hpoll]
    rfl
  exact (agree_of_raised (s := s) (i := Input.tick env now) hraised).reconciled_iff

/-- **When a tick reconciles**: if nothing was lost, or if the timers that are due fit into the
queue and none of them is too late for a float. -/
theorem tick_reconciles_iff (hs : (machine host).Reachable s) (hw : env.writable = true) :
    (s.tick host env now).2.Reconciled env ↔ s.Reconciled env ∨
      s.Fits env now ∧ s.registry.overflows (now.getD env.monotonic) = false := by
  by_cases hfit : s.Fits env now ∧ s.registry.overflows (now.getD env.monotonic) = false
  · obtain ⟨t', hpoll, hclean⟩ := (@Tables.poll_reconciles _ env now _
      (scheduled_of_reachable hs) (allocated_of_reachable hs)).1 hfit
    have hbody : (fun t : Tables => (t.poll host env now).map fun t => (Reply.none, t)) s.toTables =
        Except.ok (Reply.none, t') := by
      simp only [hpoll]
      rfl
    have hsame := (transact_of_ok (s := s)
      (fun t => (t.poll host env now).map fun t => (Reply.none, t)) hbody hw).2
    refine iff_of_true ?_ (Or.inr hfit)
    rw [tick, hsame]
    exact hclean
  · rw [or_iff_left hfit]
    exact tick_of_not_fits hs hfit

end TaskEngine

/-! ### A tick that reconciles, and a tick that reconciles nothing -/

namespace Tables

variable {host : Host} {env : Env} {t t' : Tables}

/-- The requests are dispatched one after the other. -/
def dispatchAll (host : Host) (env : Env) (peer : PyStr) : List Op → Tables → Except PyError Tables
  | [], t => Except.ok t
  | op :: ops, t => do
      let (_, t) ← t.dispatch host env peer op
      dispatchAll host env peer ops t

/-- A running run, and `n` pending ones of the same task. -/
structure Crowded (host : Host) (tasks : TaskTable) (timers : Table TaskTimerSpec.taskId)
    (task : TaskRecord) (n : ℕ) (t : Tables) : Prop where
  tasks : t.registry.tasks = tasks
  timers : t.registry.taskTimers = timers
  unused : Unused host t
  runs : ∃ first l, t.runs.values = first :: l ∧ first.state = RunState.running ∧
    first.event.taskId = some task.taskId ∧ l.length = n ∧ ∀ run ∈ l,
      run.state = RunState.pending ∧ run.event.taskId = some task.taskId ∧
        run.event.taskGeneration = task.generation

theorem Crowded.pendingCount {tasks : TaskTable} {timers : Table TaskTimerSpec.taskId}
    {task : TaskRecord} {n : ℕ} (h : Crowded host tasks timers task n t) :
    t.runs.pendingCount = n + 1 := by
  obtain ⟨first, l, hvalues, hfirst, _, hlength, hl⟩ := h.runs
  have hrest : l.countP (fun run => !run.state.terminal) = n := by
    rw [← hlength, List.countP_eq_length]
    intro run hrun
    rw [(hl run hrun).1]
    rfl
  rw [RunTable.pendingCount, hvalues, List.countP_cons, hrest, hfirst]
  rfl

/-- Another request to run the task is queued as long as there is room. -/
theorem Crowded.runTask {tasks : TaskTable} {timers : Table TaskTimerSpec.taskId}
    {task : TaskRecord} {n : ℕ} {peer : PyStr} (h : Crowded host tasks timers task n t)
    (htask : tasks.get? task.taskId = some task) (henabled : task.enabled = true)
    (hroom : n + 1 < RunTable.maxPending) : ∃ reply t',
      t.dispatch host env peer (Op.runTask task.taskId) = Except.ok (reply, t') ∧
        Crowded host tasks timers task (n + 1) t' := by
  have hget : t.registry.tasks.get? task.taskId = some task := h.tasks ▸ htask
  have hfree := h.unused _ (Nat.le_refl _)
  have hnot : ¬ ((manualEvent env.monotonic task).source = PyStr.ofString "timer" ∧
      t.runs.live task = true) := fun hsource =>
    absurd (show PyStr.ofString "manual" = PyStr.ofString "timer" from hsource.1) (by decide)
  have hcount : ¬ RunTable.maxPending ≤ t.runs.pendingCount := by
    rw [h.pendingCount]
    omega
  have hqueue : t.runs.queue (host.uuid4 t.registry.uuids) t.registry.tasks
      (manualEvent env.monotonic task) = Except.ok (some (host.uuid4 t.registry.uuids),
        t.runs.put (RunTable.newRun (host.uuid4 t.registry.uuids)
          (manualEvent env.monotonic task) task)) := by
    have hsame : ¬ (¬ task.enabled = true ∨
        task.generation ≠ (manualEvent env.monotonic task).taskGeneration) := by
      rw [henabled]
      simp [manualEvent]
    unfold RunTable.queue
    simp only [show (manualEvent env.monotonic task).taskId = some task.taskId from rfl, hget,
      if_neg hsame, if_neg hnot, if_neg hcount]
  refine ⟨Reply.runId (some (host.uuid4 t.registry.uuids)),
    { t with
      registry := { t.registry with uuids := t.registry.uuids + 1 }
      runs := t.runs.put (RunTable.newRun (host.uuid4 t.registry.uuids)
        (manualEvent env.monotonic task) task) }, ?_, h.tasks, h.timers,
    h.unused.put rfl _ _ rfl, ?_⟩
  · simp only [dispatch, TaskStore.require_eq_ok_iff.2 hget]
    change Reply.ofRunId (t.queue host (manualEvent env.monotonic task)) = _
    simp only [queue, hqueue]
    rfl
  · obtain ⟨first, l, hvalues, hfirst, hid, hlength, hl⟩ := h.runs
    refine ⟨first, l ++ [RunTable.newRun (host.uuid4 t.registry.uuids)
      (manualEvent env.monotonic task) task], ?_, hfirst, hid, ?_, ?_⟩
    · rw [values_put_newRun hfree, hvalues, List.cons_append]
    · rw [List.length_append, hlength]
      rfl
    · intro run hrun
      rcases List.mem_append.1 hrun with hrun | hrun
      · exact hl run hrun
      · rw [List.mem_singleton.1 hrun]
        exact ⟨rfl, rfl, rfl⟩

/-- The queue can be filled. -/
theorem Crowded.fill {tasks : TaskTable} {timers : Table TaskTimerSpec.taskId}
    {task : TaskRecord} {peer : PyStr} (htask : tasks.get? task.taskId = some task)
    (henabled : task.enabled = true) (m : ℕ) {n : ℕ} {t : Tables}
    (h : Crowded host tasks timers task n t) (hroom : n + m < RunTable.maxPending) : ∃ t',
      dispatchAll host env peer (List.replicate m (Op.runTask task.taskId)) t = Except.ok t' ∧
        Crowded host tasks timers task (n + m) t' := by
  induction m generalizing n t with
  | zero => exact ⟨t, rfl, h⟩
  | succ m ih =>
      obtain ⟨reply, t₁, hstep, h₁⟩ := @Crowded.runTask _ env _ _ _ _ _ peer h htask henabled (by omega)
      obtain ⟨t', hrest, h'⟩ := ih h₁ (by omega)
      refine ⟨t', ?_, by rwa [show n + (m + 1) = n + 1 + m by omega]⟩
      rw [List.replicate_succ, dispatchAll, hstep]
      exact hrest

end Tables

namespace TaskEngine

open Tables (Crowded dispatchAll)

variable {host : Host} {env : Env} {s : TaskEngine}

/-- Requests that can be saved do what they do when they are dispatched. -/
theorem tables_exec (hw : env.writable = true) (peer : PyStr) {ops : List Op} {t : Tables}
    (h : dispatchAll host env peer ops s.toTables = Except.ok t) :
    ((machine host).exec s (ops.map fun op => Input.call env op peer)).toTables = t := by
  induction ops generalizing s with
  | nil => exact Except.ok.inj h
  | cons op ops ih =>
      obtain ⟨⟨reply, t₁⟩, hop, h⟩ := bind_eq_ok_iff.1 h
      have hsame := (transact_of_ok (s := s) (fun t => t.dispatch host env peer op) hop hw).2
      rw [List.map_cons, Machine.exec_cons]
      exact ih (hsame ▸ h)

/-- Two tasks with a period of a minute, a third task, and a run of it that a worker has begun. -/
def crowdOps : List Op :=
  [Op.admin (AdminOp.create
      { description := "a", text := "x", timerPeriodSeconds := some (PyNumber.finite 60) }),
    Op.admin (AdminOp.create
      { description := "b", text := "x", timerPeriodSeconds := some (PyNumber.finite 60) }),
    Op.admin (AdminOp.create { description := "c", text := "x" }),
    Op.runTask 3,
    Op.worker "o" (WorkerOp.heartbeat "litert" true []),
    Op.worker "o" (WorkerOp.pull "litert" [] []),
    Op.worker "o" (WorkerOp.begin (Host.ascii.uuid4 3) (Host.ascii.uuid4 4))]

/-- The tables then. -/
def crowd : Tables :=
  match dispatchAll Host.ascii Env.quiet "p" crowdOps fresh.toTables with
  | Except.ok t => t
  | Except.error _ => fresh.toTables

theorem crowd_dispatched :
    dispatchAll Host.ascii Env.quiet "p" crowdOps fresh.toTables = Except.ok crowd := by
  have hok : (dispatchAll Host.ascii Env.quiet "p" crowdOps fresh.toTables).isOk = true := by
    decide +kernel
  unfold crowd
  cases h : dispatchAll Host.ascii Env.quiet "p" crowdOps fresh.toTables with
  | error e =>
      rw [h] at hok
      cases hok
  | ok t => rfl

/-- The third task. -/
def crowdTask : TaskRecord :=
  { taskId := 3, description := "c", text := "x", method := TaskMethod.task, skills := []
    timerPeriodSeconds := none, enabled := true, generation := Host.ascii.uuid4 2
    executor := Policy.auto, agentId := none }

/-- The worker is gone, and both timers are due. -/
def crowdEnv : Env := { alive := fun _ => false, clock := 100, monotonic := 100, writable := true }

/-- The service after the requests. -/
def crowdEngine : TaskEngine :=
  (machine Host.ascii).exec fresh (crowdOps.map fun op => Input.call Env.quiet op "p")

theorem crowdEngine_reachable : (machine Host.ascii).Reachable crowdEngine :=
  Machine.Reachable.exec (Machine.Reach.of_init (fresh_init Host.ascii)) _

theorem tables_crowdEngine : crowdEngine.toTables = crowd :=
  @tables_exec _ Env.quiet fresh rfl "p" _ _ crowd_dispatched

theorem crowded_crowd :
    Crowded Host.ascii crowd.registry.tasks crowd.registry.taskTimers crowdTask 0 crowd where
  tasks := rfl
  timers := rfl
  unused := tables_crowdEngine ▸ (allocated_of_reachable crowdEngine_reachable).unused
  runs := by
    have hvalues : crowd.runs.values.map (fun run => (run.state, run.event.taskId)) =
        [(RunState.running, some crowdTask.taskId)] := by decide +kernel
    obtain ⟨first, hfirst, heq⟩ := List.map_eq_singleton_iff.1 hvalues
    rw [Prod.mk.injEq] at heq
    exact ⟨first, [], hfirst, heq.1, heq.2, rfl, fun run hrun => by cases hrun⟩

/-- In the crowd, two timers are due, and no run of their tasks survives. -/
theorem waiting_crowd {n : ℕ} {t : Tables}
    (h : Crowded Host.ascii crowd.registry.tasks crowd.registry.taskTimers crowdTask n t) :
    (t.waiting crowdEnv none).length = 2 := by
  obtain ⟨first, l, hvalues, _, hid, _, hl⟩ := h.runs
  have hkeeps : ∀ task : TaskRecord, task.taskId ≠ 3 → t.keepsRun crowdEnv task = false := by
    intro task htask
    have hne : ¬ crowdTask.taskId = task.taskId := fun heq => htask heq.symm
    rw [Tables.keepsRun, hvalues, List.any_eq_false]
    intro run hrun
    have hrunId : run.event.taskId = some crowdTask.taskId := by
      rcases List.mem_cons.1 hrun with rfl | hrun
      · exact hid
      · exact (hl run hrun).2.1
    simp [hrunId, hne]
  have hdue : ∀ timer ∈ crowd.registry.taskTimers.values, timer.due 100 = true ∧
      (crowd.registry.tasks.get? timer.taskId).any (fun task => task.enabled) = true ∧
      timer.taskId ≠ 3 := by decide +kernel
  have hlength : crowd.registry.taskTimers.values.length = 2 := by decide +kernel
  rw [Tables.waiting, h.timers, h.tasks, List.filter_eq_self.2, hlength]
  intro timer htimer
  obtain ⟨hdue, henabled, hne⟩ := hdue timer htimer
  obtain ⟨task, htask, henabled⟩ := (Option.any_eq_true ..).1 henabled
  have htaskId : task.taskId = timer.taskId := Table.key_of_get? htask
  have hnone : t.keepsRun crowdEnv task = false := hkeeps task (htaskId ▸ hne)
  change (timer.due 100 && _) = true
  rw [hdue, htask]
  simp [henabled, hnone]

/-- The worker's run is lost, and a tick interrupts it. -/
theorem tick_reconciles_crowd :
    ¬ crowdEngine.Reconciled crowdEnv ∧
      (crowdEngine.tick Host.ascii crowdEnv none).2.Reconciled crowdEnv := by
  constructor
  · intro hclean
    obtain ⟨first, l, hvalues, hfirst, _⟩ := crowded_crowd.runs
    have hget : crowd.runs.get? first.event.runId = some first :=
      Table.mem_values_iff.1 (hvalues ▸ List.mem_cons_self)
    rw [tables_crowdEngine] at hclean
    exact Bool.false_ne_true ((hclean _ first hget).1 hfirst)
  · refine (tick_reconciles_iff crowdEngine_reachable rfl).2 (Or.inr ?_)
    rw [tables_crowdEngine]
    refine ⟨Or.inr ?_, ?_⟩
    · rw [waiting_crowd crowded_crowd]
      decide +kernel
    · decide +kernel

/-- **A tick need not reconcile**: a worker has died, but with 1023 further runs of one task in the
queue and the timers of two other tasks due, every tick is rolled back. -/
theorem not_tick_reconciles :
    ¬ ∀ (s : TaskEngine) (env : Env) (now : Option ℚ), (machine Host.ascii).Reachable s →
      env.writable = true → (s.tick Host.ascii env now).2.Reconciled env := by
  intro hall
  have htask : crowd.registry.tasks.get? crowdTask.taskId = some crowdTask := by decide +kernel
  obtain ⟨t, hdispatch, hcrowd⟩ := @Tables.Crowded.fill _ Env.quiet _ _ _ "p" htask rfl 1023 _ _
    crowded_crowd (by decide)
  have hdispatch' : dispatchAll Host.ascii Env.quiet "p"
      (List.replicate 1023 (Op.runTask crowdTask.taskId)) crowdEngine.toTables = Except.ok t := by
    rw [tables_crowdEngine]
    exact hdispatch
  have htables := tables_exec rfl "p" hdispatch'
  have hreach := Machine.Reachable.exec crowdEngine_reachable
    ((List.replicate 1023 (Op.runTask crowdTask.taskId)).map fun op => Input.call Env.quiet op "p")
  have hwaiting := waiting_crowd hcrowd
  obtain ⟨first, l, hvalues, hfirst, _, hlength, hl⟩ := hcrowd.runs
  have hcount : t.runs.values.countP (fun run => run.survives crowdEnv t.registry.tasks) = 1023 := by
    have hdead : first.survives crowdEnv t.registry.tasks = false := by
      simp [Run.survives, hfirst, crowdEnv]
    have hrest : l.countP (fun run => run.survives crowdEnv t.registry.tasks) = 1023 := by
      rw [List.countP_eq_length.2, hlength]
      intro run hrun
      obtain ⟨hstate, hid, hgen⟩ := hl run hrun
      simp only [Run.survives, hstate]
      exact Run.current_iff.2 ⟨_, crowdTask, hid, hcrowd.tasks ▸ htask, rfl, hgen.symm⟩
    rw [hvalues, List.countP_cons, hrest, hdead]
    rfl
  have hfit : ¬ t.Fits crowdEnv none := by
    rintro (hnil | hroom)
    · rw [hnil] at hwaiting
      cases hwaiting
    · rw [hcount, hwaiting] at hroom
      exact absurd hroom (by decide)
  have hclean := (@tick_of_not_fits _ crowdEnv none _ hreach
    fun hboth => (htables ▸ hfit) hboth.1).1
    (hall _ crowdEnv none hreach rfl)
  rw [htables] at hclean
  have hget : t.runs.get? first.event.runId = some first :=
    Table.mem_values_iff.1 (hvalues ▸ List.mem_cons_self)
  exact Bool.false_ne_true ((hclean _ first hget).1 hfirst)

end TaskEngine
