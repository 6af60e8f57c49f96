/-
**Tasks, bindings and timers.**

`SystemRuntime` owns the schedules: a task with a period has a timer, and a poll turns every timer
that is due into an event and moves its deadline to the next point of its grid.  Together with the
two registries it makes up everything that the administrative operations of the engine change;
none of those operations touches a run.  This module models them as functions on one record, the
`Registry`.

Main definitions:

* `SystemEvent`, `TimerState`, `TaskTimerSpec`, `TimerSpec` — events and timers;
* `Registry` — the tasks, the bindings, the timers, and what has been handed out of the supplies
  of fresh identifiers and of fresh objects;
* `Registry.pollDue` — the events that are due, in exact arithmetic;
* `Registry.pollDueFloat` — the same where the range of floats ends;
* `Registry.startTask`, `Registry.stopTask`, `Registry.setTaskPeriod`, `Registry.createTask`,
  `Registry.createPeriodicTask`, `Registry.deleteTask`, … — the administrative operations;
* `Registry.Follows` — what any of those operations may have done.

Main results:

* `Registry.Follows.trans` and one `follows_…` lemma for each operation — **a task keeps its
  executor and its method as long as it keeps its generation, and every binding object is either
  an old one or a new one**.
-/

import CatAgent.TaskStore
import CatAgent.EventStore
import Mathlib.Algebra.Order.Floor.Ring
import Mathlib.Data.Rat.Floor

set_option relaxedAutoImplicit false
set_option autoImplicit false

/-- `SystemEvent`. -/
structure SystemEvent where
  source : PyStr
  name : PyStr
  task : PyStr
  createdMonotonic : ℚ
  taskId : Option ℤ := none
  taskGeneration : PyStr := []
  runId : PyStr := []
  offerId : PyStr := []
deriving DecidableEq

/-- The fields that `TimerSpec` and `TaskTimerSpec` share. -/
structure TimerState where
  periodSeconds : Period
  enabled : Bool
  nextFireMonotonic : Option ℚ
  sequence : ℕ := 0
  fired : ℕ := 0
  skipped : ℕ := 0
deriving DecidableEq

/-- `TaskTimerSpec`. -/
structure TaskTimerSpec extends TimerState where
  taskId : ℤ
deriving DecidableEq

/-- `TimerSpec`. -/
structure TimerSpec extends TimerState where
  name : PyStr
  task : PyStr
deriving DecidableEq

/-- The tables that administrative operations change. -/
structure Registry where
  /-- `TaskStore._tasks`. -/
  tasks : TaskTable
  /-- `EventStore._bindings`. -/
  bindings : BindingTable
  /-- `SystemRuntime._task_timers`. -/
  taskTimers : Table TaskTimerSpec.taskId
  /-- `SystemRuntime._timers`. -/
  timers : Table TimerSpec.name
  /-- How many identifiers `uuid4` has handed out. -/
  uuids : ℕ
  /-- How many binding objects have been built. -/
  objects : ℕ

/-! ### Timers -/

namespace TimerState

/-- The timer is due at `current`. -/
def due (current : ℚ) (timer : TimerState) : Bool :=
  timer.enabled && match timer.nextFireMonotonic with
    | none => false
    | some next => decide (¬ current < next)

/-- The first point of the grid `next + k * period` after `current`. -/
def nextFire (current next : ℚ) (period : Period) : ℚ :=
  next + ((⌊(current - next) / period.val⌋ : ℤ) + 1) * period.val

/-- What a poll at `current` does to a timer that is due. -/
def fire (current : ℚ) (busy : Bool) (timer : TimerState) : TimerState :=
  { timer with
    sequence := timer.sequence + 1
    fired := if busy then timer.fired else timer.fired + 1
    skipped := if busy then timer.skipped + 1 else timer.skipped
    nextFireMonotonic := timer.nextFireMonotonic.map fun next =>
      nextFire current next timer.periodSeconds }

/-- `math.floor` raises: for a float, too many periods have passed since the deadline. -/
def overflows (current : ℚ) (timer : TimerState) : Bool :=
  timer.due current && timer.nextFireMonotonic.any fun next =>
    Binary64.overflows (Binary64.nearest (current - next) / timer.periodSeconds.float.val)

/-- What a poll at `current` does to a timer. -/
def poll (current : ℚ) (busy : Bool) (timer : TimerState) : TimerState :=
  if timer.due current then timer.fire current busy else timer

/-- A timer that starts to count down at `now`, if it is enabled. -/
def armed (now : ℚ) (period : Period) (enabled : Bool) : TimerState :=
  { periodSeconds := period, enabled,
    nextFireMonotonic := if enabled then some (now + period.val) else none }

/-- The same for a timer that exists: its counters stay. -/
def rearm (now : ℚ) (period : Period) (enabled : Bool) (timer : TimerState) : TimerState :=
  { timer with
    periodSeconds := period, enabled,
    nextFireMonotonic := if enabled then some (now + period.val) else none }

/-- A timer that is stopped. -/
def disarm (timer : TimerState) : TimerState :=
  { timer with enabled := false, nextFireMonotonic := none }

end TimerState

namespace Registry

/-- The event of a legacy timer, which belongs to no task. -/
def timerEvent (current : ℚ) (timer : TimerSpec) : SystemEvent :=
  { source := "timer", name := timer.name, task := timer.task, createdMonotonic := current }

/-- The event of a task timer; the task must exist. -/
def taskTimerEvent (tasks : TaskTable) (current : ℚ) (timer : TaskTimerSpec) :
    Except PyError SystemEvent := do
  let task ← TaskStore.require tasks timer.taskId
  return { source := "timer"
           name := PyStr.ofString "task:" ++ PyStr.ofString (toString timer.taskId)
           task := []
           createdMonotonic := current
           taskId := some timer.taskId
           taskGeneration := task.generation }

/-- `SystemRuntime.poll_due`, in exact arithmetic. -/
def pollDue (current : ℚ) (busy : Bool) (r : Registry) :
    Except PyError (List SystemEvent × Registry) := do
  let due := r.timers.values.filter fun timer => timer.due current
  let taskDue := r.taskTimers.values.filter fun timer => timer.due current
  let taskEvents ← (if busy then [] else taskDue).mapM (taskTimerEvent r.tasks current)
  return ((if busy then [] else due).map (timerEvent current) ++ taskEvents,
    { r with
      timers := r.timers.map
        (fun timer => { timer with toTimerState := timer.poll current busy }) fun _ => rfl
      taskTimers := r.taskTimers.map
        (fun timer => { timer with toTimerState := timer.poll current busy }) fun _ => rfl })

/-- A timer that is due is too late for a float. -/
def overflows (current : ℚ) (r : Registry) : Bool :=
  r.timers.values.any (fun timer => timer.overflows current) ||
    r.taskTimers.values.any fun timer => timer.overflows current

/-- `SystemRuntime.poll_due`; the deadlines are exact, and the number of periods is a float. -/
def pollDueFloat (current : ℚ) (busy : Bool) (r : Registry) :
    Except PyError (List SystemEvent × Registry) := do
  let result ← r.pollDue current busy
  raiseIf (r.overflows current = true) PyError.overflowError
  return result

/-! ### Administrative operations -/

/-- `TaskStore.create`, with a fresh generation. -/
def create (host : Host) (spec : TaskSpec) (r : Registry) :
    Except PyError (TaskRecord × Registry) := do
  let (task, tasks) ← TaskStore.create host (host.uuid4 r.uuids) spec r.tasks
  return (task, { r with tasks, uuids := r.uuids + 1 })

/-- A timer for a task. -/
def putTimer (taskId : ℤ) (state : TimerState) (r : Registry) : Registry :=
  { r with taskTimers := r.taskTimers.put { toTimerState := state, taskId } }

/-- `tasks.create` as the engine dispatches it: a task with a period also gets a timer. -/
def createWithTimer (host : Host) (now : ℚ) (spec : TaskSpec) (r : Registry) :
    Except PyError (TaskRecord × Registry) := do
  let (task, r) ← r.create host spec
  match task.timerPeriodSeconds with
  | none => return (task, r)
  | some p => return (task, r.putTimer task.taskId (TimerState.armed now p task.enabled))

/-- `SystemRuntime.create_task`. -/
def createTask (host : Host) (description text : PyStr) (skills : List PyStr) (executor : PyStr)
    (r : Registry) : Except PyError (TaskRecord × Registry) :=
  r.create host { description, text, skills, executor }

/-- `SystemRuntime.create_periodic_task`. -/
def createPeriodicTask (host : Host) (now : ℚ) (description text : PyStr) (skills : List PyStr)
    (periodSeconds : PyNumber) (method executor : PyStr) (agentId : Option PyStr) (r : Registry) :
    Except PyError (TaskRecord × Registry) := do
  raiseIf (skills = [] ∧ agentId = none)
    (PyError.taskStoreError "periodic task requires skills or a target agent_id")
  let p ← periodSeconds.period (PyError.valueError "period_seconds must be > 0")
  let (task, r) ← r.create host
    { description, text, method, skills, timerPeriodSeconds := some (PyNumber.finite p.float.val),
      enabled := true, executor, agentId }
  return (task, r.putTimer task.taskId (TimerState.armed now p.float true))

/-- The new timer of a task whose period is known, made from the old one if there is one. -/
def scheduleTimer (now : ℚ) (taskId : ℤ) (period : Period) (enabled : Bool) (r : Registry) :
    Registry :=
  match r.taskTimers.get? taskId with
  | none => r.putTimer taskId (TimerState.armed now period enabled)
  | some timer => r.putTimer taskId (timer.rearm now period enabled)

/-- `TaskStore.set_enabled`, with a fresh generation unless the old one is preserved. -/
def setEnabled (host : Host) (taskId : ℤ) (enabled preserveGeneration : Bool) (r : Registry) :
    Except PyError (TaskRecord × Registry) := do
  let (task, tasks) ←
    TaskStore.setEnabled (host.uuid4 r.uuids) taskId enabled preserveGeneration r.tasks
  return (task, { r with tasks, uuids := r.uuids + 1 })

/-- `SystemRuntime.start_task`. -/
def startTask (host : Host) (now : ℚ) (taskId : ℤ) (preserveGeneration : Bool) (r : Registry) :
    Except PyError (TaskRecord × Registry) := do
  let (task, r) ← r.setEnabled host taskId true preserveGeneration
  match task.timerPeriodSeconds with
  | none => return (task, r)
  | some period => return (task, r.scheduleTimer now taskId period true)

/-- `SystemRuntime.stop_task`. -/
def stopTask (host : Host) (taskId : ℤ) (preserveGeneration : Bool) (r : Registry) :
    Except PyError (TaskRecord × Registry) := do
  let (task, r) ← r.setEnabled host taskId false preserveGeneration
  match task.timerPeriodSeconds, r.taskTimers.get? taskId with
  | some _, some timer => return (task, r.putTimer taskId timer.disarm)
  | _, _ => return (task, r)

/-- `SystemRuntime.set_task_period`. -/
def setTaskPeriod (host : Host) (now : ℚ) (taskId : ℤ) (periodSeconds : PyNumber) (r : Registry) :
    Except PyError (TaskRecord × Registry) := do
  let current ← TaskStore.require r.tasks taskId
  raiseIf (current.timerPeriodSeconds = none) (PyError.taskStoreError
    (PyStr.ofString "task " ++ PyStr.ofString (toString taskId) ++
      PyStr.ofString " is not timer-driven"))
  let (task, tasks) ←
    TaskStore.setTimerPeriod (host.uuid4 r.uuids) taskId periodSeconds r.tasks
  -- The timer takes the number as it came, and the record `float` of it.
  let period ← periodSeconds.period (PyError.valueError "period_seconds must be > 0")
  return (task, ({ r with tasks, uuids := r.uuids + 1 } : Registry).scheduleTimer now taskId period
    task.enabled)

/-- `TaskStore.set_executor`, with a fresh generation. -/
def setExecutor (host : Host) (taskId : ℤ) (executor : PyStr) (r : Registry) :
    Except PyError (TaskRecord × Registry) := do
  let (task, tasks) ← TaskStore.setExecutor (host.uuid4 r.uuids) taskId executor r.tasks
  return (task, { r with tasks, uuids := r.uuids + 1 })

/-- `EventStore.unregister_task`. -/
def unregisterTask (taskId : ℤ) (r : Registry) : Registry :=
  { r with bindings := EventStore.unregisterTask taskId r.bindings }

/-- `SystemRuntime.delete_task`. -/
def deleteTask (taskId : ℤ) (r : Registry) : Bool × Registry :=
  let (deleted, tasks) := TaskStore.delete taskId r.tasks
  (deleted, { r with tasks, taskTimers := r.taskTimers.erase taskId })

/-- `TaskEngine._delete`. -/
def delete (taskId : ℤ) (r : Registry) : Bool × Registry :=
  let (deleted, r) := r.deleteTask taskId
  (deleted, r.unregisterTask taskId)

/-- `EventStore.register`, which builds a new object. -/
def register (host : Host) (taskId : ℤ) (description : PyStr) (spec : BindingSpec)
    (r : Registry) : Except PyError (EventBinding × Registry) := do
  let (binding, bindings) ←
    EventStore.register host r.objects taskId description spec r.bindings
  return (binding, { r with bindings, objects := r.objects + 1 })

/-- `events.register` as the engine dispatches it: the task must exist. -/
def registerForTask (host : Host) (taskId : ℤ) (description : PyStr) (spec : BindingSpec)
    (r : Registry) : Except PyError (EventBinding × Registry) := do
  let _ ← TaskStore.require r.tasks taskId
  r.register host taskId description spec

/-- `create_external_task`: a task and its binding. -/
def createExternalTask (host : Host) (taskSpec : TaskSpec) (bindingSpec : BindingSpec)
    (r : Registry) : Except PyError (TaskRecord × Registry) := do
  let (task, r) ← r.create host taskSpec
  let (_, r) ← r.register host task.taskId task.description bindingSpec
  return (task, r)

/-! ### What the operations may do -/

/-- Every task of `tasks'` is one of `tasks` whose generation, executor and method stayed, or it
has a generation out of those that `uuid4` handed out in between. -/
def TasksFollow (host : Host) (uuids uuids' : ℕ) (tasks tasks' : TaskTable) : Prop :=
  ∀ k t', tasks'.get? k = some t' →
    (∃ t, tasks.get? k = some t ∧ t.generation = t'.generation ∧ t.executor = t'.executor ∧
      t.method = t'.method) ∨
    ∃ n, uuids ≤ n ∧ n < uuids' ∧ t'.generation = host.uuid4 n

/-- Everything that an operation on tasks and timers may have done. -/
structure KeepsBindings (host : Host) (r r' : Registry) : Prop where
  uuids_le : r.uuids ≤ r'.uuids
  tasks : TasksFollow host r.uuids r'.uuids r.tasks r'.tasks
  bindings : r'.bindings = r.bindings
  objects : r'.objects = r.objects

/-- Everything that an administrative operation may have done to the tasks and the bindings. -/
structure Follows (host : Host) (r r' : Registry) : Prop where
  /-- Identifiers are not handed out twice. -/
  uuids_le : r.uuids ≤ r'.uuids
  /-- Nor are the identities of objects. -/
  objects_le : r.objects ≤ r'.objects
  tasks : TasksFollow host r.uuids r'.uuids r.tasks r'.tasks
  /-- A binding object is an old one, or a new one in normal form. -/
  bindings : ∀ k o', r'.bindings.get? k = some o' →
    r.bindings.get? k = some o' ∨
      (r.objects ≤ o'.id ∧ o'.id < r'.objects ∧ o'.binding.Normal host)

variable {host : Host} {r r' r'' : Registry}

/-- A poll that returns has found no timer too late, and does what it does in exact arithmetic. -/
theorem pollDueFloat_eq_ok_iff {current : ℚ} {busy : Bool} {result : List SystemEvent × Registry} :
    r.pollDueFloat current busy = Except.ok result ↔
      r.pollDue current busy = Except.ok result ∧ r.overflows current = false := by
  unfold pollDueFloat
  rw [bind_eq_ok_iff]
  constructor
  · rintro ⟨result', hpoll, h⟩
    obtain ⟨_, hfits, h⟩ := bind_eq_ok_iff.1 h
    cases h
    exact ⟨hpoll, Bool.eq_false_iff.2 (raiseIf_eq_ok_iff.1 hfits)⟩
  · rintro ⟨hpoll, hfits⟩
    refine ⟨result, hpoll, ?_⟩
    rw [hfits]
    rfl

theorem TasksFollow.refl {n m : ℕ} (tasks : TaskTable) : TasksFollow host n m tasks tasks :=
  fun _ t' h => Or.inl ⟨t', h, rfl, rfl, rfl⟩

theorem TasksFollow.trans {n₀ n₁ n₂ : ℕ} {t₀ t₁ t₂ : TaskTable} (h₀ : n₀ ≤ n₁) (h₁ : n₁ ≤ n₂)
    (h : TasksFollow host n₀ n₁ t₀ t₁) (h' : TasksFollow host n₁ n₂ t₁ t₂) :
    TasksFollow host n₀ n₂ t₀ t₂ := by
  intro k t'' ht''
  rcases h' k t'' ht'' with ⟨t', ht', hg', he', hm'⟩ | ⟨n, hn, hn', hg⟩
  · rcases h k t' ht' with ⟨t, ht, hg, he, hm⟩ | ⟨n, hn, hn', hg⟩
    · exact Or.inl ⟨t, ht, hg.trans hg', he.trans he', hm.trans hm'⟩
    · exact Or.inr ⟨n, hn, by omega, hg'.symm.trans hg⟩
  · exact Or.inr ⟨n, by omega, hn', hg⟩

theorem KeepsBindings.refl (r : Registry) : KeepsBindings host r r :=
  ⟨Nat.le_refl _, TasksFollow.refl _, rfl, rfl⟩

theorem KeepsBindings.trans (h : KeepsBindings host r r') (h' : KeepsBindings host r' r'') :
    KeepsBindings host r r'' where
  uuids_le := h.uuids_le.trans h'.uuids_le
  tasks := h.tasks.trans h.uuids_le h'.uuids_le h'.tasks
  bindings := h'.bindings.trans h.bindings
  objects := h'.objects.trans h.objects

theorem KeepsBindings.follows (h : KeepsBindings host r r') : Follows host r r' where
  uuids_le := h.uuids_le
  objects_le := h.objects.ge
  tasks := h.tasks
  bindings := fun _ _ ho => Or.inl (h.bindings ▸ ho)

theorem Follows.refl (r : Registry) : Follows host r r := (KeepsBindings.refl r).follows

theorem Follows.trans (h : Follows host r r') (h' : Follows host r' r'') :
    Follows host r r'' where
  uuids_le := h.uuids_le.trans h'.uuids_le
  objects_le := h.objects_le.trans h'.objects_le
  tasks := h.tasks.trans h.uuids_le h'.uuids_le h'.tasks
  bindings := by
    intro k o ho
    have hle := h.objects_le
    have hle' := h'.objects_le
    rcases h'.bindings k o ho with ho' | ⟨h₁, h₂, h₃⟩
    · rcases h.bindings k o ho' with ho'' | ⟨h₁, h₂, h₃⟩
      · exact Or.inl ho''
      · exact Or.inr ⟨h₁, by omega, h₃⟩
    · exact Or.inr ⟨by omega, h₂, h₃⟩

/-- Changing only timers. -/
theorem keeps_of_timers (ht : r'.tasks = r.tasks) (hb : r'.bindings = r.bindings)
    (hu : r'.uuids = r.uuids) (ho : r'.objects = r.objects) : KeepsBindings host r r' where
  uuids_le := hu.ge
  tasks := by
    rw [ht]
    exact TasksFollow.refl _
  bindings := hb
  objects := ho

/-- Handing out an identifier. -/
theorem keeps_nextUuid : KeepsBindings host r { r with uuids := r.uuids + 1 } where
  uuids_le := Nat.le_succ _
  tasks := TasksFollow.refl _
  bindings := rfl
  objects := rfl

theorem keeps_putTimer (taskId : ℤ) (state : TimerState) :
    KeepsBindings host r (r.putTimer taskId state) := keeps_of_timers rfl rfl rfl rfl

theorem keeps_scheduleTimer (now : ℚ) (taskId : ℤ) (period : Period) (enabled : Bool) :
    KeepsBindings host r (r.scheduleTimer now taskId period enabled) := by
  unfold scheduleTimer
  split <;> exact keeps_putTimer _ _

/-- Writing a task with a fresh generation, or one that keeps generation, executor and method. -/
theorem keeps_putTask (record : TaskRecord)
    (h : record.generation = host.uuid4 r.uuids ∨ ∃ t, r.tasks.get? record.taskId = some t ∧
      t.generation = record.generation ∧ t.executor = record.executor ∧
      t.method = record.method) :
    KeepsBindings host r { r with tasks := r.tasks.put record, uuids := r.uuids + 1 } where
  uuids_le := Nat.le_succ _
  tasks := by
    intro k t' ht'
    by_cases hk : record.taskId = k
    · subst hk
      obtain rfl : record = t' := Option.some.inj ((Table.get?_put_self _ _).symm.trans ht')
      rcases h with h | h
      · exact Or.inr ⟨r.uuids, Nat.le_refl _, Nat.lt_succ_self _, h⟩
      · exact Or.inl h
    · exact Or.inl ⟨t', (Table.get?_put_of_ne _ hk).symm.trans ht', rfl, rfl, rfl⟩
  bindings := rfl
  objects := rfl

theorem keeps_create {spec : TaskSpec} {task : TaskRecord}
    (h : r.create host spec = Except.ok (task, r')) : KeepsBindings host r r' := by
  obtain ⟨⟨task', tasks⟩, hc, h⟩ := bind_eq_ok_iff.1 h
  cases h
  obtain ⟨_, hg, rfl⟩ := TaskStore.create_spec hc
  exact keeps_putTask _ (Or.inl hg)

theorem keeps_createWithTimer {now : ℚ} {spec : TaskSpec} {task : TaskRecord}
    (h : r.createWithTimer host now spec = Except.ok (task, r')) : KeepsBindings host r r' := by
  obtain ⟨⟨task', r₁⟩, hc, h⟩ := bind_eq_ok_iff.1 h
  have hf := keeps_create hc
  cases hp : task'.timerPeriodSeconds with
  | none =>
      simp only [hp] at h
      cases h
      exact hf
  | some p =>
      simp only [hp] at h
      cases h
      exact hf.trans (keeps_putTimer _ _)

theorem keeps_createPeriodicTask {now : ℚ} {description text : PyStr} {skills : List PyStr}
    {periodSeconds : PyNumber} {method executor : PyStr} {agentId : Option PyStr}
    {task : TaskRecord} (h : r.createPeriodicTask host now description text skills periodSeconds
      method executor agentId = Except.ok (task, r')) : KeepsBindings host r r' := by
  obtain ⟨_, _, h⟩ := bind_eq_ok_iff.1 h
  obtain ⟨p, _, h⟩ := bind_eq_ok_iff.1 h
  obtain ⟨⟨task', r₁⟩, hc, h⟩ := bind_eq_ok_iff.1 h
  cases h
  exact (keeps_create hc).trans (keeps_putTimer _ _)

theorem keeps_setEnabled {taskId : ℤ} {enabled preserve : Bool} {task : TaskRecord}
    (h : r.setEnabled host taskId enabled preserve = Except.ok (task, r')) :
    KeepsBindings host r r' := by
  obtain ⟨⟨task', tasks⟩, hc, h⟩ := bind_eq_ok_iff.1 h
  cases h
  obtain ⟨current, hcur, rfl, rfl⟩ := TaskStore.replace_spec hc
  refine keeps_putTask _ ?_
  cases preserve with
  | false => exact Or.inl rfl
  | true =>
      refine Or.inr ⟨current, ?_, rfl, rfl, rfl⟩
      rwa [← Table.key_of_get? hcur] at hcur

theorem keeps_startTask {now : ℚ} {taskId : ℤ} {preserve : Bool} {task : TaskRecord}
    (h : r.startTask host now taskId preserve = Except.ok (task, r')) : KeepsBindings host r r' := by
  obtain ⟨⟨task', r₁⟩, hc, h⟩ := bind_eq_ok_iff.1 h
  have hf := keeps_setEnabled hc
  cases hp : task'.timerPeriodSeconds with
  | none =>
      simp only [hp] at h
      cases h
      exact hf
  | some p =>
      simp only [hp] at h
      cases h
      exact hf.trans (keeps_scheduleTimer _ _ _ _)

theorem keeps_stopTask {taskId : ℤ} {preserve : Bool} {task : TaskRecord}
    (h : r.stopTask host taskId preserve = Except.ok (task, r')) : KeepsBindings host r r' := by
  obtain ⟨⟨task', r₁⟩, hc, h⟩ := bind_eq_ok_iff.1 h
  have hf := keeps_setEnabled hc
  simp only at h
  split at h
  · cases h
    exact hf.trans (keeps_putTimer _ _)
  · cases h
    exact hf

theorem tasks_scheduleTimer (now : ℚ) (taskId : ℤ) (period : Period) (enabled : Bool)
    (r : Registry) : (r.scheduleTimer now taskId period enabled).tasks = r.tasks := by
  unfold scheduleTimer
  split
  · rfl
  · rfl

/-- What `set_task_period` writes: the number to the timer, and `float` of it to the task. -/
theorem setTaskPeriod_spec {now : ℚ} {taskId : ℤ} {periodSeconds : PyNumber} {task : TaskRecord}
    (h : r.setTaskPeriod host now taskId periodSeconds = Except.ok (task, r')) :
    ∃ (current : TaskRecord) (p : Period), task.taskId = taskId ∧
      periodSeconds = PyNumber.finite p.val ∧
      task = { current with
        timerPeriodSeconds := some p.float, generation := host.uuid4 r.uuids } ∧
      r' = ({ r with tasks := r.tasks.put task, uuids := r.uuids + 1 } : Registry).scheduleTimer
        now taskId p task.enabled := by
  obtain ⟨_, _, h⟩ := bind_eq_ok_iff.1 h
  obtain ⟨_, _, h⟩ := bind_eq_ok_iff.1 h
  obtain ⟨⟨task', tasks⟩, hc, h⟩ := bind_eq_ok_iff.1 h
  obtain ⟨p, hp, hc⟩ := bind_eq_ok_iff.1 hc
  obtain ⟨current, hcurrent, rfl, rfl⟩ := TaskStore.replace_spec hc
  have hid : current.taskId = taskId := Table.key_of_get? hcurrent
  rw [hp] at h
  cases h
  exact ⟨current, p, hid, (PyNumber.period_eq_ok_iff.1 hp).1, rfl, rfl⟩

theorem keeps_setTaskPeriod {now : ℚ} {taskId : ℤ} {periodSeconds : PyNumber}
    {task : TaskRecord}
    (h : r.setTaskPeriod host now taskId periodSeconds = Except.ok (task, r')) :
    KeepsBindings host r r' := by
  obtain ⟨current, p, _, _, rfl, rfl⟩ := setTaskPeriod_spec h
  exact (keeps_putTask _ (Or.inl rfl)).trans (keeps_scheduleTimer _ _ _ _)

theorem keeps_setExecutor {taskId : ℤ} {executor : PyStr} {task : TaskRecord}
    (h : r.setExecutor host taskId executor = Except.ok (task, r')) : KeepsBindings host r r' := by
  obtain ⟨⟨task', tasks⟩, hc, h⟩ := bind_eq_ok_iff.1 h
  cases h
  obtain ⟨p, _, hc⟩ := bind_eq_ok_iff.1 hc
  obtain ⟨current, hcur, rfl, rfl⟩ := TaskStore.replace_spec hc
  exact keeps_putTask _ (Or.inl rfl)

theorem follows_unregisterTask (taskId : ℤ) : Follows host r (r.unregisterTask taskId) where
  uuids_le := Nat.le_refl _
  objects_le := Nat.le_refl _
  tasks := TasksFollow.refl _
  bindings := fun _ _ h => Or.inl (Table.get?_filter_eq_some.1 h).1

theorem keeps_deleteTask (taskId : ℤ) : KeepsBindings host r (r.deleteTask taskId).2 where
  uuids_le := Nat.le_refl _
  tasks := by
    intro k t' ht'
    refine Or.inl ⟨t', ?_, rfl, rfl, rfl⟩
    simp only [deleteTask, TaskStore.delete] at ht'
    split at ht'
    · exact ht'
    · rw [Table.get?_erase] at ht'
      split_ifs at ht'
      exact ht'
  bindings := rfl
  objects := rfl

theorem follows_delete (taskId : ℤ) : Follows host r (r.delete taskId).2 :=
  (keeps_deleteTask taskId).follows.trans (follows_unregisterTask taskId)

/-- A binding that is registered is a new object in normal form, under its event name. -/
theorem register_spec {taskId : ℤ} {description : PyStr} {spec : BindingSpec}
    {b : EventBinding} (h : r.register host taskId description spec = Except.ok (b, r')) :
    r' = { r with bindings := r.bindings.put ⟨r.objects, b⟩, objects := r.objects + 1 } ∧
      b.Normal host ∧ b.name = PyStr.strip (EventStore.eventName host taskId spec) := by
  obtain ⟨⟨b', bindings⟩, hc, h⟩ := bind_eq_ok_iff.1 h
  cases h
  obtain ⟨hn, _, rfl, hname, _⟩ := EventStore.register_spec hc
  exact ⟨rfl, hn, hname⟩

theorem follows_register {taskId : ℤ} {description : PyStr} {spec : BindingSpec}
    {b : EventBinding} (h : r.register host taskId description spec = Except.ok (b, r')) :
    Follows host r r' := by
  obtain ⟨rfl, hn, _⟩ := register_spec h
  refine ⟨Nat.le_refl _, Nat.le_succ _, TasksFollow.refl _, ?_⟩
  intro k o' ho'
  rw [Table.get?_put] at ho'
  split_ifs at ho' with hk
  · cases ho'
    exact Or.inr ⟨Nat.le_refl _, Nat.lt_succ_self _, hn⟩
  · exact Or.inl ho'

theorem follows_registerForTask {taskId : ℤ} {description : PyStr} {spec : BindingSpec}
    {b : EventBinding}
    (h : r.registerForTask host taskId description spec = Except.ok (b, r')) :
    Follows host r r' := by
  obtain ⟨_, _, h⟩ := bind_eq_ok_iff.1 h
  exact follows_register h

theorem follows_createExternalTask {taskSpec : TaskSpec} {bindingSpec : BindingSpec}
    {task : TaskRecord}
    (h : r.createExternalTask host taskSpec bindingSpec = Except.ok (task, r')) :
    Follows host r r' := by
  obtain ⟨⟨task', r₁⟩, hc, h⟩ := bind_eq_ok_iff.1 h
  obtain ⟨⟨b, r₂⟩, hb, h⟩ := bind_eq_ok_iff.1 h
  cases h
  exact (keeps_create hc).follows.trans (follows_register hb)

theorem keeps_pollDue {current : ℚ} {busy : Bool} {events : List SystemEvent}
    (h : r.pollDue current busy = Except.ok (events, r')) : KeepsBindings host r r' := by
  unfold pollDue at h
  obtain ⟨_, _, h⟩ := bind_eq_ok_iff.1 h
  cases h
  exact keeps_of_timers rfl rfl rfl rfl

end Registry
