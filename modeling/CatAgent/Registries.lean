/-
**The registries belong together.**

Tasks, task timers and event bindings are three tables, and every administrative operation edits
the ones that it concerns.  A task timer belongs to a task and has its period and its flag, a task
with a period has a timer, and a binding names a task.

`create_external_task` takes the arguments of `tasks.create`, a period among them, but arms no
timer.  It is the only operation that can leave a task with a period and no timer.  And
`set_task_period` gives the timer the number that it was called with, and the task `float` of it,
which is another number if an int has too many digits.

Main definitions:

* `Registry.Matches`, `Registry.Consistent` — a task and its timer, and the three tables;
* `AdminOp.SplitsPeriod`, `Input.SplitsPeriod` — the inputs that create an external task with a
  period, or set a period that is no float;
* `Tables.tiedPeriods` — the steps without such an operation.

Main results:

* `Registry.Consistent.put` — writing a task together with its timer;
* `Registry.consistent_apply`, `Tables.step_consistent` — what one operation and one step preserve;
* `TaskEngine.registryConsistent` — **the registries are consistent in every run without such an
  input, and any such input that returns breaks them**;
* `TaskEngine.not_registryConsistent` — such a run.
-/

import CatAgent.Lifecycle

set_option relaxedAutoImplicit false
set_option autoImplicit false

namespace TaskStore

variable {host : Host} {generation : PyStr} {spec : TaskSpec} {tasks tasks' : TaskTable}
  {record : TaskRecord}

/-- What a created task takes over from its arguments. -/
theorem create_fields (h : create host generation spec tasks = Except.ok (record, tasks')) :
    validatePeriod [] spec.timerPeriodSeconds = Except.ok record.timerPeriodSeconds ∧
      record.enabled = spec.enabled := by
  unfold create at h
  obtain ⟨executor, _, h⟩ := bind_eq_ok_iff.1 h
  obtain ⟨⟨m, period⟩, hv, h⟩ := bind_eq_ok_iff.1 h
  have hperiod : validatePeriod [] spec.timerPeriodSeconds = Except.ok period := by
    unfold validateRecord at hv
    obtain ⟨_, _, hv⟩ := bind_eq_ok_iff.1 hv
    obtain ⟨_, _, hv⟩ := bind_eq_ok_iff.1 hv
    simp only at hv
    split at hv
    · obtain ⟨_, _, hv⟩ := bind_eq_ok_iff.1 hv
      obtain ⟨_, _, hv⟩ := bind_eq_ok_iff.1 hv
      obtain ⟨_, _, hv⟩ := bind_eq_ok_iff.1 hv
      obtain ⟨_, _, hv⟩ := bind_eq_ok_iff.1 hv
      obtain ⟨period', hperiod, hv⟩ := bind_eq_ok_iff.1 hv
      cases hv
      exact hperiod
    · cases hv
  cases hid : firstFreeId tasks with
  | none =>
      simp only [hid] at h
      cases h
  | some k =>
      simp only [hid] at h
      cases h
      exact ⟨hperiod, rfl⟩

/-- The period of a created task is the number that was given, if there was one. -/
theorem period_of_create (h : create host generation spec tasks = Except.ok (record, tasks')) :
    spec.timerPeriodSeconds = record.timerPeriodSeconds.map fun p => PyNumber.finite p.val := by
  have hv := (create_fields h).1
  cases hs : spec.timerPeriodSeconds with
  | none =>
      rw [hs] at hv
      simp [← Except.ok.inj hv]
  | some x =>
      rw [hs] at hv
      unfold validatePeriod at hv
      dsimp only at hv
      cases hx : x.period (PyError.taskStoreError
          (PyStr.ofString "timer_period_seconds must be > 0" ++ [])) with
      | error e =>
          rw [hx] at hv
          cases hv
      | ok p =>
          rw [hx] at hv
          rw [← Except.ok.inj hv, Option.map_some, (PyNumber.period_eq_ok_iff.1 hx).1]

theorem untimed_of_create (h : create host generation spec tasks = Except.ok (record, tasks'))
    (hspec : spec.timerPeriodSeconds = none) : record.timerPeriodSeconds = none :=
  Option.map_eq_none_iff.1 ((period_of_create h).symm.trans hspec)

end TaskStore

/-- `float(x) != x`. -/
def PyNumber.Rounds (x : PyNumber) : Prop :=
  ∃ p : Period, x = PyNumber.finite p.val ∧ p.float ≠ p

/-- An operation that creates an external task with a period, or sets a period that is no float. -/
def AdminOp.SplitsPeriod : AdminOp → Prop
  | AdminOp.createExternalTask spec _ => spec.timerPeriodSeconds ≠ none
  | AdminOp.setTaskPeriod _ period => period.Rounds
  | _ => False

namespace Registry

/-- A timer fits its task. -/
structure Matches (task : TaskRecord) (timer : TimerState) : Prop where
  period : task.timerPeriodSeconds = some timer.periodSeconds
  enabled : timer.enabled = task.enabled
  /-- It has a deadline exactly if it is enabled. -/
  armed : timer.nextFireMonotonic.isSome = timer.enabled

/-- The three tables belong together. -/
structure Consistent (r : Registry) : Prop where
  timer : ∀ k timer, r.taskTimers.get? k = some timer →
    ∃ task, r.tasks.get? k = some task ∧ Matches task timer.toTimerState
  timed : ∀ k task, r.tasks.get? k = some task → task.timerPeriodSeconds ≠ none →
    r.taskTimers.get? k ≠ none
  binding : ∀ k o, r.bindings.get? k = some o → r.tasks.get? o.binding.taskId ≠ none

variable {host : Host} {r r' : Registry} {taskId : ℤ} {task record : TaskRecord} {now : ℚ}

/-- **A task is written together with its timer**, and no other task or timer changes. -/
theorem Consistent.put (h : Consistent r) (record : TaskRecord)
    (htasks : r'.tasks = r.tasks.put record)
    (hbindings : r'.bindings = r.bindings)
    (hother : ∀ k, record.taskId ≠ k → r'.taskTimers.get? k = r.taskTimers.get? k)
    (htimer : ∀ timer, r'.taskTimers.get? record.taskId = some timer →
      Matches record timer.toTimerState)
    (htimed : record.timerPeriodSeconds ≠ none → r'.taskTimers.get? record.taskId ≠ none) :
    Consistent r' where
  timer := by
    intro k timer hk
    rw [htasks, Table.get?_put]
    split_ifs with heq
    · subst heq
      exact ⟨record, rfl, htimer timer hk⟩
    · rw [hother k heq] at hk
      exact h.timer k timer hk
  timed := by
    intro k task hk hp
    rw [htasks, Table.get?_put] at hk
    split_ifs at hk with heq
    · subst heq
      cases hk
      exact htimed hp
    · rw [hother k heq]
      exact h.timed k task hk hp
  binding := by
    intro k o hk
    rw [hbindings] at hk
    rw [htasks, Table.get?_put]
    split_ifs with heq
    · simp
    · exact h.binding k o hk

/-- A task without a period has no timer. -/
theorem Consistent.no_timer (h : Consistent r)
    (hnone : ∀ task, r.tasks.get? taskId = some task → task.timerPeriodSeconds = none) :
    r.taskTimers.get? taskId = none := by
  cases hget : r.taskTimers.get? taskId with
  | none => rfl
  | some timer =>
      obtain ⟨task, htask, hm⟩ := h.timer taskId timer hget
      have hp := hm.period
      rw [hnone task htask] at hp
      cases hp

/-! ### Timers -/

theorem matches_armed {p : Period} {enabled : Bool} (hp : task.timerPeriodSeconds = some p) (he : task.enabled = enabled) :
    Matches task (TimerState.armed now p enabled) := by
  refine ⟨hp, he.symm, ?_⟩
  cases enabled with
  | true => rfl
  | false => rfl

theorem matches_rearm {timer : TimerState} {p : Period} {enabled : Bool}
    (hp : task.timerPeriodSeconds = some p) (he : task.enabled = enabled) :
    Matches task (timer.rearm now p enabled) := by
  refine ⟨hp, he.symm, ?_⟩
  cases enabled with
  | true => rfl
  | false => rfl

theorem get?_putTimer (taskId : ℤ) (state : TimerState) (r : Registry) (k : ℤ) :
    (r.putTimer taskId state).taskTimers.get? k =
      if taskId = k then some { toTimerState := state, taskId } else r.taskTimers.get? k :=
  Table.get?_put _ _ _

/-- A scheduled timer fits the task. -/
theorem matches_scheduleTimer {p : Period} {enabled : Bool} {timer : TaskTimerSpec}
    (hp : task.timerPeriodSeconds = some p) (he : task.enabled = enabled)
    (h : (r.scheduleTimer now taskId p enabled).taskTimers.get? taskId = some timer) :
    Matches task timer.toTimerState := by
  unfold scheduleTimer at h
  split at h
  · rw [get?_putTimer, if_pos rfl] at h
    cases h
    exact matches_armed hp he
  · rw [get?_putTimer, if_pos rfl] at h
    cases h
    exact matches_rearm hp he

/-- There is such a timer. -/
theorem exists_scheduleTimer (r : Registry) (now : ℚ) (taskId : ℤ) (p : Period) (enabled : Bool) :
    ∃ timer, (r.scheduleTimer now taskId p enabled).taskTimers.get? taskId = some timer ∧
      timer.periodSeconds = p := by
  unfold scheduleTimer
  split
  · rw [get?_putTimer, if_pos rfl]
    exact ⟨_, rfl, rfl⟩
  · rw [get?_putTimer, if_pos rfl]
    exact ⟨_, rfl, rfl⟩

theorem get?_scheduleTimer_of_ne {p : Period} {enabled : Bool} {k : ℤ} (hk : taskId ≠ k) :
    (r.scheduleTimer now taskId p enabled).taskTimers.get? k = r.taskTimers.get? k := by
  unfold scheduleTimer
  split
  · rw [get?_putTimer, if_neg hk]
  · rw [get?_putTimer, if_neg hk]

/-- A poll changes neither the period nor the flag of a timer, nor whether it has a deadline. -/
theorem matches_poll {current : ℚ} {busy : Bool} {timer : TimerState} (h : Matches task timer) :
    Matches task (timer.poll current busy) := by
  unfold TimerState.poll
  split_ifs
  · exact ⟨h.period, h.enabled, by simpa [TimerState.fire] using h.armed⟩
  · exact h

/-! ### Operations -/

/-- A created task is written with an armed timer, or has no period. -/
theorem consistent_create {spec : TaskSpec} (h : Consistent r)
    (hc : r.create host spec = Except.ok (record, r'))
    (hnone : record.timerPeriodSeconds = none) : Consistent r' := by
  obtain ⟨⟨record', tasks⟩, hc', heq⟩ := bind_eq_ok_iff.1 hc
  cases heq
  obtain ⟨hfree, _, rfl⟩ := TaskStore.create_spec hc'
  have hno : r.taskTimers.get? record.taskId = none :=
    h.no_timer fun task htask => by rw [hfree] at htask; cases htask
  refine h.put record rfl rfl (fun _ _ => rfl) (fun timer htimer => ?_)
    fun hp => absurd hnone hp
  rw [hno] at htimer
  cases htimer

theorem consistent_create_putTimer {spec : TaskSpec} {p : Period} {enabled : Bool}
    (h : Consistent r) (hc : r.create host spec = Except.ok (record, r'))
    (hp : record.timerPeriodSeconds = some p) (he : record.enabled = enabled) :
    Consistent (r'.putTimer record.taskId (TimerState.armed now p enabled)) := by
  obtain ⟨⟨record', tasks⟩, hc', heq⟩ := bind_eq_ok_iff.1 hc
  cases heq
  obtain ⟨_, _, rfl⟩ := TaskStore.create_spec hc'
  refine h.put record rfl rfl (fun k hk => ?_) (fun timer htimer => ?_) fun _ => ?_
  · rw [get?_putTimer, if_neg hk]
  · rw [get?_putTimer, if_pos rfl] at htimer
    cases htimer
    exact matches_armed hp he
  · rw [get?_putTimer, if_pos rfl]
    exact nofun

theorem consistent_createWithTimer {spec : TaskSpec} (h : Consistent r)
    (hc : r.createWithTimer host now spec = Except.ok (record, r')) : Consistent r' := by
  obtain ⟨⟨record', r₁⟩, hc', hr⟩ := bind_eq_ok_iff.1 hc
  cases hp : record'.timerPeriodSeconds with
  | none =>
      simp only [hp] at hr
      cases hr
      exact consistent_create h hc' hp
  | some p =>
      simp only [hp] at hr
      cases hr
      exact consistent_create_putTimer h hc' hp rfl

theorem consistent_createPeriodicTask {description text method executor : PyStr}
    {skills : List PyStr} {periodSeconds : PyNumber} {agentId : Option PyStr} (h : Consistent r)
    (hc : r.createPeriodicTask host now description text skills periodSeconds method executor
      agentId = Except.ok (record, r')) : Consistent r' := by
  obtain ⟨_, _, hc⟩ := bind_eq_ok_iff.1 hc
  obtain ⟨p, _, hc⟩ := bind_eq_ok_iff.1 hc
  obtain ⟨⟨record', r₁⟩, hc', hr⟩ := bind_eq_ok_iff.1 hc
  cases hr
  obtain ⟨⟨record₁, tasks⟩, hcreate, heq⟩ := bind_eq_ok_iff.1 hc'
  cases heq
  obtain ⟨p', hrecord, hp'⟩ := Option.map_eq_some_iff.1 (TaskStore.period_of_create hcreate).symm
  have hperiod : record.timerPeriodSeconds = some p.float := by
    rw [hrecord, Subtype.ext (PyNumber.finite.inj hp')]
  exact consistent_create_putTimer h hc' hperiod (TaskStore.create_fields hcreate).2

/-- Replacing a task by one with the same period and the same flag. -/
theorem consistent_replace {f : TaskRecord → TaskRecord} {tasks : TaskTable} (h : Consistent r)
    (hc : TaskStore.replace r.tasks taskId f = Except.ok (record, tasks))
    (hf : ∀ task, (f task).taskId = task.taskId ∧
      (f task).timerPeriodSeconds = task.timerPeriodSeconds ∧ (f task).enabled = task.enabled) :
    Consistent { r with tasks, uuids := r.uuids + 1 } := by
  obtain ⟨current, hcurrent, rfl, rfl⟩ := TaskStore.replace_spec hc
  have hid : (f current).taskId = taskId :=
    (hf current).1.trans (Table.key_of_get? (t := r.tasks) hcurrent)
  refine h.put (f current) rfl rfl (fun _ _ => rfl) (fun timer htimer => ?_)
    fun hp => ?_
  · rw [hid] at htimer
    obtain ⟨task, htask, hm⟩ := h.timer taskId timer htimer
    rw [hcurrent] at htask
    cases htask
    exact ⟨(hf current).2.1.trans hm.period, hm.enabled.trans (hf current).2.2.symm, hm.armed⟩
  · rw [(hf current).2.1] at hp
    rw [hid]
    exact h.timed taskId current hcurrent hp

theorem consistent_setExecutor {executor : PyStr} (h : Consistent r)
    (hc : r.setExecutor host taskId executor = Except.ok (record, r')) : Consistent r' := by
  obtain ⟨⟨record', tasks⟩, hc', heq⟩ := bind_eq_ok_iff.1 hc
  cases heq
  obtain ⟨p, _, hc'⟩ := bind_eq_ok_iff.1 hc'
  exact consistent_replace h hc' fun _ => ⟨rfl, rfl, rfl⟩

/-- What `TaskStore.set_enabled` writes. -/
theorem setEnabled_spec {enabled preserve : Bool}
    (hc : r.setEnabled host taskId enabled preserve = Except.ok (record, r')) :
    ∃ current, r.tasks.get? taskId = some current ∧ record.taskId = taskId ∧
      record.timerPeriodSeconds = current.timerPeriodSeconds ∧ record.enabled = enabled ∧
      r' = { r with tasks := r.tasks.put record, uuids := r.uuids + 1 } := by
  obtain ⟨⟨record', tasks⟩, hc', heq⟩ := bind_eq_ok_iff.1 hc
  cases heq
  unfold TaskStore.setEnabled at hc'
  obtain ⟨current, hcurrent, rfl, rfl⟩ := TaskStore.replace_spec hc'
  have hid := Table.key_of_get? (t := r.tasks) hcurrent
  exact ⟨current, hcurrent, hid, rfl, rfl, rfl⟩

/-- A task that is written with a scheduled timer. -/
theorem Consistent.put_schedule {p : Period} {enabled : Bool} (h : Consistent r)
    (record : TaskRecord) (htasks : r'.tasks = r.tasks.put record) (hbindings : r'.bindings = r.bindings)
    (htimers : r'.taskTimers = r.taskTimers) (hp : record.timerPeriodSeconds = some p)
    (he : record.enabled = enabled) :
    Consistent (r'.scheduleTimer now record.taskId p enabled) := by
  have hsame : (r'.scheduleTimer now record.taskId p enabled).tasks = r'.tasks ∧
      (r'.scheduleTimer now record.taskId p enabled).bindings = r'.bindings := by
    unfold scheduleTimer
    split
    · exact ⟨rfl, rfl⟩
    · exact ⟨rfl, rfl⟩
  refine h.put record (hsame.1.trans htasks) (hsame.2.trans hbindings)
    (fun k hk => ?_) (fun timer htimer => ?_) fun _ => ?_
  · rw [get?_scheduleTimer_of_ne hk, htimers]
  · exact matches_scheduleTimer hp he htimer
  · obtain ⟨timer, htimer, _⟩ := exists_scheduleTimer r' now record.taskId p enabled
    rw [htimer]
    exact Option.some_ne_none timer

/-- A task without a period is written; there is no timer to be written. -/
theorem Consistent.put_untimed {current : TaskRecord} (h : Consistent r)
    (hcurrent : r.tasks.get? taskId = some current) (hid : record.taskId = taskId)
    (htasks : r'.tasks = r.tasks.put record) (hbindings : r'.bindings = r.bindings)
    (htimers : r'.taskTimers = r.taskTimers) (hp : record.timerPeriodSeconds = none)
    (hsame : record.timerPeriodSeconds = current.timerPeriodSeconds) : Consistent r' := by
  have hno : r.taskTimers.get? taskId = none := by
    refine h.no_timer fun task htask => ?_
    rw [hcurrent] at htask
    cases htask
    exact hsame.symm.trans hp
  refine h.put record htasks hbindings (fun k _ => by rw [htimers])
    (fun timer htimer => ?_) fun hne => absurd hp hne
  rw [htimers, hid, hno] at htimer
  cases htimer

theorem consistent_startTask {preserve : Bool} (h : Consistent r)
    (hc : r.startTask host now taskId preserve = Except.ok (record, r')) : Consistent r' := by
  obtain ⟨⟨record', r₁⟩, hc', hr⟩ := bind_eq_ok_iff.1 hc
  obtain ⟨current, hcurrent, hid, hperiod, henabled, rfl⟩ := setEnabled_spec hc'
  cases hp : record'.timerPeriodSeconds with
  | none =>
      simp only [hp] at hr
      cases hr
      exact h.put_untimed hcurrent hid rfl rfl rfl hp hperiod
  | some p =>
      simp only [hp] at hr
      cases hr
      subst hid
      exact h.put_schedule record rfl rfl rfl hp henabled

theorem consistent_stopTask {preserve : Bool} (h : Consistent r)
    (hc : r.stopTask host taskId preserve = Except.ok (record, r')) : Consistent r' := by
  obtain ⟨⟨record', r₁⟩, hc', hr⟩ := bind_eq_ok_iff.1 hc
  obtain ⟨current, hcurrent, hid, hperiod, henabled, rfl⟩ := setEnabled_spec hc'
  cases hp : record'.timerPeriodSeconds with
  | none =>
      simp only [hp] at hr
      cases hr
      exact h.put_untimed hcurrent hid rfl rfl rfl hp hperiod
  | some p =>
      -- A task with a period has a timer, which is disarmed.
      have hne := h.timed taskId current hcurrent (by rw [← hperiod, hp]; simp)
      obtain ⟨timer, htimer⟩ := Option.ne_none_iff_exists'.1 hne
      simp only [hp, htimer] at hr
      cases hr
      obtain ⟨task, htask, hm⟩ := h.timer taskId timer htimer
      rw [hcurrent] at htask
      cases htask
      subst hid
      refine h.put record rfl rfl (fun k hk => ?_) (fun timer' htimer' => ?_)
        fun _ => ?_
      · rw [get?_putTimer, if_neg hk]
      · rw [get?_putTimer, if_pos rfl] at htimer'
        cases htimer'
        exact ⟨hperiod.trans hm.period, henabled.symm, rfl⟩
      · rw [get?_putTimer, if_pos rfl]
        simp

/-- A number that is a float is written to the task and to the timer. -/
theorem consistent_setTaskPeriod {period : PyNumber} (h : Consistent r) (hfloat : ¬ period.Rounds)
    (hc : r.setTaskPeriod host now taskId period = Except.ok (record, r')) : Consistent r' := by
  obtain ⟨current, p, rfl, hp, hrecord, rfl⟩ := setTaskPeriod_spec hc
  have hperiod : record.timerPeriodSeconds = some p := by
    rw [hrecord]
    exact congrArg some (not_not.1 fun hne => hfloat ⟨p, hp, hne⟩)
  exact h.put_schedule record rfl rfl rfl hperiod rfl

/-- **A number that is no float splits the period**: the timer takes it, and the task does not. -/
theorem not_consistent_setTaskPeriod {period : PyNumber} (hround : period.Rounds)
    (hc : r.setTaskPeriod host now taskId period = Except.ok (record, r')) : ¬ Consistent r' := by
  intro h
  obtain ⟨current, p, hid, hp, hrecord, rfl⟩ := setTaskPeriod_spec hc
  obtain ⟨p', hp', hne⟩ := hround
  obtain rfl : p = p' := Subtype.ext (PyNumber.finite.inj (hp.symm.trans hp'))
  obtain ⟨timer, htimer, hsplit⟩ := exists_scheduleTimer
    { r with tasks := r.tasks.put record, uuids := r.uuids + 1 } now taskId p record.enabled
  obtain ⟨task, htask, hm⟩ := h.timer taskId timer htimer
  rw [tasks_scheduleTimer, ← hid, Table.get?_put_self] at htask
  cases htask
  have hperiod := hm.period
  rw [hrecord, hsplit] at hperiod
  exact hne (Option.some.inj hperiod)

theorem consistent_delete (h : Consistent r) (taskId : ℤ) : Consistent (r.delete taskId).2 := by
  have htasks : ∀ k, taskId ≠ k → (r.delete taskId).2.tasks.get? k = r.tasks.get? k := by
    intro k hk
    change (TaskStore.delete taskId r.tasks).2.get? k = _
    unfold TaskStore.delete
    split
    · rfl
    · exact Table.get?_erase_of_ne _ hk
  have hgone : (r.delete taskId).2.tasks.get? taskId = none := by
    change (TaskStore.delete taskId r.tasks).2.get? taskId = none
    unfold TaskStore.delete
    split
    · assumption
    · exact Table.get?_erase_self _ _
  have htimers : ∀ k, (r.delete taskId).2.taskTimers.get? k =
      if taskId = k then none else r.taskTimers.get? k := fun k => Table.get?_erase _ _ _
  refine ⟨fun k timer hk => ?_, fun k task hk hp => ?_, fun k o hk => ?_⟩
  · rw [htimers] at hk
    split_ifs at hk with heq
    rw [htasks k heq]
    exact h.timer k timer hk
  · by_cases heq : taskId = k
    · subst heq
      rw [hgone] at hk
      cases hk
    · rw [htasks k heq] at hk
      rw [htimers, if_neg heq]
      exact h.timed k task hk hp
  · obtain ⟨hold, hother⟩ := Table.get?_filter_eq_some.1 hk
    have hne : o.binding.taskId ≠ taskId := by simpa using hother
    rw [htasks _ hne.symm]
    exact h.binding k o hold

theorem consistent_unregisterTask (h : Consistent r) (taskId : ℤ) :
    Consistent (r.unregisterTask taskId) :=
  ⟨h.timer, h.timed, fun k o hk => h.binding k o (Table.get?_filter_eq_some.1 hk).1⟩

/-- A binding is registered for a task that exists. -/
theorem consistent_register {description : PyStr} {spec : BindingSpec} {b : EventBinding}
    (h : Consistent r) (htask : r.tasks.get? taskId ≠ none)
    (hc : r.register host taskId description spec = Except.ok (b, r')) : Consistent r' := by
  obtain ⟨⟨b', bindings⟩, hc', heq⟩ := bind_eq_ok_iff.1 hc
  cases heq
  obtain ⟨_, hid, rfl, _⟩ := EventStore.register_spec hc'
  refine ⟨h.timer, h.timed, fun k o hk => ?_⟩
  change (r.bindings.put ⟨r.objects, b⟩).get? k = some o at hk
  rw [Table.get?_put] at hk
  split_ifs at hk with heq
  · cases hk
    change r.tasks.get? b.taskId ≠ none
    rw [hid]
    exact htask
  · exact h.binding k o hk

/-- An external task without a period. -/
theorem consistent_createExternalTask {spec : TaskSpec} {binding : BindingSpec}
    (h : Consistent r) (hspec : spec.timerPeriodSeconds = none)
    (hc : r.createExternalTask host spec binding = Except.ok (record, r')) : Consistent r' := by
  obtain ⟨⟨record', r₁⟩, hc', hr⟩ := bind_eq_ok_iff.1 hc
  obtain ⟨⟨b, r₂⟩, hreg, hr⟩ := bind_eq_ok_iff.1 hr
  cases hr
  obtain ⟨⟨record₁, tasks⟩, hcreate, heq⟩ := bind_eq_ok_iff.1 hc'
  cases heq
  have hput := (TaskStore.create_spec hcreate).2.2
  refine consistent_register
    (consistent_create h hc' (TaskStore.untimed_of_create hcreate hspec)) ?_ hreg
  rw [hput, Table.get?_put_self]
  exact nofun

/-- **An external task with a period has no timer.** -/
theorem not_consistent_createExternalTask {spec : TaskSpec} {binding : BindingSpec}
    (h : Consistent r) (hspec : spec.timerPeriodSeconds ≠ none)
    (hc : r.createExternalTask host spec binding = Except.ok (record, r')) : ¬ Consistent r' := by
  intro h'
  obtain ⟨⟨record', r₁⟩, hc', hr⟩ := bind_eq_ok_iff.1 hc
  obtain ⟨⟨b, r₂⟩, hreg, hr⟩ := bind_eq_ok_iff.1 hr
  cases hr
  obtain ⟨⟨record₁, tasks⟩, hcreate, heq⟩ := bind_eq_ok_iff.1 hc'
  cases heq
  obtain ⟨⟨b', bindings⟩, _, heq⟩ := bind_eq_ok_iff.1 hreg
  cases heq
  obtain ⟨hfree, _, hput⟩ := TaskStore.create_spec hcreate
  have hno : r.taskTimers.get? record.taskId = none :=
    h.no_timer fun task htask => by rw [hfree] at htask; cases htask
  refine h'.timed record.taskId record ?_ (fun hp => ?_) hno
  · change tasks.get? record.taskId = some record
    rw [hput, Table.get?_put_self]
  · rw [TaskStore.period_of_create hcreate, hp] at hspec
    exact hspec rfl

theorem consistent_pollDue {current : ℚ} {busy : Bool} {events : List SystemEvent}
    (h : Consistent r) (hc : r.pollDue current busy = Except.ok (events, r')) :
    Consistent r' := by
  obtain ⟨taskEvents, _, hr⟩ := bind_eq_ok_iff.1 hc
  cases hr
  refine ⟨fun k timer hk => ?_, fun k task hk hp => ?_, h.binding⟩
  · rw [Table.get?_map] at hk
    obtain ⟨timer₀, htimer₀, rfl⟩ := Option.map_eq_some_iff.1 hk
    obtain ⟨task, htask, hm⟩ := h.timer k timer₀ htimer₀
    exact ⟨task, htask, matches_poll hm⟩
  · rw [Table.get?_map]
    simpa using h.timed k task hk hp

/-- **An administrative operation keeps the registries consistent**, unless it splits a period. -/
theorem consistent_apply {op : AdminOp} {reply : Reply} (h : Consistent r) (hop : ¬ op.SplitsPeriod)
    (hc : op.apply host now r = Except.ok (reply, r')) : Consistent r' := by
  cases op with
  | get | list | resolve | snapshot | taskTimerSnapshot | timerSnapshot =>
      cases hc
      exact h
  | require taskId =>
      simp only [AdminOp.apply] at hc
      cases hr : TaskStore.require r.tasks taskId with
      | error e =>
          rw [hr] at hc
          cases hc
      | ok task =>
          rw [hr] at hc
          cases hc
          exact h
  | create spec =>
      obtain ⟨task, hc, _⟩ := Reply.ofTask_eq_ok hc
      exact consistent_createWithTimer h hc
  | delete taskId =>
      cases hc
      exact consistent_delete h taskId
  | startTask taskId preserve =>
      obtain ⟨task, hc, _⟩ := Reply.ofTask_eq_ok hc
      exact consistent_startTask h hc
  | stopTask taskId preserve =>
      obtain ⟨task, hc, _⟩ := Reply.ofTask_eq_ok hc
      exact consistent_stopTask h hc
  | setTaskPeriod taskId period =>
      obtain ⟨task, hc, _⟩ := Reply.ofTask_eq_ok hc
      exact consistent_setTaskPeriod h hop hc
  | setExecutor taskId executor =>
      obtain ⟨task, hc, _⟩ := Reply.ofTask_eq_ok hc
      exact consistent_setExecutor h hc
  | unregisterTask taskId =>
      cases hc
      exact consistent_unregisterTask h taskId
  | register taskId description spec =>
      obtain ⟨b, hc, _⟩ := registerForTask_of_apply hc
      obtain ⟨task, htask, hc⟩ := bind_eq_ok_iff.1 hc
      refine consistent_register h ?_ hc
      rw [TaskStore.require_eq_ok_iff.1 htask]
      simp
  | createTask description text skills executor =>
      obtain ⟨task, hc, _⟩ := Reply.ofTask_eq_ok hc
      obtain ⟨⟨record, tasks⟩, hcreate, heq⟩ := bind_eq_ok_iff.1 hc
      cases heq
      exact consistent_create h hc (TaskStore.untimed_of_create hcreate rfl)
  | createPeriodicTask description text skills period method executor agentId =>
      obtain ⟨task, hc, _⟩ := Reply.ofTask_eq_ok hc
      exact consistent_createPeriodicTask h hc
  | createExternalTask spec binding =>
      obtain ⟨task, hc, _⟩ := Reply.ofTask_eq_ok hc
      exact consistent_createExternalTask h (not_not.1 hop) hc

/-- **An operation that splits a period leaves the registries inconsistent.** -/
theorem not_consistent_apply {op : AdminOp} {reply : Reply} (h : Consistent r)
    (hop : op.SplitsPeriod) (hc : op.apply host now r = Except.ok (reply, r')) :
    ¬ Consistent r' := by
  cases op with
  | createExternalTask spec binding =>
      obtain ⟨task, hc, _⟩ := Reply.ofTask_eq_ok hc
      exact not_consistent_createExternalTask h hop hc
  | setTaskPeriod taskId period =>
      obtain ⟨task, hc, _⟩ := Reply.ofTask_eq_ok hc
      exact not_consistent_setTaskPeriod hop hc
  | _ => cases hop

theorem Change.consistent {ok : AdminOp → Prop} (hc : Change host ok r r') (h : Consistent r)
    (hok : ∀ op, ok op → ¬ op.SplitsPeriod) : Consistent r' := by
  cases hc with
  | admin op now reply _ hop hc => exact consistent_apply h (hok op hop) hc
  | pollDue current events _ hc => exact consistent_pollDue h hc
  | nextUuid => exact ⟨h.timer, h.timed, h.binding⟩

end Registry

/-! ### Runs -/

namespace Tables

variable {host : Host} {t t' : Tables}

/-- No operation splits a period. -/
def tiedPeriods : Permits := { Permits.all with admin := fun op => ¬ op.SplitsPeriod }

/-- **A step keeps the registries consistent.** -/
theorem step_consistent (h : Step host tiedPeriods t t') (hr : t.registry.Consistent) :
    t'.registry.Consistent := by
  cases h with
  | registry _ r hc => exact hc.consistent hr fun op hop => hop
  | queue | offer => exact ⟨hr.timer, hr.timed, hr.binding⟩
  | _ => exact hr

/-- Rebuilding the tables keeps them consistent: the deadlines move together with the clock. -/
theorem rebuilt_consistent (h : Rebuilt t t') (hr : t.registry.Consistent) :
    t'.registry.Consistent where
  timer := by
    intro k timer' hk
    have hmap := h.timers k
    rw [hk, Option.map_some, Option.map_eq_some_iff] at hmap
    obtain ⟨timer, htimer, heq⟩ := hmap
    obtain ⟨task, htask, hm⟩ := hr.timer k timer htimer
    have harmed := congrArg (fun x : TaskTimerSpec => x.nextFireMonotonic.isSome) heq
    simp only [TaskTimerSpec.undated, Option.isSome_map] at harmed
    have henabled := congrArg (fun x : TaskTimerSpec => x.enabled) heq
    have hperiod := congrArg (fun x : TaskTimerSpec => x.periodSeconds) heq
    simp only [TaskTimerSpec.undated] at henabled hperiod
    refine ⟨task, (h.tasks k).symm.trans htask, ?_, ?_, ?_⟩
    · rw [← hperiod]
      exact hm.period
    · rw [← henabled]
      exact hm.enabled
    · rw [← harmed, ← henabled]
      exact hm.armed
  timed := by
    intro k task hk hp hnone
    have hmap := h.timers k
    rw [hnone, Option.map_none, Option.map_eq_none_iff] at hmap
    exact hr.timed k task ((h.tasks k).trans hk) hp hmap
  binding := by
    intro k o' hk
    have hmap := h.bindings k
    rw [hk, Option.map_some, Option.map_eq_some_iff] at hmap
    obtain ⟨o, ho, heq⟩ := hmap
    rw [← heq, ← h.tasks]
    exact hr.binding k o ho

end Tables

/-- An input that creates an external task with a period, or sets a period that is no float. -/
def Input.SplitsPeriod : Input → Prop
  | Input.call _ (Op.admin op) _ => op.SplitsPeriod
  | _ => False

namespace TaskEngine

open Tables (Permits tiedPeriods)

variable {host : Host} {s : TaskEngine}

/-- An engine that has nothing to import. -/
def empty (offset now : ℚ) : TaskEngine := opened offset (Tables.imported now Table.empty [] 0)

theorem empty_reachable (host : Host) (offset now : ℚ) :
    (machine host).Reachable (empty offset now) := by
  refine Machine.Reach.of_init ⟨offset, now, Table.empty, [], 0, ⟨?_, ?_⟩, rfl⟩
  · intro k task h
    cases h
  · intro b h
    cases h

theorem empty_consistent (offset now : ℚ) : (empty offset now).registry.Consistent := by
  refine ⟨fun k timer hk => ?_, fun k task hk => ?_, fun k o hk => ?_⟩
  · cases hk
  · cases hk
  · cases hk

theorem allowed_tiedPeriods {i : Input} (hi : ¬ i.SplitsPeriod) : s.Allowed tiedPeriods i := by
  cases i with
  | call env op peer =>
      change tiedPeriods.Ok env peer s.toTables op
      unfold Permits.Ok
      split
      · exact fun _ _ _ _ _ => trivial
      · exact trivial
      · exact fun _ => trivial
      · exact trivial
      · exact trivial
      · exact hi
      · exact id
      · exact trivial
  | _ => trivial

/-- An input that splits no period keeps the registries consistent. -/
theorem respond_consistent (hs : (machine host).Reachable s) (h : s.registry.Consistent)
    {i : Input} (hi : ¬ i.SplitsPeriod) : (s.respond host i).2.registry.Consistent :=
  respond_tables (rowHolds_of_reachable hs) (allowed_tiedPeriods hi) h
    (fun _ _ hI hstep => Tables.step_consistent hstep hI)
    fun _ _ hI hr => Tables.rebuilt_consistent hr hI

/-- **Registry consistency.**  In every run from an empty engine in which no external task is
created with a period and no period is set that is no float, the registries are consistent; and
when they are, an input leaves them so unless it does one of the two and returns. -/
theorem registryConsistent (offset now : ℚ) :
    ((machine host).Leads (fun _ i => ¬ i.SplitsPeriod) (empty offset now) s →
      s.registry.Consistent) ∧
    ((machine host).Leads (fun _ _ => True) (empty offset now) s → s.registry.Consistent →
      ∀ i, (s.respond host i).2.registry.Consistent ↔
        ¬ (i.SplitsPeriod ∧ ∃ reply, (s.respond host i).1 = Except.ok reply)) := by
  constructor
  · intro hl
    have hboth : (machine host).Reachable s ∧ s.registry.Consistent :=
      hl.invariant (I := fun u => (machine host).Reachable u ∧ u.registry.Consistent)
        ⟨empty_reachable host offset now, empty_consistent offset now⟩
        fun u i hu hi => ⟨hu.1.step i, respond_consistent hu.1 hu.2 hi⟩
    exact hboth.2
  · intro hl h i
    have hs : (machine host).Reachable s := Machine.Reach.leads (empty_reachable host offset now) hl
    constructor
    · rintro h' ⟨hi, reply, hok⟩
      unfold Input.SplitsPeriod at hi
      split at hi
      · rename_i env op peer
        obtain ⟨t, hb, ht⟩ := transact_returned hok
        obtain ⟨⟨reply', r⟩, ha, hb⟩ := bind_eq_ok_iff.1 hb
        cases hb
        rw [respond, call, ht] at h'
        exact Registry.not_consistent_apply h hi ha h'
      · exact hi
    · intro hi
      by_cases hsplits : i.SplitsPeriod
      · -- The input raises, and everything is as before.
        rcases respond_effect host (rowHolds_of_reachable hs) (s.allowed_all i) with
          ⟨reply, hok, _⟩ | ⟨_, hr⟩
        · exact absurd ⟨hsplits, reply, hok⟩ hi
        · exact Tables.rebuilt_consistent hr h
      · exact respond_consistent hs h hsplits

/-- A binding to the state of a door. -/
def doorSpec : BindingSpec :=
  { source := "mqtt", topic := "door", field := "open", valueType := "boolean"
    values := ["true", "false"], command := "look" }

/-- An external task without a period leaves the registries consistent. -/
theorem registryConsistent_door :
    (after Host.ascii [Input.call Env.quiet (Op.admin (AdminOp.createExternalTask
      { description := "door", text := "look" } doorSpec)) []]).registry.Consistent := by
  refine (registryConsistent 0 0).1 (Machine.leads_of_guarded ?_)
  exact ⟨fun h => h rfl, trivial⟩

/-- An external task that also has a period. -/
def timedExternal : Input :=
  Input.call Env.quiet (Op.admin (AdminOp.createExternalTask
    { description := "door", text := "look", timerPeriodSeconds := some (PyNumber.finite 60) }
    doorSpec)) []

/-- **An external task with a period has no timer.** -/
theorem not_registryConsistent :
    ¬ ∀ s, (machine Host.ascii).Leads (fun _ _ => True) (empty 0 0) s → s.registry.Consistent := by
  intro h
  have hconsistent := h _ (Machine.leads_exec (empty 0 0) [timedExternal])
  have htask : ((after Host.ascii [timedExternal]).registry.tasks.get? 1).any
      (fun task => task.timerPeriodSeconds.isSome) = true := by decide +kernel
  have htimer : (after Host.ascii [timedExternal]).registry.taskTimers.get? 1 = none := by
    decide +kernel
  obtain ⟨task, hget, hperiod⟩ := (Option.any_eq_true _ _).1 htask
  refine hconsistent.timed 1 task hget (fun hnone => ?_) htimer
  rw [hnone] at hperiod
  cases hperiod

end TaskEngine
