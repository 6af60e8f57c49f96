/-
**Timers follow their grid.**

A timer that is enabled fires at the points of the grid that starts at its first deadline.  Whoever
owns the schedules polls at irregular times: a poll finds the timers whose deadline has passed,
makes one event of each, however many points have passed, and moves the deadline to the next point.
This module relates a whole run of polls to the grid, for the timers of tasks and for those that
are set by name, with whatever happens between the polls to anything but the timer.

Main definitions:

* `TimerRef`, `Registry.timer?` — a timer of either kind;
* `TimerCommand`, `RuntimeInput`, `Registry.machine` — everything that changes a timer;
* `TimerPoll`, `Registry.Polls` — a run of polls, as one timer sees it.

Main results:

* `Registry.pollDue_spec` — a poll fires every timer that is due, and makes one event of each;
* `Registry.Polls.spec` — **every poll of a run emits one event if a point of the grid has passed
  since the last poll and none otherwise, and the deadline is the next point**;
* `Registry.timers_follow_grid` — the same with the counters, which always add up.
-/

import CatAgent.Grid
import CatAgent.Reconciling

set_option relaxedAutoImplicit false
set_option autoImplicit false

/-- A timer: one that was set by name, or the timer of a task. -/
inductive TimerRef where
  | named (name : PyStr)
  | task (taskId : ℤ)
deriving DecidableEq

/-- An event of the timer. -/
def TimerRef.emits : TimerRef → SystemEvent → Bool
  | named name, event => decide (event.taskId = none) && decide (event.name = name)
  | task taskId, event => decide (event.taskId = some taskId)

/-- The operations of `_execute_timer`, after the command has been parsed. -/
inductive TimerCommand where
  | set (name : PyStr) (periodSeconds : Period) (task : PyStr)
  | start (name : PyStr)
  | stop (name : PyStr)
  | period (name : PyStr) (periodSeconds : Period)
  | delete (name : PyStr)

namespace TimerState

variable {current : ℚ} {busy : Bool} {timer : TimerState}

/-- The counters add up. -/
def Counted (timer : TimerState) : Prop := timer.sequence = timer.fired + timer.skipped

/-- `TIMER PERIOD`: only a timer that runs counts down anew. -/
def setPeriod (now : ℚ) (p : Period) (timer : TimerState) : TimerState :=
  { timer with
    periodSeconds := p
    nextFireMonotonic := if timer.enabled then some (now + p.val) else timer.nextFireMonotonic }

theorem counted_armed (now : ℚ) (p : Period) (enabled : Bool) : (armed now p enabled).Counted := rfl

theorem Counted.rearm (h : timer.Counted) (now : ℚ) (p : Period) (enabled : Bool) :
    (timer.rearm now p enabled).Counted := h

theorem Counted.setPeriod (h : timer.Counted) (now : ℚ) (p : Period) :
    (timer.setPeriod now p).Counted := h

theorem Counted.disarm (h : timer.Counted) : timer.disarm.Counted := h

/-- A poll counts a timer that it fires once, either way. -/
theorem Counted.poll (h : timer.Counted) (current : ℚ) (busy : Bool) :
    (timer.poll current busy).Counted := by
  unfold TimerState.poll
  split_ifs
  · cases busy
    · change timer.sequence + 1 = timer.fired + 1 + timer.skipped
      rw [h]
      omega
    · change timer.sequence + 1 = timer.fired + (timer.skipped + 1)
      rw [h]
      omega
  · exact h

/-- An enabled timer is due when its deadline has come. -/
theorem due_iff {x : ℚ} (he : timer.enabled = true) (hx : timer.nextFireMonotonic = some x) :
    timer.due current = true ↔ x ≤ current := by
  simp [due, he, hx]

end TimerState

namespace Registry

/-- The timer, as far as it does not depend on its kind. -/
def timer? (r : Registry) : TimerRef → Option TimerState
  | TimerRef.named name => (r.timers.get? name).map TimerSpec.toTimerState
  | TimerRef.task taskId => (r.taskTimers.get? taskId).map TaskTimerSpec.toTimerState

/-- Update the timer that was set under this name, if there is one. -/
def modifyTimer (name : PyStr) (f : TimerState → TimerState) (r : Registry) : Registry :=
  { r with
    timers := r.timers.modify name
      (fun timer => { timer with toTimerState := f timer.toTimerState }) fun _ => rfl }

/-- `SystemRuntime._execute_timer`. -/
def executeTimer (now : ℚ) (r : Registry) : TimerCommand → Registry
  | TimerCommand.set name p task =>
      { r with timers := r.timers.put { toTimerState := TimerState.armed now p true, name, task } }
  | TimerCommand.start name =>
      r.modifyTimer name fun timer => timer.rearm now timer.periodSeconds true
  | TimerCommand.stop name => r.modifyTimer name TimerState.disarm
  | TimerCommand.period name p => r.modifyTimer name (TimerState.setPeriod now p)
  | TimerCommand.delete name => { r with timers := r.timers.erase name }

/-- `SystemRuntime.arm_task_timers`. -/
def armTaskTimers (now : ℚ) (r : Registry) : Registry :=
  { r with
    taskTimers := r.taskTimers.map
      (fun timer =>
        { timer with
          nextFireMonotonic := if timer.enabled then some (now + timer.periodSeconds.val) else none })
      fun _ => rfl }

/-- `SystemRuntime._restore_task_timers`, for stores that have just been read. -/
def restored (tasks : TaskTable) (bindings : BindingTable) (uuids objects : ℕ) : Registry where
  tasks
  bindings
  taskTimers := Table.ofList ((TaskStore.list tasks).filterMap fun task =>
    task.timerPeriodSeconds.map fun p =>
      { periodSeconds := p, enabled := task.enabled, nextFireMonotonic := none
        taskId := task.taskId })
  timers := Table.empty
  uuids
  objects

end Registry

/-- What happens to the schedules. -/
inductive RuntimeInput where
  /-- `arm_task_timers`. -/
  | arm (now : ℚ)
  /-- An administrative operation. -/
  | admin (op : AdminOp) (now : ℚ)
  /-- A legacy command. -/
  | command (c : TimerCommand) (now : ℚ)
  /-- `poll_due`. -/
  | poll (current : ℚ) (busy : Bool)

namespace Registry

/-- What an input leaves; an operation that raises leaves everything as it is. -/
def respond (host : Host) (r : Registry) : RuntimeInput → Registry
  | RuntimeInput.arm now => r.armTaskTimers now
  | RuntimeInput.admin op now =>
      match op.apply host now r with
      | Except.ok (_, r') => r'
      | Except.error _ => r
  | RuntimeInput.command c now => r.executeTimer now c
  | RuntimeInput.poll current busy =>
      match r.pollDue current busy with
      | Except.ok (_, r') => r'
      | Except.error _ => r

/-- The schedules, from the moment the stores have been read. -/
def machine (host : Host) : Machine Registry RuntimeInput where
  init r := ∃ tasks bindings uuids objects, r = restored tasks bindings uuids objects
  step := respond host

variable {host : Host} {r r' r'' : Registry} {now current : ℚ} {busy : Bool} {ref : TimerRef}
  {events : List SystemEvent}

/-! ### One poll -/

/-- Among records with different keys, counting those that have a given key. -/
theorem countP_key {κ α : Type*} [DecidableEq κ] {key : α → κ} (t : Table key) (p : α → Bool)
    (k : κ) : (t.values.filter p).countP (fun v => decide (key v = k)) =
      ((t.get? k).map fun v => (p v).toNat).getD 0 := by
  have hle := t.length_filter_key_le_one k
  rw [List.countP_eq_length_filter, List.filter_filter]
  cases hk : t.get? k with
  | none =>
      rw [List.filter_eq_nil_iff.2]
      · rfl
      · intro v hv
        have hne : key v ≠ k := by
          rintro rfl
          rw [Table.mem_values_iff.1 hv] at hk
          cases hk
        simp [hne]
  | some v =>
      have hkey := Table.key_of_get? hk
      have hone : (t.values.filter fun w => decide (key w = k)) = [v] := by
        have hmem : v ∈ t.values.filter fun w => decide (key w = k) :=
          List.mem_filter.2 ⟨Table.mem_values_of_get? hk, by simpa using hkey⟩
        obtain ⟨w, hw⟩ := List.length_eq_one_iff.1
          (Nat.le_antisymm hle (List.length_pos_of_mem hmem))
        rw [hw, List.mem_singleton] at hmem
        rw [hw, hmem]
      have hsplit : (t.values.filter fun w => decide (key w = k) && p w) = [v].filter p := by
        rw [← hone, List.filter_filter]
        exact List.filter_congr fun w _ => Bool.and_comm _ _
      rw [hsplit]
      cases hp : p v <;> simp [hp]

/-- The events of timers that were set by name are not those of tasks. -/
theorem countP_timerEvent (timers : List TimerSpec) (ref : TimerRef) :
    (timers.map (timerEvent current)).countP ref.emits =
      match ref with
      | TimerRef.named name => timers.countP fun timer => decide (timer.name = name)
      | TimerRef.task _ => 0 := by
  cases ref with
  | named name =>
      rw [List.countP_map]
      refine List.countP_congr fun timer _ => ?_
      change (decide ((none : Option ℤ) = none) && decide (timer.name = name)) = true ↔
        decide (timer.name = name) = true
      simp
  | task taskId =>
      rw [List.countP_map, List.countP_eq_zero]
      intro timer _
      simp [TimerRef.emits, timerEvent]

theorem countP_taskTimerEvent {tasks : TaskTable} {timers : List TaskTimerSpec}
    (h : timers.mapM (taskTimerEvent tasks current) = Except.ok events) (ref : TimerRef) :
    events.countP ref.emits =
      match ref with
      | TimerRef.named _ => 0
      | TimerRef.task taskId => timers.countP fun timer => decide (timer.taskId = taskId) := by
  induction timers generalizing events with
  | nil =>
      cases h
      cases ref <;> rfl
  | cons timer timers ih =>
      rw [List.mapM_cons] at h
      obtain ⟨event, hevent, h⟩ := bind_eq_ok_iff.1 h
      obtain ⟨events', hevents, h⟩ := bind_eq_ok_iff.1 h
      cases h
      obtain ⟨task, _, hevent⟩ := bind_eq_ok_iff.1 hevent
      cases hevent
      rw [List.countP_cons, ih hevents]
      cases ref with
      | named name => simp [TimerRef.emits]
      | task taskId => simp [TimerRef.emits, List.countP_cons]

/-- **A poll** does to every timer what `TimerState.poll` does, and makes one event of every timer
that is due, unless the runtime is busy. -/
theorem pollDue_spec (h : r.pollDue current busy = Except.ok (events, r')) (ref : TimerRef) :
    r'.timer? ref = (r.timer? ref).map (TimerState.poll current busy) ∧
      events.countP ref.emits =
        if busy then 0 else ((r.timer? ref).map fun timer => (timer.due current).toNat).getD 0 := by
  obtain ⟨taskEvents, htask, h⟩ := bind_eq_ok_iff.1 h
  cases h
  constructor
  · cases ref with
    | named name =>
        simp only [timer?, Table.get?_map, Option.map_map]
        rfl
    | task taskId =>
        simp only [timer?, Table.get?_map, Option.map_map]
        rfl
  · rw [List.countP_append, countP_timerEvent, countP_taskTimerEvent htask]
    cases busy with
    | true => cases ref <;> rfl
    | false =>
        simp only [Bool.false_eq_true, if_false]
        cases ref with
        | named name =>
            rw [Nat.add_zero, timer?, Option.map_map]
            exact countP_key r.timers _ name
        | task taskId =>
            rw [Nat.zero_add, timer?, Option.map_map]
            exact countP_key r.taskTimers _ taskId

end Registry

/-! ### Runs of polls -/

/-- A poll that has returned. -/
structure TimerPoll where
  current : ℚ
  busy : Bool
  events : List SystemEvent

namespace Registry

/-- The polls of a run between whose first and last state the timer is not armed anew, stopped or
deleted.  Everything else may change between the polls. -/
inductive Polls (ref : TimerRef) (r : Registry) : List TimerPoll → Registry → Prop
  | start : Polls ref r [] r
  | between {polls : List TimerPoll} {r' r'' : Registry} (h : Polls ref r polls r')
      (hsame : r''.timer? ref = r'.timer? ref) : Polls ref r polls r''
  | poll {polls : List TimerPoll} {r' r'' : Registry} {p : TimerPoll} (h : Polls ref r polls r')
      (hdue : r'.pollDue p.current p.busy = Except.ok (p.events, r'')) :
      Polls ref r (polls ++ [p]) r''

/-- A point of the grid has passed since the last of these polls. -/
def Passed (first : ℚ) (period : Period) (polls : List TimerPoll) (current : ℚ) : Prop :=
  ∃ x ∈ Grid.points first period.val, (∀ p ∈ polls.getLast?, p.current < x) ∧ x ≤ current

/-- After these polls the timer waits for the next point of the grid. -/
def Waits (first : ℚ) (period : Period) (polls : List TimerPoll) (timer : TimerState) : Prop :=
  timer.enabled = true ∧ timer.periodSeconds = period ∧
    ∃ x, timer.nextFireMonotonic = some x ∧
      IsLeast {y | y ∈ Grid.points first period.val ∧ ∀ p ∈ polls.getLast?, p.current < y} x

variable {ref : TimerRef} {r r' : Registry} {polls : List TimerPoll} {timer : TimerState}
  {first current : ℚ} {period : Period} {busy : Bool}

theorem awaits_iff {x : ℚ} : Grid.Awaits first period.val (polls.getLast?.map TimerPoll.current) x ↔
    IsLeast {y | y ∈ Grid.points first period.val ∧ ∀ p ∈ polls.getLast?, p.current < y} x := by
  have hset : {y | y ∈ Grid.points first period.val ∧
      ∀ t ∈ polls.getLast?.map TimerPoll.current, t < y} =
      {y | y ∈ Grid.points first period.val ∧ ∀ p ∈ polls.getLast?, p.current < y} := by
    ext y
    simp
  rw [Grid.Awaits, hset]

/-- A timer that waits for the next point is due exactly when a point has passed. -/
theorem Waits.due_iff (h : Waits first period polls timer) :
    timer.due current = true ↔ Passed first period polls current := by
  obtain ⟨he, _, x, hx, hleast⟩ := h
  rw [TimerState.due_iff he hx, (awaits_iff.2 hleast).le_iff]
  simp [Passed]

/-- **The next poll** leaves it waiting for the point after that. -/
theorem Waits.poll (h : Waits first period polls timer) (p : TimerPoll)
    (hle : ∀ q ∈ polls, q.current ≤ p.current) :
    Waits first period (polls ++ [p]) (timer.poll p.current p.busy) := by
  obtain ⟨he, rfl, x, hx, hleast⟩ := h
  have hawaits := awaits_iff.2 hleast
  have hlast : (polls ++ [p]).getLast?.map TimerPoll.current = some p.current := by simp
  have hearlier : ∀ t₀ ∈ polls.getLast?.map TimerPoll.current, t₀ ≤ p.current := by
    intro t₀ ht₀
    obtain ⟨q, hq, rfl⟩ := Option.mem_map.1 ht₀
    exact hle q (List.mem_of_getLast? hq)
  unfold TimerState.poll
  by_cases hdue : timer.due p.current = true
  · have hreached : x ≤ p.current := (TimerState.due_iff he hx).1 hdue
    rw [if_pos hdue]
    refine ⟨he, rfl, TimerState.nextFire p.current x timer.periodSeconds, ?_, ?_⟩
    · simp [TimerState.fire, hx]
    · rw [← awaits_iff, hlast]
      exact hawaits.follow timer.periodSeconds.property hreached
  · have hwaiting : p.current < x := not_le.1 fun hle => hdue ((TimerState.due_iff he hx).2 hle)
    rw [if_neg hdue]
    refine ⟨he, rfl, x, hx, ?_⟩
    rw [← awaits_iff, hlast]
    exact hawaits.stay hearlier hwaiting

/-- The events of a timer that one poll emits. -/
def Emits (ref : TimerRef) (first : ℚ) (period : Period) (polls : List TimerPoll)
    (p : TimerPoll) : Prop :=
  (p.busy = false ∧ Passed first period polls p.current → p.events.countP ref.emits = 1) ∧
    (p.busy = true ∨ ¬ Passed first period polls p.current → p.events.countP ref.emits = 0)

theorem Waits.emits {p : TimerPoll} (h : Waits first period polls timer)
    (hr : r.timer? ref = some timer)
    (hdue : r.pollDue p.current p.busy = Except.ok (p.events, r')) :
    Emits ref first period polls p := by
  have hcount := (pollDue_spec hdue ref).2
  rw [hr, Option.map_some, Option.getD_some] at hcount
  constructor
  · rintro ⟨hbusy, hpassed⟩
    rw [hcount, hbusy, h.due_iff.2 hpassed]
    rfl
  · rintro (hbusy | hpassed)
    · rw [hcount, hbusy]
      rfl
    · have hnot : timer.due p.current = false :=
        Bool.eq_false_iff.2 fun hd => hpassed (h.due_iff.1 hd)
      rw [hcount, hnot]
      exact ite_self 0

/-- **A run of polls.**  The deadline is always the next point of the grid, and every poll emits
one event if a point has passed since the poll before, and none otherwise. -/
theorem Polls.spec (h : Polls ref r polls r') (hr : r.timer? ref = some timer)
    (he : timer.enabled = true) (hd : timer.nextFireMonotonic = some first)
    (hsorted : polls.Pairwise fun p q => p.current ≤ q.current) :
    (∃ timer', r'.timer? ref = some timer' ∧ Waits first timer.periodSeconds polls timer') ∧
      ∀ before p after, polls = before ++ p :: after →
        Emits ref first timer.periodSeconds before p := by
  induction h with
  | start =>
      refine ⟨⟨timer, hr, he, rfl, first, hd, ?_⟩, fun before p after heq => ?_⟩
      · exact awaits_iff.1 (Grid.awaits_none timer.periodSeconds.property)
      · cases before <;> cases heq
  | between _ hsame ih =>
      rw [hsame]
      exact ih hsorted
  | @poll polls r' r'' p _ hdue ih =>
      rw [List.pairwise_append] at hsorted
      obtain ⟨⟨timer', hr', hwaits⟩, hemits⟩ := ih hsorted.1
      have hle : ∀ q ∈ polls, q.current ≤ p.current := fun q hq =>
        hsorted.2.2 q hq p List.mem_cons_self
      refine ⟨⟨timer'.poll p.current p.busy, ?_, hwaits.poll p hle⟩, fun before q after heq => ?_⟩
      · rw [(pollDue_spec hdue ref).1, hr', Option.map_some]
      · rcases List.eq_nil_or_concat after with rfl | ⟨after', q', rfl⟩
        · obtain ⟨rfl, hlast⟩ := List.append_inj' heq rfl
          cases hlast
          exact hwaits.emits hr' hdue
        · rw [List.concat_eq_append, ← List.cons_append, ← List.append_assoc] at heq
          exact hemits before q after' (List.append_inj' heq rfl).1

end Registry

/-! ### Counters -/

namespace Registry

variable {host : Host} {r r' : Registry} {now current : ℚ} {record : TaskRecord} {taskId : ℤ}
  {busy : Bool}

/-- The counters of all timers add up. -/
structure Counted (r : Registry) : Prop where
  timers : ∀ k timer, r.timers.get? k = some timer → timer.toTimerState.Counted
  taskTimers : ∀ k timer, r.taskTimers.get? k = some timer → timer.toTimerState.Counted

theorem Counted.timer? (h : Counted r) {ref : TimerRef} {timer : TimerState}
    (hr : r.timer? ref = some timer) : timer.Counted := by
  cases ref with
  | named name =>
      obtain ⟨spec, hspec, rfl⟩ := Option.map_eq_some_iff.1 hr
      exact h.timers name spec hspec
  | task taskId =>
      obtain ⟨spec, hspec, rfl⟩ := Option.map_eq_some_iff.1 hr
      exact h.taskTimers taskId spec hspec

theorem Counted.putTimer (h : Counted r) {state : TimerState} (hstate : state.Counted) :
    Counted (r.putTimer taskId state) where
  timers := h.timers
  taskTimers := by
    intro k timer hk
    rw [get?_putTimer] at hk
    split_ifs at hk
    · cases hk
      exact hstate
    · exact h.taskTimers k timer hk

theorem Counted.scheduleTimer (h : Counted r) (period : Period) (enabled : Bool) :
    Counted (r.scheduleTimer now taskId period enabled) := by
  unfold Registry.scheduleTimer
  split
  · exact h.putTimer (TimerState.counted_armed _ _ _)
  · rename_i timer htimer
    exact h.putTimer ((h.taskTimers _ _ htimer).rearm _ _ _)

theorem Counted.create (h : Counted r) {spec : TaskSpec}
    (hc : r.create host spec = Except.ok (record, r')) : Counted r' := by
  obtain ⟨⟨record', tasks⟩, _, heq⟩ := bind_eq_ok_iff.1 hc
  cases heq
  exact ⟨h.timers, h.taskTimers⟩

theorem Counted.createWithTimer (h : Counted r) {spec : TaskSpec}
    (hc : r.createWithTimer host now spec = Except.ok (record, r')) : Counted r' := by
  obtain ⟨⟨record', r₁⟩, hc', hr⟩ := bind_eq_ok_iff.1 hc
  cases hp : record'.timerPeriodSeconds with
  | none =>
      simp only [hp] at hr
      cases hr
      exact h.create hc'
  | some p =>
      simp only [hp] at hr
      cases hr
      exact (h.create hc').putTimer (TimerState.counted_armed _ _ _)

theorem Counted.createPeriodicTask (h : Counted r) {description text method executor : PyStr}
    {skills : List PyStr} {periodSeconds : PyNumber} {agentId : Option PyStr}
    (hc : r.createPeriodicTask host now description text skills periodSeconds method executor
      agentId = Except.ok (record, r')) : Counted r' := by
  obtain ⟨_, _, hc⟩ := bind_eq_ok_iff.1 hc
  obtain ⟨p, _, hc⟩ := bind_eq_ok_iff.1 hc
  obtain ⟨⟨record', r₁⟩, hc', hr⟩ := bind_eq_ok_iff.1 hc
  cases hr
  exact (h.create hc').putTimer (TimerState.counted_armed _ _ _)

theorem Counted.setEnabled (h : Counted r) {enabled preserve : Bool}
    (hc : r.setEnabled host taskId enabled preserve = Except.ok (record, r')) : Counted r' := by
  obtain ⟨current, _, _, _, _, rfl⟩ := setEnabled_spec hc
  exact ⟨h.timers, h.taskTimers⟩

theorem Counted.startTask (h : Counted r) {preserve : Bool}
    (hc : r.startTask host now taskId preserve = Except.ok (record, r')) : Counted r' := by
  obtain ⟨⟨record', r₁⟩, hc', hr⟩ := bind_eq_ok_iff.1 hc
  cases hp : record'.timerPeriodSeconds with
  | none =>
      simp only [hp] at hr
      cases hr
      exact h.setEnabled hc'
  | some p =>
      simp only [hp] at hr
      cases hr
      exact (h.setEnabled hc').scheduleTimer p true

theorem Counted.stopTask (h : Counted r) {preserve : Bool}
    (hc : r.stopTask host taskId preserve = Except.ok (record, r')) : Counted r' := by
  obtain ⟨⟨record', r₁⟩, hc', hr⟩ := bind_eq_ok_iff.1 hc
  have h₁ := h.setEnabled hc'
  simp only at hr
  split at hr
  · rename_i timer _ htimer
    cases hr
    exact h₁.putTimer (h₁.taskTimers _ _ htimer).disarm
  · cases hr
    exact h₁

theorem Counted.setTaskPeriod (h : Counted r) {period : PyNumber}
    (hc : r.setTaskPeriod host now taskId period = Except.ok (record, r')) : Counted r' := by
  obtain ⟨_, p, _, _, _, rfl⟩ := setTaskPeriod_spec hc
  have h₁ : Counted { r with tasks := r.tasks.put record, uuids := r.uuids + 1 } :=
    ⟨h.timers, h.taskTimers⟩
  exact h₁.scheduleTimer p _

theorem Counted.register (h : Counted r) {description : PyStr} {spec : BindingSpec}
    {b : EventBinding} (hc : r.register host taskId description spec = Except.ok (b, r')) :
    Counted r' := by
  obtain ⟨⟨b', bindings⟩, _, heq⟩ := bind_eq_ok_iff.1 hc
  cases heq
  exact ⟨h.timers, h.taskTimers⟩

/-- No administrative operation moves a counter. -/
theorem Counted.apply (h : Counted r) {op : AdminOp} {reply : Reply}
    (hc : op.apply host now r = Except.ok (reply, r')) : Counted r' := by
  cases op with
  | get | list | resolve | snapshot | taskTimerSnapshot | timerSnapshot =>
      cases hc
      exact h
  | require taskId =>
      simp only [AdminOp.apply] at hc
      cases hr : TaskStore.require r.tasks taskId with
      | error e =>
          rw [hr] at hc
          cases hc
      | ok task =>
          rw [hr] at hc
          cases hc
          exact h
  | create spec =>
      obtain ⟨task, hc, _⟩ := Reply.ofTask_eq_ok hc
      exact h.createWithTimer hc
  | delete taskId =>
      cases hc
      refine ⟨h.timers, fun k timer hk => ?_⟩
      -- The other timers of tasks stay as they are.
      have herase : (r.taskTimers.erase taskId).get? k = some timer := hk
      rw [Table.get?_erase] at herase
      split_ifs at herase
      exact h.taskTimers k timer herase
  | startTask taskId preserve =>
      obtain ⟨task, hc, _⟩ := Reply.ofTask_eq_ok hc
      exact h.startTask hc
  | stopTask taskId preserve =>
      obtain ⟨task, hc, _⟩ := Reply.ofTask_eq_ok hc
      exact h.stopTask hc
  | setTaskPeriod taskId period =>
      obtain ⟨task, hc, _⟩ := Reply.ofTask_eq_ok hc
      exact h.setTaskPeriod hc
  | setExecutor taskId executor =>
      obtain ⟨task, hc, _⟩ := Reply.ofTask_eq_ok hc
      obtain ⟨⟨record', tasks⟩, _, heq⟩ := bind_eq_ok_iff.1 hc
      cases heq
      exact ⟨h.timers, h.taskTimers⟩
  | unregisterTask taskId =>
      cases hc
      exact ⟨h.timers, h.taskTimers⟩
  | register taskId description spec =>
      obtain ⟨b, hc, _⟩ := registerForTask_of_apply hc
      obtain ⟨task, _, hc⟩ := bind_eq_ok_iff.1 hc
      exact h.register hc
  | createTask description text skills executor =>
      obtain ⟨task, hc, _⟩ := Reply.ofTask_eq_ok hc
      exact h.create hc
  | createPeriodicTask description text skills period method executor agentId =>
      obtain ⟨task, hc, _⟩ := Reply.ofTask_eq_ok hc
      exact h.createPeriodicTask hc
  | createExternalTask spec binding =>
      obtain ⟨task, hc, _⟩ := Reply.ofTask_eq_ok hc
      obtain ⟨⟨record', r₁⟩, hc', hr⟩ := bind_eq_ok_iff.1 hc
      obtain ⟨⟨b, r₂⟩, hreg, hr⟩ := bind_eq_ok_iff.1 hr
      cases hr
      exact (h.create hc').register hreg

/-- A poll moves them together. -/
theorem Counted.pollDue (h : Counted r) {events : List SystemEvent}
    (hc : r.pollDue current busy = Except.ok (events, r')) : Counted r' := by
  obtain ⟨taskEvents, _, hr⟩ := bind_eq_ok_iff.1 hc
  cases hr
  constructor
  · intro k timer hk
    rw [Table.get?_map] at hk
    obtain ⟨old, hold, rfl⟩ := Option.map_eq_some_iff.1 hk
    exact (h.timers k old hold).poll current busy
  · intro k timer hk
    rw [Table.get?_map] at hk
    obtain ⟨old, hold, rfl⟩ := Option.map_eq_some_iff.1 hk
    exact (h.taskTimers k old hold).poll current busy

theorem Counted.modifyTimer (h : Counted r) {f : TimerState → TimerState}
    (hf : ∀ timer, timer.Counted → (f timer).Counted) (name : PyStr) :
    Counted (r.modifyTimer name f) where
  timers := by
    intro k timer hk
    unfold Registry.modifyTimer at hk
    rw [Table.get?_modify] at hk
    split_ifs at hk
    · obtain ⟨old, hold, rfl⟩ := Option.map_eq_some_iff.1 hk
      exact hf _ (h.timers k old hold)
    · exact h.timers k timer hk
  taskTimers := h.taskTimers

theorem Counted.executeTimer (h : Counted r) (now : ℚ) (c : TimerCommand) :
    Counted (r.executeTimer now c) := by
  cases c with
  | set name p task =>
      refine ⟨fun k timer hk => ?_, h.taskTimers⟩
      unfold Registry.executeTimer at hk
      rw [Table.get?_put] at hk
      split_ifs at hk
      · cases hk
        exact TimerState.counted_armed _ _ _
      · exact h.timers k timer hk
  | start name => exact h.modifyTimer (fun timer ht => ht.rearm _ _ _) name
  | stop name => exact h.modifyTimer (fun timer ht => ht.disarm) name
  | period name p => exact h.modifyTimer (fun timer ht => ht.setPeriod now p) name
  | delete name =>
      refine ⟨fun k timer hk => ?_, h.taskTimers⟩
      unfold Registry.executeTimer at hk
      rw [Table.get?_erase] at hk
      split_ifs at hk
      exact h.timers k timer hk

theorem Counted.armTaskTimers (h : Counted r) (now : ℚ) : Counted (r.armTaskTimers now) where
  timers := h.timers
  taskTimers := by
    intro k timer hk
    unfold Registry.armTaskTimers at hk
    rw [Table.get?_map] at hk
    obtain ⟨old, hold, rfl⟩ := Option.map_eq_some_iff.1 hk
    exact h.taskTimers k old hold

end Registry

/-! ### Whatever happens to the schedules -/

namespace Registry

variable {host : Host} {r r' : Registry} {input : RuntimeInput}

/-- **A poll returns** as long as every timer of a task has its task. -/
theorem Owned.pollDue_returns (h : Owned r) (current : ℚ) (busy : Bool) :
    ∃ events r', r.pollDue current busy = Except.ok (events, r') := by
  have hdue : ∀ timer ∈ if busy then [] else
      r.taskTimers.values.filter fun timer => timer.due current,
      r.tasks.get? timer.taskId ≠ none := by
    cases busy with
    | true => exact fun timer htimer => absurd htimer List.not_mem_nil
    | false => exact Tables.owned_due h current
  obtain ⟨events, hmap, _⟩ := Tables.taskTimerEvents current hdue
  unfold Registry.pollDue
  simp only [hmap]
  exact ⟨_, _, rfl⟩

theorem owned_restored (tasks : TaskTable) (bindings : BindingTable) (uuids objects : ℕ) :
    Owned (restored tasks bindings uuids objects) := by
  intro k hk
  obtain ⟨timer, htimer⟩ := Option.ne_none_iff_exists'.1 hk
  obtain ⟨task, htask, hsome⟩ := List.mem_filterMap.1 (Table.mem_of_get?_ofList htimer)
  obtain ⟨p, _, rfl⟩ := Option.map_eq_some_iff.1 hsome
  have hid : task.taskId = k := @Table.key_of_get? _ _ TaskTimerSpec.taskId _ _ _ _ htimer
  have hget : tasks.get? task.taskId = some task :=
    Table.mem_values_iff.1 (Table.mem_sorted_iff.1 htask)
  change tasks.get? k ≠ none
  rw [← hid, hget]
  exact Option.some_ne_none _

theorem counted_restored (tasks : TaskTable) (bindings : BindingTable) (uuids objects : ℕ) :
    Counted (restored tasks bindings uuids objects) where
  timers := fun k timer hk => by cases hk
  taskTimers := by
    intro k timer hk
    obtain ⟨task, _, hsome⟩ := List.mem_filterMap.1 (Table.mem_of_get?_ofList hk)
    obtain ⟨p, _, rfl⟩ := Option.map_eq_some_iff.1 hsome
    rfl

/-- Arming and commands leave the timers of tasks where they are. -/
theorem owned_respond (h : Owned r) : Owned (r.respond host input) := by
  cases input with
  | arm now =>
      refine fun k hk => h k fun hnone => hk ?_
      change (r.armTaskTimers now).taskTimers.get? k = none
      rw [armTaskTimers, Table.get?_map, hnone]
      rfl
  | admin op now =>
      simp only [respond]
      split
      · rename_i hc
        exact (keepsOwners_apply hc).owned h
      · exact h
  | command c now => cases c <;> exact h
  | poll current busy =>
      simp only [respond]
      split
      · rename_i hc
        exact h.pollDue hc
      · exact h

theorem counted_respond (h : Counted r) : Counted (r.respond host input) := by
  cases input with
  | arm now => exact h.armTaskTimers now
  | admin op now =>
      simp only [respond]
      split
      · rename_i hc
        exact h.apply hc
      · exact h
  | command c now => exact h.executeTimer now c
  | poll current busy =>
      simp only [respond]
      split
      · rename_i hc
        exact h.pollDue hc
      · exact h

/-- **The counters of every timer add up, and every poll returns.** -/
theorem counted_of_reachable (hr : (machine host).Reachable r) : Counted r ∧ Owned r := by
  refine hr.invariant (I := fun r => Counted r ∧ Owned r) ?_ ?_
  · rintro r ⟨tasks, bindings, uuids, objects, rfl⟩
    exact ⟨counted_restored _ _ _ _, owned_restored _ _ _ _⟩
  · intro r input _ h
    exact ⟨counted_respond h.1, owned_respond h.2⟩

end Registry

namespace TaskEngine

open Tables (Step Permits)

variable {host : Host} {s : TaskEngine}

theorem step_counted {P : Permits} {t t' : Tables} (h : Step host P t t')
    (hr : t.registry.Counted) : t'.registry.Counted := by
  cases h with
  | registry _ r hc =>
      cases hc with
      | admin op now reply _ _ hc => exact hr.apply hc
      | pollDue current events _ hc => exact hr.pollDue hc
      | nextUuid => exact ⟨hr.timers, hr.taskTimers⟩
  | queue | offer => exact ⟨hr.timers, hr.taskTimers⟩
  | _ => exact hr

/-- **The counters add up in the engine too**, across restarts and requests that are undone. -/
theorem counted_of_reachable (hs : (machine host).Reachable s) : s.registry.Counted := by
  refine hs.invariant (I := fun u => u.registry.Counted) ?_ ?_
  · rintro s ⟨offset, now, tasks, bindings, uuids, _, rfl⟩
    refine ⟨fun k timer hk => absurd hk (Option.some_ne_none timer).symm, fun k timer hk => ?_⟩
    obtain ⟨task, _, hsome⟩ := List.mem_filterMap.1 (Table.mem_of_get?_ofList hk)
    obtain ⟨p, _, rfl⟩ := Option.map_eq_some_iff.1 hsome
    exact TimerState.counted_armed _ _ _
  · intro u i hu h
    rcases respond_effect host (rowHolds_of_reachable hu) (u.allowed_all i) with
      ⟨_, _, hsteps⟩ | ⟨_, hrebuilt⟩
    · have hrun : ∀ t, Relation.ReflTransGen (Step host Permits.all) u.toTables t →
          t.registry.Counted := by
        intro t ht
        induction ht with
        | refl => exact h
        | tail _ hstep ih => exact step_counted hstep ih
      exact hrun _ hsteps
    · refine ⟨fun k timer hk => ?_, fun k timer hk => ?_⟩
      · -- In the engine no timer is set by name.
        have hmem := Table.mem_values_of_get? hk
        rw [(scheduled_of_reachable (hu.step i)).timers] at hmem
        cases hmem
      · have hsame := hrebuilt.timers k
        change Option.map _ _ = Option.map _ ((u.respond host i).2.registry.taskTimers.get? k)
          at hsame
        have hk' : (u.respond host i).2.registry.taskTimers.get? k = some timer := hk
        rw [hk', Option.map_some] at hsame
        obtain ⟨old, hold, heq⟩ := Option.map_eq_some_iff.1 hsame
        have hcounted := h.taskTimers k old hold
        have hseq : old.sequence = timer.sequence := congrArg (fun x => x.sequence) heq
        have hfired : old.fired = timer.fired := congrArg (fun x => x.fired) heq
        have hskipped : old.skipped = timer.skipped := congrArg (fun x => x.skipped) heq
        change timer.sequence = timer.fired + timer.skipped
        rw [← hseq, ← hfired, ← hskipped]
        exact hcounted

end TaskEngine

namespace Registry

/-- **Timers follow their grid.**  In a run of polls whose times do not decrease, an enabled timer
whose deadline is `first` makes one event in a poll exactly if a point of the grid has passed since
the poll before (and none if the runtime is busy), and its deadline is always the first point after
the last poll.  Its counters add up in every state, polls always return, and both survive the
restarts of the engine. -/
theorem timers_follow_grid (host : Host) :
    (∀ ref r polls r' timer first, Polls ref r polls r' → r.timer? ref = some timer →
      timer.enabled = true → timer.nextFireMonotonic = some first →
      (polls.Pairwise fun p q => p.current ≤ q.current) →
      (∀ before p after, polls = before ++ p :: after →
        Emits ref first timer.periodSeconds before p) ∧
      ∃ timer', r'.timer? ref = some timer' ∧ Waits first timer.periodSeconds polls timer') ∧
    (∀ r, (machine host).Reachable r →
      (∀ ref timer, r.timer? ref = some timer → timer.sequence = timer.fired + timer.skipped) ∧
      ∀ current busy, ∃ events r', r.pollDue current busy = Except.ok (events, r')) ∧
    ∀ s, (TaskEngine.machine host).Reachable s →
      (∀ ref timer, s.registry.timer? ref = some timer →
        timer.sequence = timer.fired + timer.skipped) ∧
      ∀ current busy, ∃ events r', s.registry.pollDue current busy = Except.ok (events, r') := by
  refine ⟨?_, ?_, ?_⟩
  · intro ref r polls r' timer first h hr he hd hsorted
    exact (h.spec hr he hd hsorted).symm
  · intro r hr
    obtain ⟨hcounted, howned⟩ := counted_of_reachable hr
    exact ⟨fun ref timer h => hcounted.timer? h, howned.pollDue_returns⟩
  · intro s hs
    have howned : Owned s.registry := (TaskEngine.scheduled_of_reachable hs).taskTimers
    exact ⟨fun ref timer h => (TaskEngine.counted_of_reachable hs).timer? h,
      howned.pollDue_returns⟩

/-- Ten seconds. -/
def tenSeconds : Period := ⟨10, by decide +kernel⟩

/-- A timer of ten seconds, set at time 0. -/
def everyTen : Registry :=
  (restored Table.empty Table.empty 0 0).executeTimer 0 (TimerCommand.set "t" tenSeconds "go")

/-- Polls at these times, as long as they return, and the state that they leave. -/
def pollAll (r : Registry) : List (ℚ × Bool) → List TimerPoll × Registry
  | [] => ([], r)
  | (current, busy) :: times =>
      match r.pollDue current busy with
      | Except.ok (events, r') =>
          (⟨current, busy, events⟩ :: (r'.pollAll times).1, (r'.pollAll times).2)
      | Except.error _ => ([], r)

theorem Polls.pollAll {ref : TimerRef} {r r' : Registry} {polls : List TimerPoll}
    (h : Polls ref r polls r') (times : List (ℚ × Bool)) :
    Polls ref r (polls ++ (r'.pollAll times).1) (r'.pollAll times).2 := by
  induction times generalizing polls r' with
  | nil =>
      rw [Registry.pollAll, List.append_nil]
      exact h
  | cons time times ih =>
      rw [Registry.pollAll]
      cases hdue : r'.pollDue time.1 time.2 with
      | error e =>
          simp only [List.append_nil]
          exact h
      | ok out =>
          have hpoll := ih (h.poll (p := ⟨time.1, time.2, out.1⟩) hdue)
          rwa [List.append_assoc] at hpoll

/-- A poll before the first point, one after three points, a busy one, and one after two points
more. -/
def fourTimes : List (ℚ × Bool) := [(5, false), (35, false), (45, true), (60, false)]

def fourPolls : List TimerPoll × Registry := everyTen.pollAll fourTimes

/-- The four polls emit two events and skip one, and the next event is due at 70. -/
theorem timers_follow_grid_fourPolls :
    fourPolls.1.map (fun p => p.events.countP (TimerRef.named "t").emits) = [0, 1, 0, 1] ∧
      ∃ timer, fourPolls.2.timer? (TimerRef.named "t") = some timer ∧
        Waits 10 tenSeconds fourPolls.1 timer ∧ timer.nextFireMonotonic = some 70 ∧
        timer.sequence = 3 ∧ timer.fired = 2 ∧ timer.skipped = 1 := by
  have hsorted : fourPolls.1.Pairwise fun p q => p.current ≤ q.current := by decide +kernel
  obtain ⟨-, timer, htimer, hwaits⟩ := (timers_follow_grid Host.ascii).1 (TimerRef.named "t")
    everyTen fourPolls.1 fourPolls.2 (TimerState.armed 0 tenSeconds true) 10
    (Polls.start.pollAll fourTimes) rfl rfl (by decide +kernel) hsorted
  have hstate : (fourPolls.2.timer? (TimerRef.named "t")).map
      (fun timer => (timer.nextFireMonotonic, timer.sequence, timer.fired, timer.skipped)) =
      some (some 70, 3, 2, 1) := by decide +kernel
  rw [htimer, Option.map_some, Option.some_inj, Prod.mk.injEq, Prod.mk.injEq, Prod.mk.injEq]
    at hstate
  exact ⟨by decide +kernel, timer, htimer, hwaits, hstate⟩

end Registry
