/-
**The registry of tasks.**

A TASK is a saved instruction with a number from `1` to `max_tasks`.  It carries a generation, a
fresh identifier that changes whenever the task is stopped, started, given another period or
another executor; a run that was queued for one generation is not executed for another.

The store inside the engine never writes a file of its own (`OwnedTasks._save` does nothing): the
engine saves all its tables at once.  So the operations here are functions on the table of tasks.

Main definitions:

* `TaskRecord`, `TaskTable` — tasks, and the table of them;
* `TaskStore.create`, `TaskStore.setEnabled`, `TaskStore.setTimerPeriod`, `TaskStore.setExecutor`,
  `TaskStore.delete` — the operations of the store;
* `TaskStore.list` — the tasks by number.

Main results:

* `TaskStore.create_spec`, `TaskStore.replace_spec` — what the operations write, and when.
-/

import CatAgent.Host
import CatAgent.Table

set_option relaxedAutoImplicit false
set_option autoImplicit false

/-- `TASK_METHODS`: an instruction, or an instruction whose answer is delivered. -/
inductive TaskMethod where
  | task
  | query
deriving DecidableEq

/-- The COREs that execute tasks. -/
inductive Executor where
  | litert
  | openai
deriving DecidableEq

/-- The `executor` of a task: any CORE that is ready, or one of them. -/
inductive Policy where
  | auto
  | pinned (e : Executor)
deriving DecidableEq

/-- The names of the methods. -/
def TaskMethod.name : TaskMethod → PyStr
  | task => "task"
  | query => "query"

/-- The names of the executors. -/
def Executor.name : Executor → PyStr
  | litert => "litert"
  | openai => "openai"

/-- The names of the policies. -/
def Policy.name : Policy → PyStr
  | auto => "auto"
  | pinned e => e.name

/-- The method with a given name. -/
def TaskMethod.ofName (s : PyStr) : Option TaskMethod :=
  if s = TaskMethod.task.name then some TaskMethod.task
  else if s = TaskMethod.query.name then some TaskMethod.query
  else none

/-- The executor with a given name. -/
def Executor.ofName (s : PyStr) : Option Executor :=
  if s = Executor.litert.name then some Executor.litert
  else if s = Executor.openai.name then some Executor.openai
  else none

/-- The policy with a given name. -/
def Policy.ofName (s : PyStr) : Option Policy :=
  if s = Policy.auto.name then some Policy.auto
  else (Executor.ofName s).map Policy.pinned

@[simp] theorem TaskMethod.ofName_name (m : TaskMethod) : TaskMethod.ofName m.name = some m := by
  cases m <;> decide

@[simp] theorem Executor.ofName_name (e : Executor) : Executor.ofName e.name = some e := by
  cases e <;> decide

@[simp] theorem Policy.ofName_name (p : Policy) : Policy.ofName p.name = some p := by
  cases p with
  | auto => decide
  | pinned e => cases e <;> decide

/-- `TaskRecord`. -/
structure TaskRecord where
  taskId : ℤ
  description : PyStr
  text : PyStr
  method : TaskMethod
  skills : List PyStr
  timerPeriodSeconds : Option Period
  enabled : Bool
  generation : PyStr
  executor : Policy
  agentId : Option PyStr
deriving DecidableEq

/-- `TaskStore._tasks`. -/
abbrev TaskTable := Table TaskRecord.taskId

/-- The arguments of `TaskStore.create`, defaults filled in. -/
structure TaskSpec where
  description : PyStr
  text : PyStr
  method : PyStr := "task"
  skills : List PyStr := []
  timerPeriodSeconds : Option PyNumber := none
  enabled : Bool := true
  executor : PyStr := "auto"
  agentId : Option PyStr := none

/-- `re.fullmatch(r"agent_[1-9][0-9]*", s)`. -/
def isAgentId (s : PyStr) : Bool :=
  let rest := s.drop 6
  decide (s.take 6 = PyStr.ofString "agent_") &&
    match rest with
    | [] => false
    | c :: cs => (49 ≤ c.val && c.val ≤ 57) && cs.all fun d => 48 ≤ d.val && d.val ≤ 57

namespace TaskStore

/-- `max_tasks`. -/
def maxTasks : ℕ := 5

/-- `TaskStore._validate_executor`. -/
def validateExecutor (executor : PyStr) : Except PyError Policy :=
  match Policy.ofName executor with
  | some p => Except.ok p
  | none => Except.error (PyError.taskStoreError "executor must be auto, litert or openai")

/-- An `agent_id`, if there is one, has the form that agents' names have. -/
def validateAgentId (host : Host) : Option PyStr → Except PyError Unit
  | none => Except.ok ()
  | some ident => raiseIf (¬ isAgentId ident) (PyError.taskStoreError
      (PyStr.ofString "invalid task agent_id " ++ host.repr ident))

/-- The period of a task: none, or a positive finite number. -/
def validatePeriod (where_ : PyStr) : Option PyNumber → Except PyError (Option Period)
  | none => Except.ok none
  | some x => (x.period (PyError.taskStoreError
      (PyStr.ofString "timer_period_seconds must be > 0" ++ where_))).map some

/-- `TaskStore._validate_record`, as `create` calls it (without a task number to check); it returns
the method and the period that the checks have recognised. -/
def validateRecord (host : Host) (description text method : PyStr) (skills : List PyStr)
    (timerPeriodSeconds : Option PyNumber) (agentId : Option PyStr) :
    Except PyError (TaskMethod × Option Period) := do
  raiseIf (description = []) (PyError.taskStoreError "empty task description")
  raiseIf (text = []) (PyError.taskStoreError "empty task text")
  let m ← match TaskMethod.ofName method with
    | some m => Except.ok m
    | none => Except.error (PyError.taskStoreError (PyStr.ofString "invalid task method " ++
        host.repr method))
  raiseIf ([] ∈ skills) (PyError.taskStoreError "empty task skill name")
  raiseIf (¬ skills.Nodup) (PyError.taskStoreError "duplicate task skill name")
  validateAgentId host agentId
  let period ← validatePeriod [] timerPeriodSeconds
  return (m, period)

/-- `TaskStore._first_free_id`. -/
def firstFreeId (tasks : TaskTable) : Option ℤ :=
  ((List.range maxTasks).map fun n => (n : ℤ) + 1).find? fun k => decide (tasks.get? k = none)

/-- `TaskStore.create`; the generation is the identifier that `uuid4` hands out. -/
def create (host : Host) (generation : PyStr) (spec : TaskSpec) (tasks : TaskTable) :
    Except PyError (TaskRecord × TaskTable) := do
  let executor ← validateExecutor spec.executor
  let description := PyStr.strip spec.description
  let text := PyStr.strip spec.text
  let method := host.lower (PyStr.strip spec.method)
  let skills := spec.skills.map PyStr.strip
  let (m, period) ← validateRecord host description text method skills spec.timerPeriodSeconds
    spec.agentId
  match firstFreeId tasks with
  | none => throw (PyError.taskStoreError (PyStr.ofString "task limit reached (" ++
      PyStr.ofString (toString maxTasks) ++ PyStr.ofString ")"))
  | some taskId =>
      let record : TaskRecord :=
        { taskId, description, text, method := m, skills, timerPeriodSeconds := period,
          enabled := spec.enabled, generation, executor, agentId := spec.agentId }
      return (record, tasks.put record)

/-- `TaskStore.require`. -/
def require (tasks : TaskTable) (taskId : ℤ) : Except PyError TaskRecord :=
  match tasks.get? taskId with
  | some task => Except.ok task
  | none => Except.error (PyError.taskStoreError (PyStr.ofString "unknown task: " ++
      PyStr.ofString (toString taskId)))

/-- `TaskStore.list`: the tasks by number. -/
def list (tasks : TaskTable) : List TaskRecord := tasks.sorted fun a b => decide (a ≤ b)

/-- `TaskStore._replace`, after a change `f` of the current record that keeps its number. -/
def replace (tasks : TaskTable) (taskId : ℤ) (f : TaskRecord → TaskRecord) :
    Except PyError (TaskRecord × TaskTable) := do
  let current ← require tasks taskId
  let updated := f current
  return (updated, tasks.put updated)

/-- `TaskStore.set_enabled`. -/
def setEnabled (generation : PyStr) (taskId : ℤ) (enabled preserveGeneration : Bool)
    (tasks : TaskTable) : Except PyError (TaskRecord × TaskTable) :=
  replace tasks taskId fun current =>
    { current with
      enabled
      generation := if preserveGeneration then current.generation else generation }

/-- `TaskStore.set_timer_period`. -/
def setTimerPeriod (generation : PyStr) (taskId : ℤ) (periodSeconds : PyNumber)
    (tasks : TaskTable) : Except PyError (TaskRecord × TaskTable) := do
  let p ← periodSeconds.period (PyError.valueError "period_seconds must be > 0")
  replace tasks taskId fun current =>
    { current with timerPeriodSeconds := some p.float, generation }

/-- `TaskStore.set_executor`. -/
def setExecutor (generation : PyStr) (taskId : ℤ) (executor : PyStr) (tasks : TaskTable) :
    Except PyError (TaskRecord × TaskTable) := do
  let p ← validateExecutor executor
  replace tasks taskId fun current => { current with executor := p, generation }

/-- `TaskStore.delete`. -/
def delete (taskId : ℤ) (tasks : TaskTable) : Bool × TaskTable :=
  match tasks.get? taskId with
  | none => (false, tasks)
  | some _ => (true, tasks.erase taskId)

/-! ### What the operations write -/

theorem require_eq_ok_iff {tasks : TaskTable} {taskId : ℤ} {task : TaskRecord} :
    require tasks taskId = Except.ok task ↔ tasks.get? taskId = some task := by
  unfold require
  cases tasks.get? taskId <;> simp

theorem firstFreeId_eq_some {tasks : TaskTable} {k : ℤ} (h : firstFreeId tasks = some k) :
    tasks.get? k = none := by
  have := List.find?_some h
  simpa using this

/-- **A created task has a number that was free, and the given generation.** -/
theorem create_spec {host : Host} {generation : PyStr} {spec : TaskSpec} {tasks tasks' : TaskTable}
    {record : TaskRecord} (h : create host generation spec tasks = Except.ok (record, tasks')) :
    tasks.get? record.taskId = none ∧ record.generation = generation ∧
      tasks' = tasks.put record := by
  unfold create at h
  obtain ⟨executor, _, h⟩ := bind_eq_ok_iff.1 h
  obtain ⟨⟨m, period⟩, _, h⟩ := bind_eq_ok_iff.1 h
  cases hid : firstFreeId tasks with
  | none =>
      simp only [hid] at h
      cases h
  | some k =>
      simp only [hid] at h
      cases h
      exact ⟨firstFreeId_eq_some hid, rfl, rfl⟩

/-- **A replaced task was there, and keeps its number.** -/
theorem replace_spec {tasks tasks' : TaskTable} {taskId : ℤ} {f : TaskRecord → TaskRecord}
    {record : TaskRecord} (h : replace tasks taskId f = Except.ok (record, tasks')) :
    ∃ current, tasks.get? taskId = some current ∧ record = f current ∧
      tasks' = tasks.put record := by
  obtain ⟨current, hc, h⟩ := bind_eq_ok_iff.1 h
  cases h
  exact ⟨current, require_eq_ok_iff.1 hc, rfl, rfl⟩

end TaskStore
