/-
**The saved row.**

The engine keeps one row: the JSON text of all its tables.  The same snapshot is what a failing
request is rolled back to.  Deadlines are monotonic in memory and wall-clock times in the row, so
that they survive a restart, after which the monotonic clock starts anywhere; `offset` is the
difference between the two clocks.

Main definitions:

* `TaskRecord.toJson`, `EventBinding.toJson`, `Run.toJson`, … and their readers `ofJson`;
* `Tables.snapshot` — `_snapshot`, with the wall-clock offset as a parameter (`wall=False` is
  offset `0`);
* `Tables.restore` — `_restore`;
* `Tables.Agree` — the same tables: the same tasks, bindings and timers, and the same runs and
  query results in the same order.

Main results:

* `Saved.ofJson_toJson` — **nothing that is written is lost when it is read**;
* `Tables.restore_snapshot` — **restoring a snapshot gives the same tables**, deadlines shifted by
  the difference of the offsets.
-/

import CatAgent.TaskEngine

set_option relaxedAutoImplicit false
set_option autoImplicit false

namespace Json

/-- A value that may be missing. -/
def optional {α : Type} (dec : Json → Option α) : Option Json → Option (Option α)
  | none => some none
  | some v => (dec v).map some

/-- `None` or a float. -/
def ofNum? (q : Option ℚ) : Json := ofOption num q

/-- `None` or a string. -/
def ofStr? (s : Option PyStr) : Json := ofOption str s

/-- `None` or an integer. -/
def ofInt? (n : Option ℤ) : Json := ofOption int n

@[simp] theorem asOption_ofNum? (q : Option ℚ) : asOption asNum (ofNum? q) = some q :=
  asOption_ofOption num (fun _ => rfl) (fun _ => nofun) q

@[simp] theorem asOption_ofStr? (s : Option PyStr) : asOption asStr (ofStr? s) = some s :=
  asOption_ofOption str (fun _ => rfl) (fun _ => nofun) s

@[simp] theorem asOption_ofInt? (n : Option ℤ) : asOption asInt (ofInt? n) = some n :=
  asOption_ofOption int (fun _ => rfl) (fun _ => nofun) n

/-- A list of strings. -/
def ofStrs (l : List PyStr) : Json := arr (l.map str)

@[simp] theorem asList_ofStrs (l : List PyStr) : asList asStr (ofStrs l) = some l := by
  have hstr : ∀ s : PyStr, asStr (str s) = some (id s) := fun _ => rfl
  have h := asList_map hstr l
  rwa [List.map_id] at h

/-- A period. -/
def asPeriod (v : Json) : Option Period :=
  v.asNum.bind fun q => if h : 0 < q then some ⟨q, h⟩ else none

@[simp] theorem asPeriod_num (p : Period) : asPeriod (num p.val) = some p := by
  simp [asPeriod, p.property]

/-- `None` or a period. -/
def ofPeriod? (p : Option Period) : Json := ofOption (fun p => num p.val) p

@[simp] theorem asOption_ofPeriod? (p : Option Period) :
    asOption asPeriod (ofPeriod? p) = some p :=
  asOption_ofOption _ asPeriod_num (fun _ => nofun) p

/-- A counter. -/
def asCount (v : Json) : Option ℕ := v.asInt.map Int.toNat

@[simp] theorem asCount_int (n : ℕ) : asCount (int n) = some n := by simp [asCount]

end Json

/-! ### Records -/

namespace TaskRecord

/-- `asdict(task)`. -/
def toJson (t : TaskRecord) : Json :=
  Json.obj
    [(PyStr.ofString "task_id", Json.int t.taskId),
      (PyStr.ofString "description", Json.str t.description),
      (PyStr.ofString "text", Json.str t.text),
      (PyStr.ofString "method", Json.str t.method.name),
      (PyStr.ofString "skills", Json.ofStrs t.skills),
      (PyStr.ofString "timer_period_seconds", Json.ofPeriod? t.timerPeriodSeconds),
      (PyStr.ofString "enabled", Json.bool t.enabled),
      (PyStr.ofString "generation", Json.str t.generation),
      (PyStr.ofString "executor", Json.str t.executor.name),
      (PyStr.ofString "agent_id", Json.ofStr? t.agentId)]

/-- `TaskRecord(**{**t, 'executor': t.get('executor', 'litert'), 'skills': tuple(t['skills'])})`. -/
def ofJson (v : Json) : Option TaskRecord := do
  let taskId ← (v.get "task_id").bind Json.asInt
  let description ← (v.get "description").bind Json.asStr
  let text ← (v.get "text").bind Json.asStr
  let method ← ((v.get "method").bind Json.asStr).bind TaskMethod.ofName
  let skills ← (v.get "skills").bind (Json.asList Json.asStr)
  let timerPeriodSeconds ← (v.get "timer_period_seconds").bind (Json.asOption Json.asPeriod)
  let enabled ← (v.get "enabled").bind Json.asBool
  let generation ← (v.get "generation").bind Json.asStr
  let executor ← (((v.get "executor").getD (Json.str "litert")).asStr).bind Policy.ofName
  let agentId ← (v.get "agent_id").bind (Json.asOption Json.asStr)
  return { taskId, description, text, method, skills, timerPeriodSeconds, enabled, generation,
           executor, agentId }

@[simp] theorem ofJson_toJson (t : TaskRecord) : ofJson t.toJson = some t := by
  simp [ofJson, toJson]

end TaskRecord

namespace EventBinding

/-- `asdict(binding)`. -/
def toJson (b : EventBinding) : Json :=
  Json.obj
    [(PyStr.ofString "name", Json.str b.name),
      (PyStr.ofString "source", Json.str b.source),
      (PyStr.ofString "task_id", Json.int b.taskId),
      (PyStr.ofString "description", Json.str b.description),
      (PyStr.ofString "topic", Json.str b.topic),
      (PyStr.ofString "field", Json.str b.field),
      (PyStr.ofString "value_type", Json.str b.valueType),
      (PyStr.ofString "values", Json.ofStrs b.values),
      (PyStr.ofString "command", Json.str b.command)]

/-- `EventBinding(**{**e, 'values': tuple(e['values'])})`. -/
def ofJson (v : Json) : Option EventBinding := do
  let name ← (v.get "name").bind Json.asStr
  let source ← (v.get "source").bind Json.asStr
  let taskId ← (v.get "task_id").bind Json.asInt
  let description ← (v.get "description").bind Json.asStr
  let topic ← (v.get "topic").bind Json.asStr
  let field ← (v.get "field").bind Json.asStr
  let valueType ← (v.get "value_type").bind Json.asStr
  let values ← (v.get "values").bind (Json.asList Json.asStr)
  let command ← (v.get "command").bind Json.asStr
  return { name, source, taskId, description, topic, field, valueType, values, command }

@[simp] theorem ofJson_toJson (b : EventBinding) : ofJson b.toJson = some b := by
  simp [ofJson, toJson]

end EventBinding

namespace TimerState

/-- Read the deadline at another zero of the clock. -/
def shift (offset : ℚ) (timer : TimerState) : TimerState :=
  { timer with nextFireMonotonic := timer.nextFireMonotonic.map fun next => next + offset }

@[simp] theorem shift_zero (timer : TimerState) : timer.shift 0 = timer := by
  cases timer
  simp [shift]

theorem shift_shift (a b : ℚ) (timer : TimerState) :
    (timer.shift a).shift b = timer.shift (a + b) := by
  simp [shift, Option.map_map, Function.comp_def, add_assoc]

/-- The fields of a timer whose deadline is a wall-clock time. -/
def toItems (timer : TimerState) : List (PyStr × Json) :=
  [(PyStr.ofString "period_seconds", Json.num timer.periodSeconds.val),
    (PyStr.ofString "enabled", Json.bool timer.enabled),
    (PyStr.ofString "sequence", Json.int timer.sequence),
    (PyStr.ofString "fired", Json.int timer.fired),
    (PyStr.ofString "skipped", Json.int timer.skipped),
    (PyStr.ofString "next_fire_wall", Json.ofNum? timer.nextFireMonotonic)]

/-- Read those fields. -/
def ofJson (v : Json) : Option TimerState := do
  let periodSeconds ← (v.get "period_seconds").bind Json.asPeriod
  let enabled ← (v.get "enabled").bind Json.asBool
  let sequence ← (v.get "sequence").bind Json.asCount
  let fired ← (v.get "fired").bind Json.asCount
  let skipped ← (v.get "skipped").bind Json.asCount
  let nextFireMonotonic ← (v.get "next_fire_wall").bind (Json.asOption Json.asNum)
  return { periodSeconds, enabled, nextFireMonotonic, sequence, fired, skipped }

end TimerState

namespace TaskTimerSpec

/-- Read the deadline at another zero of the clock. -/
def shift (offset : ℚ) (t : TaskTimerSpec) : TaskTimerSpec :=
  { t with toTimerState := t.toTimerState.shift offset }

@[simp] theorem shift_zero (t : TaskTimerSpec) : t.shift 0 = t := by simp [shift]

theorem shift_comp (a b : ℚ) : shift b ∘ shift a = shift (a + b) := by
  funext t
  simp [shift, TimerState.shift_shift]

theorem taskId_shift (offset : ℚ) (t : TaskTimerSpec) : (t.shift offset).taskId = t.taskId := rfl

/-- A timer without the time of its deadline. -/
def undated (t : TaskTimerSpec) : TaskTimerSpec :=
  { t with nextFireMonotonic := t.nextFireMonotonic.map fun _ => 0 }

theorem undated_comp_shift (offset : ℚ) : undated ∘ shift offset = undated := by
  funext t
  simp [undated, shift, TimerState.shift, Option.map_map, Function.comp_def]

/-- A task timer in the row. -/
def toJson (t : TaskTimerSpec) : Json :=
  Json.obj ((PyStr.ofString "task_id", Json.int t.taskId) :: t.toItems)

/-- A task timer from the row. -/
def ofJson (v : Json) : Option TaskTimerSpec := do
  let taskId ← (v.get "task_id").bind Json.asInt
  let state ← TimerState.ofJson v
  return { toTimerState := state, taskId }

@[simp] theorem ofJson_toJson (t : TaskTimerSpec) : ofJson t.toJson = some t := by
  simp [ofJson, toJson, TimerState.ofJson, TimerState.toItems]

end TaskTimerSpec

namespace TimerSpec

/-- Read the deadline at another zero of the clock. -/
def shift (offset : ℚ) (t : TimerSpec) : TimerSpec :=
  { t with toTimerState := t.toTimerState.shift offset }

@[simp] theorem shift_zero (t : TimerSpec) : t.shift 0 = t := by simp [shift]

theorem shift_comp (a b : ℚ) : shift b ∘ shift a = shift (a + b) := by
  funext t
  simp [shift, TimerState.shift_shift]

theorem name_shift (offset : ℚ) (t : TimerSpec) : (t.shift offset).name = t.name := rfl

/-- A legacy timer in the row. -/
def toJson (t : TimerSpec) : Json :=
  Json.obj ((PyStr.ofString "name", Json.str t.name) ::
    (PyStr.ofString "task", Json.str t.task) :: t.toItems)

/-- A legacy timer from the row. -/
def ofJson (v : Json) : Option TimerSpec := do
  let name ← (v.get "name").bind Json.asStr
  let task ← (v.get "task").bind Json.asStr
  let state ← TimerState.ofJson v
  return { toTimerState := state, name, task }

@[simp] theorem ofJson_toJson (t : TimerSpec) : ofJson t.toJson = some t := by
  simp [ofJson, toJson, TimerState.ofJson, TimerState.toItems]

end TimerSpec

namespace SystemEvent

/-- `asdict(event)`. -/
def toJson (e : SystemEvent) : Json :=
  Json.obj
    [(PyStr.ofString "source", Json.str e.source),
      (PyStr.ofString "name", Json.str e.name),
      (PyStr.ofString "task", Json.str e.task),
      (PyStr.ofString "created_monotonic", Json.num e.createdMonotonic),
      (PyStr.ofString "task_id", Json.ofInt? e.taskId),
      (PyStr.ofString "task_generation", Json.str e.taskGeneration),
      (PyStr.ofString "run_id", Json.str e.runId),
      (PyStr.ofString "offer_id", Json.str e.offerId)]

/-- The event of a saved run. -/
def ofJson (v : Json) : Option SystemEvent := do
  let source ← (v.get "source").bind Json.asStr
  let name ← (v.get "name").bind Json.asStr
  let task ← (v.get "task").bind Json.asStr
  let createdMonotonic ← (v.get "created_monotonic").bind Json.asNum
  let taskId ← (v.get "task_id").bind (Json.asOption Json.asInt)
  let taskGeneration ← (v.get "task_generation").bind Json.asStr
  let runId ← (v.get "run_id").bind Json.asStr
  let offerId ← (v.get "offer_id").bind Json.asStr
  return { source, name, task, createdMonotonic, taskId, taskGeneration, runId, offerId }

@[simp] theorem ofJson_toJson (e : SystemEvent) : ofJson e.toJson = some e := by
  simp [ofJson, toJson]

end SystemEvent

namespace Run

/-- A run in the row; a run without a policy or a status code lacks the field. -/
def toJson (run : Run) : Json :=
  Json.obj
    ([(PyStr.ofString "event", run.event.toJson),
      (PyStr.ofString "executor", Json.ofStr? (run.executor.map Executor.name)),
      (PyStr.ofString "state", Json.str run.state.name),
      (PyStr.ofString "owner", Json.str run.owner),
      (PyStr.ofString "peer", Json.str run.peer),
      (PyStr.ofString "outcome", Json.str run.outcome)] ++
      (run.policy.toList.map fun p => (PyStr.ofString "policy", Json.str p.name)) ++
      (run.statusCode.toList.map fun n => (PyStr.ofString "status_code", Json.int n)))

/-- A run from the row. -/
def ofJson (v : Json) : Option Run := do
  let event ← (v.get "event").bind SystemEvent.ofJson
  let executor ← (v.get "executor").bind (Json.asOption fun v => v.asStr.bind Executor.ofName)
  let state ← ((v.get "state").bind Json.asStr).bind RunState.ofName
  let owner ← (v.get "owner").bind Json.asStr
  let peer ← (v.get "peer").bind Json.asStr
  let outcome ← (v.get "outcome").bind Json.asStr
  let policy ← Json.optional (fun v => v.asStr.bind Policy.ofName) (v.get "policy")
  let statusCode ← Json.optional Json.asInt (v.get "status_code")
  return { event, policy, executor, state, owner, peer, outcome, statusCode }

@[simp] theorem ofJson_toJson (run : Run) : ofJson run.toJson = some run := by
  obtain ⟨event, policy, executor, state, owner, peer, outcome, statusCode⟩ := run
  have hexec : Json.asOption (fun v => v.asStr.bind Executor.ofName)
      (Json.ofStr? (executor.map Executor.name)) = some executor := by
    cases executor <;> simp [Json.ofStr?, Json.ofOption, Json.asOption]
  cases policy <;> cases statusCode <;> simp [ofJson, toJson, hexec, Json.optional]

end Run

namespace QueryResult

/-- A record of the inbox in the row. -/
def toJson (record : QueryResult) : Json :=
  Json.obj
    [(PyStr.ofString "owner", Json.str record.owner),
      (PyStr.ofString "peer", Json.str record.peer),
      (PyStr.ofString "offer_id", Json.str record.offerId),
      (PyStr.ofString "payload", record.payload.toJson),
      (PyStr.ofString "acked", Json.bool record.acked)]

/-- The payload of a saved record. -/
def payloadOfJson (v : Json) : Option QueryPayload := do
  let runId ← (v.get "run_id").bind Json.asStr
  let taskId ← (v.get "task_id").bind Json.asInt
  let source ← (v.get "source").bind Json.asStr
  let agentId ← (v.get "agent_id").bind Json.asStr
  let agentOk ← (v.get "agent_ok").bind Json.asBool
  let text ← (v.get "text").bind Json.asStr
  return { runId, taskId, source, agentId, agentOk, text }

/-- A record of the inbox from the row. -/
def ofJson (v : Json) : Option QueryResult := do
  let owner ← (v.get "owner").bind Json.asStr
  let peer ← (v.get "peer").bind Json.asStr
  let offerId ← (v.get "offer_id").bind Json.asStr
  let payload ← (v.get "payload").bind payloadOfJson
  let acked ← (v.get "acked").bind Json.asBool
  return { owner, peer, offerId, payload, acked }

@[simp] theorem ofJson_toJson (record : QueryResult) : ofJson record.toJson = some record := by
  simp [ofJson, toJson, payloadOfJson, QueryPayload.toJson]

end QueryResult

/-! ### The row -/

/-- What the row holds. -/
structure Saved where
  tasks : List TaskRecord
  events : List EventBinding
  timers : List TaskTimerSpec
  legacyTimers : List TimerSpec
  runs : List Run
  queryResults : List QueryResult
deriving DecidableEq

namespace Saved

/-- The JSON value of the row. -/
def toJson (d : Saved) : Json :=
  Json.obj
    [(PyStr.ofString "tasks", Json.arr (d.tasks.map TaskRecord.toJson)),
      (PyStr.ofString "events", Json.arr (d.events.map EventBinding.toJson)),
      (PyStr.ofString "timers", Json.arr (d.timers.map TaskTimerSpec.toJson)),
      (PyStr.ofString "legacy_timers", Json.arr (d.legacyTimers.map TimerSpec.toJson)),
      (PyStr.ofString "runs", Json.obj (d.runs.map fun run => (run.event.runId, run.toJson))),
      (PyStr.ofString "query_results",
        Json.obj (d.queryResults.map fun record => (record.payload.runId, record.toJson)))]

/-- The records of a dictionary, which know their own keys. -/
def asRecords {α : Type} (dec : Json → Option α) (v : Json) : Option (List α) :=
  (Json.asItems dec v).map fun items => items.map Prod.snd

/-- Read a row; `legacy_timers` and `query_results` may be missing. -/
def ofJson (v : Json) : Option Saved := do
  let tasks ← (v.get "tasks").bind (Json.asList TaskRecord.ofJson)
  let events ← (v.get "events").bind (Json.asList EventBinding.ofJson)
  let timers ← (v.get "timers").bind (Json.asList TaskTimerSpec.ofJson)
  let legacyTimers ← Json.asList TimerSpec.ofJson ((v.get "legacy_timers").getD (Json.arr []))
  let runs ← (v.get "runs").bind (asRecords Run.ofJson)
  let queryResults ←
    asRecords QueryResult.ofJson ((v.get "query_results").getD (Json.obj []))
  return { tasks, events, timers, legacyTimers, runs, queryResults }

theorem asRecords_map {α : Type} {enc : α → Json} {dec : Json → Option α} (key : α → PyStr)
    (h : ∀ a, dec (enc a) = some a) (l : List α) :
    asRecords dec (Json.obj (l.map fun a => (key a, enc a))) = some l := by
  have hl : (l.map fun a => (key a, enc a)) =
      (l.map fun a => (key a, a)).map fun e => (e.1, enc e.2) := by
    rw [List.map_map]
    rfl
  rw [asRecords, hl, Json.asItems_map h, Option.map_some, List.map_map]
  exact congrArg some (List.map_id l)

/-- **Nothing that is written is lost when it is read.** -/
@[simp] theorem ofJson_toJson (d : Saved) : ofJson d.toJson = some d := by
  have htasks := Json.asList_map (f := id) TaskRecord.ofJson_toJson d.tasks
  have hevents := Json.asList_map (f := id) EventBinding.ofJson_toJson d.events
  have htimers := Json.asList_map (f := id) TaskTimerSpec.ofJson_toJson d.timers
  have hlegacy := Json.asList_map (f := id) TimerSpec.ofJson_toJson d.legacyTimers
  have hruns := asRecords_map (fun run : Run => run.event.runId) Run.ofJson_toJson d.runs
  have hresults := asRecords_map (fun record : QueryResult => record.payload.runId)
    QueryResult.ofJson_toJson d.queryResults
  simp only [List.map_id] at htasks hevents htimers hlegacy
  simp [ofJson, toJson, htasks, hevents, htimers, hlegacy, hruns, hresults]

end Saved

namespace Tables

/-- What the row holds for these tables. -/
def saved (offset : ℚ) (t : Tables) : Saved where
  tasks := TaskStore.list t.registry.tasks
  events := (EventStore.snapshot t.registry.bindings).map BindingObject.binding
  timers := t.registry.taskTimers.values.map (TaskTimerSpec.shift offset)
  legacyTimers := t.registry.timers.values.map (TimerSpec.shift offset)
  runs := t.runs.values
  queryResults := t.queryResults.values

/-- `TaskEngine._snapshot`; without wall-clock times the offset is `0`. -/
def snapshot (offset : ℚ) (t : Tables) : Json := (t.saved offset).toJson

/-- New objects for bindings, with the identities from `objects` on. -/
def buildObjects : ℕ → List EventBinding → List BindingObject
  | _, [] => []
  | id, b :: bs => ⟨id, b⟩ :: buildObjects (id + 1) bs

/-- `TaskEngine._restore`, for a row that has been read. -/
def restoreSaved (offset : ℚ) (d : Saved) (t : Tables) : Tables where
  registry :=
    { tasks := Table.ofList d.tasks
      bindings := Table.ofList (buildObjects t.registry.objects d.events)
      taskTimers := Table.ofList (d.timers.map (TaskTimerSpec.shift (-offset)))
      timers := Table.ofList (d.legacyTimers.map (TimerSpec.shift (-offset)))
      uuids := t.registry.uuids
      objects := t.registry.objects + d.events.length }
  runs := Table.ofList d.runs
  queryResults := Table.ofList d.queryResults
  workers := t.workers

/-- `TaskEngine._restore`. -/
def restore (offset : ℚ) (row : Json) (t : Tables) : Option Tables :=
  (Saved.ofJson row).map fun d => restoreSaved offset d t

/-! ### Restoring a snapshot -/

/-- The same tables: tasks, bindings and timers as dictionaries, runs and query results in their
order. -/
structure Agree (t t' : Tables) : Prop where
  tasks : Table.Same t.registry.tasks t'.registry.tasks
  bindings : ∀ k, (t.registry.bindings.get? k).map BindingObject.binding =
    (t'.registry.bindings.get? k).map BindingObject.binding
  taskTimers : t.registry.taskTimers = t'.registry.taskTimers
  timers : t.registry.timers = t'.registry.timers
  runs : t.runs = t'.runs
  queryResults : t.queryResults = t'.queryResults

theorem Agree.refl (t : Tables) : Agree t t :=
  ⟨Table.Same.refl _, fun _ => rfl, rfl, rfl, rfl, rfl⟩

theorem Agree.symm {t t' : Tables} (h : Agree t t') : Agree t' t :=
  ⟨h.tasks.symm, fun k => (h.bindings k).symm, h.taskTimers.symm, h.timers.symm, h.runs.symm,
    h.queryResults.symm⟩

theorem Agree.trans {t t' t'' : Tables} (h : Agree t t') (h' : Agree t' t'') : Agree t t'' :=
  ⟨h.tasks.trans h'.tasks, fun k => (h.bindings k).trans (h'.bindings k),
    h.taskTimers.trans h'.taskTimers, h.timers.trans h'.timers, h.runs.trans h'.runs,
    h.queryResults.trans h'.queryResults⟩

theorem map_binding_buildObjects (id : ℕ) (bs : List EventBinding) :
    (buildObjects id bs).map BindingObject.binding = bs := by
  induction bs generalizing id with
  | nil => rfl
  | cons b bs ih => simp [buildObjects, ih]

/-- New objects have identities that no object had before. -/
theorem id_of_mem_buildObjects {id : ℕ} {bs : List EventBinding} {o : BindingObject}
    (h : o ∈ buildObjects id bs) : id ≤ o.id ∧ o.id < id + bs.length := by
  induction bs generalizing id with
  | nil => cases h
  | cons b bs ih =>
      rcases List.mem_cons.1 h with rfl | h
      · exact ⟨Nat.le_refl _, by simp⟩
      · have := ih h
        simp only [List.length_cons]
        omega

/-- The tables with their deadlines read at another zero of the clock. -/
def shift (offset : ℚ) (t : Tables) : Tables :=
  { t with
    registry := { t.registry with
      taskTimers := t.registry.taskTimers.map (TaskTimerSpec.shift offset)
        (TaskTimerSpec.taskId_shift offset)
      timers := t.registry.timers.map (TimerSpec.shift offset) (TimerSpec.name_shift offset) } }

@[simp] theorem shift_tasks (offset : ℚ) (t : Tables) :
    (t.shift offset).registry.tasks = t.registry.tasks := rfl

@[simp] theorem shift_bindings (offset : ℚ) (t : Tables) :
    (t.shift offset).registry.bindings = t.registry.bindings := rfl

@[simp] theorem shift_runs (offset : ℚ) (t : Tables) : (t.shift offset).runs = t.runs := rfl

@[simp] theorem shift_queryResults (offset : ℚ) (t : Tables) :
    (t.shift offset).queryResults = t.queryResults := rfl

/-- The bindings of a snapshot, as the restored store holds them. -/
def rebuiltBindings (id : ℕ) (bindings : BindingTable) : List BindingObject :=
  buildObjects id ((EventStore.snapshot bindings).map BindingObject.binding)

theorem nodup_rebuiltBindings (id : ℕ) (bindings : BindingTable) :
    ((rebuiltBindings id bindings).map fun o => o.binding.name).Nodup := by
  have h := map_binding_buildObjects id ((EventStore.snapshot bindings).map BindingObject.binding)
  have hsorted := Table.nodup_sorted EventStore.strLe bindings
  rw [rebuiltBindings, ← Function.comp_def EventBinding.name BindingObject.binding,
    ← List.map_map, h, List.map_map]
  exact hsorted

/-- The bindings that are rebuilt are the bindings that were saved. -/
theorem get?_rebuilt (id : ℕ) (bindings : BindingTable) (k : PyStr) :
    ((Table.ofList (rebuiltBindings id bindings) : BindingTable).get? k).map
      BindingObject.binding = (bindings.get? k).map BindingObject.binding := by
  ext b
  simp only [Option.map_eq_some_iff, Table.get?_ofList_iff (nodup_rebuiltBindings id bindings)]
  constructor
  · rintro ⟨o, ⟨ho, rfl⟩, rfl⟩
    have hmem := List.mem_map_of_mem (f := BindingObject.binding) ho
    rw [rebuiltBindings, map_binding_buildObjects] at hmem
    obtain ⟨o', ho', hb⟩ := List.mem_map.1 hmem
    have hget := Table.mem_values_iff.1 (Table.mem_sorted_iff.1 ho')
    rw [hb] at hget
    exact ⟨o', hget, hb⟩
  · rintro ⟨o, ho, rfl⟩
    have hmem : o ∈ EventStore.snapshot bindings :=
      Table.mem_sorted_iff.2 (Table.mem_values_of_get? ho)
    have hmem' := List.mem_map_of_mem (f := BindingObject.binding) hmem
    rw [← map_binding_buildObjects id ((EventStore.snapshot bindings).map BindingObject.binding)]
      at hmem'
    obtain ⟨o', ho', hb⟩ := List.mem_map.1 hmem'
    exact ⟨o', ⟨ho', by rw [hb]; exact Table.key_of_get? (t := bindings) ho⟩, hb⟩

/-- Every object that is rebuilt is new. -/
theorem id_of_get?_rebuilt {id : ℕ} {bindings : BindingTable} {k : PyStr} {o : BindingObject}
    (h : (Table.ofList (rebuiltBindings id bindings) : BindingTable).get? k = some o) :
    id ≤ o.id ∧ o.id < id + (EventStore.snapshot bindings).length := by
  rw [Table.get?_ofList_iff (nodup_rebuiltBindings id bindings)] at h
  simpa using id_of_mem_buildObjects h.1

/-- **Restoring a snapshot gives the same tables**, also under another offset between the clocks:
only the zero of the monotonic clock has moved. -/
theorem restoreSaved_saved (offset offset' : ℚ) (t t₀ : Tables) :
    Agree (restoreSaved offset' (t.saved offset) t₀) (t.shift (offset + -offset')) where
  tasks := Table.ofList_sorted_same _ _
  bindings := get?_rebuilt _ _
  taskTimers := by
    simp only [restoreSaved, saved, shift, List.map_map, TaskTimerSpec.shift_comp]
    exact Table.ofList_map_values _ _ _
  timers := by
    simp only [restoreSaved, saved, shift, List.map_map, TimerSpec.shift_comp]
    exact Table.ofList_map_values _ _ _
  runs := Table.ofList_values _
  queryResults := Table.ofList_values _

theorem shift_zero_agree (t : Tables) : Agree (t.shift 0) t where
  tasks := Table.Same.refl _
  bindings := fun _ => rfl
  taskTimers := Table.map_eq_self _ (TaskTimerSpec.taskId_shift 0) TaskTimerSpec.shift_zero
  timers := Table.map_eq_self _ (TimerSpec.name_shift 0) TimerSpec.shift_zero
  runs := rfl
  queryResults := rfl

/-- **Restoring a snapshot under the same offset gives the same tables.** -/
theorem restore_snapshot (offset : ℚ) (t t₀ : Tables) :
    ∃ t', restore offset (t.snapshot offset) t₀ = some t' ∧ Agree t' t := by
  refine ⟨restoreSaved offset (t.saved offset) t₀, by simp [restore, snapshot], ?_⟩
  have h := restoreSaved_saved offset offset t t₀
  rw [add_neg_cancel] at h
  exact h.trans (shift_zero_agree t)

end Tables
