/-
**The task file.**

`TaskStore` keeps its tasks in a text file with one JSON record a line.  Every change is saved at
once; what cannot be saved does not take place.  A store that starts reads the file again: it splits
the text into lines, reads the record of every line that is not blank, and checks the record.

Main definitions:

* `TaskHost`, `TaskHost.ascii` — the conversions of the runtime that readers rely on, and a small
  instance, for evaluation;
* `TaskFile.recordJson`, `TaskFile.payload`, `TaskFile.save` — what is written;
* `TaskFile.readFields`, `TaskFile.validateLoaded`, `TaskFile.readLines`, `TaskFile.reload` — how it
  is read;
* `TaskFile.create`, `TaskFileOp`, `TaskFile.step`, `TaskFile.machine` — the operations of a store
  with a file.
-/

import CatAgent.JsonPrefix
import CatAgent.Machine
import CatAgent.TaskStore
import CatAgent.TextLines

set_option relaxedAutoImplicit false
set_option autoImplicit false

/-- Conversions of the Python runtime. -/
structure TaskHost extends Host where
  reader : JsonReader
  /-- `float(str(x))` is `x`. -/
  reads : Json.Reads reader strFloat
  /-- `str` of a value. -/
  str : Json → PyStr
  str_str : ∀ s, str (Json.str s) = s
  /-- Only the empty string is written as nothing. -/
  str_ne_nil : ∀ v, v ≠ Json.str [] → str v ≠ []
  /-- `int` of a value, unless it raises. -/
  int : Json → Option ℤ
  int_int : ∀ n, int (Json.int n) = some n
  /-- `float` of a value, unless it raises. -/
  float : Json → Option PyNumber
  /-- A positive number that is not too large becomes a float. -/
  float_num : ∀ p : Period, Binary64.overflows p.val = false →
    float (Json.num p.val) = some (PyNumber.finite p.float.val)
  /-- `repr` of a value. -/
  reprJson : Json → PyStr

/-! ### An ASCII runtime -/

namespace Json

/-- A number without its sign, as a fraction. -/
def unsignedFraction (s : PyStr) : ℚ :=
  mkRat (ofDigits (s.takeWhile isDigit)) (ofDigits (s.dropWhile isDigit).tail)

/-- A number, as a fraction. -/
def fraction (s : PyStr) : ℚ :=
  match s with
  | [] => 0
  | c :: rest => if c.val = 0x2D then -unsignedFraction rest else unsignedFraction s

/-- The digits of numerator and denominator. -/
def fractionText (q : ℚ) : PyStr :=
  PyStr.ofString (toString q.num) ++ PyStr.ofString "." ++ PyStr.ofString (toString q.den)

/-- A reader that takes the part after the point for the denominator. -/
def fractionReader : JsonReader where
  parseFloat := fun s => num (fraction s)
  parseConstant := fun _ => null

theorem ne_of_isDigit {c : CodePoint} (h : isDigit c = true) : c.val ≠ 0x2D := by
  simp only [isDigit, Bool.and_eq_true, decide_eq_true_eq] at h
  omega

theorem reads_fractionText : Reads fractionReader fractionText := by
  intro q
  have hnum : ∀ c ∈ (Nat.toDigits 10 q.num.natAbs).map PyStr.ofChar, isDigit c = true :=
    fun c hc => isDigit_of_mem_toDigits hc
  have hden : ∀ c ∈ (Nat.toDigits 10 q.den).map PyStr.ofChar, isDigit c = true :=
    fun c hc => isDigit_of_mem_toDigits hc
  -- The digits of the numerator and of the denominator, with the point between them.
  generalize hn : (Nat.toDigits 10 q.num.natAbs).map PyStr.ofChar = n at hnum
  generalize hd : (Nat.toDigits 10 q.den).map PyStr.ofChar = d at hden
  have htake : (n ++ PyStr.ofChar '.' :: d).takeWhile isDigit = n := by
    rw [List.takeWhile_append_of_pos hnum]
    simp [show isDigit (PyStr.ofChar '.') = false by decide]
  have hdrop : (n ++ PyStr.ofChar '.' :: d).dropWhile isDigit = PyStr.ofChar '.' :: d := by
    rw [List.dropWhile_append_of_pos hnum]
    simp [show isDigit (PyStr.ofChar '.') = false by decide]
  have htail : isTail (PyStr.ofChar '.' :: d) = true := by
    have hne : d ≠ [] := by
      rw [← hd]
      simp [Nat.toDigits_ne_nil]
    obtain ⟨htake, hdrop⟩ := takeWhile_of_all hden
    simp only [isTail, htake, hdrop]
    simp [hne, isExponent, show (PyStr.ofChar '.').val = 0x2E from rfl]
  have hform : isUnsigned (n ++ PyStr.ofChar '.' :: d) = true := by
    have hwhole : isWhole n = true := hn ▸ isWhole_toDigits q.num.natAbs
    rw [isUnsigned, htake, hdrop, hwhole, htail]
    rfl
  have hunsigned : ∀ negative, (hooks fractionReader).unsigned negative (n ++ PyStr.ofChar '.' :: d) =
      some (num (fraction ((if negative then PyStr.ofString "-" else []) ++
        (n ++ PyStr.ofChar '.' :: d)))) := by
    intro negative
    rw [JsonHooks.unsigned, if_pos hform, hdrop]
    cases negative <;> rfl
  have htext : fractionText q = (if q.num < 0 then PyStr.ofString "-" else []) ++
      (n ++ PyStr.ofChar '.' :: d) := by
    rw [fractionText, ofString_toString_int, ofString_toString_nat, hn, hd]
    simp [PyStr.ofString]
  have hvalue : unsignedFraction (n ++ PyStr.ofChar '.' :: d) = mkRat q.num.natAbs q.den := by
    have hn' : ofDigits n = q.num.natAbs := hn ▸ ofDigits_toDigits _
    have hd' : ofDigits d = q.den := hd ▸ ofDigits_toDigits _
    rw [unsignedFraction, htake, hdrop, List.tail_cons, hn', hd']
  -- An unsigned text begins with a digit, so the sign is read off the first character.
  obtain ⟨c, rest, hs⟩ : ∃ c rest, n ++ PyStr.ofChar '.' :: d = c :: rest ∧ c.val ≠ 0x2D := by
    obtain ⟨c, rest, hs, hc⟩ := head_of_unsigned hform
    exact ⟨c, rest, hs, ne_of_isDigit hc⟩
  constructor
  · rw [htext]
    have hq : num (fraction ((if q.num < 0 then PyStr.ofString "-" else []) ++
        (n ++ PyStr.ofChar '.' :: d))) = num q := by
      congr 1
      conv_rhs => rw [← Rat.mkRat_self q]
      split_ifs with hneg
      · change -unsignedFraction (n ++ PyStr.ofChar '.' :: d) = _
        rw [hvalue, Rat.neg_mkRat]
        congr 1
        omega
      · rw [List.nil_append]
        rw [hs.1] at hvalue ⊢
        simp only [fraction, if_neg hs.2, hvalue]
        congr 1
        omega
    rw [← hq]
    split_ifs with hneg
    · exact hunsigned true
    · rw [List.nil_append]
      have h := hunsigned false
      rw [hs.1] at h ⊢
      rw [number, JsonHooks.number, if_neg hs.2]
      exact h
  · intro c hc
    rw [fractionText, List.mem_append, List.mem_append] at hc
    rcases hc with (hc | hc) | hc
    · exact isNumeric_toString q.num c hc
    · rw [List.mem_singleton.1 hc]
      decide
    · exact isNumeric_toString q.den c hc
end Json

/-- A runtime for texts in ASCII, on which the definitions can be evaluated. -/
def TaskHost.ascii : TaskHost where
  toHost := { Host.ascii with
    strFloat := Json.fractionText
    strFloat_encodable := fun q => by simp [Json.fractionText] }
  reader := Json.fractionReader
  reads := Json.reads_fractionText
  str := fun v =>
    match v with
    | Json.str s => s
    | v => v.compact Json.fractionText
  str_str := fun _ => rfl
  str_ne_nil := by
    intro v hv
    obtain ⟨c, rest, hc, _⟩ := Json.compact_head Json.reads_fractionText v
    cases v with
    | str s =>
        intro hnil
        exact hv (congrArg Json.str hnil)
    | _ => exact fun hnil => nomatch hc.symm.trans hnil
  int := fun v =>
    match v with
    | Json.int n => some n
    | _ => none
  int_int := fun _ => rfl
  float := fun v =>
    match v with
    | Json.num q => PyNumber.float? q
    | Json.int n => PyNumber.float? n
    | _ => none
  float_num := by
    intro p hp
    simp only [PyNumber.float?, abs_of_pos p.property, hp, dif_pos p.property]
    rfl
  reprJson := fun v =>
    match v with
    | Json.str s => Host.ascii.repr s
    | v => v.compact Json.fractionText

/-- The file. -/
inductive StoredFile where
  | absent
  /-- Reading raises an `OSError`. -/
  | unreadable (reason : PyStr)
  | text (s : PyStr)

/-- A store with its file. -/
structure TaskFile where
  file : StoredFile
  tasks : TaskTable
  /-- How many identifiers have been handed out. -/
  uuids : ℕ

/-- What is read of a record before it is checked. -/
structure RawTask where
  taskId : ℤ
  description : PyStr
  text : PyStr
  method : PyStr
  skills : List PyStr
  timerPeriodSeconds : Option PyNumber
  enabled : Bool
  executor : PyStr
  agentId : Json

namespace TaskFile

variable (host : TaskHost) (path : PyStr) (maxTasks : ℕ)

/-! ### Writing -/

/-- A record as it is written. -/
def recordJson (task : TaskRecord) : Json :=
  Json.obj [("task", Json.int task.taskId), ("description", Json.str task.description),
    ("text", Json.str task.text), ("method", Json.str task.method.name),
    ("skills", Json.arr (task.skills.map Json.str)),
    ("timer_period_seconds", Json.ofOption (fun p => Json.num p.val) task.timerPeriodSeconds),
    ("enabled", Json.bool task.enabled), ("generation", Json.str task.generation),
    ("executor", Json.str task.executor.name), ("agent_id", Json.ofOption Json.str task.agentId)]

/-- The line of a record. -/
def line (task : TaskRecord) : PyStr := (recordJson task).compact host.strFloat

/-- The text of the file. -/
def payload (tasks : TaskTable) : PyStr :=
  (TaskStore.list tasks).flatMap fun task => line host task ++ [PyStr.lineFeed]

/-- `TaskStore._save`; `written` says whether the operating system takes the text. -/
def save (written : Bool) (tasks : TaskTable) : Except PyError StoredFile := do
  raiseIf (¬ PyStr.Encodable (payload host tasks) ∨ written = false) PyError.saveFailed
  return StoredFile.text (payload host tasks)

/-! ### Reading -/

/-- `item.get(key, default)`. -/
def getD (item : Json) (key : PyStr) (default : Json) : Json := (item.get key).getD default

/-- `bool(v)`. -/
def truthy : Json → Bool
  | Json.null => false
  | Json.bool b => b
  | Json.int n => decide (n ≠ 0)
  | Json.num q => decide (q ≠ 0)
  | Json.str s => !s.isEmpty
  | Json.arr xs => !xs.isEmpty
  | Json.obj items => !items.isEmpty

/-- The fields of a record; `none` is an exception that makes the record invalid. -/
def readFields (item : Json) : Option RawTask := do
  let taskId ← (item.get "task").bind host.int
  let description ← (item.get "description").map fun v => PyStr.strip (host.str v)
  let text ← (item.get "text").map fun v => PyStr.strip (host.str v)
  let method := host.lower (PyStr.strip (host.str (getD item "method" (Json.str "task"))))
  let skills ← match getD item "skills" (Json.arr []) with
    | Json.arr xs => some (xs.map fun v => PyStr.strip (host.str v))
    | _ => none
  let timerPeriodSeconds ← match getD item "timer_period_seconds" Json.null with
    | Json.null => some none
    | v => (host.float v).map some
  return {
    taskId, description, text, method, skills, timerPeriodSeconds
    enabled := truthy (getD item "enabled" (Json.bool true))
    executor := host.str (getD item "executor" (Json.str "litert"))
    agentId := getD item "agent_id" Json.null }

/-- `where`: the end of the messages. -/
def place (lineNumber : ℕ) : PyStr :=
  PyStr.ofString " at " ++ path ++ PyStr.ofString ":" ++ PyStr.ofString (toString lineNumber)

/-- The name of the agent, if it is none or has the form of one. -/
def validateAgent (where_ : PyStr) : Json → Except PyError (Option PyStr)
  | Json.null => Except.ok none
  | Json.str s => do
      raiseIf (isAgentId s = false) (PyError.taskStoreError
        (PyStr.ofString "invalid task agent_id " ++ host.reprJson (Json.str s) ++ where_))
      return some s
  | v => Except.error (PyError.taskStoreError
      (PyStr.ofString "invalid task agent_id " ++ host.reprJson v ++ where_))

/-- `TaskStore._validate_record`, as `reload` calls it; it returns the method, the period and the
name of the agent that the checks have recognised. -/
def validateLoaded (lineNumber : ℕ) (raw : RawTask) :
    Except PyError (TaskMethod × Option Period × Option PyStr) := do
  let where_ := place path lineNumber
  raiseIf (raw.taskId < 1 ∨ raw.taskId > maxTasks) (PyError.taskStoreError
    (PyStr.ofString "task id " ++ PyStr.ofString (toString raw.taskId) ++ where_ ++
      PyStr.ofString " is outside 1.." ++ PyStr.ofString (toString maxTasks)))
  raiseIf (raw.description = []) (PyError.taskStoreError
    (PyStr.ofString "empty task description" ++ where_))
  raiseIf (raw.text = []) (PyError.taskStoreError (PyStr.ofString "empty task text" ++ where_))
  let method ← match TaskMethod.ofName raw.method with
    | some m => Except.ok m
    | none => Except.error (PyError.taskStoreError
        (PyStr.ofString "invalid task method " ++ host.repr raw.method ++ where_))
  raiseIf ([] ∈ raw.skills) (PyError.taskStoreError
    (PyStr.ofString "empty task skill name" ++ where_))
  raiseIf (¬ raw.skills.Nodup) (PyError.taskStoreError
    (PyStr.ofString "duplicate task skill name" ++ where_))
  let agentId ← validateAgent host where_ raw.agentId
  let period ← TaskStore.validatePeriod where_ raw.timerPeriodSeconds
  return (method, period, agentId)

/-- A line of the file is read: the record, and how many identifiers have been handed out then. -/
def readRecord (lineNumber uuids : ℕ) (text : PyStr) : Except PyError (TaskRecord × ℕ) :=
  match Json.loads host.reader text with
  | none => Except.error (PyError.taskStoreError
      (PyStr.ofString "invalid task record" ++ place path lineNumber))
  | some item =>
      match readFields host item with
      | none => Except.error (PyError.taskStoreError
          (PyStr.ofString "invalid task record" ++ place path lineNumber))
      | some raw => do
          let executor ← TaskStore.validateExecutor raw.executor
          let (method, period, agentId) ← validateLoaded host path maxTasks lineNumber raw
          let generation := getD item "generation" Json.null
          let record : TaskRecord :=
            { taskId := raw.taskId, description := raw.description, text := raw.text, method
              skills := raw.skills, timerPeriodSeconds := period, enabled := raw.enabled
              generation := if truthy generation then host.str generation else host.uuid4 uuids
              executor, agentId }
          return (record, if truthy generation then uuids else uuids + 1)

/-- The lines are read one after the other. -/
def readLines : ℕ → List PyStr → ℕ → TaskTable → Except PyError (ℕ × TaskTable)
  | _, [], uuids, tasks => Except.ok (uuids, tasks)
  | lineNumber, raw :: rest, uuids, tasks =>
      if PyStr.strip raw = [] then readLines (lineNumber + 1) rest uuids tasks
      else do
        let (record, uuids) ← readRecord host path maxTasks lineNumber uuids (PyStr.strip raw)
        raiseIf (tasks.get? record.taskId ≠ none) (PyError.taskStoreError
          (PyStr.ofString "duplicate task id " ++ PyStr.ofString (toString record.taskId) ++
            place path lineNumber))
        readLines (lineNumber + 1) rest uuids (tasks.put record)

/-- `TaskStore.reload`. -/
def reload (s : TaskFile) : Except PyError TaskFile :=
  match s.file with
  | StoredFile.absent => Except.ok { s with tasks := Table.empty }
  | StoredFile.unreadable reason => Except.error (PyError.taskStoreError
      (PyStr.ofString "cannot read task store " ++ path ++ PyStr.ofString ": " ++ reason))
  | StoredFile.text text => do
      -- Reading translates the ends of lines, which makes no difference to `splitlines`.
      let (uuids, tasks) ←
        readLines host path maxTasks 1 (PyStr.splitlines text) s.uuids Table.empty
      return { s with tasks, uuids }

/-! ### Operations -/

/-- `TaskStore._first_free_id`. -/
def firstFreeId (tasks : TaskTable) : Option ℤ :=
  ((List.range maxTasks).map fun n => (n : ℤ) + 1).find? fun k => decide (tasks.get? k = none)

/-- `TaskStore.create`, up to the saving. -/
def create (generation : PyStr) (spec : TaskSpec) (tasks : TaskTable) :
    Except PyError (TaskRecord × TaskTable) := do
  let executor ← TaskStore.validateExecutor spec.executor
  let description := PyStr.strip spec.description
  let text := PyStr.strip spec.text
  let method := host.lower (PyStr.strip spec.method)
  let skills := spec.skills.map PyStr.strip
  let (m, period) ← TaskStore.validateRecord host.toHost description text method skills
    spec.timerPeriodSeconds spec.agentId
  match firstFreeId maxTasks tasks with
  | none => throw (PyError.taskStoreError (PyStr.ofString "task limit reached (" ++
      PyStr.ofString (toString maxTasks) ++ PyStr.ofString ")"))
  | some taskId =>
      let record : TaskRecord :=
        { taskId, description, text, method := m, skills, timerPeriodSeconds := period,
          enabled := spec.enabled, generation, executor, agentId := spec.agentId }
      return (record, tasks.put record)

-- With the same limit it creates what the store in the engine creates.
example : create host TaskStore.maxTasks = TaskStore.create host.toHost := rfl

end TaskFile

/-- The operations of the store. -/
inductive TaskFileOp where
  | create (spec : TaskSpec)
  | setEnabled (taskId : ℤ) (enabled preserveGeneration : Bool)
  | setTimerPeriod (taskId : ℤ) (periodSeconds : PyNumber)
  | setExecutor (taskId : ℤ) (executor : PyStr)
  | delete (taskId : ℤ)

namespace TaskFile

variable (host : TaskHost) (path : PyStr) (maxTasks : ℕ)

/-- The table that an operation saves, and the table that is left if it cannot be saved. -/
def attempt (s : TaskFile) : TaskFileOp → Except PyError (TaskTable × TaskTable)
  | TaskFileOp.create spec => do
      let (_, tasks) ← create host maxTasks (host.uuid4 s.uuids) spec s.tasks
      return (tasks, s.tasks)
  | TaskFileOp.setEnabled taskId enabled preserveGeneration => do
      let (_, tasks) ← TaskStore.setEnabled (host.uuid4 s.uuids) taskId enabled preserveGeneration
        s.tasks
      return (tasks, s.tasks)
  | TaskFileOp.setTimerPeriod taskId periodSeconds => do
      let (_, tasks) ← TaskStore.setTimerPeriod (host.uuid4 s.uuids) taskId periodSeconds s.tasks
      return (tasks, s.tasks)
  | TaskFileOp.setExecutor taskId executor => do
      let (_, tasks) ← TaskStore.setExecutor (host.uuid4 s.uuids) taskId executor s.tasks
      return (tasks, s.tasks)
  | TaskFileOp.delete taskId => do
      let record ← TaskStore.require s.tasks taskId
      -- A record that is put back comes last.
      return (s.tasks.erase taskId, (s.tasks.erase taskId).put record)

/-- An operation is carried out and saved, or has no effect. -/
def step (s : TaskFile) (i : TaskFileOp × Bool) : TaskFile :=
  match attempt host maxTasks s i.1 with
  | Except.error _ => { s with uuids := s.uuids + 1 }
  | Except.ok (tasks, former) =>
      match save host i.2 tasks with
      | Except.ok file => { file, tasks, uuids := s.uuids + 1 }
      | Except.error _ => { s with tasks := former, uuids := s.uuids + 1 }

/-- A store starts by reading its file. -/
def machine : Machine TaskFile (TaskFileOp × Bool) where
  init := fun s => ∃ s₀ : TaskFile, s₀.tasks = Table.empty ∧ reload host path maxTasks s₀ = Except.ok s
  step := step host maxTasks

end TaskFile
