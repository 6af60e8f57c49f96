/-
**What the task file gives back.**

A record that the operations have admitted, or that has been read, is one that the reader admits as
well, so its line is read back as it is.  But lines are split where Unicode sees the end of a line,
and `json.dumps` leaves three of those code points as they are: a record that contains one of them
is cut, and its first part cannot be read.  A period is read with `float`, so one that was created
from an int may come back as another number.

Main definitions:

* `TaskFile.Admissible` — records that the reader admits;
* `TaskFile.RoundTrips` — what has been saved is read back;
* `TaskFile.Unbroken` — no text contains one of the three code points;
* `TaskFile.ExactPeriods` — every period is a float.

Main results:

* `TaskFile.admitted_of_reachable` — every record of a store is admissible;
* `TaskFile.readLines_whole`, `TaskFile.readLines_cut` — a file whose lines are whole is read
  back, and any other one is not read at all;
* `TaskFile.roundTrips_iff` — **a store is saved and read back exactly if its texts can be encoded,
  no text contains one of the three code points, and every period is a float**.
-/

import CatAgent.TaskFile

set_option relaxedAutoImplicit false
set_option autoImplicit false

namespace TaskFile

variable {host : TaskHost} {path : PyStr} {maxTasks : ℕ}

/-! ### Records that are admitted -/

variable (host maxTasks) in
/-- The reader admits the record. -/
structure Admissible (task : TaskRecord) : Prop where
  taskId : 1 ≤ task.taskId ∧ task.taskId ≤ maxTasks
  description : PyStr.strip task.description = task.description ∧ task.description ≠ []
  text : PyStr.strip task.text = task.text ∧ task.text ≠ []
  method : host.lower task.method.name = task.method.name
  skills : (∀ s ∈ task.skills, PyStr.strip s = s) ∧ [] ∉ task.skills ∧ task.skills.Nodup
  agentId : ∀ s ∈ task.agentId, isAgentId s = true
  generation : task.generation ≠ []
  period : ∀ p ∈ task.timerPeriodSeconds, Binary64.overflows p.val = false

variable (host maxTasks) in
/-- Every record of the table is admissible. -/
def Admitted (tasks : TaskTable) : Prop :=
  ∀ k task, tasks.get? k = some task → Admissible host maxTasks task

/-- The record as its line is read: its period is a float. -/
def asRead (task : TaskRecord) : TaskRecord :=
  { task with timerPeriodSeconds := task.timerPeriodSeconds.map Period.float }

/-- The texts of a record that the file contains in full. -/
def texts (task : TaskRecord) : List PyStr :=
  task.description :: task.text :: task.generation :: task.skills

/-! ### Reading a record back -/

theorem strip_name (m : TaskMethod) : PyStr.strip m.name = m.name := by
  cases m <;> decide

theorem wellFormed_recordJson (task : TaskRecord) : Json.WellFormed (recordJson task) := by
  have hskills : Json.WellFormedList (task.skills.map Json.str) := by
    rw [Json.wellFormedList_iff]
    intro v hv
    obtain ⟨s, _, rfl⟩ := List.mem_map.1 hv
    trivial
  have hperiod : Json.WellFormed
      (Json.ofOption (fun p : Period => Json.num p.val) task.timerPeriodSeconds) := by
    cases task.timerPeriodSeconds <;> trivial
  have hagent : Json.WellFormed (Json.ofOption Json.str task.agentId) := by
    cases task.agentId <;> trivial
  have hkeys : (["task", "description", "text", "method", "skills", "timer_period_seconds",
      "enabled", "generation", "executor", "agent_id"].map PyStr.ofString).Nodup := by decide
  exact ⟨hkeys, trivial, trivial, trivial, trivial, hskills, hperiod, trivial, trivial, trivial,
    hagent, trivial⟩

/-- The fields of a record are read back. -/
theorem readFields_recordJson {task : TaskRecord} (h : Admissible host maxTasks task) :
    readFields host (recordJson task) = some
      { taskId := task.taskId, description := task.description, text := task.text
        method := task.method.name, skills := task.skills
        timerPeriodSeconds := task.timerPeriodSeconds.map fun p => PyNumber.finite p.float.val
        enabled := task.enabled, executor := task.executor.name
        agentId := Json.ofOption Json.str task.agentId } := by
  have hskills : (task.skills.map Json.str).map (fun v => PyStr.strip (host.str v)) = task.skills := by
    rw [List.map_map]
    refine (List.map_congr_left fun s hs => ?_).trans (List.map_id _)
    rw [Function.comp_apply, host.str_str, h.skills.1 s hs]
    rfl
  simp only [readFields, recordJson, getD, Json.get_obj, Json.find_cons, PyStr.ofString_inj]
  cases hp : task.timerPeriodSeconds with
  | none =>
      simp [host.int_int, host.str_str, h.description.1, h.text.1, strip_name, h.method, hskills,
        Json.ofOption, truthy]
  | some p =>
      simp [host.int_int, host.str_str, h.description.1, h.text.1, strip_name, h.method, hskills,
        Json.ofOption, truthy, host.float_num p (h.period p hp)]

theorem validateAgent_ofOption {agentId : Option PyStr} (h : ∀ s ∈ agentId, isAgentId s = true)
    (where_ : PyStr) :
    validateAgent host where_ (Json.ofOption Json.str agentId) = Except.ok agentId := by
  cases agentId with
  | none => rfl
  | some s =>
      have hs : isAgentId s = true := h s rfl
      simp only [Json.ofOption, validateAgent, hs, raiseIf]
      rfl

/-- The checks of the reader accept what is admissible. -/
theorem validateLoaded_of_admissible {task : TaskRecord} (h : Admissible host maxTasks task)
    (lineNumber : ℕ) :
    validateLoaded host path maxTasks lineNumber
      { taskId := task.taskId, description := task.description, text := task.text
        method := task.method.name, skills := task.skills
        timerPeriodSeconds := task.timerPeriodSeconds.map fun p => PyNumber.finite p.float.val
        enabled := task.enabled, executor := task.executor.name
        agentId := Json.ofOption Json.str task.agentId } =
      Except.ok (task.method, task.timerPeriodSeconds.map Period.float, task.agentId) := by
  have hid : ¬ (task.taskId < 1 ∨ task.taskId > maxTasks) := by
    have := h.taskId
    omega
  simp only [validateLoaded, TaskMethod.ofName_name, validateAgent_ofOption h.agentId, raiseIf,
    if_neg hid, if_neg h.description.2, if_neg h.text.2, if_neg h.skills.2.1,
    not_not.2 h.skills.2.2, if_false]
  cases hp : task.timerPeriodSeconds with
  | none => rfl
  | some p =>
      have hperiod := fun e => (@PyNumber.period_eq_ok_iff e _ p.float).2
        ⟨rfl, Period.overflows_float (h.period p hp)⟩
      simp only [Option.map_some, TaskStore.validatePeriod, hperiod]
      rfl

/-- **A record is read back from its line.** -/
theorem readRecord_line {task : TaskRecord} (h : Admissible host maxTasks task)
    (lineNumber uuids : ℕ) :
    readRecord host path maxTasks lineNumber uuids (line host task) =
      Except.ok (asRead task, uuids) := by
  have hloads : Json.loads host.reader (line host task) = some (recordJson task) :=
    Json.loads_compact host.reads (wellFormed_recordJson task)
  have hgeneration : getD (recordJson task) "generation" Json.null = Json.str task.generation := by
    simp [getD, recordJson]
  have htruthy : truthy (Json.str task.generation) = true := by
    simp [truthy, h.generation]
  have hexecutor : TaskStore.validateExecutor task.executor.name = Except.ok task.executor := by
    simp only [TaskStore.validateExecutor, Policy.ofName_name]
  unfold readRecord
  rw [hloads]
  simp only [readFields_recordJson h, hexecutor, validateLoaded_of_admissible h, hgeneration, htruthy,
    host.str_str, if_true]
  rfl

/-! ### Lines -/

/-- The code points that end a line and that JSON texts contain as they are. -/
def isBreak (c : CodePoint) : Bool := c.val == 0x85 || c.val == 0x2028 || c.val == 0x2029

/-- No text of the record contains one of them. -/
def Whole (task : TaskRecord) : Prop := ∀ s ∈ texts task, ∀ c ∈ s, isBreak c = false

/-- A text of printable characters only. -/
def Plain (s : PyStr) : Prop := ∀ c ∈ s, Json.isPrintable c = true

theorem plain_ofString {s : String} (h : (PyStr.ofString s).all Json.isPrintable = true) :
    Plain (PyStr.ofString s) := fun c hc => List.all_eq_true.1 h c hc

/-- The names of agents are plain. -/
theorem plain_of_isAgentId {s : PyStr} (h : isAgentId s = true) : Plain s := by
  simp only [isAgentId, Bool.and_eq_true, decide_eq_true_eq] at h
  obtain ⟨htake, hdrop⟩ := h
  intro c hc
  rw [← List.take_append_drop 6 s, List.mem_append, htake] at hc
  rcases hc with hc | hc
  · exact plain_ofString (by decide) c hc
  · have hdigit : 48 ≤ c.val ∧ c.val ≤ 57 := by
      split at hdrop
      · rename_i hnil
        rw [hnil] at hc
        cases hc
      · rename_i d rest hcons
        rw [hcons] at hc
        simp only [Bool.and_eq_true, decide_eq_true_eq, List.all_eq_true] at hdrop
        rcases List.mem_cons.1 hc with rfl | hc
        · omega
        · exact hdrop.2 c hc
    simp only [Json.isPrintable, Bool.and_eq_true, decide_eq_true_eq]
    omega

theorem plain_names (task : TaskRecord) : Plain task.method.name ∧ Plain task.executor.name := by
  constructor
  · cases task.method <;> exact plain_ofString (by decide)
  · rcases task.executor with _ | _ | _ <;> exact plain_ofString (by decide)

/-- The strings of a record: its texts, and plain ones. -/
theorem strings_recordJson {task : TaskRecord} (hagent : ∀ s ∈ task.agentId, isAgentId s = true) :
    (∀ s ∈ Json.strings (recordJson task), s ∈ texts task ∨ Plain s) ∧
      ∀ s ∈ texts task, s ∈ Json.strings (recordJson task) := by
  have hkey : ∀ {s : String}, (PyStr.ofString s).all Json.isPrintable = true →
      PyStr.ofString s ∈ texts task ∨ Plain (PyStr.ofString s) := fun h => Or.inr (plain_ofString h)
  have hagent' : ∀ s ∈ Json.strings (Json.ofOption Json.str task.agentId),
      s ∈ texts task ∨ Plain s := by
    cases hid : task.agentId with
    | none => nofun
    | some ident =>
        intro s hs
        rw [List.mem_singleton.1 hs]
        exact Or.inr (plain_of_isAgentId (hagent ident hid))
  have hperiod : Json.strings (Json.ofOption (fun p : Period => Json.num p.val)
      task.timerPeriodSeconds) = [] := by
    cases task.timerPeriodSeconds <;> rfl
  have hskills : Json.stringsList (task.skills.map Json.str) = task.skills := by
    induction task.skills with
    | nil => rfl
    | cons s l ih => rw [List.map_cons, Json.stringsList, ih]; rfl
  have hstrings : Json.strings (recordJson task) =
      (["task", "description", task.description, "text", task.text, "method", task.method.name,
        "skills"] : List PyStr) ++ task.skills ++ (["timer_period_seconds", "enabled", "generation",
        task.generation, "executor", task.executor.name, "agent_id"] : List PyStr) ++
        Json.strings (Json.ofOption Json.str task.agentId) := by
    simp [recordJson, Json.strings, Json.stringsItems, hperiod, hskills]
  obtain ⟨hmethod, hexecutor⟩ := plain_names task
  rw [hstrings]
  constructor
  · simp only [List.forall_mem_append, List.forall_mem_cons, List.not_mem_nil, false_implies,
      implies_true, and_true]
    refine ⟨⟨⟨?_, fun s hs => Or.inl (by simp [texts, hs])⟩, ?_⟩, hagent'⟩
    · exact ⟨hkey (by decide), hkey (by decide), Or.inl (by simp [texts]), hkey (by decide),
        Or.inl (by simp [texts]), hkey (by decide), Or.inr hmethod, hkey (by decide)⟩
    · exact ⟨hkey (by decide), hkey (by decide), hkey (by decide), Or.inl (by simp [texts]),
        hkey (by decide), Or.inr hexecutor, hkey (by decide)⟩
  · simp only [texts, List.forall_mem_cons]
    refine ⟨by simp, by simp, by simp, fun s hs => by simp [hs]⟩

/-- What is beyond ASCII in a record stands in its texts. -/
theorem forall_strings_recordJson_iff {task : TaskRecord}
    (hagent : ∀ s ∈ task.agentId, isAgentId s = true) {P : CodePoint → Prop} :
    (∀ s ∈ Json.strings (recordJson task), ∀ c ∈ s, 0x80 ≤ c.val → P c) ↔
      ∀ s ∈ texts task, ∀ c ∈ s, 0x80 ≤ c.val → P c := by
  obtain ⟨hstrings, htexts⟩ := strings_recordJson hagent
  constructor
  · intro h s hs
    exact h s (htexts s hs)
  · intro h s hs c hc hlarge
    rcases hstrings s hs with hs | hs
    · exact h s hs c hc hlarge
    · have := hs c hc
      simp only [Json.isPrintable, Bool.and_eq_true, decide_eq_true_eq] at this
      omega

/-- Floats are plain. -/
theorem plain_strFloat (q : ℚ) : Plain (host.strFloat q) := by
  intro c hc
  have h := (host.reads q).2 c hc
  simp only [Json.isNumeric, Json.isDigit, Bool.or_eq_true, Bool.and_eq_true, decide_eq_true_eq,
    beq_iff_eq] at h
  simp only [Json.isPrintable, Bool.and_eq_true, decide_eq_true_eq]
  omega

/-- **Which code points a line has.** -/
theorem forall_mem_line_iff {task : TaskRecord} (hagent : ∀ s ∈ task.agentId, isAgentId s = true)
    {P : CodePoint → Prop} (hP : ∀ c, Json.isPrintable c = true → P c) :
    (∀ c ∈ line host task, P c) ↔ ∀ s ∈ texts task, ∀ c ∈ s, 0x80 ≤ c.val → P c := by
  rw [line, Json.forall_mem_compact_iff hP fun q c hc => hP c (plain_strFloat q c hc),
    forall_strings_recordJson_iff hagent]

theorem isLineEnd_of_isPrintable {c : CodePoint} (h : Json.isPrintable c = true) :
    PyStr.isLineEnd c = false := by
  simp only [Json.isPrintable, Bool.and_eq_true, decide_eq_true_eq] at h
  simp only [PyStr.isLineEnd, Bool.or_eq_false_iff, Bool.and_eq_false_iff, decide_eq_false_iff_not,
    beq_eq_false_iff_ne]
  omega

/-- **The line of a record is one line exactly if the record is whole.** -/
theorem whole_iff {task : TaskRecord} (hagent : ∀ s ∈ task.agentId, isAgentId s = true) :
    (∀ c ∈ line host task, PyStr.isLineEnd c = false) ↔ Whole task := by
  rw [forall_mem_line_iff hagent fun c hc => isLineEnd_of_isPrintable hc]
  have hbreak : ∀ c : CodePoint, (0x80 ≤ c.val → PyStr.isLineEnd c = false) ↔ isBreak c = false := by
    intro c
    simp only [PyStr.isLineEnd, isBreak, Bool.or_eq_false_iff, Bool.and_eq_false_iff,
      decide_eq_false_iff_not, beq_eq_false_iff_ne]
    omega
  simp only [hbreak]
  rfl

/-! ### Files -/

/-- A line begins and ends with a brace. -/
theorem line_braces (task : TaskRecord) : (line host task).head? = some (PyStr.ofChar '\x7b') ∧
    (line host task).getLast? = some Json.closeBrace := by
  obtain ⟨items, hitems⟩ : ∃ items, recordJson task = Json.obj items := ⟨_, rfl⟩
  have hline : line host task = PyStr.ofString "\x7b" ++
      Json.commaJoin (Json.compactItems host.strFloat items) ++ PyStr.ofString "\x7d" := by
    rw [line, hitems, Json.compact]
  rw [hline]
  refine ⟨rfl, ?_⟩
  have hlast : PyStr.ofString "\x7d" = [Json.closeBrace] := rfl
  rw [hlast, List.getLast?_append]
  rfl

theorem strip_line (task : TaskRecord) : PyStr.strip (line host task) = line host task := by
  obtain ⟨hhead, hlast⟩ := @line_braces host task
  refine PyStr.strip_of_ends ?_ ?_
  · rw [hhead]
    rintro _ ⟨⟩
    decide
  · rw [hlast]
    rintro _ ⟨⟩
    decide

theorem line_ne_nil (task : TaskRecord) : line host task ≠ [] := by
  intro hnil
  have h := (@line_braces host task).1
  rw [hnil] at h
  cases h

variable (host) in
/-- The text of a file with these records. -/
def fileText (l : List TaskRecord) : PyStr :=
  l.flatMap fun task => line host task ++ [PyStr.lineFeed]

theorem fileText_cons (task : TaskRecord) (l : List TaskRecord) :
    fileText host (task :: l) = line host task ++ PyStr.lineFeed :: fileText host l := by
  simp [fileText]

/-- The line of a whole record is one line. -/
theorem splitlines_cons {task : TaskRecord} (h : Admissible host maxTasks task)
    (hwhole : Whole task) (l : List TaskRecord) :
    PyStr.splitlines (fileText host (task :: l)) =
      line host task :: PyStr.splitlines (fileText host l) := by
  rw [fileText_cons, PyStr.splitlines_line ((whole_iff h.agentId).2 hwhole)]

/-- **Whole records are read back.** -/
theorem readLines_whole {l : List TaskRecord} (hl : ∀ task ∈ l, Admissible host maxTasks task)
    (hwhole : ∀ task ∈ l, Whole task) (hnodup : (l.map TaskRecord.taskId).Nodup)
    (lineNumber uuids : ℕ) {tasks : TaskTable} (hfree : ∀ task ∈ l, tasks.get? task.taskId = none) :
    readLines host path maxTasks lineNumber (PyStr.splitlines (fileText host l)) uuids tasks =
      Except.ok (uuids, (l.map asRead).foldl Table.put tasks) := by
  induction l generalizing lineNumber tasks with
  | nil => rfl
  | cons task l ih =>
      rw [List.forall_mem_cons] at hl hwhole hfree
      rw [List.map_cons, List.nodup_cons] at hnodup
      have hrest := @ih hl.2 hwhole.2 hnodup.2 (lineNumber + 1) (tasks.put (asRead task)) (by
        intro task' htask'
        have hne : task.taskId ≠ task'.taskId := fun heq =>
          hnodup.1 (heq ▸ List.mem_map_of_mem htask')
        rw [Table.get?_put_of_ne _ (show (asRead task).taskId ≠ task'.taskId from hne)]
        exact hfree.2 task' htask')
      have hget : raiseIf (tasks.get? task.taskId ≠ none) (PyError.taskStoreError
          (PyStr.ofString "duplicate task id " ++ PyStr.ofString (toString task.taskId) ++
            place path lineNumber)) = Except.ok () := if_neg (not_not.2 hfree.1)
      rw [splitlines_cons hl.1 hwhole.1, readLines, strip_line, if_neg (line_ne_nil task),
        readRecord_line hl.1]
      change (raiseIf (tasks.get? task.taskId ≠ none) (PyError.taskStoreError
          (PyStr.ofString "duplicate task id " ++ PyStr.ofString (toString task.taskId) ++
            place path lineNumber)) >>= fun _ => readLines host path maxTasks
        (lineNumber + 1) (PyStr.splitlines (fileText host l)) uuids (tasks.put (asRead task))) = _
      rw [hget]
      exact hrest

/-- A record that is not whole is cut where a line ends. -/
theorem exists_cut {task : TaskRecord} (h : Admissible host maxTasks task) (hcut : ¬ Whole task) :
    ∃ c a e b, line host task = c :: a ++ e :: b ∧ PyStr.isLineEnd e = true ∧
      (∀ d ∈ c :: a, PyStr.isLineEnd d = false) ∧ PyStr.isSpace c = false := by
  rw [← @whole_iff host task h.agentId] at hcut
  have hne : (line host task).dropWhile (fun c => !PyStr.isLineEnd c) ≠ [] := by
    intro hnil
    refine hcut fun c hc => ?_
    simpa using List.dropWhile_eq_nil_iff.1 hnil c hc
  obtain ⟨e, b, hb⟩ := List.exists_cons_of_ne_nil hne
  have he : PyStr.isLineEnd e = true := by
    have hnot := List.head_dropWhile_not (fun c => !PyStr.isLineEnd c) hne
    simpa [hb] using hnot
  have hsplit := List.takeWhile_append_dropWhile (p := fun c => !PyStr.isLineEnd c)
    (l := line host task)
  have hall : ∀ d ∈ (line host task).takeWhile (fun c => !PyStr.isLineEnd c),
      PyStr.isLineEnd d = false := fun d hd => by simpa using List.mem_takeWhile_imp hd
  have hhead := (@line_braces host task).1
  rw [hb] at hsplit
  cases ha : (line host task).takeWhile (fun c => !PyStr.isLineEnd c) with
  | nil =>
      rw [ha, List.nil_append] at hsplit
      rw [← hsplit] at hhead
      rw [Option.some.inj hhead] at he
      exact absurd he (by decide)
  | cons c a =>
      rw [ha] at hsplit hall
      rw [← hsplit] at hhead
      refine ⟨c, a, e, b, hsplit.symm, he, hall, ?_⟩
      rw [Option.some.inj hhead]
      decide

/-- **The first part of a record that is cut cannot be read.** -/
theorem readRecord_cut {task : TaskRecord} {c e : CodePoint} {a b : PyStr}
    (hline : line host task = c :: a ++ e :: b) (hc : PyStr.isSpace c = false)
    (lineNumber uuids : ℕ) (r : TaskRecord × ℕ) :
    readRecord host path maxTasks lineNumber uuids (PyStr.strip (c :: a)) ≠ Except.ok r := by
  obtain ⟨hstart, hne⟩ := PyStr.strip_prefix hc a
  have hloads : Json.loads host.reader (PyStr.strip (c :: a)) = none := by
    refine Json.loads_of_prefix host.reads (wellFormed_recordJson task)
      (hstart.trans ⟨e :: b, hline.symm⟩) hne fun heq => ?_
    have hle := hstart.length_le
    have hlen := congrArg List.length hline
    rw [heq] at hle
    simp only [line, recordJson, List.length_append, List.length_cons] at hlen hle
    omega
  unfold readRecord
  rw [hloads]
  nofun

/-- **A file with a record that is cut is not read.** -/
theorem readLines_cut {l : List TaskRecord} (hl : ∀ task ∈ l, Admissible host maxTasks task)
    (hcut : ∃ task ∈ l, ¬ Whole task) (lineNumber uuids : ℕ) (tasks : TaskTable)
    (r : ℕ × TaskTable) :
    readLines host path maxTasks lineNumber (PyStr.splitlines (fileText host l)) uuids tasks ≠
      Except.ok r := by
  induction l generalizing lineNumber uuids tasks with
  | nil =>
      obtain ⟨task, htask, _⟩ := hcut
      cases htask
  | cons task l ih =>
      rw [List.forall_mem_cons] at hl
      intro h
      by_cases hwhole : Whole task
      · rw [splitlines_cons hl.1 hwhole, readLines, strip_line, if_neg (line_ne_nil task)] at h
        obtain ⟨_, _, h⟩ := bind_eq_ok_iff.1 h
        obtain ⟨_, _, h⟩ := bind_eq_ok_iff.1 h
        refine ih hl.2 ?_ _ _ _ h
        obtain ⟨task', htask', hnot⟩ := hcut
        rcases List.mem_cons.1 htask' with rfl | htask'
        · exact absurd hwhole hnot
        · exact ⟨task', htask', hnot⟩
      · obtain ⟨c, a, e, b, hline, he, hall, hc⟩ := exists_cut hl.1 hwhole
        have htext : fileText host (task :: l) =
            c :: a ++ e :: (b ++ PyStr.lineFeed :: fileText host l) := by
          rw [fileText_cons, hline]
          simp
        have hne := (PyStr.strip_prefix hc a).2
        rw [htext, PyStr.splitlines_cut hall he, readLines, if_neg hne] at h
        obtain ⟨r', hr', _⟩ := bind_eq_ok_iff.1 h
        exact readRecord_cut hline hc _ _ _ hr'

theorem payload_eq (tasks : TaskTable) : payload host tasks = fileText host (TaskStore.list tasks) := rfl

/-! ### What the operations admit -/

theorem Admitted.put {tasks : TaskTable} (h : Admitted host maxTasks tasks) {task : TaskRecord}
    (htask : Admissible host maxTasks task) : Admitted host maxTasks (tasks.put task) := by
  intro k task' hget
  rw [Table.get?_put] at hget
  split_ifs at hget
  · cases hget
    exact htask
  · exact h k task' hget

theorem Admitted.erase {tasks : TaskTable} (h : Admitted host maxTasks tasks) (taskId : ℤ) :
    Admitted host maxTasks (tasks.erase taskId) := by
  intro k task hget
  rw [Table.get?_erase] at hget
  split_ifs at hget
  exact h k task hget

theorem name_of_ofName {s : PyStr} {m : TaskMethod} (h : TaskMethod.ofName s = some m) :
    s = m.name := by
  unfold TaskMethod.ofName at h
  split_ifs at h with htask hquery
  · cases h
    exact htask
  · cases h
    exact hquery

/-- A name that has been put into lower case is in lower case. -/
theorem lower_name {s : PyStr} {m : TaskMethod} (h : TaskMethod.ofName (host.lower s) = some m) :
    host.lower m.name = m.name := by
  rw [← name_of_ofName h, host.lower_lower]

theorem isAgentId_of_validate {agentId : Option PyStr} {u : Unit}
    (h : TaskStore.validateAgentId host.toHost agentId = Except.ok u) :
    ∀ s ∈ agentId, isAgentId s = true := by
  rintro s ⟨⟩
  simpa only [not_not] using raiseIf_eq_ok_iff.1 h

/-- A number that is accepted as a period is not too large. -/
theorem overflows_of_validatePeriod {where_ : PyStr} {x : Option PyNumber} {period : Option Period}
    (h : TaskStore.validatePeriod where_ x = Except.ok period) :
    ∀ p ∈ period, Binary64.overflows p.val = false := by
  cases x with
  | none =>
      cases h
      exact nofun
  | some x =>
      unfold TaskStore.validatePeriod at h
      dsimp only at h
      cases hp : x.period (PyError.taskStoreError
          (PyStr.ofString "timer_period_seconds must be > 0" ++ where_)) with
      | error e =>
          rw [hp] at h
          cases h
      | ok p =>
          rw [hp] at h
          cases h
          rintro _ ⟨⟩
          exact (PyNumber.period_eq_ok_iff.1 hp).2

/-- What `create` has checked. -/
theorem of_validateRecord {description text method : PyStr} {skills : List PyStr}
    {timerPeriodSeconds : Option PyNumber} {agentId : Option PyStr} {m : TaskMethod}
    {period : Option Period}
    (h : TaskStore.validateRecord host.toHost description text method skills timerPeriodSeconds
      agentId = Except.ok (m, period)) :
    description ≠ [] ∧ text ≠ [] ∧ TaskMethod.ofName method = some m ∧
      ([] ∉ skills ∧ skills.Nodup) ∧ (∀ s ∈ agentId, isAgentId s = true) ∧
      ∀ p ∈ period, Binary64.overflows p.val = false := by
  obtain ⟨_, hdescription, h⟩ := bind_eq_ok_iff.1 h
  obtain ⟨_, htext, h⟩ := bind_eq_ok_iff.1 h
  cases hname : TaskMethod.ofName method with
  | none =>
      rw [hname] at h
      cases h
  | some m' =>
      rw [hname] at h
      obtain ⟨_, ⟨⟩, h⟩ := bind_eq_ok_iff.1 h
      obtain ⟨_, hempty, h⟩ := bind_eq_ok_iff.1 h
      obtain ⟨_, hnodup, h⟩ := bind_eq_ok_iff.1 h
      obtain ⟨_, hagent, h⟩ := bind_eq_ok_iff.1 h
      obtain ⟨period', hperiod, h⟩ := bind_eq_ok_iff.1 h
      cases h
      exact ⟨raiseIf_eq_ok_iff.1 hdescription, raiseIf_eq_ok_iff.1 htext, rfl,
        ⟨raiseIf_eq_ok_iff.1 hempty, not_not.1 (raiseIf_eq_ok_iff.1 hnodup)⟩,
        isAgentId_of_validate hagent, overflows_of_validatePeriod hperiod⟩

/-- **A record that is created is admissible.** -/
theorem admissible_of_create {generation : PyStr} (hgeneration : generation ≠ []) {spec : TaskSpec}
    {tasks tasks' : TaskTable} {record : TaskRecord}
    (h : create host maxTasks generation spec tasks = Except.ok (record, tasks')) :
    Admissible host maxTasks record ∧ tasks' = tasks.put record := by
  obtain ⟨executor, _, h⟩ := bind_eq_ok_iff.1 h
  obtain ⟨⟨m, period⟩, hvalid, h⟩ := bind_eq_ok_iff.1 h
  obtain ⟨hdescription, htext, hmethod, hskills, hagent, hperiod⟩ := of_validateRecord hvalid
  cases hfree : firstFreeId maxTasks tasks with
  | none =>
      rw [hfree] at h
      cases h
  | some taskId =>
      rw [hfree] at h
      cases h
      obtain ⟨n, hn, rfl⟩ := List.mem_map.1 (List.mem_of_find?_eq_some hfree)
      simp only [List.bind_eq_flatMap, List.mem_flatMap, List.mem_range, List.pure_def,
        List.mem_singleton] at hn
      obtain ⟨i, hi, rfl⟩ := hn
      have hstrip : ∀ s ∈ spec.skills.map PyStr.strip, PyStr.strip s = s := by
        intro s hs
        obtain ⟨s', _, rfl⟩ := List.mem_map.1 hs
        exact PyStr.strip_strip s'
      have hid : 1 ≤ (i : ℤ) + 1 ∧ (i : ℤ) + 1 ≤ maxTasks := by omega
      exact ⟨⟨hid, ⟨PyStr.strip_strip _, hdescription⟩, ⟨PyStr.strip_strip _, htext⟩,
        lower_name hmethod, ⟨hstrip, hskills⟩, hagent, hgeneration, hperiod⟩, rfl⟩

/-- A change of the switch, the period, the executor or the generation keeps a record admissible. -/
theorem Admissible.change {task task' : TaskRecord} (h : Admissible host maxTasks task)
    (hsame : task' = { task with
      enabled := task'.enabled, timerPeriodSeconds := task'.timerPeriodSeconds
      executor := task'.executor, generation := task'.generation })
    (hgeneration : task'.generation ≠ [])
    (hperiod : ∀ p ∈ task'.timerPeriodSeconds, Binary64.overflows p.val = false) :
    Admissible host maxTasks task' := by
  rw [hsame]
  exact ⟨h.taskId, h.description, h.text, h.method, h.skills, h.agentId, hgeneration, hperiod⟩

theorem admitted_of_replace {tasks tasks' : TaskTable} {taskId : ℤ} {f : TaskRecord → TaskRecord}
    {record : TaskRecord} (h : Admitted host maxTasks tasks)
    (hreplace : TaskStore.replace tasks taskId f = Except.ok (record, tasks'))
    (hf : ∀ task, Admissible host maxTasks task → Admissible host maxTasks (f task)) :
    Admitted host maxTasks tasks' := by
  obtain ⟨current, hget, rfl, rfl⟩ := TaskStore.replace_spec hreplace
  exact h.put (hf current (h taskId current hget))

/-- **What an operation saves is admissible, and so is what it leaves if it cannot.** -/
theorem admitted_of_attempt {s : TaskFile} (h : Admitted host maxTasks s.tasks) {op : TaskFileOp}
    {tasks former : TaskTable} (hop : attempt host maxTasks s op = Except.ok (tasks, former)) :
    Admitted host maxTasks tasks ∧ Admitted host maxTasks former := by
  cases op with
  | create spec =>
      obtain ⟨⟨record, tasks'⟩, hcreate, hop⟩ := bind_eq_ok_iff.1 hop
      cases hop
      obtain ⟨hrecord, rfl⟩ := admissible_of_create (host.uuid4_ne_nil _) hcreate
      exact ⟨h.put hrecord, h⟩
  | setEnabled taskId enabled preserveGeneration =>
      obtain ⟨⟨record, tasks'⟩, hset, hop⟩ := bind_eq_ok_iff.1 hop
      cases hop
      refine ⟨admitted_of_replace h hset fun task htask => htask.change rfl ?_ htask.period, h⟩
      cases preserveGeneration with
      | true => exact htask.generation
      | false => exact host.uuid4_ne_nil _
  | setTimerPeriod taskId periodSeconds =>
      obtain ⟨⟨record, tasks'⟩, hset, hop⟩ := bind_eq_ok_iff.1 hop
      cases hop
      obtain ⟨p, hp, hset⟩ := bind_eq_ok_iff.1 hset
      refine ⟨admitted_of_replace h hset fun task htask =>
        htask.change rfl (host.uuid4_ne_nil _) ?_, h⟩
      rintro _ ⟨⟩
      exact Period.overflows_float (PyNumber.period_eq_ok_iff.1 hp).2
  | setExecutor taskId executor =>
      obtain ⟨⟨record, tasks'⟩, hset, hop⟩ := bind_eq_ok_iff.1 hop
      cases hop
      obtain ⟨p, _, hset⟩ := bind_eq_ok_iff.1 hset
      exact ⟨admitted_of_replace h hset fun task htask =>
        htask.change rfl (host.uuid4_ne_nil _) htask.period, h⟩
  | delete taskId =>
      obtain ⟨record, hrequire, hop⟩ := bind_eq_ok_iff.1 hop
      cases hop
      exact ⟨h.erase taskId, (h.erase taskId).put (h taskId record
        (TaskStore.require_eq_ok_iff.1 hrequire))⟩

/-! ### What the reader admits -/

/-- The fields of a record have been trimmed. -/
theorem trimmed_of_readFields {item : Json} {raw : RawTask}
    (h : readFields host item = some raw) :
    PyStr.strip raw.description = raw.description ∧ PyStr.strip raw.text = raw.text ∧
      (∃ s, raw.method = host.lower s) ∧ ∀ s ∈ raw.skills, PyStr.strip s = s := by
  obtain ⟨taskId, _, h⟩ := Option.bind_eq_some_iff.1 h
  obtain ⟨description, hdescription, h⟩ := Option.bind_eq_some_iff.1 h
  obtain ⟨text, htext, h⟩ := Option.bind_eq_some_iff.1 h
  obtain ⟨_, _, rfl⟩ := Option.map_eq_some_iff.1 hdescription
  obtain ⟨_, _, rfl⟩ := Option.map_eq_some_iff.1 htext
  dsimp only at h
  split at h
  · obtain ⟨skills, hskills, h⟩ := Option.bind_eq_some_iff.1 h
    cases hskills
    have hstrip : ∀ xs : List Json, ∀ s ∈ xs.map fun v => PyStr.strip (host.str v),
        PyStr.strip s = s := by
      intro xs s hs
      obtain ⟨v, _, rfl⟩ := List.mem_map.1 hs
      exact PyStr.strip_strip _
    split at h
    · cases h
      exact ⟨PyStr.strip_strip _, PyStr.strip_strip _, ⟨_, rfl⟩, hstrip _⟩
    · obtain ⟨period, _, h⟩ := Option.bind_eq_some_iff.1 h
      cases h
      exact ⟨PyStr.strip_strip _, PyStr.strip_strip _, ⟨_, rfl⟩, hstrip _⟩
  · obtain ⟨skills, hskills, h⟩ := Option.bind_eq_some_iff.1 h
    cases hskills

theorem isAgentId_of_validateAgent {where_ : PyStr} {v : Json} {agentId : Option PyStr}
    (h : validateAgent host where_ v = Except.ok agentId) : ∀ s ∈ agentId, isAgentId s = true := by
  cases v with
  | null =>
      cases h
      nofun
  | str s =>
      obtain ⟨_, hs, h⟩ := bind_eq_ok_iff.1 h
      cases h
      rintro _ ⟨⟩
      simpa using raiseIf_eq_ok_iff.1 hs
  | _ => cases h

/-- What `reload` has checked. -/
theorem of_validateLoaded {lineNumber : ℕ} {raw : RawTask} {m : TaskMethod}
    {period : Option Period} {agentId : Option PyStr}
    (h : validateLoaded host path maxTasks lineNumber raw = Except.ok (m, period, agentId)) :
    (1 ≤ raw.taskId ∧ raw.taskId ≤ maxTasks) ∧ raw.description ≠ [] ∧ raw.text ≠ [] ∧
      TaskMethod.ofName raw.method = some m ∧ ([] ∉ raw.skills ∧ raw.skills.Nodup) ∧
      (∀ s ∈ agentId, isAgentId s = true) ∧
      ∀ p ∈ period, Binary64.overflows p.val = false := by
  obtain ⟨_, hid, h⟩ := bind_eq_ok_iff.1 h
  obtain ⟨_, hdescription, h⟩ := bind_eq_ok_iff.1 h
  obtain ⟨_, htext, h⟩ := bind_eq_ok_iff.1 h
  have hrange : 1 ≤ raw.taskId ∧ raw.taskId ≤ maxTasks := by
    have := raiseIf_eq_ok_iff.1 hid
    omega
  cases hname : TaskMethod.ofName raw.method with
  | none =>
      rw [hname] at h
      cases h
  | some m' =>
      rw [hname] at h
      obtain ⟨_, ⟨⟩, h⟩ := bind_eq_ok_iff.1 h
      obtain ⟨_, hempty, h⟩ := bind_eq_ok_iff.1 h
      obtain ⟨_, hnodup, h⟩ := bind_eq_ok_iff.1 h
      obtain ⟨agentId', hagent, h⟩ := bind_eq_ok_iff.1 h
      obtain ⟨period', hperiod, h⟩ := bind_eq_ok_iff.1 h
      cases h
      exact ⟨hrange, raiseIf_eq_ok_iff.1 hdescription, raiseIf_eq_ok_iff.1 htext, rfl,
        ⟨raiseIf_eq_ok_iff.1 hempty, not_not.1 (raiseIf_eq_ok_iff.1 hnodup)⟩,
        isAgentId_of_validateAgent hagent, overflows_of_validatePeriod hperiod⟩

/-- **A record that is read is admissible.** -/
theorem admissible_of_readRecord {lineNumber uuids uuids' : ℕ} {text : PyStr} {task : TaskRecord}
    (h : readRecord host path maxTasks lineNumber uuids text = Except.ok (task, uuids')) :
    Admissible host maxTasks task := by
  unfold readRecord at h
  split at h
  · cases h
  rename_i item _
  split at h
  · cases h
  rename_i raw hraw
  obtain ⟨hdescription, htext, ⟨s, hlower⟩, hstrip⟩ := trimmed_of_readFields hraw
  obtain ⟨executor, _, h⟩ := bind_eq_ok_iff.1 h
  obtain ⟨⟨method, period, agentId⟩, hvalid, h⟩ := bind_eq_ok_iff.1 h
  cases h
  obtain ⟨hid, hdescription', htext', hmethod, hskills, hagent, hperiod⟩ :=
    of_validateLoaded hvalid
  rw [hlower] at hmethod
  refine ⟨hid, ⟨hdescription, hdescription'⟩, ⟨htext, htext'⟩, lower_name hmethod,
    ⟨hstrip, hskills⟩, hagent, ?_, hperiod⟩
  dsimp only
  split_ifs with htruthy
  · refine host.str_ne_nil _ fun hnil => ?_
    rw [hnil] at htruthy
    cases htruthy
  · exact host.uuid4_ne_nil _

theorem admitted_of_readLines {l : List PyStr} {lineNumber uuids uuids' : ℕ}
    {tasks tasks' : TaskTable} (hinit : Admitted host maxTasks tasks)
    (h : readLines host path maxTasks lineNumber l uuids tasks = Except.ok (uuids', tasks')) :
    Admitted host maxTasks tasks' := by
  induction l generalizing lineNumber uuids tasks with
  | nil =>
      cases h
      exact hinit
  | cons raw rest ih =>
      rw [readLines] at h
      split_ifs at h
      · exact ih hinit h
      · obtain ⟨⟨record, n⟩, hrecord, h⟩ := bind_eq_ok_iff.1 h
        obtain ⟨_, _, h⟩ := bind_eq_ok_iff.1 h
        exact ih (hinit.put (admissible_of_readRecord hrecord)) h

theorem admitted_of_reload {s s' : TaskFile} (h : reload host path maxTasks s = Except.ok s') :
    Admitted host maxTasks s'.tasks := by
  unfold reload at h
  split at h
  · cases h
    intro k task hget
    cases hget
  · cases h
  · obtain ⟨⟨uuids, tasks⟩, hlines, h⟩ := bind_eq_ok_iff.1 h
    cases h
    refine admitted_of_readLines (fun k task hget => ?_) hlines
    cases hget

/-- **Every record of a store is admissible.** -/
theorem admitted_of_reachable {s : TaskFile} (h : (machine host path maxTasks).Reachable s) :
    Admitted host maxTasks s.tasks := by
  refine Machine.Reachable.invariant (I := fun s => Admitted host maxTasks s.tasks) h ?_ ?_
  · rintro s ⟨s₀, _, hreload⟩
    exact admitted_of_reload hreload
  · intro s i _ hs
    change Admitted host maxTasks (step host maxTasks s i).tasks
    unfold step
    split
    · exact hs
    · rename_i tasks former hop
      obtain ⟨htasks, hformer⟩ := admitted_of_attempt hs hop
      split
      · exact htasks
      · exact hformer

/-! ### Round trips -/

variable (host path maxTasks) in
/-- The store is saved, and reading the file again gives the same records. -/
def RoundTrips (s : TaskFile) : Prop :=
  ∃ file s', save host true s.tasks = Except.ok file ∧
    reload host path maxTasks { s with file } = Except.ok s' ∧ s'.tasks.Same s.tasks

/-- Every text of the store can be encoded. -/
def TextsEncodable (s : TaskFile) : Prop :=
  ∀ k task, s.tasks.get? k = some task → ∀ t ∈ texts task, PyStr.Encodable t

/-- Every record of the store is whole. -/
def Unbroken (s : TaskFile) : Prop := ∀ k task, s.tasks.get? k = some task → Whole task

/-- Every period of the store is a float. -/
def ExactPeriods (s : TaskFile) : Prop :=
  ∀ k task, s.tasks.get? k = some task → ∀ p ∈ task.timerPeriodSeconds, p.float = p

/-- A record is read as it is exactly if its period is a float. -/
theorem asRead_eq_iff {task : TaskRecord} :
    asRead task = task ↔ ∀ p ∈ task.timerPeriodSeconds, p.float = p := by
  constructor
  · intro h p hp
    have hperiod := congrArg TaskRecord.timerPeriodSeconds h
    rw [Option.mem_def.1 hp] at hperiod
    simpa [asRead, Option.mem_def.1 hp] using hperiod
  · intro h
    have hperiod : task.timerPeriodSeconds.map Period.float = task.timerPeriodSeconds := by
      cases hp : task.timerPeriodSeconds with
      | none => rfl
      | some p => rw [Option.map_some, h p hp]
    rw [asRead, hperiod]

theorem mem_list_iff {tasks : TaskTable} {task : TaskRecord} :
    task ∈ TaskStore.list tasks ↔ tasks.get? task.taskId = some task := by
  rw [TaskStore.list, Table.mem_sorted_iff, Table.mem_values_iff]

theorem taskId_of_get? {tasks : TaskTable} {k : ℤ} {task : TaskRecord}
    (h : tasks.get? k = some task) : task.taskId = k := Table.key_of_get? h

/-- A file can be written exactly if its texts can be encoded. -/
theorem encodable_fileText_iff {l : List TaskRecord}
    (hl : ∀ task ∈ l, ∀ s ∈ task.agentId, isAgentId s = true) :
    PyStr.Encodable (fileText host l) ↔ ∀ task ∈ l, ∀ t ∈ texts task, PyStr.Encodable t := by
  have hplain : ∀ c, Json.isPrintable c = true → PyStr.isSurrogate c = false := by
    intro c hc
    simp only [Json.isPrintable, Bool.and_eq_true, decide_eq_true_eq] at hc
    simp only [PyStr.isSurrogate, Bool.and_eq_false_iff, decide_eq_false_iff_not]
    omega
  have hsmall : ∀ c : CodePoint, (0x80 ≤ c.val → PyStr.isSurrogate c = false) ↔
      PyStr.isSurrogate c = false := by
    intro c
    simp only [PyStr.isSurrogate, Bool.and_eq_false_iff, decide_eq_false_iff_not]
    omega
  induction l with
  | nil => simp [fileText]
  | cons task l ih =>
      rw [List.forall_mem_cons] at hl
      have hline : PyStr.Encodable (line host task) ↔ ∀ t ∈ texts task, PyStr.Encodable t := by
        have h := @forall_mem_line_iff host task hl.1
          (fun c => PyStr.isSurrogate c = false) hplain
        simp only [hsmall] at h
        exact h
      have hfeed : PyStr.Encodable (PyStr.lineFeed :: fileText host l) ↔
          PyStr.Encodable (fileText host l) := by
        simp [PyStr.Encodable, show PyStr.isSurrogate PyStr.lineFeed = false by decide]
      rw [fileText_cons, PyStr.encodable_append, hline, hfeed, List.forall_mem_cons]
      exact and_congr_right fun _ => ih hl.2

theorem admissible_of_mem_list {s : TaskFile} (h : (machine host path maxTasks).Reachable s) :
    ∀ task ∈ TaskStore.list s.tasks, Admissible host maxTasks task := fun task htask =>
  admitted_of_reachable h _ task (mem_list_iff.1 htask)

theorem encodable_payload_iff {s : TaskFile} (h : (machine host path maxTasks).Reachable s) :
    PyStr.Encodable (payload host s.tasks) ↔ TextsEncodable s := by
  rw [payload_eq, encodable_fileText_iff fun task htask => (admissible_of_mem_list h task htask).agentId]
  constructor
  · intro hall k task hget
    have hk := taskId_of_get? hget
    exact hall task (mem_list_iff.2 (hk.symm ▸ hget))
  · intro hall task htask
    exact hall _ task (mem_list_iff.1 htask)

/-- A store that is read back is whole. -/
theorem unbroken_of_roundTrips {s : TaskFile} (h : (machine host path maxTasks).Reachable s)
    (hround : RoundTrips host path maxTasks s) : TextsEncodable s ∧ Unbroken s := by
  obtain ⟨file, s', hsave, hreload, _⟩ := hround
  obtain ⟨_, hwrite, hsave⟩ := bind_eq_ok_iff.1 hsave
  cases hsave
  have henc := raiseIf_eq_ok_iff.1 hwrite
  rw [not_or, not_not] at henc
  refine ⟨(encodable_payload_iff h).1 henc.1, fun k task hget => ?_⟩
  by_contra hwhole
  have hk := taskId_of_get? hget
  obtain ⟨r, hr, _⟩ := bind_eq_ok_iff.1 hreload
  exact readLines_cut (admissible_of_mem_list h) ⟨task, mem_list_iff.2 (hk.symm ▸ hget), hwhole⟩
    _ _ _ r hr

/-- A store without any of the three code points is read, and the periods become floats. -/
theorem reload_payload {s : TaskFile} (h : (machine host path maxTasks).Reachable s)
    (hwhole : Unbroken s) :
    reload host path maxTasks { s with file := StoredFile.text (payload host s.tasks) } =
      Except.ok { file := StoredFile.text (payload host s.tasks), uuids := s.uuids
                  tasks := Table.ofList ((TaskStore.list s.tasks).map asRead) } := by
  have hread := @readLines_whole host path maxTasks _ (admissible_of_mem_list h)
    (fun task htask => hwhole _ task (mem_list_iff.1 htask)) (Table.nodup_sorted _ s.tasks) 1
    s.uuids Table.empty fun _ _ => rfl
  change (readLines host path maxTasks 1 (PyStr.splitlines (payload host s.tasks)) s.uuids
    Table.empty >>= _) = _
  rw [payload_eq, hread]
  rfl

/-- What has been read back has floats for periods. -/
theorem exactPeriods_of_roundTrips {s : TaskFile} (h : (machine host path maxTasks).Reachable s)
    (hround : RoundTrips host path maxTasks s) : ExactPeriods s := by
  obtain ⟨-, hwhole⟩ := unbroken_of_roundTrips h hround
  obtain ⟨file, s', hsave, hreload, hsame⟩ := hround
  obtain ⟨_, -, hsave⟩ := bind_eq_ok_iff.1 hsave
  cases hsave
  rw [reload_payload h hwhole] at hreload
  cases hreload
  intro k task hget p hp
  obtain ⟨task', -, rfl⟩ := List.mem_map.1 (Table.mem_of_get?_ofList ((hsame k).trans hget))
  obtain ⟨p', -, rfl⟩ := Option.map_eq_some_iff.1 hp
  exact p'.float_float

/-- **A store is read back exactly if its texts can be encoded, none of them contains one of the
three code points, and every period is a float.** -/
theorem roundTrips_iff {s : TaskFile} (h : (machine host path maxTasks).Reachable s) :
    RoundTrips host path maxTasks s ↔ TextsEncodable s ∧ Unbroken s ∧ ExactPeriods s := by
  constructor
  · intro hround
    obtain ⟨henc, hwhole⟩ := unbroken_of_roundTrips h hround
    exact ⟨henc, hwhole, exactPeriods_of_roundTrips h hround⟩
  · rintro ⟨henc, hwhole, hperiods⟩
    have hsame : (TaskStore.list s.tasks).map asRead = TaskStore.list s.tasks := by
      refine (List.map_congr_left fun task htask => ?_).trans (List.map_id _)
      exact asRead_eq_iff.2 (hperiods _ task (mem_list_iff.1 htask))
    refine ⟨StoredFile.text (payload host s.tasks), _, ?_, reload_payload h hwhole, ?_⟩
    · have hwrite : ¬ (¬ PyStr.Encodable (payload host s.tasks) ∨ true = false) := by
        simp [(encodable_payload_iff h).2 henc]
      simp only [save, raiseIf, if_neg hwrite]
      rfl
    · rw [hsame]
      exact Table.ofList_sorted_same _ s.tasks

/-- A store that starts without a file. -/
def fresh : TaskFile := { file := StoredFile.absent, tasks := Table.empty, uuids := 0 }

theorem reachable_fresh : (machine host path maxTasks).Reachable fresh :=
  Machine.Reach.of_init ⟨fresh, rfl, rfl⟩

/-- A store with one task, whose period was given as an int. -/
def saved (seconds : ℕ) : TaskFile :=
  step TaskHost.ascii 5 fresh (TaskFileOp.create
    { description := "door", text := "look", timerPeriodSeconds := some (PyNumber.finite seconds) },
    true)

theorem reachable_saved (seconds : ℕ) :
    (machine TaskHost.ascii (PyStr.ofString "task.txt") 5).Reachable (saved seconds) :=
  reachable_fresh.step _

/-- What holds of the values of a table holds of its tasks. -/
theorem forall_task_iff {s : TaskFile} {P : TaskRecord → Prop} :
    (∀ k task, s.tasks.get? k = some task → P task) ↔ ∀ task ∈ s.tasks.values, P task := by
  constructor
  · intro h task htask
    exact h _ task (Table.mem_values_iff.1 htask)
  · intro h k task hget
    have hk := taskId_of_get? hget
    exact h task (Table.mem_values_iff.2 (hk.symm ▸ hget))

/-- A minute is read back, and an int that is no float is not. -/
theorem roundTrips_saved :
    RoundTrips TaskHost.ascii (PyStr.ofString "task.txt") 5 (saved 60) ∧
      ¬ RoundTrips TaskHost.ascii (PyStr.ofString "task.txt") 5 (saved 9007199254740993) := by
  constructor
  · refine (roundTrips_iff (reachable_saved 60)).2 ⟨?_, ?_, ?_⟩
    · have hencodable : ∀ l ∈ (saved 60).tasks.values.map texts, ∀ t ∈ l, PyStr.Encodable t := by
        decide +kernel
      exact forall_task_iff.2 fun task htask => hencodable _ (List.mem_map_of_mem htask)
    · have hwhole : ∀ l ∈ (saved 60).tasks.values.map texts, ∀ t ∈ l, t.any isBreak = false := by
        decide +kernel
      refine forall_task_iff.2 fun task htask t ht c hc => ?_
      exact Bool.eq_false_iff.2 (List.any_eq_false.1 (hwhole _ (List.mem_map_of_mem htask) t ht) c hc)
    · have hread : ∀ task ∈ (saved 60).tasks.values, asRead task = task := by decide +kernel
      exact forall_task_iff.2 fun task htask => asRead_eq_iff.1 (hread task htask)
  · intro hround
    have hperiods := ((roundTrips_iff (reachable_saved 9007199254740993)).1 hround).2.2
    have hread : ¬ ∀ task ∈ (saved 9007199254740993).tasks.values, asRead task = task := by
      decide +kernel
    exact hread fun task htask => asRead_eq_iff.2 (forall_task_iff.1 hperiods task htask)

/-- A task whose description contains U+0085. -/
def brokenSpec : TaskSpec :=
  { description := [PyStr.ofChar 'a', ⟨0x85, by decide⟩, PyStr.ofChar 'b']
    text := PyStr.ofString "x" }

/-- A store whose records all have a description with such a code point is not read back. -/
theorem not_roundTrips_of_description {s : TaskFile} (h : (machine host path maxTasks).Reachable s)
    {description : PyStr}
    (htexts : ∀ l ∈ s.tasks.values.map texts, description ∈ l ∧ ∀ t ∈ l, PyStr.Encodable t)
    (hsome : s.tasks.values ≠ []) (hbreak : description.any isBreak = true) :
    ¬ (TextsEncodable s → RoundTrips host path maxTasks s) := by
  intro hall
  have hmem : ∀ k task, s.tasks.get? k = some task → texts task ∈ s.tasks.values.map texts := by
    intro k task hget
    have hk := taskId_of_get? hget
    exact List.mem_map_of_mem (Table.mem_values_iff.2 (hk.symm ▸ hget))
  obtain ⟨_, hunbroken⟩ := unbroken_of_roundTrips h
    (hall fun k task hget => (htexts _ (hmem k task hget)).2)
  obtain ⟨task, htask⟩ := List.exists_mem_of_ne_nil _ hsome
  obtain ⟨c, hc, hcbreak⟩ := List.any_eq_true.1 hbreak
  have hwhole := hunbroken _ task (Table.mem_values_iff.1 htask) description
    (htexts _ (List.mem_map_of_mem htask)).1 c hc
  rw [hcbreak] at hwhole
  cases hwhole

/-- **A description with such a code point is saved, and the file cannot be read again.** -/
theorem not_roundTrips :
    ¬ ∀ s, (machine TaskHost.ascii (PyStr.ofString "task.txt") 5).Reachable s → TextsEncodable s →
      RoundTrips TaskHost.ascii (PyStr.ofString "task.txt") 5 s := by
  intro hall
  have hreach := Machine.Reachable.step
    (@reachable_fresh TaskHost.ascii (PyStr.ofString "task.txt") 5)
    (TaskFileOp.create brokenSpec, true)
  have htexts : ∀ l ∈ (step TaskHost.ascii 5 fresh
      (TaskFileOp.create brokenSpec, true)).tasks.values.map texts,
      brokenSpec.description ∈ l ∧ ∀ t ∈ l, PyStr.Encodable t := by
    decide +kernel
  have hsome : (step TaskHost.ascii 5 fresh (TaskFileOp.create brokenSpec, true)).tasks.values ≠ [] := by
    decide +kernel
  exact not_roundTrips_of_description hreach htexts hsome (by decide +kernel) (hall _ hreach)

end TaskFile
