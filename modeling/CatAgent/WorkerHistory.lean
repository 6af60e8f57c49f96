/-
**What the log of the service and its workers says.**

The log holds every input that the service has answered, so it determines the state of the service
at any earlier time.  It also holds what each worker was told, when it called the model, and when
it gave a hint.  The properties of whole runs are stated about the log.

Main definitions:

* `Happening.inputs`, `Happening.engineAfter`, `Happening.Once` — the state of the service at an
  earlier time;
* `Happening.Begins`, `Happening.Starts` — a worker is allowed to begin a run, and a worker has
  called the model for it or has asked to make it done;
* `Happening.asks`, `Happening.hints` — the calls of the model, and the hints;
* `Happening.Owed`, `Happening.Committed` — a result that a worker has to publish, and a result that
  was in the inbox.

Main results:

* `Happening.leads_engineAfter` — the states of the service follow one another like the log;
* `Happening.method_of_once` — the method of a task is the same at all times.
-/

import CatAgent.Offers
import CatAgent.WorkerSystem

set_option relaxedAutoImplicit false
set_option autoImplicit false

namespace Happening

variable {ι : Type}

/-! ### The history of the service -/

/-- The inputs that the service has answered, in the order of time. -/
def inputs : List (Happening ι) → List Input
  | [] => []
  | served i _ :: log => inputs log ++ [i]
  | told _ _ _ :: log | asked _ _ _ _ _ :: log | hinted _ _ _ :: log => inputs log

variable {host : Host} {e₀ : TaskEngine} {log log' : List (Happening ι)}

theorem inputs_append (l : List (Happening ι)) : inputs (l ++ log) = inputs log ++ inputs l := by
  induction l with
  | nil => simp [inputs]
  | cons x l ih => cases x <;> simp [inputs, ih]

variable (host e₀) in
/-- The state of the service when this was the log. -/
def engineAfter (log : List (Happening ι)) : TaskEngine :=
  (TaskEngine.machine host).exec e₀ (inputs log)

@[simp] theorem engineAfter_nil : engineAfter host e₀ ([] : List (Happening ι)) = e₀ := rfl

theorem engineAfter_served (i : Input) (reply : Except PyError Reply) :
    engineAfter host e₀ (served i reply :: log) = ((engineAfter host e₀ log).respond host i).2 := by
  rw [engineAfter, inputs, Machine.exec_append]
  rfl

@[simp] theorem engineAfter_told (j : WorkerThread ι) (c : RpcCall)
    (answer : Except PyError Reply) :
    engineAfter host e₀ (told j c answer :: log) = engineAfter host e₀ log := rfl

@[simp] theorem engineAfter_asked (i : ι) (event : SystemEvent) (agentId instruction : PyStr)
    (outcome : AgentOutcome) : engineAfter host e₀ (asked i event agentId instruction outcome :: log) =
      engineAfter host e₀ log := rfl

@[simp] theorem engineAfter_hinted (i : ι) (offerId : PyStr) (result : QueryPayload) :
    engineAfter host e₀ (hinted i offerId result :: log) = engineAfter host e₀ log := rfl

/-- **The states of the service follow one another like the log.** -/
theorem leads_engineAfter (h : log <:+ log') : (TaskEngine.machine host).Leads (fun _ _ => True)
    (engineAfter host e₀ log) (engineAfter host e₀ log') := by
  obtain ⟨l, rfl⟩ := h
  rw [engineAfter, engineAfter, inputs_append, Machine.exec_append]
  exact Machine.leads_exec _ _

theorem reachable_engineAfter (h : (TaskEngine.machine host).Reachable e₀)
    (log : List (Happening ι)) : (TaskEngine.machine host).Reachable (engineAfter host e₀ log) :=
  h.exec (inputs log)

variable (host e₀) in
/-- `P` has held of the service at some time. -/
def Once (P : TaskEngine → Prop) (log : List (Happening ι)) : Prop :=
  ∃ earlier, earlier <:+ log ∧ P (engineAfter host e₀ earlier)

variable {P Q : TaskEngine → Prop}

theorem Once.later (h : Once host e₀ P log) (hlog : log <:+ log') : Once host e₀ P log' := by
  obtain ⟨earlier, hearlier, hP⟩ := h
  exact ⟨earlier, hearlier.trans hlog, hP⟩

theorem Once.imp (h : Once host e₀ P log) (hPQ : ∀ e, P e → Q e) : Once host e₀ Q log := by
  obtain ⟨earlier, hearlier, hP⟩ := h
  exact ⟨earlier, hearlier, hPQ _ hP⟩

/-- The task of this number and generation was registered. -/
def Registered (taskId : ℤ) (generation : PyStr) (task : TaskRecord) (e : TaskEngine) : Prop :=
  e.registry.tasks.get? taskId = some task ∧ task.generation = generation

/-- **The method of a task is the same at all times.** -/
theorem method_of_once (h : (TaskEngine.machine host).Reachable e₀) {taskId : ℤ} {generation : PyStr}
    {task task' : TaskRecord} (hP : Once host e₀ (Registered taskId generation task) log)
    (hQ : Once host e₀ (Registered taskId generation task') log) : task.method = task'.method := by
  obtain ⟨l, hl, hget, hgen⟩ := hP
  obtain ⟨l', hl', hget', hgen'⟩ := hQ
  rcases List.suffix_or_suffix_of_suffix hl hl' with hsuffix | hsuffix
  · exact (TaskEngine.method_of_generation (reachable_engineAfter h l) (leads_engineAfter hsuffix)
      hget hget' (hgen'.trans hgen.symm)).symm
  · exact TaskEngine.method_of_generation (reachable_engineAfter h l') (leads_engineAfter hsuffix)
      hget' hget (hgen.trans hgen'.symm)

/-! ### What a worker has done -/

/-- The worker `i` was allowed to begin the run `k` under the offer `o`. -/
def Begins (i : ι) (k o : PyStr) (x : Happening ι) : Prop :=
  ∃ reply, NativeTaskWorker.truthy reply = true ∧
    x = told (WorkerThread.executing i) (RpcCall.begin k o) (Except.ok reply)

/-- The worker `i` has asked the service to make the run `k` done. -/
def AsksDone (i : ι) (k o : PyStr) (x : Happening ι) : Prop :=
  ∃ outcome code answer, RunState.ofOutcome outcome = RunState.done ∧
    x = told (WorkerThread.polling i) (RpcCall.finish k o outcome code) answer

/-- The worker `i` has called the model for the run `k`, or has asked to make it done. -/
def Starts (i : ι) (k o : PyStr) (x : Happening ι) : Prop :=
  (∃ event agentId instruction outcome, x = asked i event agentId instruction outcome ∧
    event.runId = k ∧ event.offerId = o) ∨ AsksDone i k o x

/-- The runs for which the model was called. -/
def asks : List (Happening ι) → List PyStr
  | [] => []
  | asked _ event _ _ _ :: log => event.runId :: asks log
  | served _ _ :: log | told _ _ _ :: log | hinted _ _ _ :: log => asks log

/-- The offers for which the worker `i` has given a hint. -/
def hints [DecidableEq ι] (i : ι) : List (Happening ι) → List PyStr
  | [] => []
  | hinted i' offerId _ :: log => if i' = i then offerId :: hints i log else hints i log
  | served _ _ :: log | told _ _ _ :: log | asked _ _ _ _ _ :: log => hints i log

theorem mem_asks {k : PyStr} (h : k ∈ asks log) : ∃ i event agentId instruction outcome,
    asked i event agentId instruction outcome ∈ log ∧ event.runId = k := by
  induction log with
  | nil => cases h
  | cons x log ih =>
      have hrest : k ∈ asks log → ∃ i event agentId instruction outcome,
          asked i event agentId instruction outcome ∈ x :: log ∧ event.runId = k := by
        intro h
        obtain ⟨i, event, agentId, instruction, outcome, hmem, heq⟩ := ih h
        exact ⟨i, event, agentId, instruction, outcome, List.mem_cons_of_mem _ hmem, heq⟩
      cases x with
      | asked i event agentId instruction outcome =>
          rcases List.mem_cons.1 h with rfl | h
          · exact ⟨i, event, agentId, instruction, outcome, List.mem_cons_self, rfl⟩
          · exact hrest h
      | served | told | hinted => exact hrest h

theorem mem_hints [DecidableEq ι] {i : ι} {o : PyStr} (h : o ∈ hints i log) :
    ∃ result, hinted i o result ∈ log := by
  induction log with
  | nil => cases h
  | cons x log ih =>
      have hrest : o ∈ hints i log → ∃ result, hinted i o result ∈ x :: log :=
        fun h => (ih h).imp fun _ hmem => List.mem_cons_of_mem _ hmem
      cases x with
      | hinted i' offerId result =>
          simp only [hints] at h
          split_ifs at h with hi
          · subst hi
            rcases List.mem_cons.1 h with rfl | h
            · exact ⟨result, List.mem_cons_self⟩
            · exact hrest h
          · exact hrest h
      | served | told | asked => exact hrest h

/-! ### Results -/

variable (host e₀) in
/-- The run of this event was a query. -/
def Query (event : SystemEvent) (log : List (Happening ι)) : Prop :=
  ∃ task, Once host e₀ (Registered (event.taskId.getD 0) event.taskGeneration task) log ∧
    task.method = TaskMethod.query

/-- The result that a worker makes of the answer of an agent. -/
def resultFor (event : SystemEvent) (agentId text : PyStr) : QueryPayload where
  runId := event.runId
  taskId := event.taskId.getD 0
  source := event.source
  agentId
  agentOk := true
  text := NativeTaskWorker.truncate text

variable (host e₀) in
/-- The worker `i` has the result `p` to publish: it has asked an agent on behalf of the query `k`,
under the offer `o`, and the agent has returned with status 0 and has said something. -/
def Owed (i : ι) (k o : PyStr) (p : QueryPayload) (log : List (Happening ι)) : Prop :=
  ∃ event agentId instruction free text earlier,
    asked i event agentId instruction (AgentOutcome.returned free 0 text) :: earlier <:+ log ∧
    Query host e₀ event earlier ∧ PyStr.strip text ≠ [] ∧ event.runId = k ∧ event.offerId = o ∧
    p = resultFor event agentId text

variable {i : ι} {k o : PyStr} {p : QueryPayload}

theorem Owed.later (h : Owed host e₀ i k o p log) (hlog : log <:+ log') :
    Owed host e₀ i k o p log' := by
  obtain ⟨event, agentId, instruction, free, text, earlier, hsuffix, hrest⟩ := h
  exact ⟨event, agentId, instruction, free, text, earlier, hsuffix.trans hlog, hrest⟩

theorem Owed.runId_eq (h : Owed host e₀ i k o p log) : p.runId = k := by
  obtain ⟨event, agentId, instruction, free, text, earlier, _, _, _, hk, _, rfl⟩ := h
  exact hk

/-- What a worker has to publish comes from a call of the model. -/
theorem Owed.starts (h : Owed host e₀ i k o p log) : ∃ x ∈ log, Starts i k o x := by
  obtain ⟨event, agentId, instruction, free, text, earlier, hsuffix, _, _, hk, ho, _⟩ := h
  exact ⟨_, hsuffix.subset List.mem_cons_self,
    Or.inl ⟨event, agentId, instruction, _, rfl, hk, ho⟩⟩

/-- Something that is no call of the model leaves nothing to be published. -/
theorem Owed.of_cons {x : Happening ι} (h : Owed host e₀ i k o p (x :: log))
    (hx : ¬ Starts i k o x) : Owed host e₀ i k o p log := by
  obtain ⟨event, agentId, instruction, free, text, earlier, hsuffix, hquery, htext, hk, ho, hp⟩ := h
  rcases List.suffix_cons_iff.1 hsuffix with heq | hsuffix
  · obtain ⟨rfl, _⟩ := List.cons.inj heq
    exact absurd (Or.inl ⟨event, agentId, instruction, _, rfl, hk, ho⟩) hx
  · exact ⟨event, agentId, instruction, free, text, earlier, hsuffix, hquery, htext, hk, ho, hp⟩

/-- What a thread is told leaves nothing to be published. -/
theorem Owed.of_told {j : WorkerThread ι} {c : RpcCall} {answer : Except PyError Reply}
    (h : Owed host e₀ i k o p (told j c answer :: log)) : Owed host e₀ i k o p log := by
  obtain ⟨event, agentId, instruction, free, text, earlier, hsuffix, hrest⟩ := h
  rcases List.suffix_cons_iff.1 hsuffix with heq | hsuffix
  · cases (List.cons.inj heq).1
  · exact ⟨event, agentId, instruction, free, text, earlier, hsuffix, hrest⟩

variable (host e₀) (lawful : Prop) (crew : Workers ι) in
/-- The result `p` was in the inbox, under the grant of the worker `i`.  If nobody else speaks in the
name of a worker, the run was not done yet. -/
def Committed (i : ι) (o : PyStr) (p : QueryPayload) (log : List (Happening ι)) : Prop :=
  Once host e₀ (fun e => (∃ record, e.queryResults.get? p.runId = some record ∧
    record.owner = (crew.config i).owner ∧ record.peer = crew.peer i ∧ record.offerId = o ∧
    record.payload = p) ∧
    (lawful → ∀ run, e.runs.get? p.runId = some run → run.state ≠ RunState.done)) log

/-- An outcome that does not make a run done. -/
def Harmless (outcome : PyStr) : Prop := RunState.ofOutcome outcome ≠ RunState.done

instance (outcome : PyStr) : Decidable (Harmless outcome) := inferInstanceAs (Decidable (_ ≠ _))

variable (host e₀) (lawful : Prop) (crew : Workers ι) in
/-- A run may be finished with this outcome: if that makes it done, its result was committed. -/
def Ready (i : ι) (o outcome : PyStr) (log : List (Happening ι)) : Prop :=
  Harmless outcome ∨ ∀ k p, Owed host e₀ i k o p log → Committed host e₀ lawful crew i o p log

end Happening
