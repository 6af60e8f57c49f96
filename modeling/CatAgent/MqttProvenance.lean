/-
**Where an MQTT value comes from.**

A run that is queued for an MQTT event keeps the name of the event and its value.  The worker that
executes the run resolves the name once more, and tells the model the topic and the field of the
binding that it finds.  In the meantime the name may have been bound anew: the engine drops values
of a replaced binding when they arrive, but a run that waits is not looked at again.

Main definitions:

* `Happening.Emitted` — a run was queued for a value that the monitor emitted for a binding;
* `Happening.begun`, `WorkerSystem.Waiting` — a run whose name may still be resolved;
* `Workers.Keeps` — inputs that do not bind the name of a waiting run anew, and do not queue MQTT
  events by themselves;
* `Happening.Traced` — **the model is told the topic and the field of the binding for which the value
  was emitted**.

Main results:

* `Workers.traced` — in every run of the system whose inputs keep the names of waiting runs;
* `Workers.not_traced` — and not in all others.
-/

import CatAgent.Arrivals
import CatAgent.Fencing
import CatAgent.MqttEventMonitor
import CatAgent.Offers
import CatAgent.WorkerSystem

set_option relaxedAutoImplicit false
set_option autoImplicit false

/-! ### What the log says -/

namespace Happening

variable {ι : Type}

/-- The run `runId` was queued for `value`, which the monitor emitted for the binding `o`. -/
def Emitted (o : BindingObject) (value runId : PyStr) (log : List (Happening ι)) : Prop :=
  ∃ env, served (Input.consumeMqtt env o value) (Except.ok (Reply.runId (some runId))) ∈ log

theorem Emitted.mono {o : BindingObject} {value runId : PyStr} {log log' : List (Happening ι)}
    (h : Emitted o value runId log) (hlog : log ⊆ log') : Emitted o value runId log' := by
  obtain ⟨env, hmem⟩ := h
  exact ⟨env, hlog hmem⟩

/-- The run that the worker `i` has begun, as long as the worker has not resolved its event. -/
def begun [DecidableEq ι] (i : ι) : List (Happening ι) → Option PyStr
  | [] => none
  | told j c answer :: log =>
      if j = WorkerThread.executing i then
        match c, answer with
        | RpcCall.begin runId _, Except.ok reply =>
            if NativeTaskWorker.truthy reply then some runId else none
        | RpcCall.valid _ _, Except.ok reply =>
            if NativeTaskWorker.truthy reply then begun i log else none
        | _, _ => none
      else begun i log
  | _ :: log => begun i log

/-- What the model is told when it is called for an MQTT event: the instruction that the worker makes
for the event and a binding, which has the topic and the field of the binding for which the value
was emitted before. -/
def Traced (host : Host) (crew : Workers ι) (log : List (Happening ι)) : Prop :=
  ∀ i event agentId instruction outcome earlier,
    asked i event agentId instruction outcome :: earlier <:+ log → event.source = "mqtt" →
    ∃ task b o, NativeTaskWorker.instruction (crew.config i) host ⟨event, task, agentId⟩ (some b) =
        Except.ok (some instruction) ∧
      b.topic = o.binding.topic ∧ b.field = o.binding.field ∧ event.name = o.binding.name ∧
      Emitted o event.task event.runId earlier

end Happening

open Happening (Emitted begun Traced)

/-- The task of a run is still there, with the generation of the run. -/
def Run.Alive (tasks : TaskTable) (run : Run) : Prop :=
  ∃ taskId task, run.event.taskId = some taskId ∧ tasks.get? taskId = some task ∧
    task.generation = run.event.taskGeneration

namespace WorkerSystem

variable {ι : Type} [DecidableEq ι]

/-- A run whose event may still be resolved: it has not ended and belongs to the generation of its
task, or a worker has begun it and has not resolved its event. -/
def Waiting (s : WorkerSystem ι) (runId : PyStr) : Prop :=
  (∃ run, s.engine.runs.get? runId = some run ∧ run.state.terminal = false ∧
    run.Alive s.engine.registry.tasks) ∨ ∃ i, begun i s.log = some runId

end WorkerSystem

/-- An object that the monitor hands over and that has the identity of a stored one is the stored
one. -/
def Input.Genuine (host : Host) (s : TaskEngine) : Input → Prop
  | Input.consumeMqtt _ o _ => ∀ o', EventStore.resolve host o.binding.source o.binding.name
      s.registry.bindings = some o' → o'.id = o.id → o' = o
  | _ => True

namespace Workers

variable {ι : Type} [DecidableEq ι]

/-- The input does not bind the name of a waiting run to another topic or field for the same task,
and it does not queue an MQTT event that the monitor has not emitted. -/
structure Keeps (host : Host) (s : WorkerSystem ι) (i : Input) : Prop where
  names : ∀ env op peer reply b o value runId, i = Input.call env (Op.admin op) peer →
    (s.engine.respond host i).1 = Except.ok reply →
    op.binds host s.engine.registry.tasks = some b → b.source = "mqtt" →
    Emitted o value runId s.log → o.binding.source = "mqtt" → s.Waiting runId →
    b.name = o.binding.name → b.taskId = o.binding.taskId →
    b.topic = o.binding.topic ∧ b.field = o.binding.field
  external : ∀ env name value peer, i ≠ Input.call env (Op.externalEvent "mqtt" name value) peer
  submitted : ∀ env event peer, i = Input.call env (Op.submitEvent event) peer →
    event.source ≠ "mqtt"

/-- What the environment may decide, when waiting runs keep their names. -/
def KeepsNames (host : Host) (s : WorkerSystem ι) (i : WorkerThread ι × WorkerChoice) : Prop :=
  ∀ inp, i.2 = WorkerChoice.input inp → inp.Genuine host s.engine ∧ Keeps host s inp

end Workers

/-! ### The state of the service -/

/-- The value of an event was emitted for a binding, and a binding that is found for the event has
the topic and the field of that one. -/
def SystemEvent.Sourced {ι : Type} (host : Host) (log : List (Happening ι))
    (bindings : BindingTable) (event : SystemEvent) : Prop :=
  ∃ o, Emitted o event.task event.runId log ∧ event.name = o.binding.name ∧
    event.source = o.binding.source ∧ event.taskId = some o.binding.taskId ∧
    o.binding.Normal host ∧ ∀ o', EventStore.resolve host "mqtt" event.name bindings = some o' →
      o'.binding.taskId = o.binding.taskId →
      o'.binding.topic = o.binding.topic ∧ o'.binding.field = o.binding.field

namespace TaskEngine

variable {host : Host} {s : TaskEngine} {event : SystemEvent}

/-- A run that lives after an input lived before it. -/
theorem alive_before (hs : (machine host).Reachable s) (i : Input) {k : PyStr} {run run' : Run}
    (hk : s.runs.get? k = some run) (hk' : (s.respond host i).2.runs.get? k = some run')
    (hend : run'.state.terminal = false)
    (halive : run'.Alive (s.respond host i).2.registry.tasks) :
    run.Later run' ∧ run.state.terminal = false ∧ run.Alive s.registry.tasks := by
  have hl : Tables.Later host s.toTables (s.respond host i).2.toTables :=
    respond_later (rowHolds_of_reachable hs) i
  obtain ⟨run₀, hk₀, hlater⟩ := hl.old (allocated_of_reachable hs k run hk) hk'
  rw [hk] at hk₀
  cases hk₀
  refine ⟨hlater, ?_, ?_⟩
  · by_contra hterm
    rw [Bool.not_eq_false] at hterm
    rw [hlater.ended hterm, hterm] at hend
    cases hend
  · obtain ⟨taskId, task', hid, htask', hgen⟩ := halive
    rw [hlater.taskId] at hid
    rw [hlater.taskGeneration] at hgen
    rcases (respond_tasks (rowHolds_of_reachable hs) i).2 taskId task' htask' with
      ⟨task, htask, hsame, _⟩ | ⟨n, hn, _, hnew⟩
    · exact ⟨taskId, task, hid, htask, hsame.trans hgen⟩
    · exact absurd (hgen.symm.trans hnew) ((policed_of_reachable hs).run_old k run hk n hn)

end TaskEngine

/-- A run that a worker has been allowed to begin is running and current. -/
theorem TaskEngine.running_of_begin {host : Host} {s : TaskEngine} {env : Env}
    {owner peer runId offerId : PyStr} {reply : Reply}
    (h : (s.respond host (Input.call env ((RpcCall.begin runId offerId).op owner) peer)).1 =
      Except.ok reply) (htrue : NativeTaskWorker.truthy reply = true) :
    ∃ run, (s.respond host (Input.call env ((RpcCall.begin runId offerId).op owner)
        peer)).2.runs.get? runId = some run ∧ run.state = RunState.running ∧
      run.Alive (s.respond host (Input.call env ((RpcCall.begin runId offerId).op owner)
        peer)).2.registry.tasks := by
  obtain ⟨t, hb, ht⟩ := transact_returned h
  obtain ⟨_, _, hb⟩ := bind_eq_ok_iff.1 hb
  cases hb
  change ∃ run, (s.call host env _ peer).2.runs.get? runId = some run ∧ _ ∧
    run.Alive (s.call host env _ peer).2.registry.tasks
  rw [call, ht]
  simp only [NativeTaskWorker.truthy, Tables.begin] at htrue ⊢
  cases hgranted : (s.toTables.reconcile env).granted owner peer runId offerId with
  | none =>
      rw [hgranted] at htrue
      cases htrue
  | some run =>
      simp only [hgranted] at htrue ⊢
      split_ifs at htrue ⊢ with hsay
      obtain ⟨taskId, task, hid, htask, _, hgen⟩ :=
        Run.current_iff.1 (Bool.and_eq_true_iff.1 hsay).2
      exact ⟨{ run with state := RunState.running },
        Tables.get?_updateRun_self (Tables.granted_eq_some hgranted).1, rfl,
        taskId, task, hid, htask, hgen⟩

/-- What a worker is told when it resolves a name. -/
theorem TaskEngine.resolve_of_call {host : Host} {s : TaskEngine} {env : Env}
    {owner peer source name : PyStr} {b : EventBinding}
    (h : (s.respond host (Input.call env ((RpcCall.resolve source name).op owner) peer)).1 =
      Except.ok (Reply.binding (some b))) :
    ∃ o, EventStore.resolve host source name s.registry.bindings = some o ∧ o.binding = b := by
  obtain ⟨t, hb, _⟩ := transact_returned h
  obtain ⟨⟨reply', r⟩, ha, hb⟩ := bind_eq_ok_iff.1 hb
  cases hb
  simp only [AdminOp.apply, Except.ok.injEq, Prod.mk.injEq, Reply.binding.injEq] at ha
  exact Option.map_eq_some_iff.1 ha.1

theorem EventStore.resolve_eq_some_iff {host : Host} {source name : PyStr}
    {bindings : BindingTable} {o : BindingObject} :
    resolve host source name bindings = some o ↔ bindings.get? (PyStr.strip name) = some o ∧
      o.binding.source = host.lower (PyStr.strip source) := by
  simp [resolve, Option.filter_eq_some_iff]

namespace WorkerSystem

variable {ι : Type} [DecidableEq ι] {host : Host} {crew : Workers ι} {s : WorkerSystem ι}
  {event : SystemEvent}

open Workers (Keeps)

/-- The runs of MQTT events that may still begin are sourced. -/
def RunsSourced (host : Host) (s : WorkerSystem ι) : Prop :=
  ∀ k run, s.engine.runs.get? k = some run → run.event.source = "mqtt" →
    run.state.terminal = false → run.Alive s.engine.registry.tasks →
    run.event.Sourced host s.log s.engine.registry.bindings

/-- **An event that waits stays sourced**, when its name is kept. -/
theorem sourced_serve (hs : (TaskEngine.machine host).Reachable s.engine) {i : Input}
    (hkeeps : Keeps host s i) (h : event.Sourced host s.log s.engine.registry.bindings)
    (hmqtt : event.source = "mqtt") (hwait : s.Waiting event.runId) :
    event.Sourced host (s.serve host i).2.log (s.serve host i).2.engine.registry.bindings := by
  obtain ⟨o, hemitted, hname, hsource, htaskId, hnormal, hsound⟩ := h
  refine ⟨o, hemitted.mono (List.subset_cons_self _ _), hname, hsource, htaskId, hnormal, ?_⟩
  intro o' hres' htask'
  have hostrip : PyStr.strip event.name = o.binding.name := by
    rw [hname]
    exact EventStore.strip_of_isEventName hnormal.name_ok
  have hosource : o.binding.source = "mqtt" := hsource.symm.trans hmqtt
  obtain ⟨hget', hsource'⟩ := EventStore.resolve_eq_some_iff.1 hres'
  rcases TaskEngine.respond_new_binding hs i hget' with ⟨o₀, hget₀, hsame⟩ |
    ⟨env, op, peer, reply, rfl, hok, hbinds⟩
  · -- The binding was there before.
    have hres₀ : EventStore.resolve host "mqtt" event.name s.engine.registry.bindings = some o₀ :=
      EventStore.resolve_eq_some_iff.2 ⟨hget₀, by rw [hsame, hsource']⟩
    have hfields := hsound o₀ hres₀ (by rw [hsame, htask'])
    rw [hsame] at hfields
    exact hfields
  · -- The input has bound the name anew.
    have hmqtt' : o'.binding.source = "mqtt" := by
      rw [hsource', ← hosource, EventStore.strip_of_isEventName hnormal.source_ok,
        hnormal.source_lower]
    have hname' : o'.binding.name = o.binding.name := by
      rw [← hostrip]
      exact Table.key_of_get? (t := (s.engine.respond host _).2.registry.bindings) hget'
    exact hkeeps.names env op peer reply o'.binding.request o event.task event.runId rfl hok hbinds
      hmqtt' hemitted hosource hwait hname' htask'

omit [DecidableEq ι] in
/-- The event of a run that is queued for the monitor is sourced. -/
theorem sourced_of_consumed (hs : (TaskEngine.machine host).Reachable s.engine) {env : Env}
    {o : BindingObject} (hk : (s.engine.respond host (Input.consumeMqtt env o event.task)).1 =
      Except.ok (Reply.runId (some event.runId)))
    (hres : EventStore.resolve host o.binding.source o.binding.name s.engine.registry.bindings =
      some o) (hsource : event.source = o.binding.source)
    (hname : event.name = o.binding.name) (htaskId : event.taskId = some o.binding.taskId) :
    event.Sourced host (s.serve host (Input.consumeMqtt env o event.task)).2.log
      (s.serve host (Input.consumeMqtt env o event.task)).2.engine.registry.bindings := by
  obtain ⟨hget, _⟩ := EventStore.resolve_eq_some_iff.1 hres
  have hnormal := (TaskEngine.storeOk_of_reachable hs _ _ hget).2
  refine ⟨o, ⟨env, ?_⟩, hname, hsource, htaskId, hnormal, fun o' hres' _ => ?_⟩
  · change _ ∈ Happening.served _ _ :: s.log
    rw [hk]
    exact List.mem_cons_self
  · -- The input leaves the bindings as they are.
    obtain ⟨hget', _⟩ := EventStore.resolve_eq_some_iff.1 hres'
    rcases TaskEngine.respond_new_binding hs _ hget' with ⟨o₀, hget₀, hsame⟩ |
      ⟨_, _, _, _, hinput, _⟩
    · rw [hname, hget] at hget₀
      cases hget₀
      rw [hsame]
      exact ⟨rfl, rfl⟩
    · cases hinput

/-- **The runs that may begin stay sourced**, when names are kept and the objects are real. -/
theorem runsSourced_serve (hs : (TaskEngine.machine host).Reachable s.engine) {i : Input}
    (hgenuine : i.Genuine host s.engine) (hkeeps : Keeps host s i) (h : RunsSourced host s) :
    RunsSourced host (s.serve host i).2 := by
  intro k run' hk' hmqtt hend halive
  have hid' : run'.event.runId = k :=
    Table.key_of_get? (t := (s.engine.respond host i).2.runs) hk'
  cases hk : s.engine.runs.get? k with
  | some run =>
      obtain ⟨hlater, hend₀, halive₀⟩ := TaskEngine.alive_before hs i hk hk' hend halive
      have hid : run.event.runId = k := Table.key_of_get? (t := s.engine.runs) hk
      have hmqtt₀ : run.event.source = "mqtt" := by
        rw [← hmqtt, hlater.event]
      have hsourced := sourced_serve hs hkeeps (h k run hk hmqtt₀ hend₀ halive₀) hmqtt₀
        (Or.inl ⟨run, by rw [hid]; exact hk, hend₀, halive₀⟩)
      rw [hlater.event]
      exact hsourced
  | none =>
      rcases TaskEngine.respond_new_run hs i hk hk' with htimer | hmanual |
        ⟨env, name, value, peer, rfl⟩ | ⟨env, event, peer, rfl, hsource⟩ |
        ⟨env, o, o', rfl, hok, hres, hoid, hrunId, hsource, hname, htaskId⟩
      · rw [hmqtt] at htimer
        exact absurd htimer (by decide)
      · rw [hmqtt] at hmanual
        exact absurd hmanual (by decide)
      · rw [hmqtt] at hkeeps
        exact absurd rfl (hkeeps.external env name value peer)
      · exact absurd (hsource.symm.trans hmqtt) (hkeeps.submitted env event peer rfl)
      · obtain rfl : o' = o := hgenuine o' hres hoid
        rw [← hrunId] at hok
        exact sourced_of_consumed hs hok hres hsource hname htaskId

end WorkerSystem

/-! ### What the threads know -/

/-- What a thread knows of the event that it works on. -/
inductive ProvenanceNote where
  | idle
  | pulled (event : SystemEvent)
  | admitted (job : Job)
  | begun (job : Job)
  | resolved (job : Job) (b : EventBinding)

/-- A job whose event the engine has offered, with the task of that number. -/
def Job.Admitted (host : Host) (job : Job) (s : TaskEngine) : Prop :=
  job.event.Known host s ∧ job.task.taskId = job.event.taskId.getD 0

namespace WorkerSystem

variable {ι : Type} [DecidableEq ι] {host : Host} {crew : Workers ι} {s s' : WorkerSystem ι}
  {notes : WorkerThread ι → ProvenanceNote} {j j' : WorkerThread ι} {i : ι}

open Workers (Keeps)

/-- The note of a thread is true. -/
def NoteHolds (host : Host) (s : WorkerSystem ι) (j : WorkerThread ι) : ProvenanceNote → Prop
  | ProvenanceNote.idle => True
  | ProvenanceNote.pulled event => event.Known host s.engine
  | ProvenanceNote.admitted job => job.Admitted host s.engine
  | ProvenanceNote.begun job => job.Admitted host s.engine ∧
      ∃ i, j = WorkerThread.executing i ∧ begun i s.log = some job.event.runId ∧
        (job.event.source = "mqtt" → job.event.Sourced host s.log s.engine.registry.bindings)
  | ProvenanceNote.resolved job b => ∃ o, Emitted o job.event.task job.event.runId s.log ∧
      job.event.name = o.binding.name ∧ (b.taskId = job.task.taskId →
        b.topic = o.binding.topic ∧ b.field = o.binding.field)

/-- The invariant of the system. -/
structure Provenance (host : Host) (crew : Workers ι) (s : WorkerSystem ι)
    (notes : WorkerThread ι → ProvenanceNote) : Prop where
  engine : (TaskEngine.machine host).Reachable s.engine
  runs : RunsSourced host s
  jobs : ∀ i, ∀ job ∈ (s.workers i).jobs, job.Admitted host s.engine
  traced : Traced host crew s.log
  notes : ∀ j, NoteHolds host s j (notes j)

omit [DecidableEq ι] in
theorem admitted_serve (hs : (TaskEngine.machine host).Reachable s.engine) (inp : Input) {job : Job}
    (h : job.Admitted host s.engine) : job.Admitted host (s.serve host inp).2.engine :=
  ⟨TaskEngine.known_respond hs inp h.1, h.2⟩

/-- What is known of an event stays true when the service answers an input. -/
theorem NoteHolds.serve {n : ProvenanceNote}
    (hs : (TaskEngine.machine host).Reachable s.engine) {inp : Input} (hkeeps : Keeps host s inp)
    (h : NoteHolds host s j n) : NoteHolds host (s.serve host inp).2 j n := by
  cases n with
  | idle => trivial
  | pulled event => exact TaskEngine.known_respond hs inp h
  | admitted job => exact admitted_serve hs inp h
  | begun job =>
      obtain ⟨hadmitted, i, hj, hbegun, hsourced⟩ := h
      refine ⟨admitted_serve hs inp hadmitted, i, hj, hbegun, fun hmqtt => ?_⟩
      exact sourced_serve hs hkeeps (hsourced hmqtt) hmqtt (Or.inr ⟨i, hbegun⟩)
  | resolved job b =>
      obtain ⟨o, hemitted, hrest⟩ := h
      exact ⟨o, hemitted.mono (List.subset_cons_self _ _), hrest⟩

omit [DecidableEq ι] in
/-- A happening that is no call of the model leaves no trace. -/
theorem traced_cons {x : Happening ι} {log : List (Happening ι)} (h : Traced host crew log)
    (hx : ∀ i event agentId instruction outcome,
      x ≠ Happening.asked i event agentId instruction outcome) : Traced host crew (x :: log) := by
  intro i event agentId instruction outcome earlier hsuffix hmqtt
  rcases List.suffix_cons_iff.1 hsuffix with heq | hsuffix
  · rw [List.cons.injEq] at heq
    exact absurd heq.1.symm (hx i event agentId instruction outcome)
  · exact h i event agentId instruction outcome earlier hsuffix hmqtt

/-- **The service may answer every input that keeps the names.** -/
theorem Provenance.serve (h : Provenance host crew s notes) {inp : Input}
    (hgenuine : inp.Genuine host s.engine) (hkeeps : Keeps host s inp) :
    Provenance host crew (s.serve host inp).2 notes where
  engine := h.engine.step inp
  runs := runsSourced_serve h.engine hgenuine hkeeps h.runs
  jobs := fun i job hjob => admitted_serve h.engine inp (h.jobs i job hjob)
  traced := traced_cons h.traced fun _ _ _ _ _ => nofun
  notes := fun j => (h.notes j).serve h.engine hkeeps

/-- Nothing is forgotten while more is written down. -/
theorem NoteHolds.log {n : ProvenanceNote} (h : NoteHolds host s j n)
    (hengine : s'.engine = s.engine) (hlog : s.log ⊆ s'.log)
    (hbegun : ∀ i, j = WorkerThread.executing i → begun i s'.log = begun i s.log) :
    NoteHolds host s' j n := by
  cases n with
  | idle => trivial
  | pulled event =>
      rw [NoteHolds, hengine]
      exact h
  | admitted job =>
      rw [NoteHolds, hengine]
      exact h
  | begun job =>
      obtain ⟨hadmitted, i, hj, hrun, hsourced⟩ := h
      rw [NoteHolds, hengine]
      refine ⟨hadmitted, i, hj, (hbegun i hj).trans hrun, fun hmqtt => ?_⟩
      obtain ⟨o, hemitted, hrest⟩ := hsourced hmqtt
      exact ⟨o, hemitted.mono hlog, hrest⟩
  | resolved job b =>
      obtain ⟨o, hemitted, hrest⟩ := h
      exact ⟨o, hemitted.mono hlog, hrest⟩

theorem begun_told_of_ne (hne : WorkerThread.executing i ≠ j') (c : RpcCall)
    (answer : Except PyError Reply) (log : List (Happening ι)) :
    begun i (Happening.told j' c answer :: log) = begun i log := by
  simp only [begun]
  rw [if_neg hne.symm]

/-- One more thing is written down; the thread `j` knows what follows from it. -/
theorem Provenance.note (h : Provenance host crew s notes) {x : Happening ι}
    {n : ProvenanceNote} (htraced : Traced host crew (x :: s.log))
    (hbegun : ∀ i, j ≠ WorkerThread.executing i → begun i (x :: s.log) = begun i s.log)
    (hn : NoteHolds host (s.note x) j n) :
    Provenance host crew (s.note x) (Function.update notes j n) where
  engine := h.engine
  runs := by
    intro k run hk hmqtt hend halive
    obtain ⟨o, hemitted, hrest⟩ := h.runs k run hk hmqtt hend halive
    exact ⟨o, hemitted.mono (List.subset_cons_self _ _), hrest⟩
  jobs := h.jobs
  traced := htraced
  notes := by
    intro j₁
    rcases eq_or_ne j₁ j with rfl | hne
    · rw [Function.update_self]
      exact hn
    · rw [Function.update_of_ne hne]
      exact (h.notes j₁).log rfl (List.subset_cons_self _ _)
        fun i hi => hbegun i fun heq => hne (hi.trans heq.symm)

/-- A thread is told something. -/
theorem Provenance.told (h : Provenance host crew s notes) {c : RpcCall}
    {answer : Except PyError Reply} {n : ProvenanceNote}
    (hn : NoteHolds host (s.note (Happening.told j c answer)) j n) :
    Provenance host crew (s.note (Happening.told j c answer)) (Function.update notes j n) :=
  h.note (traced_cons h.traced fun _ _ _ _ _ => nofun)
    (fun _ hne => begun_told_of_ne hne.symm c answer s.log) hn

/-- The fields of a worker may change, as long as its jobs stay admitted, and the thread `j` may
know something else. -/
theorem Provenance.locked (h : Provenance host crew s notes) {w : NativeTaskWorker}
    {n : ProvenanceNote} (hw : ∀ job ∈ w.jobs, job.Admitted host s.engine)
    (hn : NoteHolds host s j n) :
    Provenance host crew { s with workers := Function.update s.workers i w }
      (Function.update notes j n) where
  engine := h.engine
  runs := h.runs
  jobs := by
    intro i' job hjob
    rcases eq_or_ne i' i with rfl | hne
    · change job ∈ (Function.update s.workers i' w i').jobs at hjob
      rw [Function.update_self] at hjob
      exact hw job hjob
    · change job ∈ (Function.update s.workers i w i').jobs at hjob
      rw [Function.update_of_ne hne] at hjob
      exact h.jobs i' job hjob
  traced := h.traced
  notes := by
    intro j₁
    rcases eq_or_ne j₁ j with rfl | hne
    · rw [Function.update_self]
      exact hn.log rfl (List.Subset.refl _) fun _ _ => rfl
    · rw [Function.update_of_ne hne]
      exact (h.notes j₁).log rfl (List.Subset.refl _) fun _ _ => rfl

/-! ### The calls of the workers -/

/-- The requests of the workers are no requests about bindings, and no events. -/
theorem keeps_request (c : RpcCall) (env : Env) : Keeps host s (crew.request i c env) where
  names := by
    intro env' op peer reply b o value runId hinp _ hbinds
    cases c <;> cases hinp <;> cases hbinds
  external := by
    intro env' name value peer hinp
    cases c <;> cases hinp
  submitted := by
    intro env' event peer hinp
    cases c <;> cases hinp

omit [DecidableEq ι] in
theorem genuine_request (c : RpcCall) (env : Env) :
    (crew.request i c env).Genuine host s.engine := by
  cases c <;> exact trivial

/-- **A call of a worker.**  The service has answered, or it has not heard of the call. -/
theorem Provenance.call (h : Provenance host crew s notes) {c : RpcCall} {o : WorkerChoice}
    {answer : Except PyError Reply} (hcall : crew.call host i j c o s = some (answer, s')) :
    ∃ s₁, s' = s₁.note (Happening.told j c answer) ∧ Provenance host crew s₁ notes ∧
      s.log ⊆ s₁.log ∧ ((∃ e, answer = Except.error e) ∨
        ∃ env, answer = (s.engine.respond host (crew.request i c env)).1 ∧
          s₁ = (s.serve host (crew.request i c env)).2) := by
  cases o with
  | served env heard =>
      simp only [Workers.call] at hcall
      split_ifs at hcall with hfits hheard
      · cases hcall
        exact ⟨_, rfl, h.serve (genuine_request c env) (keeps_request c env),
          List.subset_cons_self _ _, Or.inr ⟨env, rfl, rfl⟩⟩
      · cases hcall
        exact ⟨_, rfl, h.serve (genuine_request c env) (keeps_request c env),
          List.subset_cons_self _ _, Or.inl ⟨_, rfl⟩⟩
      · cases hcall
        exact ⟨s, rfl, h, List.Subset.refl _, Or.inl ⟨_, rfl⟩⟩
  | lost late =>
      simp only [Workers.call, Option.some.injEq, Prod.mk.injEq] at hcall
      obtain ⟨rfl, rfl⟩ := hcall
      refine ⟨_, rfl, ⟨h.engine, h.runs, h.jobs, h.traced, fun j => ?_⟩, List.Subset.refl _,
        Or.inl ⟨_, rfl⟩⟩
      exact (h.notes j).log rfl (List.Subset.refl _) fun _ _ => rfl
  | _ => cases hcall

end WorkerSystem

/-! ### Outlines of the polling thread -/

namespace NativeTaskWorker

open Program (all_bind all_pure all_operation)

/-- An operation of the polling thread that submits no job. -/
def Plain : WorkerEffect → Prop
  | WorkerEffect.locked _ f => ∀ w, (f w).2.jobs = w.jobs
  | WorkerEffect.runAgent _ _ _ => False
  | _ => True

theorem plain_update {f : NativeTaskWorker → NativeTaskWorker} (h : ∀ w, (f w).jobs = w.jobs) :
    (update f).All Plain := all_operation h

theorem plain_read {β : Type} (f : NativeTaskWorker → β) : (read f).All Plain :=
  all_operation (P := Plain) fun _ => rfl

theorem plain_rpc (c : RpcCall) : (rpc c).All Plain := all_operation trivial

theorem plain_clock : clock.All Plain := all_operation trivial

theorem plain_canRun : canRun.All Plain := all_operation trivial

theorem plain_admits : admits.All Plain := all_operation trivial

theorem plain_finishEntry (token : PyStr) (entry : PendingFinish) :
    (finishEntry token entry).All Plain := by
  refine all_bind (plain_rpc _) fun answer => ?_
  cases answer with
  | error e => exact all_pure _
  | ok reply => exact all_bind (plain_update fun _ => rfl) fun _ => all_pure _

theorem plain_publishEntry (token : PyStr) (entry : PendingFinish) :
    (publishEntry token entry).All Plain := by
  refine all_bind (plain_read _) fun found => ?_
  cases found with
  | none => exact all_pure _
  | some result =>
      refine all_bind (plain_rpc _) fun answer => ?_
      cases answer with
      | error e => exact all_pure _
      | ok persisted =>
          dsimp only
          split_ifs
          · refine all_bind (all_operation trivial) fun _ => ?_
            exact all_bind (plain_update fun _ => rfl) fun _ => all_pure _
          · exact all_bind (plain_update fun _ => rfl) fun _ => all_pure _

theorem plain_finishEntries (l : List (PyStr × PendingFinish)) : (finishEntries l).All Plain := by
  induction l with
  | nil => exact all_pure _
  | cons e rest ih =>
      obtain ⟨token, entry⟩ := e
      refine all_bind (plain_publishEntry token entry) fun found => ?_
      cases found with
      | none => exact all_pure _
      | some entry =>
          refine all_bind (plain_finishEntry token entry) fun finished => ?_
          cases finished with
          | true => exact ih
          | false => exact all_pure _

theorem plain_finishPending : finishPending.All Plain :=
  all_bind (plain_read _) plain_finishEntries

theorem Quiet.plain {e : WorkerEffect} (h : Quiet e) : Plain e := by
  cases e with
  | locked β f => exact fun w => (h w).jobs
  | runAgent => exact h
  | _ => trivial

theorem plain_flushDefers : flushDefers.All Plain := quiet_flushDefers.mono fun _ => Quiet.plain

theorem plain_deferOffer (event : SystemEvent) (seconds : ℚ) :
    (deferOffer event seconds).All Plain :=
  (quiet_deferOffer event seconds).mono fun _ => Quiet.plain

theorem plain_heartbeat : heartbeat.All Plain := quiet_heartbeat.mono fun _ => Quiet.plain

theorem plain_selectAgent (config : WorkerConfig) (task : TaskRecord) :
    (selectAgent config task).All Plain := (quiet_selectAgent config task).mono fun _ => Quiet.plain

theorem plain_close : close.All Plain :=
  all_bind plain_finishPending fun _ => all_bind plain_flushDefers fun _ =>
    all_bind (plain_rpc _) fun _ => all_bind (plain_update fun _ => rfl) fun _ => all_pure _

end NativeTaskWorker

namespace WorkerSystem

variable {ι : Type} [DecidableEq ι] {host : Host} {crew : Workers ι} {s s' : WorkerSystem ι}
  {notes : WorkerThread ι → ProvenanceNote} {j : WorkerThread ι} {i : ι} {n : ProvenanceNote}
  {α : Type}

open NativeTaskWorker (Plain)

variable (host crew) in
/-- An outline of a program of the thread `j` in this system. -/
abbrev Keeping (j : WorkerThread ι) (p : WorkerM α) (n : ProvenanceNote)
    (Q : α → ProvenanceNote → Prop) : Prop :=
  (crew.threads host).Outline (Provenance host crew) j p n Q

/-- A block under the lock that submits no job, or a job that is admitted. -/
theorem keeping_locked {β : Type} {f : NativeTaskWorker → β × NativeTaskWorker} (hj : Of i j)
    (hf : ∀ s, NoteHolds host s j n → ∀ w, ∀ job ∈ (f w).2.jobs,
      job ∈ w.jobs ∨ job.Admitted host s.engine) :
    Keeping host crew j (NativeTaskWorker.locked f) n fun _ l => l = n := by
  intro s notes o x s' hs hl hx
  rw [handle_of hj] at hx
  cases hx
  have hn := hs.notes j
  rw [hl] at hn
  refine ⟨n, hs.locked (fun job hjob => ?_) hn, rfl⟩
  exact (hf s hn (s.workers i) job hjob).elim (hs.jobs i job) id

/-- What a plain operation of the polling thread leaves of the note. -/
theorem keeping_plain {p : WorkerM α} (hp : p.All Plain) (n : ProvenanceNote) :
    Keeping host crew (WorkerThread.polling i) p n fun _ l => l = n := by
  induction p with
  | done a => exact rfl
  | perform e next ih =>
      intro s notes o x s' hs hl hx
      have hn := hs.notes (WorkerThread.polling i)
      rw [hl] at hn
      rw [handle_of (Or.inl rfl)] at hx
      have hsame : s' = s → Provenance host crew s'
          (Function.update notes (WorkerThread.polling i) n) := by
        rintro rfl
        rw [← hl]
        exact (Function.update_eq_self (WorkerThread.polling i) notes).symm ▸ hs
      refine ⟨n, ?_, ih x (hp.2 x)⟩
      cases e with
      | locked β f =>
          cases hx
          exact hs.locked (fun job hjob => hs.jobs i job (hp.1 (s.workers i) ▸ hjob)) hn
      | rpc c =>
          obtain ⟨s₁, rfl, hs₁, _⟩ := hs.call hx
          have hn₁ := hs₁.notes (WorkerThread.polling i)
          rw [hl] at hn₁
          exact hs₁.told (hn₁.log rfl (List.subset_cons_self _ _) nofun)
      | clock | canRun | agentStatus | agentBlocked | admits =>
          cases o <;> cases hx
          exact hsame rfl
      | runAgent event agentId instruction => exact absurd hp.1 id
      | onQueryResult offerId result =>
          cases hx
          exact hs.note (traced_cons hs.traced fun _ _ _ _ _ => nofun) (fun _ _ => rfl)
            (hn.log rfl (List.subset_cons_self _ _) nofun)

/-- The offer that a worker is told of is known. -/
theorem keeping_pull (seen skipRunIds : List PyStr) :
    Keeping host crew (WorkerThread.polling i)
      (NativeTaskWorker.rpc (RpcCall.pull seen skipRunIds)) n fun answer l =>
        ∀ event, answer = Except.ok (Reply.event (some event)) → l = ProvenanceNote.pulled event := by
  intro s notes o x s' hs hl hx
  rw [handle_of (Or.inl rfl)] at hx
  obtain ⟨s₁, rfl, hs₁, _, hanswer⟩ := hs.call hx
  by_cases hoffer : ∃ event, x = Except.ok (Reply.event (some event))
  · obtain ⟨event, rfl⟩ := hoffer
    rcases hanswer with ⟨e, he⟩ | ⟨env, hreply, rfl⟩
    · cases he
    · refine ⟨ProvenanceNote.pulled event, hs₁.told ?_, ?_⟩
      · exact TaskEngine.known_of_pull hs₁.engine hreply.symm
      · rintro event' heq
        cases heq
        rfl
  · refine ⟨ProvenanceNote.idle, hs₁.told trivial, ?_⟩
    rintro event rfl
    exact absurd ⟨event, rfl⟩ hoffer

/-- The task that a worker is told of has the number that it asked for. -/
theorem keeping_getTask (taskId : ℤ) :
    Keeping host crew (WorkerThread.polling i) (NativeTaskWorker.rpc (RpcCall.getTask taskId)) n
      fun answer l => l = n ∧
        ∀ task, answer = Except.ok (Reply.task (some task)) → task.taskId = taskId := by
  intro s notes o x s' hs hl hx
  rw [handle_of (Or.inl rfl)] at hx
  obtain ⟨s₁, rfl, hs₁, _, hanswer⟩ := hs.call hx
  have hn₁ := hs₁.notes (WorkerThread.polling i)
  rw [hl] at hn₁
  refine ⟨n, hs₁.told (hn₁.log rfl (List.subset_cons_self _ _) nofun), rfl, ?_⟩
  rintro task rfl
  rcases hanswer with ⟨e, he⟩ | ⟨env, hreply, _⟩
  · cases he
  · obtain ⟨t, hb, _⟩ := TaskEngine.transact_returned hreply.symm
    obtain ⟨⟨reply', r⟩, ha, hb⟩ := bind_eq_ok_iff.1 hb
    cases hb
    simp only [AdminOp.apply, Except.ok.injEq, Prod.mk.injEq, Reply.task.injEq] at ha
    exact Table.key_of_get? (t := s.engine.registry.tasks) ha.1

/-- A job is submitted only if it is admitted. -/
theorem keeping_submitOffer (config : WorkerConfig) (event : SystemEvent) (task : Option TaskRecord)
    (htask : ∀ record, task = some record → record.taskId = event.taskId.getD 0) :
    Keeping host crew (WorkerThread.polling i) (NativeTaskWorker.submitOffer config event task)
      (ProvenanceNote.pulled event) fun _ _ => True := by
  have hdefer : ∀ seconds, Keeping host crew (WorkerThread.polling i)
      (NativeTaskWorker.deferOffer event seconds >>= fun _ => pure false)
      (ProvenanceNote.pulled event) fun _ _ => True := fun seconds =>
    Threads.outline_bind (keeping_plain (NativeTaskWorker.plain_deferOffer event seconds) _)
      fun _ _ _ => Threads.outline_pure trivial
  cases task with
  | none => exact hdefer 30
  | some task =>
      simp only [NativeTaskWorker.submitOffer]
      split_ifs
      · refine Threads.outline_bind
          (keeping_plain (NativeTaskWorker.plain_selectAgent config task) _) ?_
        rintro found _ rfl
        cases found with
        | none => exact hdefer 2
        | some agentId =>
            refine Threads.outline_bind
              (keeping_plain NativeTaskWorker.plain_admits _) ?_
            rintro admitted _ rfl
            refine (keeping_locked (Or.inl rfl) fun s hknown w job hjob => ?_).mono
              fun _ _ _ => trivial
            simp only [NativeTaskWorker.submit] at hjob
            split_ifs at hjob
            · exact Or.inl hjob
            · rcases List.mem_append.1 hjob with hold | hnew
              · exact Or.inl hold
              · rw [List.mem_singleton] at hnew
                subst hnew
                exact Or.inr ⟨hknown, htask task rfl⟩
      · exact hdefer 30

/-- **The polling thread submits only jobs that are admitted.** -/
theorem keeping_pollOnce (config : WorkerConfig) (n : ProvenanceNote) :
    Keeping host crew (WorkerThread.polling i) (NativeTaskWorker.pollOnce config) n
      fun _ _ => True := by
  have hfalse : ∀ n, Keeping host crew (WorkerThread.polling i) (pure false : WorkerM Bool) n
      fun _ _ => True := fun _ => Threads.outline_pure trivial
  refine Threads.outline_bind (keeping_plain NativeTaskWorker.plain_heartbeat n) ?_
  rintro ready _ rfl
  cases ready with
  | false => exact hfalse _
  | true =>
  refine Threads.outline_bind (keeping_plain NativeTaskWorker.plain_canRun _) ?_
  rintro may _ rfl
  cases may with
  | false => exact hfalse _
  | true =>
  refine Threads.outline_bind (keeping_plain NativeTaskWorker.plain_finishPending _) ?_
  rintro finished _ rfl
  cases finished with
  | false => exact hfalse _
  | true =>
  refine Threads.outline_bind (keeping_plain NativeTaskWorker.plain_flushDefers _) ?_
  rintro flushed _ rfl
  cases flushed with
  | false => exact hfalse _
  | true =>
  refine Threads.outline_bind (keeping_plain NativeTaskWorker.plain_clock _) ?_
  rintro now _ rfl
  refine Threads.outline_bind (keeping_locked (Or.inl rfl) fun s _ w job hjob => Or.inl ?_) ?_
  · simp only [NativeTaskWorker.pullArgs] at hjob
    split_ifs at hjob <;> exact hjob
  rintro args _ rfl
  cases args with
  | none => exact hfalse _
  | some p =>
  obtain ⟨seen, skipRunIds⟩ := p
  refine Threads.outline_bind (keeping_pull seen skipRunIds) ?_
  intro answer n hanswer
  split
  · rename_i event
    obtain rfl := hanswer event rfl
    split_ifs
    · exact hfalse _
    · refine Threads.outline_bind (keeping_getTask (event.taskId.getD 0)) ?_
      rintro answer _ ⟨rfl, htask⟩
      split
      · rename_i task
        exact keeping_submitOffer config event task fun record hrecord => htask record (by rw [hrecord])
      · exact hfalse _
  · exact hfalse _

/-! ### Outlines of the executing thread -/

/-- An operation that only asks something. -/
theorem keeping_asks {e : WorkerEffect} (hj : Of i j)
    (h : ∀ o s x s', crew.perform host i j e o s = some (x, s') → s' = s) :
    Keeping host crew j (Program.operation e) n fun _ l => l = n := by
  intro s notes o x s' hs hl hx
  rw [handle_of hj] at hx
  obtain rfl := h o s x s' hx
  refine ⟨n, ?_, rfl⟩
  rw [← hl]
  exact (Function.update_eq_self j notes).symm ▸ hs

/-- A field of the worker is changed that holds no jobs. -/
theorem keeping_update {f : NativeTaskWorker → NativeTaskWorker} (hj : Of i j)
    (hf : ∀ w, (f w).jobs = w.jobs) :
    Keeping host crew j (NativeTaskWorker.update f) n fun _ l => l = n :=
  keeping_locked hj fun _ _ w _ hjob => Or.inl (hf w ▸ hjob)

/-- **A run that has begun is sourced.** -/
theorem keeping_begin (job : Job) :
    Keeping host crew (WorkerThread.executing i)
      (NativeTaskWorker.rpc (RpcCall.begin job.event.runId job.event.offerId))
      (ProvenanceNote.admitted job) fun answer l => ∀ reply, answer = Except.ok reply →
        NativeTaskWorker.truthy reply = true → l = ProvenanceNote.begun job := by
  intro s notes o x s' hs hl hx
  rw [handle_of (Or.inr rfl)] at hx
  obtain ⟨s₁, rfl, hs₁, _, hanswer⟩ := hs.call hx
  have hadmitted := hs₁.notes (WorkerThread.executing i)
  rw [hl] at hadmitted
  by_cases hbegun : ∃ reply, x = Except.ok reply ∧ NativeTaskWorker.truthy reply = true
  · obtain ⟨reply, rfl, htrue⟩ := hbegun
    rcases hanswer with ⟨e, he⟩ | ⟨env, hreply, rfl⟩
    · cases he
    obtain ⟨run, hrun, hrunning, halive⟩ := TaskEngine.running_of_begin hreply.symm htrue
    refine ⟨ProvenanceNote.begun job, hs₁.told ⟨hadmitted, i, rfl, ?_, fun hmqtt => ?_⟩, ?_⟩
    · simp [begun, note, htrue]
    · have hevent := hadmitted.1.2 run hrun
      have hmqtt' : run.event.source = "mqtt" := by rw [hevent, hmqtt]
      obtain ⟨o, hemitted, hrest⟩ :=
        hs₁.runs _ run hrun hmqtt' (by rw [hrunning]; rfl) halive
      rw [hevent] at hemitted hrest
      exact ⟨o, hemitted.mono (List.subset_cons_self _ _), hrest⟩
    · intro _ _ _
      rfl
  · refine ⟨ProvenanceNote.idle, hs₁.told trivial, fun reply heq htrue => ?_⟩
    exact absurd ⟨reply, heq, htrue⟩ hbegun

/-- It stays so while the worker asks whether it is valid. -/
theorem keeping_valid (job : Job) :
    Keeping host crew (WorkerThread.executing i)
      (NativeTaskWorker.rpc (RpcCall.valid job.event.runId job.event.offerId))
      (ProvenanceNote.begun job) fun answer l => ∀ reply, answer = Except.ok reply →
        NativeTaskWorker.truthy reply = true → l = ProvenanceNote.begun job := by
  intro s notes o x s' hs hl hx
  rw [handle_of (Or.inr rfl)] at hx
  obtain ⟨s₁, rfl, hs₁, _, _⟩ := hs.call hx
  have hnote := hs₁.notes (WorkerThread.executing i)
  rw [hl] at hnote
  by_cases hvalid : ∃ reply, x = Except.ok reply ∧ NativeTaskWorker.truthy reply = true
  · obtain ⟨reply, rfl, htrue⟩ := hvalid
    obtain ⟨hadmitted, i', hi', hbegun, hsourced⟩ := hnote
    refine ⟨ProvenanceNote.begun job, hs₁.told ⟨hadmitted, i', hi', ?_, fun hmqtt => ?_⟩, ?_⟩
    · rw [← hbegun]
      simp [begun, note, htrue, hi']
    · obtain ⟨o, hemitted, hrest⟩ := hsourced hmqtt
      exact ⟨o, hemitted.mono (List.subset_cons_self _ _), hrest⟩
    · intro _ _ _
      rfl
  · refine ⟨ProvenanceNote.idle, hs₁.told trivial, fun reply heq htrue => ?_⟩
    exact absurd ⟨reply, heq, htrue⟩ hvalid

/-- **The binding that is found has the topic and the field for which the value was emitted.** -/
theorem keeping_resolve (job : Job) (hmqtt : job.event.source = "mqtt") :
    Keeping host crew (WorkerThread.executing i)
      (NativeTaskWorker.rpc (RpcCall.resolve "mqtt" job.event.name)) (ProvenanceNote.begun job)
      fun answer l => ∀ b, answer = Except.ok (Reply.binding (some b)) →
        l = ProvenanceNote.resolved job b := by
  intro s notes o x s' hs hl hx
  rw [handle_of (Or.inr rfl)] at hx
  obtain ⟨s₁, rfl, hs₁, hlog, hanswer⟩ := hs.call hx
  have hnote := hs.notes (WorkerThread.executing i)
  rw [hl] at hnote
  by_cases hfound : ∃ b, x = Except.ok (Reply.binding (some b))
  · obtain ⟨b, rfl⟩ := hfound
    obtain ⟨⟨_, htask⟩, _, _, _, hsourced⟩ := hnote
    obtain ⟨o, hemitted, hname, _, htaskId, _, hsound⟩ := hsourced hmqtt
    rcases hanswer with ⟨e, he⟩ | ⟨env, hreply, _⟩
    · cases he
    obtain ⟨o', hres, rfl⟩ := TaskEngine.resolve_of_call hreply.symm
    refine ⟨ProvenanceNote.resolved job o'.binding, hs₁.told ⟨o, ?_, hname, fun heq => ?_⟩, ?_⟩
    · exact (hemitted.mono hlog).mono (List.subset_cons_self _ _)
    · rw [htask, htaskId] at heq
      exact hsound o' hres heq
    · rintro b' heq
      cases heq
      rfl
  · refine ⟨ProvenanceNote.idle, hs₁.told trivial, ?_⟩
    rintro b rfl
    exact absurd ⟨b, rfl⟩ hfound

/-- **The model is told what the resolved binding says.** -/
theorem keeping_runAgent (job : Job) (instruction : PyStr)
    (htold : job.event.source = "mqtt" → ∃ b, n = ProvenanceNote.resolved job b ∧
      NativeTaskWorker.instruction (crew.config i) host job (some b) =
        Except.ok (some instruction)) :
    Keeping host crew (WorkerThread.executing i)
      (NativeTaskWorker.runAgent job.event job.agentId instruction) n fun _ _ => True := by
  intro s notes o x s' hs hl hx
  rw [handle_of (Or.inr rfl)] at hx
  have hnote := hs.notes (WorkerThread.executing i)
  rw [hl] at hnote
  cases o <;> cases hx
  refine ⟨ProvenanceNote.idle, hs.note ?_ (fun _ _ => rfl) trivial, trivial⟩
  intro i' event agentId instruction' outcome earlier hsuffix hmqtt
  rcases List.suffix_cons_iff.1 hsuffix with heq | hsuffix
  · obtain ⟨hasked, rfl⟩ := List.cons.inj heq
    obtain ⟨rfl, rfl, rfl, rfl, _⟩ := Happening.asked.inj hasked
    obtain ⟨b, rfl, hinstruction⟩ := htold hmqtt
    obtain ⟨o, hemitted, hname, hfields⟩ := hnote
    have htask : b.taskId = job.task.taskId := by
      by_contra hne
      rw [NativeTaskWorker.instruction, if_pos hne] at hinstruction
      cases hinstruction
    exact ⟨job.task, b, o, hinstruction, (hfields htask).1, (hfields htask).2, hname, hemitted⟩
  · exact hs.traced i' event agentId instruction' outcome earlier hsuffix hmqtt

theorem keeping_runModel (job : Job) (instruction : PyStr)
    (htold : job.event.source = "mqtt" → ∃ b, n = ProvenanceNote.resolved job b ∧
      NativeTaskWorker.instruction (crew.config i) host job (some b) =
        Except.ok (some instruction)) :
    Keeping host crew (WorkerThread.executing i) (NativeTaskWorker.runModel job instruction) n
      fun _ _ => True := by
  refine Threads.outline_bind (keeping_runAgent job instruction htold) ?_
  intro outcome n _
  cases outcome with
  | raised => exact Threads.outline_pure trivial
  | returned free statusCode text =>
      dsimp only
      split_ifs
      all_goals
        first
        | exact Threads.outline_pure trivial
        | exact Threads.outline_bind (keeping_update (Or.inr rfl) fun _ => rfl)
            fun _ _ _ => Threads.outline_pure trivial

/-- **A run that has begun is given to the model with the binding that is found for it.** -/
theorem keeping_runBegun (job : Job) :
    Keeping host crew (WorkerThread.executing i)
      (NativeTaskWorker.runBegun (crew.config i) host job) (ProvenanceNote.begun job)
      fun _ _ => True := by
  unfold NativeTaskWorker.runBegun
  split_ifs with hmqtt
  · refine Threads.outline_bind (keeping_resolve job hmqtt) ?_
    intro answer n hanswer
    split
    · rename_i binding
      split
      · exact Threads.outline_pure trivial
      · exact Threads.outline_pure trivial
      · rename_i instruction hinstruction
        cases binding with
        | none => cases hinstruction
        | some b => exact keeping_runModel job instruction fun _ => ⟨b, hanswer b rfl, hinstruction⟩
    · exact Threads.outline_pure trivial
  · exact keeping_runModel job job.task.text fun h => absurd h hmqtt

theorem keeping_executeBody (job : Job) :
    Keeping host crew (WorkerThread.executing i)
      (NativeTaskWorker.executeBody (crew.config i) host job) (ProvenanceNote.admitted job)
      fun _ _ => True := by
  have hdone : ∀ (e : NativeTaskWorker.Execution) n, Keeping host crew (WorkerThread.executing i)
      (pure e : WorkerM NativeTaskWorker.Execution) n fun _ _ => True :=
    fun _ _ => Threads.outline_pure trivial
  have hflag : ∀ {e : WorkerEffect} {n}, e = WorkerEffect.canRun ∨ e = WorkerEffect.agentStatus ∨
      (∃ ident, e = WorkerEffect.agentBlocked ident) ∨ e = WorkerEffect.clock →
      Keeping host crew (WorkerThread.executing i) (Program.operation e) n fun _ l => l = n := by
    intro e n he
    refine keeping_asks (Or.inr rfl) fun o s x s' hx => ?_
    rcases he with rfl | rfl | ⟨ident, rfl⟩ | rfl <;> cases o <;> cases hx <;> rfl
  refine Threads.outline_bind (hflag (Or.inl rfl)) ?_
  rintro may _ rfl
  cases may with
  | false => exact hdone _ _
  | true =>
  refine Threads.outline_bind (hflag (Or.inr (Or.inl rfl))) ?_
  rintro agents _ rfl
  refine Threads.outline_bind (hflag (Or.inr (Or.inr (Or.inl ⟨_, rfl⟩)))) ?_
  rintro blocked _ rfl
  split_ifs
  · refine Threads.outline_bind (keeping_begin job) ?_
    intro answer n hanswer
    cases answer with
    | error e =>
        refine Threads.outline_bind (hflag (Or.inr (Or.inr (Or.inr rfl)))) fun now _ _ => ?_
        exact Threads.outline_bind (keeping_update (Or.inr rfl) fun _ => rfl)
          fun _ _ _ => hdone _ _
    | ok allowed =>
        dsimp only
        split_ifs with hallowed
        · obtain rfl := hanswer allowed rfl hallowed
          refine Threads.outline_bind (keeping_valid job) ?_
          intro answer n hanswer
          cases answer with
          | error e => exact hdone _ _
          | ok valid =>
              dsimp only
              split_ifs with hvalid
              · obtain rfl := hanswer valid rfl hvalid
                exact keeping_runBegun job
              · exact hdone _ _
        · exact hdone _ _
  · exact hdone _ _

theorem keeping_execute (job : Job) :
    Keeping host crew (WorkerThread.executing i)
      (NativeTaskWorker.execute (crew.config i) host job) (ProvenanceNote.admitted job)
      fun _ _ => True :=
  Threads.outline_bind (keeping_executeBody job) fun e _ _ =>
    (keeping_update (Or.inr rfl) fun w => by
      unfold NativeTaskWorker.release NativeTaskWorker.unsee
      dsimp only
      split_ifs <;> rfl).mono fun _ _ _ => trivial

/-! ### Whole runs -/

theorem provenance_of_init (hinit : Workers.Initial host s) :
    Provenance host crew s fun _ => ProvenanceNote.idle := by
  obtain ⟨hengine, hworkers, _, hlog⟩ := hinit
  have hreach : (TaskEngine.machine host).Reachable s.engine := Machine.Reach.of_init hengine
  refine ⟨hreach, fun k run hk => ?_, fun i job hjob => ?_, ?_, fun _ => trivial⟩
  · obtain ⟨offset, now, tasks, bindings, uuids, _, heq⟩ := hengine
    rw [heq] at hk
    cases hk
  · rw [hworkers i] at hjob
    cases hjob
  · intro i event agentId instruction outcome earlier hsuffix
    rw [hlog] at hsuffix
    cases List.suffix_nil.1 hsuffix

/-- **What threads take up keeps the invariant.** -/
theorem Provenance.starts (h : Provenance host crew s notes) {o : WorkerChoice} {p : WorkerM Unit}
    (hok : Workers.KeepsNames host s (j, o)) (hstart : crew.starts host j o s = some (p, s')) :
    ∃ n, Provenance host crew s' (Function.update notes j n) ∧
      Keeping host crew j p n fun _ _ => True := by
  have hself : ∀ {s'}, Provenance host crew s' notes →
      Provenance host crew s' (Function.update notes j (notes j)) := by
    intro s' hs'
    rwa [Function.update_eq_self]
  have hlate : ∀ late, Provenance host crew { s with late := late } notes := fun late =>
    ⟨h.engine, h.runs, h.jobs, h.traced,
      fun j => (h.notes j).log rfl (List.Subset.refl _) fun _ _ => rfl⟩
  cases j with
  | outside =>
      cases o with
      | input inp =>
          cases hstart
          obtain ⟨hgenuine, hkeeps⟩ := hok inp rfl
          exact ⟨_, hself (h.serve hgenuine hkeeps), Threads.outline_pure trivial⟩
      | deliver n env =>
          simp only [Workers.starts] at hstart
          split at hstart
          · cases hstart
          · rename_i i c _
            split_ifs at hstart
            · cases hstart
              exact ⟨_, hself ((hlate _).serve (genuine_request c env) (keeps_request c env)),
                Threads.outline_pure trivial⟩
            · cases hstart
              exact ⟨_, hself (hlate _), Threads.outline_pure trivial⟩
      | _ => cases hstart
  | polling i =>
      cases o with
      | poll =>
          cases hstart
          exact ⟨_, hself h, Threads.outline_bind (keeping_pollOnce (crew.config i) _)
            fun _ _ _ => Threads.outline_pure trivial⟩
      | close =>
          cases hstart
          exact ⟨_, hself h, Threads.outline_bind (keeping_plain NativeTaskWorker.plain_close _)
            fun _ _ _ => Threads.outline_pure trivial⟩
      | _ => cases hstart
  | executing i =>
      cases o with
      | execute n =>
          simp only [Workers.starts] at hstart
          split at hstart
          · cases hstart
          · rename_i job hjob
            cases hstart
            refine ⟨ProvenanceNote.admitted job, h.locked (fun job' hjob' => ?_) ?_,
              keeping_execute job⟩
            · exact h.jobs i job' (List.mem_of_mem_eraseIdx hjob')
            · exact h.jobs i job (List.mem_of_getElem? hjob)
      | _ => cases hstart

end WorkerSystem

/-- **In every run in which waiting runs keep their names, the model is told where a value comes
from.** -/
theorem Workers.traced {ι : Type} [DecidableEq ι] {host : Host} (crew : Workers ι)
    {c : Threads.Config (WorkerThread ι) WorkerEffect WorkerEffect.Answer (WorkerSystem ι)}
    (h : (crew.threads host).machine.Reach (fun c i => KeepsNames host c.state i) c) :
    Traced host crew c.state.log := by
  have hinv : ∃ notes, WorkerSystem.Provenance host crew c.state notes ∧
      ∀ i, (crew.threads host).Outline (WorkerSystem.Provenance host crew) i (c.threads i)
        (notes i) fun _ _ => True :=
    Threads.invariant_of_guard (fun s i => KeepsNames host s i) (fun _ _ => True)
      ProvenanceNote.idle (fun _ => trivial) (fun _ => WorkerSystem.provenance_of_init)
      (fun _ _ _ _ _ _ hs _ hok hstart => hs.starts hok hstart) h
  obtain ⟨notes, hs, _⟩ := hinv
  exact hs.traced


namespace Workers

/-- A binding over MQTT. -/
def bindingX (topic : PyStr) : BindingSpec where
  source := "mqtt"
  name := some "x"
  topic := topic
  field := "f"
  valueType := "string"
  values := ["v"]
  command := "c"

/-- The task that is started by a value on the topic `a`. -/
def createX : Input :=
  Input.call Env.quiet
    (Op.admin (AdminOp.createExternalTask { description := "d", text := "t" } (bindingX "a"))) []

/-- The binding that the monitor has found. -/
def objectX : BindingObject := ⟨0, ⟨"x", "mqtt", 1, "d", "a", "f", "string", ["v"], "c"⟩⟩

/-- A value arrives. -/
def consumeX : Input := Input.consumeMqtt Env.quiet objectX "v"

/-- The run is queued. -/
def consumed : List (WorkerThread Unit × WorkerChoice) :=
  [(WorkerThread.outside, WorkerChoice.input createX),
    (WorkerThread.outside, WorkerChoice.input consumeX)]

theorem keeps_consume {s : WorkerSystem Unit} {env : Env} {o : BindingObject} {value : PyStr} :
    Keeps Host.ascii s (Input.consumeMqtt env o value) := by
  refine ⟨?_, nofun, nofun⟩
  intro _ _ _ _ _ _ _ _ h
  cases h

theorem guarded_consumed : (single.threads Host.ascii).machine.Guarded
    (fun c i => KeepsNames Host.ascii c.state i) start consumed := by
  refine ⟨?_, ?_, trivial⟩
  · intro inp h
    obtain rfl := WorkerChoice.input.inj h
    refine ⟨by simp only [createX, Input.Genuine], ?_, nofun, nofun⟩
    intro _ _ _ _ _ _ _ _ _ _ _ _ hemitted
    obtain ⟨_, hmem⟩ := hemitted
    cases hmem
  · intro inp h
    obtain rfl := WorkerChoice.input.inj h
    refine ⟨fun o' hres' _ => ?_, keeps_consume⟩
    have hres : EventStore.resolve Host.ascii objectX.binding.source objectX.binding.name
        ((single.threads Host.ascii).machine.step start
          (WorkerThread.outside, WorkerChoice.input createX)).state.engine.registry.bindings =
        some objectX := by decide +kernel
    exact Option.some.inj (hres'.symm.trans hres)

/-- The worker has executed the run after some inputs. -/
def executed (l : List (WorkerThread Unit × WorkerChoice)) :
    Threads.Config (WorkerThread Unit) WorkerEffect WorkerEffect.Answer (WorkerSystem Unit) :=
  pollAndExecute.foldl ((single.threads Host.ascii).turn 100)
    ((single.threads Host.ascii).machine.exec start l)

theorem reach_executed {l : List (WorkerThread Unit × WorkerChoice)}
    (h : (single.threads Host.ascii).machine.Guarded
      (fun c i => KeepsNames Host.ascii c.state i) start l) :
    (single.threads Host.ascii).machine.Reach (fun c i => KeepsNames Host.ascii c.state i)
      (executed l) := by
  have hstart : (single.threads Host.ascii).machine.Reach
      (fun c i => KeepsNames Host.ascii c.state i) start :=
    Machine.Reach.of_init (start_init Host.ascii)
  refine Threads.reach_turns (hstart.leads (Machine.leads_of_guarded h)) 100 pollAndExecute ?_
  intro r hr c
  have hfirst : ∀ inp, r.2.1 ≠ WorkerChoice.input inp := by
    rcases List.mem_pair.1 hr with rfl | rfl <;> exact nofun
  have hrest : r.2.2 = WorkerChoice.smooth := by
    rcases List.mem_pair.1 hr with rfl | rfl <;> rfl
  refine ⟨fun inp h => absurd h (hfirst inp), fun e inp h => ?_⟩
  rw [hrest] at h
  exact absurd h (smooth_ne_input e inp)

/-- Whether the model has been called for an MQTT event. -/
def Told (log : List (Happening Unit)) : Bool :=
  log.any fun
    | Happening.asked _ event _ _ _ => decide (event.source = PyStr.ofString "mqtt")
    | _ => false

/-- A value arrives, and the worker executes the run: the model is called, and it is told the topic
on which the value arrived. -/
theorem traced_consumed : Told (executed consumed).state.log = true ∧
    Traced Host.ascii single (executed consumed).state.log :=
  ⟨by decide +kernel, traced single (reach_executed guarded_consumed)⟩

/-- The name is bound to the topic `b` while the run waits. -/
def rebound : List (WorkerThread Unit × WorkerChoice) :=
  consumed ++ [(WorkerThread.outside, WorkerChoice.input
    (Input.call Env.quiet (Op.admin (AdminOp.register 1 "d" (bindingX "b"))) []))]

/-- What the model is told of the value. -/
def snapshotX (topic : PyStr) : PyStr :=
  Json.dumps Host.ascii.strFloat (Json.obj
    [(PyStr.ofString "topic", Json.str topic), (PyStr.ofString "field", Json.str "f"),
      (PyStr.ofString "value", Json.str "v"), (PyStr.ofString "event_name", Json.str "x"),
      (PyStr.ofString "note", Json.str
        "Значение в момент события; не заменяй его повторным чтением датчика.")])

theorem instruction_snapshotX {config : WorkerConfig} {event : SystemEvent} {task : TaskRecord}
    {agentId instruction : PyStr} {b : EventBinding}
    (h : NativeTaskWorker.instruction config Host.ascii ⟨event, task, agentId⟩ (some b) =
      Except.ok (some instruction)) (hvalue : event.task = "v") (hname : event.name = "x")
    (hfield : b.field = "f") :
    instruction = task.text ++ PyStr.ofString "\n\n[SYSTEM_MQTT_EVENT]\n" ++ snapshotX b.topic ++
      PyStr.ofString "\n[/SYSTEM_MQTT_EVENT]" := by
  simp only [NativeTaskWorker.instruction, hvalue, hname, hfield, decide_eq_true_eq] at h
  have hneither : PyStr.ofString "v" ≠ PyStr.ofString "true" ∧
      PyStr.ofString "v" ≠ PyStr.ofString "false" := by decide
  by_cases htype : b.valueType = PyStr.ofString "boolean"
  · simp only [htype, hneither, ne_eq, not_false_eq_true, and_self, if_true] at h
    split_ifs at h
  · simp only [htype, false_and, if_false] at h
    split_ifs at h
    · cases h
    · rw [Except.ok.injEq, Option.some.injEq] at h
      exact h.symm

theorem asked_rebound : (executed rebound).state.log.head?.any (fun
    | Happening.asked _ event _ instruction _ => decide (event.source = PyStr.ofString "mqtt" ∧
        event.task = PyStr.ofString "v" ∧ event.name = PyStr.ofString "x" ∧
        instruction = PyStr.ofString "t" ++ PyStr.ofString "\n\n[SYSTEM_MQTT_EVENT]\n" ++
          snapshotX "b" ++ PyStr.ofString "\n[/SYSTEM_MQTT_EVENT]")
    | _ => false) = true := by decide +kernel

theorem emitted_rebound : (executed rebound).state.log.all (fun
    | Happening.served (Input.consumeMqtt _ o _) _ => decide (o = objectX)
    | _ => true) = true := by decide +kernel

/-- **A value that arrived on the topic `a` is presented as a value of the topic `b`**, because the
name was bound anew while the run waited. -/
theorem not_traced : ¬ ∀ c, (single.threads Host.ascii).machine.Reachable c →
    Traced Host.ascii single c.state.log := by
  intro h
  have hreach : (single.threads Host.ascii).machine.Reachable (executed rebound) :=
    Threads.reachable_turns
      (Machine.Reachable.exec (Machine.Reach.of_init (start_init Host.ascii)) rebound) 100 _
  have htraced := h _ hreach
  obtain ⟨x, hx, hasked⟩ := (Option.any_eq_true _ _).1 asked_rebound
  obtain ⟨earlier, hlog⟩ := List.head?_eq_some_iff.1 hx
  cases x with
  | asked i event agentId instruction outcome =>
      obtain ⟨hmqtt, hvalue, hname, htext⟩ := of_decide_eq_true hasked
      rw [hlog] at htraced
      obtain ⟨task, b, o, hinstruction, htopic, hfield, -, env, hmem⟩ :=
        htraced i event agentId instruction outcome earlier (List.suffix_refl _) hmqtt
      -- The value was emitted for the first binding.
      have ho : o = objectX := by
        have hserved : Happening.served (Input.consumeMqtt env o event.task)
            (Except.ok (Reply.runId (some event.runId))) ∈ (executed rebound).state.log := by
          rw [hlog]
          exact List.mem_cons_of_mem _ hmem
        exact of_decide_eq_true (List.all_eq_true.1 emitted_rebound _ hserved)
      subst ho
      -- The text that the worker would make of its topic and field is another one.
      have hsame := instruction_snapshotX hinstruction hvalue hname hfield
      rw [htext, htopic] at hsame
      have hlength : (snapshotX "b").length = (snapshotX objectX.binding.topic).length := by
        decide +kernel
      have hsnapshot := List.append_inj_right' (List.append_cancel_right hsame) hlength
      exact absurd hsnapshot (by decide +kernel)
  | _ => cases hasked

end Workers
