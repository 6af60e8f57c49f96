/-
**Fencing by generations.**

A run belongs to one generation of its task.  Stopping the task, giving it a period or an executor
hands out a fresh generation, and deleting it leaves none; whatever the task becomes later, its
generation is never the old one again.  Pausing keeps the generation, so it has to withdraw the
runs that have not begun by itself.  A run of a lost generation never begins; if it is running, it
is not valid any more and commits nothing.

Main definitions:

* `Op.Revokes` — the requests that take its generation from a task, and the pause;
* `Tables.Fenced` — the runs under a given identifier belong to a generation that is lost.

Main results:

* `Tables.step_running` — only a run of a current generation begins;
* `Tables.step_fenced` — **a generation that is lost stays lost**;
* `TaskEngine.fencing` — **revoked runs do not begin, and what is running when its generation is
  lost is neither valid nor published**.
-/

import CatAgent.Order
import CatAgent.Inbox

set_option relaxedAutoImplicit false
set_option autoImplicit false

/-- The requests that stop, delete or change a task under a fresh generation. -/
def AdminOp.Revokes (taskId : ℤ) : AdminOp → Prop
  | delete k | stopTask k false | setTaskPeriod k _ | setExecutor k _ => k = taskId
  | _ => False

/-- These requests, and the one that pauses a task. -/
def Op.Revokes (taskId : ℤ) : Op → Prop
  | Op.admin op => op.Revokes taskId
  | Op.pauseTask k => k = taskId
  | _ => False

namespace TaskStore

/-- A task that was replaced is the one that was returned. -/
theorem get?_of_replace {tasks tasks' : TaskTable} {taskId : ℤ} {f : TaskRecord → TaskRecord}
    {record task : TaskRecord} (h : replace tasks taskId f = Except.ok (record, tasks'))
    (hf : ∀ task, (f task).taskId = task.taskId)
    (hk : tasks'.get? taskId = some task) : ∃ current, task = f current := by
  obtain ⟨current, hcurrent, rfl, rfl⟩ := replace_spec h
  have hid : (f current).taskId = taskId :=
    (hf current).trans (Table.key_of_get? (t := tasks) hcurrent)
  rw [Table.get?_put, if_pos hid] at hk
  exact ⟨current, (Option.some.inj hk).symm⟩

end TaskStore

namespace Registry

variable {host : Host} {r r' : Registry} {taskId : ℤ} {task record : TaskRecord}

/-- What `TaskStore.set_enabled` leaves under the number of the task. -/
theorem get?_setEnabled {enabled preserve : Bool}
    (h : r.setEnabled host taskId enabled preserve = Except.ok (record, r'))
    (hk : r'.tasks.get? taskId = some task) : task.enabled = enabled ∧
      (preserve = false → task.generation = host.uuid4 r.uuids) := by
  obtain ⟨⟨task', tasks⟩, hc, h⟩ := bind_eq_ok_iff.1 h
  cases h
  unfold TaskStore.setEnabled at hc
  obtain ⟨current, rfl⟩ := TaskStore.get?_of_replace hc (fun _ => rfl) hk
  exact ⟨rfl, fun hpre => by simp [hpre]⟩

/-- `stop_task` changes no other task afterwards. -/
theorem get?_stopTask {preserve : Bool}
    (h : r.stopTask host taskId preserve = Except.ok (record, r'))
    (hk : r'.tasks.get? taskId = some task) : task.enabled = false ∧
      (preserve = false → task.generation = host.uuid4 r.uuids) := by
  obtain ⟨⟨task', r₁⟩, hc, h⟩ := bind_eq_ok_iff.1 h
  refine get?_setEnabled hc ?_
  simp only at h
  split at h
  · cases h
    exact hk
  · cases h
    exact hk

theorem generation_setTaskPeriod {now : ℚ} {period : PyNumber}
    (h : r.setTaskPeriod host now taskId period = Except.ok (record, r'))
    (hk : r'.tasks.get? taskId = some task) : task.generation = host.uuid4 r.uuids := by
  obtain ⟨current, p, hid, _, hrecord, rfl⟩ := setTaskPeriod_spec h
  rw [tasks_scheduleTimer, ← hid, Table.get?_put_self] at hk
  cases hk
  rw [hrecord]

theorem generation_setExecutor {executor : PyStr}
    (h : r.setExecutor host taskId executor = Except.ok (record, r'))
    (hk : r'.tasks.get? taskId = some task) : task.generation = host.uuid4 r.uuids := by
  obtain ⟨⟨task', tasks⟩, hc, h⟩ := bind_eq_ok_iff.1 h
  cases h
  obtain ⟨p, _, hc⟩ := bind_eq_ok_iff.1 hc
  obtain ⟨current, rfl⟩ := TaskStore.get?_of_replace hc (fun _ => rfl) hk
  rfl

theorem get?_delete (taskId : ℤ) (r : Registry) :
    (r.delete taskId).2.tasks.get? taskId = none := by
  change (TaskStore.delete taskId r.tasks).2.get? taskId = none
  unfold TaskStore.delete
  split
  · assumption
  · exact Table.get?_erase_self _ _

/-- **A request that revokes leaves a fresh generation, or no task.** -/
theorem generation_of_revokes {now : ℚ} {op : AdminOp} {reply : Reply} (hop : op.Revokes taskId)
    (h : op.apply host now r = Except.ok (reply, r'))
    (hk : r'.tasks.get? taskId = some task) : task.generation = host.uuid4 r.uuids := by
  cases op with
  | delete k =>
      obtain rfl : k = taskId := hop
      cases h
      rw [get?_delete] at hk
      cases hk
  | stopTask k preserve =>
      cases preserve with
      | true => exact hop.elim
      | false =>
          obtain rfl : k = taskId := hop
          obtain ⟨record, h, _⟩ := Reply.ofTask_eq_ok h
          exact (get?_stopTask h hk).2 rfl
  | setTaskPeriod k period =>
      obtain rfl : k = taskId := hop
      obtain ⟨record, h, _⟩ := Reply.ofTask_eq_ok h
      exact generation_setTaskPeriod h hk
  | setExecutor k executor =>
      obtain rfl : k = taskId := hop
      obtain ⟨record, h, _⟩ := Reply.ofTask_eq_ok h
      exact generation_setExecutor h hk
  | _ => exact hop.elim

end Registry

/-! ### Lost generations -/

namespace Tables

variable {host : Host} {P : Permits} {t t' : Tables} {k generation : PyStr} {taskId : ℤ}

/-- The generation of the runs under the identifier `k` is lost: it is not the generation of their
task, and it will not be handed out again. -/
structure Fenced (host : Host) (taskId : ℤ) (generation k : PyStr) (t : Tables) : Prop where
  old : ∀ n, t.registry.uuids ≤ n → generation ≠ host.uuid4 n
  task : ∀ task, t.registry.tasks.get? taskId = some task → task.generation ≠ generation
  allocated : ∃ n < t.registry.uuids, k = host.uuid4 n
  run : ∀ run, t.runs.get? k = some run → run.event.taskId = some taskId ∧
    run.event.taskGeneration = generation

/-- A run of a lost generation is not current. -/
theorem Fenced.not_current (h : Fenced host taskId generation k t) {run : Run}
    (hk : t.runs.get? k = some run) : run.current t.registry.tasks = false := by
  refine Bool.eq_false_iff.2 fun hcurrent => ?_
  obtain ⟨hid, hgen⟩ := h.run run hk
  obtain ⟨taskId', task, hid', htask, _, hgen'⟩ := Run.current_iff.1 hcurrent
  obtain rfl : taskId = taskId' := Option.some.inj (hid.symm.trans hid')
  exact h.task task htask (hgen'.trans hgen)

/-- Under an identifier that is handed out, only old runs are found later. -/
theorem Later.old (h : Later host t t') (hk : ∃ n < t.registry.uuids, k = host.uuid4 n) {run' : Run}
    (hrun' : t'.runs.get? k = some run') : ∃ run, t.runs.get? k = some run ∧ run.Later run' := by
  rcases h.runs k run' hrun' with hold | ⟨m, hm, _, heq⟩
  · exact hold
  · obtain ⟨n, hn, hid⟩ := hk
    have := host.uuid4_injective (hid.symm.trans heq)
    omega

/-- What follows the rules of the registry and the life cycles stays fenced. -/
theorem Fenced.later (h : Fenced host taskId generation k t) (hl : Later host t t')
    (hf : Registry.TasksFollow host t.registry.uuids t'.registry.uuids t.registry.tasks
      t'.registry.tasks) : Fenced host taskId generation k t' where
  old := fun n hn => h.old n (hl.uuids_le.trans hn)
  task := by
    intro task' htask'
    rcases hf taskId task' htask' with ⟨task, htask, hg, _⟩ | ⟨n, hn, _, hg⟩
    · rw [← hg]
      exact h.task task htask
    · rw [hg]
      exact (h.old n hn).symm
  allocated := by
    obtain ⟨n, hn, hid⟩ := h.allocated
    exact ⟨n, hn.trans_le hl.uuids_le, hid⟩
  run := by
    intro run' hrun'
    obtain ⟨run, hrun, hlater⟩ := hl.old h.allocated hrun'
    rw [hlater.taskId, hlater.taskGeneration]
    exact h.run run hrun

/-- **A generation that is lost stays lost.** -/
theorem step_fenced (hs : Step host P t t') (h : Fenced host taskId generation k t) :
    Fenced host taskId generation k t' := h.later (step_later hs) (step_follows hs).tasks

theorem rebuilt_fenced (hr : Rebuilt t t') (h : Fenced host taskId generation k t) :
    Fenced host taskId generation k t' := h.later hr.later hr.tasksFollow

/-- **Only a run of a current generation begins.** -/
theorem step_running (h : Step host P t t') {run' : Run} (hk : t'.runs.get? k = some run')
    (hstate : run'.state = RunState.running) : ∃ run, t.runs.get? k = some run ∧
      (run.state = RunState.running ∨ run.current t.registry.tasks = true) := by
  have hsame : t.runs.get? k = some run' → ∃ run, t.runs.get? k = some run ∧
      (run.state = RunState.running ∨ run.current t.registry.tasks = true) :=
    fun hget => ⟨run', hget, Or.inl hstate⟩
  cases h with
  | reconcile env =>
      obtain ⟨run, hrun, rfl⟩ := get?_reconcile hk
      have heq := Run.reconciled_of_active (by rw [hstate]; rfl)
      rw [heq] at hstate
      exact ⟨run, hrun, Or.inl hstate⟩
  | registry | lease | commit | ack => exact hsame hk
  | queue _ event task htask henabled hid hgen htimer hfull =>
      rw [Table.get?_put] at hk
      split_ifs at hk with heq
      · cases hk
        cases hstate
      · exact hsame hk
  | offer env _ e owner peer skipRunIds run hrun howner hpeer hP =>
      rcases get?_updateRun hk with ⟨rfl, run₀, _, rfl⟩ | hk
      · cases hstate
      · exact hsame hk
  | begin _ owner peer runId offerId run hrun hsay =>
      rcases get?_updateRun hk with ⟨rfl, run₀, hrun₀, rfl⟩ | hk
      · exact ⟨run, (granted_eq_some hrun).1, Or.inr (Bool.and_eq_true_iff.1 hsay).2⟩
      · exact hsame hk
  | withdraw _ owner peer runId offerId run hrun hoffered =>
      rcases get?_updateRun hk with ⟨rfl, run₀, _, rfl⟩ | hk
      · cases hstate
      · exact hsame hk
  | finish _ owner peer runId offerId run outcome code hrun hend hoffered hP =>
      rcases get?_updateRun hk with ⟨rfl, run₀, _, rfl⟩ | hk
      · have hterm := RunState.terminal_ofOutcome outcome
        rw [show RunState.ofOutcome outcome = RunState.running from hstate] at hterm
        cases hterm
      · exact hsame hk

/-- Under a lost generation, a run that does not run will not run. -/
theorem step_idle (hs : Step host P t t') (h : Fenced host taskId generation k t)
    (hidle : ∀ run, t.runs.get? k = some run → run.state ≠ RunState.running) (run' : Run)
    (hk : t'.runs.get? k = some run') : run'.state ≠ RunState.running := by
  intro hstate
  obtain ⟨run, hrun, hrunning | hcurrent⟩ := step_running hs hk hstate
  · exact hidle run hrun hrunning
  · rw [h.not_current hrun] at hcurrent
    cases hcurrent

/-- A pause withdraws the runs of the task that have not begun. -/
theorem ended_of_pause {env : Env} {peer : PyStr} {reply : Reply}
    (h : t.dispatch host env peer (Op.pauseTask taskId) = Except.ok (reply, t')) {run run' : Run}
    (hk : t.runs.get? k = some run) (hid : run.event.taskId = some taskId)
    (hstate : run.state = RunState.pending ∨ run.state = RunState.offered)
    (hk' : t'.runs.get? k = some run') : run'.state.terminal = true := by
  obtain ⟨⟨task, r⟩, hstop, h⟩ := bind_eq_ok_iff.1 h
  cases h
  obtain ⟨run₀, hrun₀, rfl⟩ := get?_reconcile hk'
  change t.runs.get? k = some run₀ at hrun₀
  rw [hk] at hrun₀
  cases hrun₀
  have hnot : run.current r.tasks = false := by
    refine Bool.eq_false_iff.2 fun hcurrent => ?_
    obtain ⟨taskId', task', hid', htask', henabled, _⟩ := Run.current_iff.1 hcurrent
    obtain rfl : taskId = taskId' := Option.some.inj (hid.symm.trans hid')
    rw [(Registry.get?_stopTask hstop htask').1] at henabled
    cases henabled
  unfold Run.reconciled
  rw [if_pos ⟨hstate, by simp [hnot]⟩]
  rfl

end Tables

namespace TaskEngine

open Tables (Fenced Later Permits)

variable {host : Host} {s s' : TaskEngine} {k generation : PyStr} {taskId : ℤ}

/-- A lost generation stays lost along every run. -/
theorem leads_fenced (hs : (machine host).Reachable s)
    (hl : (machine host).Leads (fun _ _ => True) s s')
    (h : Fenced host taskId generation k s.toTables) :
    Fenced host taskId generation k s'.toTables :=
  tables_leads hs (hl.mono fun s i _ => s.allowed_all i) h
    (fun _ _ hI hstep => Tables.step_fenced hstep hI)
    fun _ _ hI hrebuilt => Tables.rebuilt_fenced hrebuilt hI

/-- A run of a lost generation never begins. -/
theorem leads_idle (hs : (machine host).Reachable s)
    (hl : (machine host).Leads (fun _ _ => True) s s')
    (h : Fenced host taskId generation k s.toTables)
    (hidle : ∀ run, s.runs.get? k = some run → run.state ≠ RunState.running) (run' : Run)
    (hk : s'.runs.get? k = some run') : run'.state ≠ RunState.running := by
  have hboth : Fenced host taskId generation k s'.toTables ∧
      ∀ run, s'.runs.get? k = some run → run.state ≠ RunState.running := by
    refine tables_leads (P := Permits.all) hs (hl.mono fun s i _ => s.allowed_all i)
      (I := fun t => Fenced host taskId generation k t ∧
        ∀ run, t.runs.get? k = some run → run.state ≠ RunState.running) ⟨h, hidle⟩ ?_ ?_
    · rintro t t' ⟨hf, hi⟩ hstep
      exact ⟨Tables.step_fenced hstep hf, Tables.step_idle hstep hf hi⟩
    · rintro t t' ⟨hf, hi⟩ hrebuilt
      refine ⟨Tables.rebuilt_fenced hrebuilt hf, ?_⟩
      rw [← hrebuilt.runs]
      exact hi
  exact hboth.2 run' hk

/-- A run that has ended under an identifier that was handed out is not running later. -/
theorem leads_ended (hs : (machine host).Reachable s)
    (hl : (machine host).Leads (fun _ _ => True) s s')
    (halloc : ∃ n < s.registry.uuids, k = host.uuid4 n)
    (hend : ∀ run, s.runs.get? k = some run → run.state.terminal = true) (run' : Run)
    (hk : s'.runs.get? k = some run') : run'.state ≠ RunState.running := by
  obtain ⟨run, hrun, hlater⟩ := (leads_later hs hl).old halloc hk
  have hterm := hend run hrun
  rw [hlater.ended hterm]
  intro hstate
  rw [hstate] at hterm
  cases hterm

/-- A run whose generation is lost is not valid. -/
theorem valid_fenced (h : Fenced host taskId generation k s.toTables) {env : Env}
    {owner peer offerId : PyStr} {reply : Reply}
    (hok : (s.call host env (Op.worker owner (WorkerOp.valid k offerId)) peer).1 =
      Except.ok reply) : reply = Reply.bool false := by
  obtain ⟨t, hb, _⟩ := transact_returned hok
  obtain ⟨_, _, hb⟩ := bind_eq_ok_iff.1 hb
  cases hb
  refine congrArg Reply.bool ?_
  unfold Tables.valid
  split
  · rfl
  · rename_i run hrun
    have hf := Tables.step_fenced (Tables.Step.reconcile (P := Permits.all) env s.toTables) h
    have hnot := hf.not_current (Tables.granted_eq_some hrun).1
    rw [Tables.maySay, hnot, Bool.and_false]

/-- No result of a run whose generation is lost is committed. -/
theorem commits_fenced (hs : (machine host).Reachable s)
    (h : Fenced host taskId generation k s.toTables) (hnone : s.queryResults.get? k = none)
    (i : Input) : (s.respond host i).2.queryResults.get? k = none := by
  have hboth : Fenced host taskId generation k (s.respond host i).2.toTables ∧
      (s.respond host i).2.queryResults.get? k = none := by
    refine respond_tables (P := Permits.all) (rowHolds_of_reachable hs) (s.allowed_all i)
      (I := fun t => Fenced host taskId generation k t ∧ t.queryResults.get? k = none)
      ⟨h, hnone⟩ ?_ ?_
    · rintro t t' ⟨hf, hget⟩ hstep
      refine ⟨Tables.step_fenced hstep hf, Option.eq_none_iff_forall_ne_some.2 ?_⟩
      intro record hrecord
      obtain ⟨_, _, _, _, run, hrun, _, hcurrent, _⟩ :=
        Tables.step_new_record hstep hget hrecord
      rw [hf.not_current hrun] at hcurrent
      cases hcurrent
    · rintro t t' ⟨hf, hget⟩ hrebuilt
      refine ⟨Tables.rebuilt_fenced hrebuilt hf, ?_⟩
      rw [← hrebuilt.queryResults]
      exact hget
  exact hboth.2

/-- A worker that asks whether its run is valid gets an answer. -/
theorem valid_returns (host : Host) {env : Env} {owner peer : PyStr} (runId offerId : PyStr)
    (howner : owner ≠ []) (hpeer : peer ≠ []) (hsave : env.writable = true) (s : TaskEngine) :
    ∃ reply, (s.call host env (Op.worker owner (WorkerOp.valid runId offerId)) peer).1 =
      Except.ok reply := by
  have hid : raiseIf (peer = [] ∨ owner = [])
      (PyError.taskStoreError "worker identity required") = Except.ok () :=
    raiseIf_eq_ok_iff.2 fun h => h.elim hpeer howner
  have hb : s.toTables.dispatch host env peer (Op.worker owner (WorkerOp.valid runId offerId)) =
      Except.ok (Reply.bool ((s.toTables.reconcile env).valid owner peer runId offerId),
        s.toTables.reconcile env) := bind_eq_ok_iff.2 ⟨(), hid, rfl⟩
  exact ⟨_, (transact_of_ok _ hb hsave).1⟩

/-- A request that revokes a task takes the generation of its runs away. -/
theorem fenced_of_revokes (hs : (machine host).Reachable s) {env : Env} {peer : PyStr}
    {op : AdminOp} {reply : Reply} (hop : op.Revokes taskId)
    (hok : (s.call host env (Op.admin op) peer).1 = Except.ok reply) {run : Run}
    (hk : s.runs.get? k = some run) (hid : run.event.taskId = some taskId) :
    Fenced host taskId run.event.taskGeneration k (s.call host env (Op.admin op) peer).2.toTables ∧
      (s.call host env (Op.admin op) peer).2.runs = s.runs := by
  obtain ⟨t, hb, ht⟩ := transact_returned hok
  obtain ⟨⟨reply', r⟩, ha, hb⟩ := bind_eq_ok_iff.1 hb
  cases hb
  rw [call, ht]
  have hold := (policed_of_reachable hs).run_old k run hk
  have hle := (AdminOp.follows ha).uuids_le
  obtain ⟨n, hn, hkn⟩ := allocated_of_reachable hs k run hk
  refine ⟨⟨fun m hm => hold m (hle.trans hm), ?_, ⟨n, hn.trans_le hle, hkn⟩, ?_⟩, rfl⟩
  · intro task htask
    rw [Registry.generation_of_revokes hop ha htask]
    exact (hold _ (Nat.le_refl _)).symm
  · intro run' hrun'
    change s.runs.get? k = some run' at hrun'
    rw [hk] at hrun'
    cases hrun'
    exact ⟨hid, rfl⟩

/-- **Fencing by generations.**  When a task is stopped, paused, deleted, given a period or given
an executor:

* a run of the task that is pending or offered is not running in any later state;
* unless the task is only paused, a run of the task that is running is not valid in any later
  state, and no input commits a result for it. -/
theorem fencing (hs : (machine host).Reachable s) {env : Env} {op : Op} {peer : PyStr}
    {reply : Reply} (hop : op.Revokes taskId) (hok : (s.call host env op peer).1 = Except.ok reply)
    {run : Run} (hk : s.runs.get? k = some run) (hid : run.event.taskId = some taskId)
    (hl : (machine host).Leads (fun _ _ => True) (s.call host env op peer).2 s') :
    (run.state = RunState.pending ∨ run.state = RunState.offered →
      ∀ run', s'.runs.get? k = some run' → run'.state ≠ RunState.running) ∧
    (run.state = RunState.running → op ≠ Op.pauseTask taskId →
      (∀ env' owner peer' offerId reply',
        (s'.call host env' (Op.worker owner (WorkerOp.valid k offerId)) peer').1 =
          Except.ok reply' → reply' = Reply.bool false) ∧
      (∀ env' owner peer' offerId, owner ≠ [] → peer' ≠ [] → env'.writable = true →
        (s'.call host env' (Op.worker owner (WorkerOp.valid k offerId)) peer').1 =
          Except.ok (Reply.bool false)) ∧
      ∀ i, s'.queryResults.get? k = none → (s'.respond host i).2.queryResults.get? k = none) := by
  have hs₁ : (machine host).Reachable (s.call host env op peer).2 :=
    hs.step (Input.call env op peer)
  cases op with
  | pauseTask k' =>
      obtain rfl : k' = taskId := hop
      refine ⟨fun hstate => ?_, fun _ hne => absurd rfl hne⟩
      obtain ⟨t, hb, ht⟩ := transact_returned hok
      obtain ⟨n, hn, hkn⟩ := allocated_of_reachable hs k run hk
      have hlater : Later host s.toTables (s.call host env (Op.pauseTask k') peer).2.toTables :=
        respond_later (rowHolds_of_reachable hs) (Input.call env (Op.pauseTask k') peer)
      have hle := hlater.uuids_le
      refine leads_ended hs₁ hl ⟨n, hn.trans_le hle, hkn⟩ fun run' hrun' => ?_
      rw [call, ht] at hrun'
      exact Tables.ended_of_pause hb hk hid hstate hrun'
  | admin op =>
      obtain ⟨hf, hruns⟩ := fenced_of_revokes hs hop hok hk hid
      refine ⟨fun hstate => ?_, fun _ _ => ?_⟩
      · -- The run has not begun, and it will not.
        refine leads_idle hs₁ hl hf fun run₀ hrun₀ => ?_
        rw [hruns, hk] at hrun₀
        cases hrun₀
        rcases hstate with hstate | hstate
        · rw [hstate]
          simp
        · rw [hstate]
          simp
      · have hf' := leads_fenced hs₁ hl hf
        refine ⟨fun env' owner peer' offerId reply' => valid_fenced hf', ?_, fun i hnone =>
          commits_fenced (Machine.Reach.leads hs₁ hl) hf' hnone i⟩
        intro env' owner peer' offerId howner hpeer hsave
        obtain ⟨reply', hreply⟩ := valid_returns host k offerId howner hpeer hsave s'
        rw [hreply, valid_fenced hf' hreply]
  | _ => exact hop.elim

/-- The request that stops the task of `oneRun`. -/
def stopOne : Op := Op.admin (AdminOp.stopTask 1 false)

/-- A worker has begun a run, and its task is stopped: the run is not valid any more. -/
theorem fencing_stopped :
    (((after Host.ascii oneRun).call Host.ascii Env.quiet stopOne []).2.call Host.ascii Env.quiet
      (Op.worker "w" (WorkerOp.valid (Host.ascii.uuid4 1) (Host.ascii.uuid4 2))) "p").1 =
        Except.ok (Reply.bool false) := by
  have hrun : ((after Host.ascii oneRun).runs.get? (Host.ascii.uuid4 1)).any
      (fun run => decide (run.event.taskId = some 1 ∧ run.state = RunState.running)) = true := by
    decide +kernel
  have hok : ((after Host.ascii oneRun).call Host.ascii Env.quiet stopOne []).1.toOption.isSome =
      true := by decide +kernel
  obtain ⟨run, hk, hstate⟩ := (Option.any_eq_true _ _).1 hrun
  simp only [decide_eq_true_eq] at hstate
  cases hreply : ((after Host.ascii oneRun).call Host.ascii Env.quiet stopOne []).1 with
  | error e =>
      rw [hreply] at hok
      cases hok
  | ok reply =>
      have hop : stopOne.Revokes 1 := rfl
      exact ((fencing (reachable_after Host.ascii oneRun) hop hreply hk hstate.1
        Machine.Leads.refl).2 hstate.2 nofun).2.1 Env.quiet "w" "p" _ (by decide) (by decide) rfl

end TaskEngine
