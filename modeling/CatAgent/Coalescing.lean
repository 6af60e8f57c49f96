/-
**The queue of runs.**

A tick must not pile up runs of a task that is still waiting or running, while every event from
outside has to be worked off with its own value.  The engine decides this when it queues: it looks
at the runs that have not ended, whose states change under later requests, ticks and restarts.

Here the run table is read as a journal that coalesces.  Every input of the engine is a sequence of
steps of that journal, so what the journal guarantees holds of the engine.

Main definitions:

* `RunTable.journal` — the run table as a journal;
* `Input.Carries` — the event that an input brings;
* `TaskEngine.Accepts` — an input that has been answered with the identifier of a run;
* `Input.Queues` — the event that an input queues, and the tables that it is queued in;
* `Tables.Removes`, `Input.Reconciles` — the removal of a run, and the tables it may happen in.

Main results:

* `Tables.step_journal`, `TaskEngine.respond_journal` — **the engine refines the journal**;
* `TaskEngine.accepted_run` — an accepted event has its own run, with its own value;
* `TaskEngine.queues_of_new_run` — where a new run is queued;
* `TaskEngine.kept_or_removed` — a run is removed only when it has ended;
* `TaskEngine.runs_coalesce` — the guarantees together.
-/

import CatAgent.Arrivals
import CatAgent.Journal
import CatAgent.Reconciling

set_option relaxedAutoImplicit false
set_option autoImplicit false

/-- The run table as a journal: the groups are the tasks with their generations. -/
abbrev RunTable.journal : Journal Run PyStr (Option ℤ × PyStr) where
  key := fun run => run.event.runId
  group := fun run => (run.event.taskId, run.event.taskGeneration)
  isOpen := fun run => ! run.state.terminal
  periodic := fun run => decide (run.event.source = PyStr.ofString "timer")
  bound := RunTable.maxPending

/-- A run that follows its life cycle stays what it is. -/
theorem Run.Later.journal {run run' : Run} (h : run.Later run') :
    RunTable.journal.Later run run' where
  key := by
    change run'.event.runId = run.event.runId
    rw [h.event]
  group := Prod.ext h.taskId h.taskGeneration
  periodic := by
    have hsource : run'.event.source = run.event.source := by rw [h.event]
    simp only [hsource]
  closed := by
    intro hclosed
    have hterm : run.state.terminal = true := by simpa using hclosed
    rw [h.ended hterm]
    exact hclosed

namespace Tables

open Relation (ReflTransGen)
open RunTable (journal)

variable {host : Host} {P : Permits} {t t' : Tables}

/-- A change of one run that follows its life cycle. -/
theorem journal_updateRun {runId : PyStr} {f : Run → Run}
    {hf : ∀ run, (f run).event.runId = run.event.runId} {run₀ : Run}
    (hget : t.runs.get? runId = some run₀) (hl : run₀.Later (f run₀)) :
    Journal.Step journal t.runs (t.updateRun runId f hf).runs := by
  refine Journal.Step.change ?_
  have hvalues : (t.updateRun runId f hf).runs.values =
      t.runs.values.map fun run => if run.event.runId = runId then f run else run :=
    Table.values_modify _ _ _ hf
  rw [hvalues, List.forall₂_map_right_iff, List.forall₂_same]
  intro run hrun
  split_ifs with hid
  · have hsame : t.runs.get? run.event.runId = some run := Table.mem_values_iff.1 hrun
    rw [hid, hget] at hsame
    cases hsame
    exact hl.journal
  · exact Journal.Later.refl run

/-- Reconciling changes the runs in their places, and then drops some that have ended. -/
theorem journal_reconcile (env : Env) (t : Tables) :
    ReflTransGen (Journal.Step journal) t.runs (t.reconcile env).runs := by
  have hchange : Journal.Step journal t.runs (t.runs.map
      (fun run => run.reconciled env t.registry.tasks t.workers)
      fun run => run.reconciled_runId env t.registry.tasks t.workers) := by
    refine Journal.Step.change ?_
    rw [Table.values_map, List.forall₂_map_right_iff, List.forall₂_same]
    exact fun run _ => (Run.later_reconciled env _ _ run).journal
  refine (ReflTransGen.single hchange).tail (Journal.Step.drop _ _ ?_)
  intro run hrun hdropped
  rw [decide_eq_false_iff_not, not_not] at hdropped
  -- Only runs that have ended are evicted.
  cases hopen : run.state.terminal with
  | true => simp [hopen]
  | false => exact absurd hdropped (notMem_evicted hrun hopen)

/-- **A step of the engine** is a sequence of steps of the journal. -/
theorem step_journal (h : Step host P t t') (ha : Allocated host t) :
    ReflTransGen (Journal.Step journal) t.runs t'.runs := by
  cases h with
  | reconcile env => exact journal_reconcile env t
  | registry | lease | commit | ack => exact ReflTransGen.refl
  | queue _ event task htask henabled hid hgen htimer hfull =>
      refine ReflTransGen.single (Journal.Step.add (J := journal) t.runs
        (RunTable.newRun (host.uuid4 t.registry.uuids) event task) ?_ ?_ hfull)
      · exact ha.unused _ (Nat.le_refl _)
      · intro hperiodic run hrun hopen hgroup
        refine htimer ⟨of_decide_eq_true hperiodic, List.any_eq_true.2 ⟨run, hrun, ?_⟩⟩
        have htaskId : run.event.taskId = event.taskId := congrArg Prod.fst hgroup
        have hgeneration : run.event.taskGeneration = event.taskGeneration :=
          congrArg Prod.snd hgroup
        rw [htaskId, hid, hgeneration, hgen]
        simpa using hopen
  | offer env _ e owner peer skipRunIds run hrun howner hpeer hP =>
      obtain ⟨hget, hpending, _⟩ := nextOffer_spec hrun
      exact ReflTransGen.single (journal_updateRun hget
        (Run.later_of_waiting rfl rfl (Or.inl hpending)))
  | begin _ owner peer runId offerId run hrun hsay =>
      exact ReflTransGen.single (journal_updateRun (granted_eq_some hrun).1
        (Run.later_begin (Bool.and_eq_true_iff.1 hsay).1))
  | withdraw _ owner peer runId offerId run hrun hstate =>
      exact ReflTransGen.single (journal_updateRun (granted_eq_some hrun).1
        (Run.later_of_waiting rfl rfl (Or.inr hstate)))
  | finish _ owner peer runId offerId run outcome code hrun hstate hoffered hP =>
      exact ReflTransGen.single (journal_updateRun (granted_eq_some hrun).1
        (Run.later_finished hstate outcome code))

theorem steps_journal (h : ReflTransGen (Step host P) t t') (ha : Allocated host t) :
    ReflTransGen (Journal.Step journal) t.runs t'.runs ∧ Allocated host t' := by
  induction h with
  | refl => exact ⟨ReflTransGen.refl, ha⟩
  | tail _ hstep ih => exact ⟨ih.1.trans (step_journal hstep ih.2),
      later_allocated (step_later hstep) ih.2⟩

end Tables

/-- The event that an input brings: who sent it, under which name, and with which value. -/
def Input.Carries (event : SystemEvent) : Input → Prop
  | Input.call _ (Op.runTask taskId) _ =>
      event.source = PyStr.ofString "manual" ∧ event.taskId = some taskId ∧
        event.name = PyStr.ofString "task:" ++ PyStr.ofString (toString taskId)
  | Input.call _ (Op.submitEvent e) _ => event = e
  | Input.call _ (Op.externalEvent source name value) _ =>
      event.source = source ∧ event.name = name ∧ event.task = value.getD []
  | Input.consumeMqtt _ o value =>
      event.source = o.binding.source ∧ event.name = o.binding.name ∧ event.task = value
  | _ => False

namespace Tables

variable {host : Host} {env : Env} {t t' : Tables} {event : SystemEvent} {identifier : PyStr}

/-- Queueing answers with the identifier of the run that it adds. -/
theorem queue_accepts (h : t.queue host event = Except.ok (some identifier, t')) :
    identifier = host.uuid4 t.registry.uuids ∧ ∃ task, event.taskId = some task.taskId ∧
      t' = { t with
        registry := { t.registry with uuids := t.registry.uuids + 1 }
        runs := t.runs.put (RunTable.newRun (host.uuid4 t.registry.uuids) event task) } := by
  obtain ⟨⟨ident, runs⟩, hq, h⟩ := bind_eq_ok_iff.1 h
  cases h
  unfold RunTable.queue at hq
  cases hid : event.taskId with
  | none =>
      simp only [hid] at hq
      cases hq
  | some taskId =>
      simp only [hid] at hq
      cases htask : t.registry.tasks.get? taskId with
      | none =>
          simp only [htask] at hq
          cases hq
      | some task =>
          simp only [htask] at hq
          obtain rfl := Table.key_of_get? (t := t.registry.tasks) htask
          split_ifs at hq
          · cases hq
          · cases hq
          · cases hq
            exact ⟨rfl, task, rfl, rfl⟩

/-- Administrative requests do not answer with the identifier of a run. -/
theorem apply_ne_runId {now : ℚ} {r r' : Registry} {op : AdminOp} {identifier : Option PyStr} :
    op.apply host now r ≠ Except.ok (Reply.runId identifier, r') := by
  intro h
  cases op with
  | require taskId =>
      simp only [AdminOp.apply] at h
      cases hr : TaskStore.require r.tasks taskId with
      | error e =>
          rw [hr] at h
          cases h
      | ok task =>
          rw [hr] at h
          cases h
  | register taskId description spec =>
      obtain ⟨b, _, hreply⟩ := registerForTask_of_apply h
      cases hreply
  | create | startTask | stopTask | setTaskPeriod | setExecutor | createTask
  | createPeriodicTask | createExternalTask =>
      obtain ⟨task, _, hreply⟩ := Reply.ofTask_eq_ok h
      cases hreply
  | _ => cases h

/-- Nor do the requests of the workers. -/
theorem worker_ne_runId {owner peer : PyStr} {op : WorkerOp} {identifier : Option PyStr} :
    t.worker host env owner peer op ≠ Except.ok (Reply.runId identifier, t') := by
  intro h
  obtain ⟨_, _, h⟩ := bind_eq_ok_iff.1 h
  cases op with
  | heartbeat executor ready reason =>
      simp only [heartbeat] at h
      split at h
      · cases h
      · cases h
  | offline => cases h
  | publishResult runId offerId result =>
      obtain ⟨p, _, h⟩ := bind_eq_ok_iff.1 h
      cases h
  | pull executor seen skipRunIds =>
      simp only [pull] at h
      split at h
      · cases h
      · split at h
        · cases h
        · split at h
          · cases h
          · cases h
  | begin runId offerId => cases h
  | valid runId offerId => cases h
  | finish runId offerId outcome statusCode =>
      obtain ⟨p, _, h⟩ := bind_eq_ok_iff.1 h
      cases h

/-- **A request that is answered with the identifier of a run** has queued the event it brings. -/
theorem dispatch_accepts {peer : PyStr} {op : Op}
    (h : t.dispatch host env peer op = Except.ok (Reply.runId (some identifier), t')) :
    ∃ event, (Input.call env op peer).Carries event ∧
      t.queue host event = Except.ok (some identifier, t') := by
  cases op with
  | admin op =>
      obtain ⟨⟨reply', r⟩, ha, h⟩ := bind_eq_ok_iff.1 h
      cases h
      exact absurd ha apply_ne_runId
  | statusText | ping | cores | runs | malformed => cases h
  | pauseTask taskId =>
      obtain ⟨p, _, h⟩ := bind_eq_ok_iff.1 h
      cases h
  | runTask taskId =>
      obtain ⟨task, htask, h⟩ := bind_eq_ok_iff.1 h
      obtain ⟨ident, hq, hreply⟩ := ofRunId_eq_ok h
      cases hreply
      have hid : task.taskId = taskId := Table.key_of_get? (TaskStore.require_eq_ok_iff.1 htask)
      subst hid
      exact ⟨manualEvent env.monotonic task, ⟨rfl, rfl, rfl⟩, hq⟩
  | externalEvent source name value =>
      obtain ⟨ident, hq, hreply⟩ := ofRunId_eq_ok h
      cases hreply
      simp only [externalEvent] at hq
      split at hq
      · cases hq
      · split at hq
        · cases hq
        · exact ⟨_, ⟨rfl, rfl, rfl⟩, hq⟩
  | submitEvent event =>
      obtain ⟨ident, hq, hreply⟩ := ofRunId_eq_ok h
      cases hreply
      exact ⟨event, rfl, hq⟩
  | notificationsList limit =>
      obtain ⟨n, _, h⟩ := bind_eq_ok_iff.1 h
      cases h
  | notificationsAck args =>
      obtain ⟨p, _, h⟩ := bind_eq_ok_iff.1 h
      cases h
  | worker owner op => exact absurd h worker_ne_runId

/-- An event of a timer is queued only when every run of its task and generation has ended. -/
theorem queue_ended (h : t.queue host event = Except.ok (some identifier, t'))
    (hsource : event.source = PyStr.ofString "timer") :
    ∀ other ∈ t.runs.values, other.event.taskId = event.taskId →
      other.event.taskGeneration = event.taskGeneration → other.state.terminal = true := by
  obtain ⟨⟨ident, runs⟩, hq, h⟩ := bind_eq_ok_iff.1 h
  cases h
  unfold RunTable.queue at hq
  split at hq
  · cases hq
  · rename_i taskId hid
    split at hq
    · cases hq
    · rename_i task htask
      obtain rfl : task.taskId = taskId := Table.key_of_get? (t := t.registry.tasks) htask
      split_ifs at hq with hstale hlive hfull
      · cases hq
      · cases hq
      · intro other hother htaskId hgeneration
        have hgen : task.generation = event.taskGeneration := not_not.1 (not_or.1 hstale).2
        by_contra hopen
        refine hlive ⟨hsource, List.any_eq_true.2 ⟨other, hother, ?_⟩⟩
        rw [htaskId, hgeneration, hid, hgen]
        simpa using hopen

/-- A run that is new when the events of a tick have been queued was queued for one of them, when
the events before it had been queued. -/
theorem queueAll_split {events : List SystemEvent} {k : PyStr} {run : Run}
    (h : queueAll host events t = Except.ok t') (hk : t'.runs.get? k = some run) :
    t.runs.get? k = some run ∨ ∃ before event after t₁ t₂, events = before ++ event :: after ∧
      queueAll host before t = Except.ok t₁ ∧
      t₁.queue host event = Except.ok (some k, t₂) ∧ Queued k event run := by
  induction events generalizing t with
  | nil =>
      cases h
      exact Or.inl hk
  | cons event events ih =>
      obtain ⟨⟨ident, t₀⟩, hq, h⟩ := bind_eq_ok_iff.1 h
      rcases ih h with hold | ⟨before, event', after, t₁, t₂, rfl, hbefore, hq', hrun⟩
      · rcases queue_run hq hold with hold | ⟨rfl, hrun⟩
        · exact Or.inl hold
        · exact Or.inr ⟨[], event, events, t, t₀, rfl, rfl, hq, hrun⟩
      · refine Or.inr ⟨event :: before, event', after, t₁, t₂, rfl, ?_, hq', hrun⟩
        simp only [queueAll, hq]
        exact hbefore

end Tables

/-- The event that an input queues, and the tables at that moment. -/
inductive Input.Queues (host : Host) (s : TaskEngine) : Input → SystemEvent → Tables → Prop
  | carried (i : Input) (event : SystemEvent) (h : i.Carries event) :
      Queues host s i event s.toTables
  /-- The events of the timers are queued one after the other. -/
  | tick (env : Env) (now : Option ℚ) (before : List SystemEvent) (event : SystemEvent)
      (after : List SystemEvent) (registry : Registry) (t : Tables)
      (hdue : (s.toTables.reconcile env).registry.pollDueFloat (now.getD env.monotonic) false =
        Except.ok (before ++ event :: after, registry))
      (h : Tables.queueAll host before { s.toTables.reconcile env with registry } = Except.ok t) :
      Queues host s (Input.tick env now) event t

/-! ### What is removed -/

/-- The runs that `_reconcile` removes some of: all of them have been looked through. -/
def Tables.checked (env : Env) (t : Tables) : RunTable :=
  t.runs.map (fun run => run.reconciled env t.registry.tasks t.workers)
    fun run => run.reconciled_runId env t.registry.tasks t.workers

/-- `_reconcile` removes the run `run'`, which is one of those that have ended. -/
structure Tables.Removes (env : Env) (t : Tables) (k : PyStr) (run' : Run) : Prop where
  get : (t.checked env).get? k = some run'
  ended : run'.state.terminal = true
  evicted : k ∈ (t.checked env).evicted

/-- The tables that a request reconciles. -/
inductive Op.Reconciles (host : Host) (env : Env) (peer : PyStr) (t : Tables) : Op → Tables → Prop
  | pause (taskId : ℤ) (task : TaskRecord) (registry : Registry)
      (h : t.registry.stopTask host taskId true = Except.ok (task, registry)) :
      Reconciles host env peer t (Op.pauseTask taskId) { t with registry }
  | worker (owner : PyStr) (op : WorkerOp) : Reconciles host env peer t (Op.worker owner op) t
  /-- `offline` reconciles once more when the lease has been given up. -/
  | offline (owner : PyStr) :
      Reconciles host env peer t (Op.worker owner WorkerOp.offline)
        { t.reconcile env with
          workers := (t.reconcile env).workers.modify (owner, peer)
            (fun w => { w with
              ready := false, reason := "stopping", lastSeen := env.clock - leaseSeconds })
            fun _ => rfl }

/-- The tables that an input reconciles. -/
inductive Input.Reconciles (host : Host) (s : TaskEngine) : Input → Env → Tables → Prop
  | call (env : Env) (op : Op) (peer : PyStr) (t : Tables)
      (h : op.Reconciles host env peer s.toTables t) :
      Reconciles host s (Input.call env op peer) env t
  | tick (env : Env) (now : Option ℚ) : Reconciles host s (Input.tick env now) env s.toTables

namespace Tables

variable {host : Host} {env : Env} {t t' : Tables} {k : PyStr} {run : Run}

/-- A run stays when the runs are reconciled, or it has ended and is removed. -/
theorem kept_or_removed_reconcile (env : Env) (h : t.runs.get? k = some run) :
    (∃ run', (t.reconcile env).runs.get? k = some run' ∧ run.Later run') ∨
      ∃ run', t.Removes env k run' ∧ run.Later run' := by
  have hget : (t.checked env).get? k = some (run.reconciled env t.registry.tasks t.workers) := by
    rw [checked, Table.get?_map, h, Option.map_some]
  have hid : (run.reconciled env t.registry.tasks t.workers).event.runId = k :=
    Table.key_of_get? (t := t.checked env) hget
  have hlater := Run.later_reconciled env t.registry.tasks t.workers run
  by_cases hmem : k ∈ (t.checked env).evicted
  · refine Or.inr ⟨_, ⟨hget, ?_, hmem⟩, hlater⟩
    by_contra hopen
    exact notMem_evicted (Table.mem_values_of_get? hget) (Bool.eq_false_iff.2 hopen)
      (hid.symm ▸ hmem)
  · refine Or.inl ⟨_, Table.get?_filter_eq_some.2 ⟨hget, decide_eq_true ?_⟩, hlater⟩
    rw [hid]
    exact hmem

theorem isSome_updateRun {runId : PyStr} {f : Run → Run}
    {hf : ∀ run, (f run).event.runId = run.event.runId} (h : (t.runs.get? k).isSome = true) :
    ((t.updateRun runId f hf).runs.get? k).isSome = true := by
  rw [updateRun, Table.get?_modify]
  split
  next => rwa [Option.isSome_map]
  next => exact h

/-- Without an identifier nothing is queued. -/
theorem queue_declines {identifier : PyStr} {tasks : TaskTable} {event : SystemEvent}
    {runs runs' : RunTable} (h : runs.queue identifier tasks event = Except.ok (none, runs')) :
    runs' = runs := by
  unfold RunTable.queue at h
  split at h
  · cases h
  · split at h
    · cases h
      rfl
    · split_ifs at h <;> cases h <;> rfl

/-- Queueing removes no run. -/
theorem isSome_queue {event : SystemEvent} {identifier : Option PyStr}
    (h : t.queue host event = Except.ok (identifier, t')) (hk : (t.runs.get? k).isSome = true) :
    (t'.runs.get? k).isSome = true := by
  cases identifier with
  | none =>
      obtain ⟨⟨ident, runs⟩, hq, h⟩ := bind_eq_ok_iff.1 h
      cases h
      rw [show runs = t.runs from queue_declines hq]
      exact hk
  | some identifier =>
      obtain ⟨_, task, _, rfl⟩ := queue_accepts h
      change ((t.runs.put _).get? k).isSome = true
      rw [Table.get?_put]
      split
      next => rfl
      next => exact hk

/-- Nor does queueing the events of a tick. -/
theorem isSome_queueAll {events : List SystemEvent} (h : queueAll host events t = Except.ok t')
    (hk : (t.runs.get? k).isSome = true) : (t'.runs.get? k).isSome = true := by
  induction events generalizing t with
  | nil =>
      cases h
      exact hk
  | cons event events ih =>
      obtain ⟨⟨identifier, t₁⟩, hq, h⟩ := bind_eq_ok_iff.1 h
      exact ih h (isSome_queue hq hk)

/-- The requests of the workers remove no run, except where they reconcile the runs. -/
theorem kept_or_removed_worker {owner peer : PyStr} {op : WorkerOp} {reply : Reply}
    (h : t.worker host env owner peer op = Except.ok (reply, t')) (hk : t.runs.get? k = some run) :
    (t'.runs.get? k).isSome = true ∨ ∃ t₁ run',
      (Op.worker owner op).Reconciles host env peer t t₁ ∧ t₁.Removes env k run' ∧
        run.Later run' := by
  obtain ⟨_, _, h⟩ := bind_eq_ok_iff.1 h
  -- Every request reconciles first; `offline` does so again, with the lease withdrawn.
  rcases kept_or_removed_reconcile env hk with ⟨run₁, hrun₁, hlater⟩ | ⟨run', hrem, hlater⟩
  · have hsome : ((t.reconcile env).runs.get? k).isSome = true := by rw [hrun₁]; rfl
    cases op with
    | heartbeat executor ready reason =>
        simp only [heartbeat] at h
        split at h
        · cases h
        · cases h
          exact Or.inl hsome
    | offline =>
        cases h
        rcases kept_or_removed_reconcile (t := { t.reconcile env with
            workers := (t.reconcile env).workers.modify (owner, peer)
              (fun w => { w with
                ready := false, reason := "stopping", lastSeen := env.clock - leaseSeconds })
              fun _ => rfl }) env hrun₁ with ⟨run₂, hrun₂, -⟩ | ⟨run', hrem, hlater'⟩
        · refine Or.inl ?_
          rw [offline, hrun₂]
          rfl
        · exact Or.inr ⟨_, run', Op.Reconciles.offline owner, hrem, hlater.trans hlater'⟩
    | publishResult runId offerId result =>
        obtain ⟨_, _, h⟩ := bind_eq_ok_iff.1 h
        cases h
        exact Or.inl hsome
    | pull executor seen skipRunIds =>
        simp only [pull] at h
        split at h
        · cases h
        · split at h
          · cases h
            exact Or.inl hsome
          · split at h
            · cases h
              exact Or.inl hsome
            · cases h
              exact Or.inl (isSome_updateRun (t := t.reconcile env) hsome)
    | begin runId offerId =>
        cases h
        simp only [begin]
        split
        · exact Or.inl hsome
        · split_ifs
          · exact Or.inl (isSome_updateRun hsome)
          · exact Or.inl hsome
    | valid runId offerId =>
        cases h
        exact Or.inl hsome
    | finish runId offerId outcome statusCode =>
        obtain ⟨⟨b, t₁⟩, hf, h⟩ := bind_eq_ok_iff.1 h
        cases h
        simp only [finish] at hf
        split at hf
        · cases hf
          exact Or.inl hsome
        · split_ifs at hf
          · cases hf
            exact Or.inl hsome
          all_goals
            obtain ⟨_, _, hf⟩ := bind_eq_ok_iff.1 hf
            cases hf
            exact Or.inl (isSome_updateRun hsome)
  · exact Or.inr ⟨t, run', Op.Reconciles.worker owner op, hrem, hlater⟩

/-- **A request removes a run only where it reconciles the runs.** -/
theorem kept_or_removed_dispatch {peer : PyStr} {op : Op} {reply : Reply}
    (h : t.dispatch host env peer op = Except.ok (reply, t')) (hk : t.runs.get? k = some run) :
    (t'.runs.get? k).isSome = true ∨ ∃ t₁ run',
      op.Reconciles host env peer t t₁ ∧ t₁.Removes env k run' ∧ run.Later run' := by
  have hsome : (t.runs.get? k).isSome = true := by rw [hk]; rfl
  cases op with
  | admin op =>
      obtain ⟨_, _, h⟩ := bind_eq_ok_iff.1 h
      cases h
      exact Or.inl hsome
  | pauseTask taskId =>
      obtain ⟨⟨task, registry⟩, hstop, h⟩ := bind_eq_ok_iff.1 h
      cases h
      rcases kept_or_removed_reconcile (t := { t with registry }) env hk with
        ⟨run', hrun', -⟩ | ⟨run', hrem, hlater⟩
      · exact Or.inl (by rw [hrun']; rfl)
      · exact Or.inr ⟨_, run', Op.Reconciles.pause taskId task registry hstop, hrem, hlater⟩
  | statusText | ping | cores | runs =>
      cases h
      exact Or.inl hsome
  | runTask taskId =>
      obtain ⟨task, _, h⟩ := bind_eq_ok_iff.1 h
      obtain ⟨identifier, hq, _⟩ := ofRunId_eq_ok h
      exact Or.inl (isSome_queue hq hsome)
  | externalEvent source name value =>
      obtain ⟨identifier, hq, _⟩ := ofRunId_eq_ok h
      simp only [externalEvent] at hq
      split at hq
      · cases hq
        exact Or.inl hsome
      · split at hq
        · cases hq
          exact Or.inl hsome
        · exact Or.inl (isSome_queue hq hsome)
  | submitEvent event =>
      obtain ⟨identifier, hq, _⟩ := ofRunId_eq_ok h
      exact Or.inl (isSome_queue hq hsome)
  | notificationsList | notificationsAck =>
      obtain ⟨_, _, h⟩ := bind_eq_ok_iff.1 h
      cases h
      exact Or.inl hsome
  | worker owner op => exact kept_or_removed_worker h hk
  | malformed e => cases h

/-- So does a tick. -/
theorem kept_or_removed_poll {now : Option ℚ} (h : t.poll host env now = Except.ok t')
    (hk : t.runs.get? k = some run) :
    (t'.runs.get? k).isSome = true ∨ ∃ run', t.Removes env k run' ∧ run.Later run' := by
  unfold poll at h
  obtain ⟨⟨events, registry⟩, _, h⟩ := bind_eq_ok_iff.1 h
  rcases kept_or_removed_reconcile env hk with ⟨run', hrun', -⟩ | hrem
  · refine Or.inl (isSome_queueAll h ?_)
    change ((t.reconcile env).runs.get? k).isSome = true
    rw [hrun']
    rfl
  · exact Or.inr hrem

end Tables

namespace TaskEngine

open Relation (ReflTransGen)
open RunTable (journal)
open Tables (Permits)

variable {host : Host} {s s' : TaskEngine}

/-- **The engine refines the journal**: every input is a sequence of its steps. -/
theorem respond_journal (hs : (machine host).Reachable s) (i : Input) :
    ReflTransGen (Journal.Step journal) s.runs (s.respond host i).2.runs := by
  rcases respond_effect host (rowHolds_of_reachable hs) (s.allowed_all i) with
    ⟨_, _, hsteps⟩ | ⟨_, hrebuilt⟩
  · exact (Tables.steps_journal hsteps (allocated_of_reachable hs)).1
  · have hruns : s.runs = (s.respond host i).2.runs := hrebuilt.runs
    rw [← hruns]

/-- The input has been answered with the identifier of a run. -/
def Accepts (host : Host) (s : TaskEngine) (i : Input) (identifier : PyStr) : Prop :=
  (s.respond host i).1 = Except.ok (Reply.runId (some identifier))

/-- What an accepted input has done: it has queued the event it brings, and nothing else. -/
theorem accepts_spec {i : Input} {identifier : PyStr} (h : s.Accepts host i identifier) :
    ∃ event, i.Carries event ∧ s.toTables.queue host event =
      Except.ok (some identifier, (s.respond host i).2.toTables) := by
  unfold Accepts at h
  cases i with
  | call env op peer =>
      obtain ⟨t, hdispatch, ht⟩ := transact_returned h
      obtain ⟨event, hcarries, hq⟩ := Tables.dispatch_accepts hdispatch
      refine ⟨event, hcarries, ?_⟩
      rw [hq, respond, call, ht]
  | tick env now =>
      obtain ⟨t, hbody, _⟩ := transact_returned h
      cases hp : s.toTables.poll host env now with
      | error e =>
          rw [hp] at hbody
          cases hbody
      | ok t' =>
          rw [hp] at hbody
          cases hbody
  | consumeMqtt env o value =>
      simp only [respond, consumeMqtt] at h ⊢
      split at h
      · cases h
      · rename_i o' ho
        split_ifs at h with hid
        · cases h
        · obtain ⟨t, hdispatch, ht⟩ := transact_returned h
          obtain ⟨event, hcarries, hq⟩ := Tables.dispatch_accepts hdispatch
          refine ⟨event, hcarries, ?_⟩
          simp only [if_neg hid]
          rw [hq, call, ht]
  | reopen offset => cases h

/-- **An accepted event has its own run**: a new one, which waits and holds the event, under an
identifier that has not been handed out before; no other run is touched. -/
theorem accepted_run (hs : (machine host).Reachable s) {i : Input} {identifier : PyStr}
    (h : s.Accepts host i identifier) :
    (∃ event run, i.Carries event ∧ (s.respond host i).2.runs.get? identifier = some run ∧
      run.event = { event with runId := identifier } ∧ run.state = RunState.pending) ∧
    s.runs.get? identifier = none ∧
    (∀ k, k ≠ identifier → (s.respond host i).2.runs.get? k = s.runs.get? k) ∧
    ∃ n, s.registry.uuids ≤ n ∧ n < (s.respond host i).2.registry.uuids ∧
      identifier = host.uuid4 n := by
  obtain ⟨event, hcarries, hq⟩ := accepts_spec h
  obtain ⟨hid, task, _, ht⟩ := Tables.queue_accepts hq
  have hruns : (s.respond host i).2.runs =
      s.runs.put (RunTable.newRun (host.uuid4 s.registry.uuids) event task) :=
    congrArg Tables.runs ht
  have huuids : (s.respond host i).2.registry.uuids = s.registry.uuids + 1 :=
    congrArg (fun t => t.registry.uuids) ht
  rw [hruns, huuids]
  refine ⟨⟨event, RunTable.newRun (host.uuid4 s.registry.uuids) event task, hcarries, ?_, ?_, rfl⟩,
    ?_, ?_, s.registry.uuids, Nat.le_refl _, Nat.lt_succ_self _, hid⟩
  · rw [hid, Table.get?_put]
    exact if_pos rfl
  · rw [hid]
    rfl
  · rw [hid]
    exact (allocated_of_reachable hs).unused _ (Nat.le_refl _)
  · intro k hk
    rw [Table.get?_put]
    exact if_neg fun heq => hk (heq.symm.trans hid.symm)

/-- Two inputs that are accepted one after the other have different runs. -/
theorem accepted_ne (hs : (machine host).Reachable s) {i i' : Input}
    {identifier identifier' : PyStr} (h : s.Accepts host i identifier)
    (hl : (machine host).Leads (fun _ _ => True) (s.respond host i).2 s')
    (h' : s'.Accepts host i' identifier') : identifier ≠ identifier' := by
  have hs₁ : (machine host).Reachable (s.respond host i).2 := hs.step i
  have hs' : (machine host).Reachable s' := hs₁.leads hl
  obtain ⟨_, _, _, n, _, hn, rfl⟩ := accepted_run hs h
  obtain ⟨_, _, _, m, hm, _, rfl⟩ := accepted_run hs' h'
  have hle := (leads_later hs₁ hl).uuids_le
  intro heq
  have := host.uuid4_injective heq
  omega

/-- A new run comes from a request that is accepted, or from a tick. -/
theorem accepts_of_new_run (hs : (machine host).Reachable s) (i : Input) {k : PyStr}
    (hk : s.runs.get? k = none) {run : Run} (hk' : (s.respond host i).2.runs.get? k = some run) :
    s.Accepts host i k ∨ ∃ env now t, i = Input.tick env now ∧
      s.toTables.poll host env now = Except.ok t ∧ t.runs.get? k = some run := by
  have hsame : (s.respond host i).2.runs = s.runs → False := by
    intro heq
    rw [heq, hk] at hk'
    cases hk'
  rcases respond_effect host (rowHolds_of_reachable hs) (s.allowed_all i) with
    ⟨reply, hok, _⟩ | ⟨_, hrebuilt⟩
  · cases i with
    | call env op peer =>
        obtain ⟨t, hb, ht⟩ := transact_returned hok
        change (s.call host env op peer).2.runs.get? k = some run at hk'
        rw [call, ht] at hk'
        obtain ⟨rfl, -⟩ := Tables.dispatch_new_run hb hk hk'
        exact Or.inl hok
    | tick env now =>
        obtain ⟨t, hb, ht⟩ := transact_returned hok
        change (s.tick host env now).2.runs.get? k = some run at hk'
        rw [tick, ht] at hk'
        cases hp : s.toTables.poll host env now with
        | error e =>
            rw [hp] at hb
            cases hb
        | ok t' =>
            rw [hp] at hb
            cases hb
            exact Or.inr ⟨env, now, _, rfl, hp, hk'⟩
    | consumeMqtt env o value =>
        refine Or.inl ?_
        simp only [respond, consumeMqtt] at hok hk' hsame
        split at hok
        next ho => exact absurd (by rw [ho]) hsame
        next o' ho =>
          simp only [ho] at hk' hsame
          by_cases hid : o'.id = o.id
          · -- An event that is taken is an external event of its own binding.
            simp only [hid, ne_eq, not_true_eq_false, if_false] at hok hk'
            obtain ⟨t, hb, ht⟩ := transact_returned hok
            rw [call, ht] at hk'
            obtain ⟨rfl, -⟩ := Tables.dispatch_new_run hb hk hk'
            simp only [Accepts, respond, consumeMqtt, ho, hid, ne_eq, not_true_eq_false, if_false]
            exact hok
          · exact absurd (by simp only [hid, ne_eq, not_false_eq_true, if_true]) hsame
    | reopen offset =>
        exact absurd (reopen_rebuilt (rowHolds_of_reachable hs) offset).runs.symm hsame
  -- A call that raises restores the runs.
  · exact absurd hrebuilt.runs.symm hsame

/-- **Where a new run is queued**: for the event of the input, or for a timer of the tick. -/
theorem queues_of_new_run (hs : (machine host).Reachable s) (i : Input) {k : PyStr}
    (hk : s.runs.get? k = none) {run : Run} (hk' : (s.respond host i).2.runs.get? k = some run) :
    ∃ event t t', i.Queues host s event t ∧ t.queue host event = Except.ok (some k, t') ∧
      run.event = { event with runId := k } := by
  rcases accepts_of_new_run hs i hk hk' with haccepts | ⟨env, now, t, rfl, hpoll, ht⟩
  · obtain ⟨event, hcarries, hq⟩ := accepts_spec haccepts
    exact ⟨event, _, _, Input.Queues.carried i event hcarries, hq,
      (Tables.queue_new_run hq hk hk').2⟩
  · obtain ⟨⟨events, registry⟩, hdue, hall⟩ := bind_eq_ok_iff.1 hpoll
    rcases Tables.queueAll_split hall ht with hold | ⟨before, event, after, t₁, t₂, rfl, hbefore, hq,
      hrun⟩
    · have hnone := Tables.noNewRuns_reconcile env s.toTables k hk
      change (s.toTables.reconcile env).runs.get? k = some run at hold
      rw [hnone] at hold
      cases hold
    · exact ⟨event, t₁, t₂, Input.Queues.tick env now before event after registry t₁ hdue hbefore,
        hq, hrun⟩

/-- **The invariants of the journal** hold in every reachable state. -/
theorem journal_invariant (hs : (machine host).Reachable s) :
    Journal.Coalesced journal s.runs ∧ Journal.Bounded journal s.runs := by
  refine hs.invariant (I := fun u => Journal.Coalesced journal u.runs ∧
    Journal.Bounded journal u.runs) ?_ ?_
  · rintro s ⟨offset, now, tasks, bindings, uuids, _, rfl⟩
    exact ⟨fun a ha => absurd ha List.not_mem_nil, Nat.zero_le _⟩
  · intro u i hu h
    have hsteps := respond_journal hu i
    exact ⟨Journal.steps_coalesced hsteps h.1, Journal.steps_bounded hsteps h.2⟩

/-- **An input removes a run only where it reconciles the runs**, and only when it has ended. -/
theorem kept_or_removed (hs : (machine host).Reachable s) (i : Input) {k : PyStr} {run : Run}
    (hk : s.runs.get? k = some run) :
    (∃ run', (s.respond host i).2.runs.get? k = some run' ∧ run.Later run') ∨
      ∃ env t run', i.Reconciles host s env t ∧ t.Removes env k run' ∧ run.Later run' := by
  have hkept : ((s.respond host i).2.runs.get? k).isSome = true → ∃ run',
      (s.respond host i).2.runs.get? k = some run' ∧ run.Later run' := by
    intro hsome
    obtain ⟨run', hrun'⟩ := Option.isSome_iff_exists.1 hsome
    exact ⟨run', hrun', later_run hs (Machine.leads_exec s [i]) hk hrun'⟩
  have hsame : (s.runs.get? k).isSome = true := by rw [hk]; rfl
  rcases respond_effect host (rowHolds_of_reachable hs) (s.allowed_all i) with
    ⟨reply, hok, _⟩ | ⟨_, hrebuilt⟩
  · cases i with
    | call env op peer =>
        obtain ⟨t, hb, ht⟩ := transact_returned hok
        change (s.call host env op peer).2.toTables = t at ht
        rcases Tables.kept_or_removed_dispatch hb hk with hsome | ⟨t₁, run', hrec, hrem, hlater⟩
        · refine Or.inl (hkept ?_)
          rw [respond, ht]
          exact hsome
        · exact Or.inr ⟨env, t₁, run', Input.Reconciles.call env op peer t₁ hrec, hrem, hlater⟩
    | tick env now =>
        obtain ⟨t, hb, ht⟩ := transact_returned hok
        change (s.tick host env now).2.toTables = t at ht
        cases hp : s.toTables.poll host env now with
        | error e =>
            rw [hp] at hb
            cases hb
        | ok t' =>
            rw [hp] at hb
            cases hb
            rcases Tables.kept_or_removed_poll hp hk with hsome | ⟨run', hrem, hlater⟩
            · refine Or.inl (hkept ?_)
              rw [respond, ht]
              exact hsome
            · exact Or.inr ⟨env, _, run', Input.Reconciles.tick env now, hrem, hlater⟩
    | consumeMqtt env o value =>
        refine Or.inl (hkept ?_)
        simp only [respond, consumeMqtt] at hok ⊢
        split
        · exact hsame
        · rename_i o' ho
          simp only [ho] at hok
          split_ifs with hid
          · exact hsame
          · rw [if_neg hid] at hok
            obtain ⟨t, hb, ht⟩ := transact_returned hok
            change (s.call host env _ []).2.toTables = t at ht
            rw [ht]
            rcases Tables.kept_or_removed_dispatch hb hk with hsome | ⟨t₁, run', hrec, -⟩
            · exact hsome
            · cases hrec
    | reopen offset =>
        refine Or.inl (hkept ?_)
        have hruns := (reopen_rebuilt (rowHolds_of_reachable hs) offset).runs
        rw [respond, ← hruns]
        exact hsame
  · refine Or.inl (hkept ?_)
    rw [← hrebuilt.runs]
    exact hsame

/-- **The queue of runs.**  In every reachable state:

* no task has two timer runs of one generation that have not ended, and at most 1024 runs have not
  ended;
* an input leaves no new timer run unless, in the tables that it was queued in, every run of its
  task and generation had ended;
* an accepted event has a run of its own, which holds it as long as the run is in the journal;
* a run stays, or it is removed where the input reconciles the runs, having ended then. -/
theorem runs_coalesce (hs : (machine host).Reachable s) :
    (∀ k k' a b, s.runs.get? k = some a → s.runs.get? k' = some b →
      a.event.source = PyStr.ofString "timer" → b.event.source = PyStr.ofString "timer" →
      a.state.terminal = false → b.state.terminal = false →
      a.event.taskId = b.event.taskId → a.event.taskGeneration = b.event.taskGeneration →
      k = k') ∧
    s.runs.pendingCount ≤ 1024 ∧
    (∀ i k run, s.runs.get? k = none → (s.respond host i).2.runs.get? k = some run →
      run.event.source = PyStr.ofString "timer" →
      ∃ event t t', i.Queues host s event t ∧ t.queue host event = Except.ok (some k, t') ∧
        run.event = { event with runId := k } ∧
        ∀ other ∈ t.runs.values, other.event.taskId = run.event.taskId →
          other.event.taskGeneration = run.event.taskGeneration → other.state.terminal = true) ∧
    (∀ i identifier, s.Accepts host i identifier →
      (∃ event run, i.Carries event ∧ (s.respond host i).2.runs.get? identifier = some run ∧
        run.event = { event with runId := identifier } ∧ run.state = RunState.pending) ∧
      s.runs.get? identifier = none ∧
      (∀ k, k ≠ identifier → (s.respond host i).2.runs.get? k = s.runs.get? k) ∧
      ∀ s', (machine host).Leads (fun _ _ => True) (s.respond host i).2 s' →
        (∀ run', s'.runs.get? identifier = some run' → ∃ event, i.Carries event ∧
          run'.event = { event with runId := identifier, offerId := run'.event.offerId }) ∧
        ∀ i' identifier', s'.Accepts host i' identifier' → identifier ≠ identifier') ∧
    ∀ i k run, s.runs.get? k = some run →
      (∃ run', (s.respond host i).2.runs.get? k = some run' ∧ run.Later run') ∨
      ∃ env t run', i.Reconciles host s env t ∧ t.Removes env k run' ∧ run.Later run' := by
  obtain ⟨hcoalesced, hbounded⟩ := journal_invariant hs
  refine ⟨?_, hbounded, ?_, ?_, ?_⟩
  · intro k k' a b ha hb hsa hsb hoa hob htask hgen
    have heq : a = b := hcoalesced a (Table.mem_values_of_get? ha) b (Table.mem_values_of_get? hb)
      (decide_eq_true hsa) (decide_eq_true hsb) (by simp [hoa]) (by simp [hob])
      (Prod.ext htask hgen)
    rw [← Table.key_of_get? (t := s.runs) ha, ← Table.key_of_get? (t := s.runs) hb, heq]
  · intro i k run hk hk' hsource
    obtain ⟨event, t, t', hqueues, hq, hrun⟩ := queues_of_new_run hs i hk hk'
    refine ⟨event, t, t', hqueues, hq, hrun, ?_⟩
    rw [hrun] at hsource ⊢
    exact Tables.queue_ended hq hsource
  · intro i identifier h
    obtain ⟨hrun, hnone, hother, _⟩ := accepted_run hs h
    refine ⟨hrun, hnone, hother, fun s' hl => ⟨fun run' hrun' => ?_, fun i' identifier' h' =>
      accepted_ne hs h hl h'⟩⟩
    obtain ⟨event, run, hcarries, hget, hevent, _⟩ := hrun
    refine ⟨event, hcarries, ?_⟩
    have hlater := later_run (hs.step i) hl hget hrun'
    rw [hlater.event, hevent]
  · intro i k run hk
    exact kept_or_removed hs i hk

/-- A task with a period. -/
def aPeriod : List Input :=
  [Input.call Env.quiet (Op.admin (AdminOp.createPeriodicTask "d" "t" ["s"] (PyNumber.finite 1)
      "task" "auto" none)) []]

/-- A tick that comes late, at this moment. -/
def lateTick (now : ℚ) : Input := Input.tick Env.quiet (some now)

/-- Two ticks that come late. -/
def lateTicks : List Input := aPeriod ++ [lateTick 2, lateTick 5]

/-- The first tick queues a run when every run of the task has ended; the second is coalesced. -/
theorem runs_coalesce_lateTicks :
    ((after Host.ascii (aPeriod ++ [lateTick 2])).runs.pendingCount = 1 ∧
      ∃ event t t', (lateTick 2).Queues Host.ascii (after Host.ascii aPeriod) event t ∧
        t.queue Host.ascii event = Except.ok (some (PyStr.ofString "b"), t') ∧
        ∀ other ∈ t.runs.values, other.event.taskId = event.taskId →
          other.event.taskGeneration = event.taskGeneration → other.state.terminal = true) ∧
    (after Host.ascii lateTicks).runs.pendingCount = 1 ∧
      (after Host.ascii lateTicks).runs.pendingCount ≤ 1024 := by
  refine ⟨⟨by decide +kernel, ?_⟩, by decide +kernel,
    (runs_coalesce (reachable_after Host.ascii lateTicks)).2.1⟩
  have hsource : (((after Host.ascii aPeriod).respond Host.ascii (lateTick 2)).2.runs.get?
      "b").map (fun run => run.event.source) = some (PyStr.ofString "timer") := by decide +kernel
  obtain ⟨run, hrun, htimer⟩ := Option.map_eq_some_iff.1 hsource
  obtain ⟨event, t, t', hqueues, hq, hevent, hended⟩ :=
    (runs_coalesce (reachable_after Host.ascii aPeriod)).2.2.1 (lateTick 2) "b" run
      (by decide +kernel) hrun htimer
  rw [hevent] at hended
  exact ⟨event, t, t', hqueues, hq, hended⟩

end TaskEngine
