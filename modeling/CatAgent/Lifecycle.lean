/-
**The life cycle of a run.**

A task has at most one run that is offered or running.  A run that has begun stays with its worker
and its offer until it ends, and a run that has ended does not change any more.  Requests that
name a grant which is not the current one change no run.

The only place that enforces mutual exclusion is the scan of `pull`, which skips the tasks that
are occupied; everything else is that no other step makes a run active.

Main definitions:

* `Tables.Exclusive` — at most one active run for each task;
* `Run.Later`, `Tables.Later` — what a run may have become later;
* `Tables.Holds`, `WorkerOp.Names` — the grant of a run, and the grant that a request names.

Main results:

* `Tables.step_exclusive`, `Tables.step_runs`, `Tables.step_later` — the step lemmas;
* `TaskEngine.lifecycle` — **mutual exclusion, stability and fencing, in every reachable state**.
-/

import CatAgent.EngineStep

set_option relaxedAutoImplicit false
set_option autoImplicit false

/-! ### One run -/

namespace Run

/-- What a run may have become later. -/
structure Later (run run' : Run) : Prop where
  /-- Of its event only the offer changes. -/
  event : run'.event = { run.event with offerId := run'.event.offerId }
  policy : run'.policy = run.policy
  /-- A run that has ended does not change. -/
  ended : run.state.terminal = true → run' = run
  /-- A run that has begun stays with its offer, and with its worker until it ends; only the end
  `interrupted` takes it away from its worker. -/
  begun : run.state = RunState.running → run'.event.offerId = run.event.offerId ∧
    (run'.state = RunState.running ∨ run'.state.terminal = true) ∧
    (run'.state = RunState.interrupted ∨ run'.owner = run.owner ∧ run'.peer = run.peer)

theorem Later.taskId {run run' : Run} (h : Later run run') :
    run'.event.taskId = run.event.taskId := by rw [h.event]

theorem Later.taskGeneration {run run' : Run} (h : Later run run') :
    run'.event.taskGeneration = run.event.taskGeneration := by rw [h.event]

theorem Later.refl (run : Run) : Later run run :=
  ⟨rfl, rfl, fun _ => rfl, fun h => ⟨rfl, Or.inl h, Or.inr ⟨rfl, rfl⟩⟩⟩

theorem Later.trans {run run' run'' : Run} (h : Later run run') (h' : Later run' run'') :
    Later run run'' where
  event := by rw [h'.event, h.event]
  policy := h'.policy.trans h.policy
  ended := by
    intro hend
    have heq := h.ended hend
    subst heq
    exact h'.ended hend
  begun := by
    intro hrun
    obtain ⟨hoffer, hs | hend, hheld⟩ := h.begun hrun
    · obtain ⟨hoffer', hs', hheld'⟩ := h'.begun hs
      refine ⟨hoffer'.trans hoffer, hs', ?_⟩
      rcases hheld' with hint | ⟨ho', hp'⟩
      · exact Or.inl hint
      · rcases hheld with hint | ⟨ho, hp⟩
        · rw [hs] at hint
          cases hint
        · exact Or.inr ⟨ho'.trans ho, hp'.trans hp⟩
    · rw [h'.ended hend]
      exact ⟨hoffer, Or.inr hend, hheld⟩

/-- A change of a run that has neither begun nor ended. -/
theorem later_of_waiting {run run' : Run}
    (hevent : run'.event = { run.event with offerId := run'.event.offerId })
    (hpol : run'.policy = run.policy)
    (h : run.state = RunState.pending ∨ run.state = RunState.offered) : Later run run' where
  event := hevent
  policy := hpol
  ended := by
    intro hend
    rcases h with h | h
    all_goals
      rw [h] at hend
      cases hend
  begun := by
    intro hrun
    rcases h with h | h
    all_goals
      rw [h] at hrun
      cases hrun

theorem later_reconciled (env : Env) (tasks : TaskTable) (workers : WorkerTable) (run : Run) :
    Later run (run.reconciled env tasks workers) := by
  unfold reconciled
  split_ifs with h₁ h₂ h₃
  · exact later_of_waiting rfl rfl h₁.1
  · exact later_of_waiting rfl rfl (Or.inr h₂.1)
  · refine ⟨rfl, rfl, fun hend => ?_, fun _ => ⟨rfl, Or.inr rfl, Or.inl rfl⟩⟩
    rw [h₃.1] at hend
    cases hend
  · exact Later.refl run

theorem later_finished {run : Run} (h : run.state.terminal = false) (outcome : PyStr)
    (code : ℤ) : Later run (run.finished outcome code) where
  event := rfl
  policy := rfl
  ended := by
    intro hend
    rw [h] at hend
    cases hend
  begun := fun _ => ⟨rfl, Or.inr (RunState.terminal_ofOutcome outcome), Or.inr ⟨rfl, rfl⟩⟩

theorem later_begin {run : Run} (h : run.state.active = true) :
    Later run { run with state := RunState.running } := by
  cases hs : run.state with
  | offered => exact later_of_waiting rfl rfl (Or.inr hs)
  | running =>
      have heq : { run with state := RunState.running } = run := by rw [← hs]
      rw [heq]
      exact Later.refl run
  | _ =>
      rw [hs] at h
      cases h

/-- A run that is active after `_reconcile` has not been touched by it. -/
theorem reconciled_of_active {env : Env} {tasks : TaskTable} {workers : WorkerTable} {run : Run}
    (h : (run.reconciled env tasks workers).state.active = true) :
    run.reconciled env tasks workers = run := by
  unfold reconciled at h ⊢
  split_ifs at h ⊢
  · cases h
  · cases h
  · cases h
  · rfl

end Run

/-! ### The table -/

namespace Tables

variable {host : Host} {P : Permits} {t t' t'' : Tables}

/-- The identifiers of the runs have been handed out. -/
def Allocated (host : Host) (t : Tables) : Prop :=
  ∀ k run, t.runs.get? k = some run → ∃ n < t.registry.uuids, k = host.uuid4 n

/-- At most one run of each task is offered or running. -/
def Exclusive (t : Tables) : Prop :=
  ∀ i j a b, t.runs.get? i = some a → t.runs.get? j = some b → a.state.active = true →
    b.state.active = true → a.event.taskId = b.event.taskId → i = j

/-- What the runs may have become later: an old run has followed its life cycle, and a new run has
a new identifier. -/
structure Later (host : Host) (t t' : Tables) : Prop where
  uuids_le : t.registry.uuids ≤ t'.registry.uuids
  runs : ∀ k run', t'.runs.get? k = some run' →
    (∃ run, t.runs.get? k = some run ∧ run.Later run') ∨
      ∃ n, t.registry.uuids ≤ n ∧ n < t'.registry.uuids ∧ k = host.uuid4 n

theorem Later.refl (t : Tables) : Later host t t :=
  ⟨Nat.le_refl _, fun _ run' h => Or.inl ⟨run', h, Run.Later.refl run'⟩⟩

theorem Later.trans (h : Later host t t') (h' : Later host t' t'') : Later host t t'' where
  uuids_le := h.uuids_le.trans h'.uuids_le
  runs := by
    intro k run'' hk
    have hle := h.uuids_le
    have hle' := h'.uuids_le
    rcases h'.runs k run'' hk with ⟨run', hk', hl'⟩ | ⟨n, hn, hn', rfl⟩
    · rcases h.runs k run' hk' with ⟨run, hk, hl⟩ | ⟨n, hn, hn', rfl⟩
      · exact Or.inl ⟨run, hk, hl.trans hl'⟩
      · exact Or.inr ⟨n, hn, by omega, rfl⟩
    · exact Or.inr ⟨n, by omega, hn', rfl⟩

/-- Later tables whose runs are the old ones. -/
theorem later_of_runs (hruns : t'.runs = t.runs) (hle : t.registry.uuids ≤ t'.registry.uuids) :
    Later host t t' :=
  ⟨hle, fun _ run' h => Or.inl ⟨run', hruns ▸ h, Run.Later.refl run'⟩⟩

/-- A run of the reconciled table is a reconciled run of the table. -/
theorem get?_reconcile {env : Env} {k : PyStr} {run' : Run}
    (h : (t.reconcile env).runs.get? k = some run') :
    ∃ run, t.runs.get? k = some run ∧ run' = run.reconciled env t.registry.tasks t.workers := by
  have hmap := (Table.get?_filter_eq_some.1 h).1
  rw [Table.get?_map, Option.map_eq_some_iff] at hmap
  obtain ⟨run, hrun, rfl⟩ := hmap
  exact ⟨run, hrun, rfl⟩

/-- A run that has not ended is not trimmed. -/
theorem get?_trim {runs : RunTable} {k : PyStr} {run : Run} (hk : runs.get? k = some run)
    (hend : run.state.terminal = false) : runs.trim.get? k = some run := by
  refine Table.get?_filter_eq_some.2 ⟨hk, decide_eq_true fun hmem => ?_⟩
  obtain ⟨other, hother, hid⟩ := List.mem_map.1 (List.mem_of_mem_take hmem)
  obtain ⟨hvalue, hterm⟩ := List.mem_filter.1 hother
  have hget : runs.get? other.event.runId = some other := Table.mem_values_iff.1 hvalue
  rw [hid, Table.key_of_get? (t := runs) hk, hk] at hget
  cases hget
  rw [hend] at hterm
  cases hterm

/-- A run that has not ended is reconciled and stays in the table. -/
theorem get?_reconcile_of_live (env : Env) {k : PyStr} {run : Run} (hk : t.runs.get? k = some run)
    (hend : (run.reconciled env t.registry.tasks t.workers).state.terminal = false) :
    (t.reconcile env).runs.get? k = some (run.reconciled env t.registry.tasks t.workers) := by
  refine get?_trim ?_ hend
  rw [Table.get?_map, hk, Option.map_some]

/-- The run that was updated. -/
theorem get?_updateRun_self {runId : PyStr} {f : Run → Run}
    {hf : ∀ run, (f run).event.runId = run.event.runId} {run : Run}
    (h : t.runs.get? runId = some run) : (t.updateRun runId f hf).runs.get? runId = some (f run) := by
  rw [updateRun, Table.get?_modify, if_pos rfl, h, Option.map_some]

/-- A run of a table in which one run was updated. -/
theorem get?_updateRun {runId k : PyStr} {f : Run → Run}
    {hf : ∀ run, (f run).event.runId = run.event.runId} {run' : Run}
    (h : (t.updateRun runId f hf).runs.get? k = some run') :
    (k = runId ∧ ∃ run, t.runs.get? runId = some run ∧ run' = f run) ∨
      t.runs.get? k = some run' := by
  rw [updateRun, Table.get?_modify] at h
  split_ifs at h with hk
  · subst hk
    obtain ⟨run, hrun, rfl⟩ := Option.map_eq_some_iff.1 h
    exact Or.inl ⟨rfl, run, hrun, rfl⟩
  · exact Or.inr h

theorem offer_eq_updateRun (e : Executor) (owner peer runId : PyStr) (t : Tables) :
    (t.offer host e owner peer runId).runs =
      (t.updateRun runId (fun run => run.offered e owner peer (host.uuid4 t.registry.uuids))
        fun _ => rfl).runs := rfl

/-- What `pull` offers: a pending run of a task that is free, which this worker does not skip and
may execute. -/
theorem nextOffer_spec {env : Env} {workers : WorkerTable} {e : Executor} {owner peer : PyStr}
    {skipRunIds : List PyStr} {runs : RunTable} {run : Run}
    (h : runs.nextOffer env workers e owner peer skipRunIds = some run) :
    runs.get? run.event.runId = some run ∧ run.state = RunState.pending ∧
      run.event.taskId ∉ runs.occupied ∧ run.event.runId ∉ skipRunIds ∧
      RunTable.eligible env workers e owner peer run.policyOf = true := by
  have hmem := Table.mem_values_iff.1 (List.mem_of_find?_eq_some h)
  have hp := List.find?_some h
  simp only [Bool.and_eq_true, decide_eq_true_eq] at hp
  exact ⟨hmem, hp.1.1.1, hp.1.1.2, hp.1.2, hp.2⟩

/-- A task with an active run is occupied. -/
theorem mem_occupied {runs : RunTable} {k : PyStr} {run : Run} (h : runs.get? k = some run)
    (ha : run.state.active = true) : run.event.taskId ∈ runs.occupied :=
  List.mem_map.2 ⟨run, List.mem_filter.2 ⟨Table.mem_values_of_get? h, ha⟩, rfl⟩

/-- The supplies and the tasks follow the rules of the registry in every step. -/
theorem step_follows (h : Step host P t t') :
    Registry.Follows host t.registry t'.registry := by
  cases h with
  | registry _ _ hr => exact hr.follows
  | queue | offer => exact Registry.keeps_nextUuid.follows
  | _ => exact Registry.Follows.refl _

/-- The tasks follow the rules of the registry when the tables are rebuilt. -/
theorem Rebuilt.tasksFollow (h : Rebuilt t t') {n m : ℕ} :
    Registry.TasksFollow host n m t.registry.tasks t'.registry.tasks := by
  intro k task' hk
  exact Or.inl ⟨task', (h.tasks k).trans hk, rfl, rfl, rfl⟩

/-- An update of one run that follows its life cycle. -/
theorem later_updateRun {runId : PyStr} {f : Run → Run}
    {hf : ∀ run, (f run).event.runId = run.event.runId} {run₀ : Run}
    (hget : t.runs.get? runId = some run₀) (hl : run₀.Later (f run₀)) (k : PyStr) (run' : Run)
    (hk : (t.updateRun runId f hf).runs.get? k = some run') :
    ∃ run, t.runs.get? k = some run ∧ run.Later run' := by
  rcases get?_updateRun hk with ⟨rfl, run, hrun, rfl⟩ | hk
  · rw [hget] at hrun
    cases hrun
    exact ⟨run₀, hget, hl⟩
  · exact ⟨run', hk, Run.Later.refl run'⟩

/-- **Where the runs come from**: after a step every run is an old one that has followed its life
cycle, unless the step has queued a run. -/
theorem step_runs (h : Step host P t t') :
    (∀ k run', t'.runs.get? k = some run' → ∃ run, t.runs.get? k = some run ∧ run.Later run') ∨
      ∃ event task, t.registry.tasks.get? task.taskId = some task ∧
        event.taskId = some task.taskId ∧ task.generation = event.taskGeneration ∧
        t' = { t with
          registry := { t.registry with uuids := t.registry.uuids + 1 }
          runs := t.runs.put (RunTable.newRun (host.uuid4 t.registry.uuids) event task) } := by
  cases h with
  | reconcile env =>
      refine Or.inl fun k run' hk => ?_
      obtain ⟨run, hrun, rfl⟩ := get?_reconcile hk
      exact ⟨run, hrun, Run.later_reconciled env _ _ run⟩
  | registry | lease | commit | ack =>
      exact Or.inl fun k run' hk => ⟨run', hk, Run.Later.refl run'⟩
  | queue _ event task htask henabled hid hgen htimer hfull =>
      exact Or.inr ⟨event, task, htask, hid, hgen, rfl⟩
  | offer env _ e owner peer skipRunIds run hrun howner hpeer hP =>
      obtain ⟨hget, hpending, _⟩ := nextOffer_spec hrun
      exact Or.inl (later_updateRun hget
        (Run.later_of_waiting rfl rfl (Or.inl hpending)))
  | begin _ owner peer runId offerId run hrun hsay =>
      exact Or.inl (later_updateRun (granted_eq_some hrun).1
        (Run.later_begin (Bool.and_eq_true_iff.1 hsay).1))
  | withdraw _ owner peer runId offerId run hrun hstate =>
      exact Or.inl (later_updateRun (granted_eq_some hrun).1
        (Run.later_of_waiting rfl rfl (Or.inr hstate)))
  | finish _ owner peer runId offerId run outcome code hrun hstate hoffered hP =>
      exact Or.inl (later_updateRun (granted_eq_some hrun).1
        (Run.later_finished hstate outcome code))

/-- **A step follows the life cycle of every run.** -/
theorem step_later (h : Step host P t t') : Later host t t' := by
  refine ⟨(step_follows h).uuids_le, fun k run' hk => ?_⟩
  rcases step_runs h with hold | ⟨event, task, _, _, _, rfl⟩
  · exact Or.inl (hold k run' hk)
  · change (t.runs.put _).get? k = some run' at hk
    rw [Table.get?_put] at hk
    split_ifs at hk with heq
    · exact Or.inr ⟨_, Nat.le_refl _, Nat.lt_succ_self _, heq.symm⟩
    · exact Or.inl ⟨run', hk, Run.Later.refl run'⟩

/-- Exclusion is kept when every active run was active before, for the same task. -/
theorem Exclusive.mono (h : Exclusive t)
    (hback : ∀ k run', t'.runs.get? k = some run' → run'.state.active = true →
      ∃ run, t.runs.get? k = some run ∧ run.state.active = true ∧
        run.event.taskId = run'.event.taskId) : Exclusive t' := by
  intro i j a' b' hi hj ha' hb' hid
  obtain ⟨a, ha, haa, hai⟩ := hback i a' hi ha'
  obtain ⟨b, hb, hba, hbi⟩ := hback j b' hj hb'
  exact h i j a b ha hb haa hba (hai.trans (hid.trans hbi.symm))

/-- Updating a run to one that is not active, or that was active before. -/
theorem exclusive_updateRun (h : Exclusive t) {runId : PyStr} {f : Run → Run}
    {hf : ∀ run, (f run).event.runId = run.event.runId}
    (hid : ∀ run, (f run).event.taskId = run.event.taskId)
    (hact : ∀ run, t.runs.get? runId = some run → (f run).state.active = true →
      run.state.active = true) : Exclusive (t.updateRun runId f hf) := by
  refine h.mono fun k run' hk ha => ?_
  rcases get?_updateRun hk with ⟨rfl, run, hrun, rfl⟩ | hk
  · exact ⟨run, hrun, hact run hrun ha, (hid run).symm⟩
  · exact ⟨run', hk, ha, rfl⟩

theorem RunState.not_active_ofOutcome (outcome : PyStr) :
    (RunState.ofOutcome outcome).active = false := by
  have h := RunState.terminal_ofOutcome outcome
  cases hs : RunState.ofOutcome outcome <;> rw [hs] at h <;> first | rfl | cases h

/-- **A step keeps mutual exclusion.** -/
theorem step_exclusive (h : Step host P t t') (he : Exclusive t) : Exclusive t' := by
  cases h with
  | reconcile env =>
      refine he.mono fun k run' hk ha => ?_
      obtain ⟨run, hrun, rfl⟩ := get?_reconcile hk
      have heq := Run.reconciled_of_active ha
      exact ⟨run, hrun, heq ▸ ha, by rw [heq]⟩
  | registry | lease | commit | ack => exact he
  | queue _ event task htask henabled hid hgen htimer hfull =>
      refine he.mono fun k run' hk ha => ?_
      rw [Table.get?_put] at hk
      split_ifs at hk with heq
      · cases hk
        cases ha
      · exact ⟨run', hk, ha, rfl⟩
  | offer env _ e owner peer skipRunIds run hrun howner hpeer hP =>
      obtain ⟨hget, hpending, hfree, _⟩ := nextOffer_spec hrun
      -- Any other active run of the task would have kept `pull` from offering this one.
      have hother : ∀ k run', t.runs.get? k = some run' → run'.state.active = true →
          run'.event.taskId ≠ run.event.taskId := by
        intro k run' hk ha hid
        exact hfree (hid ▸ mem_occupied hk ha)
      intro i j a b hi hj ha hb hid
      rcases get?_updateRun hi with ⟨rfl, a₀, ha₀, rfl⟩ | hi'
      · rcases get?_updateRun hj with ⟨rfl, _⟩ | hj'
        · rfl
        · rw [hget] at ha₀
          cases ha₀
          exact absurd hid.symm (hother j b hj' hb)
      · rcases get?_updateRun hj with ⟨rfl, b₀, hb₀, rfl⟩ | hj'
        · rw [hget] at hb₀
          cases hb₀
          exact absurd hid (hother i a hi' ha)
        · exact he i j a b hi' hj' ha hb hid
  | begin _ owner peer runId offerId run hrun hsay =>
      refine exclusive_updateRun he (fun _ => rfl) fun run₀ hrun₀ _ => ?_
      rw [(granted_eq_some hrun).1] at hrun₀
      cases hrun₀
      exact (Bool.and_eq_true_iff.1 hsay).1
  | withdraw =>
      exact exclusive_updateRun he (fun _ => rfl) fun _ _ ha => by cases ha
  | finish _ owner peer runId offerId run outcome code =>
      refine exclusive_updateRun he (fun _ => rfl) fun _ _ ha => ?_
      exact absurd ha (by simp [Run.finished, RunState.not_active_ofOutcome])

/-- **A step keeps the identifiers of the runs among those that were handed out.** -/
theorem later_allocated (h : Later host t t') (ha : Allocated host t) : Allocated host t' := by
  intro k run' hk
  rcases h.runs k run' hk with ⟨run, hrun, _⟩ | ⟨n, _, hn, rfl⟩
  · obtain ⟨n, hn, rfl⟩ := ha k run hrun
    exact ⟨n, hn.trans_le h.uuids_le, rfl⟩
  · exact ⟨n, hn, rfl⟩

theorem Rebuilt.later (h : Rebuilt t t') : Later host t t' :=
  later_of_runs h.runs.symm h.uuids_le

/-! ### Fencing -/

/-- The run `runId` is granted to this worker under this offer. -/
def Holds (t : Tables) (owner peer runId offerId : PyStr) : Prop :=
  ∃ run, t.runs.get? runId = some run ∧ run.owner = owner ∧ run.peer = peer ∧
    run.event.offerId = offerId

theorem granted_eq_none {owner peer runId offerId : PyStr}
    (h : ¬ t.Holds owner peer runId offerId) : t.granted owner peer runId offerId = none := by
  rw [Option.eq_none_iff_forall_ne_some]
  intro run hrun
  exact h ⟨run, granted_eq_some hrun⟩

/-- `_reconcile` grants nothing. -/
theorem holds_of_reconcile {env : Env} {owner peer runId offerId : PyStr} (howner : owner ≠ [])
    (h : (t.reconcile env).Holds owner peer runId offerId) :
    t.Holds owner peer runId offerId := by
  obtain ⟨run', hrun', ho, hp, hi⟩ := h
  obtain ⟨run, hrun, rfl⟩ := get?_reconcile hrun'
  unfold Run.reconciled at ho hp hi
  split_ifs at ho hp hi
  · exact ⟨run, hrun, ho, hp, hi⟩
  · exact absurd ho.symm howner
  · exact absurd ho.symm howner
  · exact ⟨run, hrun, ho, hp, hi⟩

end Tables

/-- The run and the offer that a `begin`, `valid`, `finish` or `publish_result` names. -/
def WorkerOp.Names (runId offerId : PyStr) : WorkerOp → Prop
  | WorkerOp.begin r o => r = runId ∧ o = offerId
  | WorkerOp.valid r o => r = runId ∧ o = offerId
  | WorkerOp.finish r o _ _ => r = runId ∧ o = offerId
  | WorkerOp.publishResult r o _ => r = some (Json.str runId) ∧ o = some (Json.str offerId)
  | _ => False

namespace Tables

variable {host : Host} {env : Env} {t t' : Tables}

/-- **A request that names a grant which is not the current one changes no run** beyond what
`_reconcile` does. -/
theorem worker_stale {owner peer runId offerId : PyStr} {op : WorkerOp} {reply : Reply}
    (hop : op.Names runId offerId) (hstale : ¬ t.Holds owner peer runId offerId)
    (h : t.worker host env owner peer op = Except.ok (reply, t')) :
    t'.runs = (t.reconcile env).runs := by
  obtain ⟨_, hid, h⟩ := bind_eq_ok_iff.1 h
  rw [raiseIf_eq_ok_iff, not_or] at hid
  have hnone : (t.reconcile env).granted owner peer runId offerId = none :=
    granted_eq_none fun hh => hstale (holds_of_reconcile hid.2 hh)
  cases op with
  | heartbeat | offline | pull => exact hop.elim
  | publishResult r o result =>
      obtain ⟨⟨b, queryResults⟩, _, h⟩ := bind_eq_ok_iff.1 h
      cases h
      rfl
  | begin r o =>
      obtain ⟨rfl, rfl⟩ := hop
      cases h
      simp only [begin, hnone]
  | valid r o =>
      cases h
      rfl
  | finish r o outcome statusCode =>
      obtain ⟨rfl, rfl⟩ := hop
      obtain ⟨⟨b, t₁⟩, hf, h⟩ := bind_eq_ok_iff.1 h
      cases h
      simp only [finish, hnone] at hf
      cases hf
      rfl

end Tables

namespace TaskEngine

open Tables (Step Permits Later Exclusive Allocated Rebuilt)
open Relation (ReflTransGen)

variable {host : Host} {s s' : TaskEngine}

theorem steps_later {P : Permits} {t t' : Tables}
    (h : ReflTransGen (Step host P) t t') : Later host t t' := by
  induction h with
  | refl => exact Later.refl t
  | tail _ hs ih => exact ih.trans (Tables.step_later hs)

/-- **Every input follows the life cycle of every run.** -/
theorem respond_later (hrow : s.RowHolds) (i : Input) :
    Later host s.toTables (s.respond host i).2.toTables := by
  rcases respond_effect host hrow (s.allowed_all i) with ⟨_, _, hsteps⟩ | ⟨_, hr⟩
  · exact steps_later hsteps
  · exact hr.later

/-- Along every run of the engine, each run of the table follows its life cycle. -/
theorem leads_later (hs : (machine host).Reachable s)
    (h : (machine host).Leads (fun _ _ => True) s s') : Later host s.toTables s'.toTables := by
  have hboth : (machine host).Reachable s' ∧ Later host s.toTables s'.toTables := by
    refine h.invariant (I := fun u => (machine host).Reachable u ∧
      Later host s.toTables u.toTables) ⟨hs, Later.refl _⟩ ?_
    intro u i hu _
    exact ⟨hu.1.step i, hu.2.trans (respond_later (rowHolds_of_reachable hu.1) i)⟩
  exact hboth.2

theorem allocated_of_reachable (hs : (machine host).Reachable s) :
    Allocated host s.toTables := by
  refine hs.invariant (I := fun u => Allocated host u.toTables) ?_ ?_
  · rintro s ⟨offset, now, tasks, bindings, uuids, _, rfl⟩ k run hk
    cases hk
  · intro u i hu ha
    exact Tables.later_allocated (respond_later (rowHolds_of_reachable hu) i) ha

theorem exclusive_of_reachable (hs : (machine host).Reachable s) : Exclusive s.toTables := by
  refine tables_invariant (P := Permits.all) (I := Exclusive)
    (hs.mono fun s i _ => s.allowed_all i) ?_ ?_ ?_
  · intro now tasks bindings uuids _ i j a b hi
    cases hi
  · intro t t' he hstep
    exact Tables.step_exclusive hstep he
  · intro t t' he hr i j a b hi hj
    rw [← hr.runs] at hi hj
    exact he i j a b hi hj

/-- A run that is still in the table later has followed its life cycle. -/
theorem later_run (hs : (machine host).Reachable s)
    (h : (machine host).Leads (fun _ _ => True) s s') {k : PyStr} {run run' : Run}
    (hk : s.runs.get? k = some run) (hk' : s'.runs.get? k = some run') : run.Later run' := by
  rcases (leads_later hs h).runs k run' hk' with ⟨run₀, hrun₀, hl⟩ | ⟨n, hn, _, rfl⟩
  · rw [hk] at hrun₀
    cases hrun₀
    exact hl
  · obtain ⟨m, hm, heq⟩ := allocated_of_reachable hs _ _ hk
    have := host.uuid4_injective heq
    omega

/-- **The life cycle of runs.**  In every reachable state:

* at most one run of each task is offered or running;
* in every later state, a run that has ended has the same state, and a run that has begun is still
  running with the same owner, peer and offer, or has ended;
* a `begin`, `valid`, `finish` or `publish_result` that names a grant which is not the current one
  leaves the runs as `_reconcile` leaves them, or raises and leaves them as they were. -/
theorem lifecycle (hs : (machine host).Reachable s) :
    (∀ i j a b, s.runs.get? i = some a → s.runs.get? j = some b → a.state.active = true →
      b.state.active = true → a.event.taskId = b.event.taskId → i = j) ∧
    (∀ s', (machine host).Leads (fun _ _ => True) s s' → ∀ k run run',
      s.runs.get? k = some run → s'.runs.get? k = some run' →
      (run.state.terminal = true → run'.state = run.state) ∧
      (run.state = RunState.running →
        (run'.state = RunState.running ∧ run'.owner = run.owner ∧ run'.peer = run.peer ∧
          run'.event.offerId = run.event.offerId) ∨ run'.state.terminal = true)) ∧
    (∀ env owner peer op runId offerId, WorkerOp.Names runId offerId op →
      ¬ s.toTables.Holds owner peer runId offerId →
      ((s.call host env (Op.worker owner op) peer).2.runs = (s.toTables.reconcile env).runs ∨
        (∃ e, (s.call host env (Op.worker owner op) peer).1 = Except.error e) ∧
          (s.call host env (Op.worker owner op) peer).2.runs = s.runs)) := by
  refine ⟨exclusive_of_reachable hs, ?_, ?_⟩
  · intro s' hl k run run' hk hk'
    have h := later_run hs hl hk hk'
    refine ⟨fun hend => by rw [h.ended hend], fun hrun => ?_⟩
    obtain ⟨hoffer, hs | hend, hheld⟩ := h.begun hrun
    · refine Or.inl ⟨hs, ?_⟩
      rcases hheld with hint | ⟨ho, hp⟩
      · rw [hs] at hint
        cases hint
      · exact ⟨ho, hp, hoffer⟩
    · exact Or.inr hend
  · intro env owner peer op runId offerId hop hstale
    rcases transact_cases env (fun t => t.dispatch host env peer (Op.worker owner op)) s with
      ⟨e, t, ht⟩ | ⟨reply, t, row, hb, ht, _⟩
    · refine Or.inr ⟨⟨e, by rw [call, ht]⟩, ?_⟩
      rw [call, ht]
      exact (rollback_agree t s).runs
    · refine Or.inl ?_
      rw [call, ht]
      exact Tables.worker_stale hop hstale hb

/-- A worker that has begun a run. -/
def oneRun : List Input :=
  oneTask ++ [Input.call Env.quiet (Op.runTask 1) [],
    Input.call Env.quiet (Op.worker "w" (WorkerOp.pull "litert" [] [])) "p",
    Input.call Env.quiet
      (Op.worker "w" (WorkerOp.begin (Host.ascii.uuid4 1) (Host.ascii.uuid4 2))) "p"]

/-- Another process tries to finish that run. -/
theorem lifecycle_stale_finish :
    ((after Host.ascii oneRun).call Host.ascii Env.quiet (Op.worker "w"
      (WorkerOp.finish (Host.ascii.uuid4 1) (Host.ascii.uuid4 2) none none)) "q").2.runs =
        ((after Host.ascii oneRun).toTables.reconcile Env.quiet).runs ∨
      (∃ e, ((after Host.ascii oneRun).call Host.ascii Env.quiet (Op.worker "w"
        (WorkerOp.finish (Host.ascii.uuid4 1) (Host.ascii.uuid4 2) none none)) "q").1 =
          Except.error e) ∧
        ((after Host.ascii oneRun).call Host.ascii Env.quiet (Op.worker "w"
          (WorkerOp.finish (Host.ascii.uuid4 1) (Host.ascii.uuid4 2) none none)) "q").2.runs =
            (after Host.ascii oneRun).runs := by
  refine (lifecycle (reachable_after Host.ascii oneRun)).2.2 Env.quiet "w" "q" _
    (Host.ascii.uuid4 1) (Host.ascii.uuid4 2) ⟨rfl, rfl⟩ ?_
  rintro ⟨run, hrun, -, hpeer, -⟩
  have hp : ((after Host.ascii oneRun).runs.get? (Host.ascii.uuid4 1)).all
      (fun run => decide (run.peer = PyStr.ofString "p")) = true := by decide +kernel
  rw [hrun, Option.all_some, decide_eq_true_eq, hpeer] at hp
  exact absurd hp (by decide)

end TaskEngine
