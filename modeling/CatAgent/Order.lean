/-
**The order of the runs of one task.**

Runs are queued one after the other, and the runs of one task that belong to the same generation
should start in that order.  `pull` offers the first pending run that passes its filters.  All
filters but one treat the runs of a task and generation alike: they have the same policy, and the
task is either free or not.  The exception is the list of deferred runs that a worker sends
along: it removes a run from the scan but leaves its successors in it, and then a later run
overtakes an earlier one.

So the order is a property of the runs in which this does not happen.

Main definitions:

* `Tables.StartsInOrder` — no run of a task is running while an earlier one of the same generation
  has not ended;
* `Tables.NoOvertaking` — the worker skips no earlier run of the run that it is offered.

Main results:

* `Tables.step_ordered` — the step lemma;
* `TaskEngine.startsInOrder` — **without overtaking, runs start in order**;
* `TaskEngine.not_startsInOrder` — with it they need not.
-/

import CatAgent.Lifecycle

set_option relaxedAutoImplicit false
set_option autoImplicit false

/-- Two runs of the same task and generation. -/
def Run.Sibling (a b : Run) : Prop :=
  a.event.taskId = b.event.taskId ∧ a.event.taskGeneration = b.event.taskGeneration

namespace Tables

/-- No run is running while an earlier run of the same task and generation has not ended. -/
def StartsInOrder (t : Tables) : Prop :=
  ∀ i j a b, t.runs.Before i j → t.runs.get? i = some a → t.runs.get? j = some b → a.Sibling b →
    b.state = RunState.running → a.state.terminal = true

/-- The same for runs that are offered or running. -/
def Ordered (t : Tables) : Prop :=
  ∀ i j a b, t.runs.Before i j → t.runs.get? i = some a → t.runs.get? j = some b → a.Sibling b →
    b.state.active = true → a.state.terminal = true

/-- The run that is offered overtakes no pending run of its task and generation that the worker
skips. -/
def NoOvertaking (_ : Env) (skipRunIds : List PyStr) (t : Tables) (run : Run) : Prop :=
  ∀ i a, t.runs.Before i run.event.runId → t.runs.get? i = some a → a.Sibling run →
    a.state = RunState.pending → i ∉ skipRunIds

/-- No pull overtakes a run that it skips. -/
def overtakesNobody : Permits := { Permits.all with offer := NoOvertaking }

/-- Generations are not ahead of the supply, and the runs of a generation have the policy of its
task. -/
structure Policed (host : Host) (t : Tables) : Prop where
  task_old : ∀ k task, t.registry.tasks.get? k = some task → ∀ n, t.registry.uuids ≤ n →
    task.generation ≠ host.uuid4 n
  run_old : ∀ k run, t.runs.get? k = some run → ∀ n, t.registry.uuids ≤ n →
    run.event.taskGeneration ≠ host.uuid4 n
  policy : ∀ k run, t.runs.get? k = some run → ∀ k' task, t.registry.tasks.get? k' = some task →
    task.generation = run.event.taskGeneration → run.event.taskId = some k' →
    run.policy = some task.executor
  siblings : ∀ i j a b, t.runs.get? i = some a → t.runs.get? j = some b → a.Sibling b →
    a.policy = b.policy
  written : ∀ k run, t.runs.get? k = some run → run.policy ≠ none

variable {host : Host} {P : Permits} {t t' : Tables}

/-! ### Policies -/

/-- Policies stay right when the tasks follow the rules of the registry and the runs only move
along their life cycles. -/
theorem Policed.of_follows (h : Policed host t)
    (hr : Registry.Follows host t.registry t'.registry)
    (hruns : ∀ k run', t'.runs.get? k = some run' → ∃ run, t.runs.get? k = some run ∧
      run.Later run') : Policed host t' where
  task_old := by
    intro k task' hk n hn
    rcases hr.tasks k task' hk with ⟨task, htask, hg, _⟩ | ⟨m, _, hm, hg⟩
    · rw [← hg]
      exact h.task_old k task htask n (hr.uuids_le.trans hn)
    · intro heq
      have := host.uuid4_injective (hg.symm.trans heq)
      omega
  run_old := by
    intro k run' hk n hn
    obtain ⟨run, hrun, hl⟩ := hruns k run' hk
    rw [hl.taskGeneration]
    exact h.run_old k run hrun n (hr.uuids_le.trans hn)
  policy := by
    intro k run' hk k' task' hk' hg hid
    obtain ⟨run, hrun, hl⟩ := hruns k run' hk
    rw [hl.taskGeneration] at hg
    rw [hl.taskId] at hid
    rcases hr.tasks k' task' hk' with ⟨task, htask, hg', he, _⟩ | ⟨m, hm, _, hg'⟩
    · rw [hl.policy, ← he]
      exact h.policy k run hrun k' task htask (hg'.trans hg) hid
    · exact absurd (hg.symm.trans hg') (h.run_old k run hrun m hm)
  siblings := by
    intro i j a' b' hi hj hab
    obtain ⟨a, ha, hla⟩ := hruns i a' hi
    obtain ⟨b, hb, hlb⟩ := hruns j b' hj
    rw [hla.policy, hlb.policy]
    refine h.siblings i j a b ha hb ⟨?_, ?_⟩
    · rw [← hla.taskId, ← hlb.taskId]
      exact hab.1
    · rw [← hla.taskGeneration, ← hlb.taskGeneration]
      exact hab.2
  written := by
    intro k run' hk
    obtain ⟨run, hrun, hl⟩ := hruns k run' hk
    rw [hl.policy]
    exact h.written k run hrun

/-- A queued run has the policy of its task, and so have its siblings. -/
theorem Policed.of_queue (h : Policed host t) {event : SystemEvent} {task : TaskRecord}
    (htask : t.registry.tasks.get? task.taskId = some task)
    (hid : event.taskId = some task.taskId) (hgen : task.generation = event.taskGeneration) :
    Policed host
      { t with
        registry := { t.registry with uuids := t.registry.uuids + 1 }
        runs := t.runs.put (RunTable.newRun (host.uuid4 t.registry.uuids) event task) } := by
  have hcases : ∀ k run', (t.runs.put
      (RunTable.newRun (host.uuid4 t.registry.uuids) event task)).get? k = some run' →
      run' = RunTable.newRun (host.uuid4 t.registry.uuids) event task ∨
        t.runs.get? k = some run' := by
    intro k run' hk
    rw [Table.get?_put] at hk
    split_ifs at hk
    · exact Or.inl (Option.some.inj hk).symm
    · exact Or.inr hk
  -- An old run of this task and generation has the policy of the task.
  have hold : ∀ k run, t.runs.get? k = some run → run.event.taskId = event.taskId →
      run.event.taskGeneration = event.taskGeneration → run.policy = some task.executor :=
    fun k run hk hi hg => h.policy k run hk task.taskId task htask (hgen.trans hg.symm)
      (hi.trans hid)
  refine ⟨?_, ?_, ?_, ?_, ?_⟩
  · intro k task' hk n hn
    exact h.task_old k task' hk n ((Nat.le_succ _).trans hn)
  · intro k run' hk n hn
    rcases hcases k run' hk with rfl | hk
    · change event.taskGeneration ≠ _
      rw [← hgen]
      exact h.task_old _ task htask n ((Nat.le_succ _).trans hn)
    · exact h.run_old k run' hk n ((Nat.le_succ _).trans hn)
  · intro k run' hk k' task' hk' hg hi
    rcases hcases k run' hk with rfl | hk
    · change event.taskId = some k' at hi
      obtain rfl : task.taskId = k' := Option.some.inj (hid.symm.trans hi)
      change t.registry.tasks.get? task.taskId = some task' at hk'
      rw [htask] at hk'
      cases hk'
      rfl
    · exact h.policy k run' hk k' task' hk' hg hi
  · intro i j a b hi hj hab
    rcases hcases i a hi with rfl | hi
    · rcases hcases j b hj with rfl | hj
      · rfl
      · exact (hold j b hj hab.1.symm hab.2.symm).symm
    · rcases hcases j b hj with rfl | hj
      · exact hold i a hi hab.1 hab.2
      · exact h.siblings i j a b hi hj hab
  · intro k run' hk
    rcases hcases k run' hk with rfl | hk
    · exact Option.some_ne_none _
    · exact h.written k run' hk

/-- **A step keeps the policies right.** -/
theorem step_policed (h : Step host P t t') (hp : Policed host t) : Policed host t' := by
  rcases step_runs h with hold | ⟨event, task, htask, hid, hgen, rfl⟩
  · exact hp.of_follows (step_follows h) hold
  · exact hp.of_queue htask hid hgen

theorem rebuilt_policed (h : Rebuilt t t') (hp : Policed host t) : Policed host t' where
  task_old := fun k task hk n hn =>
    hp.task_old k task ((h.tasks k).trans hk) n (h.uuids_le.trans hn)
  run_old := fun k run hk n hn => hp.run_old k run (h.runs ▸ hk) n (h.uuids_le.trans hn)
  policy := fun k run hk k' task hk' =>
    hp.policy k run (h.runs ▸ hk) k' task ((h.tasks k').trans hk')
  siblings := fun i j a b hi hj => hp.siblings i j a b (h.runs ▸ hi) (h.runs ▸ hj)
  written := fun k run hk => hp.written k run (h.runs ▸ hk)

/-! ### The order -/

/-- Order is kept by a step that keeps the iteration order and the life cycles, and makes no run
active. -/
theorem Ordered.mono (h : Ordered t) (hbefore : ∀ i j, t'.runs.Before i j → t.runs.Before i j)
    (hruns : ∀ k run', t'.runs.get? k = some run' → ∃ run, t.runs.get? k = some run ∧
      run.Later run' ∧ (run'.state.active = true → run.state.active = true)) : Ordered t' := by
  intro i j a' b' hij hi hj hab hact
  obtain ⟨a, ha, hla, _⟩ := hruns i a' hi
  obtain ⟨b, hb, hlb, hback⟩ := hruns j b' hj
  have hsib : a.Sibling b := by
    refine ⟨?_, ?_⟩
    · rw [← hla.taskId, ← hlb.taskId]
      exact hab.1
    · rw [← hla.taskGeneration, ← hlb.taskGeneration]
      exact hab.2
  have hend := h i j a b (hbefore i j hij) ha hb hsib (hback hact)
  rw [hla.ended hend]
  exact hend

/-- An update of one run that follows its life cycle and makes no run active. -/
theorem ordered_updateRun (h : Ordered t) {runId : PyStr} {f : Run → Run}
    {hf : ∀ run, (f run).event.runId = run.event.runId} {run₀ : Run}
    (hget : t.runs.get? runId = some run₀) (hl : run₀.Later (f run₀))
    (hact : (f run₀).state.active = true → run₀.state.active = true) :
    Ordered (t.updateRun runId f hf) := by
  refine h.mono (fun i j hij => Table.Before.of_modify hf hij) fun k run' hk => ?_
  rcases get?_updateRun hk with ⟨rfl, run, hrun, rfl⟩ | hk
  · rw [hget] at hrun
    cases hrun
    exact ⟨run₀, hget, hl, hact⟩
  · exact ⟨run', hk, Run.Later.refl run', id⟩

/-- Siblings pass the same filters of `pull`. -/
theorem Policed.policyOf_eq (h : Policed host t) {i j : PyStr} {a b : Run}
    (ha : t.runs.get? i = some a) (hb : t.runs.get? j = some b) (hab : a.Sibling b) :
    a.policyOf = b.policyOf := by
  have heq := h.siblings i j a b ha hb hab
  cases hp : a.policy with
  | none => exact absurd hp (h.written i a ha)
  | some p =>
      rw [hp] at heq
      simp only [Run.policyOf, hp, ← heq]

/-- The siblings before the run that is offered have ended, if it overtakes nobody. -/
theorem ended_of_nextOffer {env : Env} {e : Executor} {owner peer : PyStr}
    {skipRunIds : List PyStr} {run : Run} (hp : Policed host t)
    (hrun : t.runs.nextOffer env t.workers e owner peer skipRunIds = some run)
    (hno : NoOvertaking env skipRunIds t run) {i : PyStr} {a : Run}
    (hi : t.runs.Before i run.event.runId) (ha : t.runs.get? i = some a)
    (hsib : a.Sibling run) : a.state.terminal = true := by
  obtain ⟨hget, _, hfree, _, helig⟩ := nextOffer_spec hrun
  cases hs : a.state with
  | pending =>
      -- `pull` would have offered `a`, which stands before `run` and passes the same filters.
      have hfirst := Table.Before.of_find? hrun hi ha
      have hskip := hno i a hi ha hsib hs
      rw [← Table.key_of_get? (t := t.runs) ha] at hskip
      have hfree' : a.event.taskId ∉ t.runs.occupied := hsib.1 ▸ hfree
      rw [← hp.policyOf_eq ha hget hsib] at helig
      simp [hs, hfree', hskip, helig] at hfirst
  | offered | running =>
      have hocc := mem_occupied ha (by rw [hs]; rfl)
      rw [hsib.1] at hocc
      exact absurd hocc hfree
  | _ => rfl

/-- Offering the first eligible run, if it overtakes nobody. -/
theorem ordered_offer {env : Env} {e : Executor} {owner peer : PyStr} {skipRunIds : List PyStr}
    {run : Run} (h : Ordered t) (hp : Policed host t)
    (hrun : t.runs.nextOffer env t.workers e owner peer skipRunIds = some run)
    (hno : NoOvertaking env skipRunIds t run) :
    Ordered (t.offer host e owner peer run.event.runId) := by
  obtain ⟨hget, hpending, _⟩ := nextOffer_spec hrun
  intro i j a b hij hi hj hab hact
  have hij' : t.runs.Before i j := Table.Before.of_modify
    (f := fun run : Run => run.offered e owner peer (host.uuid4 t.registry.uuids))
    (fun _ => rfl) hij
  rcases get?_updateRun hi with ⟨rfl, a₀, ha₀, rfl⟩ | hi'
  · -- The offered run was pending, so nothing after it was active.
    rw [hget] at ha₀
    cases ha₀
    rcases get?_updateRun hj with ⟨rfl, _⟩ | hj'
    · exact absurd rfl hij'.ne
    · have hend := h _ j run b hij' hget hj' hab hact
      rw [hpending] at hend
      cases hend
  · rcases get?_updateRun hj with ⟨rfl, b₀, hb₀, rfl⟩ | hj'
    · rw [hget] at hb₀
      cases hb₀
      exact ended_of_nextOffer hp hrun hno hij' hi' hab
    · exact h i j a b hij' hi' hj' hab hact

/-- **A step keeps the order**, if the offers overtake nobody. -/
theorem step_ordered (hs : Step host overtakesNobody t t') (ha : Allocated host t)
    (hp : Policed host t) (h : Ordered t) : Ordered t' := by
  cases hs with
  | reconcile env =>
      refine h.mono (fun i j hij => (Table.Before.of_filter hij).of_map) fun k run' hk => ?_
      obtain ⟨run, hrun, rfl⟩ := get?_reconcile hk
      refine ⟨run, hrun, Run.later_reconciled env _ _ run, fun hact => ?_⟩
      rwa [Run.reconciled_of_active hact] at hact
  | registry | lease | commit | ack => exact h
  | queue _ event task htask henabled hid hgen htimer hfull =>
      have hnew : t.runs.get? (host.uuid4 t.registry.uuids) = none := by
        rw [Option.eq_none_iff_forall_ne_some]
        intro run hrun
        obtain ⟨n, hn, heq⟩ := ha _ run hrun
        have := host.uuid4_injective heq
        omega
      intro i j a b hij hi hj hab hact
      change (t.runs.put _).get? i = some a at hi
      change (t.runs.put _).get? j = some b at hj
      rw [Table.get?_put, RunTable.newRun_runId] at hi hj
      rcases Table.Before.of_put_new hnew hij with hij | ⟨rfl, _⟩
      · -- Both keys are old.
        have hne : ∀ k ∈ t.runs.keys, host.uuid4 t.registry.uuids ≠ k := by
          rintro k hk rfl
          exact Table.get?_eq_none_iff.1 hnew hk
        rw [if_neg (hne i hij.left_mem)] at hi
        rw [if_neg (hne j hij.right_mem)] at hj
        exact h i j a b hij hi hj hab hact
      · -- A queued run is pending.
        rw [RunTable.newRun_runId, if_pos rfl] at hj
        cases hj
        cases hact
  | offer env _ e owner peer skipRunIds run hrun howner hpeer hP => exact ordered_offer h hp hrun hP
  | begin _ owner peer runId offerId run hrun hsay =>
      exact ordered_updateRun h (granted_eq_some hrun).1
        (Run.later_begin (Bool.and_eq_true_iff.1 hsay).1)
        fun _ => (Bool.and_eq_true_iff.1 hsay).1
  | withdraw _ owner peer runId offerId run hrun hstate =>
      exact ordered_updateRun h (granted_eq_some hrun).1
        (Run.later_of_waiting rfl rfl (Or.inr hstate)) fun hact => by cases hact
  | finish _ owner peer runId offerId run outcome code hrun hstate hoffered hP =>
      refine ordered_updateRun h (granted_eq_some hrun).1
        (Run.later_finished hstate outcome code) fun hact => ?_
      exact absurd hact (by simp [Run.finished, RunState.not_active_ofOutcome])

end Tables

namespace TaskEngine

open Tables (Permits overtakesNobody StartsInOrder Ordered Policed Allocated)

variable {host : Host} {s : TaskEngine}

theorem policed_of_reachable (hs : (machine host).Reachable s) : Policed host s.toTables := by
  refine tables_invariant (P := Permits.all) (I := Policed host)
    (hs.mono fun s i _ => s.allowed_all i) ?_ ?_ ?_
  · intro now tasks bindings uuids himp
    refine ⟨himp.generation_old, fun k run hk => ?_, fun k run hk => ?_, fun i j a b hi => ?_,
      fun k run hk => ?_⟩
    · cases hk
    · cases hk
    · cases hi
    · cases hk
  · intro t t' hp hstep
    exact Tables.step_policed hstep hp
  · intro t t' hp hr
    exact Tables.rebuilt_policed hr hp

/-- **The order of runs.**  In every run of the engine in which no pull is answered with a run that
overtakes a pending run of the same task and generation named in its `skip_run_ids`, no run is
running while an earlier run of the same task and generation has not ended. -/
theorem startsInOrder (hs : (machine host).Reach (Allowed overtakesNobody) s) :
    s.toTables.StartsInOrder := by
  have hinv : Allocated host s.toTables ∧ Policed host s.toTables ∧ Ordered s.toTables := by
    refine tables_invariant hs (I := fun t => Allocated host t ∧ Policed host t ∧ Ordered t)
      ?_ ?_ ?_
    · intro now tasks bindings uuids himp
      have hfresh : (machine host).Reach (fun _ _ => True) _ :=
        Machine.Reach.of_init ⟨0, now, tasks, bindings, uuids, himp, rfl⟩
      refine ⟨fun k run hk => ?_, policed_of_reachable hfresh, fun i j a b _ hi => ?_⟩
      · cases hk
      · cases hi
    · rintro t t' ⟨ha, hp, ho⟩ hstep
      exact ⟨Tables.later_allocated (Tables.step_later hstep) ha, Tables.step_policed hstep hp,
        Tables.step_ordered hstep ha hp ho⟩
    · rintro t t' ⟨ha, hp, ho⟩ hr
      refine ⟨Tables.later_allocated hr.later ha, Tables.rebuilt_policed hr hp, ?_⟩
      intro i j a b hij hi hj
      rw [← hr.runs] at hij hi hj
      exact ho i j a b hij hi hj
  intro i j a b hij hi hj hab hrun
  exact hinv.2.2 i j a b hij hi hj hab (by rw [hrun]; rfl)

/-- Two runs of one task, of which a worker is offered the first. -/
def twoRuns : List Input :=
  [Input.call Env.quiet (Op.admin (AdminOp.createTask "watch" "look" [] "litert")) [],
    Input.call Env.quiet (Op.runTask 1) [], Input.call Env.quiet (Op.runTask 1) [],
    Input.call Env.quiet (Op.worker "w" (WorkerOp.pull "litert" [] [])) "p"]

/-- The worker begins the run that it was offered. -/
theorem startsInOrder_twoRuns :
    (after Host.ascii (twoRuns ++ [Input.call Env.quiet
      (Op.worker "w" (WorkerOp.begin (Host.ascii.uuid4 1) (Host.ascii.uuid4 3)))
      "p"])).toTables.StartsInOrder := by
  have hfresh : (machine Host.ascii).init fresh := fresh_init Host.ascii
  refine startsInOrder ⟨fresh, hfresh, Machine.leads_of_guarded ?_⟩
  exact ⟨trivial, trivial, trivial, fun _ _ _ _ _ _ _ _ _ _ _ => List.not_mem_nil, trivial,
    trivial⟩

/-- The worker defers that offer, pulls again and begins the run that it is offered then. -/
def deferral : List Input :=
  let work op := Input.call Env.quiet (Op.worker "w" op) "p"
  let first := Host.ascii.uuid4 1
  [work (WorkerOp.finish first (Host.ascii.uuid4 3) (some "cancelled") none),
    work (WorkerOp.pull "litert" [] [first]),
    work (WorkerOp.begin (Host.ascii.uuid4 2) (Host.ascii.uuid4 4))]

/-- **With deferrals runs need not start in order**: a worker defers the offer of the first run,
pulls again with the first run among its `skip_run_ids`, and begins the second run of the task. -/
theorem not_startsInOrder :
    ¬ ∀ s, (machine Host.ascii).Reachable s → s.toTables.StartsInOrder := by
  intro h
  have hfirst : ((after Host.ascii (twoRuns ++ deferral)).runs.get? (Host.ascii.uuid4 1)).any
      (fun a => decide (a.event.taskId = some 1 ∧ a.event.taskGeneration = Host.ascii.uuid4 0 ∧
        a.state = RunState.pending)) = true := by decide +kernel
  have hsecond : ((after Host.ascii (twoRuns ++ deferral)).runs.get? (Host.ascii.uuid4 2)).any
      (fun b => decide (b.event.taskId = some 1 ∧ b.event.taskGeneration = Host.ascii.uuid4 0 ∧
        b.state = RunState.running)) = true := by decide +kernel
  have hij : (after Host.ascii (twoRuns ++ deferral)).runs.Before (Host.ascii.uuid4 1)
      (Host.ascii.uuid4 2) := by decide +kernel
  obtain ⟨a, ha, hpending⟩ := (Option.any_eq_true _ _).1 hfirst
  obtain ⟨b, hb, hrunning⟩ := (Option.any_eq_true _ _).1 hsecond
  simp only [decide_eq_true_eq] at hpending hrunning
  have hsib : a.Sibling b :=
    ⟨hpending.1.trans hrunning.1.symm, hpending.2.1.trans hrunning.2.1.symm⟩
  have hend := h _ (reachable_after Host.ascii _) _ _ a b hij ha hb hsib hrunning.2.2
  rw [hpending.2.2] at hend
  cases hend

end TaskEngine
