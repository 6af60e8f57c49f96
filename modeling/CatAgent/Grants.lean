/-
**Grants and generations over time.**

A grant is an offer of a run to a worker, under a fresh identifier.  An active run keeps its grant,
so a grant that is current now was either current before or is new.  The same bookkeeping says
what the generation of a task tells a worker that has read the task earlier: as long as the
generation is the same, the method of the task is.

Main definitions:

* `Run.SameGrant` — two records of a run with the same grant;
* `Tables.Held` — the grant of an active run names a worker.

Main results:

* `Tables.step_grants`, `Tables.step_active` — **a step makes one offer at most**, under a fresh
  identifier;
* `TaskEngine.held_of_reachable` — the owner and the peer of an active run are not empty;
* `TaskEngine.method_of_generation` — **a generation determines the method of its task**.
-/

import CatAgent.Lifecycle

set_option relaxedAutoImplicit false
set_option autoImplicit false

/-- The two records of a run name the same grant. -/
structure Run.SameGrant (run run' : Run) : Prop where
  owner : run'.owner = run.owner
  peer : run'.peer = run.peer
  offerId : run'.event.offerId = run.event.offerId

namespace Tables

variable {host : Host} {P : Permits} {t t' : Tables}

/-- **A step makes one offer at most**: every active run has kept its grant, or one run was offered
under a fresh identifier and all others are what they were. -/
theorem step_grants (h : Step host P t t') :
    (∀ k run', t'.runs.get? k = some run' → run'.state.active = true →
      ∃ run, t.runs.get? k = some run ∧ run.state.active = true ∧ run.SameGrant run') ∨
    ∃ k₀ run₀, t'.runs.get? k₀ = some run₀ ∧ run₀.state = RunState.offered ∧ run₀.owner ≠ [] ∧
      run₀.peer ≠ [] ∧ t'.registry.uuids = t.registry.uuids + 1 ∧
      run₀.event.offerId = host.uuid4 t.registry.uuids ∧
      ∀ k run', k ≠ k₀ → t'.runs.get? k = some run' → t.runs.get? k = some run' := by
  have hsame : ∀ {k run'}, t.runs.get? k = some run' → run'.state.active = true →
      ∃ run, t.runs.get? k = some run ∧ run.state.active = true ∧ run.SameGrant run' :=
    fun hget ha => ⟨_, hget, ha, rfl, rfl, rfl⟩
  cases h with
  | reconcile env =>
      refine Or.inl fun k run' hk ha => ?_
      obtain ⟨run, hrun, rfl⟩ := get?_reconcile hk
      have heq := Run.reconciled_of_active ha
      rw [heq] at ha ⊢
      exact ⟨run, hrun, ha, rfl, rfl, rfl⟩
  | registry | lease | commit | ack => exact Or.inl fun _ _ hk ha => hsame hk ha
  | queue _ event task htask henabled hid hgen htimer hfull =>
      refine Or.inl fun k run' hk ha => ?_
      rw [Table.get?_put] at hk
      split_ifs at hk with heq
      · cases hk
        cases ha
      · exact hsame hk ha
  | offer env _ e owner peer skipRunIds run hrun howner hpeer hP =>
      have hget := (nextOffer_spec hrun).1
      refine Or.inr ⟨run.event.runId, run.offered e owner peer (host.uuid4 t.registry.uuids), ?_,
        rfl, howner, hpeer, rfl, rfl, fun k run' hne hk => ?_⟩
      · rw [offer_eq_updateRun]
        exact get?_updateRun_self hget
      · rcases get?_updateRun hk with ⟨heq, _⟩ | hk
        · exact absurd heq hne
        · exact hk
  | begin _ owner peer runId offerId run hrun hsay =>
      refine Or.inl fun k run' hk ha => ?_
      rcases get?_updateRun hk with ⟨rfl, run₀, hrun₀, rfl⟩ | hk
      · rw [(granted_eq_some hrun).1] at hrun₀
        cases hrun₀
        exact ⟨run, (granted_eq_some hrun).1, (Bool.and_eq_true_iff.1 hsay).1, rfl, rfl, rfl⟩
      · exact hsame hk ha
  | withdraw _ owner peer runId offerId run hrun hstate =>
      refine Or.inl fun k run' hk ha => ?_
      rcases get?_updateRun hk with ⟨rfl, run₀, _, rfl⟩ | hk
      · cases ha
      · exact hsame hk ha
  | finish _ owner peer runId offerId run outcome code hrun hstate hoffered hP =>
      refine Or.inl fun k run' hk ha => ?_
      rcases get?_updateRun hk with ⟨rfl, run₀, _, rfl⟩ | hk
      · have hend : (RunState.ofOutcome outcome).active = true := ha
        rw [RunState.not_active_ofOutcome] at hend
        cases hend
      · exact hsame hk ha

/-- **An active run has an old grant or a fresh one**, which names a worker. -/
theorem step_active (h : Step host P t t') {k : PyStr} {run' : Run}
    (hk : t'.runs.get? k = some run') (ha : run'.state.active = true) :
    (∃ run, t.runs.get? k = some run ∧ run.state.active = true ∧ run.SameGrant run') ∨
      (run'.state = RunState.offered ∧ run'.owner ≠ [] ∧ run'.peer ≠ [] ∧
        t'.registry.uuids = t.registry.uuids + 1 ∧
        run'.event.offerId = host.uuid4 t.registry.uuids) := by
  rcases step_grants h with hold | ⟨k₀, run₀, hget, hstate, howner, hpeer, huuids, hoffer, hrest⟩
  · exact Or.inl (hold k run' hk ha)
  · by_cases hne : k = k₀
    · subst hne
      rw [hget] at hk
      cases hk
      exact Or.inr ⟨hstate, howner, hpeer, huuids, hoffer⟩
    · exact Or.inl ⟨run', hrest k run' hne hk, ha, rfl, rfl, rfl⟩

/-- The grant of an active run names a worker. -/
def Held (t : Tables) : Prop :=
  ∀ k run, t.runs.get? k = some run → run.state.active = true → run.owner ≠ [] ∧ run.peer ≠ []

/-- Generations are not ahead of the supply of identifiers. -/
def GenerationsOld (host : Host) (t : Tables) : Prop :=
  ∀ k task, t.registry.tasks.get? k = some task → ∀ n, t.registry.uuids ≤ n →
    task.generation ≠ host.uuid4 n

theorem generationsOld_of_tasksFollow (h : GenerationsOld host t)
    (hle : t.registry.uuids ≤ t'.registry.uuids)
    (hf : Registry.TasksFollow host t.registry.uuids t'.registry.uuids t.registry.tasks
      t'.registry.tasks) : GenerationsOld host t' := by
  intro k task' hk n hn
  rcases hf k task' hk with ⟨task, htask, hg, _⟩ | ⟨m, _, hm, hg⟩
  · rw [← hg]
    exact h k task htask n (hle.trans hn)
  · intro heq
    have := host.uuid4_injective (hg.symm.trans heq)
    omega

end Tables

namespace TaskEngine

open Tables (Step Permits Held GenerationsOld Rebuilt)
open Relation (ReflTransGen)

variable {host : Host} {s s' : TaskEngine}

theorem held_of_reachable (hs : (machine host).Reachable s) : Held s.toTables := by
  refine tables_invariant (P := Permits.all) (I := Held)
    (hs.mono fun s i _ => s.allowed_all i) ?_ ?_ ?_
  · intro now tasks bindings uuids _ k run hk
    cases hk
  · intro t t' h hstep k run' hk ha
    rcases Tables.step_active hstep hk ha with ⟨run, hrun, hact, hsame⟩ | ⟨_, howner, hpeer, _⟩
    · rw [hsame.owner, hsame.peer]
      exact h k run hrun hact
    · exact ⟨howner, hpeer⟩
  · intro t t' h hr k run hk ha
    rw [← hr.runs] at hk
    exact h k run hk ha

/-! ### Tasks -/

/-- Steps of the tables follow the rules of the registry. -/
theorem steps_follows {P : Permits} {t t' : Tables}
    (h : ReflTransGen (Step host P) t t') : Registry.Follows host t.registry t'.registry := by
  induction h with
  | refl => exact Registry.Follows.refl _
  | tail _ hs ih => exact ih.trans (Tables.step_follows hs)

/-- The tasks follow the rules of the registry along every input. -/
theorem respond_tasks (hrow : s.RowHolds) (i : Input) :
    s.registry.uuids ≤ (s.respond host i).2.registry.uuids ∧
      Registry.TasksFollow host s.registry.uuids (s.respond host i).2.registry.uuids
        s.registry.tasks (s.respond host i).2.registry.tasks := by
  rcases respond_effect host hrow (s.allowed_all i) with ⟨_, _, hsteps⟩ | ⟨_, hr⟩
  · exact ⟨(steps_follows hsteps).uuids_le, (steps_follows hsteps).tasks⟩
  · exact ⟨hr.uuids_le, hr.tasksFollow⟩

theorem leads_tasks (hs : (machine host).Reachable s)
    (h : (machine host).Leads (fun _ _ => True) s s') :
    s.registry.uuids ≤ s'.registry.uuids ∧
      Registry.TasksFollow host s.registry.uuids s'.registry.uuids s.registry.tasks
        s'.registry.tasks := by
  have hboth : (machine host).Reachable s' ∧ s.registry.uuids ≤ s'.registry.uuids ∧
      Registry.TasksFollow host s.registry.uuids s'.registry.uuids s.registry.tasks
        s'.registry.tasks := by
    refine h.invariant (I := fun u => (machine host).Reachable u ∧
      s.registry.uuids ≤ u.registry.uuids ∧ Registry.TasksFollow host s.registry.uuids
        u.registry.uuids s.registry.tasks u.registry.tasks)
      ⟨hs, Nat.le_refl _, Registry.TasksFollow.refl _⟩ ?_
    intro u i hu _
    obtain ⟨hle, hf⟩ := respond_tasks (rowHolds_of_reachable hu.1) i
    exact ⟨hu.1.step i, hu.2.1.trans hle, hu.2.2.trans hu.2.1 hle hf⟩
  exact hboth.2

theorem generationsOld_of_reachable (hs : (machine host).Reachable s) :
    GenerationsOld host s.toTables := by
  refine hs.invariant (I := fun u => GenerationsOld host u.toTables) ?_ ?_
  · rintro s ⟨offset, now, tasks, bindings, uuids, himp, rfl⟩
    exact himp.generation_old
  · intro u i hu h
    obtain ⟨hle, hf⟩ := respond_tasks (rowHolds_of_reachable hu) i
    exact Tables.generationsOld_of_tasksFollow h hle hf

/-- **A generation determines the method of its task**: a task that has the same number and the
same generation as an earlier one has the same method. -/
theorem method_of_generation (hs : (machine host).Reachable s)
    (h : (machine host).Leads (fun _ _ => True) s s') {k : ℤ} {task task' : TaskRecord}
    (hk : s.registry.tasks.get? k = some task) (hk' : s'.registry.tasks.get? k = some task')
    (hgen : task'.generation = task.generation) : task'.method = task.method := by
  rcases (leads_tasks hs h).2 k task' hk' with ⟨task₀, htask₀, _, _, hm⟩ | ⟨n, hn, _, hg⟩
  · rw [hk] at htask₀
    cases htask₀
    exact hm.symm
  · exact absurd (hgen.symm.trans hg) (generationsOld_of_reachable hs k task hk n hn)

end TaskEngine
