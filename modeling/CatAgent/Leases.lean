/-
**Who is offered what.**

The executor of a task is its policy: a CORE that it is pinned to, or `auto`.  A run of a pinned
task goes to workers that pull for that CORE.  A run of an `auto` task goes to a worker with a live
lease that is ready and registered for what it pulls, and to `litert` only if no `openai` worker is
ready.

Main definitions:

* `Tables.offersNone`, `Tables.registersNone` — nothing is offered, or a given worker sends no
  heartbeat.

Main results:

* `Tables.step_offered` — only an offer makes a run offered;
* `TaskEngine.offered_of_respond` — **a run is offered in answer to a pull that passes the filters**;
* `TaskEngine.respond_unregistered` — a worker that sends no heartbeat stays unregistered.
-/

import CatAgent.Order

set_option relaxedAutoImplicit false
set_option autoImplicit false

/-! ### One run -/

namespace Run

variable {env : Env} {tasks : TaskTable} {workers : WorkerTable} {run : Run}

/-- Only a run that was queued as `auto` is `auto`. -/
theorem policyOf_eq_auto : run.policyOf = some Policy.auto ↔ run.policy = some Policy.auto := by
  unfold policyOf
  cases run.policy with
  | some p => rfl
  | none =>
      cases run.executor with
      | none => simp
      | some e => simp

/-- What is pending after `_reconcile` is current. -/
theorem current_of_pending (h : (run.reconciled env tasks workers).state = RunState.pending) :
    (run.reconciled env tasks workers).current tasks = true := by
  unfold reconciled at h ⊢
  split_ifs at h ⊢ with h₁ h₂ h₃
  · simp only [h₂.1, or_true, true_and, not_not] at h₁
    exact h₁
  · simp only [h, true_or, true_and, not_not] at h₁
    exact h₁

/-- An `auto` offer whose worker is not ready is returned, or cancelled if it is not current. -/
theorem reconciled_of_lost (tasks : TaskTable) (hstate : run.state = RunState.offered)
    (hauto : run.policyOf = some Policy.auto)
    (hlost : workers.workerReady env run.owner run.peer = false) :
    run.reconciled env tasks workers =
      if run.current tasks = true then run.returnPending
      else { run with state := RunState.cancelled } := by
  have hoffer : run.offerLost env workers = true := by
    unfold offerLost
    split_ifs
    · rw [hlost]
      rfl
    · rfl
  unfold reconciled
  by_cases hcurrent : run.current tasks = true
  · rw [if_neg (by simp [hcurrent]), if_pos ⟨hstate, hoffer⟩, if_pos hcurrent]
  · rw [if_pos ⟨Or.inr hstate, hcurrent⟩, if_neg hcurrent]

end Run

/-! ### Offers -/

namespace RunTable

variable {env : Env} {workers : WorkerTable} {e : Executor} {owner peer : PyStr}

/-- A pinned run goes to its CORE. -/
theorem eligible_pinned {p : Executor}
    (h : eligible env workers e owner peer (some (Policy.pinned p)) = true) : p = e := by
  have hsel := (Bool.and_eq_true_iff.1 h).1
  simpa [selected] using hsel

/-- An `auto` run goes to a worker that is ready, and to `litert` only if `openai` is not ready. -/
theorem eligible_auto (h : eligible env workers e owner peer (some Policy.auto) = true) :
    (∃ w, workers.get? (owner, peer) = some w ∧ w.live env = true ∧ w.ready = true ∧
      w.executor = e) ∧
    (e = Executor.litert → ∀ w ∈ workers.values, w.executor = Executor.openai →
      w.live env = true → w.ready = false) := by
  obtain ⟨hsel, hworker⟩ := Bool.and_eq_true_iff.1 h
  constructor
  · cases hget : workers.get? (owner, peer) with
    | none => simp [hget] at hworker
    | some w =>
        simp only [hget, ne_eq, not_true_eq_false, decide_false, Bool.false_or,
          Bool.and_eq_true, decide_eq_true_eq] at hworker
        exact ⟨w, rfl, hworker.1, hworker.2.1, hworker.2.2⟩
  · rintro rfl w hw hexec hlive
    refine Bool.eq_false_iff.2 fun hready => ?_
    have hopenai : (workers.values.any fun w =>
        decide (w.executor = Executor.openai) && w.live env && w.ready) = true :=
      List.any_eq_true.2 ⟨w, hw, by simp [hexec, hlive, hready]⟩
    have hbest : workers.bestReady env = some Executor.openai := by
      simp only [WorkerTable.bestReady, List.find?_cons, hopenai]
    simp [selected, hbest] at hsel

end RunTable

namespace Tables

variable {host : Host} {P : Permits} {t t' : Tables} {k : PyStr} {env : Env}

/-- A given worker sends no heartbeat. -/
def registersNone (owner peer : PyStr) : Permits :=
  { Permits.all with lease := fun key => key ≠ (owner, peer) }

/-- Nothing is offered. -/
def offersNone : Permits := { Permits.all with offer := fun _ _ _ _ => False }

/-- **Only an offer makes a run offered.** -/
theorem step_offered (h : Step host P t t') {run' : Run} (hk : t'.runs.get? k = some run')
    (hstate : run'.state = RunState.offered) :
    (∃ run, t.runs.get? k = some run ∧ run.state = RunState.offered ∧
      run.event.offerId = run'.event.offerId) ∨
    ∃ env skipRunIds run, P.offer env skipRunIds t run := by
  have hsame : t.runs.get? k = some run' → ∃ run, t.runs.get? k = some run ∧
      run.state = RunState.offered ∧ run.event.offerId = run'.event.offerId :=
    fun hget => ⟨run', hget, hstate, rfl⟩
  cases h with
  | reconcile env =>
      obtain ⟨run, hrun, rfl⟩ := get?_reconcile hk
      have heq := Run.reconciled_of_active (by rw [hstate]; rfl)
      rw [heq] at hstate ⊢
      exact Or.inl ⟨run, hrun, hstate, rfl⟩
  | registry | lease | commit | ack => exact Or.inl (hsame hk)
  | queue _ event task htask henabled hid hgen htimer hfull =>
      rw [Table.get?_put] at hk
      split_ifs at hk with heq
      · cases hk
        cases hstate
      · exact Or.inl (hsame hk)
  | offer env _ e owner peer skipRunIds run hrun howner hpeer hP =>
      exact Or.inr ⟨env, skipRunIds, run, hP⟩
  | begin _ owner peer runId offerId run hrun hsay =>
      rcases get?_updateRun hk with ⟨rfl, run₀, _, rfl⟩ | hk
      · cases hstate
      · exact Or.inl (hsame hk)
  | withdraw _ owner peer runId offerId run hrun hoffered =>
      rcases get?_updateRun hk with ⟨rfl, run₀, _, rfl⟩ | hk
      · cases hstate
      · exact Or.inl (hsame hk)
  | finish _ owner peer runId offerId run outcome code hrun hend hoffered hP =>
      rcases get?_updateRun hk with ⟨rfl, run₀, _, rfl⟩ | hk
      · have hact := RunState.not_active_ofOutcome outcome
        rw [show RunState.ofOutcome outcome = RunState.offered from hstate] at hact
        cases hact
      · exact Or.inl (hsame hk)

/-- What a pull that returns offers anew is what passes its filters. -/
theorem offered_of_pull {owner peer name : PyStr} {seen skipRunIds : List PyStr} {reply : Reply}
    (h : t.dispatch host env peer (Op.worker owner (WorkerOp.pull name seen skipRunIds)) =
      Except.ok (reply, t')) {run' : Run} (hk : t'.runs.get? k = some run')
    (hstate : run'.state = RunState.offered) :
    (∃ run, t.runs.get? k = some run ∧ run.state = RunState.offered ∧
      run.event.offerId = run'.event.offerId) ∨
    ∃ e run, Executor.ofName name = some e ∧ (t.reconcile env).runs.get? k = some run ∧
      run.Later run' ∧
      (t.reconcile env).runs.nextOffer env t.workers e owner peer skipRunIds = some run := by
  have hrec : (t.reconcile env).runs.get? k = some run' → ∃ run, t.runs.get? k = some run ∧
      run.state = RunState.offered ∧ run.event.offerId = run'.event.offerId := by
    intro hget
    have hstep : Step host offersNone t (t.reconcile env) := Step.reconcile env t
    rcases step_offered hstep hget hstate with hold | ⟨_, _, _, hP⟩
    · exact hold
    · exact hP.elim
  obtain ⟨_, _, h⟩ := bind_eq_ok_iff.1 h
  simp only [pull] at h
  split at h
  · cases h
  · rename_i e he
    split at h
    · cases h
      exact Or.inl (hrec hk)
    · split at h
      · cases h
        exact Or.inl (hrec hk)
      · rename_i run hrun
        cases h
        rcases get?_updateRun (t := t.reconcile env) hk with ⟨rfl, run₀, hrun₀, rfl⟩ | hk
        · have hspec := nextOffer_spec hrun
          rw [hspec.1] at hrun₀
          cases hrun₀
          exact Or.inr ⟨e, run, he, hspec.1, Run.later_of_waiting rfl rfl (Or.inl hspec.2.1), hrun⟩
        · exact Or.inl (hrec hk)

/-- What a pull answers with is not an `auto` run, if the worker is not registered. -/
theorem policy_of_pull {owner peer name : PyStr} {seen skipRunIds : List PyStr}
    {event : SystemEvent} (hnone : t.workers.get? (owner, peer) = none)
    (h : t.dispatch host env peer (Op.worker owner (WorkerOp.pull name seen skipRunIds)) =
      Except.ok (Reply.event (some event), t')) {run' : Run}
    (hk : t'.runs.get? event.runId = some run') : run'.policyOf ≠ some Policy.auto := by
  obtain ⟨_, _, h⟩ := bind_eq_ok_iff.1 h
  simp only [pull] at h
  split at h
  · cases h
  · rename_i e he
    split at h
    · -- An offer that the worker holds has survived `_reconcile`.
      rename_i run hheld
      cases h
      have hmem : (t.reconcile env).runs.get? run.event.runId = some run :=
        Table.mem_values_iff.1 (List.mem_of_find?_eq_some hheld)
      rw [hmem] at hk
      cases hk
      have hspec := List.find?_some hheld
      simp only [Bool.and_eq_true, decide_eq_true_eq] at hspec
      obtain ⟨run₀, _, hrun⟩ := get?_reconcile hmem
      have hactive : (run₀.reconciled env t.registry.tasks t.workers).state.active = true := by
        rw [← hrun, hspec.1.1.1.1]
        rfl
      rw [Run.reconciled_of_active hactive] at hrun
      subst hrun
      intro hauto
      have hlost : t.workers.workerReady env run'.owner run'.peer = false := by
        rw [hspec.1.1.1.2, hspec.1.1.2]
        simp [WorkerTable.workerReady, hnone]
      have hrec := Run.reconciled_of_lost t.registry.tasks hspec.1.1.1.1 hauto hlost
      rw [hrec] at hactive
      split_ifs at hactive
      · cases hactive
      · cases hactive
    · split at h
      · cases h
      · rename_i run hrun
        cases h
        obtain ⟨hget, _, _, _, helig⟩ := nextOffer_spec hrun
        have hpol : run'.policy = run.policy := by
          rcases get?_updateRun (t := t.reconcile env) hk with ⟨_, run₀, hrun₀, rfl⟩ | hk
          · rw [hget] at hrun₀
            cases hrun₀
            rfl
          · change (t.reconcile env).runs.get? run.event.runId = some run' at hk
            rw [hget] at hk
            cases hk
            rfl
        intro hauto
        rw [Run.policyOf_eq_auto, hpol, ← Run.policyOf_eq_auto] at hauto
        rw [hauto] at helig
        obtain ⟨⟨w, hw, _⟩, _⟩ := RunTable.eligible_auto helig
        change t.workers.get? (owner, peer) = some w at hw
        rw [hnone] at hw
        cases hw

/-- A worker that sends no heartbeat is not registered. -/
theorem step_unregistered {owner peer : PyStr} (h : Step host (registersNone owner peer) t t')
    (hnone : t.workers.get? (owner, peer) = none) : t'.workers.get? (owner, peer) = none := by
  cases h with
  | lease _ workers hP =>
      by_contra hne
      rcases hP (owner, peer) hne with hold | hkey
      · exact hold hnone
      · exact hkey rfl
  | _ => exact hnone

end Tables

namespace TaskEngine

open Tables (Permits offersNone registersNone Policed)

variable {host : Host} {s s' : TaskEngine} {k : PyStr}

/-- An input that is not a pull offers nothing. -/
theorem allowed_offersNone {i : Input} (hi : ∀ env owner name seen skipRunIds peer,
    i ≠ Input.call env (Op.worker owner (WorkerOp.pull name seen skipRunIds)) peer) :
    s.Allowed offersNone i := by
  cases i with
  | call env op peer =>
      change offersNone.Ok env peer s.toTables op
      unfold Permits.Ok
      split
      · exact absurd rfl (hi _ _ _ _ _ _)
      · exact trivial
      · exact fun _ => trivial
      · exact trivial
      · exact trivial
      · exact trivial
      · exact trivial
      · exact trivial
  | _ => trivial

/-- **A run is offered in answer to a pull that passes the filters.** -/
theorem offered_of_respond (hs : (machine host).Reachable s) (i : Input) {run' : Run}
    (hk : (s.respond host i).2.runs.get? k = some run') (hstate : run'.state = RunState.offered) :
    (∃ run, s.runs.get? k = some run ∧ run.state = RunState.offered ∧
      run.event.offerId = run'.event.offerId) ∨
    ∃ env owner name seen skipRunIds peer e run,
      i = Input.call env (Op.worker owner (WorkerOp.pull name seen skipRunIds)) peer ∧
      Executor.ofName name = some e ∧ (s.toTables.reconcile env).runs.get? k = some run ∧
      run.Later run' ∧
      (s.toTables.reconcile env).runs.nextOffer env s.workers e owner peer skipRunIds =
        some run := by
  by_cases hi : ∀ env owner name seen skipRunIds peer,
      i ≠ Input.call env (Op.worker owner (WorkerOp.pull name seen skipRunIds)) peer
  · refine Or.inl (respond_tables (rowHolds_of_reachable hs) (allowed_offersNone hi)
      (I := fun t => ∀ run', t.runs.get? k = some run' → run'.state = RunState.offered →
        ∃ run, s.runs.get? k = some run ∧ run.state = RunState.offered ∧
          run.event.offerId = run'.event.offerId) ?_ ?_ ?_ run' hk hstate)
    · intro run hrun hoffered
      exact ⟨run, hrun, hoffered, rfl⟩
    · intro t t' hI hstep run₂ hrun₂ hoffered₂
      rcases Tables.step_offered hstep hrun₂ hoffered₂ with
        ⟨run₁, hrun₁, hoffered₁, heq⟩ | ⟨_, _, _, hP⟩
      · obtain ⟨run, hrun, hoffered, heq'⟩ := hI run₁ hrun₁ hoffered₁
        exact ⟨run, hrun, hoffered, heq'.trans heq⟩
      · exact hP.elim
    · intro t t' hI hr
      rw [← hr.runs]
      exact hI
  · push Not at hi
    obtain ⟨env, owner, name, seen, skipRunIds, peer, rfl⟩ := hi
    rcases transact_cases env (fun t => t.dispatch host env peer
      (Op.worker owner (WorkerOp.pull name seen skipRunIds))) s with
      ⟨e, t, ht⟩ | ⟨reply, t, row, hb, ht, _⟩
    · refine Or.inl ⟨run', ?_, hstate, rfl⟩
      rw [respond, call, ht] at hk
      have hruns := (rollback_agree t s).runs
      rwa [← hruns]
    · rw [respond, call, ht] at hk
      rcases Tables.offered_of_pull hb hk hstate with hold | ⟨e, run, he, hrun, hl, hnext⟩
      · exact Or.inl hold
      · exact Or.inr ⟨env, owner, name, seen, skipRunIds, peer, e, run, rfl, he, hrun, hl, hnext⟩

/-! ### Restarts -/

/-- A worker that sends no heartbeat stays unregistered. -/
theorem respond_unregistered {owner peer : PyStr} {i : Input}
    (hP : s.Allowed (registersNone owner peer) i) (hnone : s.workers.get? (owner, peer) = none) :
    (s.respond host i).2.workers.get? (owner, peer) = none := by
  have hsteps : ∀ t, Relation.ReflTransGen (Tables.Step host (registersNone owner peer)) s.toTables
      t → t.workers.get? (owner, peer) = none := by
    intro t ht
    induction ht with
    | refl => exact hnone
    | tail _ hst ih => exact Tables.step_unregistered hst ih
  have hbody : ∀ env body, (∀ reply t, body s.toTables = Except.ok (reply, t) →
      Relation.ReflTransGen (Tables.Step host (registersNone owner peer)) s.toTables t) →
      (s.transact env body).2.workers.get? (owner, peer) = none := by
    intro env body hb
    rcases transact_workers env body s with hsame | ⟨reply, t, ht, hsame⟩
    · rw [hsame]
      exact hnone
    · rw [hsame]
      exact hsteps t (hb reply t ht)
  cases i with
  | call env op peer' => exact hbody env _ fun reply t h => Tables.dispatch_steps hP h
  | tick env now =>
      refine hbody env _ fun reply t h => ?_
      cases hp : s.toTables.poll host env now with
      | error e =>
          rw [hp] at h
          cases h
      | ok t' =>
          rw [hp] at h
          cases h
          exact Tables.poll_steps hp
  | consumeMqtt env o value =>
      simp only [respond, consumeMqtt]
      split
      · exact hnone
      · split_ifs
        · exact hnone
        · refine hbody env _ fun reply t h => ?_
          have hok : (registersNone owner peer).Ok env [] s.toTables
              (Op.externalEvent o.binding.source o.binding.name (some value)) := trivial
          exact Tables.dispatch_steps hok h
  | reopen offset =>
      simp only [respond, reopen]
      cases hr : Tables.restore offset s.row { s.toTables with workers := Table.empty } with
      | none => exact hnone
      | some t =>
          have hworkers : t.workers = Table.empty := by
            unfold Tables.restore at hr
            obtain ⟨saved, _, rfl⟩ := Option.map_eq_some_iff.1 hr
            rfl
          rw [Option.getD_some, hworkers]
          rfl

end TaskEngine
