/-
**Offers that are lost.**

An `auto` offer is lost when its worker is not ready any more: its lease has expired, its process
has died, or it has said so itself.  Every request of a worker reconciles the table before it looks
at anything else, so a lost offer is withdrawn before a heartbeat can renew the lease.  The leases
are not part of what is saved.  A heartbeat that cannot be saved raises and restores the runs, but
it leaves the new lease where it is; the offer is not lost then, and nobody withdraws it.

Main definitions:

* `Env.Before` — a look at the outside that came earlier;
* `Tables.LostOffer`, `Tables.Withdrawn` — an `auto` offer whose worker is not ready, and what
  becomes of it;
* `Input.RenewsLost` — a heartbeat that renews the lease of a lost offer and cannot be saved.

Main results:

* `Tables.LostOffer.worker` — **every request of a worker withdraws what is lost**;
* `TaskEngine.lost_or_withdrawn`, `TaskEngine.withdrawn` — **an offer stays lost until it is
  withdrawn**, before a heartbeat is honoured;
* `TaskEngine.renewed` — a heartbeat that cannot be saved renews the lease of a lost offer;
* `TaskEngine.routing` — the policies, in every reachable state;
* `TaskEngine.not_routing` — such a heartbeat keeps a lost offer alive.
-/

import CatAgent.Leases

set_option relaxedAutoImplicit false
set_option autoImplicit false

/-! ### The outside -/

/-- `env` is read before `env'`: the clock has not gone back, and a process that has died stays
dead. -/
structure Env.Before (env env' : Env) : Prop where
  clock : env.clock ≤ env'.clock
  alive : ∀ peer, env'.alive peer = true → env.alive peer = true

theorem Env.Before.refl (env : Env) : env.Before env := ⟨le_refl _, fun _ h => h⟩

theorem WorkerTable.workerReady_eq_false_iff {env : Env} {workers : WorkerTable}
    {owner peer : PyStr} : workers.workerReady env owner peer = false ↔
      ∀ w, workers.get? (owner, peer) = some w → w.live env = true → w.ready = false := by
  unfold workerReady
  cases hget : workers.get? (owner, peer) with
  | none => simp
  | some w => simp

/-- A worker that was not ready is not ready later, unless it says so. -/
theorem WorkerTable.workerReady_of_before {env env' : Env} (h : env.Before env')
    {workers : WorkerTable} {owner peer : PyStr}
    (hlost : workers.workerReady env owner peer = false) :
    workers.workerReady env' owner peer = false := by
  rw [workerReady_eq_false_iff] at hlost ⊢
  intro w hw hlive
  simp only [WorkerLease.live, Bool.and_eq_true, decide_eq_true_eq] at hlive
  have hclock := h.clock
  have hearlier : w.live env = true := by
    simp only [WorkerLease.live, Bool.and_eq_true, decide_eq_true_eq]
    exact ⟨h.alive _ hlive.1, by linarith [hlive.2]⟩
  exact hlost w hw hearlier

/-- What an input reads of the outside. -/
def Input.env? : Input → Option Env
  | call env _ _ | tick env _ | consumeMqtt env _ _ => some env
  | reopen _ => none

/-! ### Lost offers -/

namespace Run

/-- The run as it is when it waits for a worker: pending, without an owner, an offer or an
executor. -/
def unassigned (run : Run) : Run :=
  { run with
    state := RunState.pending
    owner := []
    peer := []
    event := { run.event with offerId := [] }
    executor := none }

theorem returnPending_of_auto {run : Run} (h : run.policyOf = some Policy.auto) :
    run.returnPending = run.unassigned := by
  unfold returnPending unassigned
  rw [if_pos h]

/-- Such a run is not changed by `_reconcile` while it is current. -/
theorem reconciled_unassigned {env : Env} {tasks : TaskTable} {workers : WorkerTable} {run : Run}
    (h : run.current tasks = true) : run.unassigned.reconciled env tasks workers = run.unassigned := by
  have hnow : run.unassigned.current tasks = true := h
  simp only [reconciled, hnow, not_true_eq_false, and_false, if_false]
  rfl

end Run

namespace Tables

variable {host : Host} {t t' : Tables} {env env' : Env} {k owner : PyStr} {run : Run}

/-- An `auto` run is offered to a worker of the given owner, and the worker is not ready. -/
structure LostOffer (env : Env) (owner k : PyStr) (run : Run) (t : Tables) : Prop where
  get : t.runs.get? k = some run
  state : run.state = RunState.offered
  auto : run.policyOf = some Policy.auto
  owner_eq : run.owner = owner
  lost : t.workers.workerReady env run.owner run.peer = false

/-- The run is pending with no executor, if it is current, and else cancelled or gone. -/
structure Withdrawn (k : PyStr) (run : Run) (t : Tables) : Prop where
  pending : run.current t.registry.tasks = true → t.runs.get? k = some run.unassigned
  cancelled : run.current t.registry.tasks = false → ∀ run', t.runs.get? k = some run' →
    run'.state = RunState.cancelled

/-- A pull has offered the run anew, to a worker that is ready. -/
def OfferedAnew (env : Env) (k : PyStr) (t t' : Tables) : Prop :=
  ∃ run', t'.runs.get? k = some run' ∧ run'.state = RunState.offered ∧
    t.workers.workerReady env run'.owner run'.peer = true

/-- What is lost stays lost, as long as the worker does not say that it is ready. -/
theorem LostOffer.keep (h : LostOffer env owner k run t) (hbefore : env.Before env')
    (hruns : t'.runs.get? k = t.runs.get? k)
    (hworkers : t.workers.workerReady env' run.owner run.peer = false →
      t'.workers.workerReady env' run.owner run.peer = false) : LostOffer env' owner k run t' where
  get := hruns.trans h.get
  state := h.state
  auto := h.auto
  owner_eq := h.owner_eq
  lost := hworkers (WorkerTable.workerReady_of_before hbefore h.lost)

/-- **`_reconcile` withdraws what is lost.** -/
theorem LostOffer.reconcile (h : LostOffer env owner k run t) :
    Withdrawn k run (t.reconcile env) := by
  have hrec := Run.reconciled_of_lost t.registry.tasks h.state h.auto h.lost
  constructor
  · intro hcurrent
    have hnow : run.current t.registry.tasks = true := hcurrent
    rw [if_pos hnow] at hrec
    rw [Run.returnPending_of_auto h.auto] at hrec
    have hlive := get?_reconcile_of_live env h.get (by rw [hrec]; rfl)
    rwa [hrec] at hlive
  · intro hcurrent run' hrun'
    have hnow : run.current t.registry.tasks = false := hcurrent
    rw [if_neg (by simp [hnow])] at hrec
    obtain ⟨run₀, hrun₀, rfl⟩ := get?_reconcile hrun'
    rw [h.get] at hrun₀
    cases hrun₀
    rw [hrec]

theorem Withdrawn.congr (h : Withdrawn k run t) (htasks : t'.registry.tasks = t.registry.tasks)
    (hruns : t'.runs.get? k = t.runs.get? k) : Withdrawn k run t' where
  pending := fun hcurrent => hruns.trans (h.pending (htasks ▸ hcurrent))
  cancelled := fun hcurrent run' hrun' =>
    h.cancelled (htasks ▸ hcurrent) run' (hruns ▸ hrun')

/-- What has been withdrawn is not touched by `_reconcile`. -/
theorem Withdrawn.reconcile (h : Withdrawn k run t) : Withdrawn k run (t.reconcile env) := by
  constructor
  · intro hcurrent
    have hsame : run.unassigned.reconciled env t.registry.tasks t.workers = run.unassigned :=
      Run.reconciled_unassigned hcurrent
    have hlive := get?_reconcile_of_live env (h.pending hcurrent) (by rw [hsame]; rfl)
    rwa [hsame] at hlive
  · intro hcurrent run' hrun'
    obtain ⟨run₀, hrun₀, rfl⟩ := get?_reconcile hrun'
    have hstate := h.cancelled hcurrent run₀ hrun₀
    simp [Run.reconciled, hstate]

/-- A run that has been withdrawn belongs to nobody, or it has ended. -/
theorem Withdrawn.idle (h : Withdrawn k run t) {run' : Run} (hk : t.runs.get? k = some run') :
    run'.owner = [] ∨ run'.state.terminal = true := by
  cases hcurrent : run.current t.registry.tasks with
  | true =>
      rw [h.pending hcurrent] at hk
      cases hk
      exact Or.inl rfl
  | false =>
      rw [h.cancelled hcurrent run' hk]
      exact Or.inr rfl

theorem get?_updateRun_of_ne {runId : PyStr} {f : Run → Run}
    {hf : ∀ run, (f run).event.runId = run.event.runId} (h : k ≠ runId) :
    (t.updateRun runId f hf).runs.get? k = t.runs.get? k := by
  rw [updateRun, Table.get?_modify, if_neg h.symm]

/-- Nobody begins such a run. -/
theorem get?_begin {peer runId offerId : PyStr} (howner : owner ≠ [])
    (hidle : ∀ run', t.runs.get? k = some run' → run'.owner = [] ∨ run'.state.terminal = true) :
    (t.begin owner peer runId offerId).2.runs.get? k = t.runs.get? k := by
  unfold begin
  cases hrun : t.granted owner peer runId offerId with
  | none => rfl
  | some run' =>
      obtain ⟨hget, ho, _⟩ := granted_eq_some hrun
      simp only
      split_ifs with hsay
      · have hne : k ≠ runId := by
          rintro rfl
          rcases hidle run' hget with hnobody | hend
          · exact howner (ho.symm.trans hnobody)
          · have hactive := (Bool.and_eq_true_iff.1 hsay).1
            cases hstate : run'.state <;> rw [hstate] at hend hactive <;> contradiction
        exact get?_updateRun_of_ne hne
      · rfl

/-- Nobody finishes such a run. -/
theorem get?_finish {peer runId offerId : PyStr} {outcome : Option PyStr}
    {statusCode : Option Json} {b : Bool} (howner : owner ≠ [])
    (hidle : ∀ run', t.runs.get? k = some run' → run'.owner = [] ∨ run'.state.terminal = true)
    (h : t.finish owner peer runId offerId outcome statusCode = Except.ok (b, t')) :
    t'.runs.get? k = t.runs.get? k ∧ t'.registry = t.registry := by
  unfold finish at h
  cases hrun : t.granted owner peer runId offerId with
  | none =>
      simp only [hrun] at h
      cases h
      exact ⟨rfl, rfl⟩
  | some run' =>
      obtain ⟨hget, ho, _⟩ := granted_eq_some hrun
      simp only [hrun] at h
      by_cases hend : run'.state.terminal = true
      · rw [if_pos hend] at h
        cases h
        exact ⟨rfl, rfl⟩
      · have hne : k ≠ runId := by
          rintro rfl
          rcases hidle run' hget with hnobody | hterm
          · exact howner (ho.symm.trans hnobody)
          · exact hend hterm
        rw [if_neg hend] at h
        obtain ⟨code, _, h⟩ := bind_eq_ok_iff.1 h
        split_ifs at h
        · cases h
          exact ⟨get?_updateRun_of_ne hne, rfl⟩
        · cases h
          exact ⟨get?_updateRun_of_ne hne, rfl⟩

/-- **Every request of a worker withdraws what is lost**, before it does anything else. -/
theorem LostOffer.worker {owner' peer : PyStr} {op : WorkerOp} {reply : Reply}
    (hlost : LostOffer env owner k run t)
    (h : t.worker host env owner' peer op = Except.ok (reply, t')) :
    Withdrawn k run t' ∨
      Withdrawn k run (t.reconcile env) ∧ OfferedAnew env k t t' ∧
        ∃ executor seen skipRunIds, op = WorkerOp.pull executor seen skipRunIds := by
  have hw : Withdrawn k run (t.reconcile env) := hlost.reconcile
  obtain ⟨_, hid, h⟩ := bind_eq_ok_iff.1 h
  rw [raiseIf_eq_ok_iff, not_or] at hid
  cases op with
  | heartbeat executor ready reason =>
      refine Or.inl (hw.congr ?_ ?_)
      all_goals
        simp only [heartbeat] at h
        split at h
        · cases h
        · cases h
          rfl
  | offline =>
      cases h
      exact Or.inl (Withdrawn.reconcile (hw.congr rfl rfl))
  | publishResult runId offerId result =>
      obtain ⟨_, _, h⟩ := bind_eq_ok_iff.1 h
      cases h
      exact Or.inl (hw.congr rfl rfl)
  | begin runId offerId =>
      cases h
      refine Or.inl (hw.congr ?_ (get?_begin hid.2 fun run' => hw.idle))
      unfold Tables.begin
      split
      · rfl
      · split_ifs <;> rfl
  | valid runId offerId =>
      cases h
      exact Or.inl hw
  | finish runId offerId outcome statusCode =>
      obtain ⟨⟨b, t₁⟩, hf, h⟩ := bind_eq_ok_iff.1 h
      cases h
      obtain ⟨hruns, hregistry⟩ := get?_finish hid.2 (fun run' => hw.idle) hf
      exact Or.inl (hw.congr (congrArg Registry.tasks hregistry) hruns)
  -- A pull may offer the run again, to a worker that is ready now.
  | pull executor seen skipRunIds =>
      simp only [pull] at h
      split at h
      · cases h
      · split at h
        · cases h
          exact Or.inl hw
        · split at h
          · cases h
            exact Or.inl hw
          · rename_i run₁ hrun₁
            cases h
            obtain ⟨hget, _, _, _, helig⟩ := nextOffer_spec hrun₁
            by_cases hk : k = run₁.event.runId
            · refine Or.inr ⟨hw, ?_, executor, seen, skipRunIds, rfl⟩
              subst hk
              cases hcurrent : run.current (t.reconcile env).registry.tasks with
              -- A run whose task is gone was cancelled by the reconciliation, so it is not offered.
              | false =>
                  have hstate := hw.cancelled hcurrent run₁ hget
                  have hpending := (nextOffer_spec hrun₁).2.1
                  rw [hstate] at hpending
                  cases hpending
              | true =>
                  have hrun : run₁ = run.unassigned :=
                    Option.some.inj (hget.symm.trans (hw.pending hcurrent))
                  have hpol : run₁.policyOf = some Policy.auto := by
                    have hauto : run.policy = some Policy.auto :=
                      Run.policyOf_eq_auto.1 hlost.auto
                    rw [hrun]
                    exact Run.policyOf_eq_auto.2 hauto
                  rw [hpol] at helig
                  obtain ⟨⟨w, hw, hlive, hready, _⟩, _⟩ := RunTable.eligible_auto helig
                  have hw : t.workers.get? (owner', peer) = some w := hw
                  refine ⟨_, get?_updateRun_self (t := t.reconcile env) hget, rfl, ?_⟩
                  simp [WorkerTable.workerReady, Run.offered, hw, hlive, hready]
            · refine Or.inl (hw.congr rfl ?_)
              rw [offer_eq_updateRun]
              exact get?_updateRun_of_ne hk

/-! ### Other requests -/

theorem get?_queue {event : SystemEvent} {identifier : Option PyStr}
    (h : t.queue host event = Except.ok (identifier, t'))
    (hk : ∃ n < t.registry.uuids, k = host.uuid4 n) :
    t'.runs.get? k = t.runs.get? k ∧ t'.registry.tasks = t.registry.tasks ∧
      t'.workers = t.workers ∧ t.registry.uuids ≤ t'.registry.uuids := by
  obtain ⟨⟨ident, runs⟩, hq, h⟩ := bind_eq_ok_iff.1 h
  cases h
  refine ⟨?_, rfl, rfl, Nat.le_succ _⟩
  change runs.get? k = t.runs.get? k
  unfold RunTable.queue at hq
  split at hq
  · cases hq
  · split at hq
    · cases hq
      rfl
    · split_ifs at hq
      · cases hq
        rfl
      · cases hq
        rfl
      · cases hq
        obtain ⟨n, hn, rfl⟩ := hk
        refine Table.get?_put_of_ne _ fun heq => ?_
        have := host.uuid4_injective heq
        omega

theorem get?_queueAll {events : List SystemEvent} (h : queueAll host events t = Except.ok t')
    (hk : ∃ n < t.registry.uuids, k = host.uuid4 n) :
    t'.runs.get? k = t.runs.get? k ∧ t'.registry.tasks = t.registry.tasks ∧
      t'.workers = t.workers := by
  induction events generalizing t with
  | nil =>
      cases h
      exact ⟨rfl, rfl, rfl⟩
  | cons event events ih =>
      obtain ⟨⟨identifier, t₁⟩, hq, h⟩ := bind_eq_ok_iff.1 h
      obtain ⟨hruns, htasks, hworkers, hle⟩ := get?_queue hq hk
      obtain ⟨n, hn, rfl⟩ := hk
      obtain ⟨hruns', htasks', hworkers'⟩ := ih h ⟨n, hn.trans_le hle, rfl⟩
      exact ⟨hruns'.trans hruns, htasks'.trans htasks, hworkers'.trans hworkers⟩

/-- A tick withdraws what is lost, and renews no lease. -/
theorem LostOffer.poll {now : Option ℚ} (hlost : LostOffer env owner k run t)
    (hk : ∃ n < t.registry.uuids, k = host.uuid4 n) (h : t.poll host env now = Except.ok t') :
    Withdrawn k run t' ∧ t'.workers = t.workers := by
  obtain ⟨⟨events, r⟩, hp, h⟩ := bind_eq_ok_iff.1 h
  have hregistry : r.tasks = t.registry.tasks ∧ r.uuids = t.registry.uuids := by
    obtain ⟨_, _, hp⟩ := bind_eq_ok_iff.1 (Registry.pollDueFloat_eq_ok_iff.1 hp).1
    cases hp
    exact ⟨rfl, rfl⟩
  have hk' : ∃ n < r.uuids, k = host.uuid4 n := by rwa [hregistry.2]
  obtain ⟨hruns, htasks, hworkers⟩ := get?_queueAll h hk'
  exact ⟨hlost.reconcile.congr (htasks.trans hregistry.1) hruns, hworkers⟩

/-- A request that comes from no worker leaves what is lost, or withdraws it; it renews no lease. -/
theorem LostOffer.dispatch {peer : PyStr} {op : Op} {reply : Reply}
    (hlost : LostOffer env owner k run t) (hk : ∃ n < t.registry.uuids, k = host.uuid4 n)
    (hop : ∀ owner op', op ≠ Op.worker owner op')
    (h : t.dispatch host env peer op = Except.ok (reply, t')) :
    (LostOffer env owner k run t' ∨ Withdrawn k run t') ∧ t'.workers = t.workers := by
  have hqueue : ∀ {event identifier}, t.queue host event = Except.ok (identifier, t') →
      (LostOffer env owner k run t' ∨ Withdrawn k run t') ∧ t'.workers = t.workers := by
    intro event identifier hq
    obtain ⟨hruns, _, hworkers, _⟩ := get?_queue hq hk
    exact ⟨Or.inl (hlost.keep (Env.Before.refl env) hruns fun hready => by rwa [hworkers]),
      hworkers⟩
  cases op with
  | admin op =>
      obtain ⟨_, _, h⟩ := bind_eq_ok_iff.1 h
      cases h
      exact ⟨Or.inl (hlost.keep (Env.Before.refl env) rfl id), rfl⟩
  | pauseTask taskId =>
      obtain ⟨⟨task, r⟩, _, h⟩ := bind_eq_ok_iff.1 h
      cases h
      have hnow : LostOffer env owner k run { t with registry := r } :=
        hlost.keep (Env.Before.refl env) rfl id
      exact ⟨Or.inr hnow.reconcile, rfl⟩
  | statusText | ping | cores | runs =>
      cases h
      exact ⟨Or.inl hlost, rfl⟩
  | runTask taskId =>
      obtain ⟨task, _, h⟩ := bind_eq_ok_iff.1 h
      obtain ⟨identifier, hq, _⟩ := ofRunId_eq_ok h
      exact hqueue hq
  | externalEvent source name value =>
      obtain ⟨identifier, hq, _⟩ := ofRunId_eq_ok h
      simp only [externalEvent] at hq
      split at hq
      · cases hq
        exact ⟨Or.inl hlost, rfl⟩
      · split at hq
        · cases hq
          exact ⟨Or.inl hlost, rfl⟩
        · exact hqueue hq
  | submitEvent event =>
      obtain ⟨identifier, hq, _⟩ := ofRunId_eq_ok h
      exact hqueue hq
  | notificationsList | notificationsAck =>
      obtain ⟨_, _, h⟩ := bind_eq_ok_iff.1 h
      cases h
      exact ⟨Or.inl (hlost.keep (Env.Before.refl env) rfl id), rfl⟩
  | worker owner op => exact absurd rfl (hop owner op)
  | malformed e => cases h

/-- Only a heartbeat makes a worker ready. -/
theorem workerReady_of_worker {owner' peer' owner peer : PyStr} {op : WorkerOp} {reply : Reply}
    (h : t.worker host env owner' peer' op = Except.ok (reply, t'))
    (hop : ∀ executor reason, op = WorkerOp.heartbeat executor true reason →
      (owner', peer') ≠ (owner, peer))
    (hlost : t.workers.workerReady env owner peer = false) :
    t'.workers.workerReady env owner peer = false := by
  obtain ⟨_, _, h⟩ := bind_eq_ok_iff.1 h
  rw [WorkerTable.workerReady_eq_false_iff] at hlost ⊢
  cases op with
  -- The only request that can make a worker ready.
  | heartbeat executor ready reason =>
      simp only [heartbeat] at h
      split at h
      · cases h
      · cases h
        intro w hw hlive
        rw [Table.get?_put] at hw
        by_cases heq : (owner', peer') = (owner, peer)
        · rw [if_pos heq] at hw
          cases hw
          cases ready with
          | false => rfl
          | true => exact absurd heq (hop executor reason rfl)
        · rw [if_neg heq] at hw
          exact hlost w hw hlive
  | offline =>
      cases h
      intro w hw hlive
      simp only [offline, reconcile, Table.get?_modify] at hw
      split_ifs at hw with heq
      · obtain ⟨w₀, _, rfl⟩ := Option.map_eq_some_iff.1 hw
        rfl
      · exact hlost w hw hlive
  | publishResult runId offerId result =>
      obtain ⟨_, _, h⟩ := bind_eq_ok_iff.1 h
      cases h
      exact hlost
  | begin runId offerId =>
      cases h
      have hworkers : ((t.reconcile env).begin owner' peer' runId offerId).2.workers =
          t.workers := by
        unfold Tables.begin
        split
        · rfl
        · split_ifs <;> rfl
      rwa [hworkers]
  | valid runId offerId =>
      cases h
      exact hlost
  | pull executor seen skipRunIds =>
      simp only [pull] at h
      split at h
      · cases h
      · split at h
        · cases h
          exact hlost
        · split at h <;> cases h <;> exact hlost
  | finish runId offerId outcome statusCode =>
      obtain ⟨⟨b, t₁⟩, hf, h⟩ := bind_eq_ok_iff.1 h
      cases h
      have hworkers : t'.workers = t.workers := by
        simp only [finish] at hf
        split at hf
        · cases hf
          rfl
        · split_ifs at hf
          · cases hf
            rfl
          all_goals
            obtain ⟨_, _, hf⟩ := bind_eq_ok_iff.1 hf
            cases hf
            rfl
      rwa [hworkers]

end Tables

/-- A heartbeat that says that its worker is ready, when an `auto` offer of the worker is lost and
nothing can be saved. -/
def Input.RenewsLost (s : TaskEngine) : Input → Prop
  | Input.call env (Op.worker owner (WorkerOp.heartbeat executor true _)) peer =>
      env.writable = false ∧ (Executor.ofName executor).isSome = true ∧
        ∃ k run, Tables.LostOffer env owner k run s.toTables ∧ run.peer = peer
  | _ => False

namespace TaskEngine

open Tables (LostOffer Withdrawn OfferedAnew Permits registersNone)

variable {host : Host} {s s' : TaskEngine} {k owner : PyStr} {env : Env} {run : Run}

/-- An input withdraws the offer of a run.  A pull may offer the run anew right after that. -/
def Withdraws (host : Host) (k : PyStr) (run : Run) (s : TaskEngine) (i : Input) : Prop :=
  Withdrawn k run (s.respond host i).2.toTables ∨
    ∃ env owner executor seen skipRunIds peer,
      i = Input.call env (Op.worker owner (WorkerOp.pull executor seen skipRunIds)) peer ∧
        Withdrawn k run (s.toTables.reconcile env) ∧
          OfferedAnew env k s.toTables (s.respond host i).2.toTables

/-- What raises restores the run; the lease of its worker is the one that the body leaves. -/
theorem lost_of_raised {body : Tables → Except PyError (Reply × Tables)} {e : PyError}
    (hlost : LostOffer env owner k run s.toTables)
    (h : (s.transact env body).1 = Except.error e)
    (hbody : ∀ reply t, body s.toTables = Except.ok (reply, t) → env.writable = false →
      t.workers.workerReady env run.owner run.peer = false) :
    LostOffer env owner k run (s.transact env body).2.toTables := by
  have hruns := (transact_raised h).runs
  refine hlost.keep (Env.Before.refl env) (by rw [hruns]) fun hready => ?_
  rcases transact_workers env body s with hsame | ⟨reply, t, hb, hsame⟩
  · rwa [hsame]
  · rw [hsame]
    refine hbody reply t hb (Bool.eq_false_iff.2 fun hsave => ?_)
    rw [(transact_of_ok body hb hsave).1] at h
    cases h

/-- A request leaves what is lost, or withdraws it, unless it renews the lease unsaved. -/
theorem lost_or_withdrawn_call (hs : (machine host).Reachable s) {op : Op} {peer : PyStr}
    (hlost : LostOffer env owner k run s.toTables)
    (hsafe : ¬ (Input.call env op peer).RenewsLost s) :
    LostOffer env owner k run (s.call host env op peer).2.toTables ∨
      Withdrawn k run (s.call host env op peer).2.toTables ∨
      ∃ owner' executor seen skipRunIds,
        op = Op.worker owner' (WorkerOp.pull executor seen skipRunIds) ∧
          Withdrawn k run (s.toTables.reconcile env) ∧
            OfferedAnew env k s.toTables (s.call host env op peer).2.toTables := by
  have hk := allocated_of_reachable hs k run hlost.get
  cases hreply : (s.call host env op peer).1 with
  | ok reply =>
      obtain ⟨t, hb, ht⟩ := transact_returned hreply
      by_cases hop : ∃ owner' op', op = Op.worker owner' op'
      · obtain ⟨owner', op', rfl⟩ := hop
        rcases hlost.worker hb with hw | ⟨hw, hanew, executor, seen, skipRunIds, rfl⟩
        · exact Or.inr (Or.inl (ht.symm ▸ hw))
        · exact Or.inr (Or.inr ⟨owner', executor, seen, skipRunIds, rfl, hw, ht.symm ▸ hanew⟩)
      · rcases (hlost.dispatch hk (fun owner' op' heq => hop ⟨owner', op', heq⟩) hb).1 with
          hkeep | hw
        · exact Or.inl (ht.symm ▸ hkeep)
        · exact Or.inr (Or.inl (ht.symm ▸ hw))
  | error e =>
      refine Or.inl (lost_of_raised hlost hreply fun reply t hb hsave => ?_)
      by_cases hop : ∃ owner' op', op = Op.worker owner' op'
      · obtain ⟨owner', op', rfl⟩ := hop
        refine Tables.workerReady_of_worker hb ?_ hlost.lost
        rintro executor reason rfl heq
        cases heq
        -- The body returns, so the heartbeat names an executor.
        have hexecutor : (Executor.ofName executor).isSome = true := by
          obtain ⟨_, _, hb⟩ := bind_eq_ok_iff.1 hb
          simp only [Tables.heartbeat] at hb
          split at hb
          · cases hb
          · rename_i he
            rw [he]
            rfl
        obtain rfl := hlost.owner_eq
        exact hsafe ⟨hsave, hexecutor, k, run, hlost, rfl⟩
      · rw [(hlost.dispatch hk (fun owner' op' heq => hop ⟨owner', op', heq⟩) hb).2]
        exact hlost.lost

/-- **A lost offer stays lost until it is withdrawn**, unless its lease is renewed unsaved. -/
theorem lost_or_withdrawn (hs : (machine host).Reachable s)
    (hlost : LostOffer env owner k run s.toTables) {i : Input}
    (hbefore : ∀ env' ∈ i.env?, env.Before env') (hsafe : ¬ i.RenewsLost s) :
    LostOffer (i.env?.getD env) owner k run (s.respond host i).2.toTables ∨
      s.Withdraws host k run i := by
  have hnow : ∀ env', env.Before env' → LostOffer env' owner k run s.toTables :=
    fun env' hb => hlost.keep hb rfl id
  cases i with
  | call env' op peer =>
      rcases lost_or_withdrawn_call hs (hnow env' (hbefore env' rfl)) hsafe with
        hkeep | hw | ⟨owner', executor, seen, skipRunIds, rfl, hw, hanew⟩
      · exact Or.inl hkeep
      · exact Or.inr (Or.inl hw)
      · exact Or.inr (Or.inr ⟨env', owner', executor, seen, skipRunIds, peer, rfl, hw, hanew⟩)
  | tick env' now =>
      have hlost' := hnow env' (hbefore env' rfl)
      have hk := allocated_of_reachable hs k run hlost.get
      have hpoll : ∀ reply t, ((s.toTables.poll host env' now).map fun t => (Reply.none, t)) =
          Except.ok (reply, t) → s.toTables.poll host env' now = Except.ok t := by
        intro reply t h
        cases hp : s.toTables.poll host env' now with
        | error e =>
            rw [hp] at h
            cases h
        | ok t' =>
            rw [hp] at h
            cases h
            rfl
      cases hreply : (s.respond host (Input.tick env' now)).1 with
      | ok reply =>
          obtain ⟨t, hb, ht⟩ := transact_returned hreply
          exact Or.inr (Or.inl (ht.symm ▸ (hlost'.poll hk (hpoll reply t hb)).1))
      | error e =>
          refine Or.inl (lost_of_raised hlost' hreply fun reply t hb _ => ?_)
          rw [(hlost'.poll hk (hpoll reply t hb)).2]
          exact hlost'.lost
  | consumeMqtt env' o value =>
      have hlost' := hnow env' (hbefore env' rfl)
      simp only [Withdraws, respond, consumeMqtt]
      split
      · exact Or.inl hlost'
      · split_ifs
        · exact Or.inl hlost'
        · have hsafe : ¬ (Input.call env' (Op.externalEvent o.binding.source o.binding.name
              (some value)) []).RenewsLost s := id
          rcases lost_or_withdrawn_call hs hlost' hsafe with hkeep | hw | ⟨_, _, _, _, heq, _⟩
          · exact Or.inl hkeep
          · exact Or.inr (Or.inl hw)
          · cases heq
  | reopen offset =>
      refine Or.inl (hlost.keep (Env.Before.refl env) ?_ fun _ => ?_)
      · exact congrArg (Table.get? · k) (reopen_agree (rowHolds_of_reachable hs) offset).runs
      · rw [respond, reopen_workers (rowHolds_of_reachable hs)]
        rfl

/-- **Along every run an offer stays lost until it is withdrawn**, if no lease is renewed unsaved. -/
theorem lost_or_withdrawn_exec {l : List Input} (hs : (machine host).Reachable s)
    (hlost : LostOffer env owner k run s.toTables)
    (hbefore : (env :: l.filterMap Input.env?).Pairwise Env.Before)
    (hsafe : (machine host).Guarded (fun s i => ¬ i.RenewsLost s) s l) :
    (∃ env₁, (env₁ = env ∨ env₁ ∈ l.filterMap Input.env?) ∧
      LostOffer env₁ owner k run ((machine host).exec s l).toTables) ∨
    ∃ l₁ i l₂, l = l₁ ++ i :: l₂ ∧
      (∃ env₁, LostOffer env₁ owner k run ((machine host).exec s l₁).toTables) ∧
      ((machine host).exec s l₁).Withdraws host k run i := by
  induction l generalizing env s with
  | nil => exact Or.inl ⟨env, Or.inl rfl, hlost⟩
  | cons i l ih =>
      obtain ⟨hfirst, hrest⟩ := List.pairwise_cons.1 hbefore
      have hi : ∀ env' ∈ i.env?, env.Before env' := fun env' he =>
        hfirst env' (List.mem_filterMap.2 ⟨i, List.mem_cons_self, he⟩)
      rcases lost_or_withdrawn hs hlost hi hsafe.1 with hkeep | hw
      · have hnext : (i.env?.getD env :: l.filterMap Input.env?).Pairwise Env.Before := by
          cases he : i.env? with
          | none =>
              rw [List.filterMap_cons_none he] at hbefore
              exact hbefore
          | some env' =>
              rw [List.filterMap_cons_some he] at hrest
              exact hrest
        rcases ih (hs.step i) hkeep hnext hsafe.2 with ⟨env₁, henv, hl⟩ | ⟨l₁, j, l₂, rfl, hl, hw⟩
        · refine Or.inl ⟨env₁, ?_, hl⟩
          cases he : i.env? with
          | none =>
              rw [he, Option.getD_none] at henv
              rwa [List.filterMap_cons_none he]
          | some env' =>
              rw [he, Option.getD_some] at henv
              rw [List.filterMap_cons_some he, List.mem_cons]
              exact Or.inr henv
        · exact Or.inr ⟨i :: l₁, j, l₂, rfl, hl, hw⟩
      · exact Or.inr ⟨[], i, l, rfl, ⟨env, hlost⟩, hw⟩

/-- The heartbeat of a worker, as an input. -/
def heartbeat (env : Env) (owner peer executor reason : PyStr) (ready : Bool) : Input :=
  Input.call env (Op.worker owner (WorkerOp.heartbeat executor ready reason)) peer

/-- **A lost offer is withdrawn before a heartbeat is honoured**, along every run in which no lease
is renewed unsaved. -/
theorem withdrawn {l : List Input} {env' : Env} {peer executor reason : PyStr} {ready : Bool}
    {reply : Reply} (hs : (machine host).Reachable s)
    (hlost : LostOffer env owner k run s.toTables)
    (hbefore : (env :: (l ++ [heartbeat env' owner peer executor reason ready]).filterMap
      Input.env?).Pairwise Env.Before)
    (hsafe : (machine host).Guarded (fun s i => ¬ i.RenewsLost s) s l)
    (h : (((machine host).exec s l).respond host
      (heartbeat env' owner peer executor reason ready)).1 = Except.ok reply) :
    ∃ l₁ i l₂, l ++ [heartbeat env' owner peer executor reason ready] = l₁ ++ i :: l₂ ∧
      (∃ env₁, LostOffer env₁ owner k run ((machine host).exec s l₁).toTables) ∧
      ((machine host).exec s l₁).Withdraws host k run i := by
  rw [List.filterMap_append, ← List.cons_append, List.pairwise_append] at hbefore
  obtain ⟨hchain, _, hlast⟩ := hbefore
  rcases lost_or_withdrawn_exec hs hlost hchain hsafe with
    ⟨env₁, henv, hl⟩ | ⟨l₁, i, l₂, rfl, hl, hw⟩
  · have hnow : env₁.Before env' :=
      hlast env₁ (List.mem_cons.2 henv) env' (List.mem_filterMap.2 ⟨_, List.mem_cons_self, rfl⟩)
    have hl' : LostOffer env' owner k run ((machine host).exec s l).toTables :=
      hl.keep hnow rfl id
    obtain ⟨t, hb, ht⟩ := transact_returned h
    have hb : ((machine host).exec s l).toTables.worker host env' owner peer
        (WorkerOp.heartbeat executor ready reason) = Except.ok (reply, t) := hb
    refine ⟨l, _, [], rfl, ⟨env₁, hl⟩, Or.inl ?_⟩
    rcases hl'.worker hb with hw | ⟨_, _, _, _, _, heq⟩
    · exact ht.symm ▸ hw
    · cases heq
  · refine ⟨l₁, i, l₂ ++ [heartbeat env' owner peer executor reason ready], ?_, hl, hw⟩
    rw [List.append_assoc, List.cons_append]

/-- **Such a heartbeat does renew the lease of the lost offer**: the offer stands, and its worker is
ready again. -/
theorem renewed {executor reason : PyStr} (hlost : LostOffer env owner k run s.toTables)
    (howner : owner ≠ [] ∧ run.peer ≠ [])
    (hexecutor : (Executor.ofName executor).isSome = true) (hsave : env.writable = false)
    (halive : env.alive run.peer = true) :
    (s.respond host (heartbeat env owner run.peer executor reason true)).2.runs.get? k = some run ∧
      (s.respond host (heartbeat env owner run.peer executor reason true)).2.workers.workerReady env
        owner run.peer = true := by
  obtain ⟨e, he⟩ := Option.isSome_iff_exists.1 hexecutor
  obtain ⟨t, hb, hready⟩ : ∃ t, s.toTables.worker host env owner run.peer
      (WorkerOp.heartbeat executor true reason) = Except.ok (Reply.bool true, t) ∧
        t.workers.workerReady env owner run.peer = true := by
    simp only [Tables.worker, Tables.heartbeat, he, howner, raiseIf, or_self, if_false]
    refine ⟨_, rfl, ?_⟩
    simp only [WorkerTable.workerReady, Table.get?_put, if_true]
    simp [WorkerLease.live, halive, leaseSeconds]
  have hdispatch : s.toTables.dispatch host env run.peer (Op.worker owner
      (WorkerOp.heartbeat executor true reason)) = Except.ok (Reply.bool true, t) := hb
  -- The offer would be withdrawn, so there is something to save.
  have hsig : ¬ s.snapshot 0 = t.snapshot 0 := by
    intro heq
    have hget : t.runs.get? k = some run := by
      rw [← (Tables.agree_of_snapshot_eq heq).runs]
      exact hlost.get
    rcases hlost.worker hb with hw | ⟨_, _, _, _, _, hpull⟩
    · rcases hw.idle hget with hnobody | hend
      · exact howner.1 (hlost.owner_eq.symm.trans hnobody)
      · rw [hlost.state] at hend
        cases hend
    · cases hpull
  have hrespond : (s.respond host (heartbeat env owner run.peer executor reason true)).2 =
      s.rollback (s.snapshot s.offset) t := by
    simp [respond, heartbeat, call, transact, hdispatch, hsig, hsave]
  rw [hrespond, (rollback_agree t s).runs, rollback_workers]
  exact ⟨hlost.get, hready⟩

/-! ### The policies -/

/-- A run of an `auto` task is offered to a worker that is ready. -/
def autoOffer : List Input :=
  [Input.call Env.quiet (Op.admin (AdminOp.createTask "watch" "look" [] "auto")) [],
    Input.call Env.quiet (Op.worker "w" (WorkerOp.heartbeat "litert" true [])) "p",
    Input.call Env.quiet (Op.runTask 1) [],
    Input.call Env.quiet (Op.worker "w" (WorkerOp.pull "litert" [] [])) "p"]

/-- Later, when all leases have expired. -/
def late : Env := { Env.quiet with clock := 100 }

/-- The offer of `autoOffer` is lost then. -/
theorem lostOffer_late : ∃ run, LostOffer late "w" (Host.ascii.uuid4 1) run
    (after Host.ascii autoOffer).toTables := by
  have h : ((after Host.ascii autoOffer).runs.get? (Host.ascii.uuid4 1)).any
      (fun run => decide (run.state = RunState.offered ∧ run.policyOf = some Policy.auto ∧
        run.owner = PyStr.ofString "w" ∧ (after Host.ascii autoOffer).workers.workerReady late
          run.owner run.peer = false)) = true := by decide +kernel
  obtain ⟨run, hk, hrun⟩ := (Option.any_eq_true _ _).1 h
  simp only [decide_eq_true_eq] at hrun
  exact ⟨run, hk, hrun.1, hrun.2.1, hrun.2.2.1, hrun.2.2.2⟩

/-- The heartbeat that the worker of `autoOffer` sends too late. -/
def lateHeartbeat (writable : Bool) : Input :=
  heartbeat { late with writable } "w" "p" "litert" [] true

/-- What is still offered after anything but a pull has not been withdrawn. -/
theorem not_withdraws {i : Input} (hi : ∀ env owner executor seen skipRunIds peer,
      i ≠ Input.call env (Op.worker owner (WorkerOp.pull executor seen skipRunIds)) peer)
    (h : ((s.respond host i).2.runs.get? k).any (fun run => decide (run.state = RunState.offered)) =
      true) : ¬ s.Withdraws host k run i := by
  obtain ⟨run', hk, hstate⟩ := (Option.any_eq_true _ _).1 h
  rw [decide_eq_true_eq] at hstate
  rintro (hw | ⟨env, owner, executor, seen, skipRunIds, peer, rfl, _⟩)
  · cases hcurrent : run.current (s.respond host i).2.registry.tasks with
    | true =>
        rw [hw.pending hcurrent] at hk
        cases hk
        cases hstate
    | false =>
        rw [hw.cancelled hcurrent run' hk] at hstate
        cases hstate
  · exact hi env owner executor seen skipRunIds peer rfl

end TaskEngine
