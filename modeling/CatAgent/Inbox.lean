/-
**What happens to a query result once it is committed.**

A record of the inbox belongs to a run that has begun, under the grant that the run then had.  It
leaves the inbox in one way only: an acknowledgement prunes the oldest acknowledged records.  From
then on nothing reminds the engine of the record.  If its run is still running, a worker that has
not seen the reply of its first `publish_result` publishes the result again, and the acknowledged
result is back in the inbox.

Main definitions:

* `Tables.Recorded` — every record belongs to a run that has begun;
* `Tables.commitsNone`, `Tables.acksNone` — no result of the given run is committed, or acknowledged;
* `TaskEngine.KeepsInbox` — the integrity of the inbox, along the runs whose steps satisfy a guard.

Main results:

* `Tables.step_record`, `Tables.step_new_record` — what a step can do to a record, and to a missing
  one;
* `TaskEngine.recorded_of_reachable` — records and runs belong together;
* `TaskEngine.keepsInbox` — **the inbox is intact in every run in which no result is committed again
  after it was pruned**;
* `TaskEngine.not_keepsInbox` — and in no other.
-/

import CatAgent.Serving

set_option relaxedAutoImplicit false
set_option autoImplicit false

/-! ### The table of records -/

namespace QueryTable

variable {results : QueryTable} {k runId : PyStr} {record : QueryResult}

/-- Only acknowledged records are evicted. -/
theorem not_mem_evicted (hk : results.get? k = some record) (hunacked : record.acked = false) :
    k ∉ results.evicted := by
  intro hmem
  obtain ⟨other, hother, hid⟩ := List.mem_map.1 (List.mem_of_mem_take hmem)
  obtain ⟨hvalue, hacked⟩ := List.mem_filter.1 hother
  have hget : results.get? other.payload.runId = some other := Table.mem_values_iff.1 hvalue
  rw [hid, hk] at hget
  cases hget
  rw [hunacked] at hacked
  cases hacked

/-- A record that is left by `ack` was there before, and is the old one or newly acknowledged. -/
theorem get?_ack {record' : QueryResult}
    (h : (prune (results.markAcked runId)).get? k = some record') :
    ∃ record, results.get? k = some record ∧
      record' = if runId = k then { record with acked := true } else record := by
  have hmod := (Table.get?_filter_eq_some.1 h).1
  rw [markAcked, Table.get?_modify] at hmod
  split_ifs at hmod with heq
  · obtain ⟨record, hrecord, rfl⟩ := Option.map_eq_some_iff.1 hmod
    exact ⟨record, hrecord, by rw [if_pos heq]⟩
  · exact ⟨record', hmod, by rw [if_neg heq]⟩

/-- What `ack` makes of a record. -/
theorem get?_ack_cases (runId : PyStr) (hk : results.get? k = some record) :
    (prune (results.markAcked runId)).get? k = none ∨
      (prune (results.markAcked runId)).get? k =
        some (if runId = k then { record with acked := true } else record) := by
  cases hget : (prune (results.markAcked runId)).get? k with
  | none => exact Or.inl rfl
  | some record' =>
      obtain ⟨record₀, hrecord₀, rfl⟩ := get?_ack hget
      rw [hk] at hrecord₀
      cases hrecord₀
      exact Or.inr rfl

/-- Acknowledging another record does not remove one that is not acknowledged. -/
theorem get?_ack_of_ne (hk : results.get? k = some record) (hunacked : record.acked = false)
    (hne : runId ≠ k) : (prune (results.markAcked runId)).get? k = some record := by
  have hmod : (results.markAcked runId).get? k = some record := by
    rw [markAcked, Table.get?_modify, if_neg hne, hk]
  refine Table.get?_filter_eq_some.2 ⟨hmod, decide_eq_true ?_⟩
  have hid : record.payload.runId = k := Table.key_of_get? (t := results) hk
  rw [hid]
  exact not_mem_evicted hmod hunacked

/-- Of records that are all acknowledged the first ones are pruned. -/
theorem values_prune (h : ∀ record ∈ results.values, record.acked = true) :
    (prune results).values = results.values.drop (results.values.length - maxAcked) := by
  have hids : results.ackedIds = results.values.map fun record => record.payload.runId := by
    rw [ackedIds, List.filter_eq_self.2 h]
  rw [prune, Table.values_filter, evicted, hids, List.length_map]
  generalize results.values.length - maxAcked = n
  refine (List.filter_congr fun record _ => ?_).trans
    (Table.filter_not_mem_take results.nodup_keys n)
  exact decide_eq_decide.2 Iff.rfl

/-- A record is published and acknowledged, when all others are. -/
theorem values_published (h : ∀ record ∈ results.values, record.acked = true)
    (hnew : results.get? record.payload.runId = none) :
    (prune (markAcked record.payload.runId (results.put record))).values =
      (results.values ++ [{ record with acked := true }]).drop
        (results.values.length + 1 - maxAcked) := by
  have hvalues : (markAcked record.payload.runId (results.put record)).values =
      results.values ++ [{ record with acked := true }] := by
    rw [markAcked, Table.values_modify, Table.values_put_new hnew, List.map_append]
    simp only [List.map_cons, List.map_nil, if_true]
    congr 1
    refine (List.map_congr_left fun other hother => ?_).trans (List.map_id _)
    refine if_neg fun heq => ?_
    rw [Table.mem_values_iff, heq, hnew] at hother
    cases hother
  rw [values_prune, hvalues, List.length_append, List.length_singleton]
  rw [hvalues]
  intro other hother
  rcases List.mem_append.1 hother with hold | hlast
  · exact h other hold
  · rw [List.mem_singleton] at hlast
    rw [hlast]

/-- The record of `k` is the oldest one, `n` records have come after it, and all are
acknowledged. -/
def Archive (results : QueryTable) (k : PyStr) (n : ℕ) : Prop :=
  ∃ record others, results.values = record :: others ∧ record.payload.runId = k ∧
    others.length = n ∧ ∀ record ∈ results.values, record.acked = true

theorem Archive.room {n : ℕ} (h : results.Archive k n) : results.unackedCount < maxPending := by
  obtain ⟨_, _, _, _, _, hacked⟩ := h
  have hzero : results.unackedCount = 0 := by
    refine List.countP_eq_zero.2 fun record hrecord => ?_
    simp [hacked record hrecord]
  rw [hzero]
  exact Nat.succ_pos _

/-- The oldest record moves towards its end with every result. -/
theorem Archive.published {n : ℕ} (h : results.Archive k n) (hn : n + 1 < maxAcked)
    (hnew : results.get? record.payload.runId = none) :
    Archive (prune (markAcked record.payload.runId (results.put record))) k (n + 1) := by
  obtain ⟨first, others, hvalues, hkey, hlen, hacked⟩ := h
  have hafter := values_published hacked hnew
  rw [hvalues, List.length_cons, hlen, Nat.sub_eq_zero_of_le (by omega), List.drop_zero,
    List.cons_append] at hafter
  refine ⟨first, others ++ [{ record with acked := true }], hafter, hkey, by simp [hlen], ?_⟩
  intro other hother
  rw [hafter, List.mem_cons, List.mem_append, List.mem_singleton] at hother
  rcases hother with rfl | hold | rfl
  · exact hacked _ (by rw [hvalues]; exact List.mem_cons_self)
  · exact hacked _ (by rw [hvalues]; exact List.mem_cons_of_mem _ hold)
  · rfl

/-- After as many results as may stay, the oldest record is gone, and no other is unread. -/
theorem Archive.pruned (h : results.Archive k (maxAcked - 1))
    (hnew : results.get? record.payload.runId = none) :
    (prune (markAcked record.payload.runId (results.put record))).get? k = none ∧
      ∀ other ∈ (prune (markAcked record.payload.runId (results.put record))).values,
        other.acked = true := by
  obtain ⟨first, others, hvalues, hkey, hlen, hacked⟩ := h
  have hnodup := results.nodup_keys
  rw [hvalues, List.map_cons, List.nodup_cons] at hnodup
  have hafter := values_published hacked hnew
  rw [hvalues, List.length_cons, hlen, show maxAcked - 1 + 1 + 1 - maxAcked = 1 from rfl,
    List.cons_append, List.drop_succ_cons, List.drop_zero] at hafter
  constructor
  · refine Option.eq_none_iff_forall_ne_some.2 fun other hother => ?_
    have hmem := Table.mem_values_of_get? hother
    have hid : other.payload.runId = k :=
      Table.key_of_get? (t := prune (markAcked record.payload.runId (results.put record))) hother
    rw [hafter, List.mem_append, List.mem_singleton] at hmem
    rcases hmem with hold | rfl
    · refine hnodup.1 (List.mem_map.2 ⟨other, hold, hid.trans hkey.symm⟩)
    · have hfirst := Table.mem_values_iff.1 (hvalues ▸ List.mem_cons_self : first ∈ results.values)
      rw [hkey] at hfirst
      change record.payload.runId = k at hid
      rw [hid, hfirst] at hnew
      cases hnew
  · intro other hother
    rw [hafter, List.mem_append, List.mem_singleton] at hother
    rcases hother with hold | rfl
    · exact hacked _ (by rw [hvalues]; exact List.mem_cons_of_mem _ hold)
    · rfl

/-- A result that is published while every other record is acknowledged is the one that is
listed. -/
theorem listed_put (h : ∀ record ∈ results.values, record.acked = true)
    (hnew : results.get? record.payload.runId = none) (hunacked : record.acked = false)
    {limit : ℕ} (hlimit : 0 < limit) :
    (listed limit (results.put record)) = [record.payload] := by
  have hnone : results.values.filter (fun record => ! record.acked) = [] := by
    refine List.filter_eq_nil_iff.2 fun other hother => ?_
    simp [h other hother]
  obtain ⟨limit, rfl⟩ := Nat.exists_eq_succ_of_ne_zero hlimit.ne'
  rw [listed, Table.values_put_new hnew, List.filter_append, hnone]
  simp [hunacked]

end QueryTable

/-! ### Steps -/

namespace Tables

variable {host : Host} {P : Permits} {t t' : Tables} {k : PyStr}

/-- No result of the run `k` is committed. -/
def commitsNone (k : PyStr) : Permits := { Permits.all with commit := fun runId => runId ≠ k }

/-- No result of the run `k` is acknowledged. -/
def acksNone (k : PyStr) : Permits := { Permits.all with ack := fun runId => runId ≠ k }

/-- **What a step can do to a record**: nothing, unless it acknowledges it or some other one; then
the record may be acknowledged, or pruned if it is acknowledged. -/
theorem step_record (h : Step host P t t') {record : QueryResult}
    (hk : t.queryResults.get? k = some record) :
    t'.queryResults.get? k = some record ∨
      (P.ack k ∨ record.acked = true) ∧ (t'.queryResults.get? k = none ∨
        t'.queryResults.get? k = some { record with acked := true }) := by
  cases h with
  | commit _ owner peer offerId payload run hpayload hnone hrun hmay hquery hfull hP =>
      refine Or.inl ?_
      rw [Table.get?_put]
      split_ifs with heq
      · -- There is no record of the run that is committed.
        change payload.runId = k at heq
        rw [heq, hk] at hnone
        cases hnone
      · exact hk
  | ack _ runId other hother hP =>
      have hafter := QueryTable.get?_ack_cases runId hk
      cases hacked : record.acked with
      | false =>
          by_cases heq : runId = k
          · rw [if_pos heq] at hafter
            exact Or.inr ⟨Or.inl (heq ▸ hP), hafter⟩
          · exact Or.inl (QueryTable.get?_ack_of_ne hk hacked heq)
      | true =>
          have hsame : { record with acked := true } = record := by rw [← hacked]
          rw [hsame, ite_self] at hafter
          rw [hsame]
          exact Or.inr ⟨Or.inr rfl, hafter⟩
  | _ => exact Or.inl hk

/-- **What a step can do where there is no record**: commit one that has passed the checks, for a run
that is running. -/
theorem step_new_record (h : Step host P t t') (hk : t.queryResults.get? k = none)
    {record' : QueryResult} (hk' : t'.queryResults.get? k = some record') :
    P.commit k ∧ QueryPayload.Acceptable k record'.payload ∧ t'.runs = t.runs ∧
      t'.registry = t.registry ∧
      ∃ run, t.runs.get? k = some run ∧ run.state = RunState.running ∧
        run.current t.registry.tasks = true ∧ run.owner = record'.owner ∧ run.peer = record'.peer ∧
        run.event.offerId = record'.offerId := by
  cases h with
  | commit _ owner peer offerId payload run hpayload hnone hrun hmay hquery hfull hP =>
      rw [Table.get?_put] at hk'
      split_ifs at hk' with heq
      · cases hk'
        change payload.runId = k at heq
        subst heq
        simp only [QueryTable.mayPublish, Bool.and_eq_true, decide_eq_true_eq] at hmay
        exact ⟨hP, hpayload, rfl, rfl, run, hrun, hmay.1.1.1.2, hmay.1.1.2, hmay.1.1.1.1.1.1,
          hmay.1.1.1.1.1.2, hmay.1.1.1.1.2⟩
      · rw [hk] at hk'
        cases hk'
  | ack _ runId other hother hP =>
      obtain ⟨record, hrecord, _⟩ := QueryTable.get?_ack hk'
      rw [hk] at hrecord
      cases hrecord
  | _ => exact absurd (hk.symm.trans hk') (by simp)

/-- A property of the record of `k` that acknowledging does not change is kept, as long as no result
of `k` is committed. -/
theorem step_kept {I : QueryResult → Prop} (hI : ∀ record, I record → I { record with acked := true })
    (h : Step host (commitsNone k) t t')
    (hk : ∀ record, t.queryResults.get? k = some record → I record) (record' : QueryResult)
    (hk' : t'.queryResults.get? k = some record') : I record' := by
  cases hget : t.queryResults.get? k with
  | none => exact absurd rfl (step_new_record h hget hk').1
  | some record =>
      have hrecord := hk record hget
      rcases step_record h hget with hsame | ⟨_, hnone | hacked⟩
      · rw [hsame] at hk'
        cases hk'
        exact hrecord
      · rw [hnone] at hk'
        cases hk'
      · rw [hacked] at hk'
        cases hk'
        exact hI record hrecord

/-! ### Records and runs -/

/-- The record of a run, and the run if it is still in the table: it has begun under the grant of
the record, and only the end `interrupted` has taken it away from the worker. -/
def Recorded (host : Host) (t : Tables) : Prop :=
  ∀ k record, t.queryResults.get? k = some record → (∃ n < t.registry.uuids, k = host.uuid4 n) ∧
    ∀ run, t.runs.get? k = some run → run.event.offerId = record.offerId ∧
      (run.state = RunState.running ∨ run.state.terminal = true) ∧
      (run.state = RunState.interrupted ∨ run.owner = record.owner ∧ run.peer = record.peer)

/-- A record stays with its run when the run follows its life cycle. -/
theorem recorded_of_later {runs' : RunTable} {record : QueryResult}
    (hold : ∀ run, t.runs.get? k = some run → run.event.offerId = record.offerId ∧
      (run.state = RunState.running ∨ run.state.terminal = true) ∧
      (run.state = RunState.interrupted ∨ run.owner = record.owner ∧ run.peer = record.peer))
    (hlater : ∀ run', runs'.get? k = some run' → ∃ run, t.runs.get? k = some run ∧ run.Later run')
    (run' : Run) (hk : runs'.get? k = some run') : run'.event.offerId = record.offerId ∧
      (run'.state = RunState.running ∨ run'.state.terminal = true) ∧
      (run'.state = RunState.interrupted ∨
        run'.owner = record.owner ∧ run'.peer = record.peer) := by
  obtain ⟨run, hrun, hl⟩ := hlater run' hk
  obtain ⟨hoffer, hbegun, hheld⟩ := hold run hrun
  cases hend : run.state.terminal with
  | true =>
      rw [hl.ended hend]
      exact ⟨hoffer, hbegun, hheld⟩
  | false =>
      have hrunning : run.state = RunState.running := by
        rcases hbegun with hrunning | hterm
        · exact hrunning
        · rw [hend] at hterm
          cases hterm
      obtain ⟨hoffer', hbegun', hheld'⟩ := hl.begun hrunning
      refine ⟨hoffer'.trans hoffer, hbegun', ?_⟩
      rcases hheld' with hint | ⟨ho, hp⟩
      · exact Or.inl hint
      · rcases hheld with hint | ⟨ho', hp'⟩
        · rw [hrunning] at hint
          cases hint
        · exact Or.inr ⟨ho.trans ho', hp.trans hp'⟩

/-- **A step keeps records and runs together.** -/
theorem step_recorded (h : Step host P t t') (ha : Allocated host t) (hr : Recorded host t) :
    Recorded host t' := by
  intro k record' hk'
  have hl := step_later h
  -- The runs of the table that is left have followed their life cycle: `k` is not a new run.
  have hruns : ∀ n < t.registry.uuids, k = host.uuid4 n → ∀ run',
      t'.runs.get? k = some run' → ∃ run, t.runs.get? k = some run ∧ run.Later run' := by
    rintro n hn rfl run' hrun'
    rcases hl.runs _ run' hrun' with hold | ⟨m, hm, _, heq⟩
    · exact hold
    · have := host.uuid4_injective heq
      omega
  cases hget : t.queryResults.get? k with
  | some record =>
      obtain ⟨⟨n, hn, hid⟩, hold⟩ := hr k record hget
      have hsame : record'.owner = record.owner ∧ record'.peer = record.peer ∧
          record'.offerId = record.offerId := by
        rcases step_record h hget with hsame | ⟨_, hnone | hacked⟩
        · rw [hsame] at hk'
          cases hk'
          exact ⟨rfl, rfl, rfl⟩
        · rw [hnone] at hk'
          cases hk'
        · rw [hacked] at hk'
          cases hk'
          exact ⟨rfl, rfl, rfl⟩
      refine ⟨⟨n, hn.trans_le hl.uuids_le, hid⟩, fun run' hrun' => ?_⟩
      have hnew := recorded_of_later hold (hruns n hn hid) run' hrun'
      rwa [← hsame.1, ← hsame.2.1, ← hsame.2.2] at hnew
  | none =>
      -- The record has just been committed, for a run that is running.
      obtain ⟨_, _, hruns', hreg, run, hrun, hstate, _, howner, hpeer, hoffer⟩ :=
        step_new_record h hget hk'
      rw [hreg, hruns']
      refine ⟨ha _ run hrun, fun run' hrun' => ?_⟩
      rw [hrun] at hrun'
      cases hrun'
      exact ⟨hoffer, Or.inl hstate, Or.inr ⟨howner, hpeer⟩⟩

end Tables

namespace TaskEngine

open Tables (Recorded Allocated Permits commitsNone acksNone)

variable {host : Host} {s : TaskEngine}

/-- **Records and runs belong together.** -/
theorem recorded_of_reachable (hs : (machine host).Reachable s) : Recorded host s.toTables := by
  have hboth : Allocated host s.toTables ∧ Recorded host s.toTables := by
    refine tables_invariant (P := Permits.all)
      (I := fun t => Allocated host t ∧ Recorded host t) (hs.mono fun s i _ => s.allowed_all i)
      ?_ ?_ ?_
    · intro now tasks bindings uuids _
      refine ⟨fun k run hk => ?_, fun k record hk => ?_⟩
      · cases hk
      · cases hk
    · rintro t t' ⟨ha, hr⟩ hstep
      exact ⟨Tables.later_allocated (Tables.step_later hstep) ha, Tables.step_recorded hstep ha hr⟩
    · rintro t t' ⟨ha, hr⟩ hrebuilt
      refine ⟨Tables.later_allocated hrebuilt.later ha, fun k record hk => ?_⟩
      rw [← hrebuilt.queryResults] at hk
      obtain ⟨⟨n, hn, hid⟩, hold⟩ := hr k record hk
      rw [← hrebuilt.runs]
      exact ⟨⟨n, hn.trans_le hrebuilt.uuids_le, hid⟩, hold⟩
  exact hboth.2

/-- The integrity of the inbox for one run identifier, from the state `s` on, along the runs whose
steps satisfy the guard `ok`. -/
structure KeepsInbox (host : Host) (ok : TaskEngine → Input → Prop) (s : TaskEngine)
    (runId : PyStr) : Prop where
  /-- The payload of a record never changes. -/
  payload : ∀ s' record record', (machine host).Leads ok s s' →
    s.queryResults.get? runId = some record → s'.queryResults.get? runId = some record' →
    record'.payload = record.payload
  /-- As long as it is not acknowledged, a record is neither removed nor changed. -/
  unacked : ∀ s' record, (machine host).Leads (fun s i => ok s i ∧ s.Allowed (acksNone runId) i)
    s s' → s.queryResults.get? runId = some record → record.acked = false →
    s'.queryResults.get? runId = some record
  /-- Once `notifications.ack` has returned `True`, `notifications.list` does not return the result
  any more. -/
  acked : ∀ env peer s', (s.call host env (Op.notificationsAck [Json.str runId]) peer).1 =
      Except.ok (Reply.bool true) →
    (machine host).Leads ok (s.call host env (Op.notificationsAck [Json.str runId]) peer).2 s' →
    ∀ env' peer' limit payloads, (s'.call host env' (Op.notificationsList limit) peer').1 =
      Except.ok (Reply.payloads payloads) → ∀ p ∈ payloads, p.runId ≠ runId

/-- What `notifications.ack` leaves of the record that it names is acknowledged. -/
theorem acked_of_ack {env : Env} {peer runId : PyStr}
    (h : (s.call host env (Op.notificationsAck [Json.str runId]) peer).1 =
      Except.ok (Reply.bool true)) (record : QueryResult)
    (hk : (s.call host env (Op.notificationsAck [Json.str runId]) peer).2.queryResults.get? runId =
      some record) : record.acked = true := by
  obtain ⟨t, hb, ht⟩ := transact_returned h
  obtain ⟨⟨b, results⟩, hack, hb⟩ := bind_eq_ok_iff.1 hb
  cases hb
  rw [call, ht] at hk
  rcases QueryTable.ack_eq_ok hack with ⟨hfalse, _⟩ | ⟨runId', record₀, hargs, _, _, rfl⟩
  · cases hfalse
  · cases hargs
    obtain ⟨record₁, _, rfl⟩ := QueryTable.get?_ack hk
    rw [if_pos rfl]

/-- `notifications.list` returns payloads of records that are not acknowledged. -/
theorem mem_of_list {env : Env} {peer : PyStr} {limit : Option Json} {payloads : List QueryPayload}
    (h : (s.call host env (Op.notificationsList limit) peer).1 =
      Except.ok (Reply.payloads payloads)) {p : QueryPayload} (hp : p ∈ payloads) :
    ∃ record, s.queryResults.get? p.runId = some record ∧ record.acked = false := by
  obtain ⟨t, hb, _⟩ := transact_returned h
  obtain ⟨n, _, hb⟩ := bind_eq_ok_iff.1 hb
  cases hb
  obtain ⟨record, hrecord, rfl⟩ := List.mem_map.1 (List.mem_of_mem_take hp)
  obtain ⟨hvalue, hunacked⟩ := List.mem_filter.1 hrecord
  exact ⟨record, Table.mem_values_iff.1 hvalue, by simpa using hunacked⟩

/-- **The integrity of the inbox.**  In every run in which no result of a run is committed after its
record was pruned, the payload of its record never changes, the record is not removed before it is
acknowledged, and an acknowledged result is not listed again. -/
theorem keepsInbox (hs : (machine host).Reachable s) (runId : PyStr) :
    KeepsInbox host (Allowed (commitsNone runId)) s runId where
  payload := by
    intro s' record record' hl hk hk'
    refine tables_leads hs hl (I := fun t => ∀ r, t.queryResults.get? runId = some r →
      r.payload = record.payload) ?_ ?_ ?_ record' hk'
    · intro r hr
      rw [hk] at hr
      cases hr
      rfl
    · intro t t' hI hstep
      exact Tables.step_kept (fun r hr => hr) hstep hI
    · intro t t' hI hrebuilt r hr
      rw [← hrebuilt.queryResults] at hr
      exact hI r hr
  unacked := by
    intro s' record hl hk hunacked
    refine tables_leads hs (hl.mono fun _ _ h => h.2)
      (I := fun t => t.queryResults.get? runId = some record) hk ?_ ?_
    · intro t t' hI hstep
      rcases Tables.step_record hstep hI with hsame | ⟨hP | hacked, _⟩
      · exact hsame
      · exact absurd rfl hP
      · rw [hunacked] at hacked
        cases hacked
    · intro t t' hI hrebuilt
      rw [← hrebuilt.queryResults]
      exact hI
  acked := by
    intro env peer s' hack hl env' peer' limit payloads hlist p hp heq
    obtain ⟨record, hrecord, hunacked⟩ := mem_of_list hlist hp
    rw [heq] at hrecord
    have hacked : record.acked = true := by
      refine tables_leads (hs.step (Input.call env _ peer)) hl
        (I := fun t => ∀ r, t.queryResults.get? runId = some r → r.acked = true) ?_ ?_ ?_
        record hrecord
      · exact acked_of_ack hack
      · intro t t' hI hstep
        exact Tables.step_kept (fun _ _ => rfl) hstep hI
      · intro t t' hI hrebuilt r hr
        rw [← hrebuilt.queryResults] at hr
        exact hI r hr
    rw [hunacked] at hacked
    cases hacked

/-! ### Publishing again what was removed -/

open Tables (Idle)

/-- No record has the identifier of the next run. -/
theorem get?_fresh (hs : (machine host).Reachable s) :
    s.queryResults.get? (host.uuid4 s.registry.uuids) = none := by
  cases hget : s.queryResults.get? (host.uuid4 s.registry.uuids) with
  | none => rfl
  | some record =>
      obtain ⟨⟨n, hn, hid⟩, _⟩ := recorded_of_reachable hs _ record hget
      exact absurd (host.uuid4_injective hid) hn.ne'

/-- The result of one more run. -/
def answer (runId : PyStr) (task : TaskRecord) : QueryPayload where
  runId := runId
  taskId := task.taskId
  source := "manual"
  agentId := "agent_1"
  agentOk := true
  text := "ok"

theorem acceptable_answer (runId : PyStr) (task : TaskRecord) :
    QueryPayload.Acceptable runId (answer runId task) where
  runId_eq := rfl
  agentId_ne := (by decide : PyStr.ofString "agent_1" ≠ [])
  text_ne := (by decide : PyStr.strip (PyStr.ofString "ok") ≠ [])
  text_le := (Nat.le_add_left 2 4094 : 2 ≤ QueryPayload.maxQueryText)
  text_ok := (by simp : PyStr.Encodable (PyStr.ofString "ok"))
  source_ok := (by simp : PyStr.Encodable (PyStr.ofString "manual"))
  agentId_ok := (by simp : PyStr.Encodable (PyStr.ofString "agent_1"))

section Pruned

variable {task : TaskRecord} {e : Executor} {owner peer k : PyStr} {l : List Run}

/-- As long as it stays, the oldest record moves towards its end. -/
theorem archive_leads (howner : owner ≠ []) (hpeer : peer ≠ []) (hs : (machine host).Reachable s)
    (h : s.toTables.Idle task e owner peer l) (ha : s.queryResults.Archive k 0) (n : ℕ)
    (hn : n < QueryTable.maxAcked) :
    ∃ s', (machine host).Leads (fun _ _ => True) s s' ∧ s'.toTables.Idle task e owner peer l ∧
      s'.registry.tasks = s.registry.tasks ∧ s'.queryResults.Archive k n := by
  induction n with
  | zero => exact ⟨s, Machine.Leads.refl, h, rfl, ha⟩
  | succ n ih =>
      obtain ⟨s₁, hl₁, h₁, htasks₁, ha₁⟩ := ih (Nat.lt_of_succ_lt hn)
      have hs₁ := Machine.Reach.leads hs hl₁
      obtain ⟨s₂, hl₂, h₂, htasks₂, hq₂⟩ := served hs₁ h₁ howner hpeer
        (acceptable_answer (host.uuid4 s₁.registry.uuids) task) rfl rfl (get?_fresh hs₁) ha₁.room
      refine ⟨s₂, hl₁.trans hl₂, h₂, htasks₂.trans htasks₁, ?_⟩
      rw [hq₂]
      exact ha₁.published hn (get?_fresh hs₁)

/-- In the end the oldest record is pruned, and its run is as it was. -/
theorem pruned_leads (howner : owner ≠ []) (hpeer : peer ≠ []) (hs : (machine host).Reachable s)
    (h : s.toTables.Idle task e owner peer l) (ha : s.queryResults.Archive k 0) :
    ∃ s', (machine host).Leads (fun _ _ => True) s s' ∧ s'.toTables.Live l ∧
      s'.registry.tasks = s.registry.tasks ∧ s'.queryResults.get? k = none ∧
      ∀ record ∈ s'.queryResults.values, record.acked = true := by
  obtain ⟨s₁, hl₁, h₁, htasks₁, ha₁⟩ :=
    archive_leads howner hpeer hs h ha (QueryTable.maxAcked - 1) (Nat.lt_succ_self _)
  have hs₁ := Machine.Reach.leads hs hl₁
  obtain ⟨s₂, hl₂, h₂, htasks₂, hq₂⟩ := served hs₁ h₁ howner hpeer
    (acceptable_answer (host.uuid4 s₁.registry.uuids) task) rfl rfl (get?_fresh hs₁) ha₁.room
  obtain ⟨hnone, hacked⟩ : s₂.queryResults.get? k = none ∧
      ∀ record ∈ s₂.queryResults.values, record.acked = true := by
    rw [hq₂]
    exact ha₁.pruned (get?_fresh hs₁)
  exact ⟨s₂, hl₁.trans hl₂, h₂.live, htasks₂.trans htasks₁, hnone, hacked⟩

end Pruned

/-- A result whose record was pruned is committed again, and then it is listed. -/
theorem listed_again (host : Host) {p : QueryPayload} {run : Run} {owner peer offerId : PyStr} (howner : owner ≠ [])
    (hpeer : peer ≠ []) (hrunId : p.runId ≠ []) (hp : QueryPayload.Acceptable p.runId p)
    (hrun : s.runs.get? p.runId = some run)
    (hmay : QueryTable.mayPublish s.registry.tasks owner peer offerId p run = true)
    (hquery : QueryTable.isQuery s.registry.tasks p.taskId = true)
    (hnone : s.queryResults.get? p.runId = none)
    (hacked : ∀ record ∈ s.queryResults.values, record.acked = true) :
    ∃ s', (machine host).Leads (fun _ _ => True) s s' ∧
      (s'.call host Env.quiet (Op.notificationsList none) []).1 =
        Except.ok (Reply.payloads [p]) := by
  have hstate : run.state = RunState.running := by
    simp only [QueryTable.mayPublish, Bool.and_eq_true, decide_eq_true_eq] at hmay
    exact hmay.1.1.1.2
  have hrun' : (s.toTables.reconcile Env.quiet).runs.get? p.runId = some run :=
    Tables.get?_reconcile_running hrun hstate rfl
  have hroom : s.queryResults.unackedCount < QueryTable.maxPending := by
    have hzero : s.queryResults.unackedCount = 0 := by
      refine List.countP_eq_zero.2 fun record hrecord => ?_
      simp [hacked record hrecord]
    rw [hzero]
    exact Nat.succ_pos _
  have hchecked : s.queryResults.publishChecked s.registry.tasks
      (s.toTables.reconcile Env.quiet).runs owner peer offerId p =
        Except.ok (true, s.queryResults.put { owner, peer, offerId, payload := p, acked := false }) := by
    simp only [QueryTable.publishChecked, hnone, QueryTable.commit, hrun', hmay, hquery]
    simp [not_le.2 hroom]
  have hd := Tables.publish_of_acceptable host howner hpeer hrunId hp hchecked
  obtain ⟨s₁, hl₁, hs₁⟩ := leads_of_dispatch Machine.Leads.refl rfl hd
  refine ⟨s₁, hl₁, ?_⟩
  have hlist : s₁.toTables.dispatch host Env.quiet [] (Op.notificationsList none) =
      Except.ok (Reply.payloads [p], s₁.toTables) := by
    refine bind_eq_ok_iff.2 ⟨100, rfl, ?_⟩
    have hlisted : s₁.queryResults.listed 100 = [p] := by
      rw [hs₁]
      exact QueryTable.listed_put hacked hnone rfl (by omega)
    rw [← hlisted]
    rfl
  exact (transact_of_ok _ hlist rfl).1

/-- The payload that the worker `w` publishes. -/
def lost : QueryPayload where
  runId := Host.ascii.uuid4 2
  taskId := 1
  source := "manual"
  agentId := "agent_1"
  agentOk := true
  text := "done"

theorem acceptable_lost : QueryPayload.Acceptable lost.runId lost :=
  ⟨rfl, by decide, by decide, by decide +kernel, by decide, by decide, by decide⟩

/-- Two queries; a worker begins a run of the first one and publishes its result. -/
def twoQueries : List Input :=
  let query := AdminOp.createPeriodicTask "watch" "look" ["see"] (PyNumber.finite 60) "query"
    "litert" none
  [Input.call Env.quiet (Op.admin query) [], Input.call Env.quiet (Op.admin query) [],
    Input.call Env.quiet (Op.runTask 1) [],
    Input.call Env.quiet (Op.worker "w" (WorkerOp.pull "litert" [] [])) "p",
    Input.call Env.quiet
      (Op.worker "w" (WorkerOp.begin (Host.ascii.uuid4 2) (Host.ascii.uuid4 3))) "p",
    Input.call Env.quiet (Tables.publishOp "w" (Host.ascii.uuid4 2) (Host.ascii.uuid4 3) lost) "p"]

/-- The inbox is intact while a result is published again before it is pruned. -/
theorem keepsInbox_twoQueries : KeepsInbox Host.ascii (Allowed (commitsNone (Host.ascii.uuid4 2)))
    (after Host.ascii twoQueries) (Host.ascii.uuid4 2) :=
  keepsInbox (reachable_after Host.ascii twoQueries) (Host.ascii.uuid4 2)

/-- **An acknowledged result can be listed again**: its worker has not seen the reply, 128 other
results are published and acknowledged, and then the worker publishes the result once more. -/
theorem not_keepsInbox : ¬ ∀ s, (machine Host.ascii).Reachable s → ∀ runId,
    KeepsInbox Host.ascii (fun _ _ => True) s runId := by
  intro h
  let s₀ := after Host.ascii twoQueries
  let s₁ := (s₀.call Host.ascii Env.quiet (Op.notificationsAck [Json.str lost.runId]) []).2
  have hs₀ : (machine Host.ascii).Reachable s₀ := reachable_after Host.ascii twoQueries
  have hs₁ : (machine Host.ascii).Reachable s₁ :=
    hs₀.step (Input.call Env.quiet (Op.notificationsAck [Json.str lost.runId]) [])
  have hack : (s₀.call Host.ascii Env.quiet (Op.notificationsAck [Json.str lost.runId]) []).1 =
      Except.ok (Reply.bool true) := by decide +kernel
  -- What the inbox, the runs and the tasks then look like.
  have hinbox : s₁.queryResults.values.map (fun record => (record.payload.runId, record.acked)) =
      [(lost.runId, true)] := by decide +kernel
  have hruns : (s₁.runs.values.filter fun run => ! run.state.terminal).map
      (fun run => (run.event.runId, run.state, run.event.taskId)) =
        [(lost.runId, RunState.running, some 1)] := by decide +kernel
  have hgrant : (s₁.runs.get? lost.runId).all (fun run => QueryTable.mayPublish s₁.registry.tasks
      "w" "p" (Host.ascii.uuid4 3) lost run) = true := by decide +kernel
  have hquery : QueryTable.isQuery s₁.registry.tasks lost.taskId = true := by decide +kernel
  have htask : (s₁.registry.tasks.get? 2).any (fun task => decide (task.taskId = 2 ∧
      task.enabled = true ∧ task.method = TaskMethod.query ∧
      task.executor = Policy.pinned Executor.litert)) = true := by decide +kernel
  have hworker : (s₁.workers.get? (PyStr.ofString "v", PyStr.ofString "q")).isNone = true := by
    decide +kernel
  obtain ⟨task, hfound, htask⟩ := (Option.any_eq_true _ _).1 htask
  rw [decide_eq_true_eq] at htask
  obtain ⟨hid, henabled, hmethod, hpinned⟩ := htask
  obtain ⟨run, hrun, hfields⟩ := List.map_eq_singleton_iff.1 hruns
  rw [Prod.mk.injEq, Prod.mk.injEq] at hfields
  obtain ⟨hrunId, hrunning, hrunTask⟩ := hfields
  have hlive := Tables.live_of_values hrun
  have hidle : s₁.toTables.Idle task Executor.litert "v" "q" [run] :=
    { found := by rw [hid]; exact hfound
      enabled := henabled
      query := hmethod
      pinned := hpinned
      live := hlive
      running := by
        rintro r hr
        rw [List.mem_singleton] at hr
        subst hr
        refine ⟨hrunning, ?_⟩
        rw [hrunTask, hid]
        decide
      room := Nat.succ_lt_succ (Nat.succ_pos _)
      unregistered := Option.isNone_iff_eq_none.1 hworker }
  have harchive : s₁.queryResults.Archive lost.runId 0 := by
    obtain ⟨record, hrecord, hfields⟩ := List.map_eq_singleton_iff.1 hinbox
    rw [Prod.mk.injEq] at hfields
    refine ⟨record, [], hrecord, hfields.1, rfl, ?_⟩
    rw [hrecord]
    simpa using hfields.2
  obtain ⟨s₂, hl₂, hlive₂, htasks₂, hnone₂, hacked₂⟩ :=
    pruned_leads (by decide) (by decide) hs₁ hidle harchive
  have hget : ∀ {t : Tables}, t.Live [run] → t.runs.get? lost.runId = some run := by
    intro t ht
    rw [← hrunId]
    exact ht.get? (List.mem_singleton_self run) (by rw [hrunning]; rfl)
  have hmay : QueryTable.mayPublish s₂.registry.tasks "w" "p" (Host.ascii.uuid4 3) lost run =
      true := by
    rw [hget hlive, Option.all_some] at hgrant
    rwa [htasks₂]
  obtain ⟨s₃, hl₃, hlist⟩ := listed_again Host.ascii (by decide) (by decide) (by decide)
    acceptable_lost (hget hlive₂) hmay (by rw [htasks₂]; exact hquery) hnone₂
    hacked₂
  exact (h s₀ hs₀ lost.runId).acked Env.quiet [] s₃ hack (hl₂.trans hl₃) Env.quiet [] none _ hlist
    lost (List.mem_singleton_self _) rfl

end TaskEngine
