/-
**The inbox of query results.**

The answer of a `query` task is delivered to a human.  The worker publishes it while the run is
still running; the engine keeps it under the identifier of the run until it has been acknowledged,
and the last acknowledged results a little longer.

A published result arrives as JSON.  The engine checks its fields one by one before it looks at
its tables (`QueryPayload.validate`).

Main definitions:

* `QueryPayload`, `QueryResult`, `QueryTable` — payloads, records and the table of records;
* `QueryPayload.toJson`, `QueryPayload.validate` — a payload on the wire, and the checks;
* `QueryTable.listed`, `QueryTable.ack`, `QueryTable.prune`, `QueryTable.publish` — the inbox.

Main results:

* `QueryPayload.validate_toJson_iff` — which payloads pass the checks;
* `QueryPayload.validate_spec` — what has passed them is well formed.
-/

import CatAgent.RunTable
import CatAgent.Json

set_option relaxedAutoImplicit false
set_option autoImplicit false

/-- The payload of a query result. -/
structure QueryPayload where
  runId : PyStr
  taskId : ℤ
  source : PyStr
  agentId : PyStr
  agentOk : Bool
  text : PyStr
deriving DecidableEq

/-- A record of the inbox. -/
structure QueryResult where
  owner : PyStr
  peer : PyStr
  offerId : PyStr
  payload : QueryPayload
  acked : Bool
deriving DecidableEq

/-- `TaskEngine.query_results`. -/
abbrev QueryTable := Table fun record : QueryResult => record.payload.runId

namespace QueryPayload

/-- `MAX_QUERY_TEXT`. -/
def maxQueryText : ℕ := 4096

/-- The payload as the worker sends it. -/
def toJson (p : QueryPayload) : Json :=
  Json.obj
    [(PyStr.ofString "type", Json.str "task_query_result"),
      (PyStr.ofString "task_id", Json.int p.taskId),
      (PyStr.ofString "run_id", Json.str p.runId),
      (PyStr.ofString "source", Json.str p.source),
      (PyStr.ofString "agent_id", Json.str p.agentId),
      (PyStr.ofString "agent_ok", Json.bool p.agentOk),
      (PyStr.ofString "text", Json.str p.text)]

/-- The fields that a payload has. -/
def fields : List PyStr :=
  [PyStr.ofString "type", PyStr.ofString "run_id", PyStr.ofString "task_id",
    PyStr.ofString "source", PyStr.ofString "agent_id", PyStr.ofString "agent_ok",
    PyStr.ofString "text"]

/-- A dictionary with exactly these fields. -/
def hasFields : Json → Bool
  | Json.obj items => decide (items.length = fields.length) &&
      fields.all fun k => (Json.find k items).isSome
  | _ => false

/-- The checks on the types of the fields and on the texts. -/
def read (runId : PyStr) (payload : Json) : Option QueryPayload := do
  let type ← (payload.get "type").bind Json.asStr
  let ident ← (payload.get "run_id").bind Json.asStr
  let taskId ← (payload.get "task_id").bind Json.asInt
  let source ← (payload.get "source").bind Json.asStr
  let agentId ← (payload.get "agent_id").bind Json.asStr
  let agentOk ← (payload.get "agent_ok").bind Json.asBool
  let text ← (payload.get "text").bind Json.asStr
  if type = PyStr.ofString "task_query_result" ∧ ident = runId ∧ agentId ≠ [] ∧
      PyStr.strip text ≠ [] ∧ text.length ≤ maxQueryText then
    some { runId, taskId, source, agentId, agentOk, text }
  else none

/-- The first part of `TaskEngine._publish_query_result`: the checks that do not look at the
tables. -/
def validate (runId : PyStr) (payload : Json) : Except PyError QueryPayload := do
  raiseIf (¬ hasFields payload) (PyError.taskStoreError "invalid QUERY result fields")
  match read runId payload with
  | none => throw (PyError.taskStoreError "invalid QUERY result payload")
  | some p =>
      raiseIf (¬ (PyStr.Encodable p.text ∧ PyStr.Encodable p.source ∧ PyStr.Encodable p.agentId))
        (PyError.taskStoreError "invalid QUERY result Unicode")
      return p

/-- A payload that the engine accepts for `runId`. -/
structure Acceptable (runId : PyStr) (p : QueryPayload) : Prop where
  runId_eq : p.runId = runId
  agentId_ne : p.agentId ≠ []
  text_ne : PyStr.strip p.text ≠ []
  text_le : p.text.length ≤ maxQueryText
  text_ok : PyStr.Encodable p.text
  source_ok : PyStr.Encodable p.source
  agentId_ok : PyStr.Encodable p.agentId

/-- **What has passed the checks is well formed.** -/
theorem validate_spec {runId : PyStr} {payload : Json} {p : QueryPayload}
    (h : validate runId payload = Except.ok p) : Acceptable runId p := by
  obtain ⟨_, _, h⟩ := bind_eq_ok_iff.1 h
  cases hr : read runId payload with
  | none =>
      simp only [hr] at h
      cases h
  | some q =>
      simp only [hr] at h
      obtain ⟨_, hu, h⟩ := bind_eq_ok_iff.1 h
      cases h
      rw [raiseIf_eq_ok_iff, not_not] at hu
      simp only [read, Option.bind_eq_bind, Option.bind_eq_some_iff] at hr
      obtain ⟨_, _, _, _, _, _, _, _, _, _, _, _, _, _, hr⟩ := hr
      split_ifs at hr with hc
      cases hr
      exact ⟨rfl, hc.2.2.1, hc.2.2.2.1, hc.2.2.2.2, hu.1, hu.2.1, hu.2.2⟩

@[simp] theorem hasFields_toJson (p : QueryPayload) : hasFields p.toJson = true := by
  have hk : ∀ a b : String, (PyStr.ofString a = PyStr.ofString b) = (a = b) :=
    fun a b => propext (PyStr.ofString_inj a b)
  simp [hasFields, toJson, fields, hk]

/-- **The payloads that pass the checks.** -/
theorem validate_toJson_iff (runId : PyStr) (p q : QueryPayload) :
    validate runId p.toJson = Except.ok q ↔ q = p ∧ Acceptable runId p := by
  have hread : read runId p.toJson =
      if p.runId = runId ∧ p.agentId ≠ [] ∧ PyStr.strip p.text ≠ [] ∧
        p.text.length ≤ maxQueryText then some p else none := by
    simp [read, toJson]
    split_ifs with hc
    · rw [← hc.1]
    · rfl
  constructor
  · intro h
    have hq := validate_spec h
    obtain ⟨_, _, h⟩ := bind_eq_ok_iff.1 h
    rw [hread] at h
    split_ifs at h with hc
    obtain ⟨_, hu, h⟩ := bind_eq_ok_iff.1 h
    cases h
    exact ⟨rfl, hq⟩
  · rintro ⟨rfl, hq⟩
    refine bind_eq_ok_iff.2 ⟨(), by simp, ?_⟩
    rw [hread, if_pos ⟨hq.runId_eq, hq.agentId_ne, hq.text_ne, hq.text_le⟩]
    refine bind_eq_ok_iff.2 ⟨(), ?_, rfl⟩
    rw [raiseIf_eq_ok_iff, not_not]
    exact ⟨hq.text_ok, hq.source_ok, hq.agentId_ok⟩

end QueryPayload

namespace QueryTable

/-- `MAX_PENDING_QUERY_RESULTS`. -/
def maxPending : ℕ := 1024

/-- `MAX_ACKED_QUERY_RESULTS`. -/
def maxAcked : ℕ := 128

/-- `notifications.list`: the first payloads that are not acknowledged. -/
def listed (limit : ℕ) (results : QueryTable) : List QueryPayload :=
  ((results.values.filter fun record => ! record.acked).map QueryResult.payload).take limit

/-- The limit of `notifications.list`. -/
def listLimit (limit : Option Json) : Except PyError ℕ :=
  match limit.getD (Json.int 100) with
  | Json.int n =>
      if 1 ≤ n ∧ n ≤ 100 then Except.ok n.toNat
      else Except.error (PyError.taskStoreError "invalid notification list limit")
  | _ => Except.error (PyError.taskStoreError "invalid notification list limit")

/-- The identifiers of the acknowledged records, in the order of publication. -/
def ackedIds (results : QueryTable) : List PyStr :=
  (results.values.filter fun record => record.acked).map fun record => record.payload.runId

/-- `acked[:-MAX_ACKED_QUERY_RESULTS]`. -/
def evicted (results : QueryTable) : List PyStr :=
  results.ackedIds.take (results.ackedIds.length - maxAcked)

/-- `TaskEngine._prune_query_results`: only acknowledged records may be evicted. -/
def prune (results : QueryTable) : QueryTable :=
  results.filter fun record => decide (record.payload.runId ∉ results.evicted)

/-- `record['acked'] = True`. -/
def markAcked (runId : PyStr) (results : QueryTable) : QueryTable :=
  results.modify runId (fun record => { record with acked := true }) fun _ => rfl

/-- `notifications.ack`. -/
def ack (args : List Json) (results : QueryTable) : Except PyError (Bool × QueryTable) :=
  match args with
  | [Json.str runId] =>
      match results.get? runId with
      | none => Except.ok (false, results)
      | some _ => Except.ok (true, prune (results.markAcked runId))
  | _ => Except.error (PyError.taskStoreError "ack requires run_id")

/-- How many records are not acknowledged. -/
def unackedCount (results : QueryTable) : ℕ :=
  results.values.countP fun record => ! record.acked

/-- The run that may publish: running, current, and granted to exactly this worker and offer. -/
def mayPublish (tasks : TaskTable) (owner peer offerId : PyStr) (payload : QueryPayload)
    (run : Run) : Bool :=
  decide (run.owner = owner) && decide (run.peer = peer) && decide (run.event.offerId = offerId) &&
    decide (run.state = RunState.running) && run.current tasks &&
    decide (run.event.taskId = some payload.taskId) && decide (run.event.source = payload.source)

/-- The task of a payload is a query. -/
def isQuery (tasks : TaskTable) (taskId : ℤ) : Bool :=
  match tasks.get? taskId with
  | none => false
  | some task => decide (task.method = TaskMethod.query)

/-- A payload that has passed the checks, against a record that exists: immutable after the first
commit. -/
def republish (existing : QueryResult) (owner peer offerId : PyStr) (payload : QueryPayload) :
    Except PyError Bool :=
  if existing.owner ≠ owner ∨ existing.peer ≠ peer ∨ existing.offerId ≠ offerId then
    Except.ok false
  else if existing.payload ≠ payload then
    Except.error (PyError.taskStoreError "conflicting QUERY result for same RUN")
  else Except.ok true

/-- A payload that has passed the checks, when there is no record for its run. -/
def commit (tasks : TaskTable) (runs : RunTable) (owner peer offerId : PyStr)
    (payload : QueryPayload) (results : QueryTable) : Except PyError (Bool × QueryTable) :=
  match runs.get? payload.runId with
  | none => Except.ok (false, results)
  | some run =>
      if mayPublish tasks owner peer offerId payload run ∧ isQuery tasks payload.taskId then
        if maxPending ≤ results.unackedCount then
          Except.error (PyError.taskStoreError
            "QUERY notification store full; acknowledge old results")
        else Except.ok (true, results.put { owner, peer, offerId, payload, acked := false })
      else Except.ok (false, results)

/-- The second part of `TaskEngine._publish_query_result`, for a payload that has passed the
checks. -/
def publishChecked (tasks : TaskTable) (runs : RunTable) (owner peer offerId : PyStr)
    (payload : QueryPayload) (results : QueryTable) : Except PyError (Bool × QueryTable) :=
  match results.get? payload.runId with
  | some existing => (republish existing owner peer offerId payload).map fun b => (b, results)
  | none => commit tasks runs owner peer offerId payload results

/-- `TaskEngine._publish_query_result`; an argument that is missing is `none`. -/
def publish (tasks : TaskTable) (runs : RunTable) (owner peer : PyStr)
    (runId offerId result : Option Json) (results : QueryTable) :
    Except PyError (Bool × QueryTable) :=
  match runId, offerId with
  | some (Json.str runId), some (Json.str offerId) => do
      raiseIf (runId = []) (PyError.taskStoreError "publish_result requires RUN and offer IDs")
      let payload ← QueryPayload.validate runId (result.getD Json.null)
      publishChecked tasks runs owner peer offerId payload results
  | _, _ => Except.error (PyError.taskStoreError "publish_result requires RUN and offer IDs")

/-! ### What the operations do -/

/-- Acknowledging succeeds by marking one record and pruning. -/
theorem ack_eq_ok {args : List Json} {results results' : QueryTable} {b : Bool}
    (h : results.ack args = Except.ok (b, results')) :
    (b = false ∧ results' = results) ∨
      ∃ runId record, args = [Json.str runId] ∧ results.get? runId = some record ∧ b = true ∧
        results' = prune (results.markAcked runId) := by
  unfold ack at h
  split at h
  · rename_i runId
    split at h
    · cases h
      exact Or.inl ⟨rfl, rfl⟩
    · rename_i record hr
      cases h
      exact Or.inr ⟨runId, record, rfl, hr, rfl, rfl⟩
  · cases h

/-- **Publishing returns in three ways**: the run already has this very record; the record is
committed; or the result is refused and nothing changes. -/
theorem publish_eq_ok {tasks : TaskTable} {runs : RunTable} {owner peer : PyStr}
    {runId offerId result : Option Json} {results results' : QueryTable} {b : Bool}
    (h : results.publish tasks runs owner peer runId offerId result = Except.ok (b, results')) :
    ∃ offer payload, offerId = some (Json.str offer) ∧ runId = some (Json.str payload.runId) ∧
      QueryPayload.validate payload.runId (result.getD Json.null) = Except.ok payload ∧
      (b = false ∧ results' = results ∨
        b = true ∧ results' = results ∧ (∃ existing, results.get? payload.runId = some existing ∧
          existing.owner = owner ∧ existing.peer = peer ∧ existing.offerId = offer ∧
          existing.payload = payload) ∨
        b = true ∧ results.get? payload.runId = none ∧ (∃ run, runs.get? payload.runId = some run ∧
          mayPublish tasks owner peer offer payload run = true) ∧
          isQuery tasks payload.taskId = true ∧ results.unackedCount < maxPending ∧
          results' = results.put { owner, peer, offerId := offer, payload, acked := false }) := by
  unfold publish at h
  split at h
  · rename_i runId offer
    obtain ⟨_, _, h₀⟩ := bind_eq_ok_iff.1 h
    obtain ⟨payload, hv, hc⟩ := bind_eq_ok_iff.1 h₀
    clear h h₀
    obtain rfl := (QueryPayload.validate_spec hv).runId_eq
    refine ⟨offer, payload, rfl, rfl, hv, ?_⟩
    unfold publishChecked at hc
    split at hc
    · rename_i existing he
      unfold republish at hc
      split_ifs at hc with h₁ h₂
      · cases hc
        exact Or.inl ⟨rfl, rfl⟩
      · cases hc
      · cases hc
        simp only [not_or, not_not] at h₁
        exact Or.inr (Or.inl ⟨rfl, rfl, existing, he, h₁.1, h₁.2.1, h₁.2.2, not_not.1 h₂⟩)
    · rename_i he
      unfold commit at hc
      split at hc
      · cases hc
        exact Or.inl ⟨rfl, rfl⟩
      · rename_i run hr
        split_ifs at hc with h₁ h₂
        · cases hc
          exact Or.inr (Or.inr ⟨rfl, he, ⟨run, hr, h₁.1⟩, h₁.2, not_le.1 h₂, rfl⟩)
        · cases hc
          exact Or.inl ⟨rfl, rfl⟩
  · cases h

end QueryTable
