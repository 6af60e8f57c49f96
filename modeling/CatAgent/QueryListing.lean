/-
**Listing the inbox over the socket.**

A worker reads the inbox with `notifications.list` and a limit of 100.  The service writes the
reply as one line of JSON, of any length; the client gives up on a line that is longer than 1 MiB.
A text may have 4096 characters, and a character may take four bytes, so 64 texts are enough to fill
a line.  From then on the worker cannot list the inbox, so it cannot acknowledge anything either.

Main definitions:

* `TaskRPC.listLine`, `TaskRPC.listResults` — the reply of the service, and what the client makes of
  it;
* `QueryPayload.byteLength`, `TaskRPC.replyBytes` — how many bytes a payload and a reply take;
* `TaskEngine.Readable` — the inbox can be listed, and what is listed can be acknowledged.

Main results:

* `TaskRPC.utf8Length_listLine` — the length of a reply, in the lengths of its strings;
* `TaskEngine.acceptable_of_reachable` — every record has passed the checks of `publish_result`;
* `TaskEngine.readable_iff` — **the inbox can be listed exactly when the reply has at most 1 MiB**;
* `TaskEngine.not_readable` — and there are states in which it is longer.
-/

import CatAgent.Inbox
import CatAgent.TaskRpc
import Mathlib.Algebra.Group.Action.Defs

set_option relaxedAutoImplicit false
set_option autoImplicit false

/-! ### The reply -/

namespace QueryPayload

/-- How many bytes the text of a payload takes in a reply. -/
def byteLength (p : QueryPayload) : ℕ :=
  104 + PyStr.utf8Length (PyStr.ofString (toString p.taskId)) + (if p.agentOk then 4 else 5) +
    PyStr.utf8Length (Json.escape p.runId) + PyStr.utf8Length (Json.escape p.source) +
    PyStr.utf8Length (Json.escape p.agentId) + PyStr.utf8Length (Json.escape p.text)

theorem utf8Length_dumps_toJson (fl : ℚ → PyStr) (p : QueryPayload) :
    PyStr.utf8Length (Json.dumps fl p.toJson) = p.byteLength := by
  have hbool : PyStr.utf8Length (Json.dumps fl (Json.bool p.agentOk)) =
      if p.agentOk then 4 else 5 := by
    cases p.agentOk <;> rfl
  have hkeys : PyStr.utf8Length (Json.escape "type") = 6 ∧
      PyStr.utf8Length (Json.escape "task_query_result") = 19 ∧
      PyStr.utf8Length (Json.escape "task_id") = 9 ∧ PyStr.utf8Length (Json.escape "run_id") = 8 ∧
      PyStr.utf8Length (Json.escape "source") = 8 ∧
      PyStr.utf8Length (Json.escape "agent_id") = 10 ∧
      PyStr.utf8Length (Json.escape "agent_ok") = 10 ∧
      PyStr.utf8Length (Json.escape "text") = 6 := by decide +kernel
  have hmarks : PyStr.utf8Length (PyStr.ofString ", ") = 2 ∧
      PyStr.utf8Length (PyStr.ofString ": ") = 2 ∧
      PyStr.utf8Length (PyStr.ofString "\x7b") = 1 ∧
      PyStr.utf8Length (PyStr.ofString "\x7d") = 1 := by decide +kernel
  simp only [toJson, Json.dumps.eq_8, Json.dumpsItems, PyStr.utf8Length_append, hkeys, hmarks, hbool,
    Json.dumps.eq_6, Json.dumps.eq_4, byteLength]
  omega

/-- A payload that has passed the checks can be encoded, when its identifier can be. -/
theorem Acceptable.encodable {runId : PyStr} {p : QueryPayload} (h : Acceptable runId p)
    (hid : PyStr.Encodable runId) : ∀ s ∈ Json.strings p.toJson, PyStr.Encodable s := by
  have hid : PyStr.Encodable p.runId := by rw [h.runId_eq]; exact hid
  simp [toJson, Json.strings, Json.stringsItems, hid, h.source_ok, h.agentId_ok, h.text_ok]

end QueryPayload

namespace TaskRPC

/-- The line that `Handler.handle` writes for a list of payloads. -/
def listLine (host : Host) (payloads : List QueryPayload) : PyStr :=
  Json.dumps host.strFloat (Json.obj [(PyStr.ofString "ok", Json.bool true),
    (PyStr.ofString "result", Json.arr (payloads.map QueryPayload.toJson))]) ++ PyStr.ofString "\n"

/-- `NativeTaskWorker.list_results`, when the service answers: `TaskRPC.call` returns the result of a
line that has arrived in full, and has at most 1 MiB. -/
def listResults (host : Host) (env : Env) (peer : PyStr) (limit : ℕ) (s : TaskEngine) :
    Except PyError (List QueryPayload) :=
  match (s.call host env (Op.notificationsList (some (Json.int limit))) peer).1 with
  | Except.ok (Reply.payloads payloads) =>
      -- A reply that cannot be encoded is not written at all.
      if PyStr.Encodable (listLine host payloads) ∧
          PyStr.utf8Length (listLine host payloads) ≤ maxLine then Except.ok payloads
      else Except.error (PyError.taskStoreError "Task SYSTEM unavailable")
  | Except.ok _ => Except.error (PyError.taskStoreError "Task SYSTEM unavailable")
  | Except.error e => Except.error e

/-- How many bytes the reply takes: 27 of its own, those of the payloads, and two for each comma. -/
def replyBytes (payloads : List QueryPayload) : ℕ :=
  27 + (payloads.map QueryPayload.byteLength).sum + 2 * (payloads.length - 1)

theorem utf8Length_dumpsList (fl : ℚ → PyStr) (payloads : List QueryPayload) :
    PyStr.utf8Length (Json.dumpsList fl (payloads.map QueryPayload.toJson)) =
      (payloads.map QueryPayload.byteLength).sum + 2 * (payloads.length - 1) := by
  have hcomma : PyStr.utf8Length (PyStr.ofString ", ") = 2 := by decide
  induction payloads with
  | nil => rfl
  | cons p l ih =>
      cases l with
      | nil => simp [Json.dumpsList, QueryPayload.utf8Length_dumps_toJson]
      | cons q l =>
          rw [List.map_cons, List.map_cons, Json.dumpsList, ← List.map_cons,
            PyStr.utf8Length_append, PyStr.utf8Length_append, ih,
            QueryPayload.utf8Length_dumps_toJson, hcomma]
          simp only [List.map_cons, List.sum_cons, List.length_cons]
          omega

/-- **The length of a reply, in the lengths of its strings.** -/
theorem utf8Length_listLine (host : Host) (payloads : List QueryPayload) :
    PyStr.utf8Length (listLine host payloads) = replyBytes payloads := by
  have hkeys : PyStr.utf8Length (Json.escape "ok") = 4 ∧
      PyStr.utf8Length (Json.escape "result") = 8 := by decide +kernel
  have hmarks : PyStr.utf8Length (PyStr.ofString ", ") = 2 ∧
      PyStr.utf8Length (PyStr.ofString ": ") = 2 ∧
      PyStr.utf8Length (PyStr.ofString "\x7b") = 1 ∧
      PyStr.utf8Length (PyStr.ofString "\x7d") = 1 ∧ PyStr.utf8Length (PyStr.ofString "[") = 1 ∧
      PyStr.utf8Length (PyStr.ofString "]") = 1 ∧ PyStr.utf8Length (PyStr.ofString "\n") = 1 ∧
      PyStr.utf8Length (PyStr.ofString "true") = 4 := by decide +kernel
  simp only [listLine, Json.dumps.eq_8, Json.dumpsItems, Json.dumps.eq_7, Json.dumps.eq_2,
    PyStr.utf8Length_append, hkeys, hmarks, utf8Length_dumpsList, replyBytes]
  omega

/-- A reply can be encoded when its payloads can be. -/
theorem encodable_listLine {host : Host} {payloads : List QueryPayload}
    (h : ∀ p ∈ payloads, ∀ s ∈ Json.strings p.toJson, PyStr.Encodable s) :
    PyStr.Encodable (listLine host payloads) := by
  have hlist : ∀ s ∈ Json.stringsList (payloads.map QueryPayload.toJson), PyStr.Encodable s := by
    induction payloads with
    | nil => simp [Json.stringsList]
    | cons p l ih =>
        intro s hs
        rw [List.map_cons, Json.stringsList, List.mem_append] at hs
        rcases hs with hp | hl
        · exact h p List.mem_cons_self s hp
        · exact ih (fun q hq => h q (List.mem_cons_of_mem _ hq)) s hl
  rw [listLine, PyStr.encodable_append]
  refine ⟨(Json.encodable_dumps_iff host.strFloat_encodable _).2 ?_, PyStr.encodable_ofString _⟩
  simpa [Json.strings, Json.stringsItems] using hlist

end TaskRPC

/-! ### What is in the inbox -/

namespace TaskEngine

open Tables (Idle)

variable {host : Host} {s : TaskEngine}

/-- **Every record has passed the checks of `publish_result`.** -/
theorem acceptable_of_reachable (hs : (machine host).Reachable s) {runId : PyStr}
    {record : QueryResult} (h : s.queryResults.get? runId = some record) :
    QueryPayload.Acceptable runId record.payload := by
  refine tables_invariant (P := Tables.Permits.all)
    (I := fun t => ∀ k record, t.queryResults.get? k = some record →
      QueryPayload.Acceptable k record.payload) (hs.mono fun s i _ => s.allowed_all i)
    ?_ ?_ ?_ runId record h
  · intro now tasks bindings uuids _ k record hk
    cases hk
  · intro t t' hI hstep k record' hk'
    cases hget : t.queryResults.get? k with
    | some record =>
        rcases Tables.step_record hstep hget with hsame | ⟨_, hnone | hacked⟩
        · rw [hsame] at hk'
          cases hk'
          exact hI k record' hget
        · rw [hnone] at hk'
          cases hk'
        · rw [hacked] at hk'
          cases hk'
          exact hI k record hget
    | none => exact (Tables.step_new_record hstep hget hk').2.1
  · intro t t' hI hrebuilt k record hk
    rw [← hrebuilt.queryResults] at hk
    exact hI k record hk

/-- The identifiers of the records are those that the service has made. -/
theorem encodable_runId (hs : (machine host).Reachable s) {runId : PyStr} {record : QueryResult}
    (h : s.queryResults.get? runId = some record) : PyStr.Encodable runId := by
  obtain ⟨⟨n, _, rfl⟩, _⟩ := recorded_of_reachable hs runId record h
  exact host.uuid4_encodable n

/-- The inbox can be listed, and then every result that is listed can be acknowledged. -/
structure Readable (host : Host) (s : TaskEngine) : Prop where
  listed : ∀ env peer, ∃ payloads, TaskRPC.listResults host env peer 100 s = Except.ok payloads
  acked : ∀ env peer payloads, TaskRPC.listResults host env peer 100 s = Except.ok payloads →
    ∀ p ∈ payloads, ∀ env' peer', env'.writable = true →
      (s.call host env' (Op.notificationsAck [Json.str p.runId]) peer').1 =
        Except.ok (Reply.bool true)

/-- What the service answers. -/
theorem call_list (host : Host) (env : Env) (peer : PyStr) (s : TaskEngine) :
    (s.call host env (Op.notificationsList (some (Json.int (100 : ℕ)))) peer).1 =
      Except.ok (Reply.payloads (s.queryResults.listed 100)) := by
  have hd : s.toTables.dispatch host env peer (Op.notificationsList (some (Json.int (100 : ℕ)))) =
      Except.ok (Reply.payloads (s.queryResults.listed 100), s.toTables) := rfl
  rw [call, transact]
  simp only [hd, if_true]

/-- What the client makes of it. -/
theorem listResults_eq (hs : (machine host).Reachable s) (env : Env) (peer : PyStr) :
    TaskRPC.listResults host env peer 100 s =
      if TaskRPC.replyBytes (s.queryResults.listed 100) ≤ TaskRPC.maxLine then
        Except.ok (s.queryResults.listed 100)
      else Except.error (PyError.taskStoreError "Task SYSTEM unavailable") := by
  have hencodable : PyStr.Encodable (TaskRPC.listLine host (s.queryResults.listed 100)) := by
    refine TaskRPC.encodable_listLine fun p hp => ?_
    obtain ⟨record, hrecord, rfl⟩ := List.mem_map.1 (List.mem_of_mem_take hp)
    have hget := Table.mem_values_iff.1 (List.mem_filter.1 hrecord).1
    exact (acceptable_of_reachable hs hget).encodable (encodable_runId hs hget)
  simp only [TaskRPC.listResults, call_list, hencodable, true_and, TaskRPC.utf8Length_listLine]

/-- **The inbox can be listed, and acknowledged, exactly when the first 100 results that are not
acknowledged take at most 1 MiB together.** -/
theorem readable_iff (hs : (machine host).Reachable s) :
    Readable host s ↔ TaskRPC.replyBytes (s.queryResults.listed 100) ≤ TaskRPC.maxLine := by
  constructor
  · intro h
    obtain ⟨payloads, hok⟩ := h.listed Env.quiet []
    rw [listResults_eq hs] at hok
    split_ifs at hok with hle
    exact hle
  · intro hle
    refine ⟨fun env peer => ⟨_, by rw [listResults_eq hs, if_pos hle]⟩, ?_⟩
    intro env peer payloads hok p hp env' peer' hwritable
    rw [listResults_eq hs, if_pos hle] at hok
    cases hok
    obtain ⟨record, hrecord, rfl⟩ := List.mem_map.1 (List.mem_of_mem_take hp)
    have hget : s.queryResults.get? record.payload.runId = some record :=
      Table.mem_values_iff.1 (List.mem_filter.1 hrecord).1
    have hd : s.toTables.dispatch host env' peer'
        (Op.notificationsAck [Json.str record.payload.runId]) = Except.ok (Reply.bool true,
          { s.toTables with
            queryResults := QueryTable.prune
              (QueryTable.markAcked record.payload.runId s.queryResults) }) := by
      refine bind_eq_ok_iff.2 ⟨(true, _), ?_, rfl⟩
      simp only [QueryTable.ack, hget]
    exact (transact_of_ok _ hd hwritable).1

/-- The inbox can be listed while it holds one short result. -/
theorem readable_twoQueries : Readable Host.ascii (after Host.ascii twoQueries) :=
  (readable_iff (reachable_after Host.ascii twoQueries)).2 (by decide +kernel)

end TaskEngine

/-! ### A full inbox -/

/-- A string literal of one code point, written over and over. -/
theorem Json.utf8Length_escape_replicate (n : ℕ) (c : CodePoint) :
    PyStr.utf8Length (Json.escape (List.replicate n c)) =
      n * PyStr.utf8Length (Json.escapeChar c) + 2 := by
  have hquote : PyStr.utf8Length (PyStr.ofString "\"") = 1 := by decide
  have hbody : PyStr.utf8Length ((List.replicate n c).flatMap Json.escapeChar) =
      n * PyStr.utf8Length (Json.escapeChar c) := by
    induction n with
    | zero => simp
    | succ n ih =>
        rw [List.replicate_succ, List.flatMap_cons, PyStr.utf8Length_append, ih, Nat.succ_mul]
        omega
  rw [Json.escape, PyStr.utf8Length_append, PyStr.utf8Length_append, hbody, hquote]
  omega

namespace QueryPayload

/-- A cat, in four bytes. -/
def cat : CodePoint := ⟨0x1F408, by omega⟩

/-- A result with a text of cats, as long as a text may be. -/
def cats (runId : PyStr) (task : TaskRecord) : QueryPayload where
  runId := runId
  taskId := task.taskId
  source := "manual"
  agentId := "agent_1"
  agentOk := true
  text := List.replicate maxQueryText cat

theorem acceptable_cats (runId : PyStr) (task : TaskRecord) : Acceptable runId (cats runId task) where
  runId_eq := rfl
  agentId_ne := (by decide : PyStr.ofString "agent_1" ≠ [])
  text_ne := by
    intro hnil
    have hspace := (PyStr.strip_eq_nil_iff _).1 hnil cat
      (List.mem_replicate.2 ⟨by decide, rfl⟩)
    exact absurd hspace (by decide)
  text_le := (List.length_replicate).le
  text_ok := fun c hc => by
    rw [List.eq_of_mem_replicate hc]
    decide
  source_ok := (by simp : PyStr.Encodable (PyStr.ofString "manual"))
  agentId_ok := (by simp : PyStr.Encodable (PyStr.ofString "agent_1"))

/-- Its text takes four bytes per character. -/
theorem le_byteLength_cats (runId : PyStr) (task : TaskRecord) :
    4 * maxQueryText ≤ (cats runId task).byteLength := by
  have htext : PyStr.utf8Length (Json.escape (cats runId task).text) = maxQueryText * 4 + 2 :=
    Json.utf8Length_escape_replicate maxQueryText cat
  rw [byteLength, htext]
  omega

end QueryPayload

namespace QueryTable

variable {results : QueryTable} {record : QueryResult} {n : ℕ}

/-- There are `n` records, none is acknowledged, and all have long texts. -/
def Backlog (results : QueryTable) (n : ℕ) : Prop :=
  results.values.length = n ∧ ∀ record ∈ results.values, record.acked = false ∧
    4 * QueryPayload.maxQueryText ≤ record.payload.byteLength

/-- One more result makes the backlog longer. -/
theorem Backlog.put (h : results.Backlog n) (hnew : results.get? record.payload.runId = none)
    (hacked : record.acked = false)
    (hlong : 4 * QueryPayload.maxQueryText ≤ record.payload.byteLength) :
    Backlog (results.put record) (n + 1) := by
  obtain ⟨hlength, hall⟩ := h
  rw [Backlog, Table.values_put_new hnew]
  refine ⟨by rw [List.length_append, List.length_singleton, hlength], fun other hother => ?_⟩
  rcases List.mem_append.1 hother with hold | hlast
  · exact hall other hold
  · rw [List.mem_singleton] at hlast
    rw [hlast]
    exact ⟨hacked, hlong⟩

/-- The reply takes all the bytes of the texts. -/
theorem Backlog.le_replyBytes (h : results.Backlog n) (hn : n ≤ 100) :
    n * (4 * QueryPayload.maxQueryText) < TaskRPC.replyBytes (results.listed 100) := by
  obtain ⟨hlength, hall⟩ := h
  have hfilter : results.values.filter (fun record => ! record.acked) = results.values :=
    List.filter_eq_self.2 fun record hrecord => by simp [(hall record hrecord).1]
  have hlisted : results.listed 100 = results.values.map QueryResult.payload := by
    rw [listed, hfilter, List.take_of_length_le (by rw [List.length_map]; omega)]
  have hsum := List.card_nsmul_le_sum ((results.listed 100).map QueryPayload.byteLength)
    (4 * QueryPayload.maxQueryText) (by
      intro bytes hbytes
      rw [hlisted, List.map_map] at hbytes
      obtain ⟨record, hrecord, rfl⟩ := List.mem_map.1 hbytes
      exact (hall record hrecord).2)
  rw [List.length_map, smul_eq_mul] at hsum
  have hcount : (results.listed 100).length = n := by rw [hlisted, List.length_map, hlength]
  rw [hcount] at hsum
  rw [TaskRPC.replyBytes]
  omega

end QueryTable

namespace TaskEngine

open Tables (Idle)

variable {host : Host} {s : TaskEngine} {task : TaskRecord} {e : Executor} {owner peer : PyStr}
  {l : List Run}

/-- As long as nobody acknowledges anything, the backlog grows. -/
theorem backlog_leads (howner : owner ≠ []) (hpeer : peer ≠ []) (hs : (machine host).Reachable s)
    (h : s.toTables.Idle task e owner peer l) (hempty : s.queryResults.Backlog 0) (n : ℕ)
    (hn : n ≤ QueryTable.maxPending) :
    ∃ s', (machine host).Leads (fun _ _ => True) s s' ∧ s'.toTables.Idle task e owner peer l ∧
      s'.queryResults.Backlog n := by
  induction n with
  | zero => exact ⟨s, Machine.Leads.refl, h, hempty⟩
  | succ n ih =>
      obtain ⟨s₁, hl₁, h₁, hb₁⟩ := ih (Nat.le_of_succ_le hn)
      have hs₁ := Machine.Reach.leads hs hl₁
      have hroom : s₁.queryResults.unackedCount < QueryTable.maxPending :=
        (List.countP_le_length.trans hb₁.1.le).trans_lt hn
      obtain ⟨s₂, hl₂, h₂, _, hq₂⟩ := delivered hs₁ h₁ howner hpeer
        (QueryPayload.acceptable_cats (host.uuid4 s₁.registry.uuids) task) rfl rfl (get?_fresh hs₁)
        hroom
      refine ⟨s₂, hl₁.trans hl₂, h₂, ?_⟩
      rw [hq₂]
      exact hb₁.put (get?_fresh hs₁) rfl (QueryPayload.le_byteLength_cats _ _)

/-- One query. -/
def oneQuery : List Input :=
  [Input.call Env.quiet (Op.admin (AdminOp.createPeriodicTask "watch" "look" ["see"]
    (PyNumber.finite 60) "query" "litert" none)) []]

/-- **64 results with the longest texts are enough, and the inbox cannot be read any more.** -/
theorem not_readable : ¬ ∀ s, (machine Host.ascii).Reachable s → Readable Host.ascii s := by
  intro h
  let s₀ := after Host.ascii oneQuery
  have hs₀ : (machine Host.ascii).Reachable s₀ := reachable_after Host.ascii oneQuery
  have htask : (s₀.registry.tasks.get? 1).any (fun task => decide (task.taskId = 1 ∧
      task.enabled = true ∧ task.method = TaskMethod.query ∧
      task.executor = Policy.pinned Executor.litert)) = true := by decide +kernel
  have hruns : s₀.runs.values.filter (fun run => ! run.state.terminal) = [] := by decide +kernel
  have hworker : (s₀.workers.get? (PyStr.ofString "v", PyStr.ofString "q")).isNone = true := by
    decide +kernel
  have hempty : s₀.queryResults.values = [] := by decide +kernel
  obtain ⟨task, hfound, htask⟩ := (Option.any_eq_true _ _).1 htask
  rw [decide_eq_true_eq] at htask
  obtain ⟨hid, henabled, hmethod, hpinned⟩ := htask
  have hidle : s₀.toTables.Idle task Executor.litert "v" "q" [] :=
    { found := by rw [hid]; exact hfound
      enabled := henabled
      query := hmethod
      pinned := hpinned
      live := Tables.live_of_values hruns
      running := nofun
      room := Nat.succ_pos _
      unregistered := Option.isNone_iff_eq_none.1 hworker }
  obtain ⟨s₁, hl₁, _, hb₁⟩ := backlog_leads (by decide) (by decide) hs₀ hidle
    ⟨by rw [hempty]; rfl, by rw [hempty]; nofun⟩ 64 (by decide)
  have hs₁ := Machine.Reach.leads hs₀ hl₁
  have hle : TaskRPC.replyBytes (s₁.queryResults.listed 100) ≤ TaskRPC.maxLine := by
    rw [← readable_iff hs₁]
    exact h s₁ hs₁
  have hlt := hb₁.le_replyBytes (by omega)
  exact absurd (hlt.trans_le hle) (by decide)

end TaskEngine
