/-
**The hand-off of results.**

The inbox and the outbox have no common transaction.  A CORE acknowledges a result only after the
row of the outbox is there, or on behalf of a client that owns the session; both facts last, so they
still hold when the acknowledgement arrives, however late that is and whoever has died in between.

Main definitions:

* `CoreSystem.Acknowledged` — the result of a run has been acknowledged;
* `CoreSystem.Evidence` — a client that owned the session has acknowledged it, or there is a row;
* `CoreSystem.HandedOff` — the hand-off of a result.

Main results:

* `Cores.handedOff` — **every result is handed off**, in every reachable state.
-/

import CatAgent.CoreServer

set_option relaxedAutoImplicit false
set_option autoImplicit false

/-! ### What acknowledges a record -/

/-- The record of a run is acknowledged. -/
def Tables.Acked (t : Tables) (k : PyStr) : Prop :=
  ∃ record, t.queryResults.get? k = some record ∧ record.acked = true

/-- A record that a step acknowledges, and no other. -/
theorem Tables.step_acked {host : Host} {t t' : Tables} {k : PyStr}
    (h : Step host (acksNone k) t t') (hacked : t'.Acked k) : t.Acked k := by
  obtain ⟨record', hk', hacked⟩ := hacked
  cases hk : t.queryResults.get? k with
  | some record =>
      rcases step_record h hk with hsame | ⟨hP | hacked', _⟩
      · rw [hsame, ← hk] at hk'
        exact ⟨record', hk', hacked⟩
      · exact absurd rfl hP
      · exact ⟨record, hk, hacked'⟩
  | none =>
      cases h with
      | commit _ owner peer offerId payload run hpayload hnone hrun hmay hquery hfull hP =>
          rw [Table.get?_put] at hk'
          split_ifs at hk'
          · cases hk'
            cases hacked
          · rw [hk] at hk'
            cases hk'
      | ack _ runId other hother hP =>
          obtain ⟨record, hrecord, _⟩ := QueryTable.get?_ack hk'
          rw [hk] at hrecord
          cases hrecord
      | _ => cases hk.symm.trans hk'

/-- **A record is acknowledged only by an input that acknowledges it.** -/
theorem TaskEngine.respond_acked {host : Host} {s : TaskEngine} {k : PyStr}
    (hs : (machine host).Reachable s) {i : Input} (hi : s.Allowed (Tables.acksNone k) i)
    (h : (s.respond host i).2.toTables.Acked k) : s.toTables.Acked k := by
  rcases respond_effect host (rowHolds_of_reachable hs) hi with ⟨_, _, hsteps⟩ | ⟨_, hrebuilt⟩
  · have key : ∀ t, Relation.ReflTransGen (Tables.Step host (Tables.acksNone k)) s.toTables t →
        t.Acked k → s.toTables.Acked k := by
      intro t ht
      induction ht with
      | refl => exact id
      | tail _ hstep ih => exact fun hacked => ih (Tables.step_acked hstep hacked)
    exact key _ hsteps h
  · obtain ⟨record, hk, hacked⟩ := h
    exact ⟨record, hrebuilt.queryResults ▸ hk, hacked⟩

/-- What is not the acknowledgement of a run acknowledges no record of it. -/
theorem TaskEngine.allowed_acksNone {k : PyStr} (s : TaskEngine) {i : Input}
    (h : ∀ env peer, i ≠ Input.call env (Op.notificationsAck [Json.str k]) peer) :
    s.Allowed (Tables.acksNone k) i := by
  cases i with
  | call env op peer =>
      change (Tables.acksNone k).Ok env peer s.toTables op
      unfold Tables.Permits.Ok
      split
      · exact fun _ _ _ _ _ => trivial
      · exact trivial
      · exact fun _ => trivial
      · exact trivial
      · rename_i runId
        rintro rfl
        exact h env peer rfl
      · exact trivial
      · exact trivial
      · exact trivial
  | _ => exact trivial

namespace CoreSystem

variable {κ : Type}

/-- The result of a run has been acknowledged: its record says so, or the service has. -/
def Acknowledged (s : CoreSystem κ) (runId : PyStr) : Prop :=
  s.engine.toTables.Acked runId ∨ ∃ env peer, CoreHappening.served
    (Input.call env (Op.notificationsAck [Json.str runId]) peer)
    (Except.ok (Reply.bool true)) ∈ s.log

/-- A client that owned the session has sent an acknowledgement of the run. -/
def OwnerAcked (s : CoreSystem κ) (runId : PyStr) : Prop :=
  ∃ k client, CoreHappening.message k client
    (CoreMessage.taskQueryAck (some (Json.str runId))) true ∈ s.log

/-- There is a row for the run, and it has been delivered or will be eligible. -/
def Stored (s : CoreSystem κ) (runId : PyStr) : Prop :=
  ∃ row, s.outbox.db.notifications.get? (CoreServer.nativeQuery runId) = some row ∧
    (row.delivered.isSome = true ∨ ∃ now, NotificationOutbox.Notification.Eligible now row)

/-- What must be the case before a result is acknowledged. -/
def Evidence (s : CoreSystem κ) (runId : PyStr) : Prop := s.OwnerAcked runId ∨ s.Stored runId

/-- **The hand-off of a result.** -/
structure HandedOff (s : CoreSystem κ) (runId : PyStr) : Prop where
  /-- What has been acknowledged has been handed off. -/
  evidence : s.Acknowledged runId → s.OwnerAcked runId ∨ s.Stored runId
  /-- There is one row at most for a run. -/
  unique : (s.outbox.db.notifications.values.filter fun row =>
    decide (row.id = CoreServer.nativeQuery runId)).length ≤ 1

theorem stored_iff {s : CoreSystem κ} {runId : PyStr} : s.Stored runId ↔
    ∃ row, s.outbox.db.notifications.get? (CoreServer.nativeQuery runId) = some row := by
  constructor
  · rintro ⟨row, hrow, _⟩
    exact ⟨row, hrow⟩
  · rintro ⟨row, hrow⟩
    refine ⟨row, hrow, ?_⟩
    cases hdelivered : row.delivered with
    | some t => exact Or.inl rfl
    | none => exact Or.inr ⟨row.due, hdelivered, le_rfl⟩

end CoreSystem

namespace Cores

open CoreSystem (Acknowledged Evidence)

variable {κ : Type} [DecidableEq κ] {host : Host} {cores : Cores κ} {s s' : CoreSystem κ}
  {runId : PyStr}

/-! ### Evidence lasts -/

/-- The log only grows, and rows stay. -/
structure Keeps (s s' : CoreSystem κ) : Prop where
  log : s.log ⊆ s'.log
  rows : ∀ k row, s.outbox.db.notifications.get? k = some row →
    ∃ row', s'.outbox.db.notifications.get? k = some row'

omit [DecidableEq κ] in
theorem Keeps.evidence (h : Keeps s s') (he : s.Evidence runId) : s'.Evidence runId := by
  rcases he with ⟨k, client, hmem⟩ | hstored
  · exact Or.inl ⟨k, client, h.log hmem⟩
  · obtain ⟨row, hrow⟩ := CoreSystem.stored_iff.1 hstored
    exact Or.inr (CoreSystem.stored_iff.2 (h.rows _ row hrow))

omit [DecidableEq κ] in
/-- What only adds to the log. -/
theorem Keeps.of_log (hlog : s.log ⊆ s'.log) (houtbox : s'.outbox = s.outbox) : Keeps s s' :=
  ⟨hlog, fun _ row hrow => ⟨row, houtbox ▸ hrow⟩⟩

theorem keeps_outboxStep (i : OutboxInput κ) (s : CoreSystem κ) :
    Keeps s (cores.outboxStep i s) where
  log := List.Subset.refl _
  rows := fun _ _ hrow => (Outbox.step_kept hrow).imp fun _ h => h.1

theorem keeps_setServer (k : κ) (server : CoreServer) (s : CoreSystem κ) :
    Keeps s (cores.setServer k server s) :=
  have hkeeps : Keeps s (cores.outboxStep _ s) := keeps_outboxStep _ s
  ⟨List.Subset.refl _, hkeeps.rows⟩

/-! ### The invariant -/

/-- The invariant of the system.  A thread may know of a run for which there is evidence. -/
structure Handing (host : Host) (s : CoreSystem κ) (notes : CoreThread κ → Option PyStr) :
    Prop where
  engine : (TaskEngine.machine host).Reachable s.engine
  late : ∀ p ∈ s.late, s.Evidence p.2
  evidence : ∀ runId, s.Acknowledged runId → s.Evidence runId
  notes : ∀ j runId, notes j = some runId → s.Evidence runId

variable {notes : CoreThread κ → Option PyStr} {j : CoreThread κ} {k : κ} {n : Option PyStr}

omit [DecidableEq κ] in
/-- What does not concern the service. -/
theorem Handing.change (h : Handing host s notes) (hkeeps : Keeps s s')
    (hengine : s'.engine = s.engine) (hlate : ∀ p ∈ s'.late, p ∈ s.late ∨ s.Evidence p.2)
    (hserved : ∀ i reply, CoreHappening.served i reply ∈ s'.log →
      CoreHappening.served i reply ∈ s.log) : Handing host s' notes where
  engine := hengine ▸ h.engine
  late := fun p hp => hkeeps.evidence ((hlate p hp).elim (h.late p) id)
  evidence := by
    intro runId hacked
    refine hkeeps.evidence (h.evidence runId ?_)
    rcases hacked with hrecord | ⟨env, peer, hmem⟩
    · exact Or.inl (hengine ▸ hrecord)
    · exact Or.inr ⟨env, peer, hserved _ _ hmem⟩
  notes := fun j runId hj => hkeeps.evidence (h.notes j runId hj)

/-- A thread learns of evidence. -/
theorem Handing.learn (h : Handing host s notes)
    (hn : ∀ runId, n = some runId → s.Evidence runId) :
    Handing host s (Function.update notes j n) where
  engine := h.engine
  late := h.late
  evidence := h.evidence
  notes := by
    intro j' runId hj
    rcases eq_or_ne j' j with rfl | hne
    · rw [Function.update_self] at hj
      exact hn runId hj
    · rw [Function.update_of_ne hne] at hj
      exact h.notes j' runId hj

omit [DecidableEq κ] in
/-- **The service may answer every input that acknowledges only what there is evidence for.** -/
theorem Handing.serve (h : Handing host s notes) {i : Input}
    (hi : ∀ runId env peer, i = Input.call env (Op.notificationsAck [Json.str runId]) peer →
      s.Evidence runId) : Handing host (s.serve host i).2 notes := by
  have hkeeps : Keeps s (s.serve host i).2 := Keeps.of_log (List.subset_cons_self _ _) rfl
  refine ⟨h.engine.step i, fun p hp => hkeeps.evidence (h.late p hp), ?_,
    fun j runId hj => hkeeps.evidence (h.notes j runId hj)⟩
  intro runId hacked
  by_cases hack : ∃ env peer, i = Input.call env (Op.notificationsAck [Json.str runId]) peer
  · obtain ⟨env, peer, heq⟩ := hack
    exact hkeeps.evidence (hi runId env peer heq)
  · refine hkeeps.evidence (h.evidence runId ?_)
    rcases hacked with hrecord | ⟨env, peer, hmem⟩
    · refine Or.inl (TaskEngine.respond_acked h.engine (TaskEngine.allowed_acksNone _ ?_) hrecord)
      exact fun env peer heq => hack ⟨env, peer, heq⟩
    · rcases List.mem_cons.1 hmem with heq | hmem
      · exact absurd ⟨env, peer, (CoreHappening.served.inj heq).1.symm⟩ hack
      · exact Or.inr ⟨env, peer, hmem⟩

/-! ### Outlines -/

/-- An operation that acknowledges no result. -/
def Plain (e : ServerEffect) : Prop := ∀ runId, e ≠ ServerEffect.ackResult runId

/-- The thread `j` belongs to the CORE `k`. -/
def Of (k : κ) (j : CoreThread κ) : Prop := j = CoreThread.worker k ∨ ∃ n, j = CoreThread.client k n

theorem handle_of (hj : Of k j) (e : ServerEffect) (o : CoreChoice κ) (s : CoreSystem κ) :
    (cores.threads host).handle j e o s = cores.perform host k e o s := by
  rcases hj with rfl | ⟨n, rfl⟩ <;> rfl

variable (host cores) in
/-- An outline of a program of the thread `j` in this system. -/
abbrev Hands {α : Type} (j : CoreThread κ) (p : ServerM α) (n : Option PyStr)
    (Q : α → Option PyStr → Prop) : Prop :=
  (cores.threads host).Outline (Handing host) j p n Q

omit [DecidableEq κ] in
/-- A call to the service. -/
theorem Handing.call (h : Handing host s notes) {i : Env → Input} {late : List (κ × PyStr)}
    {o : CoreChoice κ} {answer : Except PyError Reply}
    (hcall : call host i late o s = some (answer, s'))
    (hlate : ∀ p ∈ late, s.Evidence p.2)
    (hi : ∀ env runId env' peer, i env = Input.call env' (Op.notificationsAck [Json.str runId]) peer →
      s.Evidence runId) : Handing host s' notes := by
  cases o with
  | served env heard =>
      cases hcall
      exact h.serve (hi env)
  | lost again =>
      cases hcall
      refine h.change (Keeps.of_log (List.Subset.refl _) rfl) rfl (fun p hp => ?_) fun _ _ h => h
      cases again with
      | false => exact Or.inl hp
      | true => exact (List.mem_append.1 hp).imp id (hlate p)
  | _ => cases hcall

/-- A transaction of the outbox. -/
theorem Handing.transaction (h : Handing host s notes) {i : ℚ → OutboxInput κ} {o : CoreChoice κ}
    {returned : Bool} (ht : cores.transaction i o s = some (returned, s')) :
    Handing host s' notes ∧ (returned = true → ∃ now, s' = cores.outboxStep (i now) s) := by
  have hstep : ∀ now, Handing host (cores.outboxStep (i now) s) notes := fun now =>
    h.change (keeps_outboxStep _ s) rfl (fun _ hp => Or.inl hp) fun _ _ h => h
  cases o with
  | stored now committed returned' =>
      simp only [Cores.transaction] at ht
      split_ifs at ht with hfalse hcommitted
      · cases ht
        exact ⟨hstep now, fun _ => ⟨now, rfl⟩⟩
      · cases ht
        exact ⟨h, fun hreturned => absurd ⟨hreturned, hcommitted⟩ hfalse⟩
  | _ => cases ht

theorem Handing.setServer (h : Handing host s notes) (k : κ) (server : CoreServer) :
    Handing host (cores.setServer k server s) notes :=
  h.change (keeps_setServer k server s) rfl (fun _ hp => Or.inl hp) fun _ _ h => h

omit [DecidableEq κ] in
theorem Handing.noteSent (h : Handing host s notes) (k : κ) (o : SendOutcome)
    (frame : Option (ℕ × CoreFrame)) : Handing host (Cores.noteSent k o frame s) notes := by
  unfold Cores.noteSent
  split
  · refine h.change (Keeps.of_log (List.subset_cons_self _ _) rfl) rfl (fun _ hp => Or.inl hp) ?_
    intro i reply hmem
    exact (List.mem_cons.1 hmem).resolve_left nofun
  · exact h

/-- What a plain operation does. -/
theorem Handing.perform (h : Handing host s notes) {e : ServerEffect} (he : Plain e)
    {o : CoreChoice κ} {x : e.Answer} (hx : cores.perform host k e o s = some (x, s')) :
    Handing host s' notes := by
  cases e with
  | locked β frame f =>
      cases o with
      | send o =>
          cases hx
          exact (h.noteSent k o _).setServer k _
      | _ => cases hx
  | send client frame =>
      cases o with
      | send o =>
          cases hx
          exact h.noteSent k _ _
      | _ => cases hx
  | owner client message =>
      cases hx
      refine h.change (Keeps.of_log (List.subset_cons_self _ _) rfl) rfl (fun _ hp => Or.inl hp) ?_
      intro i reply hmem
      exact (List.mem_cons.1 hmem).resolve_left nofun
  | enqueue text identifier => exact (h.transaction hx).1
  | acknowledge identifier => exact (h.transaction hx).1
  | listResults =>
      refine h.call hx nofun fun env runId env' peer heq => ?_
      cases heq
  | ackResult runId => exact absurd rfl (he runId)

/-- **A plain program forgets no evidence.** -/
theorem hands_plain {α : Type} {p : ServerM α} (hj : Of k j) (hp : p.All Plain) (n : Option PyStr) :
    Hands host cores j p n fun _ l => l = n := by
  induction p with
  | done a => exact rfl
  | perform e next ih =>
      intro s notes o x s' hs hl hx
      rw [handle_of hj] at hx
      refine ⟨n, ?_, ih x (hp.2 x)⟩
      have hs' := hs.perform hp.1 hx
      exact hs'.learn fun runId hn => hs'.notes j runId (hl.trans hn)

/-- A result may be acknowledged when there is evidence. -/
theorem hands_ackResult (hj : Of k j) (runId : PyStr) :
    Hands host cores j (CoreServer.ackResult runId) (some runId) fun _ _ => True := by
  intro s notes o x s' hs hl hx
  rw [handle_of hj] at hx
  have hevidence := hs.notes j runId hl
  have hs' : Handing host s' notes := by
    refine hs.call hx (fun p hp => ?_) fun env runId' env' peer heq => ?_
    · rw [List.mem_singleton] at hp
      subst hp
      exact hevidence
    · cases heq
      exact hevidence
  exact ⟨none, hs'.learn nofun, trivial⟩

theorem enqueued (k : κ) (now : ℚ) (text runId : PyStr) (s : CoreSystem κ) :
    ∃ row, (cores.outboxStep (OutboxInput.enqueue k now text
      (some (CoreServer.nativeQuery runId)) []) s).outbox.db.notifications.get?
        (CoreServer.nativeQuery runId) = some row := by
  have hid : Outbox.identifierOf (some (CoreServer.nativeQuery runId)) [] =
      CoreServer.nativeQuery runId := if_neg (List.append_ne_nil_of_left_ne_nil (by decide) _)
  simp only [outboxStep, Outbox.step, hid, NotificationOutbox.enqueue]
  split
  · rename_i row hrow
    exact ⟨row, hrow⟩
  · exact ⟨_, Table.get?_put_self _ _⟩

/-- **When `enqueue` has returned, the row is there.** -/
theorem hands_enqueue (hj : Of k j) (text runId : PyStr) (n : Option PyStr) :
    Hands host cores j (CoreServer.enqueue text (CoreServer.nativeQuery runId)) n
      fun returned l => returned = true → l = some runId := by
  intro s notes o x s' hs hl hx
  rw [handle_of hj] at hx
  obtain ⟨hs', hreturned⟩ := hs.transaction hx
  cases x with
  | false => exact ⟨none, hs'.learn nofun, nofun⟩
  | true =>
      obtain ⟨now, rfl⟩ := hreturned rfl
      refine ⟨some runId, hs'.learn fun runId' heq => ?_, fun _ => rfl⟩
      cases heq
      exact Or.inr (CoreSystem.stored_iff.2 (enqueued k now text runId s))

/-- A client that owns the session is evidence. -/
theorem hands_owner (hj : Of k j) (client : ℕ) (runId : PyStr) (n : Option PyStr) :
    Hands host cores j
      (CoreServer.owner client (CoreMessage.taskQueryAck (some (Json.str runId)))) n
      fun answer l => answer.1 = true → l = some runId := by
  intro s notes o x s' hs hl hx
  rw [handle_of hj] at hx
  have hs' := hs.perform (fun _ heq => by cases heq) hx
  cases hx
  by_cases howns : (s.servers k).human = some client
  · refine ⟨some runId, hs'.learn fun runId' heq => ?_, fun _ => rfl⟩
    cases heq
    refine Or.inl ⟨k, client, ?_⟩
    simp [CoreSystem.note, howns]
  · exact ⟨none, hs'.learn nofun, fun htrue => absurd (of_decide_eq_true htrue) howns⟩

/-! ### The programs -/

open Program (all_operation all_pure all_bind)

theorem plain_locked {β : Type} (f : CoreServer → β × CoreServer) :
    (CoreServer.locked f).All Plain := all_operation fun _ => nofun

theorem plain_lockedSend {β : Type} (frame : CoreServer → Option (ℕ × CoreFrame))
    (f : SendOutcome → CoreServer → β × CoreServer) :
    (CoreServer.lockedSend frame f).All Plain := all_operation fun _ => nofun

theorem plain_send (client : ℕ) (frame : CoreFrame) : (CoreServer.send client frame).All Plain :=
  all_operation fun _ => nofun

theorem plain_owner (client : ℕ) (message : CoreMessage) :
    (CoreServer.owner client message).All Plain := all_operation fun _ => nofun

theorem plain_listResults : CoreServer.listResults.All Plain := all_operation fun _ => nofun

theorem plain_acknowledge (identifier : PyStr) : (CoreServer.acknowledge identifier).All Plain :=
  all_operation fun _ => nofun

theorem plain_reply (client : ℕ) (frame : CoreFrame) :
    (CoreServer.reply client frame).All Plain := by
  refine all_bind (plain_send client frame) fun o => ?_
  cases o with
  | sent | osError => exact all_pure _
  | unicodeError => exact all_bind (plain_send client _) fun _ => all_pure _

theorem plain_sendInbox (client : ℕ) (items : List QueryPayload) :
    (CoreServer.sendInbox client items).All Plain := by
  refine all_bind (plain_lockedSend _ _) fun o => ?_
  cases o with
  | sent | osError => exact all_pure _
  | unicodeError => exact plain_reply client _

variable {worker : Bool}

/-- What follows a program that forgets no evidence needs none. -/
theorem hands_any {α : Type} {p : ServerM α} (hj : Of k j) (hp : p.All Plain) (n : Option PyStr) :
    Hands host cores j p n fun _ _ => True :=
  (hands_plain hj hp n).mono fun _ _ _ => trivial

theorem hands_pure {α : Type} (a : α) (n : Option PyStr) :
    Hands host cores j (pure a : ServerM α) n fun _ _ => True := Threads.outline_pure trivial

/-- **A result is acknowledged after it was put into the outbox.** -/
theorem hands_publish (hj : Of k j) (item : QueryPayload) (n : Option PyStr) :
    Hands host cores j (CoreServer.publishTaskQueryResult worker item) n fun _ _ => True := by
  refine Threads.outline_bind (hands_plain hj (plain_lockedSend _ _) n) ?_
  rintro outcome _ rfl
  cases outcome with
  | handed | raised => exact hands_pure _ _
  | offline =>
      refine Threads.outline_bind (hands_enqueue hj item.text item.runId _) ?_
      intro returned n hreturned
      cases returned with
      | false => exact hands_pure _ _
      | true =>
          obtain rfl := hreturned rfl
          cases worker with
          | false => exact hands_pure _ _
          | true =>
              refine Threads.outline_bind (hands_ackResult hj item.runId) ?_
              rintro (e | answer) n _ <;> exact hands_pure _ _

theorem hands_publishAll (hj : Of k j) (items : List QueryPayload) (n : Option PyStr) :
    Hands host cores j (CoreServer.publishAll worker items) n fun _ _ => True := by
  induction items generalizing n with
  | nil => exact hands_pure _ _
  | cons item items ih =>
      refine Threads.outline_bind (hands_publish hj item n) fun returned n _ => ?_
      cases returned with
      | false => exact hands_pure _ _
      | true => exact ih n

theorem hands_recover (hj : Of k j) (n : Option PyStr) :
    Hands host cores j (CoreServer.recoverOfflineQueries worker) n fun _ _ => True := by
  refine Threads.outline_bind (hands_plain hj (plain_locked _) n) ?_
  rintro busy _ rfl
  cases busy with
  | true => exact hands_pure _ _
  | false =>
      cases worker with
      | false => exact hands_pure _ _
      | true =>
          refine Threads.outline_bind (hands_plain hj plain_listResults _) ?_
          rintro answer _ rfl
          split
          · exact hands_publishAll hj _ _
          · exact hands_pure _ _

/-- **A result is acknowledged on behalf of the client that owns the session.** -/
theorem hands_ackInbox (hj : Of k j) (client : ℕ) {runId : Option Json}
    (hn : ∀ r, runId = some (Json.str r) → n = some r) :
    Hands host cores j (CoreServer.ackInbox worker client runId) n fun _ _ => True := by
  unfold CoreServer.ackInbox
  split
  · exact hands_any hj (plain_reply client _) n
  · rename_i r hr
    cases worker with
    | false => exact hands_any hj (plain_reply client _) n
    | true =>
        have hrun : n = some r := by
          unfold CoreServer.ackedRun at hr
          split at hr
          · split_ifs at hr
            cases hr
            exact hn r rfl
          · cases hr
        subst hrun
        refine Threads.outline_bind (hands_ackResult hj r) ?_
        rintro (e | answer) n _
        · exact hands_any hj (plain_reply client _) n
        · exact hands_any hj (all_bind (plain_locked _) fun _ => plain_reply client _) n

theorem hands_handleMessage (hj : Of k j) (client : ℕ) (message : CoreMessage)
    (n : Option PyStr) :
    Hands host cores j (CoreServer.handleMessage worker client message) n fun _ _ => True := by
  cases message with
  | acquire name =>
      simp only [CoreServer.handleMessage]
      split
      · exact hands_any hj (plain_reply client _) n
      · exact hands_any hj (all_bind (plain_locked _) fun _ => plain_reply client _) n
  | release => exact hands_any hj (all_bind (plain_locked _) fun _ => plain_reply client _) n
  | notificationAck identifier =>
      refine hands_any hj (all_bind (plain_owner client _) fun answer => ?_) n
      dsimp only
      split
      · exact plain_acknowledge identifier
      · exact plain_reply client _
  | taskQueryResults =>
      refine hands_any hj (all_bind (plain_owner client _) fun answer => ?_) n
      dsimp only
      split_ifs
      · refine all_bind plain_listResults fun answer => ?_
        split
        · exact plain_sendInbox client _
        · exact plain_reply client _
      · exact all_bind (plain_locked _) fun _ => plain_sendInbox client _
      · exact plain_reply client _
  | taskQueryAck runId =>
      have howner : Hands host cores j
          (CoreServer.owner client (CoreMessage.taskQueryAck runId)) n
          fun answer l => answer.1 = true → ∀ r, runId = some (Json.str r) → l = some r := by
        by_cases hrun : ∃ r, runId = some (Json.str r)
        · obtain ⟨r, rfl⟩ := hrun
          refine (hands_owner hj client r n).mono fun answer l h howns r' heq => ?_
          cases heq
          exact h howns
        · exact (hands_any hj (plain_owner client _) n).mono
            fun _ _ _ _ r heq => absurd ⟨r, heq⟩ hrun
      refine Threads.outline_bind howner fun answer n hn => ?_
      dsimp only
      split_ifs with howns
      · exact hands_ackInbox hj client (hn howns)
      · exact hands_any hj (plain_reply client _) n

theorem hands_serveClient (hj : Of k j) (client : ℕ) (message : CoreMessage) (n : Option PyStr) :
    Hands host cores j (CoreServer.serveClient worker client message) n fun _ _ => True := by
  refine Threads.outline_bind (hands_handleMessage hj client message n) fun goesOn n _ => ?_
  cases goesOn with
  | true => exact hands_pure _ _
  | false => exact hands_any hj (plain_locked _) n

/-! ### Whole runs -/

theorem handing_of_init (hinit : cores.Initial host s) : Handing host s fun _ => none := by
  obtain ⟨hengine, _, _, hlate, hlog⟩ := hinit
  refine ⟨Machine.Reach.of_init hengine, fun p hp => ?_, ?_, nofun⟩
  · rw [hlate] at hp
    cases hp
  · rintro runId (⟨record, hrecord, _⟩ | ⟨env, peer, hmem⟩)
    · obtain ⟨offset, now, tasks, bindings, uuids, _, heq⟩ := hengine
      rw [heq] at hrecord
      cases hrecord
    · rw [hlog] at hmem
      cases hmem

/-- **What threads take up keeps the invariant.** -/
theorem Handing.starts (h : Handing host s notes) {o : CoreChoice κ} {p : ServerM Unit}
    (hstart : cores.starts host j o s = some (p, s')) :
    ∃ n, Handing host s' (Function.update notes j n) ∧ Hands host cores j p n fun _ _ => True := by
  have hself : ∀ {s'}, Handing host s' notes →
      Handing host s' (Function.update notes j (notes j)) := by
    intro s' hs'
    rwa [Function.update_eq_self]
  cases j with
  | outside =>
      cases o with
      | input i =>
          simp only [Cores.starts] at hstart
          split_ifs at hstart with hforeign
          cases hstart
          refine ⟨_, hself (h.serve fun runId env peer heq => ?_), hands_pure _ _⟩
          subst heq
          cases hforeign
      | deliver m env =>
          simp only [Cores.starts] at hstart
          split at hstart
          · cases hstart
          · rename_i k runId hlate
            cases hstart
            have hs' : Handing host { s with late := s.late.eraseIdx m } notes :=
              h.change (Keeps.of_log (List.Subset.refl _) rfl) rfl
                (fun p hp => Or.inl (List.mem_of_mem_eraseIdx hp)) fun _ _ h => h
            refine ⟨_, hself (hs'.serve fun runId' env' peer heq => ?_), hands_pure _ _⟩
            cases heq
            exact h.late (k, runId) (List.mem_of_getElem? hlate)
      | outbox i =>
          cases hstart
          exact ⟨_, hself (h.change (keeps_outboxStep i s) rfl (fun _ hp => Or.inl hp)
            fun _ _ h => h), hands_pure _ _⟩
      | stop k | vacate k =>
          cases hstart
          exact ⟨_, hself (h.setServer k _), hands_pure _ _⟩
      | _ => cases hstart
  | worker k =>
      cases o with
      | hint item =>
          cases hstart
          exact ⟨_, hself h, Threads.outline_bind (hands_publish (Or.inl rfl) item _)
            fun _ _ _ => hands_pure _ _⟩
      | recover =>
          cases hstart
          exact ⟨_, hself h, Threads.outline_bind (hands_recover (Or.inl rfl) _)
            fun _ _ _ => hands_pure _ _⟩
      | _ => cases hstart
  | client k m =>
      cases o with
      | message message =>
          cases hstart
          exact ⟨_, hself h, hands_serveClient (Or.inr ⟨m, rfl⟩) m message _⟩
      | disconnect =>
          cases hstart
          exact ⟨_, hself h, hands_any (Or.inr ⟨m, rfl⟩) (plain_locked _) _⟩
      | _ => cases hstart

/-- **Every result that has been acknowledged has been handed off**, whatever is lost and whoever
dies. -/
theorem handedOff (host : Host) (cores : Cores κ)
    {c : Threads.Config (CoreThread κ) ServerEffect ServerEffect.Answer (CoreSystem κ)}
    (h : (cores.threads host).machine.Reachable c) (runId : PyStr) : c.state.HandedOff runId where
  evidence := by
    have hinv : ∃ notes, Handing host c.state notes ∧ ∀ j, (cores.threads host).Outline
        (Handing host) j (c.threads j) (notes j) fun _ _ => True :=
      Threads.invariant (fun _ _ => True) none (fun _ => trivial) (fun _ => handing_of_init)
        (fun _ _ _ _ _ _ hs _ hstart => hs.starts hstart) h
    obtain ⟨notes, hs, _⟩ := hinv
    exact hs.evidence runId
  unique := Table.length_filter_key_le_one _ _

/-! ### One CORE -/

/-- A system with one CORE. -/
def single : Cores Unit := ⟨fun _ => "s", fun _ => "p", fun _ => true⟩

/-- The choices of an environment in which all goes well. -/
def smooth : ServerEffect → CoreChoice Unit
  | ServerEffect.locked _ _ _ | ServerEffect.send _ _ => CoreChoice.send SendOutcome.sent
  | ServerEffect.enqueue _ _ | ServerEffect.acknowledge _ => CoreChoice.stored 0 true true
  | _ => CoreChoice.served Env.quiet true

/-- Nothing has happened yet. -/
def start : Threads.Config (CoreThread Unit) ServerEffect ServerEffect.Answer (CoreSystem Unit) :=
  ⟨⟨TaskEngine.fresh, Outbox.empty Unit, fun _ => CoreServer.initial, [], []⟩,
    fun _ => Program.done ()⟩

theorem start_init (host : Host) : (single.threads host).machine.init start :=
  ⟨⟨TaskEngine.fresh_init host, fun _ => rfl, fun _ => rfl, rfl, rfl⟩, fun _ => rfl⟩

/-- Nobody is connected while a result comes into the inbox, and the CORE looks through it. -/
def recovered :
    Threads.Config (CoreThread Unit) ServerEffect ServerEffect.Answer (CoreSystem Unit) :=
  ((TaskEngine.twoQueries.map fun i => (CoreThread.outside, CoreChoice.input i, smooth)) ++
    [(CoreThread.worker (), CoreChoice.recover, smooth)]).foldl
      ((single.threads Host.ascii).turn 20) start

theorem reachable_recovered : (single.threads Host.ascii).machine.Reachable recovered :=
  Threads.reachable_turns (Machine.Reach.of_init (start_init Host.ascii)) 20 _

/-- The result is acknowledged, and it is in the outbox. -/
theorem handedOff_recovered : recovered.state.Acknowledged TaskEngine.lost.runId ∧
    recovered.state.HandedOff TaskEngine.lost.runId := by
  refine ⟨Or.inl ?_, handedOff Host.ascii single reachable_recovered _⟩
  have hacked : (recovered.state.engine.queryResults.get? TaskEngine.lost.runId).any
      QueryResult.acked = true := by decide +kernel
  exact (Option.any_eq_true _ _).1 hacked

end Cores
