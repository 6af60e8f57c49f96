/-
**The polling threads keep the runs.**

The programs of the polling thread are outlined against the invariant of `CatAgent.WorkerRuns`.
Most operations neither begin a run nor may make one done; for the others there is one lemma each,
which says what the thread knows afterwards.

Main definitions:

* `NativeTaskWorker.Calm` — the operations that leave the notes of all threads alone;
* `WorkerSystem.Kept`, `WorkerSystem.Obeys` — the invariant, and outlines against it.

Main results:

* `WorkerSystem.Kept.committed` — a query that is done was in the inbox;
* `WorkerSystem.keeps_publish`, `WorkerSystem.keeps_hint`, `WorkerSystem.keeps_finish` — what a
  result, a hint and the end of a run need;
* `WorkerSystem.keeps_pollOnce`, `WorkerSystem.keeps_close` — **the outlines of the polling thread**.
-/

import CatAgent.WorkerRuns

set_option relaxedAutoImplicit false
set_option autoImplicit false

/-! ### Operations that change no note -/

namespace NativeTaskWorker

open Program (all_bind all_pure all_operation)

/-- A call that neither begins a run nor may make one done. -/
def CalmCall : RpcCall → Prop
  | RpcCall.begin _ _ => False
  | RpcCall.finish _ _ outcome _ => Happening.Harmless outcome
  | _ => True

/-- An operation that makes no other calls and gives no hint. -/
def CallsCalmly : WorkerEffect → Prop
  | WorkerEffect.rpc c => CalmCall c
  | WorkerEffect.onQueryResult _ _ => False
  | _ => True

/-- An operation that leaves the tables alone as well. -/
def Calm (e : WorkerEffect) : Prop := Quiet e ∧ CallsCalmly e

theorem calm_of {α : Type} {p : WorkerM α} (h : p.All Quiet) (h' : p.All CallsCalmly) :
    p.All Calm := by
  induction p with
  | done a => trivial
  | perform e next ih => exact ⟨⟨h.1, h'.1⟩, fun x => ih x (h.2 x) (h'.2 x)⟩

theorem calls_locked {β : Type} (f : NativeTaskWorker → β × NativeTaskWorker) :
    (locked f).All CallsCalmly := all_operation trivial

theorem calls_flushEntries (l : List (PyStr × SystemEvent)) : (flushEntries l).All CallsCalmly := by
  induction l with
  | nil => exact all_pure _
  | cons e rest ih =>
      have hcall : (rpc (RpcCall.finish e.2.runId e.1 "cancelled" none)).All CallsCalmly :=
        all_operation (by decide : Happening.Harmless "cancelled")
      refine all_bind hcall fun answer => ?_
      cases answer with
      | error e => exact all_pure _
      | ok reply => exact all_bind (calls_locked _) fun _ => ih

theorem calls_flushDefers : flushDefers.All CallsCalmly :=
  all_bind (calls_locked _) calls_flushEntries

theorem calls_deferOffer (event : SystemEvent) (seconds : ℚ) :
    (deferOffer event seconds).All CallsCalmly :=
  all_bind (all_operation trivial) fun _ => all_bind (calls_locked _) fun _ => calls_flushDefers

theorem calls_heartbeat : heartbeat.All CallsCalmly := by
  refine all_bind (all_operation trivial) fun now => all_bind (calls_locked _) fun fresh => ?_
  cases fresh with
  | true => exact all_pure _
  | false =>
      refine all_bind (all_operation trivial) fun answer => ?_
      cases answer with
      | error e => exact all_bind (calls_locked _) fun _ => all_pure _
      | ok reply =>
          exact all_bind (all_operation trivial) fun _ => all_bind (calls_locked _) fun _ =>
            all_pure _

theorem calls_firstAgent (required : List PyStr) (agents : List (PyStr × Bool))
    (l : List (PyStr × List PyStr)) : (firstAgent required agents l).All CallsCalmly := by
  induction l with
  | nil => exact all_pure _
  | cons e rest ih =>
      obtain ⟨ident, granted⟩ := e
      simp only [firstAgent]
      split_ifs
      · refine all_bind (all_operation trivial) fun blocked => ?_
        cases blocked with
        | true => exact ih
        | false =>
            refine all_bind (calls_locked _) fun reserved => ?_
            cases reserved with
            | true => exact ih
            | false => exact all_pure _
      · exact ih

theorem calls_selectAgent (config : WorkerConfig) (task : TaskRecord) :
    (selectAgent config task).All CallsCalmly := by
  refine all_bind (all_operation trivial) fun agents => ?_
  cases task.agentId with
  | none => exact calls_firstAgent _ _ _
  | some target =>
      dsimp only
      cases config.permissions.lookup target with
      | none => exact all_pure _
      | some granted =>
          dsimp only
          split_ifs
          · refine all_bind (all_operation trivial) fun blocked => ?_
            cases blocked with
            | true => exact all_pure _
            | false => exact calls_locked _
          · exact all_pure _

theorem calm_operation {e : WorkerEffect} (h : Quiet e) (h' : CallsCalmly e) :
    (Program.operation e : WorkerM e.Answer).All Calm := all_operation ⟨h, h'⟩

end NativeTaskWorker

/-! ### The calls -/

namespace WorkerSystem

variable {ι : Type} [DecidableEq ι] {host : Host} {e₀ : TaskEngine} {lawful : Prop}
  {crew : Workers ι} {s s' : WorkerSystem ι} {notes : WorkerThread ι → RunNote}
  {j : WorkerThread ι} {i : ι} {n : RunNote} {x : Happening ι} {α β : Type}

open Happening (Begins Starts AsksDone Owed Committed Ready Harmless engineAfter)
open NativeTaskWorker (Books Calm CalmCall)

omit [DecidableEq ι] in
theorem passive_served (inp : Input) (reply : Except PyError Reply) :
    Passive (ι := ι) (Happening.served inp reply) where
  begins := by
    rintro i k o ⟨_, _, h⟩
    cases h
  starts := by
    rintro i k o (⟨_, _, _, _, h, _⟩ | ⟨_, _, _, _, h⟩) <;> cases h
  hinted := fun i t p h => by cases h

omit [DecidableEq ι] in
theorem passive_told {c : RpcCall} (answer : Except PyError Reply)
    (hbegin : ∀ i k o, j = WorkerThread.executing i → c ≠ RpcCall.begin k o)
    (hfinish : ∀ i k o outcome code, j = WorkerThread.polling i →
      c = RpcCall.finish k o outcome code → Harmless outcome) :
    Passive (Happening.told j c answer) where
  begins := by
    rintro i k o ⟨_, _, h⟩
    cases h
    exact hbegin i k o rfl rfl
  starts := by
    rintro i k o (⟨_, _, _, _, h, _⟩ | ⟨_, _, _, hdone, h⟩)
    · cases h
    · cases h
      exact hfinish i k o _ _ rfl rfl hdone
  hinted := fun i t p h => by cases h

omit [DecidableEq ι] in
theorem passive_calm {c : RpcCall} (hc : CalmCall c) (j : WorkerThread ι)
    (answer : Except PyError Reply) : Passive (Happening.told j c answer) := by
  refine passive_told answer (fun i k o _ heq => ?_) fun i k o outcome code _ heq => ?_
  · subst heq
    exact hc
  · subst heq
    exact hc

theorem Executions.serve (h : Executions host e₀ lawful crew s notes)
    (inp : Input) :
    Executions host e₀ lawful crew (s.serve host inp).2 notes := by
  refine h.passive (passive_served inp _) rfl rfl ?_
  change (s.engine.respond host inp).2 = engineAfter host e₀ (Happening.served inp _ :: s.log)
  rw [Happening.engineAfter_served, ← h.engine]

theorem Executions.reachable (h : Executions host e₀ lawful crew s notes) :
    (TaskEngine.machine host).Reachable s.engine := by
  rw [h.engine]
  exact Happening.reachable_engineAfter h.start _

/-- **A thread makes a call.**  The service has answered, or it has not heard of the call. -/
theorem Executions.call (h : Executions host e₀ lawful crew s notes)
    {c : RpcCall} {o : WorkerChoice}
    {answer : Except PyError Reply} (hcall : crew.call host i j c o s = some (answer, s')) :
    ∃ s₁, s' = s₁.note (Happening.told j c answer) ∧
      Executions host e₀ lawful crew s₁ notes ∧ s₁.workers = s.workers ∧ s.log <:+ s₁.log ∧
      ((∃ e, answer = Except.error e) ∨
        ∃ env, answer = (s.engine.respond host (crew.request i c env)).1 ∧
          s₁ = (s.serve host (crew.request i c env)).2) := by
  cases o with
  | served env heard =>
      simp only [Workers.call] at hcall
      split_ifs at hcall with hfits hheard
      · cases hcall
        exact ⟨_, rfl, h.serve _, rfl, List.suffix_cons _ _, Or.inr ⟨env, rfl, rfl⟩⟩
      · cases hcall
        exact ⟨_, rfl, h.serve _, rfl, List.suffix_cons _ _, Or.inl ⟨_, rfl⟩⟩
      · cases hcall
        exact ⟨s, rfl, h, rfl, List.suffix_refl _, Or.inl ⟨_, rfl⟩⟩
  | lost late =>
      simp only [Workers.call, Option.some.injEq, Prod.mk.injEq] at hcall
      obtain ⟨rfl, rfl⟩ := hcall
      refine ⟨_, rfl, ?_, rfl, List.suffix_refl _, Or.inl ⟨_, rfl⟩⟩
      exact
        { h with
          polling := fun i => ⟨(h.polling i).1, knows_congr (h.polling i).2 rfl rfl rfl⟩
          executing := fun i => ⟨(h.executing i).1, knows_congr (h.executing i).2 rfl rfl rfl⟩ }
  | _ => cases hcall

/-- A thread is told something that changes no note. -/
theorem Executions.told (h : Executions host e₀ lawful crew s notes) {c : RpcCall}
    (answer : Except PyError Reply) (hx : Passive (Happening.told j c answer)) :
    Executions host e₀ lawful crew (s.note (Happening.told j c answer)) notes :=
  h.passive hx rfl rfl h.engine

/-! ### Outlines -/

variable (host e₀ lawful crew) in
/-- The invariant; that runs are done only on request is part of it if nobody else speaks in the name
of a worker. -/
def Kept (s : WorkerSystem ι) (notes : WorkerThread ι → RunNote) : Prop :=
  Executions host e₀ lawful crew s notes ∧ (lawful → Accounted crew s)

variable (host e₀ lawful crew) in
/-- An outline of a program of the thread `j`. -/
abbrev Obeys (j : WorkerThread ι) (p : WorkerM α) (n : RunNote) (Q : α → RunNote → Prop) : Prop :=
  (crew.threads host).Outline (Kept host e₀ lawful crew) j p n Q

/-- Nothing that concerns the service has happened. -/
theorem Kept.quietly (h : Kept host e₀ lawful crew s notes) {notes' : WorkerThread ι → RunNote}
    (hs' : Executions host e₀ lawful crew s' notes') (hengine : s'.engine = s.engine)
    (hlate : s'.late = s.late) (hlog : s.log ⊆ s'.log) : Kept host e₀ lawful crew s' notes' :=
  ⟨hs', fun hl => (h.2 hl).unheard hengine (fun _ _ _ _ _ hmem => Or.inl (hlate ▸ hmem)) hlog⟩

/-- **A calm program** changes no note. -/
theorem keeps_calm {p : WorkerM α} (hj : Of i j) (hp : p.All Calm) (n : RunNote) :
    Obeys host e₀ lawful crew j p n fun _ l => l = n := by
  induction p with
  | done a => exact rfl
  | perform e next ih =>
      intro s notes o x s' hs hl hx
      rw [handle_of hj] at hx
      refine ⟨n, ?_, ih x (hp.2 x)⟩
      rw [← hl, Function.update_eq_self]
      obtain ⟨hquiet, hcalls⟩ := hp.1
      cases e with
      | locked β f =>
          cases hx
          exact hs.quietly (hs.1.same (hquiet (s.workers i))) rfl rfl (List.Subset.refl _)
      | rpc c =>
          obtain ⟨s₁, rfl, hs₁, _⟩ := hs.1.call hx
          refine ⟨hs₁.told _ (passive_calm hcalls j x), fun hlaw => ?_⟩
          refine (hs.2 hlaw).call hs.1.reachable hx fun k o outcome code heq hdone => ?_
          subst heq
          exact absurd hdone hcalls
      | runAgent event agentId instruction => exact absurd hquiet id
      | onQueryResult offerId result => exact absurd hcalls id
      | clock | canRun | agentStatus | agentBlocked | admits =>
          cases o <;> cases hx
          exact hs

/-! ### Publishing and finishing -/

open NativeTaskWorker

/-- The polling thread looks at the tables. -/
theorem keeps_look {f : NativeTaskWorker → β × NativeTaskWorker} {Q : β → RunNote → Prop}
    (hn : n.hinting = none) (hf : ∀ w, SameBooks w (f w).2)
    (h : ∀ s notes, Kept host e₀ lawful crew s notes → notes (WorkerThread.polling i) = n →
      ∃ l, l.Polls ∧ l.Knows host e₀ lawful crew i s ∧ Q (f (s.workers i)).1 l) :
    Obeys host e₀ lawful crew (WorkerThread.polling i) (locked f) n Q := by
  intro s notes o x s' hs hl hx
  rw [handle_of (Or.inl rfl)] at hx
  cases hx
  obtain ⟨l, hpolls, hknows, hQ⟩ := h s notes hs hl
  refine ⟨l, ?_, hQ⟩
  refine hs.quietly ?_ rfl rfl (List.Subset.refl _)
  refine (hs.1.same (hf (s.workers i))).renote_polling hpolls (fun t ht => ?_)
    (knows_same (hf _) hknows)
  rw [hl, hn] at ht
  cases ht

/-- **A run that is done and for which there was something to publish**: it was in the inbox. -/
theorem Kept.committed (h : Kept host e₀ lawful crew s notes) (hl : lawful) {k t : PyStr}
    {p : QueryPayload} (ho : Owed host e₀ i k t p s.log) {run : Run}
    (hrun : s.engine.runs.get? k = some run) (hdone : run.state = RunState.done) :
    Committed host e₀ lawful crew i t p s.log := by
  obtain ⟨x, hx, hstarts⟩ := ho.starts
  obtain ⟨⟨y, hy, hbegins⟩, _⟩ := h.1.started i k t x hx hstarts
  obtain ⟨hoffer, _, hheld⟩ := (h.1.begun i k t y hy hbegins).grant run hrun
  rcases hheld with hinterrupted | ⟨howner, _⟩
  · rw [hdone] at hinterrupted
    cases hinterrupted
  · obtain ⟨z, hz, hasks⟩ := (h.2 hl).done k run hrun hdone i howner
    rw [hoffer] at hasks
    exact h.1.sent i k t z hz hasks k p ho

/-- The thread looks for the result of the first run that is to be finished. -/
theorem keeps_readResult (token : PyStr) (entry : PendingFinish)
    (rest : List (PyStr × PendingFinish)) :
    Obeys host e₀ lawful crew (WorkerThread.polling i)
      (read fun w => w.pendingResults.get? token) (RunNote.finishing ((token, entry) :: rest))
      fun found l => (found = none → l = RunNote.settled token entry rest) ∧
        ∀ result, found = some result → l = RunNote.publishing token entry result rest := by
  refine keeps_look rfl (fun _ => ⟨rfl, rfl, rfl, rfl, rfl⟩) fun s notes hs hl => ?_
  have hlisted : (s.workers i).Listed ((token, entry) :: rest) := by
    have hknows := (hs.1.polling i).2
    rw [hl] at hknows
    exact hknows
  cases hresult : (s.workers i).pendingResults.get? token with
  | none =>
      refine ⟨RunNote.settled token entry rest, trivial,
        ⟨hlisted, PyDict.get?_eq_none_iff.1 hresult, ?_⟩, fun _ => rfl,
        fun _ h => by cases hresult.symm.trans h⟩
      by_cases hharmless : Harmless entry.outcome
      · exact Or.inl hharmless
      · refine Or.inr fun k p ho => ?_
        rcases hs.1.owed i k token p entry ho (hlisted.2 _ List.mem_cons_self) with hc | hh | hp
        · exact hc
        · exact absurd hh hharmless
        · cases hresult.symm.trans hp
  | some result =>
      refine ⟨RunNote.publishing token entry result rest, trivial, ⟨hlisted, hresult⟩,
        fun h => ?_, fun other h => ?_⟩
      · cases hresult.symm.trans h
      · cases hresult.symm.trans h
        rfl

/-- **A result is published**: if that is acknowledged, it is in the inbox. -/
theorem keeps_publish (token : PyStr) (entry : PendingFinish) (result : QueryPayload)
    (rest : List (PyStr × PendingFinish)) :
    Obeys host e₀ lawful crew (WorkerThread.polling i)
      (rpc (RpcCall.publishResult entry.event.runId entry.event.offerId result))
      (RunNote.publishing token entry result rest) fun answer l =>
        l = (match answer with
          | Except.ok reply => if truthy reply then RunNote.published token entry result rest
              else RunNote.publishing token entry result rest
          | Except.error _ => RunNote.publishing token entry result rest) := by
  intro s notes o x s' hs hl hx
  refine ⟨_, ?_, rfl⟩
  rw [handle_of (Or.inl rfl)] at hx
  have haccounted : lawful → Accounted crew s' := fun hlaw =>
    (hs.2 hlaw).call hs.1.reachable hx fun _ _ _ _ heq _ => by cases heq
  obtain ⟨s₁, rfl, hs₁, hworkers, hlog, hreply⟩ := hs.1.call hx
  have htold := hs₁.told (j := WorkerThread.polling i) x
    (passive_calm (c := RpcCall.publishResult entry.event.runId entry.event.offerId result)
      trivial _ x)
  have hsame : notes = Function.update notes (WorkerThread.polling i)
      (RunNote.publishing token entry result rest) := by rw [← hl, Function.update_eq_self]
  have hkeep : Kept host e₀ lawful crew (s₁.note (Happening.told (WorkerThread.polling i)
      (RpcCall.publishResult entry.event.runId entry.event.offerId result) x))
      (Function.update notes (WorkerThread.polling i)
        (RunNote.publishing token entry result rest)) := hsame ▸ ⟨htold, haccounted⟩
  cases x with
  | error e => exact hkeep
  | ok reply =>
      dsimp only
      split_ifs with htrue
      swap
      · exact hkeep
      refine ⟨htold.renote_polling trivial (fun t ht => ?_) ?_, haccounted⟩
      · rw [hl] at ht
        cases ht
      have hknows := (hs.1.polling i).2
      rw [hl] at hknows
      obtain ⟨hlisted, hresult⟩ := hknows
      obtain ⟨k, howed⟩ := hs.1.results i token result hresult
      change (s₁.workers i).Listed _ ∧ (s₁.workers i).pendingResults.get? token = _ ∧ _
      rw [hworkers]
      refine ⟨hlisted, hresult, ?_⟩
      rcases hreply with ⟨e, he⟩ | ⟨env, hanswer, hserved⟩
      · cases he
      -- An acknowledged result has a record in the table of the service.
      obtain ⟨hrunId, record, hrecord, howner, hpeer, hoffer, hpayload⟩ :=
        TaskEngine.record_of_publish (hanswer.symm) htrue
      have htoken : entry.event.offerId = token :=
        (hs.1.entries i token entry (hlisted.2 _ List.mem_cons_self)).1
      rw [htoken] at hoffer
      have hengine : s₁.engine = engineAfter host e₀ s₁.log := hs₁.engine
      -- If the run was done already, its result was committed before that.
      by_cases hdone : lawful ∧ ∃ run, s.engine.runs.get? k = some run ∧ run.state = RunState.done
      · obtain ⟨hlaw, run, hrun, hdone⟩ := hdone
        exact (hs.committed hlaw howed hrun hdone).later
          (hlog.trans (List.suffix_cons _ _))
      · refine ⟨s₁.log, List.suffix_cons _ _, ⟨record, ?_, howner, hpeer, hoffer, hpayload⟩, ?_⟩
        · rw [← hengine, hserved, hrunId]
          exact hrecord
        · intro hlaw run hrun hd
          rw [← hengine, hserved] at hrun
          rcases TaskEngine.done_of_respond hs.1.reachable _ hrun hd with
            hold | ⟨env', peer', outcome, statusCode, heq, _⟩
          · rw [howed.runId_eq] at hold
            exact hdone ⟨hlaw, run, hold, hd⟩
          · simp [Workers.request, RpcCall.op] at heq

/-- The tables of a worker after it has changed them. -/
theorem workers_update (s : WorkerSystem ι) (i : ι) (w : NativeTaskWorker) :
    ({ s with workers := Function.update s.workers i w } : WorkerSystem ι).workers i = w :=
  Function.update_self i w s.workers

omit [DecidableEq ι] in
/-- A thread of another worker, or one that deals with another offer. -/
theorem not_about_of_ne {i' : ι} {o o' : PyStr} (hx : ∀ i' o', About i' o' x → i' = i ∧ o' = o)
    (h : i' = i → o' ≠ o) : ¬ About i' o' x := fun ha => h (hx i' o' ha).1 (hx i' o' ha).2

/-- An offer that is to be finished is not the one of a job that is being executed. -/
theorem not_about_of_key
    (h : Executions host e₀ lawful crew s notes) {t : PyStr}
    (hkey : t ∈ (s.workers i).pendingFinishes.keys)
    (hx : ∀ i' o, About i' o x → i' = i ∧ o = t) {i' : ι} {o : PyStr}
    (ho : (notes (WorkerThread.executing i')).token = some o) : ¬ About i' o x := by
  refine not_about_of_ne hx ?_
  rintro rfl rfl
  exact h.not_key_of_token ho hkey

/-- **The polling thread writes something down about a run that is to be finished**, and knows
something else of it. -/
theorem Executions.cons_polling (h : Executions host e₀ lawful crew s notes) {t : PyStr}
    (hengine : s.engine = engineAfter host e₀ (x :: s.log))
    (hkey : t ∈ (s.workers i).pendingFinishes.keys)
    (hhinting : (notes (WorkerThread.polling i)).hinting = none)
    (habout : ∀ i' o, About i' o x → i' = i ∧ o = t)
    (hbegins : ∀ i' k o, ¬ Begins i' k o x)
    (hasked : ∀ i' event agentId instruction outcome,
      x ≠ Happening.asked i' event agentId instruction outcome)
    (hstarts : ∀ k, Starts i k t x → (∃ y ∈ s.log, Begins i k t y) ∧
      ∃ e, (s.workers i).pendingFinishes.get? t = some e ∧ e.event.runId = k)
    (hsent : ∀ k, AsksDone i k t x → ∀ k' p, Owed host e₀ i k' t p s.log →
      Committed host e₀ lawful crew i t p s.log)
    (hhinted : ∀ p, x = Happening.hinted i t p → (∃ k, Owed host e₀ i k t p s.log) ∧
      Committed host e₀ lawful crew i t p s.log ∧ n.hinting = some t)
    (hhints : ∀ i', (Happening.hints i' (x :: s.log)).Nodup) (hpolls : n.Polls)
    (hn : n.Knows host e₀ lawful crew i (s.note x)) :
    Executions host e₀ lawful crew (s.note x) (Function.update notes (WorkerThread.polling i) n) := by
  have hexec : ∀ i', Function.update notes (WorkerThread.polling i) n
      (WorkerThread.executing i') = notes (WorkerThread.executing i') :=
    fun i' => Function.update_of_ne (by simp) _ _
  have howed : ∀ i' k o p, Owed host e₀ i' k o p (x :: s.log) → Owed host e₀ i' k o p s.log := by
    intro i' k o p ho
    cases x with
    | asked i' event agentId instruction outcome => exact absurd rfl (hasked _ _ _ _ _)
    | told => exact ho.of_told
    | served | hinted =>
        refine ho.of_cons ?_
        rintro (⟨_, _, _, _, heq, _⟩ | ⟨_, _, _, _, heq⟩) <;> cases heq
  refine h.cons rfl rfl hengine (fun i' => ?_) (fun i' p ha => ?_) (fun i' o hh => ?_)
    (fun i' k o hb => absurd hb (hbegins i' k o)) (fun i' k o hst => ?_)
    (fun i' event agentId instruction outcome heq => absurd heq (hasked _ _ _ _ _)) ?_
    (fun i' k o p ho => Or.inl (howed i' k o p ho)) (fun i' k o hd => ?_) (fun i' o p heq => ?_)
    hhints (fun i' => ?_) fun i' => ?_
  · rw [hexec]
    exact ⟨rfl, rfl⟩
  · rw [hexec]
    exact ha
  · by_cases hi : i' = i
    · subst hi
      rw [hhinting] at hh
      cases hh
    · rw [Function.update_of_ne (by simpa using hi)]
      exact hh
  · obtain ⟨rfl, rfl⟩ := habout i' o (Or.inl ⟨k, hst⟩)
    obtain ⟨hbegan, hentry⟩ := hstarts k hst
    exact ⟨hbegan, Or.inr (Or.inl hentry)⟩
  · cases x with
    | asked i' event agentId instruction outcome => exact absurd rfl (hasked _ _ _ _ _)
    | served | told | hinted => exact h.once
  · obtain ⟨rfl, rfl⟩ := habout i' o (Or.inl ⟨k, Or.inr hd⟩)
    exact hsent k hd
  · obtain ⟨rfl, rfl⟩ := habout i' o (Or.inr ⟨p, heq⟩)
    rw [Function.update_self]
    exact hhinted p heq
  · by_cases hi : i' = i
    · subst hi
      rw [Function.update_self]
      exact ⟨hpolls, hn⟩
    · rw [Function.update_of_ne (by simpa using hi)]
      exact ⟨(h.polling i').1, knows_cons (h.polling i').2 rfl rfl (fun _ h => h)
        fun o _ => not_about_of_ne habout fun h => absurd h hi⟩
  · rw [hexec]
    exact ⟨(h.executing i').1, knows_cons (h.executing i').2 rfl rfl (fun _ h => h)
      fun o ho => not_about_of_key h hkey habout ho⟩

/-- **The executing thread writes something down about its job**, and knows something else of it. -/
theorem Executions.cons_executing (h : Executions host e₀ lawful crew s notes) {job : Job}
    (hengine : s.engine = engineAfter host e₀ (x :: s.log))
    (hjob : (notes (WorkerThread.executing i)).jobs = [job])
    (hjobs : n.jobs = [job])
    (hrecorded : n.recorded = (notes (WorkerThread.executing i)).recorded)
    (hasking : (notes (WorkerThread.executing i)).asking = none)
    (habout : ∀ i' o, About i' o x → i' = i ∧ o = job.token)
    (hbegins : ∀ i' k o, Begins i' k o x →
      Tables.Begun host (crew.config i').owner (crew.peer i') k o s.engine.toTables ∧
        ∀ i₁ k₁ o₁, ∀ y ∈ s.log, Begins i₁ k₁ o₁ y → k = k₁ ∨ o = o₁ → i' = i₁ ∧ k = k₁ ∧ o = o₁)
    (hstarts : ∀ k, Starts i k job.token x → (∃ y ∈ s.log, Begins i k job.token y) ∧
      n.asking = some (k, job.token) ∧ ∀ y ∈ s.log, ∀ k', ¬ Starts i k' job.token y)
    (hasked : ∀ i' event agentId instruction outcome,
      x = Happening.asked i' event agentId instruction outcome →
        ∃ task, Job.Reads host e₀ ⟨event, task, agentId⟩ s.log)
    (honce : (Happening.asks (x :: s.log)).Nodup)
    (hdone : ∀ i' k o, ¬ AsksDone i' k o x) (hhinted : ∀ i' o p, x ≠ Happening.hinted i' o p)
    (hexecutes : n.Executes) (hn : n.Knows host e₀ lawful crew i (s.note x)) :
    Executions host e₀ lawful crew (s.note x)
      (Function.update notes (WorkerThread.executing i) n) := by
  have hnotkey : job.token ∉ (s.workers i).pendingFinishes.keys :=
    h.not_key (by rw [hjob]; exact List.mem_singleton_self job)
  have hpoll : ∀ i', Function.update notes (WorkerThread.executing i) n
      (WorkerThread.polling i') = notes (WorkerThread.polling i') :=
    fun i' => Function.update_of_ne (by simp) _ _
  refine h.cons rfl rfl hengine (fun i' => ?_) (fun i' p ha => ?_) (fun i' o hh => ?_) hbegins
    (fun i' k o hst => ?_) hasked honce (fun i' k o p ho => ?_)
    (fun i' k o hd => absurd hd (hdone i' k o)) (fun i' o p heq => absurd heq (hhinted i' o p))
    (fun i' => ?_) (fun i' => ?_) fun i' => ?_
  · by_cases hi : i' = i
    · subst hi
      rw [Function.update_self]
      exact ⟨hjobs.trans hjob.symm, hrecorded⟩
    · rw [Function.update_of_ne (by simpa using hi)]
      exact ⟨rfl, rfl⟩
  · by_cases hi : i' = i
    · subst hi
      rw [hasking] at ha
      cases ha
    · rw [Function.update_of_ne (by simpa using hi)]
      exact ha
  · rw [hpoll]
    exact hh
  · obtain ⟨rfl, rfl⟩ := habout i' o (Or.inl ⟨k, hst⟩)
    obtain ⟨hbegan, hasks, -⟩ := hstarts k hst
    refine ⟨hbegan, Or.inl ?_⟩
    rw [Function.update_self]
    exact hasks
  · by_cases hst : Starts i' k o x
    · obtain ⟨rfl, rfl⟩ := habout i' o (Or.inl ⟨k, hst⟩)
      refine Or.inr ⟨hnotkey, fun y hy k' hk' => ?_⟩
      rcases List.mem_cons.1 hy with rfl | hy
      · exact hdone _ k' _ hk'
      · exact (hstarts k hst).2.2 y hy k' (Or.inr hk')
    · exact Or.inl (ho.of_cons hst)
  · cases x with
    | hinted i₁ o p => exact absurd rfl (hhinted _ _ _)
    | served | told | asked => exact h.hints i'
  · rw [hpoll]
    refine ⟨(h.polling i').1, knows_cons (h.polling i').2 rfl rfl (fun _ h => h)
      fun o ho => not_about_of_ne habout ?_⟩
    rintro rfl rfl
    exact hnotkey (key_of_token (h.polling i').1 (h.polling i').2 ho)
  · by_cases hi : i' = i
    · subst hi
      rw [Function.update_self]
      exact ⟨hexecutes, hn⟩
    · rw [Function.update_of_ne (by simpa using hi)]
      exact ⟨(h.executing i').1, knows_cons (h.executing i').2 rfl rfl (fun _ h => h)
        fun o _ => not_about_of_ne habout fun h => absurd h hi⟩

/-- **A hint is given once.** -/
theorem keeps_hint (token : PyStr) (entry : PendingFinish) (result : QueryPayload)
    (rest : List (PyStr × PendingFinish)) :
    Obeys host e₀ lawful crew (WorkerThread.polling i) (onQueryResult token result)
      (RunNote.published token entry result rest) fun _ l =>
        l = RunNote.hinted token entry rest := by
  intro s notes o x s' hs hl hx
  rw [handle_of (Or.inl rfl)] at hx
  cases hx
  refine ⟨RunNote.hinted token entry rest, ?_, rfl⟩
  refine hs.quietly ?_ rfl rfl (List.subset_cons_self _ _)
  have hknows := (hs.1.polling i).2
  rw [hl] at hknows
  obtain ⟨hlisted, hresult, hcommitted⟩ := hknows
  have hkey : token ∈ (s.workers i).pendingFinishes.keys :=
    PyDict.mem_keys_of_get? (hlisted.2 _ List.mem_cons_self)
  have habout : ∀ i' o', About i' o' (Happening.hinted i token result) → i' = i ∧ o' = token := by
    rintro i' o' (⟨k, ⟨_, _, _, _, h, _⟩ | ⟨_, _, _, _, h⟩⟩ | ⟨p, h⟩) <;> cases h
    exact ⟨rfl, rfl⟩
  have hlog : s.log <:+ Happening.hinted i token result :: s.log := List.suffix_cons _ _
  refine hs.1.cons_polling hs.1.engine hkey (by rw [hl]; rfl) habout ?_ (fun _ _ _ _ _ h => by cases h)
    ?_ ?_ ?_ (fun i' => ?_) trivial ⟨hlisted, result, hresult, hcommitted.later hlog⟩
  · rintro i' k o' ⟨_, _, h⟩
    cases h
  · rintro k (⟨_, _, _, _, h, _⟩ | ⟨_, _, _, _, h⟩) <;> cases h
  · rintro k ⟨_, _, _, _, h⟩
    cases h
  · intro p h
    cases h
    exact ⟨hs.1.results i token result hresult, hcommitted, rfl⟩
  · by_cases hi : i = i'
    · subst hi
      simp only [Happening.hints, if_pos]
      refine List.nodup_cons.2 ⟨fun hmem => ?_, hs.1.hints i⟩
      -- The hint was given while the result was recorded, and then the result was forgotten.
      obtain ⟨p, hp⟩ := Happening.mem_hints hmem
      rcases (hs.1.hinted i token p hp).2.2 with hnone | hhinting
      · cases hnone.symm.trans hresult
      · rw [hl] at hhinting
        cases hhinting
    · simp only [Happening.hints, if_neg hi]
      exact hs.1.hints i'

/-- **How a run is finished is settled**, and its result is forgotten. -/
theorem keeps_settle (token : PyStr) (entry entry' : PendingFinish)
    (rest : List (PyStr × PendingFinish)) (hevent : entry'.event = entry.event)
    (hout : entry' = entry ∨ Harmless entry'.outcome)
    (hhinting : ∀ t, n.hinting = some t → t = token)
    (hlisted : ∀ s : WorkerSystem ι, n.Knows host e₀ lawful crew i s →
      (s.workers i).Listed ((token, entry) :: rest))
    (hready : ∀ s notes, Executions host e₀ lawful crew s notes →
      n.Knows host e₀ lawful crew i s → Ready host e₀ lawful crew i token entry'.outcome s.log) :
    Obeys host e₀ lawful crew (WorkerThread.polling i) (update (settle token entry')) n
      fun _ l => l = RunNote.settled token entry' rest := by
  intro s notes o x s' hs hl hx
  rw [handle_of (Or.inl rfl)] at hx
  cases hx
  refine ⟨RunNote.settled token entry' rest, ?_, rfl⟩
  refine hs.quietly ?_ rfl rfl (List.Subset.refl _)
  have hknows := (hs.1.polling i).2
  rw [hl] at hknows
  have hlist := hlisted s hknows
  have hready' := hready s notes hs.1 hknows
  have hget : (s.workers i).pendingFinishes.get? token = some entry :=
    hlist.2 _ List.mem_cons_self
  have hkey := PyDict.mem_keys_of_get? hget
  obtain ⟨hnotin, hnodup⟩ := List.nodup_cons.1 hlist.1
  have hexec : Function.update notes (WorkerThread.polling i)
      (RunNote.settled token entry' rest) (WorkerThread.executing i) =
        notes (WorkerThread.executing i) := Function.update_of_ne (by simp) _ _
  have hfinish : ∀ t e, ((s.workers i).pendingFinishes.set token entry').get? t = some e →
      t = token ∧ e = entry' ∨ t ≠ token ∧ (s.workers i).pendingFinishes.get? t = some e := by
    intro t e he
    rw [PyDict.get?_set] at he
    split_ifs at he with ht
    · exact Or.inl ⟨ht.symm, (Option.some.inj he).symm⟩
    · exact Or.inr ⟨fun h => ht h.symm, he⟩
  have hresults : ∀ t p, ((s.workers i).pendingResults.erase token).get? t = some p →
      (s.workers i).pendingResults.get? t = some p := by
    intro t p hp
    rw [PyDict.get?_erase] at hp
    split_ifs at hp
    exact hp
  refine hs.1.tables (i := i) (Or.inl rfl) rfl rfl ?_ (hs.1.jobs i) ?_ ?_ ?_ ?_ ?_ ?_ ?_
  · rw [hexec]
    exact (hs.1.books i).settle entry' hkey
  -- The entry keeps its event; its outcome is the old one or does no harm.
  · intro t e he
    rcases hfinish t e he with ⟨rfl, rfl⟩ | ⟨_, he⟩
    · obtain ⟨htoken, hbegins⟩ := hs.1.entries i t entry hget
      rw [hevent]
      refine ⟨htoken, ?_⟩
      rcases hout with rfl | hharmless
      · exact hbegins
      · exact Or.inl hharmless
    · exact hs.1.entries i t e he
  · intro k o' _ hplaced
    rw [hexec]
    refine hplaced.imp_right fun h => h.imp_left ?_
    rintro ⟨e, he, hk⟩
    by_cases ho : o' = token
    · subst ho
      cases hget.symm.trans he
      exact ⟨entry', PyDict.get?_set_self _ _ _, hevent ▸ hk⟩
    · exact ⟨e, (PyDict.get?_set_of_ne _ _ fun h => ho h.symm).trans he, hk⟩
  · exact fun t p hp => hs.1.results i t p (hresults t p hp)
  -- What is owed under this offer has been committed, or the run is not made done.
  · intro k t p e ho he
    rcases hfinish t e he with ⟨rfl, rfl⟩ | ⟨ht, he⟩
    · rcases hready' with hharmless | hcommitted
      · exact Or.inr (Or.inl hharmless)
      · exact Or.inl (hcommitted k p ho)
    · refine (hs.1.owed i k t p e ho he).imp_right fun h => h.imp_right fun hp => ?_
      exact (PyDict.get?_erase_of_ne _ fun h => ht h.symm).trans hp
  -- The result that the hint was about is the one that is forgotten now.
  · intro t p hp
    refine Or.inl ?_
    change ((s.workers i).pendingResults.erase token).get? t = none
    rw [PyDict.get?_erase]
    split_ifs with ht
    · rfl
    · refine (hs.1.hinted i t p hp).2.2.resolve_right fun h => ?_
      rw [hl] at h
      exact ht (hhinting t h).symm
  · rw [Function.update_self]
    refine ⟨trivial, ⟨hlist.1, fun e he => ?_⟩, ?_, hready'⟩
    · rw [workers_update]
      rcases List.mem_cons.1 he with rfl | hrest
      · exact PyDict.get?_set_self _ _ _
      · refine (PyDict.get?_set_of_ne _ _ fun h => hnotin ?_).trans
          (hlist.2 e (List.mem_cons_of_mem _ hrest))
        exact List.mem_map.2 ⟨e, hrest, h.symm⟩
    · rw [workers_update]
      exact fun h => (PyDict.mem_keys_erase.1 h).1 rfl
  · rw [hexec]
    refine ⟨(hs.1.executing i).1, knows_executing (hs.1.executing i).1 (hs.1.executing i).2 rfl
      fun job hjob => ?_⟩
    rw [workers_update]
    refine PyDict.get?_erase_of_ne _ ?_
    rintro rfl
    exact hs.1.not_key hjob hkey

/-- The first half of a round. -/
theorem keeps_publishEntry (token : PyStr) (entry : PendingFinish)
    (rest : List (PyStr × PendingFinish)) :
    Obeys host e₀ lawful crew (WorkerThread.polling i) (publishEntry token entry)
      (RunNote.finishing ((token, entry) :: rest)) fun found l => l.hinting = none ∧
        ∀ entry', found = some entry' → l = RunNote.settled token entry' rest := by
  refine Threads.outline_bind (keeps_readResult token entry rest) ?_
  rintro found l ⟨hnone, hsome⟩
  cases found with
  | none =>
      obtain rfl := hnone rfl
      refine Threads.outline_pure ⟨rfl, ?_⟩
      rintro entry' ⟨⟩
      rfl
  | some result =>
      obtain rfl := hsome result rfl
      refine Threads.outline_bind (keeps_publish token entry result rest) ?_
      rintro answer l rfl
      cases answer with
      | error e =>
          refine Threads.outline_pure ⟨rfl, ?_⟩
          rintro entry' ⟨⟩
      | ok persisted =>
          dsimp only
          by_cases htrue : truthy persisted = true
          · rw [if_pos htrue, if_pos htrue]
            refine Threads.outline_bind (keeps_hint token entry result rest) ?_
            rintro _ _ rfl
            refine Threads.outline_bind (keeps_settle token entry entry rest rfl (Or.inl rfl) ?_ ?_
              ?_) ?_
            · rintro t ⟨⟩
              rfl
            · exact fun s hknows => hknows.1
            · rintro s notes hs ⟨hlisted, result, hresult, hcommitted⟩
              by_cases hharmless : Harmless entry.outcome
              · exact Or.inl hharmless
              · refine Or.inr fun k p ho => ?_
                rcases hs.owed i k token p entry ho (hlisted.2 _ List.mem_cons_self) with
                  hc | hh | hp
                · exact hc
                · exact absurd hh hharmless
                · cases hresult.symm.trans hp
                  exact hcommitted
            · rintro _ _ rfl
              refine Threads.outline_pure ⟨rfl, ?_⟩
              rintro entry' ⟨⟩
              rfl
          · rw [if_neg htrue, if_neg htrue]
            have hharmless : Harmless "cancelled" := by decide
            refine Threads.outline_bind (keeps_settle token entry
              { entry with outcome := "cancelled", statusCode := 1 } rest rfl (Or.inr hharmless)
              ?_ ?_ ?_) ?_
            · rintro t ⟨⟩
            · exact fun s hknows => hknows.1
            · exact fun s notes hs hknows => Or.inl hharmless
            · rintro _ _ rfl
              refine Threads.outline_pure ⟨rfl, ?_⟩
              rintro entry' ⟨⟩
              rfl

/-- A run that is to be finished, and whatever was started under its offer. -/
theorem Executions.closing (h : Executions host e₀ lawful crew s notes) {token k : PyStr}
    {entry : PendingFinish} (hget : (s.workers i).pendingFinishes.get? token = some entry)
    (hx : x ∈ s.log) (hstarts : Starts i k token x) :
    Tables.Ended host k s.engine.toTables ∨ k = entry.event.runId ∧
      Tables.Begun host (crew.config i).owner (crew.peer i) k token s.engine.toTables := by
  obtain ⟨⟨y, hy, hbegins⟩, hasking | ⟨e, he, hk⟩ | hend⟩ := h.started i k token x hx hstarts
  · have htoken : (notes (WorkerThread.executing i)).token = some token := by
      cases hn : notes (WorkerThread.executing i) with
      | asked job outcome recorded =>
          rw [hn] at hasking
          cases hasking
          rfl
      | _ =>
          rw [hn] at hasking
          cases hasking
    exact absurd (PyDict.mem_keys_of_get? hget) (h.not_key_of_token htoken)
  · cases hget.symm.trans he
    exact Or.inr ⟨hk.symm, h.begun i k token y hy hbegins⟩
  · exact Or.inl hend

/-- **A run is finished**: when that is acknowledged, whatever was started under its offer has
ended. -/
theorem keeps_finish (token : PyStr) (entry : PendingFinish) (rest : List (PyStr × PendingFinish)) :
    Obeys host e₀ lawful crew (WorkerThread.polling i)
      (rpc (RpcCall.finish entry.event.runId entry.event.offerId entry.outcome
        (some entry.statusCode)))
      (RunNote.settled token entry rest) fun answer l => l.hinting = none ∧
        ∀ reply, answer = Except.ok reply → l = RunNote.closed token entry rest := by
  intro s notes o answer s' hs hl hx
  rw [handle_of (Or.inl rfl)] at hx
  have haccounted : lawful → Accounted crew s' := fun hlaw =>
    (hs.2 hlaw).call hs.1.reachable hx fun _ _ _ _ _ _ => rfl
  obtain ⟨s₁, rfl, hs₁, hworkers, hlog, hreply⟩ := hs.1.call hx
  generalize hcall : RpcCall.finish entry.event.runId entry.event.offerId entry.outcome
    (some entry.statusCode) = c at *
  have hknows := (hs₁.polling i).2
  rw [hl] at hknows
  obtain ⟨hlisted, hresult, hready⟩ := hknows
  have hget : (s₁.workers i).pendingFinishes.get? token = some entry :=
    hlisted.2 _ List.mem_cons_self
  have hkey := PyDict.mem_keys_of_get? hget
  obtain ⟨htoken, hbegan⟩ := hs₁.entries i token entry hget
  -- What is written down asks for the end of this run, if it asks for anything.
  have hstarts : ∀ i' k o', Starts i' k o'
      (Happening.told (WorkerThread.polling i) c answer) →
      i' = i ∧ k = entry.event.runId ∧ o' = token ∧ ¬ Harmless entry.outcome := by
    subst hcall
    rintro i' k o' (⟨_, _, _, _, h, _⟩ | ⟨_, _, _, hdone, h⟩) <;> cases h
    exact ⟨rfl, rfl, htoken, fun hharmless => hharmless hdone⟩
  have habout : ∀ i' o', About i' o' (Happening.told (WorkerThread.polling i) c answer) →
      i' = i ∧ o' = token := by
    rintro i' o' (⟨k, hk⟩ | ⟨p, h⟩)
    · exact ⟨(hstarts i' k o' hk).1, (hstarts i' k o' hk).2.2.1⟩
    · cases h
  have hcons : ∀ l : RunNote, l.Polls →
      l.Knows host e₀ lawful crew i (s₁.note (Happening.told (WorkerThread.polling i) c answer)) →
      Executions host e₀ lawful crew
        (s₁.note (Happening.told (WorkerThread.polling i) c answer))
        (Function.update notes (WorkerThread.polling i) l) := by
    intro l hpolls hknows
    refine hs₁.cons_polling hs₁.engine hkey (by rw [hl]; rfl) habout ?_
      (fun _ _ _ _ _ h => by cases h) (fun k h => ?_) (fun k h k' p ho => ?_)
      (fun p h => by cases h) (fun i' => hs₁.hints i') hpolls hknows
    · subst hcall
      rintro i' k o' ⟨_, _, h⟩
      cases h
    · obtain ⟨-, rfl, -, hharmful⟩ := hstarts i k token h
      exact ⟨htoken ▸ hbegan.resolve_left hharmful, entry, hget, rfl⟩
    · exact hready.resolve_left (hstarts i k token (Or.inr h)).2.2.2 k' p ho
  cases answer with
  | error e =>
      refine ⟨RunNote.settled token entry rest, ⟨hcons _ trivial ⟨hlisted, hresult, ?_⟩,
        haccounted⟩, rfl, fun reply h => by cases h⟩
      exact hready.imp_right fun hall k p ho => (hall k p ho.of_told).later (List.suffix_cons _ _)
  | ok reply =>
      refine ⟨RunNote.closed token entry rest, ⟨hcons _ trivial ⟨hlisted, hresult, ?_⟩,
        haccounted⟩, rfl, fun _ _ => rfl⟩
      rcases hreply with ⟨e, he⟩ | ⟨env, hanswer, rfl⟩
      · cases he
      have hget₀ : (s.workers i).pendingFinishes.get? token = some entry := hget
      intro y hy k hk
      have hcases : Tables.Ended host k s.engine.toTables ∨ k = entry.event.runId ∧
          Tables.Begun host (crew.config i).owner (crew.peer i) k token s.engine.toTables := by
        rcases List.mem_cons.1 hy with rfl | hy
        · obtain ⟨_, rfl, _, hharmful⟩ := hstarts i k token hk
          obtain ⟨_, hbegan⟩ := hs.1.entries i token entry hget₀
          obtain ⟨z, hz, hbegins⟩ := hbegan.resolve_left hharmful
          exact Or.inr ⟨rfl, hs.1.begun i _ token z hz hbegins⟩
        · rcases List.mem_cons.1 hy with rfl | hy
          · exact absurd hk ((passive_served _ _).starts i k token)
          · exact hs.1.closing hget₀ hy hk
      rcases hcases with hend | ⟨rfl, hbegun⟩
      · exact TaskEngine.ended_leads hs.1.reachable
          (Machine.leads_exec s.engine [crew.request i c env]) hend
      · subst hcall
        rw [htoken] at hanswer ⊢
        exact TaskEngine.ended_of_finish hs.1.reachable hbegun hanswer.symm

/-- **A run that has been finished is forgotten.** -/
theorem keeps_forget (token : PyStr) (entry : PendingFinish) (rest : List (PyStr × PendingFinish)) :
    Obeys host e₀ lawful crew (WorkerThread.polling i)
      (update fun w => unsee token { w with pendingFinishes := w.pendingFinishes.erase token })
      (RunNote.closed token entry rest) fun _ l => l = RunNote.finishing rest := by
  intro s notes o x s' hs hl hx
  rw [handle_of (Or.inl rfl)] at hx
  cases hx
  refine ⟨RunNote.finishing rest, ?_, rfl⟩
  refine hs.quietly ?_ rfl rfl (List.Subset.refl _)
  have hknows := (hs.1.polling i).2
  rw [hl] at hknows
  obtain ⟨hlisted, hresult, hended⟩ := hknows
  have hkey : token ∈ (s.workers i).pendingFinishes.keys :=
    PyDict.mem_keys_of_get? (hlisted.2 _ List.mem_cons_self)
  obtain ⟨hnotin, hnodup⟩ := List.nodup_cons.1 hlisted.1
  have hexec : Function.update notes (WorkerThread.polling i)
      (RunNote.finishing rest) (WorkerThread.executing i) =
        notes (WorkerThread.executing i) := Function.update_of_ne (by simp) _ _
  have hfinish : ∀ t e, ((s.workers i).pendingFinishes.erase token).get? t = some e →
      (s.workers i).pendingFinishes.get? t = some e := by
    intro t e he
    rw [PyDict.get?_erase] at he
    split_ifs at he
    exact he
  refine hs.1.tables (i := i) (Or.inl rfl) rfl rfl ?_ (hs.1.jobs i) (fun t e he => ?_)
    (fun k o' hstarts hplaced => ?_) (hs.1.results i) (fun k t p e ho he => ?_) (fun t p hp => ?_)
    ?_ ?_
  · rw [hexec]
    exact (hs.1.books i).finish hkey hresult
  · exact hs.1.entries i t e (hfinish t e he)
  · rw [hexec]
    refine hplaced.imp_right fun h => ?_
    rcases h with ⟨e, he, hk⟩ | hend
    · by_cases ho : o' = token
      · subst ho
        obtain ⟨y, hy, hk'⟩ := hstarts
        exact Or.inr (hended y hy k hk')
      · exact Or.inl ⟨e, (PyDict.get?_erase_of_ne _ fun h => ho h.symm).trans he, hk⟩
    · exact Or.inr hend
  · exact hs.1.owed i k t p e ho (hfinish t e he)
  · refine Or.inl ((hs.1.hinted i t p hp).2.2.resolve_right fun h => ?_)
    rw [hl] at h
    cases h
  · rw [Function.update_self]
    refine ⟨trivial, hnodup, fun e he => ?_⟩
    rw [workers_update]
    refine (PyDict.get?_erase_of_ne _ fun h => hnotin ?_).trans
      (hlisted.2 e (List.mem_cons_of_mem _ he))
    exact List.mem_map.2 ⟨e, he, h.symm⟩
  · rw [hexec]
    refine ⟨(hs.1.executing i).1, knows_executing (hs.1.executing i).1 (hs.1.executing i).2 rfl
      fun job _ => ?_⟩
    rw [workers_update]
    rfl

/-- The second half of a round. -/
theorem keeps_finishEntry (token : PyStr) (entry : PendingFinish)
    (rest : List (PyStr × PendingFinish)) :
    Obeys host e₀ lawful crew (WorkerThread.polling i) (finishEntry token entry)
      (RunNote.settled token entry rest) fun finished l => l.hinting = none ∧
        (finished = true → l = RunNote.finishing rest) := by
  refine Threads.outline_bind (keeps_finish token entry rest) ?_
  rintro answer l ⟨hhinting, hclosed⟩
  cases answer with
  | error e => exact Threads.outline_pure ⟨hhinting, fun h => by cases h⟩
  | ok reply =>
      obtain rfl := hclosed reply rfl
      refine Threads.outline_bind (keeps_forget token entry rest) ?_
      rintro _ _ rfl
      exact Threads.outline_pure ⟨rfl, fun _ => rfl⟩

theorem keeps_finishEntries (entries : List (PyStr × PendingFinish)) :
    Obeys host e₀ lawful crew (WorkerThread.polling i) (finishEntries entries)
      (RunNote.finishing entries) fun _ l => l.hinting = none := by
  induction entries with
  | nil => exact Threads.outline_pure rfl
  | cons e rest ih =>
      obtain ⟨token, entry⟩ := e
      refine Threads.outline_bind (keeps_publishEntry token entry rest) ?_
      rintro found l ⟨hhinting, hfound⟩
      cases found with
      | none => exact Threads.outline_pure hhinting
      | some entry' =>
          obtain rfl := hfound entry' rfl
          refine Threads.outline_bind (keeps_finishEntry token entry' rest) ?_
          rintro finished l ⟨hhinting, hfinished⟩
          cases finished with
          | true =>
              obtain rfl := hfinished rfl
              exact ih
          | false => exact Threads.outline_pure hhinting

theorem keeps_finishPending (hn : n.hinting = none) :
    Obeys host e₀ lawful crew (WorkerThread.polling i) finishPending n
      fun _ l => l.hinting = none := by
  refine Threads.outline_bind (keeps_look (Q := fun entries l => l = RunNote.finishing entries) hn
    (fun _ => ⟨rfl, rfl, rfl, rfl, rfl⟩) fun s notes hs hl => ?_) ?_
  · refine ⟨RunNote.finishing (s.workers i).pendingFinishes.entries, trivial,
      ⟨(s.workers i).pendingFinishes.keys_nodup, fun e he => PyDict.mem_entries_iff.1 he⟩, rfl⟩
  · rintro entries _ rfl
    exact keeps_finishEntries entries

/-! ### Pulling -/

/-- **An offer is pulled**: it is the event of a run. -/
theorem keeps_pull (seen skipRunIds : List PyStr) :
    Obeys host e₀ lawful crew (WorkerThread.polling i) (rpc (RpcCall.pull seen skipRunIds))
      RunNote.room fun answer l => l.hinting = none ∧
        ∀ event, answer = Except.ok (Reply.event (some event)) → l = RunNote.pulled event := by
  intro s notes o answer s' hs hl hx
  rw [handle_of (Or.inl rfl)] at hx
  have haccounted : lawful → Accounted crew s' := fun hlaw =>
    (hs.2 hlaw).call hs.1.reachable hx fun _ _ _ _ heq _ => by cases heq
  obtain ⟨s₁, rfl, hs₁, hworkers, hlog, hreply⟩ := hs.1.call hx
  have htold := hs₁.told (j := WorkerThread.polling i) answer
    (passive_calm (c := RpcCall.pull seen skipRunIds) trivial _ answer)
  by_cases hevent : ∃ event, answer = Except.ok (Reply.event (some event))
  · obtain ⟨event, rfl⟩ := hevent
    refine ⟨RunNote.pulled event, ⟨?_, haccounted⟩, rfl, ?_⟩
    swap
    · rintro _ ⟨⟩
      rfl
    refine htold.renote_polling trivial (fun t ht => ?_) ⟨?_, ?_⟩
    · rw [hl] at ht
      cases ht
    · have hknows := (htold.polling i).2
      rw [hl] at hknows
      exact hknows
    · rcases hreply with ⟨e, he⟩ | ⟨env, hanswer, hserved⟩
      · cases he
      · refine ⟨s₁.log, List.suffix_cons _ _, ?_⟩
        have hreach := hs₁.reachable
        rw [← hs₁.engine, hserved]
        rw [hserved] at hreach
        exact TaskEngine.known_of_pull hreach hanswer.symm
  · refine ⟨RunNote.room, ⟨?_, haccounted⟩, rfl, fun event h => absurd ⟨event, h⟩ hevent⟩
    rw [← hl, Function.update_eq_self]
    exact htold

/-- The task of an offer is read. -/
theorem keeps_getTask (event : SystemEvent) :
    Obeys host e₀ lawful crew (WorkerThread.polling i)
      (rpc (RpcCall.getTask (event.taskId.getD 0))) (RunNote.pulled event) fun answer l =>
        l.hinting = none ∧ ∀ task, answer = Except.ok (Reply.task (some task)) →
          l = RunNote.reading event task := by
  intro s notes o answer s' hs hl hx
  rw [handle_of (Or.inl rfl)] at hx
  have haccounted : lawful → Accounted crew s' := fun hlaw =>
    (hs.2 hlaw).call hs.1.reachable hx fun _ _ _ _ heq _ => by cases heq
  obtain ⟨s₁, rfl, hs₁, hworkers, hlog, hreply⟩ := hs.1.call hx
  have htold := hs₁.told (j := WorkerThread.polling i) answer
    (passive_calm (c := RpcCall.getTask (event.taskId.getD 0)) trivial _ answer)
  by_cases htask : ∃ task, answer = Except.ok (Reply.task (some task))
  · obtain ⟨task, rfl⟩ := htask
    refine ⟨RunNote.reading event task, ⟨?_, haccounted⟩, rfl, ?_⟩
    swap
    · rintro _ ⟨⟩
      rfl
    have hknows := (htold.polling i).2
    rw [hl] at hknows
    refine htold.renote_polling trivial (fun t ht => ?_) ⟨hknows.1, hknows.2, ?_⟩
    · rw [hl] at ht
      cases ht
    · rcases hreply with ⟨e, he⟩ | ⟨env, hanswer, rfl⟩
      · cases he
      · refine ⟨s.log, hlog.trans (List.suffix_cons _ _), ?_⟩
        rw [← hs.1.engine]
        exact TaskEngine.task_of_get hanswer.symm
  · refine ⟨RunNote.pulled event, ⟨?_, haccounted⟩, rfl, fun task h => absurd ⟨task, h⟩ htask⟩
    rw [← hl, Function.update_eq_self]
    exact htold

/-- An offer is submitted, or the scheduler does not take it. -/
theorem keeps_submit (job : Job) (admitted : Bool)
    (hgen : job.task.generation = job.event.taskGeneration) :
    Obeys host e₀ lawful crew (WorkerThread.polling i) (locked (submit job admitted))
      (RunNote.reading job.event job.task) fun _ l => l.hinting = none := by
  intro s notes o x s' hs hl hx
  rw [handle_of (Or.inl rfl)] at hx
  cases hx
  refine ⟨RunNote.idle, ?_, rfl⟩
  refine hs.quietly ?_ rfl rfl (List.Subset.refl _)
  have hknows := (hs.1.polling i).2
  rw [hl] at hknows
  obtain ⟨hroom, hevent, htask⟩ := hknows
  have hhinting : ∀ t, (notes (WorkerThread.polling i)).hinting ≠ some t := by
    intro t h
    rw [hl] at h
    cases h
  unfold submit
  split_ifs with hrefused
  · exact (hs.1.same ⟨rfl, rfl, rfl, rfl, rfl⟩).renote_polling trivial
      (fun t ht => absurd ht (hhinting t)) trivial
  · rw [not_or, not_or] at hrefused
    have hexec : Function.update notes (WorkerThread.polling i) RunNote.idle
        (WorkerThread.executing i) = notes (WorkerThread.executing i) :=
      Function.update_of_ne (by simp) _ _
    refine hs.1.tables (i := i) (Or.inl rfl) rfl rfl ?_ (fun job' hjob => ?_) (hs.1.entries i)
      (fun k o' _ hplaced => ?_) (hs.1.results i) (hs.1.owed i) (fun t p hp => ?_) ?_ ?_
    · rw [hexec]
      have hnew := (hs.1.books i).submit job hrefused.1 hrefused.2.1 hroom
      refine hnew.perm ?_
      rw [← List.append_assoc]
      exact @List.perm_append_comm _ [_] _
    · rcases List.mem_append.1 hjob with hold | hnew
      · exact hs.1.jobs i job' hold
      · obtain rfl := List.mem_singleton.1 hnew
        exact ⟨hevent, htask.imp fun e he => ⟨he, hgen⟩⟩
    · rw [hexec]
      exact hplaced
    · exact Or.inl ((hs.1.hinted i t p hp).2.2.resolve_right (hhinting t))
    · rw [Function.update_self]
      exact ⟨trivial, trivial⟩
    · rw [hexec]
      refine ⟨(hs.1.executing i).1, knows_executing (hs.1.executing i).1 (hs.1.executing i).2 rfl
        fun job _ => ?_⟩
      rw [workers_update]

/-- An offer whose task has been read. -/
theorem keeps_submitOffer (config : WorkerConfig) (event : SystemEvent)
    (task : Option TaskRecord) (hn : n.hinting = none)
    (htask : ∀ t, task = some t → n = RunNote.reading event t) :
    Obeys host e₀ lawful crew (WorkerThread.polling i) (submitOffer config event task) n
      fun _ l => l.hinting = none := by
  have hdefer : ∀ seconds, Obeys host e₀ lawful crew (WorkerThread.polling i)
      (deferOffer event seconds >>= fun _ => pure false) n fun _ l => l.hinting = none := by
    intro seconds
    refine Threads.outline_bind (keeps_calm (Or.inl rfl)
      (calm_of (quiet_deferOffer event seconds) (calls_deferOffer event seconds)) n) ?_
    rintro _ _ rfl
    exact Threads.outline_pure hn
  cases task with
  | none => exact hdefer 30
  | some task =>
      simp only [submitOffer]
      split_ifs with hcurrent
      · refine Threads.outline_bind (keeps_calm (Or.inl rfl)
          (calm_of (quiet_selectAgent config task) (calls_selectAgent config task)) n) ?_
        rintro found _ rfl
        cases found with
        | none => exact hdefer 2
        | some agentId =>
            refine Threads.outline_bind (keeps_calm (Or.inl rfl)
              (calm_operation (e := WorkerEffect.admits) trivial trivial) _) ?_
            rintro admitted _ rfl
            rw [htask task rfl]
            exact keeps_submit { event, task, agentId } admitted hcurrent.2
      · exact hdefer 30

/-- What a worker passes to `pull`: it passes nothing unless there is room for another offer. -/
theorem keeps_pullArgs (now : ℚ) (hn : n.hinting = none) :
    Obeys host e₀ lawful crew (WorkerThread.polling i) (locked (pullArgs now)) n
      fun args l => l.hinting = none ∧ ∀ p, args = some p → l = RunNote.room := by
  have hsame : ∀ w, SameBooks w (pullArgs now w).2 := by
    intro w
    unfold pullArgs
    split_ifs <;> exact ⟨rfl, rfl, rfl, rfl, rfl⟩
  refine keeps_look hn hsame fun s notes hs hl => ?_
  unfold pullArgs
  split_ifs with hfull
  · exact ⟨RunNote.idle, trivial, trivial, rfl, fun p h => by cases h⟩
  · exact ⟨RunNote.room, trivial, not_le.1 hfull, rfl, fun _ _ => rfl⟩

theorem keeps_pullOnce (config : WorkerConfig) (hn : n.hinting = none) :
    Obeys host e₀ lawful crew (WorkerThread.polling i) (pullOnce config) n
      fun _ l => l.hinting = none := by
  refine Threads.outline_bind (keeps_calm (Or.inl rfl)
    (calm_operation (e := WorkerEffect.clock) trivial trivial) n) ?_
  rintro now _ rfl
  refine Threads.outline_bind (keeps_pullArgs now hn) ?_
  rintro args l ⟨hhinting, hargs⟩
  cases args with
  | none => exact Threads.outline_pure hhinting
  | some p =>
  obtain rfl := hargs p rfl
  obtain ⟨seen, skipRunIds⟩ := p
  refine Threads.outline_bind (keeps_pull seen skipRunIds) ?_
  rintro answer l ⟨hhinting, hevent⟩
  split
  · rename_i event
    obtain rfl := hevent event rfl
    split_ifs
    · exact Threads.outline_pure rfl
    · refine Threads.outline_bind (keeps_getTask event) ?_
      rintro answer l ⟨hhinting, htask⟩
      split
      · exact keeps_submitOffer config event _ hhinting fun t h => htask t (by rw [h])
      · exact Threads.outline_pure hhinting
  · exact Threads.outline_pure hhinting

/-- **Polling keeps the runs.** -/
theorem keeps_pollOnce (config : WorkerConfig) (hn : n.hinting = none) :
    Obeys host e₀ lawful crew (WorkerThread.polling i) (pollOnce config) n
      fun _ l => l.hinting = none := by
  refine Threads.outline_bind (keeps_calm (Or.inl rfl) (calm_of quiet_heartbeat calls_heartbeat) n) ?_
  rintro ready _ rfl
  cases ready with
  | false => exact Threads.outline_pure hn
  | true =>
  refine Threads.outline_bind (keeps_calm (Or.inl rfl)
    (calm_operation (e := WorkerEffect.canRun) trivial trivial) _) ?_
  rintro may _ rfl
  cases may with
  | false => exact Threads.outline_pure hn
  | true =>
  refine Threads.outline_bind (keeps_finishPending hn) ?_
  rintro finished l hl
  cases finished with
  | false => exact Threads.outline_pure hl
  | true =>
  refine Threads.outline_bind
    (keeps_calm (Or.inl rfl) (calm_of quiet_flushDefers calls_flushDefers) _) ?_
  rintro flushed _ rfl
  cases flushed with
  | false => exact Threads.outline_pure hl
  | true => exact keeps_pullOnce config hl

/-- **So does shutting down.** -/
theorem keeps_close (hn : n.hinting = none) :
    Obeys host e₀ lawful crew (WorkerThread.polling i) close n fun _ l => l.hinting = none := by
  have hready : (update fun w => { w with ready := false }).All Quiet :=
    quiet_update fun _ => ⟨rfl, rfl, rfl, rfl, rfl⟩
  refine Threads.outline_bind (keeps_finishPending hn) ?_
  rintro _ l hl
  refine Threads.outline_bind
    (keeps_calm (Or.inl rfl) (calm_of quiet_flushDefers calls_flushDefers) _) ?_
  rintro _ _ rfl
  refine Threads.outline_bind (keeps_calm (Or.inl rfl)
    (calm_operation (e := WorkerEffect.rpc RpcCall.offline) trivial trivial) _) ?_
  rintro _ _ rfl
  refine Threads.outline_bind (keeps_calm (Or.inl rfl) (calm_of hready (calls_locked _)) _) ?_
  rintro _ _ rfl
  exact Threads.outline_pure hl

end WorkerSystem
