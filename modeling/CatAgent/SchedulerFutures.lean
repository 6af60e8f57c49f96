/-
**The futures of the core's scheduler.**

The executor settles the futures of its operations, and the driver waits for them: for the future of
the active request, for that of KV2, and, when the scheduler is closed, for those of the operations
that the closing thread gives to the executor.  The invariant is kept by each of these steps, by
the start of every thread, and by what a thread forgets.

Main definitions:

* `CoreScheduler.Known` — what the executor's note says;
* `CoreScheduler.Reported` — what the result of a request says about it.
-/

import CatAgent.SchedulerDriver

set_option relaxedAutoImplicit false
set_option autoImplicit false

namespace CoreScheduler

variable {config : SchedulerConfig} {safe : Bool} {s : CoreScheduler} {d : DriverNote}
  {e e' : ExecutorNote} {events : SchedulerThread → Option SystemEvent}

/-! ### What the threads know -/

/-- Fields that nobody relies on. -/
theorem Valid.aside (h : Valid config safe s d e events) {stop joining isShutdown kv2Requested : Bool}
    {rejected : ℕ} {kv2State : Kv2State} {releasedSessions : List PyStr}
    (hstop : s.closed = true → stop = true) :
    Valid config safe
      { s with
        stop
        joining
        isShutdown
        kv2Requested
        rejected
        kv2State
        releasedSessions } d e events where
  traffic := { h.traffic with stopped := hstop }
  queue := { h.queue with }
  ordered := { h.ordered with }
  once := h.once.imp id fun ho => { ho with }
  pool := { h.pool with }
  dialogues := { h.dialogues with }
  accepting := { h.accepting with }

/-- The clock moves on. -/
theorem Valid.tick (h : Valid config safe s d e events) {clock : ℚ} (hclock : s.clock ≤ clock) :
    Valid config safe { s with clock } d e events where
  traffic := { h.traffic with }
  queue := { h.queue with }
  ordered := { h.ordered with clock := fun u hu hk => (h.ordered.clock u hu hk).trans hclock }
  once := h.once.imp id fun ho => { ho with }
  pool := { h.pool with }
  dialogues := { h.dialogues with }
  accepting := { h.accepting with }

/-- What the driver learns, or forgets, about the futures. -/
theorem Valid.learn (h : Valid config safe s d e events) {free : Bool}
    {kv2 : Option (Option (Except PyStr Unit))} (hfree : free = true → s.activeFuture = none)
    (hkv2 : ∀ f, kv2 = some f → s.kv2Future = f.map some) :
    Valid config safe s { d with free, kv2 } e events :=
  { h with
    traffic := { h.traffic with free := hfree, kv2 := hkv2 }
    queue := { h.queue with }
    ordered := { h.ordered with }
    once := h.once.imp id fun ho => { ho with } }

/-- What the executor's note says. -/
structure Known (s : CoreScheduler) (e : ExecutorNote) : Prop where
  permitted : ∀ u, e.job = some (SchedulerJob.advance u) → e.stage = AdvanceStage.permitted →
    s.Startable u ∧ (s.IsUser u → s.First u)
  started : ∀ u, e.job.bind requestOf = some u → e.stage = AdvanceStage.started →
    (s.requests u).iterator ≠ none
  system : ∀ u, e.job = some (SchedulerJob.advance u) → e.system = true → ¬ s.IsUser u
  activation : ∀ u, e.job = some (SchedulerJob.advance u) → e.task = true →
    Activation (s.requests u)
  talk : ∀ u, e.job = some (SchedulerJob.advance u) → e.talk = true →
    (s.requests u).kind = RequestKind.system → (s.requests u).payload.taskId? = none
  key : ∀ u key, e.job = some (SchedulerJob.advance u) → e.key = some key →
    contextKey (s.requests u) = key
  context : ∀ u c, e.job = some (SchedulerJob.advance u) → e.context = some c →
    (s.requests u).context = some c
  missing : ∀ key, e.missing = some key → s.contexts.get? key = none
  releasing : ∀ key, e.releasing = some key → ∀ u ∈ s.live, contextKey (s.requests u) = key →
    (s.requests u).context = none
  warming : e.warming = true → s.managerSlotReady ManagerSlot.kv2 = false
  recovering : ∀ b, e.recovering = some b → s.managerSlotReady ManagerSlot.kv1 = false ∧
    (b = true → ∀ c, s.managerSlots ManagerSlot.kv1 = some c → dirt c s.log = [])

theorem Valid.known (h : Valid config safe s d e events) : Known s e where
  permitted := fun u hj hs => ⟨h.queue.permitted u hj hs, h.ordered.permitted u hj hs⟩
  started := h.queue.started
  system := h.queue.system
  activation := h.queue.activation
  talk := h.queue.talk
  key := h.dialogues.key
  context := h.dialogues.context
  missing := h.dialogues.missing
  releasing := h.dialogues.releasing
  warming := h.dialogues.warming
  recovering := h.dialogues.recovering

/-- A note that says nothing but which operation is performed. -/
theorem Known.nothing (job : Option SchedulerJob) (hold : Hold) : Known s { job, hold } where
  permitted := nofun
  started := nofun
  system := nofun
  activation := nofun
  talk := nofun
  key := nofun
  context := nofun
  missing := nofun
  releasing := nofun
  warming := nofun
  recovering := nofun

theorem Valid.note (h : Valid config safe s d e events) (ht : Traffic s d e') (hk : Known s e')
    (hp : Pool config s d.hold e'.hold) : Valid config safe s d e' events where
  traffic := ht
  queue :=
    { h.queue with
      permitted := fun u hj hs => (hk.permitted u hj hs).1
      started := hk.started
      system := hk.system
      activation := hk.activation
      talk := hk.talk }
  ordered := { h.ordered with permitted := fun u hj hs => (hk.permitted u hj hs).2 }
  once := h.once
  pool := hp
  dialogues :=
    { inUse := h.dialogues.inUse
      key := hk.key
      context := hk.context
      missing := hk.missing
      releasing := hk.releasing
      warming := hk.warming
      recovering := hk.recovering
      lost := h.dialogues.lost }
  accepting := h.accepting

/-- **The executor learns, or forgets, something.** -/
theorem Valid.know (h : Valid config safe s d e events) (hk : Known s e') (hjob : e'.job = e.job)
    (hhold : e'.hold = e.hold) : Valid config safe s d e' events := by
  have hwork : s.work e' = s.work e := by rw [work, work, hjob]
  refine h.note ?_ hk (by rw [hhold]; exact h.pool)
  exact
    { h.traffic with
      core := by rw [hwork]; exact h.traffic.core
      advance := by rw [hwork]; exact h.traffic.advance
      warm := by rw [hwork]; exact h.traffic.warm
      shut := by rw [hwork]; exact h.traffic.shut
      known := by rw [hwork]; exact h.traffic.known }

/-- A thread gives up the context that it holds. -/
theorem Pool.release_right {p q : Hold} (h : Pool config s p q) :
    Pool config s p Hold.nothing :=
  { h with
    right := ⟨nofun, nofun, nofun⟩
    left_apart := fun _ _ => nofun
    right_apart := nofun }

theorem Pool.symm {p q : Hold} (h : Pool config s p q) : Pool config s q p :=
  { h with
    left := h.right
    right := h.left
    left_apart := h.right_apart
    right_apart := h.left_apart }

theorem Pool.release_left {p q : Hold} (h : Pool config s p q) :
    Pool config s Hold.nothing q := h.symm.release_right.symm

/-! ### The executor -/

/-- The work of the executor, part of which is done. -/
theorem Traffic.sublist (h : Traffic s d e) (jobs : List SchedulerJob)
    (hsub : List.Sublist ({ s with jobs }.work e') (s.work e)) : Traffic { s with jobs } d e' :=
  { h with
    core := (hsub.countP_le).trans h.core
    advance := fun u hu => h.advance u (hsub.subset hu)
    warm := fun hw => h.warm (hsub.subset hw)
    shut := fun j hj => h.shut j (hsub.subset hj)
    known := fun j hj => h.known j (hsub.subset hj) }

/-- **The executor starts its next operation.** -/
theorem Valid.startJob (h : Valid config safe s d e events) {job : SchedulerJob}
    {rest : List SchedulerJob} (hjobs : s.jobs = job :: rest) :
    Valid config safe { s with jobs := rest } d { job := some job } events := by
  have hsub : List.Sublist ({ s with jobs := rest }.work { job := some job }) (s.work e) := by
    rw [work, work, hjobs]
    exact List.sublist_append_right _ _
  have ht : Traffic { s with jobs := rest } d { job := some job } := h.traffic.sublist rest hsub
  have hs : Valid config safe s d { job := none } events := by
    refine h.note (h.traffic.sublist s.jobs ?_) (Known.nothing none Hold.nothing)
      h.pool.release_right
    exact List.sublist_append_right _ _
  have hs' : Valid config safe { s with jobs := rest } d { job := none } events :=
    { traffic := ht.sublist rest (List.sublist_append_right _ _)
      queue := { hs.queue with }
      ordered := { hs.ordered with }
      once := hs.once.imp id fun ho => { ho with }
      pool := { hs.pool with }
      dialogues := { hs.dialogues with }
      accepting := { hs.accepting with } }
  exact hs'.note ht (Known.nothing (some job) Hold.nothing) { hs'.pool with }

/-- Somebody waits for what the executor does, so nothing else of that kind is in its queue. -/
theorem Traffic.alone (h : Traffic s d e) {job : SchedulerJob} (hj : e.job = some job)
    (hcore : isCore job = true) : ∀ j ∈ s.jobs, isCore j = false := by
  have hcount := h.core
  rw [work, hj, Option.toList_some, List.singleton_append,
    List.countP_cons_of_pos hcore] at hcount
  intro j hmem
  have hzero : s.jobs.countP isCore = 0 := by omega
  simpa using List.countP_eq_zero.1 hzero j hmem

/-- What the result of a request says about the request. -/
def Reported (e : ExecutorNote) : Advanced → Prop
  | Advanced.paused => e.system = true ∨ e.stage = AdvanceStage.started
  | Advanced.turn t => t.kind = "cancelled" ∨ e.stage = AdvanceStage.started
  | Advanced.completion _ => e.task = true

/-- **The future of the active request is settled.** -/
theorem Valid.report (h : Valid config safe s d e events) {u : ℕ} {f : Except PyStr Advanced}
    (hj : e.job = some (SchedulerJob.advance u)) (hr : Reported e (resultOf f)) :
    Valid config safe { s with activeFuture := some (some f) } d {} events := by
  obtain ⟨hactive, hfuture, hrole, hpending, hlt⟩ := h.atHand hj
  have halone := h.traffic.alone hj rfl
  have hno : ∀ r, r.request? ≠ none → d.role ≠ r := by
    rintro r hne rfl
    exact hne hrole
  have hstarted : e.stage = AdvanceStage.started → (s.requests u).iterator ≠ none := fun hs =>
    h.queue.started u (by rw [hj]; rfl) hs
  have hu : ∀ v, s.activeRequest = some v → v = u := by
    intro v hv
    rw [hactive] at hv
    exact (Option.some.inj hv).symm
  have hsub : List.Sublist (s.work {}) (s.work e) := List.sublist_append_right _ _
  have hdone : ∀ {p : Prop}, s.activeFuture = none → p := by
    intro p hn
    rw [hfuture] at hn
    cases hn
  exact
    { traffic :=
        { h.traffic.sublist s.jobs hsub with
          advance := fun v hv => absurd (halone _ hv) nofun
          active := by simp [hactive]
          exclusive := fun hne => hdone (h.traffic.exclusive hne)
          driver := fun v hv => absurd hv (by rw [hrole]; exact nofun)
          finishing := fun v r hv => absurd hv (hno _ nofun)
          requeueing := by
            rintro v (hv | hv)
            · exact absurd hv (hno _ nofun)
            · exact absurd hv (hno _ nofun)
          quiet := fun hv => hdone (h.traffic.quiet hv)
          draining := fun l b hv => hdone (h.traffic.draining l b hv).1
          free := fun hv => hdone (h.traffic.free hv) }
      queue :=
        { h.queue with
          startable := nofun
          permitted := nofun
          started := nofun
          system := nofun
          activation := nofun
          talk := nofun
          -- The result is the one that the executor has just reported for the active request.
          completion := by
            intro v c hv hf _ _
            cases hu v hv
            cases hf
            exact h.queue.activation u hj hr
          paused := by
            intro v hv hf huser
            cases hu v hv
            cases hf
            rcases hr with hr | hr
            · exact absurd huser (h.queue.system u hj hr)
            · exact hstarted hr }
      ordered :=
        { h.ordered with
          ready := nofun
          permitted := nofun
          -- The turn was answered in this job, or it reports its cancellation.
          answered := by
            intro v f' hv hf huser t ht hc
            cases hu v hv
            cases hf
            rw [ht] at hr
            exact hstarted (hr.resolve_left hc)
          lost := fun hraised => hdone (h.ordered.lost hraised) }
      once := h.once.imp id fun ho => { ho with }
      pool := { h.pool.release_right with }
      dialogues :=
        { inUse := by
            intro v c hv hc
            rcases hv with hv | ⟨hv, _⟩
            · exact h.dialogues.inUse v c (Or.inl hv) hc
            · exact h.dialogues.inUse v c (Or.inr ⟨hv, Or.inl hfuture⟩) hc
          key := nofun
          context := nofun
          missing := nofun
          releasing := nofun
          warming := nofun
          recovering := nofun
          lost := h.dialogues.lost }
      accepting := { h.accepting with } }

/-- **The future of KV2 is settled.** -/
theorem Valid.reportKv2 (h : Valid config safe s d e events) {f : Except PyStr Unit}
    (hj : e.job = some SchedulerJob.warmManagerKv2)
    (hr : ∀ msg, f = Except.error msg → e.warming = true) :
    Valid config safe { s with kv2Future := some (some f) } d {} events := by
  have halone := h.traffic.alone hj rfl
  have hfuture : s.kv2Future = some none := h.traffic.warm (by simp [work, hj])
  have hsub : List.Sublist (s.work {}) (s.work e) := List.sublist_append_right _ _
  have hnote : Valid config safe s d {} events :=
    h.note (h.traffic.sublist s.jobs hsub) (Known.nothing none Hold.nothing)
      h.pool.release_right
  exact
    { traffic :=
        { hnote.traffic with
          warm := fun hw => absurd (halone _ hw) (by simp [isCore])
          exclusive := fun _ => h.traffic.exclusive (by rw [hfuture]; simp)
          draining := by
            intro l b hv
            have := (h.traffic.draining l b hv).2
            rw [hfuture] at this
            cases this
          kv2 := by
            intro f' hf'
            have := h.traffic.kv2 f' hf'
            rw [hfuture] at this
            cases f' <;> cases this }
      queue := { hnote.queue with }
      ordered := { hnote.ordered with }
      once := hnote.once.imp id fun ho => { ho with }
      pool := { hnote.pool with }
      dialogues :=
        { hnote.dialogues with
          lost := by
            intro msg hf
            cases hf
            exact h.dialogues.warming (hr msg rfl) }
      accepting := { hnote.accepting with } }

/-- **The future that the closing thread waits for is settled.** -/
theorem Valid.reportShutdown (h : Valid config safe s d e events) {job : SchedulerJob}
    {f : Except PyStr Unit} (hj : e.job = some job) (hshut : isShutdownJob job = true)
    (hf : ∀ msg, f = Except.error msg → requestOf job = none ∨ safe = false) :
    Valid config safe { s with shutdownFuture := some (some f) } d {} events := by
  have hcore : ∀ j, isShutdownJob j = true → isCore j = true := by
    intro j hj
    cases j <;> first | rfl | cases hj
  have halone := h.traffic.alone hj (hcore job hshut)
  have hsub : List.Sublist (s.work {}) (s.work e) := List.sublist_append_right _ _
  have hnote : Valid config safe s d {} events :=
    h.note (h.traffic.sublist s.jobs hsub) (Known.nothing none Hold.nothing)
      h.pool.release_right
  exact
    { traffic :=
        { hnote.traffic with
          shut := by
            intro j hmem hs
            have := halone j hmem
            rw [hcore j hs] at this
            cases this }
      queue := { hnote.queue with }
      ordered := { hnote.ordered with }
      once := by
        rcases hsafe : safe with _ | _
        · exact Or.inl rfl
        refine Or.inr { hnote.once.resolve_left (by rw [hsafe]; exact nofun) with discarded := ?_ }
        intro u l hl msg hmsg
        cases hmsg
        -- The operation was about the first of the requests that remain.
        obtain ⟨_, l', hl', hhead⟩ := h.traffic.shut job (by simp [work, hj]) hshut
        rw [hl] at hl'
        cases hl'
        rcases hf msg rfl with hnone | hno
        · rw [hnone] at hhead
          cases hhead
        · rw [hno] at hsafe
          cases hsafe
      pool := { hnote.pool with }
      dialogues := { hnote.dialogues with }
      accepting := { hnote.accepting with } }

/-! ### The driver without an active request -/

/-- A driver that deals with no active request. -/
structure Plain (s : CoreScheduler) (d : DriverNote) (e : ExecutorNote) : Prop where
  request : d.role.request? = none
  hold : d.hold = Hold.nothing
  key : d.key = none
  shut : ∀ j ∈ s.work e, isShutdownJob j = true →
    s.shutdownFuture = some none ∧ ∃ l, d.role = DriverRole.draining l true ∧ l.head? = requestOf j
  answer : ∀ u l, d.role = DriverRole.draining (u :: l) true →
    ∀ msg, s.shutdownFuture ≠ some (some (Except.error msg))
  quiet : d.role = DriverRole.quiet → s.activeFuture = none
  draining : ∀ l b, d.role = DriverRole.draining l b → s.activeFuture = none ∧
    s.kv2Future = none ∧ ∀ u ∈ s.pending, (s.requests u).context = none
  closing : d.closing = true → s.closed = true
  looping : d.closing = false → d.role ≠ DriverRole.idle → s.closed = false
  leaving : d.role = DriverRole.quiet ∨ (∃ l b, d.role = DriverRole.draining l b) →
    d.closing = true
  free : d.free = true → s.activeFuture = none
  kv2 : ∀ f, d.kv2 = some f → s.kv2Future = f.map some

variable {d' : DriverNote}

/-- **A driver that deals with no active request goes on.** -/
theorem Valid.plain (h : Valid config safe s d e events) (hd : d.role.request? = none)
    (hidle : d.role = DriverRole.idle → s.closed = false)
    (hd' : Plain s d' e) (hremaining : d'.role.remaining = d.role.remaining) :
    Valid config safe s d' e events := by
  have hno : ∀ r, r.request? ≠ none → d'.role ≠ r := by
    rintro r hne rfl
    exact hne hd'.request
  have hrole : ∀ r, r.request? ≠ none → d.role ≠ r := by
    rintro r hne rfl
    exact hne hd
  exact
    { traffic :=
        { h.traffic with
          shut := hd'.shut
          driver := fun v hv => absurd hv (by rw [hd'.request]; exact nofun)
          finishing := fun v r hv => absurd hv (hno _ nofun)
          requeueing := by
            rintro v (hv | hv)
            · exact absurd hv (hno _ nofun)
            · exact absurd hv (hno _ nofun)
          quiet := hd'.quiet
          draining := fun l b hv => ⟨(hd'.draining l b hv).1, (hd'.draining l b hv).2.1⟩
          closing := hd'.closing
          looping := hd'.looping
          leaving := hd'.leaving
          free := hd'.free
          kv2 := hd'.kv2
          holding := fun hne => absurd hd'.hold hne }
      queue :=
        { h.queue with
          apart := fun v hv hp => absurd (h.queue.apart v hv hp) (hrole _ nofun)
          completion := fun v c hv hf _ _ =>
            h.queue.completion v c hv hf (hrole _ nofun) (hrole _ nofun)
          requeueing := fun v hv => absurd hv (hno _ nofun)
          key := by
            intro key hk
            rw [hd'.key] at hk
            cases hk
          drained := fun l b hv => (hd'.draining l b hv).2.2 }
      ordered :=
        { h.ordered with
          accounted := by
            rw [hremaining]
            exact h.ordered.accounted
          remaining_lt := by
            rw [hremaining]
            exact h.ordered.remaining_lt
          kept := by
            rw [hremaining]
            exact h.ordered.kept
          settled := fun v hv => absurd hv (hno _ nofun)
          recycling := fun v hv => absurd hv (hno _ nofun) }
      once := by
        refine h.once.imp id fun ho =>
          { ho with
            active := ?_
            nodup := ?_
            apart := ?_
            remaining := ?_
            discarded := hd'.answer }
        -- Neither role deals with a request, and an idle driver has not closed the scheduler.
        · intro v hv hc
          rcases ho.active v hv hc with hr | hr | ⟨hr, hclosed⟩
          · exact absurd hr (hrole _ nofun)
          · exact absurd hr (hrole _ nofun)
          · rw [hidle hr] at hclosed
            cases hclosed
        · rw [hremaining]
          exact ho.nodup
        · rw [hremaining]
          exact ho.apart
        · rw [hremaining]
          exact ho.remaining
      pool := by
        rw [hd'.hold]
        exact h.pool.release_left
      dialogues := h.dialogues
      accepting := h.accepting }

/-- No operation is under way for the closing thread. -/
theorem Traffic.no_shutdown (h : Traffic s d e) (hd : ∀ l, d.role ≠ DriverRole.draining l true) :
    ∀ j ∈ s.work e, isShutdownJob j = false := by
  intro j hj
  by_contra hs
  obtain ⟨_, l, hl, _⟩ := h.shut j hj (Bool.not_eq_false _ ▸ hs)
  exact hd l hl

/-- **The loop begins a round.** -/
theorem Valid.enter (h : Valid config safe s d e events) (hd : d.role.request? = none)
    (hclosed : s.closed = false) :
    Valid config safe s { role := DriverRole.running } e events := by
  have hclosing : d.closing = false := by
    by_contra hc
    rw [h.traffic.closing (Bool.not_eq_false _ ▸ hc)] at hclosed
    cases hclosed
  have hleaving : ∀ l b, d.role ≠ DriverRole.draining l b := by
    intro l b hl
    rw [h.traffic.leaving (Or.inr ⟨l, b, hl⟩)] at hclosing
    cases hclosing
  have hremaining : d.role.remaining = [] := by
    cases hr : d.role with
    | draining l b => exact absurd hr (hleaving l b)
    | _ => rfl
  have hno := h.traffic.no_shutdown fun l => hleaving l true
  exact h.plain hd (fun _ => hclosed)
    { request := rfl
      hold := rfl
      key := rfl
      shut := fun j hj hs => absurd hs (by rw [hno j hj]; exact nofun)
      answer := nofun
      quiet := nofun
      draining := nofun
      closing := nofun
      looping := fun _ _ => hclosed
      leaving := by rintro (hr | ⟨l, b, hr⟩) <;> cases hr
      free := nofun
      kv2 := nofun } hremaining.symm

/-- **The closing thread takes the place of the loop.** -/
theorem Valid.close (h : Valid config safe s { role := DriverRole.running } e events)
    (hstop : s.stop = true) :
    Valid config safe { s with closed := true } { closing := true, role := DriverRole.running } e
      events where
  traffic :=
    { h.traffic with
      closing := fun _ => rfl
      looping := nofun
      leaving := fun _ => rfl
      stopped := fun _ => hstop }
  queue := { h.queue with }
  ordered := { h.ordered with raised := fun _ => rfl }
  once := h.once.imp id fun ho =>
    { ho with active := fun u hu hc => (ho.active u hu hc).imp id (Or.imp id (And.imp id fun _ => rfl)) }
  pool := { h.pool with }
  dialogues := { h.dialogues with }
  accepting := { h.accepting with }

/-- The closing thread sees that there is no active request. -/
theorem Valid.quieten (h : Valid config safe s d e events) (hd : d.role.request? = none)
    (hidle : d.role ≠ DriverRole.idle)
    (hremaining : d.role.remaining = []) (hclosing : d.closing = true)
    (hshut : ∀ l, d.role ≠ DriverRole.draining l true) (hfuture : s.activeFuture = none) :
    Valid config safe s { closing := true, role := DriverRole.quiet } e events := by
  have hno := h.traffic.no_shutdown hshut
  exact h.plain hd (fun hr => absurd hr hidle)
    { request := rfl
      hold := rfl
      key := rfl
      shut := fun j hj hs => absurd hs (by rw [hno j hj]; exact nofun)
      answer := nofun
      quiet := fun _ => hfuture
      draining := nofun
      closing := fun _ => h.traffic.closing hclosing
      looping := nofun
      leaving := fun _ => rfl
      free := nofun
      kv2 := nofun } hremaining.symm

/-- **The closing thread takes the queue over.** -/
theorem Valid.drain (h : Valid config safe s { closing := true, role := DriverRole.quiet } e events)
    (hkv2 : s.kv2Future = none) :
    Valid config safe { s with pending := [], remaining := s.pending }
      { closing := true, role := DriverRole.draining s.pending false } e events := by
  have hfuture := h.traffic.quiet rfl
  have hactive := h.traffic.active.2 hfuture
  -- No request is active, so the requests at hand are the ones that are taken over.
  have hsub : ∀ v ∈ { s with pending := [], remaining := s.pending }.live, v ∈ s.live := by
    intro v hv
    simp [mem_live, hactive] at hv
  have hno := h.traffic.no_shutdown nofun
  exact
    { traffic :=
        { h.traffic with
          shut := fun j hj hs => absurd hs (by rw [hno j hj]; exact nofun)
          driver := nofun
          finishing := nofun
          requeueing := by rintro v (hv | hv) <;> cases hv
          quiet := nofun
          draining := fun _ _ _ => ⟨hfuture, hkv2⟩
          looping := nofun
          leaving := fun _ => rfl
          holding := fun hne => absurd rfl hne }
      queue :=
        { h.queue with
          pending_lt := nofun
          nodup := List.nodup_nil
          apart := fun v _ hp => nomatch hp
          single := fun v hv w hw => h.queue.single v (hsub v hv) w (hsub w hw)
          startable := by
            intro v hv
            rw [hactive] at hv
            cases hv
          permitted := fun v hj hs => (h.queue.permitted v hj hs).imp id
            (Or.imp id fun _ w hw => nomatch hw)
          grants := fun v hv w hw => h.queue.grants v (hsub v hv) w (hsub w hw)
          capacity := by
            refine le_trans (Finset.card_le_card ?_) h.queue.capacity
            intro v hv
            rw [List.mem_toFinset] at hv ⊢
            exact hsub v hv
          completion := by
            intro v c hv
            rw [hactive] at hv
            cases hv
          requeueing := nofun
          key := nofun
          drained := fun _ _ _ w hw => nomatch hw }
      ordered :=
        { h.ordered with
          waiting := List.Pairwise.nil
          -- A request that was queued is among `remaining` from now on.
          accounted := by
            intro v hv
            rcases h.ordered.accounted v hv with hc | hl | hr | hr
            · exact Or.inl hc
            · rcases mem_live.1 hl with hl | hl
              · exact Or.inr (Or.inr (Or.inl hl))
              · rw [hactive] at hl
                cases hl
            · cases hr
            · exact Or.inr (Or.inr (Or.inr hr))
          remaining_lt := h.queue.pending_lt
          kept := fun v hv => hv
          settled := nofun
          recycling := nofun }
      once := by
        refine h.once.imp id fun ho =>
          { ho with
            pending := nofun
            active := ?_
            nodup := h.queue.nodup
            apart := fun _ _ hp => nomatch hp
            remaining := ho.pending
            discarded := fun u l hl => by simp at hl }
        intro v hv
        rw [hactive] at hv
        cases hv
      pool := { h.pool with }
      dialogues :=
        { h.dialogues with
          inUse := by
            intro v c hv hc
            rcases hv with hv | hv
            · cases hv
            · exact h.dialogues.inUse v c (Or.inr hv) hc
          releasing := fun key hk v hv => h.dialogues.releasing key hk v (hsub v hv) }
      accepting := { h.accepting with } }

/-- The driver of the shutdown, while the executor is, or is not, called. -/
def draining (l : List ℕ) (b : Bool) : DriverNote :=
  { closing := true, role := DriverRole.draining l b }

theorem plain_draining {l : List ℕ} {b b' : Bool} (h : Valid config safe s (draining l b) e events)
    (hno : ∀ j ∈ s.work e, isShutdownJob j = false)
    (hanswer : b' = true → s.shutdownFuture = some none) : Plain s (draining l b') e where
  request := rfl
  hold := rfl
  key := rfl
  shut := fun j hj hs => absurd hs (by rw [hno j hj]; exact nofun)
  answer := by
    intro u l' hl msg hmsg
    cases hl
    rw [hanswer rfl] at hmsg
    cases hmsg
  quiet := nofun
  draining := by
    intro l' b'' _
    obtain ⟨hf, hk⟩ := h.traffic.draining l b rfl
    exact ⟨hf, hk, h.queue.drained l b rfl⟩
  closing := fun _ => h.traffic.closing rfl
  looping := nofun
  leaving := fun _ => rfl
  free := nofun
  kv2 := nofun

/-- **The closing thread calls the executor.** -/
theorem Valid.call (h : Valid config safe s d e events) {l : List ℕ} {job : SchedulerJob}
    (hd : d = draining l false) (hjob : isShutdownJob job = true) (hhead : l.head? = requestOf job)
    (hlt : ∀ u, requestOf job = some u → u < s.nextRequest) :
    Valid config safe ({ s with shutdownFuture := some none }.submitJob job) (draining l true) e
      events := by
  subst hd
  have hno := h.traffic.no_shutdown nofun
  obtain ⟨hfuture, hkv2⟩ := h.traffic.draining l false rfl
  have hcore := h.traffic.no_core (by rw [hfuture]; exact nofun) (by rw [hkv2]; exact nofun) nofun
  have hs : Valid config safe { s with shutdownFuture := some none } (draining l false) e events :=
    { traffic :=
        { h.traffic with
          shut := fun j hj hs => absurd hs (by rw [hno j hj]; exact nofun) }
      queue := { h.queue with }
      ordered := { h.ordered with }
      once := h.once.imp id fun ho => { ho with discarded := nofun }
      pool := { h.pool with }
      dialogues := { h.dialogues with }
      accepting := { h.accepting with } }
  have hs' : Valid config safe { s with shutdownFuture := some none } (draining l true) e events :=
    hs.plain rfl nofun (plain_draining hs hno fun _ => rfl) rfl
  refine hs'.submit
    { core := fun _ => hcore
      advance := ?_
      warm := ?_
      shut := fun _ => ⟨rfl, l, rfl, hhead⟩
      known := hlt }
  · rintro u rfl
    cases hjob
  · rintro rfl
    cases hjob

/-- The closing thread has got its answer. -/
theorem Valid.answered (h : Valid config safe s d e events) {l : List ℕ}
    {f : Except PyStr Unit} (hd : d = draining l true) (hf : s.shutdownFuture.join = some f) :
    Valid config safe s (draining l false) e events := by
  subst hd
  refine h.plain rfl nofun (plain_draining h (fun j hj => ?_) nofun) rfl
  by_contra hs
  rw [(h.traffic.shut j hj (Bool.not_eq_false _ ▸ hs)).1] at hf
  cases hf

/-- In a safe environment discarding a request that remained does not raise. -/
theorem Valid.lost_of_answer (h : Valid config safe s d e events) {u : ℕ} {l : List ℕ}
    {msg : PyStr} (hd : d = draining (u :: l) true)
    (hf : s.shutdownFuture.join = some (Except.error msg)) : safe = false := by
  subst hd
  refine h.once.resolve_right fun ho => ho.discarded u l rfl msg ?_
  exact Option.join_eq_some_iff.1 hf

/-- The requests that remain may be others. -/
theorem Traffic.redrain {l l' : List ℕ} (h : Traffic s (CoreScheduler.draining l false) e) :
    Traffic s (CoreScheduler.draining l' false) e :=
  have hno := h.no_shutdown nofun
  { h with
    shut := fun j hj hs => absurd hs (by rw [hno j hj]; exact nofun)
    driver := nofun
    finishing := nofun
    requeueing := by rintro v (hv | hv) <;> cases hv
    quiet := nofun
    draining := fun _ _ _ => h.draining _ _ rfl
    leaving := fun _ => rfl
    looping := nofun
    holding := fun hne => absurd rfl hne }

theorem Queue.redrain {l l' : List ℕ} (h : Queue config s (draining l false) e) :
    Queue config s (draining l' false) e :=
  { h with
    apart := fun v hv hp => nomatch h.apart v hv hp
    completion := fun v c hv hf _ _ => h.completion v c hv hf nofun nofun
    requeueing := nofun
    key := nofun
    drained := fun _ _ _ => h.drained _ _ rfl }

/-- **A request that remained is completed.** -/
theorem Valid.completeRemaining (h : Valid config safe s d e events) {u : ℕ} {l : List ℕ}
    {t : ManagerTurn} (hd : d = draining (u :: l) false) (ht : t.kind = "cancelled") :
    Valid config safe (s.record (SchedulerEvent.completed u t)) (draining l false) e events := by
  subst hd
  have hlt : u < s.nextRequest := h.ordered.remaining_lt u List.mem_cons_self
  have hordered := h.ordered.complete hlt (t := t) fun hc => absurd ht hc
  exact
    { traffic := { h.traffic.redrain with }
      queue := h.queue.redrain.record (by simp)
      ordered :=
        { hordered with
          accounted := by
            intro v hv
            rcases hordered.accounted v hv with hc | hl | hr | hr
            · exact Or.inl hc
            · exact Or.inr (Or.inl hl)
            · rcases List.mem_cons.1 hr with rfl | hr
              · exact Or.inl ⟨t, List.mem_cons_self⟩
              · exact Or.inr (Or.inr (Or.inl hr))
            · exact Or.inr (Or.inr (Or.inr hr))
          remaining_lt := fun v hv => h.ordered.remaining_lt v (List.mem_cons_of_mem _ hv)
          kept := fun v hv => h.ordered.kept v (List.mem_cons_of_mem _ hv)
          settled := nofun
          recycling := nofun }
      once := by
        rcases h.once with hsafe | ho
        · exact Or.inl hsafe
        · have hnodup := List.nodup_cons.1 ho.nodup
          refine Or.inr
            { once := ?_
              pending := ?_
              active := ?_
              nodup := hnodup.2
              apart := fun v hv => ho.apart v (List.mem_cons_of_mem _ hv)
              remaining := ?_
              discarded := nofun
              undiscarded := fun v hv => ho.undiscarded v (mem_of_cons (by simp) hv) }
          · intro v
            rcases eq_or_ne v u with rfl | hne
            · exact (completions_of_not (ho.remaining v List.mem_cons_self) t).le
            · rw [completions_of_ne hne]
              exact ho.once v
          · intro v hv hc
            rcases completed_cases hc with rfl | hc
            · exact ho.apart v List.mem_cons_self hv
            · exact ho.pending v hv hc
          · intro v hv
            have hv : s.activeRequest = some v := hv
            rw [h.traffic.active.2 (h.traffic.draining _ _ rfl).1] at hv
            cases hv
          · intro v hv hc
            rcases completed_cases hc with rfl | hc
            · exact hnodup.1 hv
            · exact ho.remaining v (List.mem_cons_of_mem _ hv) hc
      pool := h.pool.record (by simp) (by simp) (by simp)
      dialogues := h.dialogues.record (by simp) (by simp)
      accepting := h.accepting.record (by simp) }

/-- Discarding a request that remained has raised. -/
theorem Valid.discardRaised (h : Valid config safe s d e events) {u : ℕ} {l : List ℕ} {b : Bool}
    (hd : d.role = DriverRole.draining l b) (hsafe : safe = false) :
    Valid config safe (s.record (SchedulerEvent.discardRaised u)) d e events where
  traffic := { h.traffic with }
  queue := h.queue.record (by simp)
  ordered :=
    { h.ordered with
      ready := fun v hv hf hk => (h.ordered.ready v hv hf hk).imp id First.record
      permitted := fun v hj hs hk => (h.ordered.permitted v hj hs hk).record
      begun := fun v hk hi => (h.ordered.begun v hk hi).record
      log := fun v t l hl => h.ordered.log v t l (suffix_of_cons (by simp) hl)
      completed_lt := fun v hv => h.ordered.completed_lt v ((completed_record (by simp)).1 hv)
      accounted := fun v _ => Or.inr (Or.inr (Or.inr ⟨u, List.mem_cons_self⟩))
      settled := fun v hv => (h.ordered.settled v hv).imp Completed.record id
      recycling := fun v hv => (h.ordered.recycling v hv).record
      raised := fun _ => h.traffic.closing (h.traffic.leaving (Or.inr ⟨l, b, hd⟩))
      lost := fun _ => (h.traffic.draining l b hd).1
      alone := h.ordered.alone_record _ }
  once := Or.inl hsafe
  pool := h.pool.record (by simp) (by simp) (by simp)
  dialogues := h.dialogues.record (by simp) (by simp)
  accepting := h.accepting.record (by simp)

/-- The closing thread, which has raised, has forgotten what remained. -/
theorem Valid.forsake (h : Valid config safe s d e events) {l : List ℕ} (hd : d = draining l false)
    (hraised : ∃ u, SchedulerEvent.discardRaised u ∈ s.log) (hsafe : safe = false) :
    Valid config safe { s with remaining := [] } (draining [] false) e events := by
  subst hd
  exact
    { traffic := { h.traffic.redrain with }
      queue := { h.queue.redrain with }
      ordered :=
        { h.ordered with
          accounted := fun _ _ => Or.inr (Or.inr (Or.inr hraised))
          remaining_lt := nofun
          kept := nofun
          settled := nofun
          recycling := nofun }
      once := Or.inl hsafe
      pool := { h.pool with }
      dialogues := { h.dialogues with }
      accepting := { h.accepting with } }

/-- The loop of `close` goes on to the next request. -/
theorem Valid.proceed (h : Valid config safe s d e events) {l : List ℕ} {b : Bool}
    (hd : d.role = DriverRole.draining l b) :
    Valid config safe { s with remaining := l } d e events where
  traffic := { h.traffic with }
  queue := { h.queue with }
  ordered :=
    { h.ordered with
      kept := by
        rw [hd]
        exact fun _ hv => hv }
  once := h.once.imp id fun ho => { ho with }
  pool := { h.pool with }
  dialogues := { h.dialogues with }
  accepting := { h.accepting with }

/-! ### The driver and the future of KV2 -/

/-- The driver forgets the future of KV2, which is done or not there. -/
theorem Valid.dropKv2 (h : Valid config safe s d e events) {f : Option (Except PyStr Unit)}
    (hd : d.kv2 = some f) :
    Valid config safe { s with kv2Future := none } { d with kv2 := some none } e events := by
  have hf := h.traffic.kv2 f hd
  exact
    { traffic :=
        { h.traffic with
          warm := by
            intro hw
            have := h.traffic.warm hw
            rw [hf] at this
            cases f <;> cases this
          exclusive := fun hne => absurd rfl hne
          draining := fun l b hv => ⟨(h.traffic.draining l b hv).1, rfl⟩
          kv2 := by
            intro f' hf'
            cases hf'
            rfl }
      queue := { h.queue with }
      ordered := { h.ordered with }
      once := h.once.imp id fun ho => { ho with }
      pool := { h.pool with }
      dialogues := { h.dialogues with lost := nofun }
      accepting := { h.accepting with } }

/-- **KV2 is ordered.** -/
theorem Valid.orderKv2 (h : Valid config safe s d e events) (hd : d.role = DriverRole.running)
    (hfree : d.free = true) (hkv2 : d.kv2 = some none) {kv2State : Kv2State} :
    Valid config safe
      ({ s with
        kv2Requested := false
        kv2State
        kv2Future := some none }.submitJob SchedulerJob.warmManagerKv2)
      { d with kv2 := none } e events := by
  have hfuture := h.traffic.free hfree
  have hnone : s.kv2Future = none := h.traffic.kv2 none hkv2
  have hcore := h.traffic.no_core (by rw [hfuture]; exact nofun) (by rw [hnone]; exact nofun)
    (by rw [hd]; exact nofun)
  have hs : Valid config safe
      { s with
        kv2Requested := false
        kv2State
        kv2Future := some none } { d with kv2 := none } e events :=
    { traffic :=
        { h.traffic with
          warm := fun _ => rfl
          exclusive := fun _ => hfuture
          draining := by
            intro l b hv
            have hv : d.role = DriverRole.draining l b := hv
            rw [hd] at hv
            cases hv
          kv2 := nofun }
      queue := { h.queue with }
      ordered := { h.ordered with }
      once := h.once.imp id fun ho => { ho with }
      pool := { h.pool with }
      dialogues := { h.dialogues with lost := nofun }
      accepting := { h.accepting with } }
  exact hs.submit
    { core := fun _ => hcore
      advance := nofun
      warm := fun _ => rfl
      shut := nofun
      known := nofun }

end CoreScheduler
