/-
**One session does not see another.**

The conversation of the manager is replaced when a session ends, by an operation of the scheduler.
The operation is submitted in the same moment in which the session ends, and it comes before every
request that waits; so a request of a new session finds a conversation that nobody has used.  That
holds as long as the base can be cloned: if it cannot, the old conversation stays where it is, and
nothing notices.

Main definitions:

* `NativeCore.Over` — a session that has ended;
* `NativeCore.Aside` — a step that the sessions do not notice;
* `NativeCore.Isolated` — the invariant of the conversation of the manager;
* `NativeCore.Ordered` — the invariant of the requests.

Main results:

* `NativeCore.isolated_step`, `NativeCore.ordered_step` — the step lemmas;
* `NativeCore.sessions_isolated` — **a conversation of the manager serves one session only**, unless
  the end of a session could not replace it;
* `NativeCore.not_sessions_isolated` — then the next session continues it;
* `NativeCore.session_over` — **a session that has ended starts nothing and is sent nothing**, and
  requests begin in the order in which they were accepted.
-/

import CatAgent.NativeCore

set_option relaxedAutoImplicit false
set_option autoImplicit false

/-! ### Which operations belong to a session -/

/-- The session that an operation was submitted for. -/
def CoreOperation.session? : CoreOperation → Option CoreSession
  | modelWorker session _ _ _ => some session
  | hardwareProbe session _ _ _ => some session
  | _ => none

/-- The request that an operation serves. -/
def CoreOperation.request? : CoreOperation → Option (PyStr × CoreSession)
  | modelWorker session requestId _ _ => some (requestId, session)
  | _ => none

/-- The operation has nothing to do with the sessions. -/
def CoreOperation.Apart (operation : CoreOperation) : Prop :=
  operation.session? = none ∧ operation ≠ releaseSession

/-- The session that the thread works for. -/
def CorePoint.session? : CorePoint → Option CoreSession
  | entered operation => operation.session?
  | turn session _ _ => some session
  | managing session _ => some session
  | agentTask session _ _ _ => some session
  | answer session _ _ => some session
  | probe session _ _ _ => some session
  | probed session _ => some session
  | _ => none

/-- The session whose turn the manager has. -/
def CorePoint.manages? : CorePoint → Option CoreSession
  | turn session _ _ => some session
  | managing session _ => some session
  | _ => none

/-- The operation whose callback is about to begin. -/
def CorePoint.entered? : CorePoint → Option CoreOperation
  | entered operation => some operation
  | _ => none

/-- The request that has begun and is not answered. -/
def CorePoint.request? : CorePoint → Option (PyStr × CoreSession)
  | turn session requestId _ => some (requestId, session)
  | managing session requestId => some (requestId, session)
  | agentTask session requestId _ _ => some (requestId, session)
  | answer session requestId _ => some (requestId, session)
  | _ => none

/-- The thread moves on, and neither a session nor a request nor an operation is taken up. -/
structure CorePoint.Ahead (p p' : CorePoint) : Prop where
  session : ∀ σ, p'.session? = some σ → p.session? = some σ
  manages : ∀ σ, p'.manages? = some σ → p.manages? = some σ
  request : ∀ r, p'.request? = some r → p.request? = some r
  entered : ∀ operation, p'.entered? = some operation → p.entered? = some operation
  release : p.entered? = some CoreOperation.releaseSession →
    p'.entered? = some CoreOperation.releaseSession

/-- The thread works for no session. -/
structure CorePoint.Quiet (p : CorePoint) : Prop where
  session : p.session? = none
  manages : p.manages? = none
  request : p.request? = none
  entered : p.entered? = none

theorem CorePoint.Ahead.refl (p : CorePoint) : p.Ahead p :=
  ⟨fun _ => id, fun _ => id, fun _ => id, fun _ => id, id⟩

theorem CorePoint.Quiet.ahead {p p' : CorePoint} (h : p'.Quiet)
    (hp : p.entered? ≠ some CoreOperation.releaseSession) : p.Ahead p' where
  session := by
    rw [h.session]
    exact nofun
  manages := by
    rw [h.manages]
    exact nofun
  request := by
    rw [h.request]
    exact nofun
  entered := by
    rw [h.entered]
    exact nofun
  release := fun hrelease => absurd hrelease hp

theorem CorePoint.quiet_idle : idle.Quiet := ⟨rfl, rfl, rfl, rfl⟩

theorem CoreOperation.Apart.request {operation : CoreOperation} (h : operation.Apart) :
    operation.request? = none := by
  obtain ⟨hsession, -⟩ := h
  cases operation with
  | modelWorker session requestId text agentId => cases hsession
  | _ => rfl

namespace NativeCore

variable {s s' s'' : NativeCore} {env : CoreEnv} {client : ℕ} {session : CoreSession}

/-! ### Steps that the sessions do not notice -/

/-- A step that the sessions do not notice. -/
structure Aside (s s' : NativeCore) : Prop where
  human : s'.human = s.human
  epoch : s'.epoch = s.epoch
  chat : s'.chat = s.chat
  releaseFailed : s'.history.releaseFailed = s.history.releaseFailed
  asked : s'.history.asked = s.history.asked
  accepted : s'.history.accepted = s.history.accepted
  begun : s'.history.begun = s.history.begun
  answered : s'.history.answered = s.history.answered
  probes : s'.history.probes = s.history.probes
  numbered : s.scheduler.Numbered → s'.scheduler.Numbered
  stopping : s'.scheduler.stopping = s.scheduler.stopping
  queue : ∃ l, s'.scheduler.queue = s.scheduler.queue ++ l ∧
    ∀ operation ∈ l, operation.callback.Apart

theorem Aside.refl : Aside s s :=
  ⟨rfl, rfl, rfl, rfl, rfl, rfl, rfl, rfl, rfl, id, rfl, [], (List.append_nil _).symm, nofun⟩

theorem Aside.trans (h : Aside s s') (h' : Aside s' s'') : Aside s s'' := by
  obtain ⟨l, hl, happart⟩ := h.queue
  obtain ⟨l', hl', happart'⟩ := h'.queue
  refine ⟨h'.human.trans h.human, h'.epoch.trans h.epoch, h'.chat.trans h.chat,
    h'.releaseFailed.trans h.releaseFailed, h'.asked.trans h.asked, h'.accepted.trans h.accepted,
    h'.begun.trans h.begun, h'.answered.trans h.answered, h'.probes.trans h.probes,
    fun hn => h'.numbered (h.numbered hn),
    h'.stopping.trans h.stopping, l ++ l', ?_, ?_⟩
  · rw [hl', hl, List.append_assoc]
  · intro operation hoperation
    rcases List.mem_append.1 hoperation with hoperation | hoperation
    · exact happart operation hoperation
    · exact happart' operation hoperation

/-- Nothing changes but the jobs, the agents, the manager and the place of the thread. -/
theorem aside_of_eq (hhuman : s'.human = s.human) (hepoch : s'.epoch = s.epoch)
    (hchat : s'.chat = s.chat) (hscheduler : s'.scheduler.queue = s.scheduler.queue ∧
      s'.scheduler.sequence = s.scheduler.sequence ∧
      s'.scheduler.stopping = s.scheduler.stopping)
    (hreleaseFailed : s'.history.releaseFailed = s.history.releaseFailed)
    (hasked : s'.history.asked = s.history.asked)
    (haccepted : s'.history.accepted = s.history.accepted)
    (hbegun : s'.history.begun = s.history.begun)
    (hanswered : s'.history.answered = s.history.answered)
    (hprobes : s'.history.probes = s.history.probes) : Aside s s' := by
  obtain ⟨hqueue, hsequence, hstopping⟩ := hscheduler
  refine ⟨hhuman, hepoch, hchat, hreleaseFailed, hasked, haccepted, hbegun, hanswered, hprobes, ?_,
    hstopping, [], by rw [hqueue, List.append_nil], nofun⟩
  intro hn
  refine ⟨?_, ?_⟩
  · rw [hqueue]
    exact hn.increasing
  · rw [hqueue, hsequence]
    exact hn.given

theorem aside_submit (kind : OperationKind) {operation : CoreOperation} (continuation : Bool)
    (h : operation.Apart) : Aside s (s.submit kind operation continuation) := by
  have hnumbered : s.scheduler.Numbered →
      (s.scheduler.submit kind operation continuation).2.Numbered :=
    fun hn => hn.submit kind operation continuation
  unfold submit
  rcases PriorityScheduler.submit_cases s.scheduler kind operation continuation with
    ⟨e, hsubmit, -⟩ | ⟨-, -, hsubmit⟩
  · rw [hsubmit]
    exact Aside.refl
  · rw [hsubmit] at hnumbered ⊢
    refine ⟨rfl, rfl, rfl, rfl, rfl, rfl, rfl, rfl, rfl, hnumbered, rfl, _, rfl, ?_⟩
    intro other hother
    rw [List.mem_singleton.1 hother]
    exact h

theorem aside_done : Aside s s.done :=
  aside_of_eq rfl rfl rfl ⟨rfl, rfl, rfl⟩ rfl rfl rfl rfl rfl rfl

theorem aside_goto (point : CorePoint) : Aside s (s.goto point) :=
  aside_of_eq rfl rfl rfl ⟨rfl, rfl, rfl⟩ rfl rfl rfl rfl rfl rfl

theorem aside_modifyJob (jobId : PyStr) (f : BackgroundJob → BackgroundJob) :
    Aside s (s.modifyJob jobId f) :=
  aside_of_eq rfl rfl rfl ⟨rfl, rfl, rfl⟩ rfl rfl rfl rfl rfl rfl

theorem apart_clearContext (agentId jobId : PyStr) :
    (CoreOperation.clearContext agentId jobId).Apart := ⟨rfl, nofun⟩

theorem apart_clearTimedOut (agentId jobId : PyStr) :
    (CoreOperation.clearTimedOut agentId jobId).Apart := ⟨rfl, nofun⟩

theorem apart_backgroundStep (jobId : PyStr) : (CoreOperation.backgroundStep jobId).Apart :=
  ⟨rfl, nofun⟩

theorem apart_execute (agentId task : PyStr) : (CoreOperation.execute agentId task).Apart :=
  ⟨rfl, nofun⟩

theorem aside_mark (jobId : PyStr) {operation : CoreOperation} (h : operation.Apart) :
    Aside s (s.mark jobId operation) := (aside_modifyJob jobId _).trans (aside_submit _ _ h)

theorem aside_cancelOne (client : ℕ) (jobId : PyStr) : Aside s (s.cancelOne client jobId) := by
  unfold cancelOne
  cases s.activeJob jobId with
  | none => exact Aside.refl
  | some job =>
      dsimp only
      split_ifs
      · exact Aside.refl
      · exact aside_mark jobId (apart_clearContext _ _)

theorem aside_cancelBackgrounds (client : ℕ) (jobId : Option PyStr) :
    Aside s (s.cancelBackgrounds client jobId) := by
  unfold cancelBackgrounds
  generalize s.backgrounds.filter _ = l
  induction l generalizing s with
  | nil => exact Aside.refl
  | cons id l ih => exact (aside_cancelOne client id).trans ih

theorem aside_sendBackgroundEvent (jobId : PyStr) (outcome : SendOutcome) :
    Aside s (s.sendBackgroundEvent jobId outcome).2 := by
  unfold sendBackgroundEvent
  cases s.jobs.get? jobId with
  | none => exact Aside.refl
  | some job =>
      dsimp only
      split_ifs
      · exact Aside.refl
      · exact aside_cancelBackgrounds _ _
      · cases outcome with
        | sent => exact Aside.refl
        | osError => exact (aside_modifyJob _ _).trans (aside_cancelBackgrounds _ _)
        | unicodeError => exact Aside.refl

theorem aside_terminate (env : CoreEnv) (jobId : PyStr) (state : JobState) (result : PyStr) :
    Aside s (s.terminate env jobId state result) := by
  have hfinish : Aside s (s.finishBackground jobId state result) :=
    aside_of_eq rfl rfl rfl ⟨rfl, rfl, rfl⟩ rfl rfl rfl rfl rfl rfl
  exact hfinish.trans (aside_sendBackgroundEvent _ _)

theorem aside_runAgent (env : CoreEnv) (agentId task : PyStr) :
    Aside s (s.runAgent env agentId task).2 := by
  unfold runAgent
  cases s.agents.get? agentId with
  | none => exact Aside.refl
  | some r =>
      dsimp only
      split_ifs
      · exact aside_of_eq rfl rfl rfl ⟨rfl, rfl, rfl⟩ rfl rfl rfl rfl rfl rfl
      · exact aside_of_eq rfl rfl rfl ⟨rfl, rfl, rfl⟩ rfl rfl rfl rfl rfl rfl

theorem aside_runSlice (env : CoreEnv) (jobId agentId instruction : PyStr) (final : Bool) :
    Aside s (s.runSlice env jobId agentId instruction final).2 := by
  unfold runSlice
  cases s.agents.get? agentId with
  | none => exact Aside.refl
  | some r =>
      dsimp only
      split_ifs
      · exact aside_of_eq rfl rfl rfl ⟨rfl, rfl, rfl⟩ rfl rfl rfl rfl rfl rfl
      · exact aside_of_eq rfl rfl rfl ⟨rfl, rfl, rfl⟩ rfl rfl rfl rfl rfl rfl

theorem aside_abortSlices (env : CoreEnv) (agentId : PyStr) :
    Aside s (s.abortSlices env agentId).2 := by
  unfold abortSlices
  cases s.agents.get? agentId with
  | none => exact Aside.refl
  | some r => exact aside_of_eq rfl rfl rfl ⟨rfl, rfl, rfl⟩ rfl rfl rfl rfl rfl rfl

theorem aside_enterBackgroundStep (env : CoreEnv) (jobId : PyStr) :
    Aside s (s.enterBackgroundStep env jobId) := by
  unfold enterBackgroundStep
  cases s.activeJob jobId with
  | none => exact aside_done
  | some job =>
      dsimp only
      by_cases hcancelled : job.cancelled = true
      · rw [if_pos hcancelled]
        exact aside_done
      rw [if_neg hcancelled]
      cases job.steps[job.index]? with
      | none => exact aside_done
      | some instruction =>
          dsimp only
          split_ifs
          · exact (aside_mark jobId (apart_clearTimedOut _ _)).trans aside_done
          · exact (aside_modifyJob _ _).trans (aside_goto _)

theorem aside_callSlice (env : CoreEnv) (jobId agentId instruction : PyStr) (final : Bool) :
    Aside s (s.callSlice env jobId agentId instruction final) := by
  have hrun := aside_runSlice (s := s) env jobId agentId instruction final
  unfold callSlice
  generalize s.runSlice env jobId agentId instruction final = r at hrun
  obtain ⟨result, s₁⟩ := r
  cases result with
  | ok outcome =>
      exact hrun.trans (aside_of_eq rfl rfl rfl ⟨rfl, rfl, rfl⟩ rfl rfl rfl rfl rfl rfl)
  | error text =>
      exact hrun.trans (aside_of_eq rfl rfl rfl ⟨rfl, rfl, rfl⟩ rfl rfl rfl rfl rfl rfl)

theorem aside_leaveSlice (env : CoreEnv) (jobId : PyStr) (final ok : Bool) (text : PyStr) :
    Aside s (s.leaveSlice env jobId final ok text) := by
  unfold leaveSlice
  cases s.jobs.get? jobId with
  | none => exact aside_done
  | some job =>
      dsimp only
      by_cases hcancelled : job.cancelled = true
      · rw [if_pos hcancelled]
        exact aside_done
      rw [if_neg hcancelled]
      have hsend := (aside_modifyJob (s := s) jobId fun job =>
        { job with index := job.index + 1, lastResult := text }).trans
          (aside_sendBackgroundEvent jobId env.progress)
      generalize (s.modifyJob jobId fun job =>
        { job with index := job.index + 1, lastResult := text }).sendBackgroundEvent jobId
          env.progress = r at hsend
      obtain ⟨delivery, s₁⟩ := r
      cases delivery with
      | gone => exact hsend.trans aside_done
      | raised =>
          exact hsend.trans (aside_of_eq rfl rfl rfl ⟨rfl, rfl, rfl⟩ rfl rfl rfl rfl rfl rfl)
      | sent =>
          dsimp only
          split_ifs
          · exact hsend.trans ((aside_mark jobId (apart_clearTimedOut _ _)).trans aside_done)
          · exact hsend.trans (((aside_modifyJob _ _).trans
              (aside_submit _ _ (apart_backgroundStep _))).trans aside_done)
          · exact hsend.trans ((aside_terminate _ _ _ _).trans aside_done)
          · exact hsend.trans ((aside_terminate _ _ _ _).trans aside_done)

theorem aside_leaveClear (env : CoreEnv) (jobId : PyStr) (timedOut : Bool) (error : Option PyStr) :
    Aside s (s.leaveClear env jobId timedOut error) := by
  unfold leaveClear
  cases s.activeJob jobId with
  | none => exact aside_done
  | some job =>
      dsimp only
      by_cases hdone : timedOut = false ∧ job.cancelled = false
      · rw [if_pos hdone]
        exact aside_done
      · rw [if_neg hdone]
        exact (aside_terminate _ _ _ _).trans aside_done

theorem aside_enterExecute (env : CoreEnv) (agentId task : PyStr) :
    Aside s (s.enterExecute env agentId task) := by
  unfold enterExecute
  split_ifs
  · exact aside_goto _
  · exact aside_of_eq rfl rfl rfl ⟨rfl, rfl, rfl⟩ rfl rfl rfl rfl rfl rfl

theorem aside_background (client : ℕ) (jobId agentId : PyStr) (steps : List PyStr)
    (runtime now : ℚ) : Aside s (s.background client jobId agentId steps runtime now) := by
  unfold background
  dsimp only
  split_ifs
  · exact Aside.refl
  · exact (aside_submit _ _ (apart_backgroundStep jobId)).trans
      (aside_of_eq rfl rfl rfl ⟨rfl, rfl, rfl⟩ rfl rfl rfl rfl rfl rfl)

theorem aside_offer (mqtt : Bool) (agentId task : PyStr) : Aside s (s.offer mqtt agentId task) := by
  unfold offer
  dsimp only
  generalize (if mqtt = true then OperationKind.hardware else OperationKind.background) = kind
  by_cases hrefused : agentId ∈ s.reserved ∨
      s.admits kind (CoreOperation.execute agentId task) = false
  · rw [if_pos hrefused]
    exact Aside.refl
  · rw [if_neg hrefused]
    exact (aside_submit kind false (apart_execute agentId task)).trans
      (aside_of_eq rfl rfl rfl ⟨rfl, rfl, rfl⟩ rfl rfl rfl rfl rfl rfl)

/-! #### Where they leave the thread -/

theorem quiet_enterBackgroundStep (env : CoreEnv) (jobId : PyStr) :
    (s.enterBackgroundStep env jobId).point.Quiet := by
  unfold enterBackgroundStep
  cases s.activeJob jobId with
  | none => exact CorePoint.quiet_idle
  | some job =>
      dsimp only
      by_cases hcancelled : job.cancelled = true
      · rw [if_pos hcancelled]
        exact CorePoint.quiet_idle
      rw [if_neg hcancelled]
      cases job.steps[job.index]? with
      | none => exact CorePoint.quiet_idle
      | some instruction =>
          dsimp only
          split_ifs
          · exact CorePoint.quiet_idle
          · exact ⟨rfl, rfl, rfl, rfl⟩

theorem quiet_enterExecute (env : CoreEnv) (agentId task : PyStr) :
    (s.enterExecute env agentId task).point.Quiet := by
  unfold enterExecute
  split_ifs
  · exact ⟨rfl, rfl, rfl, rfl⟩
  · exact CorePoint.quiet_idle

theorem quiet_callSlice (env : CoreEnv) (jobId agentId instruction : PyStr) (final : Bool) :
    (s.callSlice env jobId agentId instruction final).point.Quiet := by
  unfold callSlice
  generalize s.runSlice env jobId agentId instruction final = r
  obtain ⟨result, s₁⟩ := r
  cases result with
  | ok outcome => exact ⟨rfl, rfl, rfl, rfl⟩
  | error text => exact ⟨rfl, rfl, rfl, rfl⟩

theorem quiet_leaveSlice (env : CoreEnv) (jobId : PyStr) (final ok : Bool) (text : PyStr) :
    (s.leaveSlice env jobId final ok text).point.Quiet := by
  unfold leaveSlice
  cases s.jobs.get? jobId with
  | none => exact CorePoint.quiet_idle
  | some job =>
      dsimp only
      by_cases hcancelled : job.cancelled = true
      · rw [if_pos hcancelled]
        exact CorePoint.quiet_idle
      rw [if_neg hcancelled]
      generalize (s.modifyJob jobId fun job =>
        { job with index := job.index + 1, lastResult := text }).sendBackgroundEvent jobId
          env.progress = r
      obtain ⟨delivery, s₁⟩ := r
      cases delivery with
      | gone => exact CorePoint.quiet_idle
      | raised => exact CorePoint.quiet_idle
      | sent =>
          dsimp only
          split_ifs
          · exact CorePoint.quiet_idle
          · exact CorePoint.quiet_idle
          · exact CorePoint.quiet_idle
          · exact CorePoint.quiet_idle

theorem quiet_leaveClear (env : CoreEnv) (jobId : PyStr) (timedOut : Bool) (error : Option PyStr) :
    (s.leaveClear env jobId timedOut error).point.Quiet := by
  unfold leaveClear
  cases s.activeJob jobId with
  | none => exact CorePoint.quiet_idle
  | some job =>
      dsimp only
      by_cases hdone : timedOut = false ∧ job.cancelled = false
      · rw [if_pos hdone]
        exact CorePoint.quiet_idle
      · rw [if_neg hdone]
        exact CorePoint.quiet_idle

theorem point_cancelOne (client : ℕ) (jobId : PyStr) :
    (s.cancelOne client jobId).point = s.point := by
  unfold cancelOne
  cases s.activeJob jobId with
  | none => rfl
  | some job =>
      dsimp only
      split_ifs
      · rfl
      · rfl

theorem point_cancelBackgrounds (client : ℕ) (jobId : Option PyStr) :
    (s.cancelBackgrounds client jobId).point = s.point := by
  unfold cancelBackgrounds
  generalize s.backgrounds.filter _ = l
  induction l generalizing s with
  | nil => rfl
  | cons id l ih => exact ih.trans (point_cancelOne client id)

theorem point_background (client : ℕ) (jobId agentId : PyStr) (steps : List PyStr)
    (runtime now : ℚ) : (s.background client jobId agentId steps runtime now).point = s.point := by
  unfold background
  dsimp only
  split_ifs
  · rfl
  · rfl

theorem point_offer (mqtt : Bool) (agentId task : PyStr) :
    (s.offer mqtt agentId task).point = s.point := by
  unfold offer
  dsimp only
  generalize (if mqtt = true then OperationKind.hardware else OperationKind.background) = kind
  by_cases hrefused : agentId ∈ s.reserved ∨
      s.admits kind (CoreOperation.execute agentId task) = false
  · rw [if_pos hrefused]
  · rw [if_neg hrefused]
    rfl

/-! ### Sessions that have ended -/

/-- The session has ended. -/
def Over (s : NativeCore) (session : CoreSession) : Prop :=
  session.epoch ≤ s.epoch session.client ∧ s.owns session = false

theorem owns_iff : s.owns session = true ↔
    s.human = some session.client ∧ s.epoch session.client = session.epoch := by
  unfold owns
  rw [Bool.and_eq_true, decide_eq_true_eq, decide_eq_true_eq]

/-- Only one session is owned. -/
theorem owns_unique {session' : CoreSession} (h : s.owns session = true)
    (h' : s.owns session' = true) : session = session' := by
  obtain ⟨hhuman, hepoch⟩ := owns_iff.1 h
  obtain ⟨hhuman', hepoch'⟩ := owns_iff.1 h'
  obtain ⟨client, epoch⟩ := session
  obtain ⟨client', epoch'⟩ := session'
  have hclient : client = client' := Option.some.inj (hhuman.symm.trans hhuman')
  subst hclient
  have hsame : epoch = epoch' := hepoch.symm.trans hepoch'
  rw [hsame]

theorem owns_congr (hhuman : s'.human = s.human) (hepoch : s'.epoch = s.epoch) :
    s'.owns session = s.owns session := by
  unfold owns
  rw [hhuman, hepoch]

/-- The end of a session waits for the thread. -/
def Releasing (s : NativeCore) : Prop :=
  ∃ operation ∈ s.scheduler.queue, operation.callback = CoreOperation.releaseSession

/-- The clone that the manager talks to. -/
def current (s : NativeCore) : Option ℕ := s.chat.working.map Dialogue.clone

/-! ### The conversation of the manager -/

/-- The invariant of the conversation of the manager. -/
structure Isolated (s : NativeCore) : Prop where
  numbered : s.scheduler.Numbered
  running : s.scheduler.stopping = false
  chat : s.chat.closed = false
  current : ∃ c, s.current = some c ∧ c < s.chat.clones
  below : ∀ a ∈ s.history.asked, ∃ c, a.1 = some c ∧ c < s.chat.clones
  control : ∀ operation ∈ s.scheduler.queue,
    operation.callback = CoreOperation.releaseSession → operation.kind = OperationKind.control
  humans : ∀ operation ∈ s.scheduler.queue,
    operation.callback.request?.isSome → operation.kind = OperationKind.human
  known : ∀ operation ∈ s.scheduler.queue, ∀ σ, operation.callback.session? = some σ →
    σ.epoch ≤ s.epoch σ.client
  standing : ∀ σ, s.point.session? = some σ → σ.epoch ≤ s.epoch σ.client
  /-- A request is not taken up while the end of another session waits. -/
  entering : ∀ operation σ, s.point.entered? = some operation → operation.session? = some σ →
    operation.request?.isSome → s.Over σ ∨ ¬s.Releasing
  /-- The turn of a session is over before its conversation is replaced. -/
  turning : ∀ σ, s.point.manages? = some σ → s.owns σ = true ∨ s.Releasing
  /-- What was asked in the conversation belongs to the session, or is on its way out. -/
  resident : s.history.releaseFailed = false → ∀ a ∈ s.history.asked, a.1 = s.current →
    s.owns a.2 = true ∨ s.Releasing ∨ s.point.entered? = some CoreOperation.releaseSession
  alone : s.history.releaseFailed = false → ∀ σ, s.point.manages? = some σ →
    ∀ a ∈ s.history.asked, a.1 = s.current → a.2 = σ
  once : s.history.releaseFailed = false → ∀ a ∈ s.history.asked, ∀ b ∈ s.history.asked,
    a.1 = b.1 → a.2 = b.2

theorem Aside.owns (h : Aside s s') : s'.owns session = s.owns session :=
  owns_congr h.human h.epoch

theorem Aside.over (h : Aside s s') : s'.Over session ↔ s.Over session := by
  unfold Over
  rw [h.owns, h.epoch]

theorem Aside.current (h : Aside s s') : s'.current = s.current := by
  unfold NativeCore.current
  rw [h.chat]

theorem Aside.mem {operation : Operation CoreOperation} (h : Aside s s')
    (hmem : operation ∈ s'.scheduler.queue) :
    operation ∈ s.scheduler.queue ∨ operation.callback.Apart := by
  obtain ⟨l, hl, happart⟩ := h.queue
  rw [hl] at hmem
  exact (List.mem_append.1 hmem).imp id (happart operation)

theorem Aside.releasing (h : Aside s s') : s'.Releasing ↔ s.Releasing := by
  constructor
  · rintro ⟨operation, hmem, hoperation⟩
    rcases h.mem hmem with hmem | happart
    · exact ⟨operation, hmem, hoperation⟩
    · exact absurd hoperation happart.2
  · rintro ⟨operation, hmem, hoperation⟩
    obtain ⟨l, hl, -⟩ := h.queue
    refine ⟨operation, ?_, hoperation⟩
    rw [hl]
    exact List.mem_append_left _ hmem

/-- **A step that the sessions do not notice keeps the invariant.** -/
theorem Isolated.aside (hs : s.Isolated) (h : Aside s s') (hpoint : s.point.Ahead s'.point) :
    s'.Isolated where
  numbered := h.numbered hs.numbered
  running := h.stopping.trans hs.running
  chat := by
    rw [h.chat]
    exact hs.chat
  current := by
    rw [h.current, h.chat]
    exact hs.current
  below := by
    rw [h.asked, h.chat]
    exact hs.below
  control := by
    intro operation hmem hoperation
    rcases h.mem hmem with hmem | happart
    · exact hs.control operation hmem hoperation
    · exact absurd hoperation happart.2
  humans := by
    intro operation hmem hoperation
    rcases h.mem hmem with hmem | happart
    · exact hs.humans operation hmem hoperation
    · rw [happart.request] at hoperation
      cases hoperation
  known := by
    intro operation hmem σ hσ
    rw [h.epoch]
    rcases h.mem hmem with hmem | happart
    · exact hs.known operation hmem σ hσ
    · rw [happart.1] at hσ
      cases hσ
  standing := by
    intro σ hσ
    rw [h.epoch]
    exact hs.standing σ (hpoint.session σ hσ)
  entering := by
    intro operation σ hentered hσ hrequest
    rw [h.over, h.releasing]
    exact hs.entering operation σ (hpoint.entered operation hentered) hσ hrequest
  turning := by
    intro σ hσ
    rw [h.owns, h.releasing]
    exact hs.turning σ (hpoint.manages σ hσ)
  resident := by
    rw [h.releaseFailed, h.asked, h.current, h.releasing]
    intro hfailed a ha hcurrent
    rw [h.owns]
    exact (hs.resident hfailed a ha hcurrent).imp id (Or.imp id hpoint.release)
  alone := by
    rw [h.releaseFailed, h.asked, h.current]
    exact fun hfailed σ hσ => hs.alone hfailed σ (hpoint.manages σ hσ)
  once := by
    rw [h.releaseFailed, h.asked]
    exact hs.once

/-- The thread moves on. -/
theorem Isolated.goto (hs : s.Isolated) {point : CorePoint} (hpoint : s.point.Ahead point) :
    (s.goto point).Isolated := hs.aside (aside_goto point) hpoint

theorem Isolated.done (hs : s.Isolated)
    (hpoint : s.point.entered? ≠ some CoreOperation.releaseSession) : s.done.Isolated :=
  hs.aside aside_done (CorePoint.quiet_idle.ahead hpoint)

/-- What is recorded of the requests does not concern the conversation. -/
theorem Isolated.recorded (hs : s.Isolated) (accepted begun answered probes) :
    Isolated { s with history := { s.history with accepted, begun, answered, probes } } :=
  ⟨hs.numbered, hs.running, hs.chat, hs.current, hs.below, hs.control, hs.humans, hs.known,
    hs.standing, hs.entering, hs.turning, hs.resident, hs.alone, hs.once⟩

/-- An operation for a session is submitted. -/
theorem Isolated.submit (hs : s.Isolated) {kind : OperationKind} {operation : CoreOperation}
    (hoperation : operation ≠ CoreOperation.releaseSession)
    (hkind : operation.request?.isSome → kind = OperationKind.human)
    (hknown : ∀ σ, operation.session? = some σ → σ.epoch ≤ s.epoch σ.client)
    (continuation : Bool) : (s.submit kind operation continuation).Isolated := by
  have hnumbered := hs.numbered.submit kind operation continuation
  unfold NativeCore.submit
  rcases PriorityScheduler.submit_cases s.scheduler kind operation continuation with
    ⟨e, hsubmit, -⟩ | ⟨-, -, hsubmit⟩
  · rw [hsubmit]
    exact hs
  rw [hsubmit] at hnumbered ⊢
  have hmem : ∀ other ∈ s.scheduler.queue ++
      [{ sequence := s.scheduler.sequence + 1, kind, callback := operation }],
      other ∈ s.scheduler.queue ∨ other.callback = operation ∧ other.kind = kind := by
    intro other hother
    refine (List.mem_append.1 hother).imp id fun hother => ?_
    rw [List.mem_singleton.1 hother]
    exact ⟨rfl, rfl⟩
  obtain ⟨s', hs'⟩ : ∃ s' : NativeCore, s' = { s with
      scheduler := { s.scheduler with
        sequence := s.scheduler.sequence + 1
        queue := s.scheduler.queue ++
          [{ sequence := s.scheduler.sequence + 1, kind, callback := operation }] } } := ⟨_, rfl⟩
  -- The new operation is no release, so the queue promises one exactly when it did before.
  have hreleasing : s'.Releasing ↔ s.Releasing := by
    subst hs'
    constructor
    · rintro ⟨other, hother, hrelease⟩
      rcases hmem other hother with hother | ⟨hother, -⟩
      · exact ⟨other, hother, hrelease⟩
      · exact absurd (hother.symm.trans hrelease) hoperation
    · rintro ⟨other, hother, hrelease⟩
      exact ⟨other, List.mem_append_left _ hother, hrelease⟩
  rw [← hs']
  have hqueue : ∀ other ∈ s'.scheduler.queue,
      other ∈ s.scheduler.queue ∨ other.callback = operation ∧ other.kind = kind := by
    subst hs'
    exact hmem
  refine ⟨by rw [hs']; exact hnumbered, by rw [hs']; exact hs.running, by rw [hs']; exact hs.chat,
    by rw [hs']; exact hs.current, by rw [hs']; exact hs.below, ?_, ?_, ?_,
    by rw [hs']; exact hs.standing, ?_, ?_, ?_, by rw [hs']; exact hs.alone,
    by rw [hs']; exact hs.once⟩
  · intro other hother hrelease
    rcases hqueue other hother with hother | ⟨hother, -⟩
    · exact hs.control other hother hrelease
    · exact absurd (hother.symm.trans hrelease) hoperation
  · intro other hother hrequest
    rcases hqueue other hother with hother | ⟨hother, hk⟩
    · exact hs.humans other hother hrequest
    · rw [hother] at hrequest
      rw [hk, hkind hrequest]
  · intro other hother σ hσ
    have hepoch : s'.epoch = s.epoch := by rw [hs']
    rw [hepoch]
    rcases hqueue other hother with hother | ⟨hother, -⟩
    · exact hs.known other hother σ hσ
    · rw [hother] at hσ
      exact hknown σ hσ
  · rw [hreleasing]
    subst hs'
    exact hs.entering
  · rw [hreleasing]
    subst hs'
    exact hs.turning
  · rw [hreleasing]
    subst hs'
    exact hs.resident

/-! #### A session begins or ends -/

theorem epoch_le_update (f : ℕ → ℕ) (client c : ℕ) :
    f c ≤ Function.update f client (f client + 1) c := by
  by_cases hc : c = client
  · rw [hc, Function.update_self]
    exact Nat.le_succ _
  · rw [Function.update_of_ne hc]

theorem owns_of_none (h : s.human = none) : s.owns session = false := by
  cases howns : s.owns session with
  | false => rfl
  | true =>
      rw [(owns_iff.1 howns).1] at h
      cases h

/-- **A session that has ended is never taken up again.** -/
theorem Over.acquire (h : s.Over session) (client : ℕ) : (s.acquire client).Over session := by
  unfold NativeCore.acquire
  cases hhuman : s.human with
  | some owner => exact h
  | none =>
      refine ⟨h.1.trans (epoch_le_update _ _ _), ?_⟩
      refine Bool.eq_false_of_not_eq_true fun howns => ?_
      obtain ⟨hclient, hepoch⟩ := owns_iff.1 howns
      have hsame : client = session.client := Option.some.inj hclient
      dsimp only at hepoch
      rw [hsame, Function.update_self] at hepoch
      have := h.1
      omega

/-- The owner of the session leaves. -/
theorem release_cases (s : NativeCore) (client : ℕ) :
    s.human ≠ some client ∧ s.release client = s ∨
      s.human = some client ∧ ∃ s', Aside
        { s with
          human := none
          epoch := Function.update s.epoch client (s.epoch client + 1) } s' ∧
        s'.point = s.point ∧ s.release client = s'.scheduleRelease := by
  unfold release
  by_cases hhuman : s.human = some client
  · rw [if_pos hhuman]
    exact Or.inr ⟨hhuman, _, aside_cancelBackgrounds client none,
      point_cancelBackgrounds client none, rfl⟩
  · rw [if_neg hhuman]
    exact Or.inl ⟨hhuman, rfl⟩

theorem Over.release (h : s.Over session) (client : ℕ) : (s.release client).Over session := by
  rcases release_cases s client with ⟨-, hrelease⟩ | ⟨-, s', haside, -, hrelease⟩
  · rw [hrelease]
    exact h
  · rw [hrelease]
    refine ⟨?_, owns_of_none haside.human⟩
    show session.epoch ≤ s'.epoch session.client
    rw [haside.epoch]
    exact h.1.trans (epoch_le_update _ _ _)

theorem Isolated.acquire (hs : s.Isolated) (client : ℕ) : (s.acquire client).Isolated := by
  have hover : ∀ σ, s.Over σ → (s.acquire client).Over σ := fun σ h => h.acquire client
  unfold NativeCore.acquire at hover ⊢
  cases hhuman : s.human with
  | some owner => exact hs
  | none =>
      rw [hhuman] at hover
      refine ⟨hs.numbered, hs.running, hs.chat, hs.current, hs.below, hs.control, hs.humans, ?_, ?_,
        ?_, ?_, ?_, hs.alone, hs.once⟩
      · intro operation hmem σ hσ
        exact (hs.known operation hmem σ hσ).trans (epoch_le_update _ _ _)
      · intro σ hσ
        exact (hs.standing σ hσ).trans (epoch_le_update _ _ _)
      · intro operation σ hentered hσ hrequest
        exact (hs.entering operation σ hentered hσ hrequest).imp (hover σ) id
      · intro σ hσ
        refine Or.inr ((hs.turning σ hσ).resolve_left ?_)
        rw [owns_of_none hhuman]
        decide
      · intro hfailed a ha hcurrent
        refine Or.inr ((hs.resident hfailed a ha hcurrent).resolve_left ?_)
        rw [owns_of_none hhuman]
        decide

/-- A control operation is never refused while the core runs. -/
theorem submit_release (scheduler : PriorityScheduler CoreOperation)
    (hrunning : scheduler.stopping = false) :
    scheduler.submit OperationKind.control CoreOperation.releaseSession false =
      (Except.ok (),
        { scheduler with
          sequence := scheduler.sequence + 1
          queue := scheduler.queue ++
            [{ sequence := scheduler.sequence + 1, kind := OperationKind.control
               callback := CoreOperation.releaseSession }] }) := by
  rcases PriorityScheduler.submit_cases scheduler OperationKind.control
    CoreOperation.releaseSession false with ⟨e, -, hrefused⟩ | ⟨-, -, hsubmit⟩
  · rcases hrefused with hstopping | ⟨hkind, -⟩
    · rw [hrunning] at hstopping
      cases hstopping
    · exact absurd rfl hkind
  · exact hsubmit

theorem Isolated.release (hs : s.Isolated) (client : ℕ) : (s.release client).Isolated := by
  rcases release_cases s client with ⟨-, hrelease⟩ | ⟨hhuman, s', h, hpoint, hrelease⟩
  · rw [hrelease]
    exact hs
  rw [hrelease]
  have hnumbered := h.numbered hs.numbered
  have hrunning := h.stopping.trans hs.running
  have hsubmit := submit_release s'.scheduler hrunning
  have hnumbered' := hnumbered.submit OperationKind.control CoreOperation.releaseSession false
  unfold scheduleRelease NativeCore.submit
  rw [hsubmit] at hnumbered' ⊢
  have hmem : ∀ operation ∈ s'.scheduler.queue ++
      [{ sequence := s'.scheduler.sequence + 1, kind := OperationKind.control
         callback := CoreOperation.releaseSession }],
      (operation ∈ s.scheduler.queue ∨ operation.callback.Apart) ∨
        operation.callback = CoreOperation.releaseSession ∧
          operation.kind = OperationKind.control := by
    intro operation hoperation
    refine (List.mem_append.1 hoperation).imp h.mem fun hoperation => ?_
    rw [List.mem_singleton.1 hoperation]
    exact ⟨rfl, rfl⟩
  have hepoch : ∀ c, s.epoch c ≤ s'.epoch c := by
    intro c
    rw [h.epoch]
    exact epoch_le_update _ _ _
  -- From here on the release waits in the queue, which is what excuses the old session.
  have hreleasing : ∃ operation ∈ s'.scheduler.queue ++
      [{ sequence := s'.scheduler.sequence + 1, kind := OperationKind.control
         callback := CoreOperation.releaseSession }],
      operation.callback = CoreOperation.releaseSession :=
    ⟨_, List.mem_append_right _ (List.mem_singleton_self _), rfl⟩
  refine ⟨hnumbered', hrunning, ?_, ?_, ?_, ?_, ?_, ?_, ?_, ?_, ?_, ?_, ?_, ?_⟩
  · show s'.chat.closed = false
    rw [h.chat]
    exact hs.chat
  · show ∃ c, s'.current = some c ∧ c < s'.chat.clones
    rw [h.current, h.chat]
    exact hs.current
  · show ∀ a ∈ s'.history.asked, ∃ c, a.1 = some c ∧ c < s'.chat.clones
    rw [h.asked, h.chat]
    exact hs.below
  · intro operation hoperation hcallback
    rcases hmem operation hoperation with (hold | happart) | ⟨-, hkind⟩
    · exact hs.control operation hold hcallback
    · exact absurd hcallback happart.2
    · exact hkind
  · intro operation hoperation hrequest
    rcases hmem operation hoperation with (hold | happart) | ⟨hcallback, -⟩
    · exact hs.humans operation hold hrequest
    · rw [happart.request] at hrequest
      cases hrequest
    · rw [hcallback] at hrequest
      cases hrequest
  · intro operation hoperation σ hσ
    rcases hmem operation hoperation with (hold | happart) | ⟨hcallback, -⟩
    · exact (hs.known operation hold σ hσ).trans (hepoch _)
    · rw [happart.1] at hσ
      cases hσ
    · rw [hcallback] at hσ
      cases hσ
  · show ∀ σ, s'.point.session? = some σ → σ.epoch ≤ s'.epoch σ.client
    rw [hpoint]
    exact fun σ hσ => (hs.standing σ hσ).trans (hepoch _)
  -- Nobody is connected any more, so no session owns what has been entered.
  · show ∀ operation σ, s'.point.entered? = some operation → _
    rw [hpoint]
    intro operation σ hentered hσ _
    refine Or.inl ⟨?_, owns_of_none h.human⟩
    refine (hs.standing σ ?_).trans (hepoch _)
    cases hp : s.point with
    | entered other =>
        rw [hp] at hentered
        cases hentered
        exact hσ
    | _ =>
        rw [hp] at hentered
        cases hentered
  · exact fun σ _ => Or.inr hreleasing
  · exact fun _ a _ _ => Or.inr (Or.inl hreleasing)
  · show s'.history.releaseFailed = false → ∀ σ, s'.point.manages? = some σ →
      ∀ a ∈ s'.history.asked, a.1 = s'.current → a.2 = σ
    rw [h.releaseFailed, h.asked, h.current, hpoint]
    exact hs.alone
  · show s'.history.releaseFailed = false → ∀ a ∈ s'.history.asked, ∀ b ∈ s'.history.asked,
      a.1 = b.1 → a.2 = b.2
    rw [h.releaseFailed, h.asked]
    exact hs.once

/-! #### The conversation changes -/

/-- The conversation stays, or a clone takes its place that nobody has used. -/
def Renewed (chat chat' : ConversationChat) : Prop :=
  chat'.closed = false ∧
    (chat'.working.map Dialogue.clone = chat.working.map Dialogue.clone ∧
        chat.clones ≤ chat'.clones ∨
      chat'.working.map Dialogue.clone = some chat.clones ∧ chat'.clones = chat.clones + 1)

theorem renewed_newDialogue {chat : ConversationChat} (hopen : chat.closed = false)
    (env : AgentEnv) : Renewed chat (chat.newDialogue env).2 := by
  rcases @ConversationChat.newDialogue_cases env chat hopen with h | ⟨message, chat', h, hchat⟩
  · rw [h]
    exact ⟨hopen, Or.inr ⟨rfl, rfl⟩⟩
  · rw [h]
    rcases hchat with rfl | rfl
    · exact ⟨hopen, Or.inl ⟨rfl, Nat.le_succ _⟩⟩
    · exact ⟨hopen, Or.inr ⟨rfl, rfl⟩⟩

/-- If the base is cloned, the conversation is a new one. -/
theorem fresh_newDialogue {chat : ConversationChat} (hopen : chat.closed = false) {env : AgentEnv}
    (hclone : (chat.cloneBase env).isOk = true) :
    (chat.newDialogue env).2.working.map Dialogue.clone = some chat.clones := by
  unfold ConversationChat.newDialogue
  rw [if_neg (by rw [hopen]; decide)]
  cases h : chat.cloneBase env with
  | error message =>
      rw [h] at hclone
      cases hclone
  | ok d =>
      unfold ConversationChat.cloneBase at h
      cases henv : env.clone with
      | error message =>
          rw [henv] at h
          cases h
      | ok kv =>
          rw [henv] at h
          dsimp only at h
          split_ifs at h
          cases h
          rfl

/-- What was asked stays below the clones. -/
theorem Isolated.below_of_renewed (hs : s.Isolated) {chat : ConversationChat}
    (hchat : Renewed s.chat chat) :
    (∃ c, chat.working.map Dialogue.clone = some c ∧ c < chat.clones) ∧
      ∀ a ∈ s.history.asked, ∃ c, a.1 = some c ∧ c < chat.clones := by
  have hle : s.chat.clones ≤ chat.clones := by
    rcases hchat.2 with ⟨-, hle⟩ | ⟨-, hclones⟩
    · exact hle
    · omega
  refine ⟨?_, ?_⟩
  · rcases hchat.2 with ⟨hsame, hle⟩ | ⟨hfresh, hclones⟩
    · obtain ⟨c, hc, hlt⟩ := hs.current
      exact ⟨c, hsame.trans hc, hlt.trans_le hle⟩
    · exact ⟨_, hfresh, by omega⟩
  · intro a ha
    obtain ⟨c, hc, hlt⟩ := hs.below a ha
    exact ⟨c, hc, hlt.trans_le hle⟩

/-- What was asked in the new conversation was asked in the old one. -/
theorem Isolated.asked_of_renewed (hs : s.Isolated) {chat : ConversationChat}
    (hchat : Renewed s.chat chat) {a : Option ℕ × CoreSession} (ha : a ∈ s.history.asked)
    (hcurrent : a.1 = chat.working.map Dialogue.clone) : a.1 = s.current := by
  rcases hchat.2 with ⟨hsame, -⟩ | ⟨hfresh, -⟩
  · exact hcurrent.trans hsame
  · obtain ⟨c, hc, hlt⟩ := hs.below a ha
    rw [hc, hfresh] at hcurrent
    have := Option.some.inj hcurrent
    omega

theorem Isolated.renewed (hs : s.Isolated) {chat : ConversationChat}
    (hchat : Renewed s.chat chat) : Isolated { s with chat } :=
  ⟨hs.numbered, hs.running, hchat.1, (hs.below_of_renewed hchat).1, (hs.below_of_renewed hchat).2,
    hs.control, hs.humans, hs.known, hs.standing, hs.entering, hs.turning,
    fun hfailed a ha hcurrent => hs.resident hfailed a ha (hs.asked_of_renewed hchat ha hcurrent),
    fun hfailed σ hσ a ha hcurrent =>
      hs.alone hfailed σ hσ a ha (hs.asked_of_renewed hchat ha hcurrent),
    hs.once⟩

theorem Isolated.resetChat (hs : s.Isolated) (env : CoreEnv) : (s.resetChat env).Isolated :=
  hs.renewed (renewed_newDialogue hs.chat env.native)

/-- **The end of a session.**  What was asked before is in another conversation, or the failure is
noted. -/
theorem Isolated.releaseSession (hs : s.Isolated) (env : CoreEnv) :
    (s.releaseSession env).done.Isolated := by
  have hchat := renewed_newDialogue hs.chat env.native
  have hfailed : (s.history.releaseFailed || !s.clones env) = false →
      s.history.releaseFailed = false ∧ ∀ a ∈ s.history.asked,
        a.1 ≠ (s.chat.newDialogue env.native).2.working.map Dialogue.clone := by
    intro h
    rw [Bool.or_eq_false_iff, Bool.not_eq_false'] at h
    refine ⟨h.1, fun a ha hcurrent => ?_⟩
    obtain ⟨c, hc, hlt⟩ := hs.below a ha
    rw [hc, fresh_newDialogue hs.chat h.2] at hcurrent
    have := Option.some.inj hcurrent
    omega
  refine ⟨⟨hs.numbered.increasing, hs.numbered.given⟩, hs.running, hchat.1,
    (hs.below_of_renewed hchat).1, (hs.below_of_renewed hchat).2, hs.control, hs.humans, hs.known,
    nofun, nofun, nofun, ?_, ?_, ?_⟩
  · exact fun h a ha hcurrent => absurd hcurrent ((hfailed h).2 a ha)
  · exact fun h σ hσ => nomatch hσ
  · exact fun h => hs.once (hfailed h).1

/-- **The next operation.** -/
theorem Isolated.pop (hs : s.Isolated) (hidle : s.point = CorePoint.idle)
    {operation : Operation CoreOperation} {scheduler : PriorityScheduler CoreOperation}
    (hpop : s.scheduler.pop = some (operation, scheduler)) :
    Isolated { s with scheduler, point := CorePoint.entered operation.callback } := by
  have hnumbered := hs.numbered.pop hpop
  obtain ⟨before, after, hqueue, hbefore, hafter, rfl⟩ :=
    PriorityScheduler.pop_cases hs.numbered hpop
  have hmem : operation ∈ s.scheduler.queue := by
    rw [hqueue]
    exact List.mem_append_right _ List.mem_cons_self
  have hold : ∀ other ∈ before ++ after, other ∈ s.scheduler.queue := by
    intro other hother
    rw [hqueue]
    rcases List.mem_append.1 hother with hother | hother
    · exact List.mem_append_left _ hother
    · exact List.mem_append_right _ (List.mem_cons_of_mem _ hother)
  have hreleasing : s.Releasing → (∃ other ∈ before ++ after,
      other.callback = CoreOperation.releaseSession) ∨
        operation.callback = CoreOperation.releaseSession := by
    rintro ⟨other, hother, hrelease⟩
    rw [hqueue] at hother
    rcases List.mem_append.1 hother with hother | hother
    · exact Or.inl ⟨other, List.mem_append_left _ hother, hrelease⟩
    · rcases List.mem_cons.1 hother with rfl | hother
      · exact Or.inr hrelease
      · exact Or.inl ⟨other, List.mem_append_right _ hother, hrelease⟩
  refine ⟨hnumbered, hs.running, hs.chat, hs.current, hs.below,
    fun other hother => hs.control other (hold other hother),
    fun other hother => hs.humans other (hold other hother),
    fun other hother => hs.known other (hold other hother),
    fun σ hσ => hs.known operation hmem σ hσ, ?_, nofun, ?_, nofun, hs.once⟩
  · -- a request is not taken up before a control operation
    rintro entered σ hentered hσ hrequest
    cases hentered
    refine Or.inr ?_
    rintro ⟨other, hother, hrelease⟩
    have hpriority : operation.kind.priority = 0 := by
      rw [hs.humans operation hmem hrequest]
      rfl
    have hpriority' : other.kind.priority = -10 := by
      rw [hs.control other (hold other hother) hrelease]
      rfl
    rcases List.mem_append.1 hother with hother | hother
    · have := hbefore other hother
      omega
    · have := hafter other hother
      omega
  · intro hfailed a ha hcurrent
    refine (hs.resident hfailed a ha hcurrent).imp id fun h => ?_
    rcases h with h | h
    · exact (hreleasing h).imp id fun h => congrArg some h
    · rw [hidle] at h
      cases h

/-! #### The steps of the thread -/

/-- **A request of the session is taken up.**  Nobody else has used the conversation. -/
theorem Isolated.begin (hs : s.Isolated) {point : CorePoint} (howns : s.owns session = true)
    (hnot : ¬s.Releasing) (hnone : s.point.entered? ≠ some CoreOperation.releaseSession)
    (hstanding : s.point.session? = some session) (hsession : point.session? = some session)
    (hmanages : ∀ σ, point.manages? = some σ → σ = session) (hentered : point.entered? = none) :
    (s.goto point).Isolated := by
  refine ⟨hs.numbered, hs.running, hs.chat, hs.current, hs.below, hs.control, hs.humans, hs.known,
    ?_, ?_, ?_, ?_, ?_, hs.once⟩
  · intro σ hσ
    have hsame : σ = session := Option.some.inj (hσ.symm.trans hsession)
    rw [hsame]
    exact hs.standing session hstanding
  · intro operation σ h
    have : point.entered? = some operation := h
    rw [hentered] at this
    cases this
  · intro σ hσ
    rw [hmanages σ hσ]
    exact Or.inl howns
  · intro hfailed a ha hcurrent
    exact Or.inl ((hs.resident hfailed a ha hcurrent).resolve_right (not_or.2 ⟨hnot, hnone⟩))
  · intro hfailed σ hσ a ha hcurrent
    rw [hmanages σ hσ]
    exact owns_unique
      ((hs.resident hfailed a ha hcurrent).resolve_right (not_or.2 ⟨hnot, hnone⟩)) howns

theorem Isolated.enterModelWorker (hs : s.Isolated) {requestId text : PyStr}
    {agentId : Option PyStr}
    (hpoint : s.point = CorePoint.entered
      (CoreOperation.modelWorker session requestId text agentId)) :
    (s.enterModelWorker session requestId text agentId).Isolated := by
  have hnone : s.point.entered? ≠ some CoreOperation.releaseSession := by
    rw [hpoint]
    exact nofun
  have hstanding : s.point.session? = some session := by
    rw [hpoint]
    rfl
  have hrecorded := hs.recorded s.history.accepted ((requestId, session) :: s.history.begun)
    s.history.answered s.history.probes
  unfold NativeCore.enterModelWorker
  cases howns : s.owns session with
  | false =>
      rw [if_pos rfl]
      exact hs.done hnone
  | true =>
      rw [if_neg (by decide)]
      have hnot : ¬s.Releasing := by
        have hentering := hs.entering (CoreOperation.modelWorker session requestId text agentId)
          session (by rw [hpoint]; rfl) rfl rfl
        refine hentering.resolve_left fun hover => ?_
        rw [hover.2] at howns
        cases howns
      cases agentId with
      | some agentId => exact hrecorded.begin howns hnot hnone hstanding rfl nofun rfl
      | none =>
          exact hrecorded.begin howns hnot hnone hstanding rfl
            (fun σ hσ => (Option.some.inj hσ).symm) rfl

/-- The manager is asked for the session whose turn it is. -/
theorem Isolated.askManager (hs : s.Isolated) (hmanages : s.point.manages? = some session)
    (env : CoreEnv) : (s.askManager env session).Isolated := by
  obtain ⟨hclosed, -, hclones, hclone⟩ :=
    @ConversationChat.sameClone_ask env.native (question s.manager) s.chat
  have hrenewed : Renewed s.chat (s.chat.ask env.native (question s.manager)).2 :=
    ⟨hclosed.trans hs.chat, Or.inl ⟨hclone, hclones.ge⟩⟩
  have hs' := hs.renewed hrenewed
  refine ⟨hs'.numbered, hs'.running, hs'.chat, hs'.current, ?_, hs'.control, hs'.humans, hs'.known,
    hs'.standing, hs'.entering, hs'.turning, ?_, ?_, ?_⟩
  · intro a ha
    rcases List.mem_cons.1 ha with rfl | ha
    · obtain ⟨c, hc, hlt⟩ := hs.current
      exact ⟨c, hc, hlt.trans_le hclones.ge⟩
    · exact hs'.below a ha
  · intro hfailed a ha hcurrent
    rcases List.mem_cons.1 ha with rfl | ha
    · exact (hs.turning session hmanages).imp id Or.inl
    · exact hs'.resident hfailed a ha hcurrent
  · intro hfailed σ hσ a ha hcurrent
    rcases List.mem_cons.1 ha with rfl | ha
    · exact Option.some.inj (hmanages.symm.trans hσ)
    · exact hs'.alone hfailed σ hσ a ha hcurrent
  · intro hfailed a ha b hb hab
    rcases List.mem_cons.1 ha with rfl | ha
    · rcases List.mem_cons.1 hb with rfl | hb
      · rfl
      · exact (hs.alone hfailed session hmanages b hb hab.symm).symm
    · rcases List.mem_cons.1 hb with rfl | hb
      · exact hs.alone hfailed session hmanages a ha hab
      · exact hs.once hfailed a ha b hb hab

/-- The manager goes on. -/
theorem aside_manager (manager : NativeManager) : Aside s { s with manager } :=
  aside_of_eq rfl rfl rfl ⟨rfl, rfl, rfl⟩ rfl rfl rfl rfl rfl rfl

theorem point_runAgent (env : CoreEnv) (agentId task : PyStr) :
    (s.runAgent env agentId task).2.point = s.point := by
  unfold runAgent
  cases s.agents.get? agentId with
  | none => rfl
  | some r =>
      dsimp only
      split_ifs
      · rfl
      · rfl

/-- The turn is over. -/
theorem ahead_answer (requestId : PyStr) (turn : ManagerTurn) :
    (CorePoint.managing session requestId).Ahead (CorePoint.answer session requestId turn) :=
  ⟨fun _ => id, nofun, fun _ => id, nofun, nofun⟩

theorem Isolated.manage (hs : s.Isolated) {requestId : PyStr}
    (hpoint : s.point = CorePoint.managing session requestId) (env : CoreEnv) :
    (s.manage env session requestId).Isolated := by
  have hmanages : s.point.manages? = some session := by
    rw [hpoint]
    rfl
  have hahead : ∀ turn, s.point.Ahead (CorePoint.answer session requestId turn) := by
    rw [hpoint]
    exact ahead_answer requestId
  unfold NativeCore.manage
  cases s.manager.point with
  | idle =>
      dsimp only
      cases s.manager.last with
      | none => exact hs.goto (hahead _)
      | some result =>
          cases result with
          | ok turn => exact hs.goto (hahead _)
          | error text => exact (hs.resetChat env).goto (hahead _)
  | plain => exact hs.askManager hmanages env
  | asking => exact hs.askManager hmanages env
  | running results item rest =>
      have haside := aside_runAgent (s := s) env item.agentId item.task
      have hsame := point_runAgent (s := s) env item.agentId item.task
      refine hs.aside (haside.trans (aside_manager _)) ?_
      show s.point.Ahead (s.runAgent env item.agentId item.task).2.point
      rw [hsame]
      exact CorePoint.Ahead.refl _
  | _ => exact hs.aside (aside_manager _) (CorePoint.Ahead.refl _)

theorem Isolated.respond (hs : s.Isolated) {requestId text : PyStr}
    (hpoint : s.point = CorePoint.turn session requestId text) (env : CoreEnv) :
    ((s.respond env text).goto (CorePoint.managing session requestId)).Isolated := by
  have hahead : s.point.Ahead (CorePoint.managing session requestId) := by
    rw [hpoint]
    exact ⟨fun _ => id, fun _ => id, fun _ => id, nofun, nofun⟩
  unfold NativeCore.respond
  dsimp only
  by_cases hnew : PyStr.strip text = PyStr.ofString "/new"
  · rw [if_pos hnew]
    exact (hs.resetChat env).aside ((aside_manager _).trans (aside_goto _)) hahead
  · rw [if_neg hnew]
    exact hs.aside ((aside_manager _).trans (aside_goto _)) hahead

/-- **The callback of an operation.** -/
theorem Isolated.enter (hs : s.Isolated) {operation : CoreOperation}
    (hpoint : s.point = CorePoint.entered operation) (env : CoreEnv) :
    (s.enter env operation).Isolated := by
  have hnone : operation ≠ CoreOperation.releaseSession →
      s.point.entered? ≠ some CoreOperation.releaseSession := by
    rw [hpoint]
    exact fun h h' => h (Option.some.inj h')
  cases operation with
  | releaseSession => exact hs.releaseSession env
  | clearContext agentId jobId =>
      exact hs.aside ((aside_abortSlices env agentId).trans (aside_goto _))
        (CorePoint.Quiet.ahead ⟨rfl, rfl, rfl, rfl⟩ (hnone nofun))
  | clearTimedOut agentId jobId =>
      exact hs.aside ((aside_abortSlices env agentId).trans (aside_goto _))
        (CorePoint.Quiet.ahead ⟨rfl, rfl, rfl, rfl⟩ (hnone nofun))
  | modelWorker session requestId text agentId => exact hs.enterModelWorker hpoint
  | hardwareProbe session eventId agentId task =>
      unfold NativeCore.enter
      dsimp only
      by_cases howns : s.owns session = true
      · rw [if_pos howns]
        refine hs.goto ⟨?_, nofun, nofun, nofun, fun h => absurd h (hnone nofun)⟩
        rw [hpoint]
        exact fun _ => id
      · rw [if_neg howns]
        exact hs.done (hnone nofun)
  | backgroundStep jobId =>
      exact hs.aside (aside_enterBackgroundStep env jobId)
        ((quiet_enterBackgroundStep env jobId).ahead (hnone nofun))
  | execute agentId task =>
      exact hs.aside (aside_enterExecute env agentId task)
        ((quiet_enterExecute env agentId task).ahead (hnone nofun))

/-- **The next step of the thread.** -/
theorem Isolated.advance (hs : s.Isolated) (env : CoreEnv) : (s.advance env).Isolated := by
  unfold NativeCore.advance
  cases hpoint : s.point with
  | idle =>
      dsimp only
      cases hpop : s.scheduler.pop with
      | none => exact hs
      | some p =>
          obtain ⟨operation, scheduler⟩ := p
          exact hs.pop hpoint hpop
  | entered operation => exact hs.enter hpoint env
  | turn session requestId text => exact hs.respond hpoint env
  | managing session requestId => exact hs.manage hpoint env
  | agentTask session requestId text agentId =>
      refine hs.aside ((aside_runAgent env agentId text).trans (aside_goto _)) ?_
      rw [hpoint]
      exact ⟨fun _ => id, nofun, fun _ => id, nofun, nofun⟩
  | answer session requestId turn =>
      -- The answer is no release, so the thread may leave it.
      have hnone : s.point.entered? ≠ some CoreOperation.releaseSession := by
        rw [hpoint]
        exact nofun
      dsimp only
      split_ifs
      · exact (hs.recorded s.history.accepted s.history.begun
          ((requestId, session) :: s.history.answered) s.history.probes).done hnone
      · exact hs.done hnone
  | slice jobId agentId instruction final =>
      refine hs.aside (aside_callSlice env jobId agentId instruction final)
        ((quiet_callSlice env jobId agentId instruction final).ahead ?_)
      rw [hpoint]
      exact nofun
  | sliced jobId final ok text =>
      refine hs.aside (aside_leaveSlice env jobId final ok text)
        ((quiet_leaveSlice env jobId final ok text).ahead ?_)
      rw [hpoint]
      exact nofun
  | aborted jobId timedOut error =>
      refine hs.aside (aside_leaveClear env jobId timedOut error)
        ((quiet_leaveClear env jobId timedOut error).ahead ?_)
      rw [hpoint]
      exact nofun
  | probe session eventId agentId task =>
      refine hs.aside ((aside_runAgent env agentId task).trans (aside_goto _)) ?_
      rw [hpoint]
      exact ⟨fun _ => id, nofun, nofun, nofun, nofun⟩
  | probed session eventId =>
      have hnone : s.point.entered? ≠ some CoreOperation.releaseSession := by
        rw [hpoint]
        exact nofun
      dsimp only
      split_ifs
      · exact (hs.recorded s.history.accepted s.history.begun s.history.answered
          ((eventId, session) :: s.history.probes)).done hnone
      · exact hs.done hnone
  | tasking agentId task =>
      refine hs.aside ((aside_runAgent env agentId task).trans
        (aside_of_eq rfl rfl rfl ⟨rfl, rfl, rfl⟩ rfl rfl rfl rfl rfl rfl))
        (CorePoint.quiet_idle.ahead ?_)
      rw [hpoint]
      exact nofun

theorem Isolated.user (hs : s.Isolated) (client : ℕ) (requestId text : PyStr)
    (agentId : Option PyStr) : (s.user client requestId text agentId).Isolated := by
  have hsubmit : (s.submit OperationKind.human
      (CoreOperation.modelWorker ⟨client, s.epoch client⟩ requestId text agentId)
      false).Isolated := by
    refine hs.submit ?_ (fun _ => rfl) ?_ false
    · exact nofun
    · intro σ hσ
      rw [← Option.some.inj hσ]
  unfold NativeCore.user
  dsimp only
  split_ifs
  · exact hs
  · exact hsubmit.recorded ((requestId, ⟨client, s.epoch client⟩) :: s.history.accepted)
      s.history.begun s.history.answered s.history.probes

theorem Isolated.hardware (hs : s.Isolated) (client : ℕ) (eventId agentId task : PyStr) :
    (s.hardware client eventId agentId task).Isolated := by
  unfold NativeCore.hardware
  dsimp only
  split_ifs
  · exact hs
  · refine hs.submit ?_ ?_ ?_ false
    · intro h
      cases h
    · intro h
      cases h
    · intro σ hσ
      rw [← Option.some.inj hσ]

/-- **Every step keeps the invariant.** -/
theorem isolated_step (hs : s.Isolated) (i : Input) : (s.step i).Isolated := by
  cases i with
  | acquire client => exact hs.acquire client
  | release client => exact hs.release client
  | user client requestId text agentId => exact hs.user client requestId text agentId
  | background client jobId agentId steps runtime now =>
      refine hs.aside (aside_background client jobId agentId steps runtime now) ?_
      show s.point.Ahead (s.background client jobId agentId steps runtime now).point
      rw [point_background]
      exact CorePoint.Ahead.refl _
  | cancelBackground client jobId =>
      show (s.cancelBackground client jobId).Isolated
      unfold cancelBackground
      split_ifs
      · refine hs.aside (aside_cancelBackgrounds client (some jobId)) ?_
        rw [point_cancelBackgrounds]
        exact CorePoint.Ahead.refl _
      · exact hs
  | hardware client eventId agentId task => exact hs.hardware client eventId agentId task
  | offer mqtt agentId task =>
      refine hs.aside (aside_offer mqtt agentId task) ?_
      show s.point.Ahead (s.offer mqtt agentId task).point
      rw [point_offer]
      exact CorePoint.Ahead.refl _
  | advance env => exact hs.advance env

theorem isolated_init (h : s.Initial) : s.Isolated := by
  obtain ⟨maxPending, hscheduler⟩ := h.scheduler
  obtain ⟨kv, hchat⟩ := h.chat
  have hqueue : s.scheduler.queue = [] := by rw [hscheduler]; rfl
  have hasked : s.history.asked = [] := by rw [h.history]
  refine ⟨?_, ?_, ?_, ?_, ?_, ?_, ?_, ?_, ?_, ?_, ?_, ?_, ?_, ?_⟩
  · rw [hscheduler]
    exact PriorityScheduler.numbered_create maxPending
  · rw [hscheduler]
    rfl
  · rw [hchat]
  · unfold current
    rw [hchat]
    exact ⟨0, rfl, Nat.one_pos⟩
  · rw [hasked]
    exact nofun
  · rw [hqueue]
    exact nofun
  · rw [hqueue]
    exact nofun
  · rw [hqueue]
    exact nofun
  · rw [h.point]
    exact nofun
  · rw [h.point]
    exact nofun
  · rw [h.point]
    exact nofun
  · rw [hasked]
    exact nofun
  · rw [hasked]
    exact nofun
  · rw [hasked]
    exact nofun

theorem isolated_of_reachable (h : machine.Reachable s) : s.Isolated :=
  h.invariant (fun _ => isolated_init) fun _ i _ hs => isolated_step hs i

/-- **A conversation of the manager serves one session only.**  As long as the end of no session has
failed to replace it, two questions in one conversation were asked for the same session. -/
theorem sessions_isolated (h : machine.Reachable s) (hfailed : s.history.releaseFailed = false) :
    ∀ a ∈ s.history.asked, ∀ b ∈ s.history.asked, a.1 = b.1 → a.2 = b.2 :=
  (isolated_of_reachable h).once hfailed

/-! #### Two sessions, one after the other -/

/-- The conversation of a new model. -/
def newChat : ConversationChat where
  closed := false
  baseKvTokens := none
  clones := 1
  working := some { clone := 0, kv := none, sent := [] }

/-- A CORE with one agent, to which its manager may delegate. -/
def newCore : NativeCore where
  human := none
  epoch := fun _ => 0
  scheduler := PriorityScheduler.create 16
  jobs := PyDict.empty
  backgrounds := []
  reserved := []
  manager :=
    { closed := false
      broker := some
        { agentIds := [PyStr.ofString "agent_1"], periodicController := false, enabled := true
          turnActive := false, count := 0, pending := [] }
      taskTurn := none
      point := TurnPoint.idle
      log := []
      last := none }
  chat := newChat
  agents := PyDict.empty.set (PyStr.ofString "agent_1")
    { agent :=
        { agentId := PyStr.ofString "agent_1", chat := newChat, state := AgentState.free
          closed := false }
      lastSlice := none
      resetFailed := false }
  point := CorePoint.idle
  history :=
    { releaseFailed := false, asked := [], accepted := [], begun := [], answered := []
      probes := [], uses := [], slices := [], ended := [], stranded := [] }

theorem initial_newCore : newCore.Initial where
  human := rfl
  scheduler := ⟨16, rfl⟩
  jobs := rfl
  backgrounds := rfl
  reserved := rfl
  manager := by
    let broker : DelegationBroker :=
      { agentIds := [PyStr.ofString "agent_1"], periodicController := false, enabled := false
        turnActive := false, count := 0, pending := [] }
    refine ⟨{ newCore.manager with broker := some broker }, true,
      ⟨fun b hb => ?_, by decide, rfl, rfl, rfl, rfl⟩, rfl⟩
    cases hb
    exact ⟨[PyStr.ofString "agent_1"], false, rfl⟩
  chat := ⟨none, rfl⟩
  agents := by
    intro id r h
    have hset : (PyDict.empty.set (PyStr.ofString "agent_1") _).get? id = some r := h
    rw [PyDict.get?_set] at hset
    split_ifs at hset with hid
    · cases hset
      exact ⟨PyStr.ofString "agent_1", none, rfl⟩
    · cases hset
  point := rfl
  history := rfl

/-- Every call succeeds, but the base may not be cloned; the manager calls some tools. -/
def sampleEnv (clone : Except PyStr (Option ℕ)) (tools : List (EnqueueArgs × Json)) : CoreEnv where
  native :=
    { picture := Except.ok (), send := Except.ok (PyStr.ofString "Miau."), toolsFailed := false
      kv := none, clone := clone, closeOld := Except.ok () }
  tools := tools
  now := 0
  progress := SendOutcome.sent
  terminal := SendOutcome.sent
  allowed := true

/-- Steps of the thread in which no tool is called. -/
def advances (n : ℕ) (clone : Except PyStr (Option ℕ)) : List Input :=
  List.replicate n (Input.advance (sampleEnv clone []))

/-- A call that delegates a task to the agent. -/
def delegate : EnqueueArgs × Json :=
  ({ agentId := Json.str (PyStr.ofString "agent_1"), task := Json.str (PyStr.ofString "los") },
    Json.null)

/-- A message, until it is answered; when it is asked first, the manager calls some tools. -/
def message (client : ℕ) (clone : Except PyStr (Option ℕ)) (tools : List (EnqueueArgs × Json)) :
    List Input :=
  Input.user client (PyStr.ofString "r") (PyStr.ofString "Hallo") none :: advances 3 clone ++
    [Input.advance (sampleEnv clone tools)] ++ advances 8 clone

/-- A session with some messages, each of which is asked and answered before the next one; then the
client leaves. -/
def talk (client : ℕ) (messages : List (List (EnqueueArgs × Json)))
    (clone : Except PyStr (Option ℕ)) : List Input :=
  [Input.acquire client] ++ messages.flatMap (message client clone) ++
    [Input.release client] ++ advances 2 clone

/-- Two sessions, the first with two messages; for the first one the manager delegates a task. -/
def twoSessions : List Input :=
  talk 0 [[delegate], []] (Except.ok none) ++ talk 1 [[]] (Except.ok none)

/-- The manager is asked again when the agent has run, in the same conversation; so is the next
message of the session, and the next session has another conversation. -/
theorem sessions_isolated_two :
    (machine.exec newCore twoSessions).history.asked.map Prod.fst =
        [some 1, some 0, some 0, some 0] ∧
      (machine.exec newCore twoSessions).history.uses.length = 1 ∧
      ((machine.exec newCore twoSessions).history.asked.getD 1 (none, ⟨0, 0⟩)).2 =
        ((machine.exec newCore twoSessions).history.asked.getD 3 (none, ⟨0, 0⟩)).2 := by
  refine ⟨by decide +kernel, by decide +kernel, ?_⟩
  have hreach : machine.Reachable (machine.exec newCore twoSessions) :=
    Machine.Reachable.exec (Machine.Reach.of_init initial_newCore) twoSessions
  exact sessions_isolated hreach (by decide +kernel) _ (by decide +kernel) _ (by decide +kernel)
    (by decide +kernel)

/-- If the base cannot be cloned at the end of a session, the next one goes on in its
conversation. -/
theorem not_sessions_isolated : ∃ s, machine.Reachable s ∧
    ∃ a ∈ s.history.asked, ∃ b ∈ s.history.asked, a.1 = b.1 ∧ a.2 ≠ b.2 := by
  refine ⟨machine.exec newCore
    (talk 0 [[]] (Except.error (PyStr.ofString "no memory")) ++ talk 1 [[]] (Except.ok none)),
    Machine.Reachable.exec (Machine.Reach.of_init initial_newCore) _, (some 0, ⟨1, 1⟩), ?_,
    (some 0, ⟨0, 1⟩), ?_, rfl, by decide⟩
  · decide
  · decide

/-! ### The requests -/

/-- The request that an operation of the queue serves. -/
def served (operation : Operation CoreOperation) : Option (PyStr × CoreSession) :=
  operation.callback.request?

/-- The requests that wait. -/
def requests (s : NativeCore) : List (PyStr × CoreSession) := s.scheduler.queue.filterMap served

/-- The request that the thread has taken out of the queue. -/
def taken (s : NativeCore) : Option (PyStr × CoreSession) :=
  s.point.entered?.bind CoreOperation.request?

/-- The invariant of the requests: each of them waits, or has been taken, or is gone; what has begun
is among those that are gone, and what was answered is among what has begun. -/
structure Ordered (s : NativeCore) : Prop where
  accepted : ∃ gone, s.history.accepted.reverse = gone ++ (s.taken.toList ++ s.requests) ∧
    s.history.begun.reverse.Sublist gone
  answered : (s.point.request?.toList ++ s.history.answered).Sublist s.history.begun

/-- **A step that neither accepts nor takes nor begins nor answers a request.** -/
theorem Ordered.frame (hs : s.Ordered) (hrequests : s'.requests = s.requests)
    (haccepted : s'.history.accepted = s.history.accepted)
    (hbegun : s'.history.begun = s.history.begun)
    (hanswered : s'.history.answered = s.history.answered)
    (hrequest : ∀ r, s'.point.request? = some r → s.point.request? = some r)
    (hentered : ∀ operation, s'.point.entered? = some operation →
      s.point.entered? = some operation) : s'.Ordered where
  accepted := by
    rw [hrequests, haccepted, hbegun]
    obtain ⟨gone, hgone, hsub⟩ := hs.accepted
    cases h : s'.point.entered? with
    | some operation =>
        have hsame : s'.taken = s.taken := by
          unfold taken
          rw [h, hentered operation h]
        rw [hsame]
        exact ⟨gone, hgone, hsub⟩
    | none =>
        have hnone : s'.taken = none := by
          unfold taken
          rw [h]
          rfl
        rw [hnone]
        refine ⟨gone ++ s.taken.toList, ?_, hsub.trans (List.sublist_append_left _ _)⟩
        rw [hgone, List.append_assoc]
        rfl
  answered := by
    rw [hbegun, hanswered]
    cases h : s'.point.request? with
    | none => exact (List.sublist_append_right _ _).trans hs.answered
    | some r =>
        have := hs.answered
        rw [hrequest r h] at this
        exact this

theorem Aside.requests (h : Aside s s') : s'.requests = s.requests := by
  obtain ⟨l, hl, happart⟩ := h.queue
  have hnone : l.filterMap served = [] :=
    List.filterMap_eq_nil_iff.2 fun operation hmem => (happart operation hmem).request
  unfold NativeCore.requests
  rw [hl, List.filterMap_append, hnone, List.append_nil]

theorem Ordered.aside (hs : s.Ordered) (h : Aside s s') (hpoint : s.point.Ahead s'.point) :
    s'.Ordered :=
  hs.frame h.requests h.accepted h.begun h.answered hpoint.request hpoint.entered

theorem Ordered.goto (hs : s.Ordered) {point : CorePoint} (hpoint : s.point.Ahead point) :
    (s.goto point).Ordered := hs.aside (aside_goto point) hpoint

theorem Ordered.done (hs : s.Ordered) : s.done.Ordered :=
  hs.frame rfl rfl rfl rfl nofun nofun

/-- An operation is submitted that serves no request. -/
theorem Ordered.submit (hs : s.Ordered) (kind : OperationKind) {operation : CoreOperation}
    (h : operation.request? = none) (continuation : Bool) :
    (s.submit kind operation continuation).Ordered := by
  refine hs.frame ?_ rfl rfl rfl (fun _ => id) (fun _ => id)
  unfold requests NativeCore.submit
  rcases PriorityScheduler.submit_cases s.scheduler kind operation continuation with
    ⟨e, hsubmit, -⟩ | ⟨-, -, hsubmit⟩
  · rw [hsubmit]
  · rw [hsubmit]
    dsimp only
    rw [List.filterMap_append, List.append_right_eq_self]
    refine List.filterMap_eq_nil_iff.2 fun other hother => ?_
    rw [List.mem_singleton.1 hother]
    exact h

theorem Ordered.user (hs : s.Ordered) (client : ℕ) (requestId text : PyStr)
    (agentId : Option PyStr) : (s.user client requestId text agentId).Ordered := by
  unfold NativeCore.user admits NativeCore.submit
  dsimp only
  rcases PriorityScheduler.submit_cases s.scheduler OperationKind.human
    (CoreOperation.modelWorker ⟨client, s.epoch client⟩ requestId text agentId) false with
    ⟨e, hsubmit, -⟩ | ⟨-, -, hsubmit⟩
  · rw [hsubmit]
    split_ifs with hrefused
    · exact hs
    · exact absurd (Or.inr (Or.inr (Or.inr rfl))) hrefused
  rw [hsubmit]
  split_ifs
  · exact hs
  · refine ⟨?_, hs.answered⟩
    obtain ⟨gone, hgone, hsub⟩ := hs.accepted
    refine ⟨gone, ?_, hsub⟩
    show ((requestId, (⟨client, s.epoch client⟩ : CoreSession)) :: s.history.accepted).reverse =
      gone ++ (s.taken.toList ++ (s.scheduler.queue ++ [_]).filterMap _)
    rw [List.reverse_cons, hgone, List.filterMap_append, List.append_assoc, List.append_assoc]
    rfl

/-- **The next operation**: of the requests, the one that was accepted first. -/
theorem Ordered.pop (hs : s.Ordered) (hisolated : s.Isolated) (hidle : s.point = CorePoint.idle)
    {operation : Operation CoreOperation} {scheduler : PriorityScheduler CoreOperation}
    (hpop : s.scheduler.pop = some (operation, scheduler)) :
    Ordered { s with scheduler, point := CorePoint.entered operation.callback } := by
  obtain ⟨before, after, hqueue, hbefore, -, rfl⟩ :=
    PriorityScheduler.pop_cases hisolated.numbered hpop
  have hrequests : s.requests =
      (served operation).toList ++ (before ++ after).filterMap served := by
    unfold requests
    rw [hqueue]
    cases hrequest : served operation with
    | none =>
        rw [List.filterMap_append, List.filterMap_cons_none hrequest, List.filterMap_append]
        rfl
    | some r =>
        have hhuman : ∀ other ∈ s.scheduler.queue, (served other).isSome →
            other.kind.priority = 0 := by
          intro other hother h
          rw [hisolated.humans other hother h]
          rfl
        have hnone : before.filterMap served = [] := by
          refine List.filterMap_eq_nil_iff.2 fun other hother => ?_
          cases h : served other with
          | none => rfl
          | some r' =>
              have hlater := hbefore other hother
              have := hhuman operation
                (hqueue ▸ List.mem_append_right _ List.mem_cons_self) (by rw [hrequest]; rfl)
              have := hhuman other (hqueue ▸ List.mem_append_left _ hother) (by rw [h]; rfl)
              omega
        rw [List.filterMap_append, List.filterMap_cons_some hrequest, List.filterMap_append, hnone]
        rfl
  refine ⟨?_, ?_⟩
  · obtain ⟨gone, hgone, hsub⟩ := hs.accepted
    refine ⟨gone, ?_, hsub⟩
    have hnone : s.taken = none := by
      unfold taken
      rw [hidle]
      rfl
    rw [hnone, hrequests] at hgone
    exact hgone
  · exact (List.sublist_append_right _ _).trans hs.answered

theorem Ordered.release (hs : s.Ordered) (client : ℕ) : (s.release client).Ordered := by
  rcases release_cases s client with ⟨-, hrelease⟩ | ⟨-, s', h, hpoint, hrelease⟩
  · rw [hrelease]
    exact hs
  · rw [hrelease]
    have hs₁ : Ordered { s with
        human := none
        epoch := Function.update s.epoch client (s.epoch client + 1) } := ⟨hs.accepted, hs.answered⟩
    refine (hs₁.aside h ?_).submit OperationKind.control rfl false
    rw [hpoint]
    exact CorePoint.Ahead.refl _

/-- **A request begins only when it has been taken.** -/
theorem Ordered.enterModelWorker (hs : s.Ordered) {requestId text : PyStr} {agentId : Option PyStr}
    (hpoint : s.point = CorePoint.entered
      (CoreOperation.modelWorker session requestId text agentId)) :
    (s.enterModelWorker session requestId text agentId).Ordered := by
  have hanswered := hs.answered
  rw [hpoint] at hanswered
  have hbegin : ∀ point : CorePoint, point.entered? = none →
      point.request? = some (requestId, session) →
      Ordered { s with
        point
        history := { s.history with begun := (requestId, session) :: s.history.begun } } := by
    intro point hentered hrequest
    obtain ⟨gone, hgone, hsub⟩ := hs.accepted
    have htaken : s.taken = some (requestId, session) := by
      unfold taken
      rw [hpoint]
      rfl
    rw [htaken] at hgone
    refine ⟨⟨gone ++ [(requestId, session)], ?_, ?_⟩, ?_⟩
    · show s.history.accepted.reverse =
        _ ++ ((point.entered?.bind CoreOperation.request?).toList ++ _)
      rw [hentered, hgone, List.append_assoc]
      rfl
    · rw [List.reverse_cons]
      exact List.Sublist.append hsub (List.Sublist.refl _)
    · show (point.request?.toList ++ s.history.answered).Sublist _
      rw [hrequest]
      exact List.Sublist.cons_cons _ hanswered
  unfold NativeCore.enterModelWorker
  split_ifs
  · exact hs.done
  · cases agentId with
    | none => exact hbegin _ rfl rfl
    | some agentId => exact hbegin _ rfl rfl

theorem Ordered.manage (hs : s.Ordered) {requestId : PyStr}
    (hpoint : s.point = CorePoint.managing session requestId) (env : CoreEnv) :
    (s.manage env session requestId).Ordered := by
  have hahead : ∀ turn, s.point.Ahead (CorePoint.answer session requestId turn) := by
    rw [hpoint]
    exact ahead_answer requestId
  unfold NativeCore.manage
  cases s.manager.point with
  | idle =>
      dsimp only
      cases s.manager.last with
      | none => exact hs.goto (hahead _)
      | some result =>
          cases result with
          | ok turn => exact hs.goto (hahead _)
          | error text =>
              exact hs.frame rfl rfl rfl rfl (hahead (ManagerTurn.error text)).request
                (hahead (ManagerTurn.error text)).entered
  | plain => exact hs.frame rfl rfl rfl rfl (fun _ => id) (fun _ => id)
  | asking => exact hs.frame rfl rfl rfl rfl (fun _ => id) (fun _ => id)
  | running results item rest =>
      have haside := aside_runAgent (s := s) env item.agentId item.task
      have hsame := point_runAgent (s := s) env item.agentId item.task
      refine hs.aside (haside.trans (aside_manager _)) ?_
      show s.point.Ahead (s.runAgent env item.agentId item.task).2.point
      rw [hsame]
      exact CorePoint.Ahead.refl _
  | _ => exact hs.aside (aside_manager _) (CorePoint.Ahead.refl _)

/-- **The next step of the thread.** -/
theorem Ordered.advance (hs : s.Ordered) (hisolated : s.Isolated) (env : CoreEnv) :
    (s.advance env).Ordered := by
  unfold NativeCore.advance
  cases hpoint : s.point with
  | idle =>
      dsimp only
      cases hpop : s.scheduler.pop with
      | none => exact hs
      | some p =>
          obtain ⟨operation, scheduler⟩ := p
          exact hs.pop hisolated hpoint hpop
  | entered operation =>
      cases operation with
      -- Only `modelWorker` begins a request; the other operations leave the history alone.
      | releaseSession => exact hs.frame rfl rfl rfl rfl nofun nofun
      | clearContext agentId jobId =>
          have haside := (aside_abortSlices (s := s) env agentId).trans
            (aside_goto (CorePoint.aborted jobId false (s.abortSlices env agentId).1))
          exact hs.frame haside.requests haside.accepted haside.begun haside.answered nofun nofun
      | clearTimedOut agentId jobId =>
          have haside := (aside_abortSlices (s := s) env agentId).trans
            (aside_goto (CorePoint.aborted jobId true (s.abortSlices env agentId).1))
          exact hs.frame haside.requests haside.accepted haside.begun haside.answered nofun nofun
      | modelWorker session requestId text agentId => exact hs.enterModelWorker hpoint
      | hardwareProbe session eventId agentId task =>
          unfold NativeCore.enter
          dsimp only
          split_ifs
          · exact hs.frame rfl rfl rfl rfl nofun nofun
          · exact hs.done
      | backgroundStep jobId =>
          have haside := aside_enterBackgroundStep (s := s) env jobId
          have hquiet := quiet_enterBackgroundStep (s := s) env jobId
          exact hs.aside haside (hquiet.ahead (by rw [hpoint]; exact nofun))
      | execute agentId task =>
          have haside := aside_enterExecute (s := s) env agentId task
          have hquiet := quiet_enterExecute (s := s) env agentId task
          exact hs.aside haside (hquiet.ahead (by rw [hpoint]; exact nofun))
  | turn session requestId text =>
      have hahead : s.point.Ahead (CorePoint.managing session requestId) := by
        rw [hpoint]
        exact ⟨fun _ => id, fun _ => id, fun _ => id, nofun, nofun⟩
      unfold NativeCore.respond
      dsimp only
      split_ifs
      · exact hs.frame rfl rfl rfl rfl hahead.request hahead.entered
      · exact hs.frame rfl rfl rfl rfl hahead.request hahead.entered
  | managing session requestId => exact hs.manage hpoint env
  | agentTask session requestId text agentId =>
      refine hs.aside ((aside_runAgent env agentId text).trans (aside_goto _)) ?_
      rw [hpoint]
      exact ⟨fun _ => id, nofun, fun _ => id, nofun, nofun⟩
  -- The answer is written down here, unless its session has ended.
  | answer session requestId turn =>
      have hanswered := hs.answered
      rw [hpoint] at hanswered
      have hdone := hs.done
      dsimp only
      split_ifs
      · exact ⟨hdone.accepted, hanswered⟩
      · exact hdone
  | slice jobId agentId instruction final =>
      have hquiet := quiet_callSlice (s := s) env jobId agentId instruction final
      exact hs.aside (aside_callSlice env jobId agentId instruction final)
        (hquiet.ahead (by rw [hpoint]; exact nofun))
  | sliced jobId final ok text =>
      have hquiet := quiet_leaveSlice (s := s) env jobId final ok text
      exact hs.aside (aside_leaveSlice env jobId final ok text)
        (hquiet.ahead (by rw [hpoint]; exact nofun))
  | aborted jobId timedOut error =>
      have hquiet := quiet_leaveClear (s := s) env jobId timedOut error
      exact hs.aside (aside_leaveClear env jobId timedOut error)
        (hquiet.ahead (by rw [hpoint]; exact nofun))
  | probe session eventId agentId task =>
      have haside := (aside_runAgent (s := s) env agentId task).trans
        (aside_goto (CorePoint.probed session eventId))
      exact hs.frame haside.requests haside.accepted haside.begun haside.answered nofun nofun
  | probed session eventId =>
      have hdone := hs.done
      dsimp only
      split_ifs
      · exact ⟨hdone.accepted, hdone.answered⟩
      · exact hdone
  | tasking agentId task =>
      have haside := aside_runAgent (s := s) env agentId task
      exact hs.frame haside.requests haside.accepted haside.begun haside.answered nofun nofun

/-- **Every step keeps the order of the requests.** -/
theorem ordered_step (hs : s.Ordered) (hisolated : s.Isolated) (i : Input) :
    (s.step i).Ordered := by
  cases i with
  | acquire client =>
      show (s.acquire client).Ordered
      unfold acquire
      cases s.human with
      | some owner => exact hs
      | none => exact ⟨hs.accepted, hs.answered⟩
  | release client => exact hs.release client
  | user client requestId text agentId => exact hs.user client requestId text agentId
  | background client jobId agentId steps runtime now =>
      refine hs.aside (aside_background client jobId agentId steps runtime now) ?_
      show s.point.Ahead (s.background client jobId agentId steps runtime now).point
      rw [point_background]
      exact CorePoint.Ahead.refl _
  | cancelBackground client jobId =>
      show (s.cancelBackground client jobId).Ordered
      unfold cancelBackground
      split_ifs
      · refine hs.aside (aside_cancelBackgrounds client (some jobId)) ?_
        rw [point_cancelBackgrounds]
        exact CorePoint.Ahead.refl _
      · exact hs
  | hardware client eventId agentId task =>
      show (s.hardware client eventId agentId task).Ordered
      unfold hardware
      dsimp only
      split_ifs
      · exact hs
      · exact hs.submit _ rfl false
  | offer mqtt agentId task =>
      refine hs.aside (aside_offer mqtt agentId task) ?_
      show s.point.Ahead (s.offer mqtt agentId task).point
      rw [point_offer]
      exact CorePoint.Ahead.refl _
  | advance env => exact hs.advance hisolated env

theorem ordered_init (h : s.Initial) : s.Ordered := by
  obtain ⟨maxPending, hscheduler⟩ := h.scheduler
  have hrequests : s.requests = [] := by
    unfold requests
    rw [hscheduler]
    rfl
  have htaken : s.taken = none := by
    unfold taken
    rw [h.point]
    rfl
  refine ⟨⟨[], ?_, ?_⟩, ?_⟩
  · rw [hrequests, htaken, h.history]
    rfl
  · rw [h.history]
    exact List.Sublist.refl _
  · rw [h.point, h.history]
    exact List.Sublist.refl _

theorem ordered_of_reachable (h : machine.Reachable s) : s.Ordered :=
  h.invariant (fun _ => ordered_init) fun _ i hreach hs =>
    ordered_step hs (isolated_of_reachable hreach) i

/-! ### What is done for a session -/

/-- The record stays, or something is added to it for the session that is owned. -/
def Adds (s : NativeCore) (l l' : List (PyStr × CoreSession)) : Prop :=
  l' = l ∨ ∃ entry, s.owns entry.2 = true ∧ l' = entry :: l

/-- A step after which every session that had ended still has, and that does something only for the
session that is owned. -/
structure Onward (s s' : NativeCore) : Prop where
  gone : ∀ σ, s.Over σ → s'.Over σ
  begun : s.Adds s.history.begun s'.history.begun
  answered : s.Adds s.history.answered s'.history.answered
  probes : s.Adds s.history.probes s'.history.probes

theorem Onward.of_eq (hover : ∀ σ, s.Over σ → s'.Over σ)
    (hbegun : s'.history.begun = s.history.begun)
    (hanswered : s'.history.answered = s.history.answered)
    (hprobes : s'.history.probes = s.history.probes) : Onward s s' :=
  ⟨hover, Or.inl hbegun, Or.inl hanswered, Or.inl hprobes⟩

theorem Aside.onward (h : Aside s s') : Onward s s' :=
  Onward.of_eq (fun _ => h.over.2) h.begun h.answered h.probes

theorem onward_advance (s : NativeCore) (env : CoreEnv) : Onward s (s.advance env) := by
  -- Most steps leave the sessions and the history alone; the three that add to it check the owner
  -- first.
  have hsame : ∀ s' : NativeCore, s'.human = s.human → s'.epoch = s.epoch →
      s'.history.begun = s.history.begun → s'.history.answered = s.history.answered →
      s'.history.probes = s.history.probes → Onward s s' := by
    intro s' hhuman hepoch
    refine Onward.of_eq fun σ h => ?_
    unfold Over at h ⊢
    rw [owns_congr hhuman hepoch, hepoch]
    exact h
  unfold NativeCore.advance
  cases s.point with
  | idle =>
      dsimp only
      cases s.scheduler.pop with
      | none => exact hsame _ rfl rfl rfl rfl rfl
      | some p => exact hsame _ rfl rfl rfl rfl rfl
  | entered operation =>
      cases operation with
      | releaseSession => exact hsame _ rfl rfl rfl rfl rfl
      | clearContext agentId jobId =>
          exact ((aside_abortSlices env agentId).trans (aside_goto _)).onward
      | clearTimedOut agentId jobId =>
          exact ((aside_abortSlices env agentId).trans (aside_goto _)).onward
      | modelWorker session requestId text agentId =>
          show Onward s (s.enterModelWorker session requestId text agentId)
          unfold NativeCore.enterModelWorker
          cases howns : s.owns session with
          | false => exact hsame _ rfl rfl rfl rfl rfl
          | true =>
              have hadds : s.Adds s.history.begun ((requestId, session) :: s.history.begun) :=
                Or.inr ⟨_, howns, rfl⟩
              cases agentId with
              | none => exact ⟨fun _ h => h, hadds, Or.inl rfl, Or.inl rfl⟩
              | some agentId => exact ⟨fun _ h => h, hadds, Or.inl rfl, Or.inl rfl⟩
      | hardwareProbe session eventId agentId task =>
          unfold NativeCore.enter
          dsimp only
          split_ifs
          · exact hsame _ rfl rfl rfl rfl rfl
          · exact hsame _ rfl rfl rfl rfl rfl
      | backgroundStep jobId => exact (aside_enterBackgroundStep env jobId).onward
      | execute agentId task => exact (aside_enterExecute env agentId task).onward
  | turn session requestId text =>
      unfold NativeCore.respond
      dsimp only
      split_ifs
      · exact hsame _ rfl rfl rfl rfl rfl
      · exact hsame _ rfl rfl rfl rfl rfl
  | managing session requestId =>
      show Onward s (s.manage env session requestId)
      unfold NativeCore.manage
      cases s.manager.point with
      | idle =>
          dsimp only
          cases s.manager.last with
          | none => exact hsame _ rfl rfl rfl rfl rfl
          | some result =>
              cases result with
              | ok turn => exact hsame _ rfl rfl rfl rfl rfl
              | error text => exact hsame _ rfl rfl rfl rfl rfl
      | running results item rest =>
          exact ((aside_runAgent env item.agentId item.task).trans (aside_manager _)).onward
      | _ => exact hsame _ rfl rfl rfl rfl rfl
  | agentTask session requestId text agentId =>
      exact ((aside_runAgent env agentId text).trans (aside_goto _)).onward
  | answer session requestId turn =>
      dsimp only
      cases howns : s.owns session with
      | false => exact hsame _ rfl rfl rfl rfl rfl
      | true => exact ⟨fun _ h => h, Or.inl rfl, Or.inr ⟨_, howns, rfl⟩, Or.inl rfl⟩
  | slice jobId agentId instruction final =>
      exact (aside_callSlice env jobId agentId instruction final).onward
  | sliced jobId final ok text => exact (aside_leaveSlice env jobId final ok text).onward
  | aborted jobId timedOut error => exact (aside_leaveClear env jobId timedOut error).onward
  | probe session eventId agentId task =>
      exact ((aside_runAgent env agentId task).trans (aside_goto _)).onward
  | probed session eventId =>
      dsimp only
      cases howns : s.owns session with
      | false => exact hsame _ rfl rfl rfl rfl rfl
      | true => exact ⟨fun _ h => h, Or.inl rfl, Or.inl rfl, Or.inr ⟨_, howns, rfl⟩⟩
  | tasking agentId task =>
      have haside := aside_runAgent (s := s) env agentId task
      exact Onward.of_eq (fun _ h => haside.over.2 h) haside.begun haside.answered haside.probes

/-- **Every step does something only for the session that is owned.** -/
theorem onward_step (s : NativeCore) (i : Input) : Onward s (s.step i) := by
  cases i with
  | acquire client =>
      have hhistory : (s.acquire client).history = s.history := by
        unfold acquire
        cases s.human with
        | some owner => rfl
        | none => rfl
      refine Onward.of_eq (fun σ h => h.acquire client) ?_ ?_ ?_
      · exact congrArg CoreHistory.begun hhistory
      · exact congrArg CoreHistory.answered hhistory
      · exact congrArg CoreHistory.probes hhistory
  | release client =>
      show Onward s (s.release client)
      have hover := fun σ (h : s.Over σ) => h.release client
      rcases release_cases s client with ⟨-, hrelease⟩ | ⟨-, s', h, -, hrelease⟩
      · rw [hrelease]
        exact Aside.refl.onward
      · rw [hrelease] at hover ⊢
        exact Onward.of_eq hover h.begun h.answered h.probes
  | user client requestId text agentId =>
      show Onward s (s.user client requestId text agentId)
      unfold NativeCore.user
      dsimp only
      split_ifs
      · exact Aside.refl.onward
      · exact Onward.of_eq (fun _ h => h) rfl rfl rfl
  | background client jobId agentId steps runtime now =>
      exact (aside_background client jobId agentId steps runtime now).onward
  | cancelBackground client jobId =>
      show Onward s (s.cancelBackground client jobId)
      unfold cancelBackground
      split_ifs
      · exact (aside_cancelBackgrounds client (some jobId)).onward
      · exact Aside.refl.onward
  | hardware client eventId agentId task =>
      show Onward s (s.hardware client eventId agentId task)
      unfold hardware
      dsimp only
      split_ifs
      · exact Aside.refl.onward
      · exact Onward.of_eq (fun _ h => h) rfl rfl rfl
  | offer mqtt agentId task => exact (aside_offer mqtt agentId task).onward
  | advance env => exact onward_advance s env

/-- What a record says about a session. -/
def concerning (session : CoreSession) (l : List (PyStr × CoreSession)) :
    List (PyStr × CoreSession) := l.filter fun entry => decide (entry.2 = session)

/-- Nothing is added for a session that has ended. -/
theorem Adds.concerning {l l' : List (PyStr × CoreSession)} (h : s.Adds l l')
    (hover : s.Over session) : concerning session l' = concerning session l := by
  rcases h with rfl | ⟨entry, howns, rfl⟩
  · rfl
  · refine List.filter_cons_of_neg fun hsame => ?_
    rw [of_decide_eq_true hsame, hover.2] at howns
    cases howns

/-- A session is over when its owner leaves. -/
theorem over_release (hhuman : s.human = some client) :
    (s.release client).Over ⟨client, s.epoch client⟩ := by
  rcases release_cases s client with ⟨hnot, -⟩ | ⟨-, s', h, -, hrelease⟩
  · exact absurd hhuman hnot
  · rw [hrelease]
    refine ⟨?_, owns_of_none h.human⟩
    show s.epoch client ≤ s'.epoch client
    rw [h.epoch]
    exact epoch_le_update _ _ _

/-- **A session that has ended starts nothing and is sent nothing**, whatever comes later; each
request is answered at most once, after it has begun, and requests begin in the order in which they
were accepted. -/
theorem session_over (h : machine.Reachable s) (inputs : List Input) :
    (∀ client, s.human = some client →
      (machine.step s (Input.release client)).Over ⟨client, s.epoch client⟩) ∧
    (∀ session, s.Over session → (machine.exec s inputs).Over session ∧
      concerning session (machine.exec s inputs).history.begun =
        concerning session s.history.begun ∧
      concerning session (machine.exec s inputs).history.answered =
        concerning session s.history.answered ∧
      concerning session (machine.exec s inputs).history.probes =
        concerning session s.history.probes) ∧
    (machine.exec s inputs).history.answered.Sublist (machine.exec s inputs).history.begun ∧
    (machine.exec s inputs).history.begun.Sublist (machine.exec s inputs).history.accepted := by
  refine ⟨fun client hhuman => over_release hhuman, fun session hover => ?_, ?_⟩
  · clear h
    induction inputs generalizing s with
    | nil => exact ⟨hover, rfl, rfl, rfl⟩
    | cons i inputs ih =>
        have honward := onward_step s i
        obtain ⟨hover', hbegun, hanswered, hprobes⟩ := ih (honward.gone session hover)
        exact ⟨hover', hbegun.trans (honward.begun.concerning hover),
          hanswered.trans (honward.answered.concerning hover),
          hprobes.trans (honward.probes.concerning hover)⟩
  · have hordered := ordered_of_reachable (h.exec inputs)
    obtain ⟨gone, hgone, hsub⟩ := hordered.accepted
    refine ⟨(List.sublist_append_right _ _).trans hordered.answered, ?_⟩
    refine List.reverse_sublist.1 (hsub.trans ?_)
    rw [hgone]
    exact List.sublist_append_left _ _

/-- A client comes with one message, for which the manager delegates a task, and leaves. -/
def visit : List Input := talk 0 [[delegate]] (Except.ok none)

/-- A client leaves and comes back: its old session gets nothing more. -/
theorem session_over_again :
    (machine.exec newCore visit).Over ⟨0, 1⟩ ∧
      (machine.exec (machine.exec newCore visit) visit).history.answered.length = 2 ∧
      concerning ⟨0, 1⟩ (machine.exec (machine.exec newCore visit) visit).history.answered =
        concerning ⟨0, 1⟩ (machine.exec newCore visit).history.answered := by
  have hover : (machine.exec newCore visit).Over ⟨0, 1⟩ := ⟨by decide +kernel, by decide +kernel⟩
  have hreach : machine.Reachable (machine.exec newCore visit) :=
    Machine.Reachable.exec (Machine.Reach.of_init initial_newCore) _
  exact ⟨hover, by decide +kernel, ((session_over hreach visit).2.1 ⟨0, 1⟩ hover).2.2.1⟩

end NativeCore
