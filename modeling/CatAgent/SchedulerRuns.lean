/-
**The runs of the core's scheduler.**

The invariant holds when the scheduler is made, and all programs that its threads take up keep it.
So it holds in every state that the scheduler reaches, whichever thread goes on at a time and
whatever its operations are answered.

Main results:

* `CoreScheduler.initial_valid` — the invariant holds in the beginning;
* `CoreScheduler.outline_clientCall` — the calls of the clients keep it;
* `CoreScheduler.invariant_of_within` — **it holds in every reachable state**.
-/

import CatAgent.SchedulerExecutor
import CatAgent.SchedulerLoop

set_option relaxedAutoImplicit false
set_option autoImplicit false

namespace CoreScheduler

variable {config : SchedulerConfig} {safe : Bool} {s : CoreScheduler} {d : DriverNote}
  {e : ExecutorNote} {events : SchedulerThread → Option SystemEvent}

/-! ### The beginning -/

theorem managerSlots_initial {slot : ManagerSlot} {c : ℕ}
    (h : (initial config).managerSlots slot = some c) :
    c = runtime ∧ slot = ManagerSlot.kv1 ∧ config.managerPoolEnabled = true := by
  cases slot with
  | kv2 => cases h
  | kv1 =>
      have h : (if config.managerPoolEnabled then some runtime else none) = some c := h
      split at h
      next hp => exact ⟨(Option.some.inj h).symm, rfl, hp⟩
      next => cases h

theorem mem_available_initial {c : ℕ} (h : c ∈ (initial config).managerAvailable) :
    c = runtime ∧ config.managerPoolEnabled = true := by
  have h : c ∈ if config.managerPoolEnabled then [runtime] else [] := h
  split at h
  next hp => exact ⟨List.mem_singleton.1 h, hp⟩
  next => cases h

theorem traffic_initial : Traffic (initial config) {} {} := by
  constructor <;> simp [initial, work, DriverRole.request?]

theorem requests_initial : Requests (initial config) := by
  constructor
  case voice =>
    intro u hu
    exact absurd (show ([] : PyStr) = "voice" from hu) (by decide)
  all_goals simp [initial, IsUser, noRequest]

theorem queue_initial : Queue config (initial config) {} {} where
  toRequests := requests_initial
  toKnowledge := by constructor <;> nofun
  toDriven := by constructor <;> simp [initial]
  pending_lt := nofun
  active_lt := nofun
  nodup := List.nodup_nil
  single := nofun
  startable := nofun
  paused := nofun
  grants := nofun
  capacity := by simp [initial, liveCount, live]
  reserve := nofun
  admitted_lt := nofun

theorem ordered_initial : Ordered (initial config) {} {} where
  toStamped := by constructor <;> simp [initial, IsUser, noRequest]
  toTurns := by constructor <;> simp [initial, IsUser, noRequest]
  toAccounts := by constructor <;> simp [initial, Completed, DriverRole.remaining]

theorem once_initial : Once (initial config) {} := by
  constructor <;> simp [initial, completions, DriverRole.remaining]

theorem Hold.valid_nothing (s : CoreScheduler) : Hold.nothing.Valid s :=
  ⟨nofun, nofun, nofun⟩

theorem pool_initial : Pool config (initial config) Hold.nothing Hold.nothing where
  sorted := by
    change (if config.managerPoolEnabled then [runtime] else []).Pairwise _
    split
    next => exact List.pairwise_singleton ..
    next => exact List.Pairwise.nil
  available_ready := by
    intro c hc
    obtain ⟨rfl, hp⟩ := mem_available_initial hc
    exact ⟨ManagerSlot.kv1, if_pos hp, hp⟩
  available_unassigned := nofun
  available_clean := fun c hc => rfl
  kv1 := rfl
  kv2_ne := nofun
  kv2 := fun _ => rfl
  next := Nat.one_pos
  slots_old := by
    intro slot c h
    obtain ⟨rfl, -, -⟩ := managerSlots_initial h
    exact Nat.one_pos
  contexts_old := nofun
  dirt_old := fun c h => absurd rfl h
  assigned_unique := nofun
  unshared := nofun
  assigned_ready := nofun
  assigned_clean := nofun
  left := Hold.valid_nothing _
  right := Hold.valid_nothing _
  left_apart := nofun
  right_apart := nofun
  handed := by simp [initial]

theorem dialogues_initial : Dialogues (initial config) {} := by
  constructor <;> simp [initial, Unfinished, live]

theorem accepting_initial : Accepting (initial config) fun _ => none :=
  ⟨nofun, by simp [initial]⟩

/-- **The invariant holds in the beginning.** -/
theorem initial_valid : Valid config safe (initial config) {} {} fun _ => none where
  traffic := traffic_initial
  queue := queue_initial
  ordered := ordered_initial
  once := Or.inr once_initial
  pool := pool_initial
  dialogues := dialogues_initial
  accepting := accepting_initial

/-! ### The clients -/

section Clients

variable {i : SchedulerThread} {l : SchedulerNote}

/-- Something was cancelled, or not. -/
theorem alike_markReleased (sessionId : PyStr) (u : ℕ) :
    Alike (s.requests u) ((s.markReleased sessionId).requests u) := by
  unfold markReleased
  simp only
  split
  next => exact ⟨⟨rfl, rfl, rfl, rfl, rfl, rfl, rfl, fun _ => rfl⟩, Iff.rfl⟩
  next => exact Alike.refl _

theorem context_markReleased (sessionId : PyStr) (u : ℕ) :
    ((s.markReleased sessionId).requests u).context = (s.requests u).context := by
  unfold markReleased
  simp only
  split <;> rfl

theorem iterator_markReleased (sessionId : PyStr) (u : ℕ) :
    ((s.markReleased sessionId).requests u).iterator = (s.requests u).iterator := by
  unfold markReleased
  simp only
  split <;> rfl

/-- The requests of a session are cancelled. -/
theorem Valid.markReleased (h : Valid config safe s d e events) (sessionId : PyStr) :
    Valid config safe (s.markReleased sessionId) d e events := by
  have hs : Valid config safe { s with requests := (s.markReleased sessionId).requests } d e events :=
    h.alike (alike_markReleased sessionId) (context_markReleased sessionId) fun u hu => by
      rw [iterator_markReleased] at hu
      exact Or.inl hu
  exact hs.aside hs.traffic.stopped

theorem new_userRequest (config : SchedulerConfig) {label : PyStr} {priority : ℤ}
    (hpriority : priority = if label = "voice" then voicePriority else managerPriority)
    (text sessionId : PyStr) (requestId : Option PyStr) :
    s.New
      { kind := RequestKind.user
        label
        payload := RequestPayload.text text
        queuedAt := s.clock
        priority
        requestId := requestId.getD (config.host.uuid4 s.nextRequest)
        sessionId } where
  iterator := rfl
  context := rfl
  kind := nofun
  voice := fun _ => rfl
  user := fun _ => ⟨rfl, rfl, hpriority⟩
  grants := nofun

/-- A user's request is admitted, or the queue is full. -/
theorem Valid.submitInput (h : Valid config safe s d e events) {label : PyStr} {priority : ℤ}
    (hpriority : priority = if label = "voice" then voicePriority else managerPriority)
    (text sessionId : PyStr) (requestId : Option PyStr) (now : ℚ) :
    Valid config safe (s.atTime now (CoreScheduler.submitInput config text label priority sessionId
      requestId)) d e events := by
  have htick : Valid config safe { s with clock := max s.clock now } d e events :=
    h.tick (le_max_left _ _)
  unfold atTime CoreScheduler.submitInput appendLocked
  simp only
  split
  next => exact htick
  next =>
    split
    next => exact htick.aside htick.traffic.stopped
    next hroom =>
      exact htick.enlist (new_userRequest config hpriority (PyStr.strip text) sessionId requestId)
        (not_le.1 hroom)

theorem Valid.requestWarm (h : Valid config safe s d e events) :
    Valid config safe (s.requestWarm config) d e events := by
  unfold CoreScheduler.requestWarm
  split
  next => exact h
  next => exact h.aside h.traffic.stopped

/-- **The calls of the clients keep the invariant.** -/
theorem outline_clientCall (c : ClientCall) {Q : Unit → SchedulerNote → Prop}
    (hQ : ∀ a, Q () { l with accepting := a }) : Outline config safe i (clientCall config c) l Q := by
  have hl : Q () l := hQ l.accepting
  -- What a client does in one step concerns no note.
  have hupdate : ∀ {R : Unit → SchedulerNote → Prop} {f : CoreScheduler → CoreScheduler},
      (∀ s d e events, Valid config safe s d e events → Valid config safe (f s) d e events) → R () l →
      Outline config safe i (update f) l R := by
    intro R f hf hR
    exact outline_update fun s notes hs hn => ⟨l, hs.keep (hf s) hn, hR⟩
  cases c with
  | submitUser text sessionId requestId now =>
      exact hupdate (fun s d e events h =>
        h.submitInput (by decide) text sessionId requestId now) hl
  | submitVoice text sessionId requestId now =>
      exact hupdate (fun s d e events h =>
        h.submitInput (by decide) text sessionId requestId now) hl
  | releaseHumanSession sessionId =>
      exact outline_bind (hupdate (fun s d e events h => h.markReleased sessionId)
        (hupdate (fun s d e events h => h.submitRelease sessionId) hl))
  | enqueueExternalEvent event priority coalesce =>
      refine outline_ite (fun _ => Threads.outline_pure hl) fun _ => ?_
      exact outline_bind (outline_enqueue fun _ a => Threads.outline_pure (hQ a))
  | requestManagerKv2Warm => exact hupdate (fun s d e events h => h.requestWarm) hl
  | close =>
      refine outline_bind (hupdate (fun s d e events h => h.aside fun _ => rfl) ?_)
      have hjoin : Outline config safe i (update fun s => { s with joining := true }) l Q :=
        hupdate (fun s d e events h => h.aside h.traffic.stopped) hl
      exact outline_ite (fun _ => outline_bind (outline_silent silent_stopWorker fun _ => hjoin))
        fun _ => hjoin

end Clients

/-! ### All runs -/

/-- A thread that has nothing to do; the driver deals with no request then. -/
def Idle (i : SchedulerThread) (l : SchedulerNote) : Prop :=
  i = SchedulerThread.driver → Resting l.driver

/-- **What a thread takes up keeps the invariant.** -/
theorem outline_starts (i : SchedulerThread) (o : SchedulerChoice) (s : CoreScheduler)
    (notes : SchedulerThread → SchedulerNote) (p : SchedulerM Unit) (s' : CoreScheduler)
    (h : Invariant config safe s notes) (hidle : Idle i (notes i))
    (hstart : starts config i o s = some (p, s')) :
    ∃ l, Invariant config safe s' (Function.update notes i l) ∧
      Outline config safe i p l fun _ l' => Idle i l' := by
  cases i with
  | driver =>
      obtain ⟨hrequest, hhold⟩ := hidle rfl
      cases o with
      | proceed =>
          have hstart : (if s.stop = false then some (runOnce config, s)
              else if s.joining = true ∧ s.closed = false then
                some (shutdown config, { s with closed := true })
              else none) = some (p, s') := hstart
          split at hstart
          next hstop =>
            cases hstart
            have hclosed : s.closed = false := by
              by_contra hc
              rw [h.traffic.stopped (Bool.not_eq_false _ ▸ hc)] at hstop
              cases hstop
            exact ⟨_, invariant_driver (h.enter hrequest hclosed),
              ((drives_runOnce rfl rfl rfl) _ rfl).mono fun _ _ hr _ => hr⟩
          next hstop =>
            split at hstart
            next hj =>
              cases hstart
              exact ⟨_, invariant_driver ((h.enter hrequest hj.2).close
                (Bool.not_eq_false _ ▸ hstop)),
                ((drives_shutdown rfl rfl rfl) _ rfl).mono fun _ _ hr _ => hr⟩
            next => cases hstart
      | _ => cases hstart
  | executor =>
      cases o with
      | proceed =>
          change starts config SchedulerThread.executor SchedulerChoice.proceed s = _ at hstart
          simp only [starts] at hstart
          cases hjobs : s.jobs with
          | nil =>
              rw [hjobs] at hstart
              cases hstart
          | cons job rest =>
              rw [hjobs] at hstart
              cases hstart
              exact ⟨_, invariant_executor (h.startJob hjobs),
                (executes_runJob job _ rfl).mono fun _ _ _ => by simp [Idle]⟩
      | _ => cases hstart
  | client n =>
      cases o with
      | call c =>
          cases hstart
          refine ⟨notes (SchedulerThread.client n), ?_, outline_clientCall c fun _ => by simp [Idle]⟩
          rwa [Function.update_eq_self]
      | _ => cases hstart

/-- **The invariant holds in every reachable state**, in any environment. -/
theorem invariant_of_within
    {c : Threads.Config SchedulerThread SchedulerEffect SchedulerEffect.Answer CoreScheduler}
    (h : (within config safe).machine.Reachable c) :
    ∃ d e events, Valid config safe c.state d e events := by
  obtain ⟨notes, hs, -⟩ := Threads.invariant Idle ({} : SchedulerNote)
    (fun _ _ => ⟨rfl, rfl⟩)
    (fun s hs => by
      cases hs
      exact initial_valid)
    outline_starts h
  exact ⟨_, _, _, hs⟩

/-- The invariant of the scheduler. -/
theorem invariant_of_reachable
    {c : Threads.Config SchedulerThread SchedulerEffect SchedulerEffect.Answer CoreScheduler}
    (h : (system config).machine.Reachable c) :
    ∃ d e events, Valid config false c.state d e events := by
  rw [system_eq] at h
  exact invariant_of_within h

end CoreScheduler
