/-
**The driver of the core's scheduler.**

The loop, and the thread that closes the scheduler, deal with the active request: they put it back
into the queue, turn the result of a query into a turn of the manager, complete requests and start
the next one.  The invariant is kept by each of these steps.
-/

import CatAgent.SchedulerRequests
import Mathlib.Data.Prod.Lex

set_option relaxedAutoImplicit false
set_option autoImplicit false

namespace CoreScheduler

variable {config : SchedulerConfig} {safe : Bool} {s : CoreScheduler} {d : DriverNote}
  {e : ExecutorNote} {events : SchedulerThread → Option SystemEvent}

/-! ### The driver and the active request -/

section Active

variable {u : ℕ} {f : Except PyStr Advanced}

/-- What is known while the driver deals with the active request. -/
theorem Valid.active (h : Valid config safe s d e events) (hr : d.role.request? = some u) :
    s.activeRequest = some u ∧ (∃ f, s.activeFuture = some (some f)) ∧ u < s.nextRequest ∧
      (∀ v, e.job ≠ some (SchedulerJob.advance v)) := by
  obtain ⟨hactive, f, hf⟩ := h.traffic.driver u hr
  refine ⟨hactive, ⟨f, hf⟩, h.queue.active_lt u hactive, fun v hv => ?_⟩
  have hwork : SchedulerJob.advance v ∈ s.work e := by simp [work, hv]
  have hnone := (h.traffic.advance v hwork).2
  rw [hf] at hnone
  cases hnone

/-- The driver goes on with the active request. -/
theorem Traffic.become (h : Traffic s d e) {r : DriverRole}
    (hd : d.role = DriverRole.running ∨ d.role.request? ≠ none) (hr : r.request? = some u)
    (hactive : s.activeRequest = some u) (hf : s.activeFuture = some (some f))
    (hfinishing : ∀ result, r = DriverRole.finishing u result → resultOf f = result)
    (hrequeueing : r = DriverRole.requeueing u ∨ r = DriverRole.recycling u →
      f ≠ Except.ok Advanced.paused)
    (hhold : d.hold = Hold.nothing) :
    Traffic s { d with role := r } e :=
  { h with
    -- The roles that deal with no request are not at hand, before or after.
    shut := by
      intro j hj hs
      obtain ⟨_, l, hl, _⟩ := h.shut j hj hs
      rw [hl] at hd
      rcases hd with hd | hd
      · cases hd
      · exact absurd rfl hd
    driver := by
      intro v hv
      have hv : r.request? = some v := hv
      rw [hr] at hv
      cases hv
      exact ⟨hactive, f, hf⟩
    finishing := by
      intro v result hv
      have hv : r = DriverRole.finishing v result := hv
      rw [hv] at hr
      cases hr
      exact ⟨f, hf, hfinishing result hv⟩
    requeueing := by
      intro v hv hpaused
      have hv : r = DriverRole.requeueing v ∨ r = DriverRole.recycling v := hv
      have hvu : v = u := by
        rcases hv with hv | hv <;>
          · rw [hv] at hr
            exact Option.some.inj hr
      subst hvu
      rw [hf] at hpaused
      exact hrequeueing hv (Option.some.inj (Option.some.inj hpaused))
    quiet := by
      intro hv
      have hv : r = DriverRole.quiet := hv
      rw [hv] at hr
      cases hr
    draining := by
      intro l b hv
      have hv : r = DriverRole.draining l b := hv
      rw [hv] at hr
      cases hr
    looping := by
      intro hc _
      refine h.looping hc fun hidle => ?_
      rw [hidle] at hd
      rcases hd with hd | hd
      · cases hd
      · exact absurd rfl hd
    leaving := by
      rintro (hv | ⟨l, b, hv⟩) <;>
        · have hv : r = _ := hv
          rw [hv] at hr
          cases hr
    holding := fun hne => absurd hhold hne }

/-- The driver changes its mind about a request that is neither queued again nor about to be. -/
theorem Driven.drive (h : Driven s d) {d' : DriverNote}
    (hold : ∀ v, d.role ≠ DriverRole.requeueing v ∧ d.role ≠ DriverRole.settled v)
    (hrequeueing : ∀ v, d'.role ≠ DriverRole.requeueing v) (hkey : d'.key = none)
    (hremaining : ∀ l b, d'.role ≠ DriverRole.draining l b) : Driven s d' where
  apart := fun v hv hp => absurd (h.apart v hv hp) (hold v).2
  completion := fun v c hv hf _ _ => h.completion v c hv hf (hold v).1 (hold v).2
  requeueing := fun v hv => absurd hv (hrequeueing v)
  key := by
    rw [hkey]
    exact nofun
  drained := fun l b hl => absurd hl (hremaining l b)

/-- A driver that discards no requests, before and after. -/
theorem Accounts.drive (h : Accounts s d) {d' : DriverNote} (hold : d.role.remaining = [])
    (hnew : d'.role.remaining = [])
    (hsettled : ∀ v, d'.role = DriverRole.settled v → s.Completed v ∨ v ∈ s.pending)
    (hrecycling : ∀ v, d'.role = DriverRole.recycling v → s.Completed v) : Accounts s d' :=
  { h with
    accounted := by
      intro v hv
      have := h.accounted v hv
      rw [hold] at this
      rw [hnew]
      exact this
    remaining_lt := by
      rw [hnew]
      exact nofun
    kept := by
      rw [hnew]
      exact nofun
    settled := hsettled
    recycling := hrecycling }

/-- Only a driver that recycles a request knows its dialogue and may hold a context. -/
theorem Valid.released (h : Valid config safe s d e events)
    (hr : ∀ u, d.role ≠ DriverRole.recycling u) : d.key = none ∧ d.hold = Hold.nothing := by
  constructor
  · cases hk : d.key with
    | none => rfl
    | some key =>
        obtain ⟨u, hu, -⟩ := h.queue.key key hk
        exact absurd hu (hr u)
  · by_contra hne
    obtain ⟨u, hu⟩ := h.traffic.holding hne
    exact hr u hu

/-- The driver has seen that the future of the active request is done. -/
theorem Valid.finish (h : Valid config safe s d e events) (hd : d.role = DriverRole.running)
    (hactive : s.activeRequest = some u) (hf : s.activeFuture = some (some f)) :
    Valid config safe s { d with role := DriverRole.finishing u (resultOf f) } e events where
  traffic := h.traffic.become (Or.inl hd) rfl hactive hf (fun _ hr => by cases hr; rfl) nofun
    (h.released (by rw [hd]; exact nofun)).2
  queue :=
    { h.queue with
      toDriven := h.queue.toDriven.drive (by simp [hd]) nofun
        (h.released (by rw [hd]; exact nofun)).1 nofun }
  ordered :=
    { h.ordered with
      toAccounts := h.ordered.toAccounts.drive (by rw [hd]; rfl) rfl nofun nofun }
  once := by
    refine h.once.imp id fun ho => ho.drive rfl fun v hv hc => ?_
    have := ho.active v hv hc
    rw [hd] at this
    rcases this with hr | hr | ⟨hr, _⟩ <;> cases hr
  pool := h.pool
  dialogues := h.dialogues
  accepting := h.accepting

/-- The active request goes back to the queue. -/
def requeued (u : ℕ) (s : CoreScheduler) : CoreScheduler := { s with pending := s.pending ++ [u] }

theorem mem_live_requeued (hactive : s.activeRequest = some u) {v : ℕ} :
    v ∈ (s.requeued u).live ↔ v ∈ s.live := by
  simp only [mem_live, requeued, List.mem_append, List.mem_singleton, hactive,
    Option.some.injEq]
  constructor
  · rintro ((hv | rfl) | rfl)
    · exact Or.inl hv
    · exact Or.inr rfl
    · exact Or.inr rfl
  · rintro (hv | rfl)
    · exact Or.inl (Or.inl hv)
    · exact Or.inr rfl

theorem Queue.requeue (h : Queue config s d e) (hactive : s.activeRequest = some u)
    (hdone : s.activeFuture ≠ some none) (hnot : u ∉ s.pending)
    (hjob : ∀ v, e.job ≠ some (SchedulerJob.advance v)) (hkey : d.key = none) :
    Queue config (s.requeued u) { d with role := DriverRole.settled u } e :=
  { h with
    pending_lt := by
      intro v hv
      rcases List.mem_append.1 hv with hv | hv
      · exact h.pending_lt v hv
      · rw [List.mem_singleton.1 hv]
        exact h.active_lt u hactive
    nodup := by
      refine List.Nodup.append h.nodup (List.nodup_singleton _) ?_
      intro v hv hvu
      rw [List.mem_singleton] at hvu
      exact hnot (hvu ▸ hv)
    apart := by
      intro v hv _
      have hv : s.activeRequest = some v := hv
      rw [hactive] at hv
      cases hv
      rfl
    single := by
      intro v hv w hw
      rw [mem_live_requeued hactive] at hv hw
      exact h.single v hv w hw
    startable := fun v _ hnone => absurd hnone hdone
    permitted := fun v hj => absurd hj (hjob v)
    grants := by
      intro v hv w hw
      rw [mem_live_requeued hactive] at hv hw
      exact h.grants v hv w hw
    capacity := by
      refine le_trans (Finset.card_le_card ?_) h.capacity
      intro v hv
      rw [List.mem_toFinset] at hv ⊢
      exact (mem_live_requeued hactive).1 hv
    completion := by
      intro v c hv _ _ hs
      have hv : s.activeRequest = some v := hv
      rw [hactive] at hv
      cases hv
      exact absurd rfl hs
    requeueing := nofun
    key := by
      intro key hk
      rw [hkey] at hk
      cases hk
    drained := nofun }

theorem Turns.requeue (h : Turns s e) (hstarted : s.IsUser u → (s.requests u).iterator ≠ none) :
    Turns (s.requeued u) e :=
  { h with
    waiting := by
      refine List.pairwise_append.2 ⟨h.waiting, List.pairwise_singleton _ _, ?_⟩
      intro v _ w hw _ hww
      rw [List.mem_singleton] at hw
      subst hw
      exact absurd hww.2 (hstarted hww.1) }

theorem Accounts.requeue (h : Accounts s d) (hactive : s.activeRequest = some u)
    (hremaining : d.role.remaining = []) :
    Accounts (s.requeued u) { d with role := DriverRole.settled u } :=
  { h with
    accounted := by
      intro v hv
      have := h.accounted v hv
      rw [hremaining] at this
      rw [mem_live_requeued hactive]
      exact this
    remaining_lt := nofun
    kept := nofun
    settled := by
      intro v hv
      cases hv
      exact Or.inr (List.mem_append_right _ (List.mem_singleton_self _))
    recycling := nofun }

theorem Once.requeue (h : Once s d) (hactive : s.activeRequest = some u)
    (hcompleted : ¬ s.Completed u) :
    Once (s.requeued u) { d with role := DriverRole.settled u } := by
  have hsettled : Once s { d with role := DriverRole.settled u } := by
    refine h.drive rfl fun v hv hc => ?_
    rw [hactive] at hv
    cases hv
    exact absurd hc hcompleted
  refine { hsettled with pending := fun v hv => ?_, apart := nofun }
  rcases List.mem_append.1 hv with hv | hv
  · exact h.pending v hv
  · rw [List.mem_singleton.1 hv]
    exact hcompleted

theorem Dialogues.requeue (h : Dialogues s e) (hactive : s.activeRequest = some u)
    (hcontext : ∀ c, (s.requests u).context = some c →
      s.contexts.get? (contextKey (s.requests u)) = some c) : Dialogues (s.requeued u) e :=
  { h with
    inUse := by
      intro v c hv hc
      rcases hv with hv | hv
      · rcases List.mem_append.1 hv with hv | hv
        · exact h.inUse v c (Or.inl hv) hc
        · rw [List.mem_singleton] at hv
          subst hv
          exact hcontext c hc
      · exact h.inUse v c (Or.inr hv) hc
    releasing := by
      intro key hk v hv
      rw [mem_live_requeued hactive] at hv
      exact h.releasing key hk v hv }

theorem Valid.paused_future (h : Valid config safe s d e events)
    (hr : d.role = DriverRole.finishing u Advanced.paused) :
    s.activeFuture = some (some (Except.ok Advanced.paused)) := by
  obtain ⟨f, hf, hpaused⟩ := h.traffic.finishing u _ hr
  cases f with
  | ok result =>
      cases hpaused
      exact hf
  | error msg => cases hpaused

/-- **Going back to the queue keeps the invariant.** -/
theorem Valid.requeue (h : Valid config safe s d e events)
    (hr : d.role = DriverRole.finishing u Advanced.paused ∨ d.role = DriverRole.requeueing u) :
    Valid config safe (s.requeued u) { d with role := DriverRole.settled u } e events := by
  have hrequest : d.role.request? = some u := by rcases hr with hr | hr <;> rw [hr] <;> rfl
  have hremaining : d.role.remaining = [] := by rcases hr with hr | hr <;> rw [hr] <;> rfl
  obtain ⟨hactive, ⟨f, hf⟩, -, hjob⟩ := h.active hrequest
  obtain ⟨hkey, hhold⟩ := h.released (by rcases hr with hr | hr <;> rw [hr] <;> exact nofun)
  have hdone : s.activeFuture ≠ some none := by
    rw [hf]
    exact nofun
  have hnot : u ∉ s.pending := by
    intro hp
    have := h.queue.apart u hactive hp
    rcases hr with hr | hr <;> rw [hr] at this <;> cases this
  -- A user's request that is paused has been started.
  have hstarted : s.IsUser u → (s.requests u).iterator ≠ none := by
    intro hu
    rcases hr with hr | hr
    · exact h.queue.paused u hactive (h.paused_future hr) hu
    · exact absurd hu (h.queue.requeueing u hr).1
  have hcontext : ∀ c, (s.requests u).context = some c →
      s.contexts.get? (contextKey (s.requests u)) = some c := by
    intro c hc
    rcases hr with hr | hr
    · exact h.dialogues.inUse u c (Or.inr ⟨hactive, Or.inr (h.paused_future hr)⟩) hc
    · rw [(h.queue.requeueing u hr).2.2] at hc
      cases hc
  have hcompleted : safe = false ∨ ¬ s.Completed u := by
    refine h.once.imp id fun ho hc => ?_
    rcases ho.active u hactive hc with hrole | hrole | ⟨hrole, _⟩ <;> rcases hr with hr | hr <;>
      rw [hr] at hrole <;> cases hrole
  exact
    { traffic :=
        { h.traffic.become (r := DriverRole.settled u) (Or.inr (by rw [hrequest]; exact nofun)) rfl
            hactive hf nofun nofun hhold with }
      queue := h.queue.requeue hactive hdone hnot hjob hkey
      ordered :=
        { h.ordered with
          toTurns := h.ordered.toTurns.requeue hstarted
          toAccounts := h.ordered.toAccounts.requeue hactive hremaining }
      once := by
        rcases hcompleted with hsafe | hcompleted
        · exact Or.inl hsafe
        · exact h.once.imp id fun ho => ho.requeue hactive hcompleted
      pool := { h.pool with }
      dialogues := h.dialogues.requeue hactive hcontext
      accepting := { h.accepting with } }

/-- The activation of a task becomes a turn of the manager. -/
def converted (u : ℕ) (taskId : ℤ) (result : PyStr) (s : CoreScheduler) : CoreScheduler :=
  s.modify u fun item =>
    { item with
      kind := RequestKind.manager
      label := PyStr.ofString "query-result:task:" ++ PyStr.ofString (toString taskId)
      payload := RequestPayload.queryResult taskId result
      priority := managerPriority
      iterator := none }

theorem queryLabel_ne_voice (taskId : ℤ) :
    PyStr.ofString "query-result:task:" ++ PyStr.ofString (toString taskId) ≠ "voice" := by
  intro h
  have hhead := congrArg List.head? h
  rw [List.head?_append_of_ne_nil _ (by decide)] at hhead
  exact absurd hhead (by decide)

section Converted

variable {taskId : ℤ} {result : PyStr}

theorem requests_converted {v : ℕ} (h : v ≠ u) :
    (s.converted u taskId result).requests v = s.requests v := by
  rw [converted, requests_modify _ h]

theorem ne_of_isUser {v : ℕ} (hu : ¬ s.IsUser u) (hv : s.IsUser v) : v ≠ u := by
  rintro rfl
  exact hu hv

theorem isUser_converted (hu : ¬ s.IsUser u) (v : ℕ) :
    (s.converted u taskId result).IsUser v ↔ s.IsUser v := by
  rcases eq_or_ne v u with rfl | hne
  · refine iff_of_false ?_ hu
    simp [IsUser, converted, requests_modify_self]
  · simp only [IsUser, requests_converted hne]

theorem sameDialogue_converted {v w : ℕ} (hv : v ≠ u) (hw : w ≠ u) :
    (s.converted u taskId result).SameDialogue v w ↔ s.SameDialogue v w := by
  simp only [SameDialogue, requests_converted hv, requests_converted hw]

theorem iterator_converted :
    ((s.converted u taskId result).requests u).iterator = none := by
  rw [converted, requests_modify_self]

theorem context_converted (v : ℕ) :
    ((s.converted u taskId result).requests v).context = (s.requests v).context := by
  rcases eq_or_ne v u with rfl | hne
  · rw [converted, requests_modify_self]
  · rw [requests_converted hne]

theorem taskRun_converted (v : ℕ) :
    ((s.converted u taskId result).requests v).taskRun = (s.requests v).taskRun := by
  rcases eq_or_ne v u with rfl | hne
  · rw [converted, requests_modify_self]
  · rw [requests_converted hne]

theorem First.converted {v : ℕ} (h : s.First v) (hu : ¬ s.IsUser u) (hv : v ≠ u) :
    (s.converted u taskId result).First v := by
  intro w hw hk hd
  rw [isUser_converted hu] at hk
  have hwu : w ≠ u := ne_of_isUser hu hk
  rw [sameDialogue_converted hwu hv] at hd
  rw [requests_converted hwu]
  exact h w hw hk hd

/-- An activation whose result becomes a turn: the executor is done with it, and it has no
context. -/
structure Convertible (s : CoreScheduler) (e : ExecutorNote) (u : ℕ) : Prop where
  active : s.activeRequest = some u
  done : s.activeFuture ≠ some none
  unpaused : s.activeFuture ≠ some (some (Except.ok Advanced.paused))
  user : ¬ s.IsUser u
  context : (s.requests u).context = none
  queued : u ∉ s.pending
  idle : ∀ v, e.job ≠ some (SchedulerJob.advance v)
  apart : e.job.bind requestOf ≠ some u

theorem Valid.convertible (h : Valid config safe s d e events) {c : AutonomousTaskCompletion}
    (hr : d.role = DriverRole.finishing u (Advanced.completion c)) : Convertible s e u := by
  obtain ⟨hactive, -, -, hjob⟩ := h.active (u := u) (by rw [hr]; rfl)
  obtain ⟨f, hf, hresult⟩ := h.traffic.finishing u _ hr
  obtain rfl : f = Except.ok (Advanced.completion c) := by
    cases f with
    | ok r => cases hresult; rfl
    | error msg => cases hresult
  obtain ⟨hkind, htask⟩ := h.queue.completion u c hactive hf (by simp [hr]) (by simp [hr])
  refine ⟨hactive, by simp [hf], by simp [hf], ?_, h.queue.task u hkind htask, ?_, hjob, ?_⟩
  · intro hu
    rw [IsUser, hkind] at hu
    cases hu
  · intro hp
    have := h.queue.apart u hactive hp
    rw [hr] at this
    cases this
  · intro hu
    obtain ⟨j, hj, hju⟩ := Option.bind_eq_some_iff.1 hu
    cases j with
    | advance v => exact hjob v hj
    | discard v =>
        obtain ⟨_, l, hl, _⟩ := h.traffic.shut (SchedulerJob.discard v) (by simp [work, hj]) rfl
        rw [hr] at hl
        cases hl
    | releaseContext _ => cases hju
    | warmManagerKv2 => cases hju
    | closeAllContexts => cases hju

theorem Requests.convert (h : Requests s) (hlt : u < s.nextRequest) (hu : Convertible s e u) :
    Requests (s.converted u taskId result) where
  old := by
    intro v hv
    rcases eq_or_ne v u with rfl | hne
    · exact hlt
    · rw [requests_converted hne] at hv
      exact h.old v hv
  voice := by
    intro v hv
    rcases eq_or_ne v u with rfl | hne
    · rw [converted, requests_modify_self] at hv
      exact absurd hv (queryLabel_ne_voice taskId)
    · rw [requests_converted hne] at hv
      rw [isUser_converted hu.user]
      exact h.voice v hv
  context := by
    intro v hv
    rw [context_converted] at hv
    rcases eq_or_ne v u with rfl | hne
    · exact absurd hu.context hv
    · rw [requests_converted hne]
      exact h.context v hv
  task := by
    intro v hk ht
    rw [context_converted]
    rcases eq_or_ne v u with rfl | hne
    · exact hu.context
    · rw [requests_converted hne] at hk ht
      exact h.task v hk ht
  iterator := by
    intro v hv
    rcases eq_or_ne v u with rfl | hne
    · rw [iterator_converted] at hv
      cases hv
    · rw [requests_converted hne] at hv ⊢
      exact h.iterator v hv
  runs := by
    intro v hv
    rw [isUser_converted hu.user] at hv
    rw [taskRun_converted]
    exact h.runs v hv

theorem Knowledge.convert (h : Knowledge s e) (hu : Convertible s e u) :
    Knowledge (s.converted u taskId result) e where
  permitted := fun v hj => absurd hj (hu.idle v)
  started := by
    intro v hj hs
    have hne : v ≠ u := by
      rintro rfl
      exact hu.apart hj
    rw [requests_converted hne]
    exact h.started v hj hs
  system := fun v hj => absurd hj (hu.idle v)
  activation := fun v hj => absurd hj (hu.idle v)
  talk := fun v hj => absurd hj (hu.idle v)

theorem Driven.convert (hu : Convertible s e u) (hkey : d.key = none) :
    Driven (s.converted u taskId result) { d with role := DriverRole.requeueing u } where
  apart := by
    intro v hv hp
    have hv : s.activeRequest = some v := hv
    rw [hu.active] at hv
    cases hv
    exact absurd hp hu.queued
  completion := by
    intro v c hv _ hrole _
    have hv : s.activeRequest = some v := hv
    rw [hu.active] at hv
    cases hv
    exact absurd rfl hrole
  requeueing := by
    intro v hv
    cases hv
    rw [isUser_converted hu.user, iterator_converted, context_converted]
    exact ⟨hu.user, rfl, hu.context⟩
  key := by
    intro key hk
    rw [hkey] at hk
    cases hk
  drained := nofun

theorem Queue.convert (h : Queue config s d e) (hu : Convertible s e u) (hkey : d.key = none) :
    Queue config (s.converted u taskId result) { d with role := DriverRole.requeueing u } e :=
  { h with
    toRequests := h.toRequests.convert (h.active_lt u hu.active) hu
    toKnowledge := h.toKnowledge.convert hu
    toDriven := Driven.convert hu hkey
    single := by
      intro v hv w hw hvw hdv hdw hk
      rcases eq_or_ne v u with rfl | hvu
      · exact Or.inl iterator_converted
      · rcases eq_or_ne w u with rfl | hwu
        · exact Or.inr iterator_converted
        · rw [requests_converted hvu] at hdv ⊢
          rw [requests_converted hwu] at hdw ⊢
          rw [sameDialogue_converted hvu hwu] at hk
          exact h.single v hv w hw hvw hdv hdw hk
    startable := fun v _ hnone => absurd hnone hu.done
    paused := fun v _ hpaused => absurd hpaused hu.unpaused
    grants := by
      intro v hv w hw hvw a b ha hb
      rw [taskRun_converted] at ha hb
      exact h.grants v hv w hw hvw a b ha hb
    reserve := by
      intro v n hn hv
      rw [isUser_converted hu.user] at hv
      exact h.reserve v n hn hv }

theorem Stamped.convert (h : Stamped s) (huser : ¬ s.IsUser u) :
    Stamped (s.converted u taskId result) where
  priority := by
    intro v hv
    rw [isUser_converted huser] at hv
    rw [requests_converted (ne_of_isUser huser hv)]
    exact h.priority v hv
  clock := by
    intro v hv hk
    rw [isUser_converted huser] at hk
    rw [requests_converted (ne_of_isUser huser hk)]
    exact h.clock v hv hk
  stamps := by
    intro v w hvw hw hkv hkw
    rw [isUser_converted huser] at hkv hkw
    rw [requests_converted (ne_of_isUser huser hkv), requests_converted (ne_of_isUser huser hkw)]
    exact h.stamps v w hvw hw hkv hkw

theorem Turns.convert (h : Turns s e) (hu : Convertible s e u) :
    Turns (s.converted u taskId result) e where
  waiting := by
    refine h.waiting.imp_of_mem fun {v w} hv hw hvw hwv hww => hvw ?_ ?_
    · have hvu : v ≠ u := fun hvu => hu.queued (hvu ▸ hv)
      simpa only [Waiting, IsUser, requests_converted hvu] using hwv
    · have hwu : w ≠ u := fun hwu => hu.queued (hwu ▸ hw)
      simpa only [Waiting, IsUser, requests_converted hwu] using hww
  ready := fun v _ hnone => absurd hnone hu.done
  permitted := fun v hj => absurd hj (hu.idle v)
  begun := by
    intro v hk hi
    rw [isUser_converted hu.user] at hk
    have hvu : v ≠ u := ne_of_isUser hu.user hk
    rw [requests_converted hvu] at hi
    exact (h.begun v hk hi).converted hu.user hvu
  answered := by
    intro v f hv _ hk
    have hv : s.activeRequest = some v := hv
    rw [hu.active] at hv
    cases hv
    exact absurd ((isUser_converted hu.user u).1 hk) hu.user
  log := by
    intro v t l hl ht hv w hwv hw hd
    rw [isUser_converted hu.user] at hv hw
    have hvu : v ≠ u := ne_of_isUser hu.user hv
    have hwu : w ≠ u := ne_of_isUser hu.user hw
    rw [sameDialogue_converted hwu hvu] at hd
    rw [requests_converted hwu]
    exact h.log v t l hl ht hv w hwv hw hd
  alone := by
    intro v w hvw hv hw hcv hcw hdv hdw hd
    rcases eq_or_ne v u with rfl | hvu
    · exact Or.inl iterator_converted
    rcases eq_or_ne w u with rfl | hwu
    · exact Or.inr iterator_converted
    rw [requests_converted hvu] at hdv ⊢
    rw [requests_converted hwu] at hdw ⊢
    rw [sameDialogue_converted hvu hwu] at hd
    exact h.alone v w hvw hv hw hcv hcw hdv hdw hd

theorem Dialogues.convert (h : Dialogues s e) (hu : Convertible s e u) :
    Dialogues (s.converted u taskId result) e :=
  { h with
    inUse := by
      intro v c hv hc
      rw [context_converted] at hc
      rcases eq_or_ne v u with rfl | hne
      · rw [hu.context] at hc
        cases hc
      · rw [requests_converted hne]
        exact h.inUse v c hv hc
    key := fun v key hj => absurd hj (hu.idle v)
    context := fun v c hj => absurd hj (hu.idle v)
    releasing := by
      intro key hk v hv hd
      rw [context_converted]
      rcases eq_or_ne v u with rfl | hne
      · exact hu.context
      · rw [requests_converted hne] at hd
        exact h.releasing key hk v hv hd }

theorem Accepting.convert (h : Accepting s events) :
    Accepting (s.converted u taskId result) events where
  accepting := by
    intro i event hi
    obtain ⟨v, n, hn, hv⟩ := h.accepting i event hi
    exact ⟨v, n, hn, by rw [taskRun_converted, hv]⟩
  accepted := by
    intro event l hl
    obtain ⟨v, n, hn, hv⟩ := h.accepted event l hl
    exact ⟨v, n, hn, by rw [taskRun_converted, hv]⟩

end Converted

/-- **Turning the result of a query into a turn keeps the invariant.** -/
theorem Valid.convert (h : Valid config safe s d e events) {c : AutonomousTaskCompletion}
    (hr : d.role = DriverRole.finishing u (Advanced.completion c)) (taskId : ℤ) (result : PyStr) :
    Valid config safe (s.converted u taskId result) { d with role := DriverRole.requeueing u } e
      events := by
  have hu := h.convertible hr
  obtain ⟨hactive, ⟨f, hf⟩, -, -⟩ := h.active (u := u) (by rw [hr]; rfl)
  obtain ⟨hkey, hhold⟩ := h.released (by rw [hr]; simp)
  have hunpaused : f ≠ Except.ok Advanced.paused := fun hp => hu.unpaused (by rw [hf, hp])
  have haccounts : Accounts s { d with role := DriverRole.requeueing u } :=
    h.ordered.toAccounts.drive (by rw [hr]; rfl) rfl nofun nofun
  exact
    { traffic :=
        { h.traffic.become (r := DriverRole.requeueing u)
            (Or.inr (by rw [hr]; simp [DriverRole.request?])) rfl hactive hf (by simp)
            (fun _ => hunpaused) hhold with }
      queue := h.queue.convert hu hkey
      ordered :=
        { h.ordered.toStamped.convert hu.user, h.ordered.toTurns.convert hu,
          haccounts with }
      once := by
        refine h.once.imp id fun ho => ?_
        have hrequeueing : Once s { d with role := DriverRole.requeueing u } := by
          refine ho.drive rfl fun v hv hc => ?_
          have := ho.active v hv hc
          rw [hr] at this
          rcases this with hr | hr | ⟨hr, _⟩ <;> cases hr
        exact { hrequeueing with }
      pool := { h.pool with }
      dialogues := h.dialogues.convert hu
      accepting := h.accepting.convert }

/-- The completions of the others are the same. -/
theorem completions_of_ne {v : ℕ} (h : v ≠ u) (t : ManagerTurn) :
    (s.record (SchedulerEvent.completed u t)).completions v = s.completions v := by
  rw [completions, record, List.countP_cons_of_neg]
  · rfl
  · simpa [completes] using h.symm

/-- A request that has not been completed is completed for the first time. -/
theorem completions_of_not (h : ¬ s.Completed u) (t : ManagerTurn) :
    (s.record (SchedulerEvent.completed u t)).completions u = 1 := by
  have hzero : s.log.countP (completes u) = 0 := by
    rw [List.countP_eq_zero]
    intro x hx
    cases x with
    | completed v t' =>
        simp only [completes, decide_eq_true_eq]
        rintro rfl
        exact h ⟨t', hx⟩
    | _ => simp [completes]
  rw [completions, record, List.countP_cons_of_pos (by simp [completes]), hzero]

/-- Completing a request that was first in its dialogue, or with a turn that reports its
cancellation. -/
theorem Ordered.complete (h : Ordered s d e) (hlt : u < s.nextRequest) {t : ManagerTurn}
    (hfirst : t.kind ≠ "cancelled" → s.IsUser u → s.First u) :
    Ordered (s.record (SchedulerEvent.completed u t)) d e :=
  { h with
    ready := fun v hv hf hk => (h.ready v hv hf hk).imp id First.record
    permitted := fun v hj hs hk => (h.permitted v hj hs hk).record
    begun := fun v hk hi => (h.begun v hk hi).record
    log := by
      intro v t' l hl ht hv w hwv hw hd
      rcases List.suffix_cons_iff.1 hl with hl | hl
      · cases hl
        exact hfirst ht hv w hwv hw hd
      · exact h.log v t' l hl ht hv w hwv hw hd
    completed_lt := by
      rintro v ⟨t', ht'⟩
      rcases List.mem_cons.1 ht' with ht' | ht'
      · cases ht'
        exact hlt
      · exact h.completed_lt v ⟨t', ht'⟩
    accounted := by
      intro v hv
      refine (h.accounted v hv).imp Completed.record (Or.imp id (Or.imp id ?_))
      rintro ⟨w, hw⟩
      exact ⟨w, List.mem_cons_of_mem _ hw⟩
    settled := fun v hv => (h.settled v hv).imp Completed.record id
    recycling := fun v hv => (h.recycling v hv).record
    raised := fun ⟨v, hv⟩ => h.raised ⟨v, mem_of_cons (by simp) hv⟩
    lost := fun ⟨v, hv⟩ => h.lost ⟨v, mem_of_cons (by simp) hv⟩
    alone := h.alone_record _ }

theorem completed_cases {v : ℕ} {t : ManagerTurn}
    (h : (s.record (SchedulerEvent.completed u t)).Completed v) : v = u ∨ s.Completed v := by
  obtain ⟨t', ht'⟩ := h
  rcases List.mem_cons.1 ht' with ht' | ht'
  · cases ht'
    exact Or.inl rfl
  · exact Or.inr ⟨t', ht'⟩

/-- **Completing the active request keeps the invariant.** -/
theorem Valid.complete (h : Valid config safe s d e events) {r : Advanced} {t : ManagerTurn}
    (hr : d.role = DriverRole.finishing u r) (hpaused : r ≠ Advanced.paused)
    (hfirst : t.kind ≠ "cancelled" → s.IsUser u → s.First u) :
    Valid config safe (s.record (SchedulerEvent.completed u t))
      { d with role := DriverRole.recycling u } e events := by
  obtain ⟨hactive, -, hlt, hjob⟩ := h.active (u := u) (by rw [hr]; rfl)
  obtain ⟨f, hf, hresult⟩ := h.traffic.finishing u r hr
  obtain ⟨hkey, hhold⟩ := h.released (by rw [hr]; exact nofun)
  have hnot : u ∉ s.pending := by
    intro hp
    have := h.queue.apart u hactive hp
    rw [hr] at this
    cases this
  have hqueue : Queue config (s.record (SchedulerEvent.completed u t)) d e :=
    h.queue.record (by simp)
  have hordered := h.ordered.complete hlt hfirst
  exact
    { traffic :=
        { h.traffic.become (r := DriverRole.recycling u) (Or.inr (by rw [hr]; exact nofun)) rfl
            hactive hf nofun (fun _ hp => hpaused (by rw [← hresult, hp]; rfl)) hhold with }
      queue :=
        { hqueue with
          toDriven := hqueue.toDriven.drive (by simp [hr]) nofun hkey nofun }
      ordered :=
        { hordered with
          toAccounts := hordered.toAccounts.drive (by rw [hr]; rfl) rfl nofun fun v hv => by
            cases hv
            exact ⟨t, List.mem_cons_self⟩ }
      once := by
        rcases h.once with hsafe | ho
        · exact Or.inl hsafe
        -- A driver that finishes a request for the first time is in none of the later roles.
        · have hcompleted : ¬ s.Completed u := by
            intro hc
            have := ho.active u hactive hc
            rw [hr] at this
            rcases this with hr | hr | ⟨hr, _⟩ <;> cases hr
          refine Or.inr
            { once := ?_
              pending := ?_
              active := ?_
              nodup := List.nodup_nil
              apart := nofun
              remaining := nofun
              discarded := nofun
              undiscarded := fun v hv => ho.undiscarded v (mem_of_cons (by simp) hv) }
          · intro v
            rcases eq_or_ne v u with rfl | hne
            · exact (completions_of_not hcompleted t).le
            · rw [completions_of_ne hne]
              exact ho.once v
          · intro v hv hc
            rcases completed_cases hc with rfl | hc
            · exact hnot hv
            · exact ho.pending v hv hc
          · intro v hv _
            have hv : s.activeRequest = some v := hv
            rw [hactive] at hv
            cases hv
            exact Or.inl rfl
      pool := h.pool.record (by simp) (by simp) (by simp)
      dialogues := h.dialogues.record (by simp) (by simp)
      accepting := h.accepting.record (by simp) }

/-- **The contexts of a completed request have been dealt with.** -/
theorem Valid.settle (h : Valid config safe s d e events) (hr : d.role = DriverRole.recycling u)
    (hhold : d.hold = Hold.nothing) :
    Valid config safe s { d with role := DriverRole.settled u, key := none } e events := by
  obtain ⟨hactive, ⟨f, hf⟩, hlt, hjob⟩ := h.active (u := u) (by rw [hr]; rfl)
  exact
    { traffic :=
        { h.traffic.become (r := DriverRole.settled u) (Or.inr (by rw [hr]; exact nofun)) rfl
            hactive hf nofun nofun hhold with }
      queue :=
        { h.queue with toDriven := h.queue.toDriven.drive (by simp [hr]) nofun rfl nofun }
      ordered :=
        { h.ordered with
          toAccounts := h.ordered.toAccounts.drive (by rw [hr]; rfl) rfl
            (fun v hv => by
              cases hv
              exact Or.inl (h.ordered.recycling u hr)) nofun }
      once := by
        refine h.once.imp id fun ho => ho.drive rfl fun v hv _ => ?_
        rw [hactive] at hv
        cases hv
        exact Or.inr (Or.inl rfl)
      pool := h.pool
      dialogues := h.dialogues
      accepting := h.accepting }

/-- Closing the context of a completed request has raised, and the request stays active. -/
theorem Valid.lose (h : Valid config safe s d e events) (hr : d.role = DriverRole.recycling u)
    (hhold : d.hold = Hold.nothing) (hlost : s.closed = false → safe = false) :
    Valid config safe s { d with role := DriverRole.idle, key := none } e events := by
  obtain ⟨hactive, ⟨f, hf⟩, hlt, hjob⟩ := h.active (u := u) (by rw [hr]; rfl)
  exact
    { traffic :=
        { h.traffic with
          shut := by
            intro j hj hs
            obtain ⟨_, l, hl, _⟩ := h.traffic.shut j hj hs
            rw [hr] at hl
            cases hl
          driver := nofun
          finishing := nofun
          requeueing := by
            rintro v (hv | hv) <;> cases hv
          quiet := nofun
          draining := nofun
          looping := fun _ hne => absurd rfl hne
          leaving := by
            rintro (hr | ⟨l, b, hr⟩) <;> cases hr
          holding := fun hne => absurd hhold hne }
      queue :=
        { h.queue with toDriven := h.queue.toDriven.drive (by simp [hr]) nofun rfl nofun }
      ordered :=
        { h.ordered with
          toAccounts := h.ordered.toAccounts.drive (by rw [hr]; rfl) rfl nofun nofun }
      once := by
        cases hclosed : s.closed with
        | false => exact Or.inl (hlost hclosed)
        | true =>
            exact h.once.imp id fun ho => ho.drive rfl fun v _ _ => Or.inr (Or.inr ⟨rfl, hclosed⟩)
      pool := h.pool
      dialogues := h.dialogues
      accepting := h.accepting }

/-- There is no active request any more. -/
def cleared (s : CoreScheduler) : CoreScheduler :=
  { s with activeRequest := none, activeFuture := none }

/-- Where the driver is after it has dealt with the active request. -/
def DriverNote.next (d : DriverNote) : DriverNote :=
  { d with role := if d.closing then DriverRole.quiet else DriverRole.running }

theorem mem_live_cleared {v : ℕ} : v ∈ s.cleared.live ↔ v ∈ s.pending := by
  simp [mem_live, cleared]

theorem mem_live_of_cleared {v : ℕ} (h : v ∈ s.cleared.live) : v ∈ s.live :=
  mem_live.2 (Or.inl (mem_live_cleared.1 h))

theorem DriverNote.next_cases (d : DriverNote) :
    d.next.role = DriverRole.quiet ∧ d.closing = true ∨
      d.next.role = DriverRole.running ∧ d.closing = false := by
  unfold DriverNote.next
  cases d.closing <;> simp

theorem request?_next (d : DriverNote) : d.next.role.request? = none := by
  rcases d.next_cases with ⟨h, -⟩ | ⟨h, -⟩ <;> rw [h] <;> rfl

theorem remaining_next (d : DriverNote) : d.next.role.remaining = [] := by
  rcases d.next_cases with ⟨h, -⟩ | ⟨h, -⟩ <;> rw [h] <;> rfl

/-- It deals with no request. -/
theorem next_role_ne {r : DriverRole} (h : r.request? ≠ none) : d.next.role ≠ r := by
  rintro rfl
  exact h (request?_next d)

theorem next_role_ne_draining (l : List ℕ) (b : Bool) : d.next.role ≠ DriverRole.draining l b := by
  intro h
  rcases d.next_cases with ⟨hn, -⟩ | ⟨hn, -⟩ <;> rw [hn] at h <;> cases h

theorem Traffic.clear (h : Traffic s d e) (hr : d.role = DriverRole.settled u)
    (hdone : s.activeFuture ≠ some none) (hhold : d.hold = Hold.nothing) :
    Traffic s.cleared d.next e where
  core := h.core
  advance := fun v hv => absurd (h.advance v hv).2 hdone
  warm := h.warm
  shut := by
    intro j hj hs
    obtain ⟨_, l, hl, _⟩ := h.shut j hj hs
    rw [hr] at hl
    cases hl
  known := h.known
  active := by simp [cleared]
  exclusive := fun _ => rfl
  driver := by
    intro v hv
    rw [request?_next] at hv
    cases hv
  finishing := fun v r hv => absurd hv (next_role_ne nofun)
  requeueing := by
    rintro v (hv | hv)
    · exact absurd hv (next_role_ne nofun)
    · exact absurd hv (next_role_ne nofun)
  quiet := fun _ => rfl
  draining := fun l b hv => absurd hv (next_role_ne_draining l b)
  closing := h.closing
  looping := fun hc _ => h.looping hc (by rw [hr]; exact nofun)
  leaving := by
    rintro (hv | ⟨l, b, hv⟩)
    · rcases d.next_cases with ⟨_, hc⟩ | ⟨hn, _⟩
      · exact hc
      · rw [hn] at hv
        cases hv
    · exact absurd hv (next_role_ne_draining l b)
  stopped := h.stopped
  free := fun _ => rfl
  kv2 := h.kv2
  holding := fun hne => absurd hhold hne

theorem Queue.clear (h : Queue config s d e) (hjob : ∀ v, e.job ≠ some (SchedulerJob.advance v))
    (hkey : d.key = none) : Queue config s.cleared d.next e :=
  { h with
    toDriven :=
      { apart := nofun
        completion := nofun
        requeueing := fun v hv => absurd hv (next_role_ne nofun)
        key := by
          intro key hk
          have hk : d.key = some key := hk
          rw [hkey] at hk
          cases hk
        drained := fun l b hv => absurd hv (next_role_ne_draining l b) }
    active_lt := nofun
    single := fun v hv w hw => h.single v (mem_live_of_cleared hv) w (mem_live_of_cleared hw)
    startable := nofun
    permitted := fun v hj => absurd hj (hjob v)
    grants := fun v hv w hw => h.grants v (mem_live_of_cleared hv) w (mem_live_of_cleared hw)
    capacity := by
      refine le_trans (Finset.card_le_card ?_) h.capacity
      intro v hv
      rw [List.mem_toFinset] at hv ⊢
      exact mem_live_of_cleared hv
    paused := nofun }

theorem Accounts.clear (h : Accounts s d) (hr : d.role = DriverRole.settled u)
    (hactive : s.activeRequest = some u) : Accounts s.cleared d.next :=
  { h with
    accounted := by
      intro v hv
      rw [mem_live_cleared, remaining_next]
      have := h.accounted v hv
      rw [mem_live, hr] at this
      rcases this with hc | (hp | ha) | hl | hd
      · exact Or.inl hc
      · exact Or.inr (Or.inl hp)
      · rw [hactive] at ha
        cases ha
        exact (h.settled u hr).imp id Or.inl
      · cases hl
      · exact Or.inr (Or.inr (Or.inr hd))
    remaining_lt := by
      rw [remaining_next]
      exact nofun
    kept := by
      rw [remaining_next]
      exact nofun
    lost := fun _ => rfl
    settled := fun v hv => absurd hv (next_role_ne nofun)
    recycling := fun v hv => absurd hv (next_role_ne nofun) }

theorem Dialogues.clear (h : Dialogues s e) : Dialogues s.cleared e :=
  { h with
    inUse := by
      intro v c hv hc
      rcases hv with hv | hv
      · exact h.inUse v c (Or.inl hv) hc
      · cases hv.1
    releasing := fun key hk v hv => h.releasing key hk v (mem_live_of_cleared hv) }

/-- **Clearing the active request keeps the invariant.** -/
theorem Valid.clear (h : Valid config safe s d e events) (hr : d.role = DriverRole.settled u) :
    Valid config safe s.cleared d.next e events := by
  obtain ⟨hactive, ⟨f, hf⟩, -, hjob⟩ := h.active (u := u) (by rw [hr]; rfl)
  obtain ⟨hkey, hhold⟩ := h.released (by rw [hr]; exact nofun)
  have hdone : s.activeFuture ≠ some none := by
    rw [hf]
    exact nofun
  exact
    { traffic := h.traffic.clear hr hdone hhold
      queue := h.queue.clear hjob hkey
      ordered :=
        { h.ordered with
          ready := nofun
          answered := nofun
          toAccounts := h.ordered.toAccounts.clear hr hactive }
      once := by
        refine h.once.imp id fun ho => ?_
        have hcleared : Once s.cleared d := { ho with active := nofun }
        exact hcleared.drive (remaining_next d) nofun
      pool := { h.pool with }
      dialogues := h.dialogues.clear
      accepting := { h.accepting with } }

end Active

/-! ### The choice of the next request -/

section Start

variable {u v : ℕ}

/-- `(priority, queued_at)`. -/
def stamp (s : CoreScheduler) (u : ℕ) : ℤ ×ₗ ℚ :=
  toLex ((s.requests u).priority, (s.requests u).queuedAt)

theorem precedes_iff : s.Precedes u v ↔ s.stamp u < s.stamp v := by
  rw [stamp, stamp, Prod.Lex.toLex_lt_toLex]
  rfl

/-- The first of the smallest: what stands before it is greater, what stands after it not less. -/
theorem firstMin_spec {l : List ℕ} (h : s.firstMin l = some v) :
    ∃ l₁ l₂, l = l₁ ++ v :: l₂ ∧ (∀ w ∈ l₁, s.stamp v < s.stamp w) ∧
      ∀ w ∈ l₂, s.stamp v ≤ s.stamp w := by
  induction l generalizing v with
  | nil => cases h
  | cons u rest ih =>
      rw [firstMin] at h
      cases hrest : s.firstMin rest with
      | none =>
          rw [hrest] at h
          cases h
          cases rest with
          | nil => exact ⟨[], [], rfl, nofun, nofun⟩
          | cons w rest =>
              rw [firstMin] at hrest
              split at hrest
              · cases hrest
              · split at hrest <;> cases hrest
      | some m =>
          obtain ⟨l₁, l₂, rfl, h₁, h₂⟩ := ih hrest
          rw [hrest] at h
          simp only [precedes_iff] at h
          split at h
          next hlt =>
            cases h
            refine ⟨u :: l₁, l₂, rfl, ?_, h₂⟩
            intro w hw
            rcases List.mem_cons.1 hw with rfl | hw
            · exact hlt
            · exact h₁ w hw
          next hle =>
            cases h
            have hle := not_lt.1 hle
            refine ⟨[], _, rfl, nofun, ?_⟩
            intro w hw
            rcases List.mem_append.1 hw with hw | hw
            · exact hle.trans (h₁ w hw).le
            · rcases List.mem_cons.1 hw with rfl | hw
              · exact hle
              · exact hle.trans (h₂ w hw)

theorem humanKey_ne_voice (sessionId : PyStr) :
    PyStr.ofString "human:" ++ sessionId ≠ PyStr.ofString "voice" := by
  intro h
  have hhead := congrArg List.head? h
  rw [List.head?_append_of_ne_nil _ (by decide)] at hhead
  exact absurd hhead (by decide)

/-- The users of one dialogue have one priority. -/
theorem Ordered.priority_eq (h : Ordered s d e) (hu : s.IsUser u) (hv : s.IsUser v)
    (hk : s.SameDialogue u v) : (s.requests u).priority = (s.requests v).priority := by
  have hlabel : (s.requests u).label = "voice" ↔ (s.requests v).label = "voice" := by
    rw [IsUser] at hu hv
    rw [SameDialogue, contextKey, contextKey, hu, hv] at hk
    by_cases hul : (s.requests u).label = "voice"
    · by_cases hvl : (s.requests v).label = "voice"
      · exact iff_of_true hul hvl
      · rw [if_pos hul, if_neg hvl, if_pos rfl] at hk
        exact absurd hk.symm (humanKey_ne_voice _)
    · by_cases hvl : (s.requests v).label = "voice"
      · rw [if_neg hul, if_pos hvl, if_pos rfl] at hk
        exact absurd hk (humanKey_ne_voice _)
      · exact iff_of_false hul hvl
  rw [h.priority u hu, h.priority v hv]
  by_cases hul : (s.requests u).label = "voice"
  · rw [if_pos hul, if_pos (hlabel.1 hul)]
  · rw [if_neg hul, if_neg (mt hlabel.2 hul)]

/-- A user's request that can be started because nobody in its dialogue has been. -/
theorem runnable_user {view : PoolView} (hu : s.IsUser u) (hc : (s.requests u).cancelled = false)
    (hi : (s.requests u).iterator = none) (hx : (s.requests u).context = none) :
    s.Runnable view u ↔ ∀ v ∈ s.pending, v ≠ u → Dialogic (s.requests v) → s.SameDialogue v u →
      (s.requests v).iterator = none := by
  have hd : Dialogic (s.requests u) := Or.inl hu
  simp only [Runnable, hc, hi, hx, hd, SameDialogue, hu.symm ▸ (by decide :
    RequestKind.user ≠ RequestKind.system)]
  simp

/-- **The chosen request was the first of its dialogue.** -/
theorem Valid.first (h : Valid config safe s d e events) (hd : d.role = DriverRole.running)
    (hopen : d.closing = false) (hactive : s.activeRequest = none) {view : PoolView}
    (hmin : s.firstMin (s.pending.filter fun u => decide (s.Runnable view u)) = some v)
    (hv : s.IsUser v) (hc : (s.requests v).cancelled = false) : s.First v := by
  have hclosed : s.closed = false := h.traffic.looping hopen (by rw [hd]; exact nofun)
  obtain ⟨l₁, l₂, hl, h₁, h₂⟩ := firstMin_spec hmin
  have hmem : v ∈ s.pending.filter fun u => decide (s.Runnable view u) := by
    rw [hl]
    simp
  rw [List.mem_filter, decide_eq_true_eq] at hmem
  obtain ⟨hpending, hrun⟩ := hmem
  by_cases hi : (s.requests v).iterator = none
  case neg => exact h.ordered.begun v hv hi
  have hcontext : ∀ w, (s.requests w).iterator = none → (s.requests w).context = none := by
    intro w hw
    by_contra hne
    exact h.queue.context w hne hw
  rw [runnable_user hv hc hi (hcontext v hi)] at hrun
  intro u huv hu hk
  by_contra hnot
  rw [not_or, Bool.not_eq_true] at hnot
  obtain ⟨huc, hcompleted⟩ := hnot
  -- The earlier request is still queued, and nobody keeps it from being started.
  have hup : u ∈ s.pending := by
    have hlt : u < s.nextRequest := huv.trans (h.queue.pending_lt v hpending)
    rcases h.ordered.accounted u hlt with hx | hx | hx | hx
    · exact absurd hx hcompleted
    · rcases mem_live.1 hx with hx | hx
      · exact hx
      · rw [hactive] at hx
        cases hx
    · rw [hd] at hx
      cases hx
    · rw [h.ordered.raised hx] at hclosed
      cases hclosed
  have hui : (s.requests u).iterator = none := hrun u hup huv.ne (Or.inl hu) hk
  have huf : u ∈ s.pending.filter fun u => decide (s.Runnable view u) := by
    rw [List.mem_filter, decide_eq_true_eq, runnable_user hu huc hui (hcontext u hui)]
    refine ⟨hup, fun w hw _ hwd hwk => ?_⟩
    rcases eq_or_ne w v with rfl | hwv
    · exact hi
    · exact hrun w hw hwv hwd (hwk.trans hk)
  have hstamp : s.stamp u ≤ s.stamp v := by
    rw [stamp, stamp, Prod.Lex.toLex_le_toLex]
    exact Or.inr ⟨h.ordered.priority_eq hu hv hk,
      h.ordered.stamps u v huv (h.queue.pending_lt v hpending) hu hv⟩
  rw [hl] at huf
  rcases List.mem_append.1 huf with huf | huf
  · exact absurd (h₁ u huf) hstamp.not_gt
  · rcases List.mem_cons.1 huf with huf | huf
    · exact absurd huf huv.ne
    · -- Then the later request would stand before the earlier one.
      have hsub : (l₁ ++ v :: l₂).Pairwise fun u v => s.Waiting u → s.Waiting v → u < v :=
        hl ▸ h.ordered.waiting.sublist List.filter_sublist
      have := (List.pairwise_cons.1 (List.pairwise_append.1 hsub).2.1).1 u huf ⟨hv, hi⟩ ⟨hu, hui⟩
      omega

/-- Nobody waits for the executor. -/
theorem Traffic.no_core (h : Traffic s d e) (hfuture : s.activeFuture ≠ some none)
    (hkv2 : s.kv2Future ≠ some none) (hd : ∀ l, d.role ≠ DriverRole.draining l true) :
    (s.work e).countP isCore = 0 := by
  rw [List.countP_eq_zero]
  intro j hj
  cases j with
  | advance u => exact absurd (h.advance u hj).2 hfuture
  | releaseContext sessionId => simp [isCore]
  | warmManagerKv2 => exact absurd (h.warm hj) hkv2
  | discard u =>
      obtain ⟨_, l, hl, _⟩ := h.shut _ hj rfl
      exact absurd hl (hd l)
  | closeAllContexts =>
      obtain ⟨_, l, hl, _⟩ := h.shut _ hj rfl
      exact absurd hl (hd l)

/-- An operation that the executor may be given. -/
structure Submittable (s : CoreScheduler) (d : DriverNote) (e : ExecutorNote) (j : SchedulerJob) :
    Prop where
  core : isCore j = true → (s.work e).countP isCore = 0
  advance : ∀ u, j = SchedulerJob.advance u → s.activeRequest = some u ∧ s.activeFuture = some none
  warm : j = SchedulerJob.warmManagerKv2 → s.kv2Future = some none
  shut : isShutdownJob j = true →
    s.shutdownFuture = some none ∧ ∃ l, d.role = DriverRole.draining l true ∧ l.head? = requestOf j
  known : ∀ u, requestOf j = some u → u < s.nextRequest

/-- **Giving the executor an operation keeps the invariant.** -/
theorem Valid.submit (h : Valid config safe s d e events) {j : SchedulerJob} (hs : s.Submittable d e j) :
    Valid config safe (s.submitJob j) d e events := by
  unfold submitJob
  split
  · exact h
  · have hmem : ∀ i, i ∈ e.job.toList ++ (s.jobs ++ [j]) → i ∈ s.work e ∨ i = j := by
      intro i hi
      rw [← List.append_assoc, List.mem_append, List.mem_singleton] at hi
      exact hi
    exact
      { traffic :=
          { h.traffic with
            core := by
              have hcore := h.traffic.core
              rw [work, ← List.append_assoc, List.countP_append, List.countP_singleton]
              rw [work] at hcore
              split
              next hj =>
                have := hs.core hj
                rw [work] at this
                omega
              next => omega
            advance := by
              intro u hu
              rcases hmem _ hu with hu | hu
              · exact h.traffic.advance u hu
              · exact hs.advance u hu.symm
            warm := by
              intro hw
              rcases hmem _ hw with hw | hw
              · exact h.traffic.warm hw
              · exact hs.warm hw.symm
            shut := by
              intro i hi hshut
              rcases hmem i hi with hi | rfl
              · exact h.traffic.shut i hi hshut
              · exact hs.shut hshut
            known := by
              intro i hi u hu
              rcases hmem i hi with hi | rfl
              · exact h.traffic.known i hi u hu
              · exact hs.known u hu }
        queue := { h.queue with }
        ordered := { h.ordered with }
        once := h.once.imp id fun ho => { ho with }
        pool := { h.pool with }
        dialogues := { h.dialogues with }
        accepting := { h.accepting with } }

/-- Nobody waits for the release of a session. -/
theorem Valid.submitRelease (h : Valid config safe s d e events) (sessionId : PyStr) :
    Valid config safe (s.submitJob (SchedulerJob.releaseContext sessionId)) d e events :=
  h.submit
    { core := nofun
      advance := nofun
      warm := nofun
      shut := nofun
      known := nofun }

/-- The active request is new. -/
def activated (u : ℕ) (s : CoreScheduler) : CoreScheduler :=
  { s with
    pending := s.pending.erase u
    activeRequest := some u
    activeFuture := some none }

theorem mem_live_activated (hactive : s.activeRequest = none) (hu : u ∈ s.pending) {w : ℕ}
    (hnodup : s.pending.Nodup) : w ∈ (s.activated u).live ↔ w ∈ s.live := by
  simp only [mem_live, activated, hnodup.mem_erase_iff, hactive, Option.some.injEq,
    reduceCtorEq, or_false]
  constructor
  · rintro (⟨_, hw⟩ | rfl)
    · exact hw
    · exact hu
  · intro hw
    rcases eq_or_ne w u with rfl | hne
    · exact Or.inr rfl
    · exact Or.inl ⟨hne, hw⟩

theorem Startable.activated (hs : s.Startable u) (w : ℕ) : (s.activated w).Startable u :=
  hs.imp id (Or.imp id fun hall v hv => hall v (List.mem_of_mem_erase hv))

/-- What `_runnable` makes sure of. -/
theorem Runnable.startable {view : PoolView} (h : s.Runnable view u) :
    (s.requests u).cancelled = true ∨ s.Startable u := by
  unfold Runnable at h
  simp only at h
  split at h
  · exact h.elim
  · split at h
    next hc => exact hc.imp id Or.inl
    · split at h
      next hk =>
        refine Or.inr (Or.inr (Or.inl ?_))
        rintro (hd | hd) <;> rw [hd] at hk <;> cases hk.1
      · split at h
        · exact Or.inr (Or.inr (Or.inr h))
        next hd => exact Or.inr (Or.inr (Or.inl hd))

/-- What is known of the request that is chosen. -/
theorem mem_of_firstMin {view : PoolView}
    (hmin : s.firstMin (s.pending.filter fun u => decide (s.Runnable view u)) = some u) :
    u ∈ s.pending ∧ s.Runnable view u := by
  obtain ⟨l₁, l₂, hl, -⟩ := firstMin_spec hmin
  have hmem : u ∈ s.pending.filter fun u => decide (s.Runnable view u) := by
    rw [hl]
    simp
  rwa [List.mem_filter, decide_eq_true_eq] at hmem

theorem Traffic.activate (h : Traffic s d e) (hd : d.role = DriverRole.running)
    (hfree : d.free = false) (hfuture : s.activeFuture = none) (hkv2 : s.kv2Future = none) :
    Traffic (s.activated u) d e :=
  { h with
    advance := by
      intro w hw
      have := (h.advance w hw).2
      rw [hfuture] at this
      cases this
    active := by simp [activated]
    exclusive := fun hne => absurd hkv2 hne
    driver := by
      rw [hd]
      exact nofun
    finishing := by
      rw [hd]
      exact nofun
    requeueing := by
      rw [hd]
      rintro w (hw | hw) <;> cases hw
    quiet := by
      rw [hd]
      exact nofun
    draining := by
      rw [hd]
      exact nofun
    free := by
      rw [hfree]
      exact nofun }

theorem Queue.activate (h : Queue config s d e) (hd : d.role = DriverRole.running)
    (hactive : s.activeRequest = none) (hpending : u ∈ s.pending)
    (hstartable : (s.requests u).cancelled = true ∨ s.Startable u) :
    Queue config (s.activated u) d e :=
  have hlive : ∀ w, w ∈ (s.activated u).live ↔ w ∈ s.live := fun w =>
    mem_live_activated hactive hpending h.nodup
  { h with
    pending_lt := fun w hw => h.pending_lt w (List.mem_of_mem_erase hw)
    active_lt := by
      intro w hw
      cases hw
      exact h.pending_lt u hpending
    nodup := h.nodup.erase u
    apart := by
      intro w hw hp
      cases hw
      exact absurd hp h.nodup.not_mem_erase
    single := by
      intro v hv w hw
      rw [hlive] at hv hw
      exact h.single v hv w hw
    startable := by
      intro w hw _
      cases hw
      exact hstartable.imp id fun hs => hs.activated u
    permitted := fun w hj hs => (h.permitted w hj hs).activated u
    grants := by
      intro v hv w hw
      rw [hlive] at hv hw
      exact h.grants v hv w hw
    capacity := by
      refine le_trans (Finset.card_le_card ?_) h.capacity
      intro w hw
      rw [List.mem_toFinset] at hw ⊢
      exact (hlive w).1 hw
    completion := by
      intro w c _ hf
      cases hf
    paused := by
      intro w _ hf
      cases hf
    drained := by
      rw [hd]
      exact nofun }

theorem Turns.activate (h : Turns s e)
    (hfirst : s.IsUser u → (s.requests u).cancelled = true ∨ s.First u) :
    Turns (s.activated u) e :=
  { h with
    waiting := h.waiting.sublist List.erase_sublist
    ready := by
      intro w hw _ hk
      cases hw
      exact hfirst hk
    answered := by
      intro w f _ hf
      cases hf }

theorem Accounts.activate (h : Accounts s d) (hd : d.role = DriverRole.running)
    (hopen : s.closed = false) (hactive : s.activeRequest = none) (hpending : u ∈ s.pending)
    (hnodup : s.pending.Nodup) : Accounts (s.activated u) d :=
  { h with
    accounted := by
      intro w hw
      rw [mem_live_activated hactive hpending hnodup]
      exact h.accounted w hw
    settled := by
      rw [hd]
      exact nofun
    lost := by
      intro hraised
      have hclosed := h.raised hraised
      rw [hopen] at hclosed
      cases hclosed }

theorem Once.activate (h : Once s d) (hpending : u ∈ s.pending) : Once (s.activated u) d :=
  { h with
    pending := fun w hw => h.pending w (List.mem_of_mem_erase hw)
    active := by
      intro w hw hc
      cases hw
      exact absurd hc (h.pending u hpending)
    apart := fun w hw hp => h.apart w hw (List.mem_of_mem_erase hp) }

theorem Dialogues.activate (h : Dialogues s e) (hactive : s.activeRequest = none)
    (hpending : u ∈ s.pending) (hnodup : s.pending.Nodup) : Dialogues (s.activated u) e :=
  { h with
    inUse := by
      intro w c hw hc
      refine h.inUse w c (Or.inl ?_) hc
      rcases hw with hw | ⟨hw, _⟩
      · exact List.mem_of_mem_erase hw
      · cases hw
        exact hpending
    releasing := by
      intro key hk w hw
      rw [mem_live_activated hactive hpending hnodup] at hw
      exact h.releasing key hk w hw }

/-- **Making the chosen request the active one keeps the invariant.** -/
theorem Valid.activate (h : Valid config safe s d e events) (hd : d.role = DriverRole.running)
    (hopen : d.closing = false) (hfree : d.free = false) (hfuture : s.activeFuture = none)
    (hkv2 : s.kv2Future = none) {view : PoolView}
    (hmin : s.firstMin (s.pending.filter fun u => decide (s.Runnable view u)) = some u) :
    Valid config safe (s.activated u) d e events := by
  have hactive : s.activeRequest = none := h.traffic.active.2 hfuture
  have hclosed : s.closed = false := h.traffic.looping hopen (by rw [hd]; exact nofun)
  obtain ⟨hpending, hrun⟩ := mem_of_firstMin hmin
  have hfirst : s.IsUser u → (s.requests u).cancelled = true ∨ s.First u := by
    intro hk
    by_cases hc : (s.requests u).cancelled = true
    · exact Or.inl hc
    · exact Or.inr (h.first hd hopen hactive hmin hk (Bool.not_eq_true _ ▸ hc))
  exact
    { traffic := h.traffic.activate hd hfree hfuture hkv2
      queue := h.queue.activate hd hactive hpending hrun.startable
      ordered :=
        { h.ordered with
          toTurns := h.ordered.toTurns.activate hfirst
          toAccounts := h.ordered.toAccounts.activate hd hclosed hactive hpending h.queue.nodup }
      once := h.once.imp id fun ho => ho.activate hpending
      pool := { h.pool with }
      dialogues := h.dialogues.activate hactive hpending h.queue.nodup
      accepting := { h.accepting with } }

/-- **Starting the next request keeps the invariant.** -/
theorem Valid.start (h : Valid config safe s d e events) (hd : d.role = DriverRole.running)
    (hopen : d.closing = false) (hfree : d.free = false) (hfuture : s.activeFuture = none)
    (hkv2 : s.kv2Future = none) (view : PoolView) : Valid config safe (s.startNext view) d e events := by
  unfold startNext
  cases hmin : s.firstMin (s.pending.filter fun u => decide (s.Runnable view u)) with
  | none => exact h
  | some u =>
      refine (h.activate hd hopen hfree hfuture hkv2 hmin).submit
        { core := ?_
          advance := ?_
          warm := nofun
          shut := nofun
          known := ?_ }
      · intro _
        exact h.traffic.no_core (by rw [hfuture]; exact nofun) (by rw [hkv2]; exact nofun)
          (by rw [hd]; exact nofun)
      · intro w hw
        cases hw
        exact ⟨rfl, rfl⟩
      · intro w hw
        cases hw
        exact h.queue.pending_lt u (mem_of_firstMin hmin).1

end Start

end CoreScheduler
