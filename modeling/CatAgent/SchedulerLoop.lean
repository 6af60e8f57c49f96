/-
**The loop of the core's scheduler, and its end.**

The programs of the driver have outlines: a round of the loop begins and ends without a request
that the driver deals with, and so does the rest of the work of the thread that closes the
scheduler.

Main results:

* `CoreScheduler.drives_settle` — the result of a request is dealt with;
* `CoreScheduler.drives_runOnce` — **a round of the loop keeps the invariant**;
* `CoreScheduler.drives_shutdown` — **and so does the end of the closing thread**.
-/

import CatAgent.SchedulerOutlines

set_option relaxedAutoImplicit false
set_option autoImplicit false

namespace CoreScheduler

variable {config : SchedulerConfig} {safe : Bool} {α β : Type} {d : DriverNote}

/-! ### Rules -/

section Rules

variable {Q : α → DriverNote → Prop}

/-- The outlines of the driver's programs. -/
def Drives (config : SchedulerConfig) (safe : Bool) (p : SchedulerM α) (d : DriverNote)
    (Q : α → DriverNote → Prop) : Prop :=
  ∀ l : SchedulerNote, l.driver = d →
    Outline config safe SchedulerThread.driver p l fun a l' => Q a l'.driver

theorem drives_pure {a : α} (h : Q a d) : Drives config safe (pure a) d Q := by
  intro l hl
  subst hl
  exact Threads.outline_pure h

theorem Drives.mono {p : SchedulerM α} {R : α → DriverNote → Prop} (h : Drives config safe p d Q)
    (hQ : ∀ a d', Q a d' → R a d') : Drives config safe p d R :=
  fun l hl => (h l hl).mono fun a l' => hQ a l'.driver

theorem drives_bind {Q : β → DriverNote → Prop} {p : SchedulerM α} {f : α → SchedulerM β}
    (h : Drives config safe p d fun a d' => Drives config safe (f a) d' Q) :
    Drives config safe (p >>= f) d Q :=
  fun l hl => outline_bind ((h l hl).mono fun _ l' hf => hf l' rfl)

theorem drives_andThen {Q : Except PyStr β → DriverNote → Prop} {p : SchedulerM (Except PyStr α)}
    {f : α → SchedulerM (Except PyStr β)}
    (h : Drives config safe p d fun r d' =>
      (∀ msg, r = Except.error msg → Q (Except.error msg) d') ∧
        ∀ a, r = Except.ok a → Drives config safe (f a) d' Q) :
    Drives config safe (andThen p f) d Q :=
  fun l hl => outline_andThen ((h l hl).mono fun _ l' hr =>
    ⟨hr.1, fun a ha => hr.2 a ha l' rfl⟩)

theorem drives_succeed {Q : Except PyStr α → DriverNote → Prop} {p : SchedulerM α}
    (h : Drives config safe p d fun a d' => Q (Except.ok a) d') : Drives config safe (succeed p) d Q :=
  fun l hl => outline_succeed (h l hl)

theorem drives_ite {c : Prop} [Decidable c] {p q : SchedulerM α}
    (hp : c → Drives config safe p d Q) (hq : ¬ c → Drives config safe q d Q) :
    Drives config safe (if c then p else q) d Q :=
  fun l hl => outline_ite (fun hc => hp hc l hl) fun hc => hq hc l hl

/-- A new note of the driver. -/
theorem invariant_driver {s : CoreScheduler} {notes : SchedulerThread → SchedulerNote}
    {d' : DriverNote} (h : Valid config safe s d' (notes SchedulerThread.executor).executor
      fun i => (notes i).accepting) :
    Invariant config safe s (Function.update notes SchedulerThread.driver
      { notes SchedulerThread.driver with driver := d' }) := by
  rw [invariant_update]
  have hevents : (fun j => (if j = SchedulerThread.driver then
      { notes SchedulerThread.driver with driver := d' } else notes j).accepting) =
      fun j => (notes j).accepting := by
    funext j
    split
    next hj => rw [hj]
    next => rfl
  rw [hevents]
  exact h

theorem drives_access {f : CoreScheduler → α × CoreScheduler}
    (h : ∀ s e events, Valid config safe s d e events →
      ∃ d', Valid config safe (f s).2 d' e events ∧ Q (f s).1 d') :
    Drives config safe (access f) d Q := by
  intro l hl
  refine outline_access fun s notes hs hn => ?_
  subst hn hl
  obtain ⟨d', hs', hQ⟩ := h s _ _ hs
  exact ⟨_, invariant_driver hs', hQ⟩

theorem drives_read {f : CoreScheduler → α}
    (h : ∀ s e events, Valid config safe s d e events →
      ∃ d', Valid config safe s d' e events ∧ Q (f s) d') :
    Drives config safe (read f) d Q := drives_access h

theorem drives_update {Q : Unit → DriverNote → Prop} {f : CoreScheduler → CoreScheduler}
    (h : ∀ s e events, Valid config safe s d e events →
      ∃ d', Valid config safe (f s) d' e events ∧ Q () d') :
    Drives config safe (update f) d Q := drives_access h

theorem drives_await {f : CoreScheduler → Option α}
    (h : ∀ s e events x, Valid config safe s d e events → f s = some x →
      ∃ d', Valid config safe s d' e events ∧ Q x d') :
    Drives config safe (await f) d Q := by
  intro l hl
  refine outline_await fun s notes x hs hn hx => ?_
  subst hn hl
  obtain ⟨d', hs', hQ⟩ := h s _ _ x hs hx
  exact ⟨_, invariant_driver hs', hQ⟩

theorem drives_silent {e : SchedulerEffect} (he : Silent e) {Q : e.Answer → DriverNote → Prop}
    (h : ∀ x, Q x d) : Drives config safe (perform e) d Q := by
  intro l hl
  subst hl
  exact outline_silent he h

theorem drives_keepsDialogue {c : ℕ} {Q : Bool → DriverNote → Prop} (h : ∀ b, Q b d) :
    Drives config safe (keepsDialogue c) d Q := drives_silent (silent_keepsDialogue c) h

theorem drives_enqueue {event : SystemEvent} {priority : ℤ} {coalesceKey : Option PyStr}
    {Q : Bool → DriverNote → Prop} (h : ∀ b, Q b d) :
    Drives config safe (enqueue config event priority coalesceKey) d Q := by
  intro l hl
  subst hl
  exact outline_enqueue fun b _ => h b

end Rules

/-! ### The result of a request -/

section Settle

variable {u : ℕ}

/-- `_complete` writes the log once, and finishes the run of a task. -/
theorem drives_complete {t : ManagerTurn} {Q : Unit → DriverNote → Prop}
    (h : ∀ s e events, Valid config safe s d e events →
      ∃ d', Valid config safe (s.record (SchedulerEvent.completed u t)) d' e events ∧ Q () d') :
    Drives config safe (complete u t) d Q := by
  refine drives_bind (drives_access fun s e events hs => ?_)
  obtain ⟨d', hs', hQ⟩ := h s e events hs
  refine ⟨d', hs', ?_⟩
  cases (s.requests u).taskRun with
  | none => exact drives_pure hQ
  | some event => exact drives_silent (silent_finishRun event t.kind) fun _ => hQ

/-- A user's dialogue has its own key. -/
theorem isUser_of_contextKey {config : SchedulerConfig} {s : CoreScheduler} {e : ExecutorNote}
    (h : Queue config s d e) {v : ℕ} (hu : s.IsUser u)
    (hk : contextKey (s.requests v) = contextKey (s.requests u)) : s.IsUser v := by
  by_contra hv
  have hlabel : (s.requests v).label ≠ "voice" := fun hl => hv (h.voice v hl)
  have hkind : (s.requests v).kind ≠ RequestKind.user := hv
  rw [contextKey, if_neg hlabel, if_neg hkind, contextKey] at hk
  have hu : (s.requests u).kind = RequestKind.user := hu
  rw [hu, if_pos rfl] at hk
  split at hk
  · exact absurd hk (by decide)
  · have hhead := congrArg List.head? hk
    rw [List.head?_append_of_ne_nil _ (by decide)] at hhead
    exact absurd hhead (by decide)

/-- Nobody who is still to be served has the context of a request that has been completed. -/
theorem Valid.recycled {s : CoreScheduler} {e : ExecutorNote}
    {events : SchedulerThread → Option SystemEvent} (h : Valid config safe s d e events)
    {key : PyStr} (hkey : d.key = some key) {v : ℕ} (hv : s.Unfinished v)
    (hk : contextKey (s.requests v) = key) : (s.requests v).context = none := by
  obtain ⟨u, hu, huser, huk, hcontext⟩ := h.queue.key key hkey
  obtain ⟨hactive, ⟨f, hf⟩, -⟩ := h.active (u := u) (by rw [hu]; rfl)
  have hpaused := h.traffic.requeueing u (Or.inr hu)
  rcases hv with hv | ⟨hv, hfuture | hfuture⟩
  · have hne : v ≠ u := by
      rintro rfl
      have := h.queue.apart v hactive hv
      rw [hu] at this
      cases this
    have hsame : contextKey (s.requests v) = contextKey (s.requests u) := hk.trans huk.symm
    have hvuser := isUser_of_contextKey h.queue huser hsame
    rcases h.queue.single v (mem_live.2 (Or.inl hv)) u (mem_live.2 (Or.inr hactive)) hne
      (Or.inl hvuser) (Or.inl huser) hsame with hi | hi
    · by_contra hc
      exact h.queue.context v hc hi
    · exact absurd hi (h.queue.context u hcontext)
  · rw [hf] at hfuture
    cases hfuture
  · exact absurd hfuture hpaused

theorem drives_closeContext {key : PyStr} {Q : Except PyStr Unit → DriverNote → Prop}
    (hr : d.role = DriverRole.recycling u) (hhold : d.hold = Hold.nothing)
    (hkey : d.key = some key) (hok : Q (Except.ok ()) d)
    (herror : ∀ msg, Q (Except.error msg) { d with role := DriverRole.idle, key := none }) :
    Drives config safe (closeContext key) d Q := by
  intro l hl
  subst hl
  have hmay : MayHold SchedulerThread.driver l := ⟨u, hr⟩
  refine outline_closeContext hmay hhold ?_ hok ?_
  · intro s notes hs hn v hv hk
    exact Valid.recycled hs (by rw [hn]; exact hkey) hv hk
  · intro msg s notes hs hn hlost
    subst hn
    exact ⟨_, invariant_driver (Valid.lose hs hr hhold (hlost rfl)), herror msg⟩

/-- The driver learns the dialogue of a request that has been completed. -/
theorem Valid.learnKey {s : CoreScheduler} {e : ExecutorNote}
    {events : SchedulerThread → Option SystemEvent} (h : Valid config safe s d e events)
    (hr : d.role = DriverRole.recycling u) (hu : s.IsUser u)
    (hc : (s.requests u).context ≠ none) :
    Valid config safe s { d with key := some (contextKey (s.requests u)) } e events :=
  { h with
    traffic := { h.traffic with }
    queue :=
      { h.queue with
        key := by
          intro key hk
          cases hk
          exact ⟨u, hr, hu, rfl, hc⟩ }
    ordered := { h.ordered with }
    once := h.once.imp id fun ho => { ho with } }

/-- `_recycle_completed_interactive_context`: it raises only when closing the context does, and
then the request stays active. -/
theorem drives_recycle {t : ManagerTurn} {Q : Except PyStr Unit → DriverNote → Prop}
    (hr : d.role = DriverRole.recycling u) (hhold : d.hold = Hold.nothing)
    (hok : ∀ key, Q (Except.ok ()) { d with key })
    (herror : ∀ msg, Q (Except.error msg) { d with role := DriverRole.idle, key := none }) :
    Drives config safe (recycleCompletedInteractiveContext u t) d Q := by
  have hstay : Q (Except.ok ()) d := hok d.key
  refine drives_bind (drives_read fun s e events hs => ?_)
  cases hcontext : (s.requests u).context with
  | none => exact ⟨d, hs, drives_pure hstay⟩
  | some c =>
      by_cases huser : s.IsUser u
      case neg =>
        exact ⟨d, hs, drives_ite (fun _ => drives_pure hstay) fun hne => absurd (Or.inl huser) hne⟩
      refine ⟨{ d with key := some (contextKey (s.requests u)) },
        hs.learnKey hr huser (by rw [hcontext]; exact nofun), ?_⟩
      refine drives_ite (fun _ => drives_pure (hok _)) fun _ => ?_
      refine drives_bind (drives_keepsDialogue fun keeps => ?_)
      refine drives_bind (drives_read fun s' e events hs' => ⟨_, hs', ?_⟩)
      refine drives_ite (fun _ => ?_) fun _ => drives_pure (hok _)
      exact drives_closeContext hr hhold rfl (hok _) herror

/-- The turn of a request that was first in its dialogue. -/
theorem Valid.first_of_turn {s : CoreScheduler} {e : ExecutorNote}
    {events : SchedulerThread → Option SystemEvent} (h : Valid config safe s d e events)
    {t : ManagerTurn} (hr : d.role = DriverRole.finishing u (Advanced.turn t))
    (ht : t.kind ≠ "cancelled") (hu : s.IsUser u) : s.First u := by
  obtain ⟨hactive, -⟩ := h.active (u := u) (by rw [hr]; rfl)
  obtain ⟨f, hf, hresult⟩ := h.traffic.finishing u _ hr
  exact h.ordered.begun u hu (h.ordered.answered u f hactive hf hu t hresult ht)

/-- The completion of a task is no user's. -/
theorem Valid.first_of_completion {s : CoreScheduler} {e : ExecutorNote}
    {events : SchedulerThread → Option SystemEvent} (h : Valid config safe s d e events)
    {c : AutonomousTaskCompletion} (hr : d.role = DriverRole.finishing u (Advanced.completion c))
    (hu : s.IsUser u) : s.First u := by
  obtain ⟨hactive, -⟩ := h.active (u := u) (by rw [hr]; rfl)
  obtain ⟨f, hf, hresult⟩ := h.traffic.finishing u _ hr
  obtain rfl : f = Except.ok (Advanced.completion c) := by
    cases f with
    | ok r =>
        cases hresult
        rfl
    | error msg => cases hresult
  have hkind := (h.queue.completion u c hactive hf (by rw [hr]; exact nofun)
    (by rw [hr]; exact nofun)).1
  rw [IsUser, hkind] at hu
  cases hu

theorem drives_completeAndRecycle {r : Advanced} {t : ManagerTurn}
    {Q : Except PyStr Unit → DriverNote → Prop} (hr : d.role = DriverRole.finishing u r)
    (hpaused : r ≠ Advanced.paused)
    (hfirst : ∀ s e events, Valid config safe s d e events → t.kind ≠ "cancelled" → s.IsUser u →
      s.First u)
    (hhold : d.hold = Hold.nothing)
    (hok : ∀ key, Q (Except.ok ()) { d with role := DriverRole.recycling u, key })
    (herror : ∀ msg, Q (Except.error msg) { d with role := DriverRole.idle, key := none }) :
    Drives config safe (completeAndRecycle u t) d Q := by
  refine drives_bind (drives_complete fun s e events hs => ?_)
  refine ⟨_, hs.complete hr hpaused (hfirst s e events hs), ?_⟩
  exact drives_recycle rfl hhold hok herror

/-- The driver has dealt with the request `u`. -/
def Settled (d : DriverNote) (u : ℕ) (d' : DriverNote) : Prop :=
  d'.closing = d.closing ∧ d'.hold = Hold.nothing ∧
    (d'.role = DriverRole.settled u ∨ d'.role = DriverRole.recycling u)

/-- The driver has lost track of a request. -/
def Lost (d d' : DriverNote) : Prop :=
  d'.closing = d.closing ∧ d'.hold = Hold.nothing ∧ d'.role = DriverRole.idle

/-- **The result of a request is dealt with.** -/
theorem drives_settle {r : Advanced} (hr : d.role = DriverRole.finishing u r)
    (hhold : d.hold = Hold.nothing) :
    Drives config safe (settle u r) d fun result d' =>
      (∀ msg, result = Except.error msg → Lost d d') ∧
        (result = Except.ok () → Settled d u d') := by
  have hok : ∀ d', Settled d u d' → (∀ msg, (Except.ok () : Except PyStr Unit) =
      Except.error msg → Lost d d') ∧ ((Except.ok () : Except PyStr Unit) = Except.ok () →
        Settled d u d') := fun d' hd => ⟨(by simp), fun _ => hd⟩
  have herror : ∀ msg d', Lost d d' → (∀ msg', (Except.error msg : Except PyStr Unit) =
      Except.error msg' → Lost d d') ∧ ((Except.error msg : Except PyStr Unit) = Except.ok () →
        Settled d u d') := fun msg d' hd => ⟨fun _ _ => hd, (by simp)⟩
  cases r with
  | paused =>
      refine drives_succeed (drives_update fun s e events hs => ?_)
      exact ⟨_, hs.requeue (Or.inl hr), hok _ ⟨rfl, hhold, Or.inl rfl⟩⟩
  | turn t =>
      exact drives_completeAndRecycle hr (by simp)
        (fun s e events hs ht hu => hs.first_of_turn hr ht hu) hhold
        (fun _ => hok _ ⟨rfl, hhold, Or.inr rfl⟩) fun msg => herror msg _ ⟨rfl, hhold, rfl⟩
  | completion c =>
      simp only [settle]
      cases c.queryTaskId with
      | none =>
          exact drives_completeAndRecycle hr (by simp)
            (fun s e events hs _ hu => hs.first_of_completion hr hu) hhold
            (fun _ => hok _ ⟨rfl, hhold, Or.inr rfl⟩) fun msg => herror msg _ ⟨rfl, hhold, rfl⟩
      | some taskId =>
          refine drives_bind (drives_update fun s e events hs => ?_)
          refine ⟨_, hs.convert hr taskId c.queryResult, ?_⟩
          refine drives_succeed (drives_update fun s e events hs => ?_)
          exact ⟨_, hs.requeue (Or.inr rfl), hok _ ⟨rfl, hhold, Or.inl rfl⟩⟩

/-- Where the driver is when it has cleared the active request. -/
def Cleared (d d' : DriverNote) : Prop :=
  d'.closing = d.closing ∧ d'.hold = Hold.nothing ∧
    d'.role = if d.closing = true then DriverRole.quiet else DriverRole.running

/-- The end of `_finish_regular_request`. -/
theorem drives_clearActive {d₀ : DriverNote} {Q : Unit → DriverNote → Prop}
    (hd : Settled d₀ u d) (hQ : ∀ d', Cleared d₀ d' → Q () d') :
    Drives config safe (clearActive u) d Q := by
  obtain ⟨hclosing, hhold, hr⟩ := hd
  have hnext : ∀ d' : DriverNote, d'.closing = d.closing → d'.hold = Hold.nothing →
      Cleared d₀ d'.next := by
    intro d' hd' hh
    refine ⟨hd'.trans hclosing, hh, ?_⟩
    simp only [DriverNote.next, hd', hclosing]
  refine drives_bind (drives_access fun s e events hs => ?_)
  obtain ⟨d', hs', hd'⟩ : ∃ d', Valid config safe s.cleared d' e events ∧ Cleared d₀ d' := by
    rcases hr with hr | hr
    · exact ⟨_, hs.clear hr, hnext d rfl hhold⟩
    · exact ⟨_, (hs.settle hr hhold).clear rfl, hnext _ rfl hhold⟩
  refine ⟨d', hs', drives_bind (drives_read fun s e events hs => ⟨d', hs, ?_⟩)⟩
  refine drives_ite (fun _ => ?_) fun _ => drives_pure (hQ d' hd')
  exact drives_update fun s e events hs => ⟨d', hs.submitRelease _, hQ d' hd'⟩

/-- **`_finish_regular_request` deals with the active request.** -/
theorem drives_finishRegularRequest {f : Except PyStr Advanced}
    (hr : d.role = DriverRole.finishing u (resultOf f)) (hhold : d.hold = Hold.nothing) :
    Drives config safe (finishRegularRequest f) d fun result d' =>
      (∀ msg, result = Except.error msg → Lost d d') ∧ (result = Except.ok () → Cleared d d') := by
  refine drives_bind (drives_read fun s e events hs => ⟨d, hs, ?_⟩)
  obtain ⟨hactive, -⟩ := hs.active (u := u) (by rw [hr]; rfl)
  rw [hactive]
  refine drives_andThen ((drives_settle hr hhold).mono fun result d' h => ⟨?_, ?_⟩)
  · intro msg hm
    exact ⟨fun _ _ => h.1 msg hm, nofun⟩
  · intro a ha
    exact drives_succeed (drives_clearActive (h.2 ha) fun d'' hd'' => ⟨nofun, fun _ => hd''⟩)

end Settle

/-! ### A round of the loop -/

section Round

/-- The driver deals with no request. -/
def Resting (d : DriverNote) : Prop := d.role.request? = none ∧ d.hold = Hold.nothing

theorem Lost.resting {d d' : DriverNote} (h : Lost d d') : Resting d' :=
  ⟨by rw [h.2.2]; rfl, h.2.1⟩

/-- `_poll_future`, when the driver has seen nothing yet. -/
theorem drives_pollFuture (hr : d.role = DriverRole.running) (hhold : d.hold = Hold.nothing) :
    Drives config safe pollFuture d fun result d' =>
      (∀ msg, result = Except.error msg → Lost d d') ∧
        (result = Except.ok () → d' = d ∨ Cleared d d') := by
  have hok : ∀ result, result = Except.ok () →
      (∀ msg, (result : Except PyStr Unit) = Except.error msg → Lost d d) ∧
        (result = Except.ok () → d = d ∨ Cleared d d) := by
    rintro result rfl
    exact ⟨nofun, fun _ => Or.inl rfl⟩
  refine drives_bind (drives_read fun s e events hs => ?_)
  cases hfuture : s.activeFuture with
  | none => exact ⟨d, hs, drives_pure (hok _ rfl)⟩
  | some result =>
      cases result with
      | none => exact ⟨d, hs, drives_pure (hok _ rfl)⟩
      | some f =>
          obtain ⟨u, hu⟩ : ∃ u, s.activeRequest = some u := by
            rw [← Option.ne_none_iff_exists']
            intro hn
            rw [hs.traffic.active.1 hn] at hfuture
            cases hfuture
          refine ⟨_, hs.finish hr hu hfuture, ?_⟩
          exact (drives_finishRegularRequest (u := u)
            (d := { d with role := DriverRole.finishing u (resultOf f) }) rfl hhold).mono
            fun result d' h => ⟨h.1, fun hm => Or.inr (h.2 hm)⟩

/-- `_poll_future`, when the closing thread has waited for the future. -/
theorem drives_pollFuture_finishing {u : ℕ} {r : Advanced}
    (hr : d.role = DriverRole.finishing u r) (hhold : d.hold = Hold.nothing) :
    Drives config safe pollFuture d fun result d' =>
      (∀ msg, result = Except.error msg → Lost d d') ∧ (result = Except.ok () → Cleared d d') := by
  refine drives_bind (drives_read fun s e events hs => ⟨d, hs, ?_⟩)
  obtain ⟨f, hf, hresult⟩ := hs.traffic.finishing u r hr
  rw [hf]
  exact drives_finishRegularRequest (hr.trans (by rw [hresult])) hhold

/-- The driver knows more or less about the futures. -/
def Same (d d' : DriverNote) : Prop :=
  d'.closing = d.closing ∧ d'.role = d.role ∧ d'.hold = d.hold

/-- `_poll_manager_kv2_warm`. -/
theorem drives_pollManagerKv2Warm (hr : d.role = DriverRole.running) :
    Drives config safe pollManagerKv2Warm d fun _ d' => Same d d' := by
  refine drives_bind (drives_read fun s e events hs => ?_)
  have hlearn : ∀ f, s.kv2Future = f.map some →
      Valid config safe s { d with free := false, kv2 := some f } e events := by
    intro f hf
    refine hs.learn nofun ?_
    intro f' hf'
    cases hf'
    exact hf
  cases hfuture : s.kv2Future with
  | none =>
      refine ⟨_, hlearn none hfuture, drives_bind (drives_read fun s' e events hs' => ?_)⟩
      by_cases hwarm : (s'.kv2Requested && s'.activeFuture.isNone) = true
      · rw [hwarm]
        have hnone : s'.activeFuture = none := by
          rw [Bool.and_eq_true, Option.isNone_iff_eq_none] at hwarm
          exact hwarm.2
        refine ⟨{ d with free := true, kv2 := some none },
          hs'.learn (fun _ => hnone) hs'.traffic.kv2, drives_ite (fun _ => ?_) ?_⟩
        · refine drives_update fun s'' e events hs'' => ?_
          exact ⟨_, hs''.orderKv2 hr rfl rfl, rfl, rfl, rfl⟩
        · intro hne
          exact absurd rfl hne
      · refine ⟨_, hs', drives_ite (fun hyes => absurd hyes hwarm) fun _ => ?_⟩
        exact drives_pure ⟨rfl, rfl, rfl⟩
  | some result =>
      cases result with
      | none => exact ⟨d, hs, drives_pure ⟨rfl, rfl, rfl⟩⟩
      | some r =>
          cases r with
          | error msg =>
              refine ⟨_, hlearn (some (Except.error msg)) hfuture, ?_⟩
              refine drives_update fun s' e events hs' => ?_
              exact ⟨_, hs'.hearLost rfl, rfl, rfl, rfl⟩
          | ok a =>
              refine ⟨_, hlearn (some (Except.ok a)) hfuture, ?_⟩
              refine drives_update fun s' e events hs' => ?_
              exact ⟨_, hs'.dropKv2 rfl, rfl, rfl, rfl⟩

/-- `_start_next`. -/
theorem drives_startNextRequest (hr : d.role = DriverRole.running) (hopen : d.closing = false) :
    Drives config safe startNextRequest d fun _ d' => Same d d' := by
  refine drives_bind (drives_read fun s e events hs => ?_)
  by_cases hbusy : (s.activeFuture.isSome || s.kv2Future.isSome) = true
  · refine ⟨d, hs, drives_ite (fun _ => drives_pure ⟨rfl, rfl, rfl⟩) ?_⟩
    intro hne
    exact absurd hbusy hne
  · have hnone : s.activeFuture = none ∧ s.kv2Future = none := by
      simpa using hbusy
    refine ⟨{ d with free := true, kv2 := some none }, hs.learn (fun _ => hnone.1) ?_,
      drives_ite (fun hyes => absurd hyes hbusy) fun _ => ?_⟩
    · intro f hf
      cases hf
      exact hnone.2
    · refine drives_bind (drives_silent silent_poolView fun view => ?_)
      refine drives_update fun s' e events hs' => ?_
      have hfuture := hs'.traffic.free rfl
      have hkv2 : s'.kv2Future = none := hs'.traffic.kv2 none rfl
      have hs'' : Valid config safe s' { d with free := false, kv2 := none } e events :=
        hs'.learn nofun nofun
      exact ⟨_, hs''.start hr hopen rfl hfuture hkv2 view, rfl, rfl, rfl⟩

theorem drives_enqueueAll (eventList : List SystemEvent) {Q : Unit → DriverNote → Prop}
    (hQ : Q () d) : Drives config safe (enqueueAll config eventList) d Q := by
  induction eventList with
  | nil => exact drives_pure hQ
  | cons event rest ih => exact drives_bind (drives_enqueue fun _ => ih)

/-- `_poll_system_events`. -/
theorem drives_pollSystemEvents {Q : Except PyStr Unit → DriverNote → Prop} (hQ : ∀ r, Q r d) :
    Drives config safe (pollSystemEvents config) d Q := by
  refine drives_andThen (drives_silent silent_pollDue fun r => ⟨fun msg _ => hQ _, fun a _ => ?_⟩)
  exact drives_succeed (drives_enqueueAll a (hQ _))

/-- **A round of the loop keeps the invariant.** -/
theorem drives_runOnce (hr : d.role = DriverRole.running) (hopen : d.closing = false)
    (hhold : d.hold = Hold.nothing) :
    Drives config safe (runOnce config) d fun _ d' => Resting d' := by
  have hrest : Resting d := ⟨by rw [hr]; rfl, hhold⟩
  refine drives_bind (drives_andThen (drives_pollSystemEvents fun r => ⟨?_, fun a _ => ?_⟩))
  · intro msg _
    exact drives_pure hrest
  refine drives_andThen ((drives_pollFuture hr hhold).mono fun r d' h => ⟨?_, fun b hb => ?_⟩)
  · intro msg hm
    exact drives_pure (h.1 msg hm).resting
  -- The driver is running again, whether it had a request to deal with or not.
  have hd' : d'.role = DriverRole.running ∧ d'.closing = false ∧ d'.hold = Hold.nothing := by
    rcases h.2 hb with rfl | ⟨hc, hh, hrole⟩
    · exact ⟨hr, hopen, hhold⟩
    · rw [hopen] at hc hrole
      exact ⟨hrole, hc, hh⟩
  obtain ⟨hr', hopen', hhold'⟩ := hd'
  refine drives_bind ((drives_pollManagerKv2Warm hr').mono fun _ d'' h'' => ?_)
  obtain ⟨hc'', hr'', hh''⟩ := h''
  refine drives_succeed ((drives_startNextRequest (hr''.trans hr') (hc''.trans hopen')).mono ?_)
  rintro _ d₃ ⟨-, hr₃, hh₃⟩
  refine drives_pure ⟨?_, hh₃.trans (hh''.trans hhold')⟩
  rw [hr₃, hr'', hr']
  rfl

end Round

/-! ### The end -/

section Shutdown

/-- `executor.submit(…).result()`. -/
theorem drives_callExecutor {l : List ℕ} {job : SchedulerJob} (hjob : isShutdownJob job = true)
    (hhead : l.head? = requestOf job) {Q : Except PyStr Unit → DriverNote → Prop}
    (hok : Q (Except.ok ()) (draining l false))
    (herror : ∀ msg, (l ≠ [] → safe = false) → Q (Except.error msg) (draining l false)) :
    Drives config safe (callExecutor job) (draining l false) Q := by
  refine drives_bind (drives_update fun s e events hs => ?_)
  refine ⟨_, hs.call rfl hjob hhead fun u hu => ?_, ?_⟩
  · exact hs.ordered.remaining_lt u (List.mem_of_mem_head? (hhead.trans hu))
  refine drives_await fun s e events f hs hf => ⟨_, hs.answered rfl hf, ?_⟩
  cases f with
  | ok a => exact hok
  | error msg =>
      refine herror msg fun hne => ?_
      cases l with
      | nil => exact absurd rfl hne
      | cons u rest => exact hs.lost_of_answer rfl hf

/-- **The loop of `close` completes the requests that remain.** -/
theorem drives_completeRemaining (l : List ℕ) :
    Drives config safe (completeRemaining l) (draining l false) fun r d' =>
      Resting d' ∧ (r = Except.ok () → d' = draining [] false) := by
  induction l with
  | nil => exact drives_pure ⟨⟨rfl, rfl⟩, fun _ => rfl⟩
  | cons u rest ih =>
      refine drives_bind (drives_callExecutor rfl rfl ?_ fun msg hsafe => ?_)
      · refine drives_bind (drives_complete fun s e events hs => ?_)
        refine ⟨_, hs.completeRemaining rfl rfl, drives_bind (drives_update fun s e events hs => ?_)⟩
        exact ⟨_, hs.proceed rfl, ih⟩
      · refine drives_bind (drives_update fun s e events hs => ?_)
        have hsafe := hsafe (List.cons_ne_nil u rest)
        have hraised := Valid.discardRaised (u := u) hs rfl hsafe
        exact ⟨_, hraised.forsake rfl ⟨u, List.mem_cons_self⟩ hsafe,
          drives_pure ⟨⟨rfl, rfl⟩, nofun⟩⟩

/-- What `close` does with the active request. -/
theorem drives_finishActive (hr : d.role = DriverRole.running) (hclosing : d.closing = true)
    (hhold : d.hold = Hold.nothing) :
    Drives config safe finishActive d fun r d' =>
      Resting d' ∧ (r = Except.ok () → d'.role = DriverRole.quiet ∧ d'.closing = true) := by
  refine drives_bind (drives_await fun s e events x hs hx => ?_)
  cases hfuture : s.activeFuture with
  | none =>
      rw [hfuture] at hx
      cases hx
      refine ⟨_, hs.quieten (by rw [hr]; rfl) (by rw [hr]; exact nofun) (by rw [hr]; rfl) hclosing
        (by rw [hr]; exact nofun) hfuture, ?_⟩
      exact drives_pure ⟨⟨rfl, rfl⟩, fun _ => ⟨rfl, rfl⟩⟩
  | some result =>
      rw [hfuture] at hx
      cases result with
      | none => cases hx
      | some f =>
          cases hx
          cases f with
          | error msg =>
              exact ⟨d, hs, drives_pure ⟨⟨by rw [hr]; rfl, hhold⟩, nofun⟩⟩
          | ok a =>
              obtain ⟨u, hu⟩ : ∃ u, s.activeRequest = some u := by
                rw [← Option.ne_none_iff_exists']
                intro hn
                rw [hs.traffic.active.1 hn] at hfuture
                cases hfuture
              refine ⟨_, hs.finish hr hu hfuture, ?_⟩
              refine (drives_pollFuture_finishing (u := u) (r := a)
                (d := { d with role := DriverRole.finishing u a }) rfl hhold).mono fun r d' h => ?_
              cases r with
              | error msg => exact ⟨(h.1 msg rfl).resting, nofun⟩
              | ok b =>
                  obtain ⟨hc, hh, hrole⟩ := h.2 rfl
                  have hrole : d'.role = DriverRole.quiet := hrole.trans (if_pos hclosing)
                  exact ⟨⟨by rw [hrole]; rfl, hh⟩, fun _ => ⟨hrole, hc.trans hclosing⟩⟩

/-- What `close` does with the future of KV2. -/
theorem drives_finishKv2 (hrest : Resting d) :
    Drives config safe finishKv2 d fun r d' =>
      Resting d' ∧ (r = Except.ok () → Same d d' ∧ d'.kv2 = some none) := by
  refine drives_andThen (drives_await fun s e events x hs hx => ?_)
  -- The future is not there, or done.
  obtain ⟨f, hf⟩ : ∃ f : Option (Except PyStr Unit), s.kv2Future = f.map some := by
    cases hfuture : s.kv2Future with
    | none => exact ⟨none, rfl⟩
    | some result =>
        rw [hfuture] at hx
        cases result with
        | none => cases hx
        | some r => exact ⟨some r, rfl⟩
  refine ⟨{ d with free := false, kv2 := some f }, hs.learn nofun ?_, ?_, ?_⟩
  · intro f' hf'
    cases hf'
    exact hf
  · intro msg _
    exact ⟨hrest, nofun⟩
  · intro a _
    refine drives_succeed (drives_update fun s e events hs => ?_)
    exact ⟨_, hs.dropKv2 rfl, hrest, fun _ => ⟨⟨rfl, rfl, rfl⟩, rfl⟩⟩

/-- **The end of the closing thread keeps the invariant.** -/
theorem drives_shutdown (hr : d.role = DriverRole.running) (hclosing : d.closing = true)
    (hhold : d.hold = Hold.nothing) :
    Drives config safe (shutdown config) d fun _ d' => Resting d' := by
  refine drives_bind (drives_andThen ((drives_finishActive hr hclosing hhold).mono
    fun r₁ d₁ h₁ => ⟨fun _ _ => drives_pure h₁.1, fun _ ha => ?_⟩))
  obtain ⟨hr₁, hc₁⟩ := h₁.2 ha
  refine drives_andThen ((drives_finishKv2 h₁.1).mono
    fun r₂ d₂ h₂ => ⟨fun _ _ => drives_pure h₂.1, fun _ ha => ?_⟩)
  obtain ⟨⟨hc₂, hr₂, hh₂⟩, hk₂⟩ := h₂.2 ha
  have hr₂ : d₂.role = DriverRole.quiet := hr₂.trans hr₁
  refine drives_bind (drives_access fun s e events hs => ?_)
  have hq := hs.quieten (by rw [hr₂]; rfl) (by rw [hr₂]; exact nofun) (by rw [hr₂]; rfl) (hc₂.trans hc₁)
    (by rw [hr₂]; exact nofun) (hs.traffic.quiet hr₂)
  refine ⟨_, hq.drain (hs.traffic.kv2 none hk₂), ?_⟩
  refine drives_andThen ((drives_completeRemaining s.pending).mono
    fun r₃ d₃ h₃ => ⟨fun _ _ => drives_pure h₃.1, fun _ ha => ?_⟩)
  rw [h₃.2 ha]
  have hlast : ∀ b : Unit, Drives config safe
      (andThen (callExecutor SchedulerJob.closeAllContexts) fun _ =>
        succeed (update fun s => { s with isShutdown := true })) (draining [] false)
      fun _ d' => Drives config safe (pure ()) d' fun _ d' => Resting d' := by
    intro b
    refine drives_andThen (drives_callExecutor rfl rfl ⟨fun _ _ => drives_pure ⟨rfl, rfl⟩,
      fun _ _ => ?_⟩ fun _ _ => ⟨fun _ _ => drives_pure ⟨rfl, rfl⟩, nofun⟩)
    refine drives_succeed (drives_update fun s e events hs => ?_)
    exact ⟨_, hs.aside hs.traffic.stopped, drives_pure ⟨rfl, rfl⟩⟩
  exact drives_ite
    (fun _ => drives_bind (drives_silent silent_flushCompletions fun _ => hlast ()))
    fun _ => hlast ()

end Shutdown

end CoreScheduler
