/-
**What the core's scheduler guarantees.**

The invariant is put into words here: what it says about the contexts of the manager, about the
completion of requests, and about the order of dialogues and the bounds of the queue.

The completion of requests is the one point where the scheduler falls short.  If closing the
context of a completed request raises in the loop, then the request stays active, with a future that
is done, and whoever looks at it next completes it again.  If closing the iterator of a request
raises that is discarded at the shutdown, then the requests that remain are forgotten.

Main definitions:

* `CoreScheduler.PoolExclusive` — no two dialogues share a context of the pool;
* `CoreScheduler.CompletesOnce` — every admitted request is completed once, or waits for it;
* `CoreScheduler.RaisesNothing` — the answers that make no request be lost;
* `CoreScheduler.Orderly` — the order of dialogues, and the bounds of the queue.

Main results:

* `CoreScheduler.poolExclusive` — **contexts are exclusive in every reachable state**;
* `CoreScheduler.completesOnce` — **requests are completed once where none of this is raised**;
* `CoreScheduler.not_completesOnce` — in other runs a request can be completed twice;
* `CoreScheduler.orderly` — **dialogues are orderly in every reachable state**.
-/

import CatAgent.SchedulerRuns

set_option relaxedAutoImplicit false
set_option autoImplicit false

namespace CoreScheduler

variable {config : SchedulerConfig} {safe : Bool} {s : CoreScheduler} {d : DriverNote}
  {e : ExecutorNote} {events : SchedulerThread → Option SystemEvent}

/-- The shared fields and the programs of the threads. -/
abbrev State := Threads.Config SchedulerThread SchedulerEffect SchedulerEffect.Answer CoreScheduler

/-! ### Turns -/

section Turns

/-- The scheduler with a pool of contexts and a queue of two requests. -/
def pooled : SchedulerConfig where
  host := Host.ascii
  maxPending := 2
  two_le_maxPending := le_rfl
  forks := true
  managerPoolEnabled := true
  forks_of_pool := fun _ => rfl
  isRemote := false

/-- What the operations are answered when everything succeeds; dialogues reply, and `keeps` says
whether they are kept afterwards. -/
def fine (keeps : Bool) : SchedulerEffect → SchedulerChoice
  | SchedulerEffect.pollDue => SchedulerChoice.events (Except.ok [])
  | SchedulerEffect.poolView => SchedulerChoice.view ⟨fun _ => false, fun _ => true⟩
  | SchedulerEffect.dialogueStep _ _ _ =>
      SchedulerChoice.spoke (DialogueStep.returned ⟨"reply", "ok"⟩)
  | SchedulerEffect.keepsDialogue _ => SchedulerChoice.flag keeps
  | SchedulerEffect.closeIterator _ | SchedulerEffect.forkContext _
  | SchedulerEffect.setEventHandler _ | SchedulerEffect.preparePrefix _
  | SchedulerEffect.resetForNewSession _ | SchedulerEffect.closeClient _ =>
      SchedulerChoice.outcome (Except.ok ())
  | _ => SchedulerChoice.proceed

/-- The same, but contexts can neither be reset nor closed. -/
def failing : SchedulerEffect → SchedulerChoice
  | SchedulerEffect.resetForNewSession _ | SchedulerEffect.closeClient _ =>
      SchedulerChoice.outcome (Except.error "no native session")
  | e => fine false e

/-- The state after some turns. -/
def after (l : List (SchedulerThread × SchedulerChoice × (SchedulerEffect → SchedulerChoice))) :
    State :=
  l.foldl ((system pooled).turn 40) ⟨initial pooled, fun _ => Program.done ()⟩

theorem reachable_after
    (l : List (SchedulerThread × SchedulerChoice × (SchedulerEffect → SchedulerChoice))) :
    (system pooled).machine.Reachable (after l) :=
  Threads.reachable_turns (Machine.Reach.of_init ⟨rfl, fun _ => rfl⟩) 40 l

/-- A person writes in a session, and the request is served; the next round of the loop deals with
the result. -/
def served (sessionId : PyStr) (answers : SchedulerEffect → SchedulerChoice) :
    List (SchedulerThread × SchedulerChoice × (SchedulerEffect → SchedulerChoice)) :=
  [(SchedulerThread.client 0, SchedulerChoice.call (ClientCall.submitUser "hi" sessionId none 0),
      fine true),
    (SchedulerThread.driver, SchedulerChoice.proceed, fine true),
    (SchedulerThread.executor, SchedulerChoice.proceed, fine true),
    (SchedulerThread.driver, SchedulerChoice.proceed, answers)]

end Turns

/-! ### The contexts of the manager -/

/-- No two dialogues share a context. -/
structure PoolExclusive (config : SchedulerConfig) (s : CoreScheduler) : Prop where
  /-- A context is assigned to at most one dialogue. -/
  exclusive : config.managerPoolEnabled = true → ∀ c key key', s.contexts.get? key = some c →
    s.contexts.get? key' = some c → key = key'
  /-- A context that is free is not assigned. -/
  unassigned : ∀ c ∈ s.managerAvailable, ∀ key, s.contexts.get? key ≠ some c
  nodup : s.managerAvailable.Nodup
  sorted : s.managerAvailable.Pairwise fun a b => s.slotRank a < s.slotRank b
  /-- A context is handed out only while its slot is ready. -/
  ready : ∀ c key r, SchedulerEvent.handed c key r ∈ s.log → r = true
  /-- It has been put to its base since another dialogue has used it. -/
  based : ∀ c key r key' later between earlier, s.log = later ++
    SchedulerEvent.handed c key r :: (between ++ SchedulerEvent.used c key' :: earlier) →
    key' ≠ key → SchedulerEvent.based c ∈ between

/-- What has used a context since it was reset. -/
theorem mem_dirt {c : ℕ} {key : PyStr} {between earlier : List SchedulerEvent}
    (h : SchedulerEvent.based c ∉ between) :
    key ∈ dirt c (between ++ SchedulerEvent.used c key :: earlier) := by
  induction between with
  | nil =>
      rw [List.nil_append, dirt, if_pos rfl]
      exact List.mem_cons_self
  | cons x between ih =>
      have hrest := ih fun hb => h (List.mem_cons_of_mem x hb)
      rw [List.cons_append]
      cases x with
      | used c' key' =>
          rw [dirt]
          split
          next => exact List.mem_cons_of_mem _ hrest
          next => exact hrest
      | based c' =>
          have hne : c' ≠ c := by
            rintro rfl
            exact h List.mem_cons_self
          rw [dirt, if_neg hne]
          exact hrest
      | _ => exact hrest

theorem Valid.exclusive (h : Valid config safe s d e events) : PoolExclusive config s where
  exclusive := h.pool.unshared
  unassigned := h.pool.available_unassigned
  nodup := h.pool.sorted.imp fun hab => by
    rintro rfl
    exact hab.false
  sorted := h.pool.sorted
  ready := by
    intro c key r hr
    obtain ⟨later, earlier, hlog⟩ := List.append_of_mem hr
    exact (h.pool.handed c key r earlier ⟨later, hlog.symm⟩).1
  based := by
    intro c key r key' later between earlier hlog hne
    by_contra hb
    exact hne ((h.pool.handed c key r _ ⟨later, hlog.symm⟩).2 key' (mem_dirt hb))

/-- **Whatever happens to its contexts, the manager's pool is exclusive.** -/
theorem poolExclusive {c : State} (h : (system config).machine.Reachable c) :
    PoolExclusive config c.state := by
  obtain ⟨d, e, events, hv⟩ := invariant_of_reachable h
  exact hv.exclusive

/-- The context of a first session cannot be reset; a second session gets another one. -/
theorem poolExclusive_failing :
    PoolExclusive pooled (after (served "a" failing ++ served "b" (fine false))).state :=
  poolExclusive (reachable_after _)

/-! ### The completion of requests -/

/-- Every admitted request has been completed once, or it has not been completed and is queued or
active; at the shutdown it may be among the requests that `close` has taken from the queue. -/
structure CompletesOnce (s : CoreScheduler) : Prop where
  once : ∀ u, s.completions u ≤ 1
  accounted : ∀ u n, SchedulerEvent.admitted u n ∈ s.log → s.completions u = 1 ∨
    s.completions u = 0 ∧ (u ∈ s.pending ∨ s.activeRequest = some u ∨ u ∈ s.remaining)

theorem completions_eq_zero {u : ℕ} (h : ¬ s.Completed u) : s.completions u = 0 := by
  refine List.countP_eq_zero.2 fun x hx hu => ?_
  cases x with
  | completed v t =>
      have hvu : v = u := by simpa [completes] using hu
      exact h ⟨t, hvu ▸ hx⟩
  | _ => cases hu

theorem completions_pos {u : ℕ} (h : s.Completed u) : 0 < s.completions u := by
  obtain ⟨t, ht⟩ := h
  exact List.countP_pos_iff.2 ⟨_, ht, by simp [completes]⟩

theorem Valid.completes (h : Valid config true s d e events) : CompletesOnce s := by
  have honce : Once s d := h.once.resolve_left nofun
  refine ⟨honce.once, fun u n hn => ?_⟩
  by_cases hc : s.Completed u
  · have hpos := completions_pos hc
    have hle := honce.once u
    exact Or.inl (by omega)
  · refine Or.inr ⟨completions_eq_zero hc, ?_⟩
    rcases h.ordered.accounted u (h.queue.admitted_lt u n hn) with hu | hu | hu | ⟨v, hv⟩
    · exact absurd hu hc
    · exact (mem_live.1 hu).imp id Or.inl
    · exact Or.inr (Or.inr (h.ordered.kept u hu))
    · exact absurd hv (honce.undiscarded v)

/-- The operation that a thread is about to perform raises nothing with which the scheduler would
lose track of a request: `client.close()` does not raise when the loop closes the context of a
request that it has completed, and `item.iterator.close()` does not raise for a request that `close`
discards. -/
def RaisesNothing (c : State) (i : SchedulerThread × SchedulerChoice) : Prop :=
  match c.threads i.1 with
  | Program.done _ => True
  | Program.perform e _ => loses i.1 e i.2 c.state = false

/-- In such a run the environment is safe. -/
theorem within_of_raisesNothing {c : State} (h : (system config).machine.Reach RaisesNothing c) :
    (within config true).machine.Reachable c := by
  refine h.of_step (fun _ hc => hc) fun c i hi => ?_
  change (within config true).step c i.1 i.2 = (system config).step c i.1 i.2
  unfold RaisesNothing at hi
  unfold Threads.step
  cases hthread : c.threads i.1 with
  | done a => rfl
  | perform e next =>
      rw [hthread] at hi
      have hhandle : (within config true).handle i.1 e i.2 c.state =
          (system config).handle i.1 e i.2 c.state := if_neg (by rw [hi]; exact nofun)
      simp only [hhandle]

/-- **In runs whose steps raise nothing of this kind, every admitted request is completed exactly
once, or is still queued or active.** -/
theorem completesOnce {c : State} (h : (system config).machine.Reach RaisesNothing c) :
    CompletesOnce c.state := by
  obtain ⟨d, e, events, hv⟩ := invariant_of_within (within_of_raisesNothing h)
  exact hv.completes

/-- An answer that is no exception. -/
theorem raisesNothing_of_ne {i : SchedulerThread} {o : SchedulerChoice} {c : State}
    (h : ∀ msg, o ≠ SchedulerChoice.outcome (Except.error msg)) : RaisesNothing c (i, o) := by
  have hloses : ∀ e, loses i e o c.state = false := by
    intro e
    unfold loses
    split
    · exact absurd rfl (h _)
    · exact absurd rfl (h _)
    · rfl
  unfold RaisesNothing
  cases c.threads i with
  | done a => trivial
  | perform e next => exact hloses e

theorem fine_ne_error (keeps : Bool) (e : SchedulerEffect) (msg : PyStr) :
    fine keeps e ≠ SchedulerChoice.outcome (Except.error msg) := by
  cases e <;> exact nofun

/-- A session is served; a second request waits when the scheduler is closed, and is discarded. -/
def closing : List (SchedulerThread × SchedulerChoice × (SchedulerEffect → SchedulerChoice)) :=
  served "a" (fine false) ++
    [(SchedulerThread.client 0, SchedulerChoice.call (ClientCall.submitUser "hi" "b" none 0),
        fine true),
      (SchedulerThread.client 0, SchedulerChoice.call ClientCall.close, fine true),
      (SchedulerThread.driver, SchedulerChoice.proceed, fine true),
      (SchedulerThread.executor, SchedulerChoice.proceed, fine true),
      (SchedulerThread.driver, SchedulerChoice.proceed, fine true)]

theorem mem_closing
    {r : SchedulerThread × SchedulerChoice × (SchedulerEffect → SchedulerChoice)}
    (h : r ∈ closing) :
    (∀ msg, r.2.1 ≠ SchedulerChoice.outcome (Except.error msg)) ∧ ∃ keeps, r.2.2 = fine keeps := by
  unfold closing served at h
  simp only [List.cons_append, List.nil_append, List.mem_cons, List.not_mem_nil, or_false] at h
  rcases h with rfl | rfl | rfl | rfl | rfl | rfl | rfl | rfl | rfl <;> exact ⟨by simp, _, rfl⟩

theorem completesOnce_closing :
    CompletesOnce (after closing).state ∧
      (after closing).state.completions 0 = 1 ∧ (after closing).state.completions 1 = 1 := by
  refine ⟨completesOnce (Threads.reach_turns (Machine.Reach.of_init ⟨rfl, fun _ => rfl⟩) 40 closing
    fun r hr c => ⟨raisesNothing_of_ne (mem_closing hr).1, fun e => ?_⟩), ?_, ?_⟩
  · obtain ⟨keeps, hkeeps⟩ := (mem_closing hr).2
    rw [hkeeps]
    exact raisesNothing_of_ne (fine_ne_error keeps e)
  · decide +kernel
  · decide +kernel

/-- **In other runs a request can be completed twice**: two sessions have the two contexts, the
request of the second one has been completed, and then its context can neither be reset nor
closed. -/
theorem not_completesOnce :
    ¬ ∀ c, (system pooled).machine.Reachable c → CompletesOnce c.state := by
  intro h
  have honce := (h _ (reachable_after (served "a" (fine true) ++ served "b" failing ++
    [(SchedulerThread.driver, SchedulerChoice.proceed, failing)]))).once 1
  revert honce
  decide +kernel

/-! ### The order of dialogues -/

/-- The order in which the requests of people were submitted. -/
def Earlier (s : CoreScheduler) (u v : ℕ) : Prop :=
  (s.requests u).queuedAt < (s.requests v).queuedAt ∨
  ((s.requests u).queuedAt = (s.requests v).queuedAt ∧ u < v)

/-- The order of dialogues, and the bounds of the queue. -/
structure Orderly (config : SchedulerConfig) (s : CoreScheduler) : Prop where
  /-- Of the queued and active requests of a dialogue at most one has been started. -/
  single : ∀ u ∈ s.live, ∀ v ∈ s.live, u ≠ v → Dialogic (s.requests u) → Dialogic (s.requests v) →
    s.SameDialogue u v → (s.requests u).iterator = none ∨ (s.requests v).iterator = none
  /-- Of all requests of a dialogue at most one has been started and not completed. -/
  alone : ∀ u v, u ≠ v → u < s.nextRequest → v < s.nextRequest → ¬ s.Completed u →
    ¬ s.Completed v → Dialogic (s.requests u) → Dialogic (s.requests v) → s.SameDialogue u v →
    (s.requests u).iterator = none ∨ (s.requests v).iterator = none
  /-- A request that is completed, and is not cut off by a cancellation, has nobody before it who
  was not cancelled. -/
  inOrder : ∀ u v t l, SchedulerEvent.completed v t :: l <:+ s.log → t.kind ≠ "cancelled" →
    u < s.nextRequest → s.IsUser u → s.IsUser v → s.SameDialogue u v → s.Earlier u v →
    (s.requests u).cancelled = false → ∃ t', SchedulerEvent.completed u t' ∈ l
  capacity : s.liveCount ≤ config.maxPending
  /-- Others than people are admitted while there is room for people. -/
  reserve : ∀ u n, SchedulerEvent.admitted u n ∈ s.log → ¬ s.IsUser u →
    n < max 1 (config.maxPending - 8)
  grants : ∀ u ∈ s.live, ∀ v ∈ s.live, u ≠ v → ∀ a b, (s.requests u).taskRun = some a →
    (s.requests v).taskRun = some b → (a.runId, a.offerId) ≠ (b.runId, b.offerId)
  accepted : ∀ event l, SchedulerEvent.accepted event :: l <:+ s.log →
    ∃ u n, SchedulerEvent.admitted u n ∈ l ∧ (s.requests u).taskRun = some event

theorem Valid.order (h : Valid config safe s d e events) : Orderly config s where
  single := h.queue.single
  alone := h.ordered.alone
  inOrder := by
    intro u v t l hl ht hu hku hkv hd hearlier hc
    have hv : v < s.nextRequest := h.ordered.completed_lt v ⟨t, hl.subset List.mem_cons_self⟩
    -- The stamps agree with the order of the submissions.
    have huv : u < v := by
      rcases hearlier with hlt | ⟨-, huv⟩
      · by_contra hvu
        rcases (not_lt.1 hvu).eq_or_lt with rfl | hvu
        · exact hlt.false
        · exact absurd (h.ordered.stamps v u hvu hu hkv hku) (not_le.2 hlt)
      · exact huv
    refine (h.ordered.log v t l hl ht hkv u huv hku hd).resolve_left fun hcancelled => ?_
    rw [hc] at hcancelled
    cases hcancelled
  capacity := h.queue.capacity
  reserve := h.queue.reserve
  grants := h.queue.grants
  accepted := h.accepting.accepted

/-- **Dialogues are orderly, and the queue keeps to its bounds, in every reachable state.** -/
theorem orderly {c : State} (h : (system config).machine.Reachable c) : Orderly config c.state := by
  obtain ⟨d, e, events, hv⟩ := invariant_of_reachable h
  exact hv.order

/-- A session writes twice, and both requests are served. -/
theorem orderly_twice :
    Orderly pooled (after (served "a" (fine true) ++ served "a" (fine true))).state :=
  orderly (reachable_after _)

end CoreScheduler
