/-
**The contexts and the dialogues of the core's scheduler.**

What moves a context keeps the invariant.  A context is moved by the executor, or by the driver
when it has completed a request; the lemmas about what both of them do speak of a thread that holds
a context.

Main definitions:

* `CoreScheduler.held`, `CoreScheduler.withHold` — the context that a thread holds.

Main results:

* `CoreScheduler.Invariant.rearrange`, `CoreScheduler.Invariant.based` — what a thread does to the
  context that it holds;
* `CoreScheduler.Valid.assign`, `CoreScheduler.Valid.register`, `CoreScheduler.Valid.forget` — what
  the executor does besides.
-/

import CatAgent.SchedulerPool

set_option relaxedAutoImplicit false
set_option autoImplicit false

namespace CoreScheduler

variable {config : SchedulerConfig} {safe : Bool} {s : CoreScheduler} {d : DriverNote}
  {e : ExecutorNote} {events : SchedulerThread → Option SystemEvent}
  {p q : Hold} {c : ℕ} {slot : ManagerSlot}
  {key : PyStr}

/-! ### Dialogues -/

theorem Dialogues.erase (h : Dialogues s e) (hk : ∀ v, s.Unfinished v →
    contextKey (s.requests v) = key → (s.requests v).context = none) :
    Dialogues { s with contexts := s.contexts.erase key } e :=
  { h with
    inUse := by
      intro v c hv hc
      have hv : s.Unfinished v := hv
      have hne : key ≠ contextKey (s.requests v) := by
        intro heq
        have hc : (s.requests v).context = some c := hc
        rw [hk v hv heq.symm] at hc
        cases hc
      exact (PyDict.get?_erase_of_ne s.contexts hne).trans (h.inUse v c hv hc)
    missing := by
      intro key' hk'
      change (s.contexts.erase key).get? key' = none
      rw [PyDict.get?_erase]
      split
      · rfl
      · exact h.missing key' hk' }

theorem Dialogues.set (h : Dialogues s e) (hnone : s.contexts.get? key = none)
    (hmissing : e.missing = none) :
    Dialogues { s with contexts := s.contexts.set key c } e :=
  { h with
    inUse := by
      intro v c' hv hc
      have hget : s.contexts.get? (contextKey (s.requests v)) = some c' := h.inUse v c' hv hc
      have hne : key ≠ contextKey (s.requests v) := by
        rintro rfl
        rw [hnone] at hget
        cases hget
      exact (PyDict.get?_set_of_ne s.contexts c hne).trans hget
    missing := by
      rw [hmissing]
      exact nofun }

theorem Dialogues.resetDone (h : Dialogues s e) (hready : s.managerSlotReady slot = true) :
    Dialogues (s.resetDone slot c) e := by
  have hsame : Function.update s.managerSlotReady slot true = s.managerSlotReady := by
    rw [← hready]
    exact Function.update_eq_self ..
  unfold CoreScheduler.resetDone
  by_cases hc : c ∈ s.managerAvailable
  · simp only [if_pos hc, hsame]
    exact { h with }
  · simp only [if_neg hc, offerContext, hsame]
    exact { h with }

theorem Dialogues.resetFailed (h : Dialogues s e) : Dialogues (s.resetFailed slot c) e := by
  have hfalse : ∀ slot', s.managerSlotReady slot' = false →
      Function.update s.managerSlotReady slot false slot' = false := by
    intro slot' hr
    rcases eq_or_ne slot' slot with rfl | hne
    · exact Function.update_self ..
    · rwa [Function.update_of_ne hne]
  unfold CoreScheduler.resetFailed
  cases slot with
  | kv1 =>
      exact
        { h with
          warming := fun hw => hfalse _ (h.warming hw)
          recovering := fun b hb => ⟨hfalse _ (h.recovering b hb).1, (h.recovering b hb).2⟩
          lost := fun msg hm => hfalse _ (h.lost msg hm) }
  | kv2 =>
      exact
        { h with
          warming := fun hw => hfalse _ (h.warming hw)
          recovering := fun b hb => ⟨hfalse _ (h.recovering b hb).1, (h.recovering b hb).2⟩
          lost := fun msg hm => hfalse _ (h.lost msg hm) }

theorem Dialogues.base (h : Dialogues s e) (c : ℕ) :
    Dialogues (s.record (SchedulerEvent.based c)) e :=
  { h with
    recovering := by
      intro b hb
      obtain ⟨hready, hclean⟩ := h.recovering b hb
      refine ⟨hready, fun ht c' hc => ?_⟩
      rw [dirt_based]
      split
      · rfl
      · exact hclean ht c' hc }

/-! ### Moving contexts -/

/-- A change of the contexts. -/
theorem Valid.rearrange (h : Valid config safe s d e events) {managerAvailable : List ℕ}
    {managerSlots : ManagerSlot → Option ℕ} {managerSlotReady : ManagerSlot → Bool}
    {kv2State : Kv2State} {contexts : PyDict PyStr ℕ} {nextContext : ℕ}
    (hpool : Pool config
      { s with
        managerAvailable
        managerSlots
        managerSlotReady
        kv2State
        contexts
        nextContext } p q)
    (hdialogues : Dialogues
      { s with
        managerAvailable
        managerSlots
        managerSlotReady
        kv2State
        contexts
        nextContext } e)
    (hholding : p ≠ Hold.nothing → ∃ u, d.role = DriverRole.recycling u) :
    Valid config safe
      { s with
        managerAvailable
        managerSlots
        managerSlotReady
        kv2State
        contexts
        nextContext } { d with hold := p } { e with hold := q } events where
  traffic := { h.traffic with holding := hholding }
  queue := { h.queue with }
  ordered := { h.ordered with }
  once := h.once.imp id fun ho => { ho with }
  pool := hpool
  dialogues := { hdialogues with }
  accepting := { h.accepting with }

/-- A note about the contexts. -/
theorem Valid.noted (h : Valid config safe s d e events) {x : SchedulerEvent}
    (hx : (∃ c, x = SchedulerEvent.based c) ∨ (∃ c key, x = SchedulerEvent.used c key) ∨
      ∃ c key r, x = SchedulerEvent.handed c key r)
    (hpool : Pool config (s.record x) p q) (hdialogues : Dialogues (s.record x) e)
    (hholding : p ≠ Hold.nothing → ∃ u, d.role = DriverRole.recycling u) :
    Valid config safe (s.record x) { d with hold := p } { e with hold := q } events := by
  have hplain : (∀ u n, x ≠ SchedulerEvent.admitted u n) ∧
      (∀ u t, x ≠ SchedulerEvent.completed u t) ∧ (∀ u, x ≠ SchedulerEvent.discardRaised u) ∧
      ∀ a, x ≠ SchedulerEvent.accepted a := by
    rcases hx with ⟨c, rfl⟩ | ⟨c, key, rfl⟩ | ⟨c, key, r, rfl⟩ <;> simp
  obtain ⟨hadmitted, hcompleted, hdiscard, haccepted⟩ := hplain
  exact
    { traffic := { h.traffic with holding := hholding }
      queue := { h.queue.record hadmitted with }
      ordered := { h.ordered.record hcompleted hdiscard with }
      once := h.once.imp id fun ho => { ho.record hcompleted hdiscard with }
      pool := hpool
      dialogues := { hdialogues with }
      accepting := h.accepting.record haccepted }

/-! ### A thread that holds a context -/

section Holder

variable {i : SchedulerThread} {notes : SchedulerThread → SchedulerNote}

/-- The context that a thread holds. -/
def held : SchedulerThread → SchedulerNote → Hold
  | SchedulerThread.driver, l => l.driver.hold
  | SchedulerThread.executor, l => l.executor.hold
  | SchedulerThread.client _, _ => Hold.nothing

/-- The note of a thread that holds a context. -/
def withHold : SchedulerThread → Hold → SchedulerNote → SchedulerNote
  | SchedulerThread.driver, q, l => { l with driver := { l.driver with hold := q } }
  | SchedulerThread.executor, q, l => { l with executor := { l.executor with hold := q } }
  | SchedulerThread.client _, _, l => l

/-- A thread that may hold a context. -/
def MayHold : SchedulerThread → SchedulerNote → Prop
  | SchedulerThread.driver, l => ∃ u, l.driver.role = DriverRole.recycling u
  | SchedulerThread.executor, _ => True
  | SchedulerThread.client _, _ => False

theorem held_withHold {l : SchedulerNote} (hi : MayHold i l) : held i (withHold i q l) = q := by
  cases i with
  | driver => rfl
  | executor => rfl
  | client n => cases hi

theorem MayHold.withHold {l : SchedulerNote} (hi : MayHold i l) : MayHold i (withHold i q l) := by
  cases i with
  | driver => exact hi
  | executor => trivial
  | client n => cases hi

theorem withHold_withHold (l : SchedulerNote) :
    withHold i p (withHold i q l) = withHold i p l := by
  cases i <;> rfl

theorem withHold_held (l : SchedulerNote) (h : held i l = q) : withHold i q l = l := by
  subst h
  cases i <;> rfl

theorem accepting_withHold (l : SchedulerNote) : (withHold i q l).accepting = l.accepting := by
  cases i <;> rfl

/-- The invariant after a step of a thread. -/
theorem invariant_update {l : SchedulerNote} {s' : CoreScheduler} :
    Invariant config safe s' (Function.update notes i l) ↔
      Valid config safe s'
        (if i = SchedulerThread.driver then l else notes SchedulerThread.driver).driver
        (if i = SchedulerThread.executor then l else notes SchedulerThread.executor).executor
        fun j => (if j = i then l else notes j).accepting := by
  simp only [Invariant, Function.update_apply, eq_comm]

/-- **What a thread does to the context that it holds keeps the invariant.** -/
theorem Invariant.hold (h : Invariant config safe s notes) (hi : MayHold i (notes i))
    {s' : CoreScheduler}
    (hpool : ∀ p, Pool config s p (held i (notes i)) → Pool config s' p q)
    (hdialogues : ∀ e, Dialogues s e → Dialogues s' e)
    (hvalid : ∀ d e events p q, Valid config safe s d e events → Pool config s' p q → Dialogues s' e →
      (p ≠ Hold.nothing → ∃ u, d.role = DriverRole.recycling u) →
      Valid config safe s' { d with hold := p } { e with hold := q } events) :
    Invariant config safe s' (Function.update notes i (withHold i q (notes i))) := by
  rw [invariant_update]
  have hevents : (fun j => (if j = i then withHold i q (notes i) else notes j).accepting) =
      fun j => (notes j).accepting := by
    funext j
    split
    next hj =>
      subst hj
      exact accepting_withHold _
    next => rfl
  rw [hevents]
  have hdialogues := hdialogues _ h.dialogues
  cases i with
  | driver =>
      have hp := (hpool _ h.pool.symm).symm
      exact hvalid _ _ _ q _ h hp hdialogues fun _ => hi
  | executor =>
      have hp := hpool _ h.pool
      exact hvalid _ _ _ _ q h hp hdialogues h.traffic.holding
  | client n => cases hi

/-- What the thread knows of the context that it holds. -/
theorem Invariant.pool (h : Invariant config safe s notes) (hi : MayHold i (notes i)) :
    ∃ p, Pool config s p (held i (notes i)) := by
  cases i with
  | driver => exact ⟨_, Valid.pool h |>.symm⟩
  | executor => exact ⟨_, Valid.pool h⟩
  | client n => cases hi

/-- **A thread takes the context of a dialogue.** -/
theorem Invariant.pop (h : Invariant config safe s notes) (hi : MayHold i (notes i))
    (hk : ∀ v, s.Unfinished v → contextKey (s.requests v) = key → (s.requests v).context = none)
    (hc : s.contexts.get? key = some c) (hslot : s.managerSlotIndex c = some slot) :
    Invariant config safe { s with contexts := s.contexts.erase key }
      (Function.update notes i (withHold i (Hold.pooled c slot false) (notes i))) :=
  h.hold hi (fun _ hp => hp.pop hc (slots_of_managerSlotIndex hslot)) (fun _ hd => hd.erase hk)
    fun _ _ _ _ _ hv => hv.rearrange

/-- A thread takes the context of a dialogue that has no slot. -/
theorem Invariant.popLoose (h : Invariant config safe s notes) (hi : MayHold i (notes i))
    (hk : ∀ v, s.Unfinished v → contextKey (s.requests v) = key → (s.requests v).context = none)
    (hc : s.contexts.get? key = some c) (hslot : s.managerSlotIndex c = none) :
    Invariant config safe { s with contexts := s.contexts.erase key }
      (Function.update notes i (withHold i (Hold.loose c) (notes i))) := by
  obtain ⟨p, hp⟩ := Invariant.pool h hi
  have hnone : ∀ slot, s.managerSlots slot ≠ some c := by
    intro slot hs
    rw [managerSlotIndex_eq hp.distinct hs] at hslot
    cases hslot
  exact h.hold hi (fun _ hp => hp.popLoose hc hnone) (fun _ hd => hd.erase hk)
    fun _ _ _ _ _ hv => hv.rearrange

/-- A thread gives up the context that it holds. -/
theorem Invariant.drop (h : Invariant config safe s notes) (hi : MayHold i (notes i)) :
    Invariant config safe s (Function.update notes i (withHold i Hold.nothing (notes i))) :=
  h.hold hi (fun _ hp => hp.release_right) (fun _ hd => hd) fun _ _ _ _ _ hv => hv.rearrange

/-- A dialogue loses its context. -/
theorem Invariant.erase (h : Invariant config safe s notes) (hi : MayHold i (notes i))
    (hk : ∀ v, s.Unfinished v → contextKey (s.requests v) = key →
      (s.requests v).context = none) :
    Invariant config safe { s with contexts := s.contexts.erase key }
      (Function.update notes i (withHold i Hold.nothing (notes i))) :=
  h.hold hi (fun _ hp => (hp.erase key).release_right) (fun _ hd => hd.erase hk)
    fun _ _ _ _ _ hv => hv.rearrange

/-- **A thread resets the context that it holds.** -/
theorem Invariant.based {b : Bool} (h : Invariant config safe s notes) (hi : MayHold i (notes i))
    (hheld : held i (notes i) = Hold.pooled c slot b) :
    Invariant config safe (s.record (SchedulerEvent.based c))
      (Function.update notes i (withHold i (Hold.pooled c slot true) (notes i))) :=
  h.hold hi (fun _ hp => (hheld ▸ hp).based) (fun _ hd => hd.base c)
    fun _ _ _ _ _ hv => hv.noted (Or.inl ⟨c, rfl⟩)

/-- **A context that has been reset is free.** -/
theorem Invariant.resetDone (h : Invariant config safe s notes) (hi : MayHold i (notes i))
    (hheld : held i (notes i) = Hold.pooled c slot true) :
    Invariant config safe (s.resetDone slot c)
      (Function.update notes i (withHold i Hold.nothing (notes i))) := by
  obtain ⟨p, hp⟩ := Invariant.pool h hi
  have hready : s.managerSlotReady slot = true := (hp.right.1 c slot true hheld).2.1
  refine h.hold hi (fun _ hp => (hheld ▸ hp).resetDone) (fun _ hd => hd.resetDone hready) ?_
  intro d e events p q hv hp hd hh
  unfold CoreScheduler.resetDone at hp hd ⊢
  by_cases hc : c ∈ s.managerAvailable
  · simp only [if_pos hc] at hp hd ⊢
    exact hv.rearrange hp hd hh
  · simp only [if_neg hc, offerContext] at hp hd ⊢
    exact hv.rearrange hp hd hh

/-- **A context that could not be reset is lost.** -/
theorem Invariant.resetFailed {b : Bool} (h : Invariant config safe s notes) (hi : MayHold i (notes i))
    (hheld : held i (notes i) = Hold.pooled c slot b) :
    Invariant config safe (s.resetFailed slot c)
      (Function.update notes i (withHold i Hold.nothing (notes i))) := by
  refine h.hold hi (fun _ hp => (hheld ▸ hp).resetFailed) (fun _ hd => hd.resetFailed) ?_
  intro d e events p q hv hp hd hh
  unfold CoreScheduler.resetFailed at hp hd ⊢
  cases slot with
  | kv1 => exact hv.rearrange hp hd hh
  | kv2 => exact hv.rearrange hp hd hh

end Holder

/-! ### The executor -/

/-- A note of the executor without what it knew of a dialogue without a context. -/
theorem Valid.forgetMissing (h : Valid config safe s d e events) :
    Valid config safe s d { e with missing := none } events :=
  h.know { h.known with missing := nofun } rfl rfl

/-- **The executor takes a free context.** -/
theorem Valid.take (h : Valid config safe s d e events) {rest : List ℕ}
    (ha : s.managerAvailable = c :: rest) :
    ∃ slot, Valid config safe { s with managerAvailable := rest } d
      { e with hold := Hold.pooled c slot true } events := by
  obtain ⟨slot, hpool⟩ := h.pool.take ha
  exact ⟨slot, h.rearrange hpool { h.dialogues with } h.traffic.holding⟩

/-- **The executor gives a context of the pool to a dialogue.** -/
theorem Valid.assign (h : Valid config safe s d e events) (hhold : e.hold = Hold.pooled c slot true)
    (hnone : s.contexts.get? key = none) :
    Valid config safe (s.assignPooled key c) d { e with hold := Hold.nothing, missing := none }
      events := by
  have hpool := (hhold ▸ h.pool).assign key
  have hdialogues : Dialogues { s with contexts := s.contexts.set key c }
      { e with missing := none } :=
    h.forgetMissing.dialogues.set hnone rfl
  have hs : Valid config safe { s with contexts := s.contexts.set key c } d
      { e with hold := Hold.nothing, missing := none } events :=
    h.forgetMissing.rearrange { hpool with handed := h.pool.handed } hdialogues h.traffic.holding
  exact hs.noted (Or.inr (Or.inr ⟨c, key, _, rfl⟩)) hpool
    (hs.dialogues.record (by simp) (by simp)) h.traffic.holding

/-- The executor gives a new context to a dialogue. -/
theorem Valid.assignFresh (h : Valid config safe s d e events) (hhold : e.hold = Hold.fresh c)
    (hnone : s.contexts.get? key = none) :
    Valid config safe { s with contexts := s.contexts.set key c } d
      { e with hold := Hold.nothing, missing := none } events := by
  obtain ⟨hold, _, hnew, hslots, _⟩ := h.pool.right.2.1 c hhold
  have hpool := h.pool.assignOther key hold hslots
    (fun hp => h.pool.left_apart c (by rw [hp]; rfl) (by rw [hhold]; rfl)) fun _ => hnew
  exact h.forgetMissing.rearrange hpool (h.forgetMissing.dialogues.set hnone rfl) h.traffic.holding

/-- Without forks every dialogue has the first context. -/
theorem Valid.assignRuntime (h : Valid config safe s d e events) (hforks : config.forks ≠ true)
    (hnone : s.contexts.get? key = none) :
    Valid config safe { s with contexts := s.contexts.set key runtime } d
      { e with hold := Hold.nothing, missing := none } events := by
  have hpooled : config.managerPoolEnabled ≠ true := fun hp => hforks (config.forks_of_pool hp)
  have hslots : ∀ slot, s.managerSlots slot ≠ some runtime := by
    intro slot hc
    cases slot with
    | kv1 =>
        rw [h.pool.kv1, if_neg hpooled] at hc
        cases hc
    | kv2 => exact h.pool.kv2_ne hc
  have hp : d.hold ≠ Hold.fresh runtime := fun hd => (h.pool.left.2.1 runtime hd).2.1 rfl
  exact h.forgetMissing.rearrange
    (h.pool.assignOther key h.pool.next hslots hp fun hpool => absurd hpool hpooled)
    (h.forgetMissing.dialogues.set hnone rfl) h.traffic.holding

/-- **The executor forks a context.** -/
theorem Valid.fork (h : Valid config safe s d e events) :
    Valid config safe { s with nextContext := s.nextContext + 1 } d
      { e with hold := Hold.fresh s.nextContext } events :=
  h.rearrange h.pool.fork { h.dialogues with } h.traffic.holding

/-- The executor gives up the context that it holds. -/
theorem Valid.drop (h : Valid config safe s d e events) :
    Valid config safe s d { e with hold := Hold.nothing } events :=
  h.rearrange h.pool.release_right h.dialogues h.traffic.holding

/-- While the executor advances a request or makes KV2, the driver has not heard of a failure. -/
theorem Valid.not_lost (h : Valid config safe s d e events)
    (hj : (∃ u, e.job = some (SchedulerJob.advance u)) ∨
      e.job = some SchedulerJob.warmManagerKv2) (msg : PyStr) :
    s.kv2Future ≠ some (some (Except.error msg)) := by
  intro hf
  rcases hj with ⟨u, hj⟩ | hj
  · have hfuture := (h.atHand hj).2.1
    rw [h.traffic.exclusive (by rw [hf]; exact nofun)] at hfuture
    cases hfuture
  · have := h.traffic.warm (by simp [work, hj])
    rw [hf] at this
    cases this

/-- **KV2 is ready.** -/
theorem Valid.register (h : Valid config safe s d e events) (hhold : e.hold = Hold.fresh c)
    (hw : e.warming = true) (hj : (∃ u, e.job = some (SchedulerJob.advance u)) ∨
      e.job = some SchedulerJob.warmManagerKv2) :
    Valid config safe (s.registerKv2 c) d { e with hold := Hold.nothing, warming := false } events := by
  have hpool := (hhold ▸ h.pool).register (h.dialogues.warming hw)
  have hs : Valid config safe s d { e with warming := false } events :=
    h.know { h.known with warming := nofun } rfl rfl
  have hdialogues : Dialogues (s.registerKv2 c) { e with warming := false } :=
    { hs.dialogues with
      warming := nofun
      lost := fun msg hf => absurd hf (h.not_lost hj msg) }
  exact hs.rearrange hpool hdialogues h.traffic.holding

/-- KV1 has been reset, and is being rebuilt. -/
theorem Valid.rebased (h : Valid config safe s d e events) {b : Bool} (hr : e.recovering = some b)
    (hc : s.managerSlots ManagerSlot.kv1 = some c) :
    Valid config safe (s.record (SchedulerEvent.based c)) d { e with recovering := some true }
      events := by
  have hs : Valid config safe (s.record (SchedulerEvent.based c)) d e events :=
    h.noted (Or.inl ⟨c, rfl⟩) (h.pool.base c) (h.dialogues.base c) h.traffic.holding
  refine hs.know { hs.known with recovering := ?_ } rfl rfl
  intro b' hb'
  refine ⟨(h.dialogues.recovering b hr).1, fun _ c' hc' => ?_⟩
  have hc' : s.managerSlots ManagerSlot.kv1 = some c' := hc'
  rw [hc] at hc'
  cases hc'
  rw [dirt_based, if_pos rfl]

/-- **KV1 is ready again.** -/
theorem Valid.recover (h : Valid config safe s d e events) (hr : e.recovering = some true)
    (hc : s.managerSlots ManagerSlot.kv1 = some c) :
    Valid config safe (s.recovered c) d { e with hold := Hold.nothing, recovering := none } events := by
  obtain ⟨hready, hclean⟩ := h.dialogues.recovering true hr
  have hpool := h.pool.recover hc hready (hclean rfl c hc)
  have hs : Valid config safe s d { e with recovering := none } events :=
    h.know { h.known with recovering := nofun } rfl rfl
  obtain ⟨hnot, -, -⟩ := h.pool.unready hc hready
  have hdialogues : Dialogues (s.recovered c) { e with recovering := none } := by
    unfold recovered
    simp only [if_neg hnot, offerContext]
    exact { hs.dialogues with recovering := nofun }
  unfold recovered at hpool hdialogues ⊢
  simp only [if_neg hnot, offerContext] at hpool hdialogues ⊢
  exact hs.rearrange hpool hdialogues h.traffic.holding

/-- **The request at hand uses its context.** -/
theorem Valid.use (h : Valid config safe s d e events) {u : ℕ}
    (hj : e.job = some (SchedulerJob.advance u)) (hc : e.context = some c)
    (hk : e.key = some key) :
    Valid config safe (s.record (SchedulerEvent.used c key)) d { e with recovering := none } events := by
  obtain ⟨hactive, hfuture, -⟩ := h.atHand hj
  have hget : s.contexts.get? key = some c := by
    rw [← h.dialogues.key u key hj hk]
    exact h.dialogues.inUse u c (Or.inr ⟨hactive, Or.inl hfuture⟩) (h.dialogues.context u c hj hc)
  have hs : Valid config safe s d { e with recovering := none } events :=
    h.know { h.known with recovering := nofun } rfl rfl
  exact hs.noted (Or.inr (Or.inl ⟨c, key, rfl⟩)) (h.pool.use hget)
    { hs.dialogues with recovering := nofun } h.traffic.holding

/-- **The executor forgets all contexts.** -/
theorem Valid.forget (h : Valid config safe s d e events)
    (hj : e.job = some SchedulerJob.closeAllContexts) :
    Valid config safe (s.forgetContexts config) d { e with hold := Hold.nothing } events := by
  obtain ⟨_, l, hl, _⟩ := h.traffic.shut SchedulerJob.closeAllContexts (by simp [work, hj]) rfl
  have hhold : d.hold = Hold.nothing := (h.released (by rw [hl]; simp)).2
  have hpool := (hhold ▸ h.pool).forget
  have hfuture := (h.traffic.draining l true hl).1
  have hdialogues : Dialogues (s.forgetContexts config) e :=
    { h.dialogues with
      inUse := by
        intro v c hv hc
        have hc : (s.requests v).context = some c := hc
        rcases hv with hv | ⟨hv, _⟩
        · rw [h.queue.drained l true hl v hv] at hc
          cases hc
        · have hv : s.activeRequest = some v := hv
          rw [h.traffic.active.2 hfuture] at hv
          cases hv
      missing := fun _ _ => rfl
      warming := fun _ => rfl
      recovering := by
        intro b hb
        refine ⟨rfl, fun ht c hc => (h.dialogues.recovering b hb).2 ht c ?_⟩
        rw [h.pool.kv1]
        exact hc
      lost := fun _ _ => rfl }
  have hs := h.rearrange hpool hdialogues fun hne => absurd rfl hne
  have hd : d = { d with hold := Hold.nothing } := by rw [← hhold]
  rw [hd]
  exact hs

/-! ### The end of KV2 -/

/-- KV2 could not be made for a request. -/
theorem Valid.loseKv2 (h : Valid config safe s d e events) (hw : e.warming = true) :
    Valid config safe s.loseKv2 d { e with warming := false } events := by
  rw [h.pool.loseKv2 (h.dialogues.warming hw)]
  have hs : Valid config safe s d { e with warming := false } events :=
    h.know { h.known with warming := nofun } rfl rfl
  exact hs.aside h.traffic.stopped

/-- The driver hears that KV2 could not be made. -/
theorem Valid.hearLost (h : Valid config safe s d e events) {msg : PyStr}
    (hd : d.kv2 = some (some (Except.error msg))) :
    Valid config safe { s.loseKv2 with kv2Future := none } { d with kv2 := some none } e events := by
  have hf : s.kv2Future = some (some (Except.error msg)) := h.traffic.kv2 _ hd
  rw [h.pool.loseKv2 (h.dialogues.lost msg hf)]
  have hs := h.dropKv2 hd
  exact hs.aside h.traffic.stopped

end CoreScheduler
