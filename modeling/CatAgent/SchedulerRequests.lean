/-
**The requests of the core's scheduler.**

The invariant is kept by everything that is done to the request objects: by their admission, by the
small changes that concern neither their place nor their dialogue, and by what the executor does to
the request at hand when it starts it and gives it a context.

Main definitions:

* `CoreScheduler.Kin`, `CoreScheduler.Alike` — changes of a request that others do not notice;
* `CoreScheduler.New` — what a request must be like to be admitted.

Main results:

* `CoreScheduler.Valid.alike`, `CoreScheduler.Valid.enlist`, `CoreScheduler.Valid.begin`,
  `CoreScheduler.Valid.give` — **the invariant is kept**.
-/

import CatAgent.SchedulerInvariant

set_option relaxedAutoImplicit false
set_option autoImplicit false

namespace CoreScheduler

variable {config : SchedulerConfig} {safe : Bool} {s : CoreScheduler} {d : DriverNote}
  {e : ExecutorNote} {events : SchedulerThread → Option SystemEvent}

/-! ### The log -/

/-- What stands below the newest event stood in the log before. -/
theorem suffix_of_cons {x y : SchedulerEvent} {l log : List SchedulerEvent} (hne : y ≠ x)
    (h : y :: l <:+ x :: log) : y :: l <:+ log := by
  rcases List.suffix_cons_iff.1 h with h | h
  · cases h
    exact absurd rfl hne
  · exact h

theorem mem_of_cons {x y : SchedulerEvent} {log : List SchedulerEvent} (hne : y ≠ x)
    (h : y ∈ x :: log) : y ∈ log := (List.mem_cons.1 h).resolve_left hne

section Record

variable {x : SchedulerEvent}

theorem Completed.record {u : ℕ} (h : s.Completed u) : (s.record x).Completed u := by
  obtain ⟨t, ht⟩ := h
  exact ⟨t, List.mem_cons_of_mem _ ht⟩

theorem completed_record (hx : ∀ u t, x ≠ SchedulerEvent.completed u t) {u : ℕ} :
    (s.record x).Completed u ↔ s.Completed u := by
  refine ⟨?_, Completed.record⟩
  rintro ⟨t, ht⟩
  exact ⟨t, mem_of_cons (hx u t).symm ht⟩

theorem First.record {v : ℕ} (h : s.First v) : (s.record x).First v := fun u hu hk hd =>
  (h u hu hk hd).imp id Completed.record

theorem Queue.record (h : Queue config s d e) (hx : ∀ u n, x ≠ SchedulerEvent.admitted u n) :
    Queue config (s.record x) d e :=
  { h with
    reserve := fun u n hn hu => h.reserve u n (mem_of_cons (hx u n).symm hn) hu
    admitted_lt := fun u n hn => h.admitted_lt u n (mem_of_cons (hx u n).symm hn) }

theorem Ordered.alone_record (h : Ordered s d e) (x : SchedulerEvent) (u v : ℕ) (huv : u ≠ v)
    (hu : u < s.nextRequest) (hv : v < s.nextRequest) (hcu : ¬ (s.record x).Completed u)
    (hcv : ¬ (s.record x).Completed v) (hdu : Dialogic (s.requests u))
    (hdv : Dialogic (s.requests v)) (hd : s.SameDialogue u v) :
    (s.requests u).iterator = none ∨ (s.requests v).iterator = none :=
  h.alone u v huv hu hv (fun hc => hcu hc.record) (fun hc => hcv hc.record) hdu hdv hd

theorem Ordered.record (h : Ordered s d e) (hx : ∀ u t, x ≠ SchedulerEvent.completed u t)
    (hx' : ∀ u, x ≠ SchedulerEvent.discardRaised u) : Ordered (s.record x) d e :=
  { h with
    ready := fun u hu hf hk => (h.ready u hu hf hk).imp id First.record
    permitted := fun u hj hs hk => (h.permitted u hj hs hk).record
    begun := fun u hk hi => (h.begun u hk hi).record
    log := fun v t l hl => h.log v t l (suffix_of_cons (hx v t).symm hl)
    completed_lt := fun u hu => h.completed_lt u ((completed_record hx).1 hu)
    accounted := by
      intro u hu
      rw [completed_record hx]
      refine (h.accounted u hu).imp id (Or.imp id (Or.imp id ?_))
      rintro ⟨v, hv⟩
      exact ⟨v, List.mem_cons_of_mem _ hv⟩
    settled := fun u hu => (h.settled u hu).imp Completed.record id
    recycling := fun u hu => (h.recycling u hu).record
    raised := fun ⟨v, hv⟩ => h.raised ⟨v, mem_of_cons (hx' v).symm hv⟩
    lost := fun ⟨v, hv⟩ => h.lost ⟨v, mem_of_cons (hx' v).symm hv⟩
    alone := h.alone_record x }

theorem Once.record (h : Once s d) (hx : ∀ u t, x ≠ SchedulerEvent.completed u t)
    (hx' : ∀ u, x ≠ SchedulerEvent.discardRaised u) : Once (s.record x) d where
  once := by
    intro u
    have := h.once u
    rwa [completions, CoreScheduler.record, List.countP_cons_of_neg]
    cases x with
    | completed v t => exact absurd rfl (hx v t)
    | _ => simp [completes]
  pending := fun u hu hc => h.pending u hu ((completed_record hx).1 hc)
  active := fun u hu hc => h.active u hu ((completed_record hx).1 hc)
  nodup := h.nodup
  apart := h.apart
  remaining := fun u hu hc => h.remaining u hu ((completed_record hx).1 hc)
  discarded := h.discarded
  undiscarded := fun u hu => h.undiscarded u (mem_of_cons (hx' u).symm hu)

/-- A driver that discards no requests. -/
theorem Once.drive (h : Once s d) {d' : DriverNote} (hd : d'.role.remaining = [])
    (hactive : ∀ u, s.activeRequest = some u → s.Completed u →
      d'.role = DriverRole.recycling u ∨ d'.role = DriverRole.settled u ∨
        d'.role = DriverRole.idle ∧ s.closed = true) : Once s d' where
  once := h.once
  pending := h.pending
  active := hactive
  nodup := by
    rw [hd]
    exact List.nodup_nil
  apart := by
    rw [hd]
    exact nofun
  remaining := by
    rw [hd]
    exact nofun
  discarded := by
    intro u l hl
    rw [hl] at hd
    cases hd
  undiscarded := h.undiscarded

theorem dirt_record (hx : ∀ c k, x ≠ SchedulerEvent.used c k) (hx' : ∀ c, x ≠ SchedulerEvent.based c)
    (c : ℕ) : dirt c (s.record x).log = dirt c s.log := by
  cases x with
  | used c k => exact absurd rfl (hx c k)
  | based c => exact absurd rfl (hx' c)
  | _ => rfl

theorem Hold.Valid.record {p : Hold} (h : p.Valid s)
    (hx : ∀ c k, x ≠ SchedulerEvent.used c k) (hx' : ∀ c, x ≠ SchedulerEvent.based c) :
    p.Valid (s.record x) := by
  refine ⟨fun c slot b hp => ?_, fun c hp => ?_, h.2.2⟩
  · obtain ⟨h₁, h₂, h₃, h₄, h₅⟩ := h.1 c slot b hp
    exact ⟨h₁, h₂, h₃, h₄, fun hb => (dirt_record hx hx' c).trans (h₅ hb)⟩
  · obtain ⟨h₁, h₂, h₃, h₄, h₅⟩ := h.2.1 c hp
    exact ⟨h₁, h₂, h₃, h₄, (dirt_record hx hx' c).trans h₅⟩

theorem Pool.record {p q : Hold} (h : Pool config s p q) (hx : ∀ c k, x ≠ SchedulerEvent.used c k)
    (hx' : ∀ c, x ≠ SchedulerEvent.based c) (hx'' : ∀ c k r, x ≠ SchedulerEvent.handed c k r) :
    Pool config (s.record x) p q :=
  { h with
    available_clean := fun c hc => (dirt_record hx hx' c).trans (h.available_clean c hc)
    dirt_old := fun c hc => h.dirt_old c (dirt_record (s := s) hx hx' c ▸ hc)
    assigned_clean := fun slot c hc key hk key' hk' =>
      h.assigned_clean slot c hc key hk key' (dirt_record (s := s) hx hx' c ▸ hk')
    left := h.left.record hx hx'
    right := h.right.record hx hx'
    handed := fun c k r l hl => h.handed c k r l (suffix_of_cons (hx'' c k r).symm hl) }

theorem Dialogues.record (h : Dialogues s e) (hx : ∀ c k, x ≠ SchedulerEvent.used c k)
    (hx' : ∀ c, x ≠ SchedulerEvent.based c) : Dialogues (s.record x) e :=
  { h with
    recovering := fun b hb => ⟨(h.recovering b hb).1, fun ht c hc =>
      (dirt_record hx hx' c).trans ((h.recovering b hb).2 ht c hc)⟩ }

theorem Accepting.record (h : Accepting s events) (hx : ∀ a, x ≠ SchedulerEvent.accepted a) :
    Accepting (s.record x) events where
  accepting := by
    intro i event hi
    obtain ⟨u, n, hn, hu⟩ := h.accepting i event hi
    exact ⟨u, n, List.mem_cons_of_mem _ hn, hu⟩
  accepted := fun event l hl => h.accepted event l (suffix_of_cons (hx event).symm hl)

end Record

/-! ### Changes of the request objects -/

/-- A change of a request that keeps what it is and to which dialogue it belongs; a cancellation is
not taken back. -/
structure Kin (a b : PriorityRequest) : Prop where
  kind : b.kind = a.kind
  label : b.label = a.label
  payload : b.payload = a.payload
  queuedAt : b.queuedAt = a.queuedAt
  priority : b.priority = a.priority
  sessionId : b.sessionId = a.sessionId
  taskRun : b.taskRun = a.taskRun
  cancelled : a.cancelled = true → b.cancelled = true

/-- A change that also keeps whether there is an iterator. -/
structure Alike (a b : PriorityRequest) : Prop extends Kin a b where
  iterator : b.iterator = none ↔ a.iterator = none

theorem Kin.refl (a : PriorityRequest) : Kin a a := by
  constructor <;> simp

theorem Alike.refl (a : PriorityRequest) : Alike a a := ⟨Kin.refl a, Iff.rfl⟩

theorem Kin.contextKey {a b : PriorityRequest} (h : Kin a b) : contextKey b = contextKey a := by
  simp only [CoreScheduler.contextKey, h.label, h.kind, h.sessionId]

theorem Kin.dialogic {a b : PriorityRequest} (h : Kin a b) : Dialogic b ↔ Dialogic a := by
  simp only [Dialogic, h.kind]

section Kin

variable {t : CoreScheduler} {u v : ℕ}

theorem Kin.isUser (h : Kin (s.requests u) (t.requests u)) : t.IsUser u ↔ s.IsUser u := by
  simp only [IsUser, h.kind]

theorem Kin.sameDialogue (hu : Kin (s.requests u) (t.requests u))
    (hv : Kin (s.requests v) (t.requests v)) : t.SameDialogue u v ↔ s.SameDialogue u v := by
  simp only [SameDialogue, hu.contextKey, hv.contextKey]

theorem First.kin (h : s.First v) (hr : ∀ u, Kin (s.requests u) (t.requests u))
    (hc : ∀ u, s.Completed u → t.Completed u) : t.First v := by
  intro u hu hk hd
  rw [(hr u).isUser] at hk
  rw [(hr u).sameDialogue (hr v)] at hd
  exact (h u hu hk hd).imp (hr u).cancelled (hc u)

theorem Stamped.kin (h : Stamped s) (hr : ∀ u, Kin (s.requests u) (t.requests u))
    (hnext : t.nextRequest = s.nextRequest) (hclock : t.clock = s.clock) : Stamped t where
  priority := by
    intro u hu
    rw [(hr u).isUser] at hu
    rw [(hr u).priority, (hr u).label]
    exact h.priority u hu
  clock := by
    intro u hu hk
    rw [hnext] at hu
    rw [(hr u).isUser] at hk
    rw [(hr u).queuedAt, hclock]
    exact h.clock u hu hk
  stamps := by
    intro u v huv hv hku hkv
    rw [hnext] at hv
    rw [(hr u).isUser] at hku
    rw [(hr v).isUser] at hkv
    rw [(hr u).queuedAt, (hr v).queuedAt]
    exact h.stamps u v huv hv hku hkv

end Kin

/-- A request to work on a task. -/
def Activation (item : PriorityRequest) : Prop :=
  item.kind = RequestKind.system ∧ item.payload.taskId? ≠ none

section Alike

variable {requests : ℕ → PriorityRequest} (hr : ∀ u, Alike (s.requests u) (requests u))

include hr

theorem isUser_alike (u : ℕ) : { s with requests }.IsUser u ↔ s.IsUser u :=
  Kin.isUser (hr u).toKin

theorem sameDialogue_alike (u v : ℕ) :
    { s with requests }.SameDialogue u v ↔ s.SameDialogue u v :=
  Kin.sameDialogue (hr u).toKin (hr v).toKin

theorem startable_alike (u : ℕ) : { s with requests }.Startable u ↔ s.Startable u := by
  simp only [Startable, ne_eq, (hr _).iterator, (hr _).dialogic, sameDialogue_alike hr]

theorem First.alike {u : ℕ} (h : s.First u) : { s with requests }.First u :=
  h.kin (fun u => (hr u).toKin) fun _ => id

theorem Requests.alike (h : Requests s)
    (hcontext : ∀ u, (requests u).context = (s.requests u).context ∨
      ((s.requests u).iterator ≠ none ∧ ¬ Activation (s.requests u)))
    (htask : ∀ u, (requests u).iterator = some StepsIterator.task →
      (s.requests u).iterator = some StepsIterator.task ∨ Activation (s.requests u)) :
    Requests { s with requests } where
  old := by
    intro u hu
    rw [ne_eq, (hr u).iterator] at hu
    exact h.old u hu
  voice := by
    intro u hu
    rw [isUser_alike hr]
    exact h.voice u ((hr u).label ▸ hu)
  context := by
    intro u hu
    rw [ne_eq, (hr u).iterator]
    rcases hcontext u with hc | hc
    · exact h.context u (hc ▸ hu)
    · exact hc.1
  task := by
    intro u hk ht
    rw [(hr u).kind] at hk
    rw [(hr u).payload] at ht
    rcases hcontext u with hc | hc
    · exact hc.trans (h.task u hk ht)
    · exact absurd ⟨hk, ht⟩ hc.2
  iterator := by
    intro u hu
    rw [(hr u).kind, (hr u).payload]
    exact (htask u hu).elim (h.iterator u) id
  runs := by
    intro u hu
    rw [isUser_alike hr] at hu
    rw [(hr u).taskRun]
    exact h.runs u hu

theorem Knowledge.alike (h : Knowledge s e) : Knowledge { s with requests } e where
  permitted := by
    intro u hj hs
    rw [startable_alike hr]
    exact h.permitted u hj hs
  started := by
    intro u hj hs
    rw [ne_eq, (hr u).iterator]
    exact h.started u hj hs
  system := by
    intro u hj hs
    rw [isUser_alike hr]
    exact h.system u hj hs
  activation := by
    intro u hj hs
    rw [(hr u).kind, (hr u).payload]
    exact h.activation u hj hs
  talk := by
    intro u hj hs
    rw [(hr u).kind, (hr u).payload]
    exact h.talk u hj hs

theorem Driven.alike (h : Driven s d)
    (hcontext : ∀ u, (requests u).context = (s.requests u).context ∨
      ((s.requests u).iterator ≠ none ∧ d.role.request? ≠ some u ∧ u ∉ s.pending)) :
    Driven { s with requests } d where
  apart := h.apart
  completion := by
    intro u c hu hf h₁ h₂
    rw [(hr u).kind, (hr u).payload]
    exact h.completion u c hu hf h₁ h₂
  requeueing := by
    intro u hu
    rw [isUser_alike hr, (hr u).iterator]
    obtain ⟨h₁, h₂, h₃⟩ := h.requeueing u hu
    rcases hcontext u with hc | hc
    · exact ⟨h₁, h₂, hc.trans h₃⟩
    · exact absurd h₂ hc.1
  key := by
    intro key hk
    obtain ⟨u, hu, h₁, h₂, h₃⟩ := h.key key hk
    refine ⟨u, hu, (isUser_alike hr u).2 h₁, ((hr u).contextKey).trans h₂, ?_⟩
    rcases hcontext u with hc | hc
    · rwa [hc]
    · exact absurd (by rw [hu]; rfl) hc.2.1
  drained := by
    intro l b hl u hu
    rcases hcontext u with hc | hc
    · exact hc.trans (h.drained l b hl u hu)
    · exact absurd hu hc.2.2

theorem Queue.alike (h : Queue config s d e)
    (hcontext : ∀ u, (requests u).context = (s.requests u).context ∨
      ((s.requests u).iterator ≠ none ∧ ¬ Activation (s.requests u) ∧ d.role.request? ≠ some u ∧
        u ∉ s.pending))
    (htask : ∀ u, (requests u).iterator = some StepsIterator.task →
      (s.requests u).iterator = some StepsIterator.task ∨ Activation (s.requests u)) :
    Queue config { s with requests } d e where
  toRequests := h.toRequests.alike hr (fun u => (hcontext u).imp id fun hc => ⟨hc.1, hc.2.1⟩) htask
  toKnowledge := h.toKnowledge.alike hr
  toDriven := h.toDriven.alike hr fun u => (hcontext u).imp id fun hc => ⟨hc.1, hc.2.2⟩
  pending_lt := h.pending_lt
  active_lt := h.active_lt
  nodup := h.nodup
  single := by
    intro u hu v hv huv hdu hdv hk
    rw [(hr u).dialogic] at hdu
    rw [(hr v).dialogic] at hdv
    rw [sameDialogue_alike hr] at hk
    rw [(hr u).iterator, (hr v).iterator]
    exact h.single u hu v hv huv hdu hdv hk
  startable := by
    intro u hu hf
    rw [startable_alike hr]
    exact (h.startable u hu hf).imp (hr u).cancelled id
  paused := by
    intro u hu hf hk
    rw [isUser_alike hr] at hk
    rw [ne_eq, (hr u).iterator]
    exact h.paused u hu hf hk
  grants := by
    intro u hu v hv huv a b ha hb
    rw [(hr u).taskRun] at ha
    rw [(hr v).taskRun] at hb
    exact h.grants u hu v hv huv a b ha hb
  capacity := h.capacity
  reserve := by
    intro u n hn hu
    rw [isUser_alike hr] at hu
    exact h.reserve u n hn hu
  admitted_lt := h.admitted_lt

theorem Turns.alike (h : Turns s e) : Turns { s with requests } e where
  waiting := by
    refine h.waiting.imp fun {u v} huv hu hv => huv ?_ ?_
    · exact ⟨(isUser_alike hr u).1 hu.1, (hr u).iterator.1 hu.2⟩
    · exact ⟨(isUser_alike hr v).1 hv.1, (hr v).iterator.1 hv.2⟩
  ready := by
    intro u hu hf hk
    rw [isUser_alike hr] at hk
    exact (h.ready u hu hf hk).imp (hr u).cancelled (First.alike hr)
  permitted := by
    intro u hj hs hk
    rw [isUser_alike hr] at hk
    exact (h.permitted u hj hs hk).alike hr
  begun := by
    intro u hk hi
    rw [isUser_alike hr] at hk
    rw [ne_eq, (hr u).iterator] at hi
    exact (h.begun u hk hi).alike hr
  answered := by
    intro u f hu hf hk t ht hc
    rw [isUser_alike hr] at hk
    rw [ne_eq, (hr u).iterator]
    exact h.answered u f hu hf hk t ht hc
  log := by
    intro v t l hl ht hv u huv hu hd
    rw [isUser_alike hr] at hu hv
    rw [sameDialogue_alike hr] at hd
    exact (h.log v t l hl ht hv u huv hu hd).imp (hr u).cancelled id
  alone := by
    intro u v huv hu hv hcu hcv hdu hdv hd
    rw [(hr u).dialogic] at hdu
    rw [(hr v).dialogic] at hdv
    rw [sameDialogue_alike hr] at hd
    rw [(hr u).iterator, (hr v).iterator]
    exact h.alone u v huv hu hv hcu hcv hdu hdv hd

theorem Ordered.alike (h : Ordered s d e) : Ordered { s with requests } d e where
  toStamped := h.toStamped.kin (fun u => (hr u).toKin) rfl rfl
  toTurns := h.toTurns.alike hr
  toAccounts := { h.toAccounts with }

theorem Dialogues.alike (h : Dialogues s e)
    (hcontext : ∀ u, (requests u).context = (s.requests u).context) :
    Dialogues { s with requests } e where
  inUse := by
    intro u c hu hc
    rw [hcontext] at hc
    rw [(hr u).contextKey]
    exact h.inUse u c hu hc
  key := by
    intro u key hj hk
    rw [(hr u).contextKey]
    exact h.key u key hj hk
  context := by
    intro u c hj hc
    rw [hcontext]
    exact h.context u c hj hc
  missing := h.missing
  releasing := by
    intro key hk u hu hd
    rw [(hr u).contextKey] at hd
    rw [hcontext]
    exact h.releasing key hk u hu hd
  warming := h.warming
  recovering := h.recovering
  lost := h.lost

theorem Accepting.alike (h : Accepting s events) : Accepting { s with requests } events where
  accepting := by
    intro i event hi
    obtain ⟨u, n, hn, hu⟩ := h.accepting i event hi
    exact ⟨u, n, hn, by rw [(hr u).taskRun, hu]⟩
  accepted := by
    intro event l hl
    obtain ⟨u, n, hn, hu⟩ := h.accepted event l hl
    exact ⟨u, n, hn, by rw [(hr u).taskRun, hu]⟩

/-- **A change that concerns neither places nor dialogues keeps the invariant.** -/
theorem Valid.alike (h : Valid config safe s d e events)
    (hcontext : ∀ u, (requests u).context = (s.requests u).context)
    (htask : ∀ u, (requests u).iterator = some StepsIterator.task →
      (s.requests u).iterator = some StepsIterator.task ∨ Activation (s.requests u)) :
    Valid config safe { s with requests } d e events where
  traffic := { h.traffic with }
  queue := h.queue.alike hr (fun u => Or.inl (hcontext u)) htask
  ordered := h.ordered.alike hr
  once := h.once.imp id fun h => { h with }
  pool := { h.pool with }
  dialogues := h.dialogues.alike hr hcontext
  accepting := h.accepting.alike hr

end Alike

/-! ### Admission -/

/-- A request that can be admitted. -/
structure New (s : CoreScheduler) (item : PriorityRequest) : Prop where
  iterator : item.iterator = none
  context : item.context = none
  kind : item.kind ≠ RequestKind.manager
  voice : item.label = "voice" → item.kind = RequestKind.user
  user : item.kind = RequestKind.user → item.taskRun = none ∧ item.queuedAt = s.clock ∧
    item.priority = if item.label = "voice" then voicePriority else managerPriority
  grants : ∀ a, item.taskRun = some a → ∀ v ∈ s.live, ∀ b, (s.requests v).taskRun = some b →
    (a.runId, a.offerId) ≠ (b.runId, b.offerId)

section Admit

variable {item : PriorityRequest}

theorem requests_enlist_self : (s.enlist item).requests s.nextRequest = item :=
  Function.update_self ..

theorem requests_enlist {u : ℕ} (h : u ≠ s.nextRequest) :
    (s.enlist item).requests u = s.requests u := Function.update_of_ne h ..

theorem mem_live {u : ℕ} : u ∈ s.live ↔ u ∈ s.pending ∨ s.activeRequest = some u := by
  simp [live]

theorem mem_live_enlist {u : ℕ} : u ∈ (s.enlist item).live ↔ u ∈ s.live ∨ u = s.nextRequest := by
  simp only [mem_live, enlist, List.mem_append, List.mem_singleton]
  tauto

theorem isUser_enlist {u : ℕ} (h : u ≠ s.nextRequest) : (s.enlist item).IsUser u ↔ s.IsUser u := by
  simp only [IsUser, requests_enlist h]

theorem sameDialogue_enlist {u v : ℕ} (hu : u ≠ s.nextRequest) (hv : v ≠ s.nextRequest) :
    (s.enlist item).SameDialogue u v ↔ s.SameDialogue u v := by
  simp only [SameDialogue, requests_enlist hu, requests_enlist hv]

theorem Completed.enlist {u : ℕ} (h : s.Completed u) : (s.enlist item).Completed u := by
  obtain ⟨t, ht⟩ := h
  exact ⟨t, List.mem_cons_of_mem _ ht⟩

theorem completed_enlist {u : ℕ} : (s.enlist item).Completed u ↔ s.Completed u := by
  refine ⟨?_, Completed.enlist⟩
  rintro ⟨t, ht⟩
  simp only [CoreScheduler.enlist, List.mem_cons, reduceCtorEq, false_or] at ht
  exact ⟨t, ht⟩

theorem Startable.enlist {u : ℕ} (hitem : s.New item) (hu : u ≠ s.nextRequest)
    (h : s.Startable u) : (s.enlist item).Startable u := by
  rcases h with h | h | h
  · exact Or.inl (by rwa [requests_enlist hu])
  · exact Or.inr (Or.inl (by rwa [requests_enlist hu]))
  · refine Or.inr (Or.inr fun v hv hvu hdv hk => ?_)
    rcases eq_or_ne v s.nextRequest with rfl | hne
    · rw [requests_enlist_self]
      exact hitem.iterator
    · rw [requests_enlist hne] at hdv ⊢
      rw [sameDialogue_enlist hne hu] at hk
      refine h v ?_ hvu hdv hk
      simpa [CoreScheduler.enlist, hne] using hv

theorem First.enlist {u : ℕ} (hu : u < s.nextRequest) (h : s.First u) : (s.enlist item).First u := by
  intro v hv hk hd
  have hne : v ≠ s.nextRequest := by omega
  rw [isUser_enlist hne] at hk
  rw [sameDialogue_enlist hne (by omega)] at hd
  rw [requests_enlist hne]
  exact (h v hv hk hd).imp id Completed.enlist

theorem Requests.enlist (h : Requests s) (hitem : s.New item) : Requests (s.enlist item) where
  old := by
    intro u hu
    rcases eq_or_ne u s.nextRequest with rfl | hne
    · rw [requests_enlist_self] at hu
      exact absurd hitem.iterator hu
    · rw [requests_enlist hne] at hu
      exact (h.old u hu).trans (Nat.lt_succ_self _)
  voice := by
    intro u hu
    rcases eq_or_ne u s.nextRequest with rfl | hne
    · rw [requests_enlist_self] at hu
      rw [IsUser, requests_enlist_self]
      exact hitem.voice hu
    · rw [requests_enlist hne] at hu
      rw [isUser_enlist hne]
      exact h.voice u hu
  context := by
    intro u hu
    rcases eq_or_ne u s.nextRequest with rfl | hne
    · rw [requests_enlist_self] at hu
      exact absurd hitem.context hu
    · rw [requests_enlist hne] at hu ⊢
      exact h.context u hu
  task := by
    intro u hk ht
    rcases eq_or_ne u s.nextRequest with rfl | hne
    · rw [requests_enlist_self]
      exact hitem.context
    · rw [requests_enlist hne] at hk ht ⊢
      exact h.task u hk ht
  iterator := by
    intro u hu
    rcases eq_or_ne u s.nextRequest with rfl | hne
    · rw [requests_enlist_self, hitem.iterator] at hu
      cases hu
    · rw [requests_enlist hne] at hu ⊢
      exact h.iterator u hu
  runs := by
    intro u hu
    rcases eq_or_ne u s.nextRequest with rfl | hne
    · rw [IsUser, requests_enlist_self] at hu
      rw [requests_enlist_self]
      exact (hitem.user hu).1
    · rw [isUser_enlist hne] at hu
      rw [requests_enlist hne]
      exact h.runs u hu

theorem Knowledge.enlist (h : Knowledge s e) (hitem : s.New item)
    (hjob : ∀ u, e.job.bind requestOf = some u → u < s.nextRequest) :
    Knowledge (s.enlist item) e where
  permitted := by
    intro u hj hs
    have hne : u ≠ s.nextRequest := (hjob u (by rw [hj]; rfl)).ne
    exact (h.permitted u hj hs).enlist hitem hne
  started := by
    intro u hj hs
    rw [requests_enlist (hjob u hj).ne]
    exact h.started u hj hs
  system := by
    intro u hj hs
    rw [isUser_enlist (hjob u (by rw [hj]; rfl)).ne]
    exact h.system u hj hs
  activation := by
    intro u hj hs
    rw [requests_enlist (hjob u (by rw [hj]; rfl)).ne]
    exact h.activation u hj hs
  talk := by
    intro u hj hs
    rw [requests_enlist (hjob u (by rw [hj]; rfl)).ne]
    exact h.talk u hj hs

theorem Driven.enlist (h : Driven s d) (hitem : s.New item)
    (hpending : ∀ u ∈ s.pending, u < s.nextRequest)
    (hactive : ∀ u, s.activeRequest = some u → u < s.nextRequest)
    (hrole : ∀ u, d.role.request? = some u → u < s.nextRequest) : Driven (s.enlist item) d where
  apart := by
    intro u hu hp
    have hlt := hactive u hu
    simp only [CoreScheduler.enlist, List.mem_append, List.mem_singleton] at hp
    rcases hp with hp | hp
    · exact h.apart u hu hp
    · omega
  completion := by
    intro u c hu hf h₁ h₂
    rw [requests_enlist (hactive u hu).ne]
    exact h.completion u c hu hf h₁ h₂
  requeueing := by
    intro u hu
    have hne : u ≠ s.nextRequest := (hrole u (by rw [hu]; rfl)).ne
    rw [isUser_enlist hne, requests_enlist hne]
    exact h.requeueing u hu
  key := by
    intro key hk
    obtain ⟨u, hu, hkey⟩ := h.key key hk
    have hne : u ≠ s.nextRequest := (hrole u (by rw [hu]; rfl)).ne
    refine ⟨u, hu, ?_⟩
    rw [isUser_enlist hne, requests_enlist hne]
    exact hkey
  drained := by
    intro l b hl u hu
    simp only [CoreScheduler.enlist, List.mem_append, List.mem_singleton] at hu
    rcases hu with hu | rfl
    · rw [requests_enlist (hpending u hu).ne]
      exact h.drained l b hl u hu
    · rw [requests_enlist_self]
      exact hitem.context

/-- What holds between the requests at hand holds afterwards if it holds between the new request and
each of them. -/
theorem pairs_enlist {P : ℕ → ℕ → Prop}
    (hold : ∀ u ∈ s.live, ∀ v ∈ s.live, u ≠ s.nextRequest → v ≠ s.nextRequest → u ≠ v → P u v)
    (hfirst : ∀ v ∈ s.live, v ≠ s.nextRequest → P s.nextRequest v)
    (hsecond : ∀ u ∈ s.live, u ≠ s.nextRequest → P u s.nextRequest) :
    ∀ u ∈ (s.enlist item).live, ∀ v ∈ (s.enlist item).live, u ≠ v → P u v := by
  intro u hu v hv huv
  rw [mem_live_enlist] at hu hv
  by_cases hun : u = s.nextRequest
  · subst hun
    have hvn : v ≠ s.nextRequest := huv.symm
    exact hfirst v (hv.resolve_right hvn) hvn
  · by_cases hvn : v = s.nextRequest
    · subst hvn
      exact hsecond u (hu.resolve_right hun) hun
    · exact hold u (hu.resolve_right hun) v (hv.resolve_right hvn) hun hvn huv

/-- A request that is let in finds room. -/
theorem liveCount_enlist_le
    (hroom : s.pending.length + s.activeRequest.toList.length < limit config item) :
    (s.enlist item).liveCount ≤ config.maxPending := by
  have hlimit : limit config item ≤ config.maxPending := by
    have := config.two_le_maxPending
    unfold limit
    split <;> omega
  have hcard : (s.enlist item).live.toFinset.card ≤ (s.enlist item).live.length :=
    List.toFinset_card_le _
  have hlength : (s.enlist item).live.length =
      s.pending.length + s.activeRequest.toList.length + 1 := by
    simp only [live, CoreScheduler.enlist, List.length_append, List.length_singleton]
    omega
  unfold liveCount
  omega

theorem Queue.enlist (h : Queue config s d e) (hitem : s.New item)
    (hjob : ∀ u, e.job.bind requestOf = some u → u < s.nextRequest)
    (hrole : ∀ u, d.role.request? = some u → u < s.nextRequest)
    (hroom : s.pending.length + s.activeRequest.toList.length < limit config item) :
    Queue config (s.enlist item) d e where
  toRequests := h.toRequests.enlist hitem
  toKnowledge := h.toKnowledge.enlist hitem hjob
  toDriven := h.toDriven.enlist hitem h.pending_lt h.active_lt hrole
  pending_lt := by
    intro u hu
    simp only [CoreScheduler.enlist, List.mem_append, List.mem_singleton] at hu ⊢
    rcases hu with hu | rfl
    · have := h.pending_lt u hu
      omega
    · omega
  active_lt := by
    intro u hu
    have := h.active_lt u hu
    simp only [CoreScheduler.enlist]
    omega
  nodup := by
    refine List.Nodup.append h.nodup (List.nodup_singleton _) ?_
    intro u hu hn
    rw [List.mem_singleton] at hn
    have := h.pending_lt u hu
    omega
  single := by
    refine pairs_enlist ?_ ?_ ?_
    · intro u hu v hv hun hvn huv hdu hdv hk
      rw [requests_enlist hun] at hdu ⊢
      rw [requests_enlist hvn] at hdv ⊢
      rw [sameDialogue_enlist hun hvn] at hk
      exact h.single u hu v hv huv hdu hdv hk
    · intro v _ _ _ _ _
      rw [requests_enlist_self]
      exact Or.inl hitem.iterator
    · intro u _ _ _ _ _
      rw [requests_enlist_self]
      exact Or.inr hitem.iterator
  startable := by
    intro u hu hf
    have hne : u ≠ s.nextRequest := (h.active_lt u hu).ne
    rw [requests_enlist hne]
    exact (h.startable u hu hf).imp id (Startable.enlist hitem hne)
  paused := by
    intro u hu hf hk
    have hne := (h.active_lt u hu).ne
    rw [isUser_enlist hne] at hk
    rw [requests_enlist hne]
    exact h.paused u hu hf hk
  grants := by
    refine pairs_enlist ?_ ?_ ?_
    · intro u hu v hv hun hvn huv a b ha hb
      rw [requests_enlist hun] at ha
      rw [requests_enlist hvn] at hb
      exact h.grants u hu v hv huv a b ha hb
    · intro v hv hvn a b ha hb
      rw [requests_enlist_self] at ha
      rw [requests_enlist hvn] at hb
      exact hitem.grants a ha v hv b hb
    · intro u hu hun a b ha hb
      rw [requests_enlist_self] at hb
      rw [requests_enlist hun] at ha
      exact (hitem.grants b hb u hu a ha).symm
  capacity := liveCount_enlist_le hroom
  reserve := by
    intro u n hn hu
    simp only [CoreScheduler.enlist, List.mem_cons, SchedulerEvent.admitted.injEq] at hn
    rcases hn with ⟨rfl, rfl⟩ | hn
    · rw [IsUser, requests_enlist_self] at hu
      have hcard : s.liveCount ≤ s.live.length := List.toFinset_card_le _
      have hlength : s.live.length = s.pending.length + s.activeRequest.toList.length :=
        List.length_append
      simp only [limit, hu, if_false] at hroom
      omega
    · have hne := (h.admitted_lt u n hn).ne
      rw [isUser_enlist hne] at hu
      exact h.reserve u n hn hu
  admitted_lt := by
    intro u n hn
    simp only [CoreScheduler.enlist, List.mem_cons, SchedulerEvent.admitted.injEq] at hn ⊢
    rcases hn with ⟨rfl, rfl⟩ | hn
    · omega
    · have := h.admitted_lt u n hn
      omega

theorem Stamped.enlist (h : Stamped s) (hitem : s.New item) : Stamped (s.enlist item) where
  priority := by
    intro u hu
    rcases eq_or_ne u s.nextRequest with rfl | hne
    · rw [IsUser, requests_enlist_self] at hu
      rw [requests_enlist_self]
      exact (hitem.user hu).2.2
    · rw [isUser_enlist hne] at hu
      rw [requests_enlist hne]
      exact h.priority u hu
  clock := by
    intro u hu hk
    rcases eq_or_ne u s.nextRequest with rfl | hne
    · rw [IsUser, requests_enlist_self] at hk
      rw [requests_enlist_self]
      exact (hitem.user hk).2.1.le
    · rw [isUser_enlist hne] at hk
      rw [requests_enlist hne]
      exact h.clock u (by simp only [CoreScheduler.enlist] at hu; omega) hk
  stamps := by
    intro u v huv hv hku hkv
    have hun : u ≠ s.nextRequest := by
      simp only [CoreScheduler.enlist] at hv
      omega
    rw [isUser_enlist hun] at hku
    rw [requests_enlist hun]
    rcases eq_or_ne v s.nextRequest with rfl | hne
    · rw [IsUser, requests_enlist_self] at hkv
      rw [requests_enlist_self, (hitem.user hkv).2.1]
      exact h.clock u huv hku
    · rw [isUser_enlist hne] at hkv
      rw [requests_enlist hne]
      exact h.stamps u v huv (by simp only [CoreScheduler.enlist] at hv; omega) hku hkv

theorem Turns.enlist (h : Turns s e) (hitem : s.New item)
    (hpending : ∀ u ∈ s.pending, u < s.nextRequest)
    (hactive : ∀ u, s.activeRequest = some u → u < s.nextRequest)
    (hjob : ∀ u, e.job.bind requestOf = some u → u < s.nextRequest)
    (hold : ∀ u, (s.requests u).iterator ≠ none → u < s.nextRequest)
    (hcompleted : ∀ u, s.Completed u → u < s.nextRequest) : Turns (s.enlist item) e where
  waiting := by
    refine List.pairwise_append.2 ⟨?_, List.pairwise_singleton _ _, ?_⟩
    · refine h.waiting.imp_of_mem fun {u v} hu hv huv hwu hwv => huv ?_ ?_
      · simpa [Waiting, IsUser, requests_enlist (hpending u hu).ne] using hwu
      · simpa [Waiting, IsUser, requests_enlist (hpending v hv).ne] using hwv
    · intro u hu v hv _ _
      rw [List.mem_singleton] at hv
      rw [hv]
      exact hpending u hu
  ready := by
    intro u hu hf hk
    have hlt := hactive u hu
    rw [isUser_enlist hlt.ne] at hk
    rw [requests_enlist hlt.ne]
    exact (h.ready u hu hf hk).imp id (First.enlist hlt)
  permitted := by
    intro u hj hs hk
    have hlt := hjob u (by rw [hj]; rfl)
    rw [isUser_enlist hlt.ne] at hk
    exact (h.permitted u hj hs hk).enlist hlt
  begun := by
    intro u hk hi
    rcases eq_or_ne u s.nextRequest with rfl | hne
    · rw [requests_enlist_self] at hi
      exact absurd hitem.iterator hi
    · rw [isUser_enlist hne] at hk
      rw [requests_enlist hne] at hi
      exact (h.begun u hk hi).enlist (hold u hi)
  answered := by
    intro u f hu hf hk t ht hc
    have hne := (hactive u hu).ne
    rw [isUser_enlist hne] at hk
    rw [requests_enlist hne]
    exact h.answered u f hu hf hk t ht hc
  log := by
    intro v t l hl ht hv u huv hu hd
    have hl := suffix_of_cons (by simp) hl
    have hvlt : v < s.nextRequest := hcompleted v ⟨t, hl.subset List.mem_cons_self⟩
    rw [isUser_enlist (by omega)] at hu hv
    rw [sameDialogue_enlist (by omega) (by omega)] at hd
    rw [requests_enlist (by omega)]
    exact h.log v t l hl ht hv u huv hu hd
  alone := by
    intro u v huv hu hv hcu hcv hdu hdv hd
    -- The new request has no iterator.
    rcases eq_or_ne u s.nextRequest with rfl | hun
    · rw [requests_enlist_self]
      exact Or.inl hitem.iterator
    rcases eq_or_ne v s.nextRequest with rfl | hvn
    · rw [requests_enlist_self]
      exact Or.inr hitem.iterator
    rw [requests_enlist hun] at hdu ⊢
    rw [requests_enlist hvn] at hdv ⊢
    rw [sameDialogue_enlist hun hvn] at hd
    simp only [CoreScheduler.enlist] at hu hv
    exact h.alone u v huv (by omega) (by omega) (fun hc => hcu hc.enlist) (fun hc => hcv hc.enlist)
      hdu hdv hd

theorem Accounts.enlist (h : Accounts s d) : Accounts (s.enlist item) d where
  completed_lt := by
    intro u hu
    have := h.completed_lt u (completed_enlist.1 hu)
    simp only [CoreScheduler.enlist]
    omega
  accounted := by
    intro u hu
    rw [completed_enlist, mem_live_enlist]
    rcases eq_or_ne u s.nextRequest with rfl | hne
    · exact Or.inr (Or.inl (Or.inr rfl))
    · have hlt : u < s.nextRequest := by
        simp only [CoreScheduler.enlist] at hu
        omega
      rcases h.accounted u hlt with hu | hu | hu | ⟨v, hv⟩
      · exact Or.inl hu
      · exact Or.inr (Or.inl (Or.inl hu))
      · exact Or.inr (Or.inr (Or.inl hu))
      · exact Or.inr (Or.inr (Or.inr ⟨v, List.mem_cons_of_mem _ hv⟩))
  remaining_lt := by
    intro u hu
    have := h.remaining_lt u hu
    simp only [CoreScheduler.enlist]
    omega
  kept := h.kept
  settled := by
    intro u hu
    rcases h.settled u hu with hc | hp
    · exact Or.inl hc.enlist
    · exact Or.inr (List.mem_append_left _ hp)
  recycling := fun u hu => (h.recycling u hu).enlist
  raised := by
    rintro ⟨v, hv⟩
    refine h.raised ⟨v, ?_⟩
    simpa [CoreScheduler.enlist] using hv
  lost := by
    rintro ⟨v, hv⟩
    refine h.lost ⟨v, ?_⟩
    simpa [CoreScheduler.enlist] using hv

theorem Once.enlist (h : Once s d)
    (hcompleted : ∀ u, s.Completed u → u < s.nextRequest)
    (hremaining : ∀ u ∈ d.role.remaining, u < s.nextRequest) : Once (s.enlist item) d where
  once := h.once
  pending := by
    intro u hu hc
    rw [completed_enlist] at hc
    have hlt := hcompleted u hc
    simp only [CoreScheduler.enlist, List.mem_append, List.mem_singleton] at hu
    exact h.pending u (hu.resolve_right hlt.ne) hc
  active := fun u hu hc => h.active u hu (completed_enlist.1 hc)
  nodup := h.nodup
  apart := by
    intro u hu hp
    have hlt := hremaining u hu
    simp only [CoreScheduler.enlist, List.mem_append, List.mem_singleton] at hp
    exact h.apart u hu (hp.resolve_right hlt.ne)
  remaining := fun u hu hc => h.remaining u hu (completed_enlist.1 hc)
  discarded := h.discarded
  undiscarded := fun u hu => h.undiscarded u (mem_of_cons (by simp) hu)

theorem Pool.enlist {p q : Hold} (h : Pool config s p q) : Pool config (s.enlist item) p q :=
  { h with handed := fun c key ready l hl => h.handed c key ready l (suffix_of_cons (by simp) hl) }

theorem Unfinished.of_enlist {u : ℕ} (h : (s.enlist item).Unfinished u) :
    s.Unfinished u ∨ u = s.nextRequest := by
  rcases h with h | h
  · simp only [CoreScheduler.enlist, List.mem_append, List.mem_singleton] at h
    exact h.imp Or.inl id
  · exact Or.inl (Or.inr h)

theorem Dialogues.enlist (h : Dialogues s e) (hitem : s.New item)
    (hjob : ∀ u, e.job.bind requestOf = some u → u < s.nextRequest) :
    Dialogues (s.enlist item) e where
  inUse := by
    intro u c hu hc
    rcases eq_or_ne u s.nextRequest with rfl | hne
    · rw [requests_enlist_self, hitem.context] at hc
      cases hc
    · rw [requests_enlist hne] at hc ⊢
      exact h.inUse u c (hu.of_enlist.resolve_right hne) hc
  key := by
    intro u key hj hk
    rw [requests_enlist (hjob u (by rw [hj]; rfl)).ne]
    exact h.key u key hj hk
  context := by
    intro u c hj hc
    rw [requests_enlist (hjob u (by rw [hj]; rfl)).ne]
    exact h.context u c hj hc
  missing := h.missing
  releasing := by
    intro key hk u hu hd
    rcases eq_or_ne u s.nextRequest with rfl | hne
    · rw [requests_enlist_self]
      exact hitem.context
    · rw [requests_enlist hne] at hd ⊢
      exact h.releasing key hk u ((mem_live_enlist.1 hu).resolve_right hne) hd
  warming := h.warming
  recovering := h.recovering
  lost := h.lost

theorem Accepting.enlist (h : Accepting s events)
    (hlt : ∀ u n, SchedulerEvent.admitted u n ∈ s.log → u < s.nextRequest) :
    Accepting (s.enlist item) events where
  accepting := by
    intro i event hi
    obtain ⟨u, n, hn, hu⟩ := h.accepting i event hi
    exact ⟨u, n, List.mem_cons_of_mem _ hn, by rw [requests_enlist (hlt u n hn).ne, hu]⟩
  accepted := by
    intro event l hl
    have hl := suffix_of_cons (by simp) hl
    obtain ⟨u, n, hn, hu⟩ := h.accepted event l hl
    have hmem : SchedulerEvent.admitted u n ∈ s.log :=
      hl.subset (List.mem_cons_of_mem _ hn)
    exact ⟨u, n, hn, by rw [requests_enlist (hlt u n hmem).ne, hu]⟩

/-- **Admitting a request keeps the invariant.** -/
theorem Valid.enlist (h : Valid config safe s d e events) (hitem : s.New item)
    (hroom : s.pending.length + s.activeRequest.toList.length < limit config item) :
    Valid config safe (s.enlist item) d e events := by
  have hjob : ∀ u, e.job.bind requestOf = some u → u < s.nextRequest := by
    intro u hu
    obtain ⟨j, hj, hju⟩ := Option.bind_eq_some_iff.1 hu
    exact h.traffic.known j (by simp [work, hj]) u hju
  have hrole : ∀ u, d.role.request? = some u → u < s.nextRequest := fun u hu =>
    h.queue.active_lt u (h.traffic.driver u hu).1
  exact
    { traffic :=
        { h.traffic with
          known := fun j hj u hu => (h.traffic.known j hj u hu).trans (Nat.lt_succ_self _) }
      queue := h.queue.enlist hitem hjob hrole hroom
      ordered :=
        { h.ordered.toStamped.enlist hitem, h.ordered.toAccounts.enlist,
          h.ordered.toTurns.enlist hitem h.queue.pending_lt h.queue.active_lt hjob h.queue.old
            h.ordered.completed_lt with }
      once := h.once.imp id fun ho => ho.enlist h.ordered.completed_lt h.ordered.remaining_lt
      pool := h.pool.enlist
      dialogues := h.dialogues.enlist hitem hjob
      accepting := h.accepting.enlist h.queue.admitted_lt }

end Admit

/-! ### The executor and the request at hand -/

section AtHand

variable {u : ℕ}

theorem requests_modify_self (f : PriorityRequest → PriorityRequest) :
    (s.modify u f).requests u = f (s.requests u) := Function.update_self ..

theorem requests_modify {v : ℕ} (f : PriorityRequest → PriorityRequest) (h : v ≠ u) :
    (s.modify u f).requests v = s.requests v := Function.update_of_ne h ..

theorem alike_modify {f : PriorityRequest → PriorityRequest}
    (hf : Alike (s.requests u) (f (s.requests u))) (v : ℕ) :
    Alike (s.requests v) ((s.modify u f).requests v) := by
  rcases eq_or_ne v u with rfl | hne
  · rw [requests_modify_self]
    exact hf
  · rw [requests_modify _ hne]
    exact Alike.refl _

/-- A change of one request that keeps its place and its dialogue keeps the invariant. -/
theorem Valid.modify (h : Valid config safe s d e events) {f : PriorityRequest → PriorityRequest}
    (hf : Alike (s.requests u) (f (s.requests u)))
    (hcontext : (f (s.requests u)).context = (s.requests u).context)
    (htask : (f (s.requests u)).iterator = some StepsIterator.task →
      (s.requests u).iterator = some StepsIterator.task ∨ Activation (s.requests u)) :
    Valid config safe (s.modify u f) d e events := by
  refine h.alike (alike_modify hf) (fun v => ?_) (fun v hv => ?_)
  · rcases eq_or_ne v u with rfl | hne
    · rw [Function.update_self, hcontext]
    · rw [Function.update_of_ne hne]
  · rcases eq_or_ne v u with rfl | hne
    · rw [Function.update_self] at hv
      exact htask hv
    · rw [Function.update_of_ne hne] at hv
      exact Or.inl hv

/-- What is known while the executor advances a request. -/
theorem Valid.atHand (h : Valid config safe s d e events) (hj : e.job = some (SchedulerJob.advance u)) :
    s.activeRequest = some u ∧ s.activeFuture = some none ∧ d.role.request? = none ∧
      u ∉ s.pending ∧ u < s.nextRequest := by
  have hwork : SchedulerJob.advance u ∈ s.work e := by simp [work, hj]
  obtain ⟨hactive, hfuture⟩ := h.traffic.advance u hwork
  have hrole : d.role.request? = none := by
    cases hr : d.role.request? with
    | none => rfl
    | some v =>
        obtain ⟨_, f, hf⟩ := h.traffic.driver v hr
        rw [hfuture] at hf
        cases hf
  refine ⟨hactive, hfuture, hrole, fun hp => ?_, h.queue.active_lt u hactive⟩
  rw [h.queue.apart u hactive hp] at hrole
  cases hrole

/-- The iterator of a request that nobody in its dialogue forbids. -/
def begin (u : ℕ) (s : CoreScheduler) : CoreScheduler :=
  s.modify u fun item => { item with iterator := some StepsIterator.fresh }

theorem kin_begin (v : ℕ) : Kin (s.requests v) ((s.begin u).requests v) := by
  rcases eq_or_ne v u with rfl | hne
  · rw [begin, requests_modify_self]
    exact { kind := rfl, label := rfl, payload := rfl, queuedAt := rfl, priority := rfl,
            sessionId := rfl, taskRun := rfl, cancelled := id }
  · rw [begin, requests_modify _ hne]
    exact Kin.refl _

theorem context_begin (v : ℕ) : ((s.begin u).requests v).context = (s.requests v).context := by
  rcases eq_or_ne v u with rfl | hne
  · rw [begin, requests_modify_self]
  · rw [begin, requests_modify _ hne]

theorem First.begin {v : ℕ} (h : s.First v) : (s.begin u).First v := h.kin kin_begin fun _ => id

theorem iterator_begin_self : ((s.begin u).requests u).iterator ≠ none := by
  simp [begin, requests_modify_self]

theorem iterator_begin {v : ℕ} (h : v ≠ u) :
    ((s.begin u).requests v).iterator = (s.requests v).iterator := by
  rw [begin, requests_modify _ h]

theorem Requests.begin (h : Requests s) (hlt : u < s.nextRequest) : Requests (s.begin u) where
  old := by
    intro v hv
    rcases eq_or_ne v u with rfl | hne
    · exact hlt
    · rw [iterator_begin hne] at hv
      exact h.old v hv
  voice := by
    intro v hv
    rw [(kin_begin v).label] at hv
    rw [(kin_begin v).isUser]
    exact h.voice v hv
  context := by
    intro v hv
    rcases eq_or_ne v u with rfl | hne
    · exact iterator_begin_self
    · rw [context_begin v] at hv
      rw [iterator_begin hne]
      exact h.context v hv
  task := by
    intro v hk ht
    rw [(kin_begin v).kind] at hk
    rw [(kin_begin v).payload] at ht
    rw [context_begin v]
    exact h.task v hk ht
  iterator := by
    intro v hv
    rw [(kin_begin v).kind, (kin_begin v).payload]
    rcases eq_or_ne v u with rfl | hne
    · rw [begin, requests_modify_self] at hv
      cases hv
    · rw [iterator_begin hne] at hv
      exact h.iterator v hv
  runs := by
    intro v hv
    rw [(kin_begin v).isUser] at hv
    rw [(kin_begin v).taskRun]
    exact h.runs v hv

theorem Knowledge.begin (h : Knowledge s e) (hj : e.job = some (SchedulerJob.advance u)) :
    Knowledge (s.begin u) { e with stage := AdvanceStage.started } where
  permitted := by
    intro v _ hs
    cases hs
  started := by
    intro v hv _
    have hvu : v = u := by
      rw [show ({ e with stage := AdvanceStage.started } : ExecutorNote).job = e.job from rfl,
        hj] at hv
      exact (Option.some.inj hv).symm
    subst hvu
    exact iterator_begin_self
  system := by
    intro v hj hs
    rw [(kin_begin v).isUser]
    exact h.system v hj hs
  activation := by
    intro v hj hs
    rw [(kin_begin v).kind, (kin_begin v).payload]
    exact h.activation v hj hs
  talk := by
    intro v hj hs
    rw [(kin_begin v).kind, (kin_begin v).payload]
    exact h.talk v hj hs

theorem Driven.begin (h : Driven s d) (hfuture : s.activeFuture = some none)
    (hrole : d.role.request? = none) : Driven (s.begin u) d where
  apart := h.apart
  completion := by
    intro v c hv hf
    rw [show (s.begin u).activeFuture = s.activeFuture from rfl, hfuture] at hf
    cases hf
  requeueing := by
    intro v hv
    rw [hv] at hrole
    cases hrole
  key := by
    intro key hk
    obtain ⟨v, hv, _⟩ := h.key key hk
    rw [hv] at hrole
    cases hrole
  drained := by
    intro l b hl v hv
    rw [context_begin v]
    exact h.drained l b hl v hv

theorem Queue.begin (h : Queue config s d e) (hj : e.job = some (SchedulerJob.advance u))
    (hs : e.stage = AdvanceStage.permitted) (hnone : (s.requests u).iterator = none)
    (hactive : s.activeRequest = some u) (hfuture : s.activeFuture = some none)
    (hrole : d.role.request? = none) (hlt : u < s.nextRequest) :
    Queue config (s.begin u) d { e with stage := AdvanceStage.started } where
  toRequests := h.toRequests.begin hlt
  toKnowledge := h.toKnowledge.begin hj
  toDriven := h.toDriven.begin hfuture hrole
  pending_lt := h.pending_lt
  active_lt := h.active_lt
  nodup := h.nodup
  single := by
    have hstart := h.permitted u hj hs
    -- The others of the dialogue are queued, and none of them has been started.
    have hothers : ∀ v ∈ s.live, v ≠ u → Dialogic (s.requests u) → Dialogic (s.requests v) →
        s.SameDialogue v u → (s.requests v).iterator = none := by
      intro v hv hvu hdu hdv hk
      rcases hstart with hi | hd | hall
      · exact absurd hnone hi
      · exact absurd hdu hd
      · refine hall v ?_ hvu hdv hk
        refine (mem_live.1 hv).resolve_right fun hv => hvu ?_
        rw [hactive] at hv
        cases hv
        rfl
    intro v hv w hw hvw hdv hdw hk
    rw [(kin_begin v).dialogic] at hdv
    rw [(kin_begin w).dialogic] at hdw
    rw [(kin_begin v).sameDialogue (kin_begin w)] at hk
    rcases eq_or_ne v u with rfl | hvu
    · rw [iterator_begin hvw.symm]
      exact Or.inr (hothers w hw hvw.symm hdv hdw hk.symm)
    · rcases eq_or_ne w u with rfl | hwu
      · rw [iterator_begin hvu]
        exact Or.inl (hothers v hv hvu hdw hdv hk)
      · rw [iterator_begin hvu, iterator_begin hwu]
        exact h.single v hv w hw hvw hdv hdw hk
  startable := by
    intro v hv _
    have hvu : v = u := by
      have hv : s.activeRequest = some v := hv
      rw [hactive] at hv
      exact (Option.some.inj hv).symm
    subst hvu
    exact Or.inr (Or.inl iterator_begin_self)
  paused := by
    intro v hv hf
    rw [show (s.begin u).activeFuture = s.activeFuture from rfl, hfuture] at hf
    cases hf
  grants := by
    intro v hv w hw hvw a b ha hb
    rw [(kin_begin _).taskRun] at ha hb
    exact h.grants v hv w hw hvw a b ha hb
  capacity := h.capacity
  reserve := by
    intro v n hn hv
    rw [(kin_begin v).isUser] at hv
    exact h.reserve v n hn hv
  admitted_lt := h.admitted_lt

theorem Turns.begin (h : Turns s e) (hj : e.job = some (SchedulerJob.advance u))
    (hs : e.stage = AdvanceStage.permitted) (hfuture : s.activeFuture = some none)
    (hpending : u ∉ s.pending)
    (halone : ∀ v, v ≠ u → v < s.nextRequest → ¬ s.Completed v → Dialogic (s.requests u) →
      Dialogic (s.requests v) → s.SameDialogue v u → (s.requests v).iterator = none) :
    Turns (s.begin u) { e with stage := AdvanceStage.started } where
  waiting := by
    refine h.waiting.imp_of_mem fun {v w} hv hw hvw hwv hww => hvw ?_ ?_
    · have hvu : v ≠ u := fun hvu => hpending (hvu ▸ hv)
      exact ⟨(kin_begin v).isUser.1 hwv.1, by rw [← iterator_begin hvu]; exact hwv.2⟩
    · have hwu : w ≠ u := fun hwu => hpending (hwu ▸ hw)
      exact ⟨(kin_begin w).isUser.1 hww.1, by rw [← iterator_begin hwu]; exact hww.2⟩
  ready := by
    intro v hv hf hk
    rw [(kin_begin v).isUser] at hk
    exact (h.ready v hv hf hk).imp (kin_begin v).cancelled First.begin
  permitted := by
    intro v _ hs
    cases hs
  begun := by
    intro v hk hi
    rw [(kin_begin v).isUser] at hk
    rcases eq_or_ne v u with rfl | hne
    · exact (h.permitted v hj hs hk).begin
    · rw [iterator_begin hne] at hi
      exact (h.begun v hk hi).begin
  answered := by
    intro v f hv hf
    rw [show (s.begin u).activeFuture = s.activeFuture from rfl, hfuture] at hf
    cases hf
  log := by
    intro v t l hl ht hv w hwv hw hd
    rw [(kin_begin v).isUser] at hv
    rw [(kin_begin w).isUser] at hw
    rw [(kin_begin w).sameDialogue (kin_begin v)] at hd
    exact (h.log v t l hl ht hv w hwv hw hd).imp (kin_begin w).cancelled id
  alone := by
    intro v w hvw hv hw hcv hcw hdv hdw hd
    rw [(kin_begin v).dialogic] at hdv
    rw [(kin_begin w).dialogic] at hdw
    rw [(kin_begin v).sameDialogue (kin_begin w)] at hd
    rcases eq_or_ne v u with rfl | hvu
    · refine Or.inr ?_
      rw [iterator_begin hvw.symm]
      exact halone w hvw.symm hw hcw hdv hdw hd.symm
    rcases eq_or_ne w u with rfl | hwu
    · refine Or.inl ?_
      rw [iterator_begin hvu]
      exact halone v hvu hv hcv hdw hdv hd
    rw [iterator_begin hvu, iterator_begin hwu]
    exact h.alone v w hvw hv hw hcv hcw hdv hdw hd

theorem Dialogues.begin (h : Dialogues s e) :
    Dialogues (s.begin u) { e with stage := AdvanceStage.started } where
  inUse := by
    intro v c hv hc
    rw [context_begin v] at hc
    rw [(kin_begin v).contextKey]
    exact h.inUse v c hv hc
  key := by
    intro v key hj hk
    rw [(kin_begin v).contextKey]
    exact h.key v key hj hk
  context := by
    intro v c hj hc
    rw [context_begin v]
    exact h.context v c hj hc
  missing := h.missing
  releasing := by
    intro key hk v hv hd
    rw [(kin_begin v).contextKey] at hd
    rw [context_begin v]
    exact h.releasing key hk v hv hd
  warming := h.warming
  recovering := h.recovering
  lost := h.lost

theorem Accepting.begin (h : Accepting s events) : Accepting (s.begin u) events where
  accepting := by
    intro i event hi
    obtain ⟨v, n, hn, hv⟩ := h.accepting i event hi
    exact ⟨v, n, hn, by rw [(kin_begin v).taskRun, hv]⟩
  accepted := by
    intro event l hl
    obtain ⟨v, n, hn, hv⟩ := h.accepted event l hl
    exact ⟨v, n, hn, by rw [(kin_begin v).taskRun, hv]⟩

/-- **Starting a request that the dialogue allows keeps the invariant.** -/
theorem Valid.begin (h : Valid config safe s d e events)
    (hj : e.job = some (SchedulerJob.advance u)) (hs : e.stage = AdvanceStage.permitted)
    (hnone : (s.requests u).iterator = none) :
    Valid config safe (s.begin u) d { e with stage := AdvanceStage.started } events := by
  obtain ⟨hactive, hfuture, hrole, hpending, hlt⟩ := h.atHand hj
  -- Whoever is not completed is queued, as the request at hand is active.
  have halone : ∀ v, v ≠ u → v < s.nextRequest → ¬ s.Completed v → Dialogic (s.requests u) →
      Dialogic (s.requests v) → s.SameDialogue v u → (s.requests v).iterator = none := by
    intro v hvu hv hcv hdu hdv hd
    have hqueued : v ∈ s.pending := by
      rcases h.ordered.accounted v hv with hc | hl | hr | hr
      · exact absurd hc hcv
      · refine (mem_live.1 hl).resolve_right fun ha => ?_
        rw [hactive] at ha
        exact hvu (Option.some.inj ha).symm
      · cases hdr : d.role with
        | draining l b =>
            rw [(h.traffic.draining l b hdr).1] at hfuture
            cases hfuture
        | _ =>
            rw [hdr] at hr
            cases hr
      · rw [h.ordered.lost hr] at hfuture
        cases hfuture
    rcases h.queue.permitted u hj hs with hi | hi | hi
    · exact absurd hnone hi
    · exact absurd hdu hi
    · exact hi v hqueued hvu hdv hd
  exact
    { traffic := { h.traffic with }
      queue := h.queue.begin hj hs hnone hactive hfuture hrole hlt
      ordered :=
        { h.ordered with
          toStamped := h.ordered.toStamped.kin kin_begin rfl rfl
          toTurns := h.ordered.toTurns.begin hj hs hfuture hpending halone }
      once := h.once.imp id fun h => { h with }
      pool := { h.pool with }
      dialogues := h.dialogues.begin
      accepting := h.accepting.begin }

/-- The executor works on the request at hand alone. -/
theorem eq_of_job {v : ℕ} (hj : e.job = some (SchedulerJob.advance u))
    (hv : e.job = some (SchedulerJob.advance v)) : v = u := by
  rw [hj] at hv
  cases hv
  rfl

/-- The request at hand gets the context of its dialogue. -/
def give (u : ℕ) (key : PyStr) (s : CoreScheduler) : CoreScheduler :=
  s.modify u fun item => { item with context := s.contexts.get? key }

theorem alike_give (key : PyStr) (v : ℕ) : Alike (s.requests v) ((s.give u key).requests v) :=
  alike_modify ⟨⟨rfl, rfl, rfl, rfl, rfl, rfl, rfl, id⟩, Iff.rfl⟩ v

theorem context_give_self (key : PyStr) :
    ((s.give u key).requests u).context = s.contexts.get? key := by
  rw [give, requests_modify_self]

theorem context_give (key : PyStr) {v : ℕ} (h : v ≠ u) :
    ((s.give u key).requests v).context = (s.requests v).context := by
  rw [give, requests_modify _ h]

theorem iterator_give (key : PyStr) (v : ℕ) :
    ((s.give u key).requests v).iterator = (s.requests v).iterator := by
  rcases eq_or_ne v u with rfl | hne
  · rw [give, requests_modify_self]
  · rw [give, requests_modify _ hne]

/-- **Giving the request at hand the context of its dialogue keeps the invariant.** -/
theorem Valid.give (h : Valid config safe s d e events) {key : PyStr}
    (hj : e.job = some (SchedulerJob.advance u)) (hs : e.stage = AdvanceStage.started)
    (ht : e.talk = true) (hk : e.key = some key) (hr : e.releasing = none) :
    Valid config safe (s.give u key) d { e with context := s.contexts.get? key } events := by
  obtain ⟨hactive, hfuture, hrole, hpending, hlt⟩ := h.atHand hj
  have hstarted : (s.requests u).iterator ≠ none := h.queue.started u (by rw [hj]; rfl) hs
  have hqueue : Queue config (s.give u key) d e := by
    refine h.queue.alike (alike_give key) (fun v => ?_) fun v hv =>
        Or.inl (iterator_give key v ▸ hv)
    · rcases eq_or_ne v u with rfl | hne
      · refine Or.inr ⟨hstarted, fun ha => h.queue.talk v hj ht ha.1 |> ha.2, ?_, hpending⟩
        rw [hrole]
        exact nofun
      · exact Or.inl (context_give key hne)
  have hordered : Ordered (s.give u key) d e := h.ordered.alike (alike_give key)
  exact
    { traffic := { h.traffic with }
      queue := { hqueue with }
      ordered := { hordered with }
      once := h.once.imp id fun h => { h with }
      pool := { h.pool with }
      dialogues :=
        { inUse := by
            intro v c hv hc
            rw [(alike_give key v).contextKey]
            rcases eq_or_ne v u with rfl | hne
            · rw [context_give_self] at hc
              rw [h.dialogues.key v key hj hk]
              exact hc
            · rw [context_give key hne] at hc
              exact h.dialogues.inUse v c hv hc
          key := by
            intro v key' hv hk'
            rw [(alike_give key v).contextKey]
            exact h.dialogues.key v key' hv hk'
          context := by
            intro v c hv hc
            rw [eq_of_job hj hv, context_give_self]
            exact hc
          missing := h.dialogues.missing
          releasing := by
            intro key' hk'
            rw [show ({ e with context := s.contexts.get? key } : ExecutorNote).releasing =
              e.releasing from rfl, hr] at hk'
            cases hk'
          warming := h.dialogues.warming
          recovering := h.dialogues.recovering
          lost := h.dialogues.lost }
      accepting := h.accepting.alike (alike_give key) }

end AtHand

end CoreScheduler
