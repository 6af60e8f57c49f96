/-
**Where a request is.**

At every moment a request is in one place at most: with the caller that makes it, among the
callbacks, in a queue, or with the thread that has taken it from there.  A request is dispatched by
the owner that holds it and has set its future running, and then it is in no place any more.  So a
request is dispatched once at most, and a caller that has cancelled its future, or is told that it
was not sent, can rely on that for good.

Main definitions:

* `McpSystem.dispatches` — how often a request has been dispatched;
* `McpSystem.CallProtocol` — the protocol of calls;
* `McpPlace`, `McpNote`, `McpSystem.Orderly` — where a request is, what a thread knows, and the
  invariant.

Main results:

* `McpSystem.Orderly.protocol` — the invariant gives the protocol.
-/

import CatAgent.McpRuntime

set_option relaxedAutoImplicit false
set_option autoImplicit false

namespace McpSystem

/-- The happening is a dispatch of the request `r`. -/
def isDispatch (r : ℕ) : McpHappening → Bool
  | McpHappening.dispatched r' _ _ => decide (r' = r)
  | _ => false

/-- How often a request has been passed to `call_tool`. -/
def dispatches (s : McpSystem) (r : ℕ) : ℕ := s.log.countP (isDispatch r)

/-- **The protocol of calls.** -/
structure CallProtocol (s : McpSystem) : Prop where
  /-- A request is passed to `call_tool` at most once. -/
  once : ∀ r, s.dispatches r ≤ 1
  /-- A request whose caller is told that it was not sent has not been dispatched. -/
  notSent : ∀ r answer, McpHappening.told (some r) answer ∈ s.log → answer.NotSent →
    s.dispatches r = 0
  /-- A caller whose request has been dispatched is told what the server has returned, or that the
  outcome is unknown. -/
  sent : ∀ r answer, McpHappening.told (some r) answer ∈ s.log → 0 < s.dispatches r →
    answer.OutcomeUnknown ∨ ∃ payload, answer = McpAnswer.result payload ∧
      McpHappening.returned r payload ∈ s.log

end McpSystem

/-! ### The invariant -/

/-- Where a request is. -/
inductive McpPlace where
  | nowhere
  | scheduled
  | queued (server : PyStr)
  | held (j : McpThread)

/-- What a thread knows of the request that it works on. -/
inductive McpNote where
  | idle
  /-- The caller has made it. -/
  | made (r : ℕ)
  /-- The caller waits for it. -/
  | waiting (r : ℕ)
  | answered (r : ℕ) (answer : McpAnswer)
  | expired (r : ℕ)
  /-- It could not be scheduled. -/
  | lost (r : ℕ)
  /-- The thread has taken it from its queue. -/
  | holding (r : ℕ)
  /-- Its future is running. -/
  | committed (r : ℕ)
  /-- It has been started, and is dispatched next. -/
  | ready (r : ℕ)
  /-- It has been dispatched. -/
  | sent (r : ℕ)
  | returned (r : ℕ) (payload : PyStr)
  /-- It has been answered or was cancelled. -/
  | dropped (r : ℕ)

namespace McpNote

/-- The request that the note speaks of. -/
def request : McpNote → Option ℕ
  | idle => none
  | made r | waiting r | answered r _ | expired r | lost r | holding r | committed r | ready r
  | sent r | returned r _ | dropped r => some r

/-- The thread may still dispatch the request, or hand it on. -/
def Live (r : ℕ) : McpNote → Prop
  | made r' | holding r' | committed r' | ready r' => r' = r
  | _ => False

end McpNote

namespace McpSystem

/-- The future of a request. -/
def future (s : McpSystem) (r : ℕ) : Future McpAnswer := (s.request r).result

/-- The requests among the callbacks. -/
def puts (s : McpSystem) : List ℕ := s.scheduled.filterMap fun
  | McpCallback.put r => some r
  | McpCallback.stop => none

/-- The request has not been dispatched, and it will not be. -/
def NeverSent (s : McpSystem) (place : ℕ → McpPlace) (r : ℕ) : Prop :=
  s.dispatches r = 0 ∧ ((s.future r).isCancelled = true ∨ place r = McpPlace.nowhere)

/-- What a thread knows is true. -/
def NoteHolds (s : McpSystem) (place : ℕ → McpPlace) (j : McpThread) : McpNote → Prop
  | McpNote.made r | McpNote.holding r => place r = McpPlace.held j ∧ (s.future r).Open
  | McpNote.committed r => place r = McpPlace.held j ∧ s.future r = Future.running
  | McpNote.ready r => place r = McpPlace.held j ∧ s.future r = Future.running ∧
      (s.request r).started = true
  | McpNote.sent r => place r = McpPlace.nowhere ∧ (s.request r).started = true
  | McpNote.answered r answer => s.future r = Future.finished answer
  | McpNote.expired r => (s.future r).isCancelled = true
  | McpNote.lost r => s.NeverSent place r
  | McpNote.returned r payload => place r = McpPlace.nowhere ∧ (s.request r).started = true ∧
      McpHappening.returned r payload ∈ s.log
  | _ => True

/-- Every request is in one place at most. -/
structure Placed (s : McpSystem) (notes : McpThread → McpNote) (place : ℕ → McpPlace) : Prop where
  fresh : ∀ r, place r ≠ McpPlace.nowhere → r < s.fresh
  puts_nodup : s.puts.Nodup
  puts : ∀ r ∈ s.puts, place r = McpPlace.scheduled
  queue_nodup : ∀ server, (s.queue server).Nodup
  queue : ∀ server, ∀ r ∈ s.queue server, place r = McpPlace.queued server
  held : ∀ r j, place r = McpPlace.held j → (notes j).Live r
  /-- What an owner has taken it holds or has dropped, unless it has been started. -/
  current : ∀ server r, s.current server = some r → r < s.fresh ∧
    (place r = McpPlace.held (McpThread.owner server) ∨ place r = McpPlace.nowhere) ∧
    ((s.request r).started = true ∨ (notes (McpThread.owner server)).request = some r)

/-- What is known of the requests. -/
structure Fated (s : McpSystem) (place : ℕ → McpPlace) : Prop where
  log : ∀ x ∈ s.log, ∀ r, x.request = some r → r < s.fresh
  once : ∀ r, s.dispatches r ≤ 1
  unsent : ∀ r, place r ≠ McpPlace.nowhere → s.dispatches r = 0
  opened : ∀ r, place r = McpPlace.scheduled ∨ (∃ server, place r = McpPlace.queued server) →
    (s.future r).Open
  unbegun : ∀ r < s.fresh, (s.future r).Unbegun → s.dispatches r = 0
  finished : ∀ r answer, r < s.fresh → s.future r = Future.finished answer →
    answer.NotSent ∧ s.NeverSent place r ∨ answer.OutcomeUnknown ∨
      ∃ payload, answer = McpAnswer.result payload ∧ McpHappening.returned r payload ∈ s.log
  told : ∀ r answer, McpHappening.told (some r) answer ∈ s.log →
    s.future r = Future.finished answer ∨ answer.OutcomeUnknown ∨
      answer.NotSent ∧ s.NeverSent place r

/-- The invariant of the system. -/
structure Orderly (s : McpSystem) (notes : McpThread → McpNote) (place : ℕ → McpPlace) : Prop where
  placed : s.Placed notes place
  fated : s.Fated place
  notes_lt : ∀ j r, (notes j).request = some r → r < s.fresh
  notes : ∀ j, s.NoteHolds place j (notes j)

/-- **The invariant gives the protocol.** -/
theorem Orderly.protocol {s : McpSystem} {notes : McpThread → McpNote} {place : ℕ → McpPlace}
    (h : s.Orderly notes place) : s.CallProtocol where
  once := h.fated.once
  notSent := by
    intro r answer htold hnot
    rcases h.fated.told r answer htold with hfuture | hunknown | ⟨_, hnever⟩
    · rcases h.fated.finished r answer (h.fated.log _ htold r rfl) hfuture with
        ⟨_, hnever⟩ | hunknown | ⟨payload, rfl, _⟩
      · exact hnever.1
      · cases answer <;> first | exact hunknown.elim | exact hnot.elim
      · exact hnot.elim
    · cases answer <;> first | exact hunknown.elim | exact hnot.elim
    · exact hnever.1
  sent := by
    intro r answer htold hsent
    rcases h.fated.told r answer htold with hfuture | hunknown | ⟨_, hnever⟩
    · rcases h.fated.finished r answer (h.fated.log _ htold r rfl) hfuture with
        ⟨_, hnever⟩ | hunknown | hresult
      · exact absurd hnever.1 hsent.ne'
      · exact Or.inl hunknown
      · exact Or.inr hresult
    · exact Or.inl hunknown
    · exact absurd hnever.1 hsent.ne'

/-! ### Steps -/

variable {s s' : McpSystem} {notes : McpThread → McpNote} {place place' : ℕ → McpPlace}
  {j : McpThread} {n : McpNote} {r : ℕ}

/-- What a step of the thread `j` may do, as far as the other threads and the past are concerned. -/
structure Evolves (s s' : McpSystem) (place place' : ℕ → McpPlace) (j : McpThread) : Prop where
  fresh : s.fresh ≤ s'.fresh
  log : s.log ⊆ s'.log
  future : ∀ r < s.fresh, (s.future r).Advances (s'.future r)
  started : ∀ r < s.fresh, (s.request r).started = true → (s'.request r).started = true
  nowhere : ∀ r < s.fresh, place r = McpPlace.nowhere → place' r = McpPlace.nowhere
  dispatches : ∀ r < s.fresh, s.NeverSent place r → s'.dispatches r = s.dispatches r
  /-- What other threads hold is left to them, but it may be cancelled. -/
  held : ∀ r j', j' ≠ j → place r = McpPlace.held j' → place' r = McpPlace.held j' ∧
    ((s.future r).Open → (s'.future r).Open) ∧
    (s.future r = Future.running → s'.future r = Future.running)

theorem Evolves.neverSent (h : Evolves s s' place place' j) (hr : r < s.fresh)
    (hnever : s.NeverSent place r) : s'.NeverSent place' r := by
  refine ⟨(h.dispatches r hr hnever).trans hnever.1, hnever.2.imp ?_ ?_⟩
  · exact (h.future r hr).cancelled
  · exact h.nowhere r hr

/-- What another thread knows stays true. -/
theorem Evolves.noteHolds (h : Evolves s s' place place' j) {j' : McpThread} (hne : j' ≠ j)
    (hlt : ∀ r, n.request = some r → r < s.fresh) (hn : s.NoteHolds place j' n) :
    s'.NoteHolds place' j' n := by
  cases n with
  | made r | holding r =>
      obtain ⟨hplace, hopen, _⟩ := h.held r j' hne hn.1
      exact ⟨hplace, hopen hn.2⟩
  | committed r =>
      obtain ⟨hplace, _, hrunning⟩ := h.held r j' hne hn.1
      exact ⟨hplace, hrunning hn.2⟩
  | ready r =>
      obtain ⟨hplace, _, hrunning⟩ := h.held r j' hne hn.1
      exact ⟨hplace, hrunning hn.2.1, h.started r (hlt r rfl) hn.2.2⟩
  | answered r answer => exact (h.future r (hlt r rfl)).finished answer hn
  | expired r => exact (h.future r (hlt r rfl)).cancelled hn
  | lost r => exact h.neverSent (hlt r rfl) hn
  | sent r => exact ⟨h.nowhere r (hlt r rfl) hn.1, h.started r (hlt r rfl) hn.2⟩
  | returned r payload =>
      exact ⟨h.nowhere r (hlt r rfl) hn.1, h.started r (hlt r rfl) hn.2.1, h.log hn.2.2⟩
  | idle | waiting r | dropped r => trivial

/-- **One step of the thread `j`**, which knows `n` afterwards. -/
theorem Orderly.step (h : s.Orderly notes place) (hevolves : Evolves s s' place place' j)
    (hplaced : s'.Placed (Function.update notes j n) place') (hfated : s'.Fated place')
    (hlt : ∀ r, n.request = some r → r < s'.fresh) (hn : s'.NoteHolds place' j n) :
    s'.Orderly (Function.update notes j n) place' where
  placed := hplaced
  fated := hfated
  notes_lt := by
    intro j' r hr
    rcases eq_or_ne j' j with rfl | hne
    · rw [Function.update_self] at hr
      exact hlt r hr
    · rw [Function.update_of_ne hne] at hr
      exact (h.notes_lt j' r hr).trans_le hevolves.fresh
  notes := by
    intro j'
    rcases eq_or_ne j' j with rfl | hne
    · rw [Function.update_self]
      exact hn
    · rw [Function.update_of_ne hne]
      exact hevolves.noteHolds hne (h.notes_lt j') (h.notes j')

/-- The past stays in order, when nothing is told that has not happened. -/
theorem Fated.step (h : s.Fated place) (hevolves : Evolves s s' place place' j)
    (hlog : ∀ x ∈ s'.log, x ∈ s.log ∨ ∀ r, x.request = some r → r < s'.fresh)
    (honce : ∀ r, s'.dispatches r ≤ 1)
    (hunsent : ∀ r, place' r ≠ McpPlace.nowhere → s'.dispatches r = 0)
    (hopened : ∀ r, place' r = McpPlace.scheduled ∨ (∃ server, place' r = McpPlace.queued server) →
      (s'.future r).Open)
    (hunbegun : ∀ r < s'.fresh, (s'.future r).Unbegun → s'.dispatches r = 0)
    (hfinished : ∀ r answer, r < s'.fresh → s'.future r = Future.finished answer →
      r < s.fresh ∧ s.future r = Future.finished answer ∨
      answer.NotSent ∧ s'.NeverSent place' r ∨ answer.OutcomeUnknown ∨
        ∃ payload, answer = McpAnswer.result payload ∧ McpHappening.returned r payload ∈ s'.log)
    (htold : ∀ r answer, McpHappening.told (some r) answer ∈ s'.log →
      McpHappening.told (some r) answer ∈ s.log ∨ s'.future r = Future.finished answer ∨
        answer.OutcomeUnknown ∨ answer.NotSent ∧ s'.NeverSent place' r) : s'.Fated place' where
  log := by
    intro x hx r hr
    rcases hlog x hx with hold | hnew
    · exact (h.log x hold r hr).trans_le hevolves.fresh
    · exact hnew r hr
  once := honce
  unsent := hunsent
  opened := hopened
  unbegun := hunbegun
  finished := by
    intro r answer hr hfuture
    rcases hfinished r answer hr hfuture with ⟨hlt, hold⟩ | hnew
    · rcases h.finished r answer hlt hold with ⟨hnot, hnever⟩ | hunknown | ⟨payload, heq, hmem⟩
      · exact Or.inl ⟨hnot, hevolves.neverSent hlt hnever⟩
      · exact Or.inr (Or.inl hunknown)
      · exact Or.inr (Or.inr ⟨payload, heq, hevolves.log hmem⟩)
    · exact hnew
  told := by
    intro r answer hmem
    rcases htold r answer hmem with hold | hnew
    · have hlt := h.log _ hold r rfl
      rcases h.told r answer hold with hfuture | hunknown | ⟨hnot, hnever⟩
      · exact Or.inl ((hevolves.future r hlt).finished answer hfuture)
      · exact Or.inr (Or.inl hunknown)
      · exact Or.inr (Or.inr ⟨hnot, hevolves.neverSent hlt hnever⟩)
    · exact hnew

theorem Evolves.refl (s : McpSystem) (place : ℕ → McpPlace) (j : McpThread) :
    Evolves s s place place j where
  fresh := le_rfl
  log := List.Subset.refl _
  future := fun _ _ => Future.Advances.refl _
  started := fun _ _ h => h
  nowhere := fun _ _ h => h
  dispatches := fun _ _ _ => rfl
  held := fun _ _ _ h => ⟨h, id, id⟩

/-- Only the thread `j` changes what it knows; it holds nothing but `r`, if anything. -/
theorem held_update {p : McpPlace} (h : s.Placed notes place)
    (hj : ∀ r', (notes j).Live r' → r' = r) (hp : ∀ j', p = McpPlace.held j' → j' = j ∧ n.Live r)
    (r' : ℕ) (j' : McpThread) (hr' : Function.update place r p r' = McpPlace.held j') :
    (Function.update notes j n j').Live r' := by
  rcases eq_or_ne r' r with rfl | hne
  · rw [Function.update_self] at hr'
    obtain ⟨rfl, hlive⟩ := hp j' hr'
    rw [Function.update_self]
    exact hlive
  · rw [Function.update_of_ne hne] at hr'
    have hlive := h.held r' j' hr'
    rcases eq_or_ne j' j with rfl | hj'
    · exact absurd (hj r' hlive) hne
    · rwa [Function.update_of_ne hj']

/-- The variables `current` when the thread `j` moves the request `r`. -/
theorem current_update {p : McpPlace} (h : s.Placed notes place) (hevolves : Evolves s s' place
      (Function.update place r p) j) (hcurrent : s'.current = s.current)
    (hother : ∀ r₀, (notes j).request = some r₀ → r₀ = r)
    (hr : ∀ server, s.current server = some r →
      (p = McpPlace.held (McpThread.owner server) ∨ p = McpPlace.nowhere) ∧
      ((s'.request r).started = true ∨ j = McpThread.owner server ∧ n.request = some r ∨
        j ≠ McpThread.owner server ∧ (notes (McpThread.owner server)).request = some r))
    (server : PyStr) (r₀ : ℕ) (hr₀ : s'.current server = some r₀) :
    r₀ < s'.fresh ∧ (Function.update place r p r₀ = McpPlace.held (McpThread.owner server) ∨
      Function.update place r p r₀ = McpPlace.nowhere) ∧
    ((s'.request r₀).started = true ∨
      (Function.update notes j n (McpThread.owner server)).request = some r₀) := by
  rw [hcurrent] at hr₀
  obtain ⟨hlt, hplace, hstarted⟩ := h.current server r₀ hr₀
  refine ⟨hlt.trans_le hevolves.fresh, ?_⟩
  rcases eq_or_ne r₀ r with rfl | hne
  · obtain ⟨hp, hs⟩ := hr server hr₀
    rw [Function.update_self]
    refine ⟨hp, ?_⟩
    rcases hs with hs | ⟨rfl, hs⟩ | ⟨hj, hs⟩
    · exact Or.inl hs
    · rw [Function.update_self]
      exact Or.inr hs
    · rw [Function.update_of_ne hj.symm]
      exact Or.inr hs
  · rw [Function.update_of_ne hne]
    refine ⟨hplace, ?_⟩
    rcases hstarted with hs | hs
    · exact Or.inl (hevolves.started r₀ hlt hs)
    · rcases eq_or_ne (McpThread.owner server) j with rfl | hj
      · exact absurd (hother r₀ hs) hne
      · rw [Function.update_of_ne hj]
        exact Or.inr hs

/-! ### Moving one request -/

/-- The other requests stay where they are. -/
theorem place_update {p q : McpPlace} (hr : place r ≠ q) {r' : ℕ} (hr' : place r' = q) :
    Function.update place r p r' = q := by
  have hne : r' ≠ r := by
    rintro rfl
    exact hr hr'
  rw [Function.update_of_ne hne]
  exact hr'

theorem Placed.fresh_update {p : McpPlace} (h : s.Placed notes place) (hle : s.fresh ≤ s'.fresh)
    (hlt : r < s'.fresh) (r' : ℕ) (hr' : Function.update place r p r' ≠ McpPlace.nowhere) :
    r' < s'.fresh := by
  rcases eq_or_ne r' r with rfl | hne
  · exact hlt
  · rw [Function.update_of_ne hne] at hr'
    exact (h.fresh r' hr').trans_le hle

/-- What has been somewhere has not been dispatched. -/
theorem Fated.unsent_update {p : McpPlace} (h : s.Fated place) (hr : place r ≠ McpPlace.nowhere)
    (r' : ℕ) (hr' : Function.update place r p r' ≠ McpPlace.nowhere) : s.dispatches r' = 0 := by
  rcases eq_or_ne r' r with rfl | hne
  · exact h.unsent r' hr
  · rw [Function.update_of_ne hne] at hr'
    exact h.unsent r' hr'

theorem Fated.opened_update {p : McpPlace} (h : s.Fated place)
    (hp : p = McpPlace.scheduled ∨ (∃ server, p = McpPlace.queued server) → (s.future r).Open)
    (r' : ℕ) (hr' : Function.update place r p r' = McpPlace.scheduled ∨
      ∃ server, Function.update place r p r' = McpPlace.queued server) : (s.future r').Open := by
  rcases eq_or_ne r' r with rfl | hne
  · rw [Function.update_self] at hr'
    exact hp hr'
  · rw [Function.update_of_ne hne] at hr'
    exact h.opened r' hr'

/-- The thread `j` moves a request that is in no queue. -/
theorem Placed.move {p : McpPlace} (h : s.Placed notes place)
    (hevolves : Evolves s s' place (Function.update place r p) j) (hlt : r < s'.fresh)
    (hputs : s'.puts = s.puts) (hqueue : s'.queue = s.queue)
    (hscheduled : place r ≠ McpPlace.scheduled)
    (hqueued : ∀ server, place r ≠ McpPlace.queued server)
    (hheld : ∀ r' j', Function.update place r p r' = McpPlace.held j' →
      (Function.update notes j n j').Live r')
    (hcurrent : ∀ server r₀, s'.current server = some r₀ →
      r₀ < s'.fresh ∧ (Function.update place r p r₀ = McpPlace.held (McpThread.owner server) ∨
        Function.update place r p r₀ = McpPlace.nowhere) ∧
      ((s'.request r₀).started = true ∨
        (Function.update notes j n (McpThread.owner server)).request = some r₀)) :
    s'.Placed (Function.update notes j n) (Function.update place r p) where
  fresh := h.fresh_update hevolves.fresh hlt
  puts_nodup := by
    rw [hputs]
    exact h.puts_nodup
  puts := by
    rw [hputs]
    exact fun r' hr' => place_update hscheduled (h.puts r' hr')
  queue_nodup := by
    rw [hqueue]
    exact h.queue_nodup
  queue := by
    rw [hqueue]
    exact fun server r' hr' => place_update (hqueued server) (h.queue server r' hr')
  held := hheld
  current := hcurrent

/-- What concerns neither the requests nor the queues. -/
theorem Orderly.runtime (h : s.Orderly notes place) (rt : McpRuntime) :
    ({ s with runtime := rt } : McpSystem).Orderly notes place where
  placed := ⟨h.placed.fresh, h.placed.puts_nodup, h.placed.puts, h.placed.queue_nodup,
    h.placed.queue, h.placed.held, h.placed.current⟩
  fated := ⟨h.fated.log, h.fated.once, h.fated.unsent, h.fated.opened, h.fated.unbegun,
    h.fated.finished, h.fated.told⟩
  notes_lt := h.notes_lt
  notes := fun j => by
    have hn := h.notes j
    cases hnote : notes j <;> rw [hnote] at hn <;> exact hn

/-- A thread knows something else. -/
theorem Orderly.relabel (h : s.Orderly notes place)
    (hlive : ∀ r, (notes j).Live r → n.Live r)
    (hcurrent : ∀ server r, j = McpThread.owner server → s.current server = some r →
      (s.request r).started = true ∨ n.request = some r)
    (hlt : ∀ r, n.request = some r → r < s.fresh) (hn : s.NoteHolds place j n) :
    s.Orderly (Function.update notes j n) place := by
  refine h.step (Evolves.refl s place j) ?_ h.fated hlt hn
  refine ⟨h.placed.fresh, h.placed.puts_nodup, h.placed.puts, h.placed.queue_nodup,
    h.placed.queue, fun r j' hr => ?_, fun server r hr => ?_⟩
  · rcases eq_or_ne j' j with rfl | hne
    · rw [Function.update_self]
      exact hlive r (h.placed.held r j' hr)
    · rw [Function.update_of_ne hne]
      exact h.placed.held r j' hr
  · obtain ⟨hfresh, hplace, hstarted⟩ := h.placed.current server r hr
    refine ⟨hfresh, hplace, ?_⟩
    rcases eq_or_ne (McpThread.owner server) j with rfl | hne
    · rw [Function.update_self]
      exact hcurrent server r rfl hr
    · rwa [Function.update_of_ne hne]

/-- Dispatches that are written down before. -/
theorem dispatches_note {x : McpHappening} (hx : isDispatch r x = false) :
    (s.note x).dispatches r = s.dispatches r := by
  rw [dispatches, note, List.countP_cons_of_neg (by simp [hx]), dispatches]

/-! ### Callers -/

/-- The system after a request has been made. -/
def asking (s : McpSystem) (tool : McpTool) (arguments : Json) : McpSystem :=
  { s with
    fresh := s.fresh + 1
    request := Function.update s.request s.fresh { tool, arguments } }

theorem request_asking {tool : McpTool} {arguments : Json} {r : ℕ} (hr : r ≠ s.fresh) :
    (s.asking tool arguments).request r = s.request r := Function.update_of_ne hr _ _

theorem future_asking {tool : McpTool} {arguments : Json} {r : ℕ} (hr : r ≠ s.fresh) :
    (s.asking tool arguments).future r = s.future r := by
  simp only [McpSystem.future, request_asking hr]

theorem future_asking_self {tool : McpTool} {arguments : Json} :
    (s.asking tool arguments).future s.fresh = Future.pending := by
  simp only [McpSystem.future, asking, Function.update_self]

/-- A number that is new belongs to nobody. -/
theorem Placed.nowhere_fresh (h : s.Placed notes place) : place s.fresh = McpPlace.nowhere := by
  by_contra hne
  exact absurd (h.fresh s.fresh hne) (lt_irrefl _)

/-- A request that has not been made was not dispatched. -/
theorem Fated.dispatches_fresh (h : s.Fated place) : s.dispatches s.fresh = 0 := by
  refine List.countP_eq_zero.2 fun x hx hd => ?_
  cases x with
  | dispatched r name arguments =>
      have hr : r = s.fresh := of_decide_eq_true hd
      exact absurd (h.log _ hx r rfl) (by rw [hr]; exact lt_irrefl _)
  | _ => cases hd

theorem evolves_asking (h : s.Placed notes place) (tool : McpTool) (arguments : Json) :
    Evolves s (s.asking tool arguments) place
      (Function.update place s.fresh (McpPlace.held j)) j where
  fresh := Nat.le_succ _
  log := List.Subset.refl _
  future := fun r hr => by
    rw [future_asking hr.ne]
    exact Future.Advances.refl _
  started := fun r hr hs => by
    rw [request_asking hr.ne]
    exact hs
  nowhere := fun r hr hp => by rw [Function.update_of_ne hr.ne]; exact hp
  dispatches := fun _ _ _ => rfl
  held := fun r j' _ hp => by
    have hr := h.fresh r (by rw [hp]; exact nofun)
    rw [Function.update_of_ne hr.ne, future_asking hr.ne]
    exact ⟨hp, id, id⟩

theorem Fated.asking (h : s.Fated place) (hplaced : s.Placed notes place) (tool : McpTool)
    (arguments : Json) :
    (s.asking tool arguments).Fated (Function.update place s.fresh (McpPlace.held j)) := by
  refine h.step (evolves_asking hplaced tool arguments) (fun x hx => Or.inl hx) h.once ?_ ?_ ?_ ?_
    fun r answer hmem => Or.inl hmem
  · intro r hr
    rcases eq_or_ne r s.fresh with rfl | hne
    · exact h.dispatches_fresh
    · rw [Function.update_of_ne hne] at hr
      exact h.unsent r hr
  · intro r hr
    have hne : r ≠ s.fresh := by
      rintro rfl
      rw [Function.update_self] at hr
      rcases hr with hr | ⟨_, hr⟩ <;> cases hr
    rw [Function.update_of_ne hne] at hr
    rw [future_asking hne]
    exact h.opened r hr
  · intro r hr hcancelled
    rcases (Nat.lt_succ_iff_lt_or_eq.1 hr) with hlt | rfl
    · rw [future_asking hlt.ne] at hcancelled
      exact h.unbegun r hlt hcancelled
    · exact h.dispatches_fresh
  · intro r answer hr hfuture
    rcases (Nat.lt_succ_iff_lt_or_eq.1 hr) with hlt | rfl
    · rw [future_asking hlt.ne] at hfuture
      exact Or.inl ⟨hlt, hfuture⟩
    · rw [future_asking_self] at hfuture
      cases hfuture

/-- A caller makes a request. -/
theorem Orderly.newRequest (h : s.Orderly notes place) (hidle : notes j = McpNote.idle)
    (tool : McpTool) (arguments : Json) :
    ({ s with
      fresh := s.fresh + 1
      request := Function.update s.request s.fresh { tool, arguments } } : McpSystem).Orderly
      (Function.update notes j (McpNote.made s.fresh))
      (Function.update place s.fresh (McpPlace.held j)) := by
  have hevolves := evolves_asking (j := j) h.placed tool arguments
  have hnowhere := h.placed.nowhere_fresh
  refine h.step hevolves (h.placed.move hevolves (Nat.lt_succ_self _) rfl rfl
      (by rw [hnowhere]; exact nofun) (by rw [hnowhere]; exact nofun) ?_ ?_)
    (h.fated.asking h.placed tool arguments) ?_ ⟨Function.update_self _ _ _, ?_⟩
  · refine held_update h.placed (fun r' hlive => ?_) fun j' hj' => ?_
    · rw [hidle] at hlive
      exact hlive.elim
    · cases hj'
      exact ⟨rfl, rfl⟩
  · refine current_update h.placed hevolves rfl (fun r₀ hr₀ => ?_) fun server hr => ?_
    · rw [hidle] at hr₀
      cases hr₀
    · exact absurd (h.placed.current server _ hr).1 (lt_irrefl _)
  · intro r hr
    cases hr
    exact Nat.lt_succ_self _
  · change ((s.asking tool arguments).future s.fresh).Open
    rw [future_asking_self]
    exact trivial

/-- The callbacks, when a request that is not among them is moved, possibly to their end. -/
theorem Placed.puts_move {p : McpPlace} (h : s.Placed notes place)
    (hr : place r ≠ McpPlace.scheduled)
    (hputs : s'.puts = s.puts ∨ p = McpPlace.scheduled ∧ s'.puts = s.puts ++ [r]) :
    s'.puts.Nodup ∧ ∀ r' ∈ s'.puts, Function.update place r p r' = McpPlace.scheduled := by
  have hold : ∀ r' ∈ s.puts, Function.update place r p r' = McpPlace.scheduled :=
    fun r' hr' => place_update hr (h.puts r' hr')
  rcases hputs with heq | ⟨hscheduled, heq⟩
  · rw [heq]
    exact ⟨h.puts_nodup, hold⟩
  · rw [heq, List.nodup_append]
    refine ⟨⟨h.puts_nodup, List.nodup_singleton r, fun a ha b hb heq => ?_⟩, fun r' hr' => ?_⟩
    · rw [List.mem_singleton.1 hb] at heq
      exact hr (heq ▸ h.puts a ha)
    · rcases List.mem_append.1 hr' with hr' | hr'
      · exact hold r' hr'
      · rw [List.mem_singleton.1 hr', Function.update_self]
        exact hscheduled

/-- The thread `j` moves the request that it holds; the futures stay as they are. -/
theorem Orderly.move (h : s.Orderly notes place) {p : McpPlace}
    (hheld : place r = McpPlace.held j) (hlive : ∀ r', (notes j).Live r' → r' = r)
    (hrequest : ∀ r₀, (notes j).request = some r₀ → r₀ = r)
    (hfresh : s'.fresh = s.fresh) (hrequests : s'.request = s.request) (hlog : s'.log = s.log)
    (hcurrent : s'.current = s.current) (hqueue : s'.queue = s.queue)
    (hp : p = McpPlace.nowhere ∨ p = McpPlace.scheduled ∧ (s.future r).Open)
    (hputs : s'.puts = s.puts ∨ p = McpPlace.scheduled ∧ s'.puts = s.puts ++ [r])
    (hnote : ∀ server, j = McpThread.owner server → s.current server = some r →
      p = McpPlace.nowhere ∧ n.request = some r)
    (hlt : ∀ r, n.request = some r → r < s.fresh)
    (hn : s'.NoteHolds (Function.update place r p) j n) :
    s'.Orderly (Function.update notes j n) (Function.update place r p) := by
  have hfuture : ∀ r, s'.future r = s.future r := fun r => by simp only [McpSystem.future, hrequests]
  have hdispatches : ∀ r, s'.dispatches r = s.dispatches r := fun r => by simp only [dispatches, hlog]
  have hevolves : Evolves s s' place (Function.update place r p) j :=
    { fresh := hfresh.ge
      log := by rw [hlog]; exact List.Subset.refl _
      future := fun r _ => by rw [hfuture]; exact Future.Advances.refl _
      started := fun r _ hs => by rw [hrequests]; exact hs
      nowhere := fun r' _ hr' => place_update (by rw [hheld]; exact nofun) hr'
      dispatches := fun r _ _ => hdispatches r
      held := fun r' j' hne hr' => by
        rw [hfuture]
        exact ⟨place_update (by rw [hheld]; simpa using hne.symm) hr', id, id⟩ }
  obtain ⟨hnodup, hscheduled⟩ := h.placed.puts_move (by rw [hheld]; exact nofun) hputs
  have hheld_lt : r < s.fresh := h.placed.fresh r (by rw [hheld]; exact nofun)
  refine h.step hevolves ⟨h.placed.fresh_update hfresh.ge (hheld_lt.trans_le hfresh.ge), hnodup,
      hscheduled, ?_, ?_, ?_, ?_⟩
    (h.fated.step hevolves ?_ ?_ ?_ ?_ ?_ ?_ ?_) (by rw [hfresh]; exact hlt) hn
  · rw [hqueue]
    exact h.placed.queue_nodup
  · rw [hqueue]
    exact fun server r' hr' =>
      place_update (by rw [hheld]; exact nofun) (h.placed.queue server r' hr')
  · refine held_update h.placed hlive fun j' hj' => ?_
    rcases hp with rfl | ⟨rfl, _⟩ <;> cases hj'
  -- If the request is the current one of an owner, its own thread moves it.
  · refine current_update h.placed hevolves hcurrent hrequest fun server hr => ?_
    obtain ⟨_, hplace, hstarted⟩ := h.placed.current server r hr
    rw [hheld] at hplace
    have hj : j = McpThread.owner server := by
      rcases hplace with heq | heq <;> cases heq
      rfl
    obtain ⟨hnowhere, hrequest'⟩ := hnote server hj hr
    exact ⟨Or.inr hnowhere, Or.inr (Or.inl ⟨hj, hrequest'⟩)⟩
  · intro x hx
    rw [hlog] at hx
    exact Or.inl hx
  · intro r
    rw [hdispatches]
    exact h.fated.once r
  · intro r' hr'
    rw [hdispatches]
    exact h.fated.unsent_update (by rw [hheld]; exact nofun) r' hr'
  · intro r' hr'
    rw [hfuture]
    refine h.fated.opened_update (fun hplace => ?_) r' hr'
    rcases hp with rfl | ⟨_, hopen⟩
    · rcases hplace with hplace | ⟨_, hplace⟩ <;> cases hplace
    · exact hopen
  · intro r hr hcancelled
    rw [hfuture] at hcancelled
    rw [hdispatches]
    exact h.fated.unbegun r (hfresh ▸ hr) hcancelled
  · intro r answer hr hfinished
    rw [hfuture] at hfinished
    exact Or.inl ⟨hfresh ▸ hr, hfinished⟩
  · intro r answer hmem
    rw [hlog] at hmem
    exact Or.inl hmem

/-! ### Queues -/

/-- A thread takes the first request from a queue. -/
theorem Orderly.take (h : s.Orderly notes place) (hidle : notes j = McpNote.idle)
    {server : PyStr} (hpop : s.pop server = some (r, s')) :
    s'.Orderly (Function.update notes j (McpNote.holding r))
      (Function.update place r (McpPlace.held j)) := by
  obtain ⟨rest, hqueue, rfl⟩ : ∃ rest, s.queue server = r :: rest ∧
      s' = { s with queue := Function.update s.queue server rest } := by
    unfold pop at hpop
    split at hpop
    · cases hpop
    · rename_i r' rest heq
      cases hpop
      exact ⟨rest, heq, rfl⟩
  have hqueued : place r = McpPlace.queued server :=
    h.placed.queue server r (by rw [hqueue]; exact List.mem_cons_self)
  have hother : ∀ r', place r' ≠ McpPlace.queued server → r' ≠ r :=
    fun r' hr' heq => hr' (heq ▸ hqueued)
  -- A request is queued once, so it is not among the rest.
  have hnodup := h.placed.queue_nodup server
  rw [hqueue, List.nodup_cons] at hnodup
  have hlt : r < s.fresh := h.placed.fresh r (by rw [hqueued]; exact nofun)
  have hevolves : Evolves s { s with queue := Function.update s.queue server rest } place
      (Function.update place r (McpPlace.held j)) j :=
    { Evolves.refl s place j with
      nowhere := fun r' _ hr' => place_update (by rw [hqueued]; exact nofun) hr'
      held := fun r' j' _ hr' => ⟨place_update (by rw [hqueued]; exact nofun) hr', id, id⟩ }
  refine h.step hevolves ⟨h.placed.fresh_update le_rfl hlt, h.placed.puts_nodup,
      fun r' hr' => place_update (by rw [hqueued]; exact nofun) (h.placed.puts r' hr'), ?_, ?_, ?_, ?_⟩
    (h.fated.step hevolves (fun x hx => Or.inl hx) h.fated.once
      (h.fated.unsent_update (by rw [hqueued]; exact nofun)) (h.fated.opened_update (by simp))
      h.fated.unbegun (fun r answer hr hf => Or.inl ⟨hr, hf⟩) fun r answer hmem => Or.inl hmem) ?_
    ⟨Function.update_self _ _ _, h.fated.opened r (Or.inr ⟨server, hqueued⟩)⟩
  · intro server'
    rcases eq_or_ne server' server with rfl | hne
    · simp only [Function.update_self]
      exact hnodup.2
    · simp only [Function.update_of_ne hne]
      exact h.placed.queue_nodup server'
  · intro server' r' hr'
    have hmem : r' ∈ s.queue server' ∧ r' ≠ r := by
      rcases eq_or_ne server' server with rfl | hne
      · simp only [Function.update_self] at hr'
        rw [hqueue]
        exact ⟨List.mem_cons_of_mem _ hr', fun heq => hnodup.1 (heq ▸ hr')⟩
      · simp only [Function.update_of_ne hne] at hr'
        refine ⟨hr', hother r' ?_⟩
        rw [h.placed.queue server' r' hr']
        simpa using hne
    rw [Function.update_of_ne hmem.2]
    exact h.placed.queue server' r' hmem.1
  · refine held_update h.placed (fun r' hlive => ?_) fun j' hj' => ?_
    · rw [hidle] at hlive
      exact hlive.elim
    · cases hj'
      exact ⟨rfl, rfl⟩
  · refine current_update h.placed hevolves rfl (fun r₀ hr₀ => ?_) fun server' hr => ?_
    · rw [hidle] at hr₀
      cases hr₀
    · obtain ⟨_, hplace, _⟩ := h.placed.current server' r hr
      rw [hqueued] at hplace
      rcases hplace with heq | heq <;> cases heq
  · intro r' hr'
    cases hr'
    exact hlt

/-- The callback that stops the loop changes nothing else. -/
theorem Orderly.runStop (h : s.Orderly notes place) {rest : List McpCallback}
    (hscheduled : s.scheduled = McpCallback.stop :: rest) :
    ({ s with scheduled := rest }.runCallback McpCallback.stop).Orderly notes place := by
  have hputs : ({ s with scheduled := rest } : McpSystem).puts = s.puts := by
    simp only [puts, hscheduled, List.filterMap_cons]
  refine ⟨⟨h.placed.fresh, ?_, fun r hr => h.placed.puts r ?_, h.placed.queue_nodup,
    h.placed.queue, h.placed.held, h.placed.current⟩, ⟨h.fated.log, h.fated.once,
    h.fated.unsent, h.fated.opened, h.fated.unbegun, h.fated.finished, h.fated.told⟩,
    h.notes_lt, fun j => ?_⟩
  · have hnodup := h.placed.puts_nodup
    rw [← hputs] at hnodup
    exact hnodup
  · rw [← hputs]
    exact hr
  · have hn := h.notes j
    cases hnote : notes j <;> rw [hnote] at hn <;> exact hn

section RunPut

variable {rest : List McpCallback} {server : PyStr}

theorem puts_runPut (hscheduled : s.scheduled = McpCallback.put r :: rest) :
    s.puts = r :: ({ s with scheduled := rest } : McpSystem).puts := by
  simp only [puts, hscheduled, List.filterMap_cons]

theorem Placed.place_runPut (h : s.Placed notes place)
    (hscheduled : s.scheduled = McpCallback.put r :: rest) : place r = McpPlace.scheduled :=
  h.puts r (by rw [puts_runPut hscheduled]; exact List.mem_cons_self)

/-- The request moves from the callbacks to the queue of its server; nobody holds it. -/
theorem evolves_runPut (hplace : place r = McpPlace.scheduled) (j : McpThread) :
    Evolves s ({ s with scheduled := rest }.runCallback (McpCallback.put r)) place
      (Function.update place r (McpPlace.queued server)) j :=
  { Evolves.refl s place j with
    nowhere := fun r' _ hr' => place_update (by simp [hplace]) hr'
    held := fun r' j' _ hr' => ⟨place_update (by simp [hplace]) hr', id, id⟩ }

theorem Placed.runPut (h : s.Placed notes place)
    (hscheduled : s.scheduled = McpCallback.put r :: rest)
    (hserver : (s.request r).tool.server = server) :
    ({ s with scheduled := rest }.runCallback (McpCallback.put r)).Placed notes
      (Function.update place r (McpPlace.queued server)) := by
  subst hserver
  have hplace := h.place_runPut hscheduled
  have hputs := puts_runPut hscheduled
  have hnodup := h.puts_nodup
  rw [hputs, List.nodup_cons] at hnodup
  have hother : ∀ r', place r' ≠ McpPlace.scheduled → r' ≠ r :=
    fun r' hr' heq => hr' (heq ▸ hplace)
  refine ⟨h.fresh_update le_rfl (h.fresh r (by rw [hplace]; simp)), hnodup.2, ?_, ?_, ?_, ?_, ?_⟩
  · intro r' hr'
    have hne : r' ≠ r := fun heq => hnodup.1 (heq ▸ hr')
    rw [Function.update_of_ne hne]
    exact h.puts r' (hputs ▸ List.mem_cons_of_mem _ hr')
  · intro server'
    simp only [McpSystem.runCallback]
    rcases eq_or_ne server' (s.request r).tool.server with rfl | hne
    · rw [Function.update_self, List.nodup_append]
      refine ⟨h.queue_nodup _, List.nodup_singleton r, fun a ha b hb => ?_⟩
      rw [List.mem_singleton] at hb
      rw [hb]
      exact hother a (by rw [h.queue _ a ha]; simp)
    · rw [Function.update_of_ne hne]
      exact h.queue_nodup server'
  · intro server' r' hr'
    simp only [McpSystem.runCallback] at hr'
    have hold : r' ∈ s.queue server' →
        Function.update place r (McpPlace.queued (s.request r).tool.server) r' =
          McpPlace.queued server' :=
      fun hmem => place_update (by simp [hplace]) (h.queue server' r' hmem)
    rcases eq_or_ne server' (s.request r).tool.server with rfl | hne
    · rw [Function.update_self, List.mem_append, List.mem_singleton] at hr'
      rcases hr' with hr' | rfl
      · exact hold hr'
      · exact Function.update_self _ _ _
    · rw [Function.update_of_ne hne] at hr'
      exact hold hr'
  · intro r' j' hr'
    rcases eq_or_ne r' r with rfl | hne
    · rw [Function.update_self] at hr'
      cases hr'
    · rw [Function.update_of_ne hne] at hr'
      exact h.held r' j' hr'
  · intro server' r₀ hr₀
    obtain ⟨hfresh, hcurrent, hstarted⟩ := h.current server' r₀ hr₀
    have hne : r₀ ≠ r := hother r₀ (by rcases hcurrent with heq | heq <;> rw [heq] <;> simp)
    rw [Function.update_of_ne hne]
    exact ⟨hfresh, hcurrent, hstarted⟩

theorem Orderly.runPut (h : s.Orderly notes place)
    (hscheduled : s.scheduled = McpCallback.put r :: rest) :
    ({ s with scheduled := rest }.runCallback (McpCallback.put r)).Orderly notes
      (Function.update place r (McpPlace.queued (s.request r).tool.server)) := by
  have hplace := h.placed.place_runPut hscheduled
  refine ⟨h.placed.runPut hscheduled rfl, ?_, h.notes_lt, fun j => ?_⟩
  · exact h.fated.step (evolves_runPut hplace McpThread.outside) (fun x hx => Or.inl hx)
      h.fated.once (h.fated.unsent_update (by simp [hplace]))
      (h.fated.opened_update fun _ => h.fated.opened r (Or.inl hplace)) h.fated.unbegun
      (fun r answer hr hf => Or.inl ⟨hr, hf⟩) fun r answer hmem => Or.inl hmem
  · -- The thread that runs the loop holds nothing, so that it is like the others here.
    refine (evolves_runPut hplace
      (if j = McpThread.outside then McpThread.main else McpThread.outside)).noteHolds ?_
      (h.notes_lt j) (h.notes j)
    split_ifs with hj
    · rw [hj]
      simp
    · exact hj

end RunPut

/-- The event loop runs a callback. -/
theorem Orderly.runCallback (h : s.Orderly notes place) {c : McpCallback} {rest : List McpCallback}
    (hscheduled : s.scheduled = c :: rest) :
    ∃ place', ({ s with scheduled := rest }.runCallback c).Orderly notes place' := by
  cases c with
  | stop => exact ⟨place, h.runStop hscheduled⟩
  | put r => exact ⟨_, h.runPut hscheduled⟩

/-! ### Futures -/

section SetFuture

variable {f : Future McpAnswer} {p : McpPlace}

theorem future_setFuture_self : (s.setFuture r f).future r = f := by
  simp only [McpSystem.future, McpSystem.setFuture, McpSystem.modify, Function.update_self]

theorem future_setFuture {r' : ℕ} (hne : r' ≠ r) : (s.setFuture r f).future r' = s.future r' := by
  simp only [McpSystem.future, McpSystem.setFuture, McpSystem.modify, Function.update_of_ne hne]

theorem started_setFuture (r' : ℕ) :
    ((s.setFuture r f).request r').started = (s.request r').started := by
  rcases eq_or_ne r' r with rfl | hne
  · simp only [McpSystem.setFuture, McpSystem.modify, Function.update_self]
  · simp only [McpSystem.setFuture, McpSystem.modify, Function.update_of_ne hne]

/-- Letting a request go moves nothing but what the thread holds. -/
theorem place_stays (hp : p = place r ∨ p = McpPlace.nowhere ∧ place r = McpPlace.held j) {r' : ℕ}
    {q : McpPlace} (hq : q ≠ McpPlace.held j) (hr' : place r' = q) :
    Function.update place r p r' = q := by
  rcases eq_or_ne r' r with rfl | hne
  · rw [Function.update_self]
    rcases hp with rfl | ⟨_, hheld⟩
    · exact hr'
    · exact absurd (hr'.symm.trans hheld) hq
  · rw [Function.update_of_ne hne]
    exact hr'

theorem evolves_setFuture (hadvances : (s.future r).Advances f)
    (hp : p = place r ∨ p = McpPlace.nowhere ∧ place r = McpPlace.held j)
    (hother : ∀ j', j' ≠ j → place r = McpPlace.held j' →
      ((s.future r).Open → f.Open) ∧ (s.future r = Future.running → f = Future.running)) :
    Evolves s (s.setFuture r f) place (Function.update place r p) j where
  fresh := le_rfl
  log := List.Subset.refl _
  future := by
    intro r' _
    rcases eq_or_ne r' r with rfl | hne
    · rw [future_setFuture_self]
      exact hadvances
    · rw [future_setFuture hne]
      exact Future.Advances.refl _
  started := fun r' _ hs => (started_setFuture r').trans hs
  nowhere := fun r' _ hr' => place_stays hp nofun hr'
  dispatches := fun _ _ _ => rfl
  held := by
    intro r' j' hne hr'
    refine ⟨place_stays hp (by simpa using hne) hr', ?_⟩
    rcases eq_or_ne r' r with rfl | hne'
    · rw [future_setFuture_self]
      exact hother j' hne hr'
    · rw [future_setFuture hne']
      exact ⟨id, id⟩

theorem Placed.setFuture (h : s.Placed notes place)
    (hevolves : Evolves s (s.setFuture r f) place (Function.update place r p) j) (hlt : r < s.fresh)
    (hp : p = place r ∨ p = McpPlace.nowhere ∧ place r = McpPlace.held j)
    (hlive : ∀ r', (notes j).Live r' → r' = r)
    (hrequest : ∀ r₀, (notes j).request = some r₀ → r₀ = r) (hn : n.request = some r)
    (hlive' : place r = McpPlace.held j → p = McpPlace.held j → n.Live r) :
    (s.setFuture r f).Placed (Function.update notes j n) (Function.update place r p) where
  fresh := h.fresh_update hevolves.fresh hlt
  puts_nodup := h.puts_nodup
  puts := fun r' hr' => place_stays hp nofun (h.puts r' hr')
  queue_nodup := h.queue_nodup
  queue := fun server r' hr' => place_stays hp nofun (h.queue server r' hr')
  held := by
    intro r' j' hr'
    rcases eq_or_ne r' r with rfl | hne
    · -- The request is still where it was, as it is somewhere.
      rw [Function.update_self] at hr'
      have hplace : place r' = McpPlace.held j' := by
        rcases hp with rfl | ⟨rfl, _⟩
        · exact hr'
        · cases hr'
      rcases eq_or_ne j' j with rfl | hne
      · rw [Function.update_self]
        exact hlive' hplace hr'
      · rw [Function.update_of_ne hne]
        exact h.held r' j' hplace
    · rw [Function.update_of_ne hne] at hr'
      rcases eq_or_ne j' j with rfl | hne'
      · exact absurd (hlive r' (h.held r' j' hr')) hne
      · rw [Function.update_of_ne hne']
        exact h.held r' j' hr'
  current := by
    refine current_update h hevolves rfl hrequest fun server hr => ?_
    obtain ⟨_, hcurrent, hs⟩ := h.current server r hr
    constructor
    · rcases hp with rfl | ⟨rfl, _⟩
      · exact hcurrent
      · exact Or.inr rfl
    · rcases eq_or_ne j (McpThread.owner server) with hj | hj
      · exact Or.inr (Or.inl ⟨hj, hn⟩)
      · rcases hs with hs | hs
        · exact Or.inl ((started_setFuture r).trans hs)
        · exact Or.inr (Or.inr ⟨hj, hs⟩)

theorem Fated.setFuture (h : s.Fated place)
    (hevolves : Evolves s (s.setFuture r f) place (Function.update place r p) j)
    (hp : p = place r ∨ p = McpPlace.nowhere ∧ place r = McpPlace.held j)
    (hopened : p = McpPlace.scheduled ∨ (∃ server, p = McpPlace.queued server) → f.Open)
    (hunbegun : f.Unbegun → s.dispatches r = 0)
    (hfinished : ∀ answer, f = Future.finished answer → s.future r = Future.finished answer ∨
      answer.NotSent ∧ s.dispatches r = 0 ∧ p = McpPlace.nowhere ∨ answer.OutcomeUnknown ∨
        ∃ payload, answer = McpAnswer.result payload ∧ McpHappening.returned r payload ∈ s.log) :
    (s.setFuture r f).Fated (Function.update place r p) := by
  refine h.step hevolves (fun x hx => Or.inl hx) h.once (fun r' hr' => ?_) (fun r' hr' => ?_)
    (fun r' hr' hc => ?_) (fun r' answer hr' hf => ?_) fun r' answer hmem => Or.inl hmem
  · rcases eq_or_ne r' r with rfl | hne
    · rw [Function.update_self] at hr'
      refine h.unsent r' ?_
      rcases hp with rfl | ⟨rfl, _⟩
      · exact hr'
      · exact absurd rfl hr'
    · rw [Function.update_of_ne hne] at hr'
      exact h.unsent r' hr'
  · rcases eq_or_ne r' r with rfl | hne
    · rw [Function.update_self] at hr'
      rw [future_setFuture_self]
      exact hopened hr'
    · rw [Function.update_of_ne hne] at hr'
      rw [future_setFuture hne]
      exact h.opened r' hr'
  · rcases eq_or_ne r' r with rfl | hne
    · rw [future_setFuture_self] at hc
      exact hunbegun hc
    · rw [future_setFuture hne] at hc
      exact h.unbegun r' hr' hc
  · rcases eq_or_ne r' r with rfl | hne
    · rw [future_setFuture_self] at hf
      rcases hfinished answer hf with hold | ⟨hnot, hnone, hnowhere⟩ | hrest
      · exact Or.inl ⟨hr', hold⟩
      · exact Or.inr (Or.inl ⟨hnot, hnone, Or.inr (by rw [Function.update_self]; exact hnowhere)⟩)
      · exact Or.inr (Or.inr hrest)
    · rw [future_setFuture hne] at hf
      exact Or.inl ⟨hr', hf⟩

/-- The future of a request is changed; the thread `j` may let the request go. -/
theorem Orderly.setFuture (h : s.Orderly notes place) (hlt : r < s.fresh)
    (hadvances : (s.future r).Advances f)
    (hp : p = place r ∨ p = McpPlace.nowhere ∧ place r = McpPlace.held j)
    (hother : ∀ j', j' ≠ j → place r = McpPlace.held j' →
      ((s.future r).Open → f.Open) ∧ (s.future r = Future.running → f = Future.running))
    (hopened : p = McpPlace.scheduled ∨ (∃ server, p = McpPlace.queued server) → f.Open)
    (hunbegun : f.Unbegun → s.dispatches r = 0)
    (hfinished : ∀ answer, f = Future.finished answer → s.future r = Future.finished answer ∨
      answer.NotSent ∧ s.dispatches r = 0 ∧ p = McpPlace.nowhere ∨ answer.OutcomeUnknown ∨
        ∃ payload, answer = McpAnswer.result payload ∧ McpHappening.returned r payload ∈ s.log)
    (hlive : ∀ r', (notes j).Live r' → r' = r)
    (hrequest : ∀ r₀, (notes j).request = some r₀ → r₀ = r)
    (hn : n.request = some r) (hholds : (s.setFuture r f).NoteHolds (Function.update place r p) j n)
    (hlive' : place r = McpPlace.held j → p = McpPlace.held j → n.Live r) :
    (s.setFuture r f).Orderly (Function.update notes j n) (Function.update place r p) := by
  have hevolves : Evolves s (s.setFuture r f) place (Function.update place r p) j :=
    evolves_setFuture hadvances hp hother
  refine h.step hevolves (h.placed.setFuture hevolves hlt hp hlive hrequest hn hlive')
    (h.fated.setFuture hevolves hp hopened hunbegun hfinished) (fun r' hr' => ?_) hholds
  rw [hn] at hr'
  cases hr'
  exact hlt

end SetFuture

/-- A request is marked as started. -/
theorem Orderly.setStarted (h : s.Orderly notes place) (hnote : notes j = McpNote.committed r) :
    (s.modify r fun request => { request with started := true }).Orderly
      (Function.update notes j (McpNote.ready r)) place := by
  -- The flag is no part of the future.
  have hfuture : ∀ r', (s.modify r fun request => { request with started := true }).future r' =
      s.future r' := by
    intro r'
    simp only [McpSystem.future, McpSystem.modify]
    rcases eq_or_ne r' r with rfl | hne
    · rw [Function.update_self]
    · rw [Function.update_of_ne hne]
  have hstarted : ∀ r', (s.request r').started = true →
      ((s.modify r fun request => { request with started := true }).request r').started = true := by
    intro r' hs
    simp only [McpSystem.modify]
    rcases eq_or_ne r' r with rfl | hne
    · rw [Function.update_self]
    · rw [Function.update_of_ne hne]
      exact hs
  have hholds := h.notes j
  rw [hnote] at hholds
  have hlt : r < s.fresh := h.notes_lt j r (by rw [hnote]; rfl)
  have hevolves : Evolves s (s.modify r fun request => { request with started := true }) place
      place j :=
    { fresh := le_rfl
      log := List.Subset.refl _
      future := fun r' _ => by rw [hfuture]; exact Future.Advances.refl _
      started := fun r' _ => hstarted r'
      nowhere := fun _ _ hr' => hr'
      dispatches := fun _ _ _ => rfl
      held := fun r' j' _ hr' => by rw [hfuture]; exact ⟨hr', id, id⟩ }
  refine h.step hevolves ⟨h.placed.fresh, h.placed.puts_nodup, h.placed.puts, h.placed.queue_nodup,
    h.placed.queue, fun r' j' hr' => ?_, fun server r' hr' => ?_⟩
    (h.fated.step hevolves (fun x hx => Or.inl hx) h.fated.once h.fated.unsent ?_ ?_ ?_
      fun r answer hmem => Or.inl hmem) ?_ ⟨hholds.1, (hfuture r).trans hholds.2, ?_⟩
  · have hlive := h.placed.held r' j' hr'
    rcases eq_or_ne j' j with rfl | hne
    · rw [hnote] at hlive
      rw [Function.update_self]
      exact hlive
    · rwa [Function.update_of_ne hne]
  · obtain ⟨hfresh, hplace, hs⟩ := h.placed.current server r' hr'
    refine ⟨hfresh, hplace, ?_⟩
    rcases hs with hs | hs
    · exact Or.inl (hstarted r' hs)
    · rcases eq_or_ne (McpThread.owner server) j with rfl | hne
      · rw [hnote] at hs
        rw [Function.update_self]
        exact Or.inr hs
      · rw [Function.update_of_ne hne]
        exact Or.inr hs
  · intro r' hr'
    rw [hfuture]
    exact h.fated.opened r' hr'
  · intro r' hr' hc
    rw [hfuture] at hc
    exact h.fated.unbegun r' hr' hc
  · intro r' answer hr' hf
    rw [hfuture] at hf
    exact Or.inl ⟨hr', hf⟩
  · intro r' hr'
    cases hr'
    exact hlt
  · simp only [McpSystem.modify, Function.update_self]

/-! ### The log -/

/-- Something that is no dispatch is written down. -/
theorem Orderly.noted (h : s.Orderly notes place) {x : McpHappening}
    (hx : ∀ r, isDispatch r x = false) (hlt : ∀ r, x.request = some r → r < s.fresh)
    (htold : ∀ r answer, x = McpHappening.told (some r) answer →
      s.future r = Future.finished answer ∨ answer.OutcomeUnknown ∨
        answer.NotSent ∧ s.NeverSent place r)
    (hlive : ∀ r, (notes j).Live r → n.Live r)
    (hcurrent : ∀ server r, j = McpThread.owner server → s.current server = some r →
      (s.request r).started = true ∨ n.request = some r)
    (hnlt : ∀ r, n.request = some r → r < s.fresh) (hn : (s.note x).NoteHolds place j n) :
    (s.note x).Orderly (Function.update notes j n) place := by
  have hdispatches : ∀ r, (s.note x).dispatches r = s.dispatches r :=
    fun r => dispatches_note (hx r)
  have hevolves : Evolves s (s.note x) place place j :=
    { Evolves.refl s place j with
      log := List.subset_cons_self _ _
      dispatches := fun r _ _ => hdispatches r }
  refine h.step hevolves ⟨h.placed.fresh, h.placed.puts_nodup, h.placed.puts, h.placed.queue_nodup,
    h.placed.queue, fun r j' hr => ?_, fun server r hr => ?_⟩
    (h.fated.step hevolves ?_ (fun r => ?_) (fun r hr => ?_) h.fated.opened (fun r hr hc => ?_)
      (fun r answer hr hf => Or.inl ⟨hr, hf⟩) fun r answer hmem => ?_) hnlt hn
  · rcases eq_or_ne j' j with rfl | hne
    · rw [Function.update_self]
      exact hlive r (h.placed.held r j' hr)
    · rw [Function.update_of_ne hne]
      exact h.placed.held r j' hr
  · obtain ⟨hfresh, hplace, hstarted⟩ := h.placed.current server r hr
    refine ⟨hfresh, hplace, ?_⟩
    rcases eq_or_ne (McpThread.owner server) j with rfl | hne
    · rw [Function.update_self]
      exact hcurrent server r rfl hr
    · rwa [Function.update_of_ne hne]
  · intro y hy
    rcases List.mem_cons.1 hy with rfl | hy
    · exact Or.inr hlt
    · exact Or.inl hy
  · rw [hdispatches]
    exact h.fated.once r
  · rw [hdispatches]
    exact h.fated.unsent r hr
  · rw [hdispatches]
    exact h.fated.unbegun r hr hc
  · rcases List.mem_cons.1 hmem with heq | hmem
    · refine Or.inr ((htold r answer heq.symm).imp id (Or.imp id fun hboth => ⟨hboth.1, ?_⟩))
      exact ⟨(hdispatches r).trans hboth.2.1, hboth.2.2⟩
    · exact Or.inl hmem

section CallTool

variable {name : PyStr} {arguments : Json}

theorem dispatches_callTool_self :
    (s.note (McpHappening.dispatched r name arguments)).dispatches r = s.dispatches r + 1 := by
  rw [dispatches, note, List.countP_cons_of_pos (by simp [isDispatch]), dispatches]

theorem dispatches_callTool {r' : ℕ} (hne : r' ≠ r) :
    (s.note (McpHappening.dispatched r name arguments)).dispatches r' = s.dispatches r' :=
  dispatches_note (by simp [isDispatch, hne.symm])

/-- Only the request that is dispatched is dispatched, and its thread gives it away. -/
theorem evolves_callTool (hheld : place r = McpPlace.held j)
    (hrunning : s.future r = Future.running) :
    Evolves s (s.note (McpHappening.dispatched r name arguments)) place
      (Function.update place r McpPlace.nowhere) j :=
  { Evolves.refl s place j with
    log := List.subset_cons_self _ _
    nowhere := fun r' _ hr' => place_update (by rw [hheld]; exact nofun) hr'
    dispatches := fun r' _ hnever => dispatches_callTool fun heq => by
      -- A request that is never sent is neither held nor running.
      subst heq
      rcases hnever.2 with hcancelled | hnowhere
      · rw [hrunning] at hcancelled
        cases hcancelled
      · rw [hheld] at hnowhere
        cases hnowhere
    held := fun r' j' hne hr' =>
      ⟨place_update (by rw [hheld]; simpa using hne.symm) hr', id, id⟩ }

theorem Fated.callTool (h : s.Fated place) (hheld : place r = McpPlace.held j)
    (hrunning : s.future r = Future.running) (hlt : r < s.fresh) :
    (s.note (McpHappening.dispatched r name arguments)).Fated
      (Function.update place r McpPlace.nowhere) := by
  refine h.step (evolves_callTool hheld hrunning) ?_ ?_ ?_ (h.opened_update (by simp)) ?_
    (fun r answer hr hf => Or.inl ⟨hr, hf⟩) ?_
  · intro x hx
    rcases List.mem_cons.1 hx with rfl | hx
    · refine Or.inr fun r' hr' => ?_
      cases hr'
      exact hlt
    · exact Or.inl hx
  · intro r'
    rcases eq_or_ne r' r with rfl | hne
    · rw [dispatches_callTool_self, h.unsent r' (by rw [hheld]; exact nofun)]
    · rw [dispatches_callTool hne]
      exact h.once r'
  · intro r' hr'
    rcases eq_or_ne r' r with rfl | hne
    · rw [Function.update_self] at hr'
      exact absurd rfl hr'
    · rw [Function.update_of_ne hne] at hr'
      rw [dispatches_callTool hne]
      exact h.unsent r' hr'
  · intro r' hr' hc
    rcases eq_or_ne r' r with rfl | hne
    · change (s.future r').Unbegun at hc
      rw [hrunning] at hc
      exact hc.elim
    · rw [dispatches_callTool hne]
      exact h.unbegun r' hr' hc
  · intro r' answer hmem
    rcases List.mem_cons.1 hmem with heq | hmem
    · cases heq
    · exact Or.inl hmem

end CallTool

/-- **A request is dispatched.** -/
theorem Orderly.callTool (h : s.Orderly notes place) (hnote : notes j = McpNote.ready r)
    (name : PyStr) (arguments : Json) :
    (s.note (McpHappening.dispatched r name arguments)).Orderly
      (Function.update notes j (McpNote.sent r)) (Function.update place r McpPlace.nowhere) := by
  have hholds := h.notes j
  rw [hnote] at hholds
  obtain ⟨hheld, hrunning, hstarted⟩ := hholds
  have hlt : r < s.fresh := h.notes_lt j r (by rw [hnote]; rfl)
  have hevolves : Evolves s (s.note (McpHappening.dispatched r name arguments)) place
      (Function.update place r McpPlace.nowhere) j := evolves_callTool hheld hrunning
  refine h.step hevolves (h.placed.move hevolves hlt rfl rfl (by rw [hheld]; exact nofun)
      (by rw [hheld]; exact nofun) ?_ ?_)
    (h.fated.callTool hheld hrunning hlt) ?_ ⟨Function.update_self _ _ _, hstarted⟩
  · refine held_update h.placed (fun r' hlive => ?_) nofun
    rw [hnote] at hlive
    exact hlive.symm
  · refine current_update h.placed hevolves rfl (fun r₀ hr₀ => ?_) fun server hr =>
      ⟨Or.inr rfl, Or.inl hstarted⟩
    rw [hnote] at hr₀
    cases hr₀
    rfl
  · intro r' hr'
    cases hr'
    exact hlt

/-! ### The variable of an owner -/

/-- What the owner has taken becomes its current request. -/
theorem Orderly.setCurrent (h : s.Orderly notes place) {server : PyStr}
    (hnote : notes (McpThread.owner server) = McpNote.holding r) :
    ({ s with current := Function.update s.current server (some r) } : McpSystem).Orderly notes
      place := by
  have hholds := h.notes (McpThread.owner server)
  rw [hnote] at hholds
  refine ⟨⟨h.placed.fresh, h.placed.puts_nodup, h.placed.puts, h.placed.queue_nodup,
    h.placed.queue, h.placed.held, fun server' r' hr' => ?_⟩, ⟨h.fated.log, h.fated.once,
    h.fated.unsent, h.fated.opened, h.fated.unbegun, h.fated.finished, h.fated.told⟩,
    h.notes_lt, fun j => ?_⟩
  · rcases eq_or_ne server' server with rfl | hne
    · simp only [Function.update_self] at hr'
      cases hr'
      exact ⟨h.notes_lt _ r (by rw [hnote]; rfl), Or.inl hholds.1, Or.inr (by rw [hnote]; rfl)⟩
    · simp only [Function.update_of_ne hne] at hr'
      exact h.placed.current server' r' hr'
  · have hn := h.notes j
    cases hnotes : notes j <;> rw [hnotes] at hn <;> exact hn

/-- The owner has no current request any more. -/
theorem Orderly.clearCurrent (h : s.Orderly notes place) {server : PyStr}
    (hquiet : ∀ r, ¬ (notes (McpThread.owner server)).Live r) :
    ({ s with current := Function.update s.current server none } : McpSystem).Orderly
      (Function.update notes (McpThread.owner server) McpNote.idle) place := by
  have hcleared : ({ s with current := Function.update s.current server none } :
      McpSystem).Orderly notes place := by
    refine ⟨⟨h.placed.fresh, h.placed.puts_nodup, h.placed.puts, h.placed.queue_nodup,
      h.placed.queue, h.placed.held, fun server' r' hr' => ?_⟩, ⟨h.fated.log, h.fated.once,
      h.fated.unsent, h.fated.opened, h.fated.unbegun, h.fated.finished, h.fated.told⟩,
      h.notes_lt, fun j => ?_⟩
    · rcases eq_or_ne server' server with rfl | hne
      · simp only [Function.update_self] at hr'
        cases hr'
      · simp only [Function.update_of_ne hne] at hr'
        exact h.placed.current server' r' hr'
    · have hn := h.notes j
      cases hnotes : notes j <;> rw [hnotes] at hn <;> exact hn
  refine hcleared.relabel (fun r hlive => absurd hlive (hquiet r)) (fun server' r hj hr => ?_)
    nofun trivial
  cases hj
  simp only [Function.update_self] at hr
  cases hr

end McpSystem
