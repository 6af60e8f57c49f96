/-
**What callers of MCP servers may rely on.**

Each operation of a caller, an owner or the main task turns what the thread knows of its request
into what it knows next, and keeps the invariant.  So do the programs, and a thread that rests holds
nothing.

Main definitions:

* `McpServers.Inv`, `McpServers.Calls` — the invariant, and outlines of programs;
* `McpServers.Justified`, `McpServers.Finishes` — what may be told, and what may be answered;
* `McpServers.Resting` — threads between their programs.

Main results:

* `McpServers.callProtocol` — **calls follow the protocol**, in every reachable state.
-/

import CatAgent.McpInvariant

set_option relaxedAutoImplicit false
set_option autoImplicit false

/-! ### Outlines -/

namespace McpServers

open McpSystem (Orderly)
open Program (all_bind all_pure all_operation)

variable {servers : McpServers} {s s' : McpSystem} {notes : McpThread → McpNote}
  {place : ℕ → McpPlace} {j : McpThread} {n : McpNote} {r : ℕ} {server : PyStr}

/-- The invariant, wherever the requests are. -/
def Inv (s : McpSystem) (notes : McpThread → McpNote) : Prop := ∃ place, Orderly s notes place

variable (servers) in
/-- An outline of a program of the thread `j` in this system. -/
abbrev Calls {α : Type} (j : McpThread) (p : McpM α) (n : McpNote) (Q : α → McpNote → Prop) : Prop :=
  servers.threads.Outline Inv j p n Q

theorem handle_of (hj : j ≠ McpThread.outside) (e : McpEffect) (o : McpChoice) (s : McpSystem) :
    servers.threads.handle j e o s = McpSystem.perform e o s := by
  cases j with
  | outside => exact absurd rfl hj
  | _ => rfl

/-- An operation that does not concern the requests. -/
def Plain : McpEffect → Prop
  | McpEffect.fields _ _ | McpEffect.wait _ _ | McpEffect.stopSoon | McpEffect.importAnyio
  | McpEffect.connect _ | McpEffect.sleep _ | McpEffect.tool _ | McpEffect.exit _ => True
  | _ => False

/-- What `call_soon_threadsafe` does to the callbacks. -/
theorem puts_schedule_stop (s : McpSystem) : (s.schedule McpCallback.stop).2.puts = s.puts := by
  unfold McpSystem.schedule
  split_ifs
  · simp [McpSystem.puts]
  · rfl

theorem orderly_plain (h : Orderly s notes place) {e : McpEffect} (he : Plain e) {o : McpChoice}
    {x : e.Answer} (hx : McpSystem.perform e o s = some (x, s')) : Orderly s' notes place := by
  cases e with
  | fields β f =>
      cases hx
      exact h.runtime _
  | wait p timed =>
      simp only [McpSystem.perform, McpSystem.wait] at hx
      split_ifs at hx
      · cases hx
        exact h
      · split at hx <;> cases hx
        exact h
      · split at hx <;> cases hx
  | stopSoon =>
      cases hx
      have hputs := puts_schedule_stop s
      unfold McpSystem.schedule at hputs ⊢
      split_ifs at hputs ⊢
      · refine ⟨⟨h.placed.fresh, ?_, fun r hr => h.placed.puts r ?_, h.placed.queue_nodup,
          h.placed.queue, h.placed.held, h.placed.current⟩, ⟨h.fated.log, h.fated.once,
          h.fated.unsent, h.fated.opened, h.fated.unbegun, h.fated.finished, h.fated.told⟩,
          h.notes_lt, fun j => ?_⟩
        · rw [hputs]
          exact h.placed.puts_nodup
        · rw [← hputs]
          exact hr
        · have hn := h.notes j
          cases hnote : notes j <;> rw [hnote] at hn <;> exact hn
      · exact h
  | importAnyio | sleep server =>
      simp only [McpSystem.perform] at hx
      split at hx <;> cases hx <;> exact h
  | connect server | exit server =>
      simp only [McpSystem.perform] at hx
      split at hx <;> cases hx
      exact h
  | tool r =>
      cases hx
      exact h
  | _ => exact he.elim

/-- **A plain program changes nothing for the requests.** -/
theorem calls_plain {α : Type} {p : McpM α} (hj : j ≠ McpThread.outside) (hp : p.All Plain)
    (n : McpNote) : Calls servers j p n fun _ l => l = n := by
  induction p with
  | done a => exact rfl
  | perform e next ih =>
      rintro s notes o x s' ⟨place, hs⟩ hl hx
      rw [handle_of hj] at hx
      refine ⟨n, ⟨place, ?_⟩, ih x (hp.2 x)⟩
      have hs' := orderly_plain hs hp.1 hx
      rw [← hl, Function.update_eq_self]
      exact hs'

/-- An outline of a single operation. -/
theorem calls_op {e : McpEffect} {Q : e.Answer → McpNote → Prop} (hj : j ≠ McpThread.outside)
    (h : ∀ s notes place o x s', Orderly s notes place → notes j = n →
      McpSystem.perform e o s = some (x, s') →
      ∃ l place', Orderly s' (Function.update notes j l) place' ∧ Q x l) :
    Calls servers j (McpRuntime.op e) n Q := by
  rintro s notes o x s' ⟨place, hs⟩ hl hx
  rw [handle_of hj] at hx
  obtain ⟨l, place', hs', hQ⟩ := h s notes place o x s' hs hl hx
  exact ⟨l, ⟨place', hs'⟩, hQ⟩

/-! ### Operations of callers -/

theorem calls_newRequest (hj : j ≠ McpThread.outside) (tool : McpTool) (arguments : Json) :
    Calls servers j (McpRuntime.newRequest tool arguments) McpNote.idle
      fun r l => l = McpNote.made r := by
  refine calls_op hj fun s notes place o x s' hs hl hx => ?_
  cases hx
  exact ⟨_, _, hs.newRequest hl tool arguments, rfl⟩

theorem puts_schedule_put (h : (s.schedule (McpCallback.put r)).1 = true) :
    (s.schedule (McpCallback.put r)).2.puts = s.puts ++ [r] := by
  unfold McpSystem.schedule at h ⊢
  split_ifs at h ⊢
  simp [McpSystem.puts]

/-- A request is scheduled, or it is lost. -/
theorem calls_putSoon (n : ℕ) (r : ℕ) :
    Calls servers (McpThread.client n) (McpRuntime.putSoon r) (McpNote.made r)
      fun b l => (b = true → l = McpNote.waiting r) ∧ (b = false → l = McpNote.lost r) := by
  refine calls_op nofun fun s notes place o x s' hs hl hx => ?_
  have hholds := hs.notes (McpThread.client n)
  rw [hl] at hholds
  obtain ⟨hheld, hopen⟩ := hholds
  have hlt : r < s.fresh := hs.notes_lt _ r (by rw [hl]; rfl)
  have hlive : ∀ r', (notes (McpThread.client n)).Live r' → r' = r := by
    intro r' hr'
    rw [hl] at hr'
    exact hr'.symm
  have hrequest : ∀ r₀, (notes (McpThread.client n)).request = some r₀ → r₀ = r := by
    intro r₀ hr₀
    rw [hl] at hr₀
    cases hr₀
    rfl
  cases x with
  | true =>
      have hs' : s.schedule (McpCallback.put r) = (true, s') := Option.some.inj hx
      have hputs := puts_schedule_put (s := s) (r := r) (by rw [hs'])
      rw [hs'] at hputs
      unfold McpSystem.schedule at hs'
      split_ifs at hs' <;> cases hs'
      refine ⟨McpNote.waiting r, _, hs.move (p := McpPlace.scheduled) hheld hlive hrequest rfl rfl rfl
        rfl rfl (Or.inr ⟨rfl, hopen⟩) (Or.inr ⟨rfl, hputs⟩) nofun ?_ trivial, fun _ => rfl, nofun⟩
      intro r' hr'
      cases hr'
      exact hlt
  | false =>
      have hs' : s.schedule (McpCallback.put r) = (false, s') := Option.some.inj hx
      unfold McpSystem.schedule at hs'
      split_ifs at hs' <;> cases hs'
      refine ⟨McpNote.lost r, _, hs.move (p := McpPlace.nowhere) hheld hlive hrequest rfl rfl rfl
        rfl rfl (Or.inl rfl) (Or.inl rfl) nofun ?_ ⟨?_, Or.inr (Function.update_self _ _ _)⟩, nofun,
        fun _ => rfl⟩
      · intro r' hr'
        cases hr'
        exact hlt
      · exact hs.fated.unsent r (by rw [hheld]; exact nofun)

/-- A caller has no variable `current`. -/
theorem orderly_relabel_client {m : ℕ} (hs : Orderly s notes place)
    (hlive : ∀ r, (notes (McpThread.client m)).Live r → n.Live r)
    (hlt : ∀ r, n.request = some r → r < s.fresh)
    (hn : s.NoteHolds place (McpThread.client m) n) :
    Orderly s (Function.update notes (McpThread.client m) n) place :=
  hs.relabel hlive (fun _ _ heq => by cases heq) hlt hn

theorem calls_result (m r : ℕ) :
    Calls servers (McpThread.client m) (McpRuntime.result r) (McpNote.waiting r)
      fun a l => (∀ answer, a = some answer → l = McpNote.answered r answer) ∧
        (a = none → l = McpNote.waiting r) := by
  refine calls_op nofun fun s notes place o x s' hs hl hx => ?_
  have hlt : ∀ r', (McpNote.waiting r).request = some r' → r' < s.fresh := by
    intro r' hr'
    exact hs.notes_lt (McpThread.client m) r' (by rw [hl]; exact hr')
  simp only [McpSystem.perform, McpSystem.result] at hx
  split at hx
  · rename_i answer hfuture
    cases hx
    refine ⟨McpNote.answered r answer, place, orderly_relabel_client hs ?_ ?_ hfuture, ?_, nofun⟩
    · intro r' hr'
      rw [hl] at hr'
      exact hr'.elim
    · exact fun r' hr' => hlt r' hr'
    · rintro _ ⟨⟩
      rfl
  · split at hx
    · cases hx
      refine ⟨McpNote.waiting r, place, ?_, nofun, fun _ => rfl⟩
      rw [← hl, Function.update_eq_self]
      exact hs
    · cases hx

/-- **What a caller cancels is not dispatched any more.** -/
theorem calls_cancel (m r : ℕ) :
    Calls servers (McpThread.client m) (McpRuntime.cancel r) (McpNote.waiting r)
      fun b l => (b = true → l = McpNote.expired r) ∧ (b = false → l = McpNote.waiting r) := by
  refine calls_op (by simp) fun s notes place o x s' hs hl hx => ?_
  cases hx
  have hlt : r < s.fresh := hs.notes_lt (McpThread.client m) r (by rw [hl]; rfl)
  have hself : (s.setFuture r (s.request r).result.cancel.2).future r =
      (s.future r).cancel.2 := by
    simp only [McpSystem.future, McpSystem.setFuture, McpSystem.modify, Function.update_self]
  have hplace : Function.update place r (place r) = place := Function.update_eq_self r place
  have hnote : ∀ n, n.request = some r → (∀ r', ¬ n.Live r') →
      (s.setFuture r (s.request r).result.cancel.2).NoteHolds place (McpThread.client m) n →
      Orderly (s.setFuture r (s.request r).result.cancel.2)
        (Function.update notes (McpThread.client m) n) place := by
    intro n hn hquiet hholds
    have hs' := hs.setFuture (j := McpThread.client m) (n := n) (p := place r) hlt
      (Future.advances_cancel _) (Or.inl rfl)
      (fun _ _ _ => ⟨Future.open_cancel, Future.cancel_running⟩)
      (fun hp => Future.open_cancel (hs.fated.opened r hp))
      (fun hf => hs.fated.unbegun r hlt (Future.unbegun_of_cancel hf))
      (fun answer hf => Or.inl (Future.cancel_eq_finished hf)) ?_ ?_ hn ?_ ?_
    · rwa [hplace] at hs'
    · intro r' hr'
      rw [hl] at hr'
      exact hr'.elim
    · intro r₀ hr₀
      rw [hl] at hr₀
      cases hr₀
      rfl
    · rw [hplace]
      exact hholds
    · intro hheld _
      have hlive := hs.placed.held r _ hheld
      rw [hl] at hlive
      exact hlive.elim
  cases hb : (s.request r).result.cancel.1 with
  | true =>
      refine ⟨McpNote.expired r, place, hnote _ rfl (fun _ => id) ?_, fun _ => rfl, (by simp)⟩
      change ((s.setFuture r _).future r).isCancelled = true
      rw [hself]
      exact Future.isCancelled_cancel hb
  | false => exact ⟨McpNote.waiting r, place, hnote _ rfl (fun _ => id) trivial, (by simp), fun _ => rfl⟩

/-- What a caller may be told about its request, given what it knows. -/
def Justified (answer : McpAnswer) : McpNote → Option ℕ → Prop
  | McpNote.idle, r => r = none
  | McpNote.answered r' answer', r => r = some r' ∧ answer = answer'
  | McpNote.expired r', r | McpNote.lost r', r => r = some r' ∧ answer.NotSent
  | McpNote.waiting r', r => r = some r' ∧ answer.OutcomeUnknown
  | _, _ => False

theorem calls_tell (m : ℕ) {ro : Option ℕ} {answer : McpAnswer} (hn : Justified answer n ro) :
    Calls servers (McpThread.client m) (McpRuntime.tell ro answer) n fun _ l => l = McpNote.idle := by
  refine calls_op nofun fun s notes place o x s' hs hl hx => ?_
  cases hx
  have hholds := hs.notes (McpThread.client m)
  have hnotes := hs.notes_lt (McpThread.client m)
  rw [hl] at hholds hnotes
  have hro : ∀ r, ro = some r → n.request = some r := by
    rintro r rfl
    cases n <;> first | exact hn.elim | (cases hn.1; rfl) | cases hn
  refine ⟨McpNote.idle, place, hs.noted (fun _ => rfl) (fun r hr => hnotes r (hro r hr)) ?_ ?_
    (fun _ _ heq => by cases heq) nofun trivial, rfl⟩
  · intro r answer' heq
    obtain ⟨rfl, rfl⟩ := McpHappening.told.inj heq
    cases n with
    | idle => cases hn
    | answered r' answer' =>
        obtain ⟨heq, rfl⟩ := hn
        cases heq
        exact Or.inl hholds
    | expired r' =>
        obtain ⟨heq, hnot⟩ := hn
        cases heq
        refine Or.inr (Or.inr ⟨hnot, ?_, Or.inl hholds⟩)
        exact hs.fated.unbegun r (hnotes r rfl) (Future.unbegun_of_isCancelled hholds)
    | lost r' =>
        obtain ⟨heq, hnot⟩ := hn
        cases heq
        exact Or.inr (Or.inr ⟨hnot, hholds⟩)
    | waiting r' => exact Or.inr (Or.inl hn.2)
    | _ => exact hn.elim
  · intro r hr
    rw [hl] at hr
    cases n <;> first | exact hr.elim | exact hn.elim

/-! ### Operations of owners and of the main task -/

theorem calls_get (server : PyStr) :
    Calls servers (McpThread.owner server) (McpRuntime.get server) McpNote.idle
      fun a l => (a = none → l = McpNote.idle) ∧ ∀ r, a = some r → l = McpNote.holding r := by
  refine calls_op nofun fun s notes place o x s' hs hl hx => ?_
  simp only [McpSystem.perform, McpSystem.get] at hx
  split at hx
  · cases hx
    refine ⟨McpNote.idle, place, ?_, fun _ => rfl, nofun⟩
    rw [← hl, Function.update_eq_self]
    exact hs
  · obtain ⟨⟨r, s₁⟩, hpop, heq⟩ := Option.map_eq_some_iff.1 hx
    cases heq
    refine ⟨McpNote.holding r, _, hs.take hl hpop, nofun, ?_⟩
    rintro _ ⟨⟩
    rfl

theorem calls_getNowait (hj : j ≠ McpThread.outside) (server : PyStr) :
    Calls servers j (McpRuntime.getNowait server) McpNote.idle
      fun a l => (a = none → l = McpNote.idle) ∧ ∀ r, a = some r → l = McpNote.holding r := by
  refine calls_op hj fun s notes place o x s' hs hl hx => ?_
  simp only [McpSystem.perform] at hx
  split at hx
  · cases hx
    refine ⟨McpNote.idle, place, ?_, fun _ => rfl, nofun⟩
    rw [← hl, Function.update_eq_self]
    exact hs
  · rename_i r s₁ hpop
    cases hx
    refine ⟨McpNote.holding r, _, hs.take hl hpop, nofun, ?_⟩
    rintro _ ⟨⟩
    rfl

theorem calls_setCurrent (server : PyStr) (r : ℕ) :
    Calls servers (McpThread.owner server) (McpRuntime.setCurrent server (some r))
      (McpNote.holding r) fun _ l => l = McpNote.holding r := by
  refine calls_op nofun fun s notes place o x s' hs hl hx => ?_
  cases hx
  refine ⟨McpNote.holding r, place, ?_, rfl⟩
  rw [← hl, Function.update_eq_self]
  exact hs.setCurrent hl

theorem calls_clear (server : PyStr) (hn : ∀ r, ¬ n.Live r) :
    Calls servers (McpThread.owner server) (McpRuntime.setCurrent server none) n
      fun _ l => l = McpNote.idle := by
  refine calls_op nofun fun s notes place o x s' hs hl hx => ?_
  cases hx
  refine ⟨McpNote.idle, place, hs.clearCurrent fun r hr => ?_, rfl⟩
  rw [hl] at hr
  exact hn r hr

/-- The thread that holds a request knows what there is to know. -/
theorem holding_spec (hs : Orderly s notes place) (hl : notes j = McpNote.holding r) :
    place r = McpPlace.held j ∧ (s.future r).Open ∧ r < s.fresh ∧ s.dispatches r = 0 ∧
      (∀ r', (notes j).Live r' → r' = r) ∧ ∀ r₀, (notes j).request = some r₀ → r₀ = r := by
  have hholds := hs.notes j
  rw [hl] at hholds
  obtain ⟨hheld, hopen⟩ := hholds
  refine ⟨hheld, hopen, hs.notes_lt j r (by rw [hl]; rfl),
    hs.fated.unsent r (by rw [hheld]; exact nofun), fun r' hr' => ?_, fun r₀ hr₀ => ?_⟩
  · rw [hl] at hr'
    exact hr'.symm
  · rw [hl] at hr₀
    cases hr₀
    rfl

/-- A request whose caller has given up is let go. -/
theorem calls_cancelled (hj : j ≠ McpThread.outside) (r : ℕ) :
    Calls servers j (McpRuntime.cancelled r) (McpNote.holding r)
      fun b l => (b = true → l = McpNote.dropped r) ∧ (b = false → l = McpNote.holding r) := by
  refine calls_op hj fun s notes place o x s' hs hl hx => ?_
  cases hx
  obtain ⟨hheld, _, hlt, _, hlive, hrequest⟩ := holding_spec hs hl
  cases hb : (s.request r).result.isCancelled with
  | true =>
      refine ⟨McpNote.dropped r, _, hs.move (p := McpPlace.nowhere) hheld hlive hrequest rfl rfl rfl
        rfl rfl (Or.inl rfl) (Or.inl rfl) (fun _ _ _ => ⟨rfl, rfl⟩) ?_ trivial, fun _ => rfl, nofun⟩
      intro r' hr'
      cases hr'
      exact hlt
  | false =>
      refine ⟨McpNote.holding r, place, ?_, nofun, fun _ => rfl⟩
      rw [← hl, Function.update_eq_self]
      exact hs

/-- **A request is answered before it is dispatched.** -/
theorem calls_finish_held (hj : j ≠ McpThread.outside) (r : ℕ) {answer : McpAnswer}
    (hnot : answer.NotSent) :
    Calls servers j (McpRuntime.finish r answer) (McpNote.holding r)
      fun _ l => l = McpNote.dropped r := by
  refine calls_op hj fun s notes place o x s' hs hl hx => ?_
  cases hx
  obtain ⟨hheld, hopen, hlt, hnone, hlive, hrequest⟩ := holding_spec hs hl
  refine ⟨McpNote.dropped r, _, hs.setFuture hlt (Future.advances_setResult _ _)
    (Or.inr ⟨rfl, hheld⟩) (fun j' hne hplace => ?_) (fun hp => ?_) (fun _ => hnone)
    (fun answer' hf => ?_) hlive hrequest rfl trivial nofun, rfl⟩
  · rw [hheld] at hplace
    cases hplace
    exact absurd rfl hne
  · rcases hp with hp | ⟨_, hp⟩ <;> cases hp
  · rcases Future.setResult_eq_finished hf with hold | ⟨rfl, _⟩
    · exact Or.inl hold
    · exact Or.inr (Or.inl ⟨hnot, hnone, rfl⟩)

/-- What an owner may answer after it has dispatched a request. -/
def Finishes (r : ℕ) (answer : McpAnswer) (n : McpNote) : Prop :=
  n = McpNote.sent r ∧ answer.OutcomeUnknown ∨
    ∃ payload, n = McpNote.returned r payload ∧ answer = McpAnswer.result payload

/-- **A request is answered after it was dispatched.** -/
theorem calls_finish_sent (hj : j ≠ McpThread.outside) {r : ℕ} {answer : McpAnswer}
    (hn : Finishes r answer n) :
    Calls servers j (McpRuntime.finish r answer) n fun _ l => l = McpNote.sent r := by
  refine calls_op hj fun s notes place o x s' hs hl hx => ?_
  cases hx
  have hholds := hs.notes j
  have hnotes := hs.notes_lt j
  rw [hl] at hholds hnotes
  obtain ⟨hplace, hstarted, hlt, hrequest, hlive, hmem⟩ : place r = McpPlace.nowhere ∧
      (s.request r).started = true ∧ r < s.fresh ∧ (∀ r₀, n.request = some r₀ → r₀ = r) ∧
      (∀ r', ¬ n.Live r') ∧ (answer.OutcomeUnknown ∨ ∃ payload,
        answer = McpAnswer.result payload ∧ McpHappening.returned r payload ∈ s.log) := by
    rcases hn with ⟨rfl, hunknown⟩ | ⟨payload, rfl, rfl⟩
    · exact ⟨hholds.1, hholds.2, hnotes r rfl, fun _ h => (Option.some.inj h).symm, fun _ => id,
        Or.inl hunknown⟩
    · exact ⟨hholds.1, hholds.2.1, hnotes r rfl, fun _ h => (Option.some.inj h).symm, fun _ => id,
        Or.inr ⟨payload, rfl, hholds.2.2⟩⟩
  have hsame : Function.update place r McpPlace.nowhere = place := by
    rw [← hplace, Function.update_eq_self]
  have hs' := hs.setFuture (j := j) (n := McpNote.sent r) (p := McpPlace.nowhere) hlt
    (Future.advances_setResult answer (s.future r)) (Or.inl hplace.symm)
    (fun j' _ hheld => ?_) (fun hp => ?_) (fun hf => ?_) (fun answer' hf => ?_) ?_ ?_ rfl ?_ nofun
  · rw [hsame] at hs'
    exact ⟨McpNote.sent r, place, hs', rfl⟩
  · rw [hplace] at hheld
    cases hheld
  · rcases hp with hp | ⟨_, hp⟩ <;> cases hp
  · refine hs.fated.unbegun r hlt ?_
    cases hfuture : s.future r with
    | running | finished a =>
        rw [hfuture] at hf
        exact hf.elim
    | _ => exact trivial
  · rcases Future.setResult_eq_finished hf with hold | ⟨rfl, _⟩
    · exact Or.inl hold
    · exact Or.inr (Or.inr hmem)
  · intro r' hr'
    rw [hl] at hr'
    exact absurd hr' (hlive r')
  · intro r₀ hr₀
    rw [hl] at hr₀
    exact hrequest r₀ hr₀
  · refine ⟨Function.update_self _ _ _, ?_⟩
    simp only [McpSystem.setFuture, McpSystem.modify, Function.update_self]
    exact hstarted

/-- **The caller can cancel a request until its future is running.** -/
theorem calls_setRunning (hj : j ≠ McpThread.outside) (r : ℕ) :
    Calls servers j (McpRuntime.setRunning r) (McpNote.holding r)
      fun a l => a ≠ none ∧ (a = some true → l = McpNote.committed r) ∧
        (a = some false → l = McpNote.dropped r) := by
  refine calls_op hj fun s notes place o x s' hs hl hx => ?_
  obtain ⟨hheld, hopen, hlt, hnone, hlive, hrequest⟩ := holding_spec hs hl
  obtain ⟨b, f, hset, htrue, hfalse⟩ := Future.setRunning_of_open hopen
  have hadvances := Future.advances_setRunning hset
  have hother : ∀ j', j' ≠ j → place r = McpPlace.held j' →
      ((s.future r).Open → f.Open) ∧ (s.future r = Future.running → f = Future.running) := by
    intro j' hne hplace
    rw [hheld] at hplace
    cases hplace
    exact absurd rfl hne
  have hx' : s.setRunning r = (x, s') := Option.some.inj hx
  change (s.request r).result.setRunningOrNotifyCancel = some (b, f) at hset
  simp only [McpSystem.setRunning, hset] at hx'
  cases hx'
  have hself : (s.setFuture r f).future r = f := by
    simp only [McpSystem.future, McpSystem.setFuture, McpSystem.modify, Function.update_self]
  cases b with
  | true =>
      have hf := htrue rfl
      have hs' := hs.setFuture (j := j) (n := McpNote.committed r) (p := place r) hlt hadvances
        (Or.inl rfl) hother (fun hp => ?_) (fun h => ?_) (fun answer h => ?_) hlive hrequest rfl
        ?_ (fun _ _ => rfl)
      · rw [Function.update_eq_self] at hs'
        exact ⟨McpNote.committed r, place, hs', (by simp), fun _ => rfl, (by simp)⟩
      · rw [hheld] at hp
        rcases hp with hp | ⟨_, hp⟩ <;> cases hp
      · rw [hf] at h
        exact h.elim
      · rw [hf] at h
        cases h
      · rw [Function.update_eq_self]
        exact ⟨hheld, hself.trans hf⟩
  | false =>
      refine ⟨McpNote.dropped r, _, hs.setFuture hlt hadvances (Or.inr ⟨rfl, hheld⟩) hother
        (fun hp => ?_) (fun _ => hnone) (fun answer h => ?_) hlive hrequest rfl trivial (by simp),
        (by simp), (by simp), fun _ => rfl⟩
      · rcases hp with hp | ⟨_, hp⟩ <;> cases hp
      · have hcancelled := hfalse rfl
        rw [h] at hcancelled
        cases hcancelled

theorem calls_setStarted (hj : j ≠ McpThread.outside) (r : ℕ) :
    Calls servers j (McpRuntime.setStarted r) (McpNote.committed r)
      fun _ l => l = McpNote.ready r := by
  refine calls_op hj fun s notes place o x s' hs hl hx => ?_
  cases hx
  exact ⟨_, place, hs.setStarted hl, rfl⟩

theorem calls_callTool (hj : j ≠ McpThread.outside) (server : PyStr) (r : ℕ) (name : PyStr) :
    Calls servers j (McpRuntime.callTool server r name) (McpNote.ready r)
      fun _ l => l = McpNote.sent r := by
  refine calls_op hj fun s notes place o x s' hs hl hx => ?_
  cases hx
  exact ⟨_, _, hs.callTool hl name _, rfl⟩

theorem calls_outcome (server server' : PyStr) (r : ℕ) :
    Calls servers (McpThread.owner server) (McpRuntime.outcome server' r) (McpNote.sent r)
      fun a l => (∀ payload, a = McpOutcome.returned payload → l = McpNote.returned r payload) ∧
        ((∀ payload, a ≠ McpOutcome.returned payload) → l = McpNote.sent r) := by
  refine calls_op nofun fun s notes place o x s' hs hl hx => ?_
  have hholds := hs.notes (McpThread.owner server)
  have hlt := hs.notes_lt (McpThread.owner server) r (by rw [hl]; rfl)
  rw [hl] at hholds
  simp only [McpSystem.perform, McpSystem.outcome] at hx
  split at hx
  · rename_i payload
    cases hx
    refine ⟨McpNote.returned r payload, place, hs.noted (fun _ => rfl) (fun r' hr' => ?_) nofun
      (fun r' hr' => ?_) (fun server₀ r₀ heq hr₀ => ?_) (fun r' hr' => ?_)
      ⟨hholds.1, hholds.2, List.mem_cons_self⟩, ?_, fun h => absurd rfl (h payload)⟩
    · cases hr'
      exact hlt
    · rw [hl] at hr'
      exact hr'.elim
    · cases heq
      rcases (hs.placed.current server r₀ hr₀).2.2 with hstarted | hrequest
      · exact Or.inl hstarted
      · rw [hl] at hrequest
        exact Or.inr hrequest
    · cases hr'
      exact hlt
    · rintro _ ⟨⟩
      rfl
  · rename_i outcome hnot
    cases hx
    refine ⟨McpNote.sent r, place, ?_, fun payload heq => absurd heq (hnot payload), fun _ => rfl⟩
    rw [← hl, Function.update_eq_self]
    exact hs
  · cases hx

/-! ### Threads that rest -/

/-- A thread between its programs: it holds nothing. -/
def Resting (j : McpThread) (n : McpNote) : Prop :=
  (∀ r, ¬ n.Live r) ∧ ∀ server, j = McpThread.owner server →
    n = McpNote.idle ∨ ∃ r, n = McpNote.sent r

theorem resting_idle (j : McpThread) : Resting j McpNote.idle := ⟨fun _ => id, fun _ _ => Or.inl rfl⟩

theorem resting_sent (j : McpThread) (r : ℕ) : Resting j (McpNote.sent r) :=
  ⟨fun _ => id, fun _ _ => Or.inr ⟨r, rfl⟩⟩

/-- What a resting owner has taken has been started. -/
theorem started_of_resting (hs : Orderly s notes place)
    (hrest : Resting (McpThread.owner server) (notes (McpThread.owner server)))
    (hr : s.current server = some r) :
    (s.request r).started = true ∧ place r = McpPlace.nowhere ∧ r < s.fresh := by
  obtain ⟨hlt, hplace, hstarted⟩ := hs.placed.current server r hr
  refine ⟨?_, hplace.resolve_left fun hheld => hrest.1 r (hs.placed.held r _ hheld), hlt⟩
  refine hstarted.elim id fun hrequest => ?_
  have hholds := hs.notes (McpThread.owner server)
  rcases hrest.2 server rfl with hidle | ⟨r', hsent⟩
  · rw [hidle] at hrequest
    cases hrequest
  · rw [hsent] at hrequest hholds
    cases hrequest
    exact hholds.2

/-- A thread that rests may forget what it knows. -/
theorem orderly_forget (hs : Orderly s notes place) (hrest : Resting j (notes j)) :
    Orderly s (Function.update notes j McpNote.idle) place := by
  refine hs.relabel (fun r hr => absurd hr (hrest.1 r)) (fun server r hj hr => Or.inl ?_) nofun
    trivial
  subst hj
  exact (started_of_resting hs hrest hr).1

theorem calls_current (server : PyStr) (hrest : Resting (McpThread.owner server) n) :
    Calls servers (McpThread.owner server) (McpRuntime.current server) n
      fun a l => (a = none → l = n) ∧ ∀ r, a = some r → l = McpNote.sent r := by
  refine calls_op nofun fun s notes place o x s' hs hl hx => ?_
  cases hx
  have hrest' : Resting (McpThread.owner server) (notes (McpThread.owner server)) := by rwa [hl]
  cases hcurrent : s.current server with
  | none =>
      refine ⟨n, place, ?_, fun _ => rfl, nofun⟩
      rw [← hl, Function.update_eq_self]
      exact hs
  | some r =>
      obtain ⟨hstarted, hplace, hlt⟩ := started_of_resting hs hrest' hcurrent
      refine ⟨McpNote.sent r, place, hs.relabel (fun r' hr' => absurd hr' (hrest'.1 r'))
        (fun server' r' heq hr' => ?_) (fun r' hr' => ?_) ⟨hplace, hstarted⟩, nofun, ?_⟩
      · cases heq
        exact Or.inl (started_of_resting hs hrest' hr').1
      · cases hr'
        exact hlt
      · rintro _ ⟨⟩
        rfl

theorem calls_isStarted (hj : j ≠ McpThread.outside) (r : ℕ) :
    Calls servers j (McpRuntime.isStarted r) (McpNote.sent r)
      fun b l => b = true ∧ l = McpNote.sent r := by
  refine calls_op hj fun s notes place o x s' hs hl hx => ?_
  cases hx
  have hholds := hs.notes j
  rw [hl] at hholds
  refine ⟨McpNote.sent r, place, ?_, hholds.2, rfl⟩
  rw [← hl, Function.update_eq_self]
  exact hs

/-! ### The programs of callers -/

theorem client_ne (m : ℕ) : McpThread.client m ≠ McpThread.outside := nofun

theorem owner_ne (server : PyStr) : McpThread.owner server ≠ McpThread.outside := nofun

theorem main_ne : McpThread.main ≠ McpThread.outside := nofun

theorem plain_fields {β : Type} (f : McpRuntime → β × McpRuntime) :
    (McpRuntime.fields f).All Plain := all_operation trivial

theorem plain_setState (server state reason : PyStr) :
    (McpRuntime.setState server state reason).All Plain := plain_fields _

theorem plain_setInitial (server : PyStr) (tools : List McpTool) :
    (McpRuntime.setInitial server tools).All Plain := plain_fields _

theorem plain_setPhase (server : PyStr) (phase : McpPhase) :
    (McpRuntime.setPhase server phase).All Plain := plain_fields _

theorem plain_wait (p : McpRuntime → Bool) (timed : Bool) : (McpRuntime.wait p timed).All Plain :=
  all_operation (A := McpEffect.Answer) (P := Plain) (e := McpEffect.wait p timed) trivial

/-- A caller waits for the answer, and tries to cancel its request if none has come. -/
theorem calls_answer (m r : ℕ) :
    Calls servers (McpThread.client m)
      (do
        match ← McpRuntime.result r with
        | some answer => return (some r, answer)
        | none =>
            if ← McpRuntime.cancel r then return (some r, McpAnswer.expired)
            else return (some r, McpAnswer.outcomeUnknown McpUnknown.callTimedOut))
      (McpNote.waiting r) fun a l => Justified a.2 l a.1 := by
  refine Threads.outline_bind (calls_result m r) ?_
  rintro (_ | answer) l ⟨hanswered, htimeout⟩
  · obtain rfl := htimeout rfl
    refine Threads.outline_bind (calls_cancel m r) ?_
    rintro cancelled l ⟨hexpired, hwaiting⟩
    cases cancelled with
    | true =>
        obtain rfl := hexpired rfl
        exact Threads.outline_pure ⟨rfl, trivial⟩
    | false =>
        obtain rfl := hwaiting rfl
        exact Threads.outline_pure ⟨rfl, trivial⟩
  · obtain rfl := hanswered answer rfl
    exact Threads.outline_pure ⟨rfl, rfl⟩

/-- **What a caller is told is justified.** -/
theorem calls_call (m : ℕ) (valid : PyStr → Json → Bool) (name : PyStr) (arguments : Json) :
    Calls servers (McpThread.client m) (McpRuntime.call valid name arguments) McpNote.idle
      fun a l => Justified a.2 l a.1 := by
  have hplain : ∀ {α : Type} (f : McpRuntime → α) n,
      Calls servers (McpThread.client m) (McpRuntime.read f) n fun _ l => l = n :=
    fun f n => calls_plain (client_ne m) (plain_fields _) n
  refine Threads.outline_bind (hplain _ _) ?_
  rintro found _ rfl
  cases found with
  | none => exact Threads.outline_pure rfl
  | some tool =>
      refine Threads.outline_bind (hplain _ _) ?_
      rintro (_ | _) _ rfl
      · refine Threads.outline_bind (hplain _ _) ?_
        rintro (_ | _) _ rfl
        · cases valid tool.schemaJson arguments with
          | false => exact Threads.outline_pure rfl
          | true =>
              refine Threads.outline_bind (calls_newRequest (client_ne m) tool arguments) ?_
              rintro r _ rfl
              refine Threads.outline_bind (calls_putSoon m r) ?_
              rintro scheduled l ⟨hwaiting, hlost⟩
              cases scheduled with
              | false =>
                  obtain rfl := hlost rfl
                  exact Threads.outline_pure ⟨rfl, trivial⟩
              | true =>
                  obtain rfl := hwaiting rfl
                  exact calls_answer m r
        · exact Threads.outline_pure rfl
      · exact Threads.outline_pure rfl

theorem calls_ask (m : ℕ) (valid : PyStr → Json → Bool) (name : PyStr) (arguments : Json) :
    Calls servers (McpThread.client m) (McpRuntime.ask valid name arguments) McpNote.idle
      fun _ l => l = McpNote.idle :=
  Threads.outline_bind (calls_call m valid name arguments) fun _ _ hjustified =>
    calls_tell m hjustified

theorem plain_close : McpRuntime.close.All Plain := by
  refine all_bind (plain_fields _) fun closed => ?_
  cases closed with
  | true => exact all_pure _
  | false => exact all_operation (A := McpEffect.Answer) (P := Plain) (e := McpEffect.stopSoon) trivial

theorem plain_setStates (state reason : PyStr) (l : List PyStr) :
    (McpRuntime.setStates state reason l).All Plain := by
  induction l with
  | nil => exact all_pure _
  | cons server l ih => exact all_bind (plain_setState server state reason) fun _ => ih

theorem plain_start (l : List PyStr) : (McpRuntime.start l).All Plain := by
  refine all_bind (plain_fields _) fun running => ?_
  cases running with
  | true => exact all_pure _
  | false =>
      refine all_bind (plain_wait _ _) fun started => ?_
      cases started with
      | true => exact all_pure _
      | false => exact all_bind plain_close fun _ => plain_setStates _ _ l

/-! ### The programs of owners -/

variable (servers server) in
/-- An owner rests again after the program. -/
abbrev Rests {α : Type} (p : McpM α) (n : McpNote) : Prop :=
  Calls servers (McpThread.owner server) p n fun _ l => Resting (McpThread.owner server) l

theorem rests_plain {α : Type} {p : McpM α} (hp : p.All Plain)
    (hn : Resting (McpThread.owner server) n) : Rests servers server p n :=
  (calls_plain (owner_ne server) hp n).mono fun _ _ hl => hl ▸ hn

theorem rests_ending (hn : Resting (McpThread.owner server) n) :
    Rests servers server (McpRuntime.ending server) n := by
  have hrest : ∀ n, Resting (McpThread.owner server) n → Rests servers server
      (do
        if ← McpRuntime.read fun rt => rt.closed then
          McpRuntime.setState server "unavailable" "closed"
        else if ← McpRuntime.read fun rt =>
            decide ((rt.status server).1 = PyStr.ofString "ready") then
          McpRuntime.setState server "unavailable" "connection_owner_stopped"
        else pure ()
        McpRuntime.setPhase server McpPhase.ended) n := by
    intro n hn
    refine rests_plain ?_ hn
    refine all_bind (plain_fields _) fun closed => ?_
    cases closed with
    | true => exact all_bind (plain_setState _ _ _) fun _ => plain_setPhase _ _
    | false =>
        refine all_bind (plain_fields _) fun ready => ?_
        cases ready with
        | true => exact all_bind (plain_setState _ _ _) fun _ => plain_setPhase _ _
        | false =>
            exact all_bind (p := (pure () : McpM Unit)) (all_pure ()) fun _ => plain_setPhase _ _
  refine Threads.outline_bind (calls_plain (owner_ne server) (plain_setInitial _ _) n) ?_
  rintro _ _ rfl
  refine Threads.outline_bind (calls_current server hn) ?_
  rintro (_ | r) l ⟨hnone, hsome⟩
  · obtain rfl := hnone rfl
    exact hrest _ hn
  · obtain rfl := hsome r rfl
    refine Threads.outline_bind (calls_isStarted (owner_ne server) r) ?_
    rintro _ _ ⟨rfl, rfl⟩
    refine Threads.outline_bind (calls_finish_sent (owner_ne server) (Or.inl ⟨rfl, trivial⟩)) ?_
    rintro _ _ rfl
    exact hrest _ (resting_sent _ r)

theorem rests_failed (hn : Resting (McpThread.owner server) n) (reason : PyStr) (b : Bool) :
    Rests servers server (McpRuntime.failed server reason b) n := by
  refine Threads.outline_bind (calls_plain (owner_ne server) (plain_setState _ _ _) n) ?_
  rintro _ _ rfl
  refine Threads.outline_bind (calls_plain (owner_ne server) (plain_setInitial _ _) _) ?_
  rintro _ _ rfl
  cases b with
  | true => exact rests_ending hn
  | false =>
      refine Threads.outline_bind (calls_plain (owner_ne server)
        (all_operation (A := McpEffect.Answer) (e := McpEffect.sleep server) trivial) _) ?_
      rintro slept _ rfl
      cases slept with
      | true => exact rests_plain (plain_setPhase _ _) hn
      | false => exact rests_ending hn

theorem rests_leave (hn : Resting (McpThread.owner server) n) :
    Rests servers server (McpRuntime.leave server) n := by
  refine Threads.outline_bind (calls_plain (owner_ne server)
    (all_operation (A := McpEffect.Answer) (e := McpEffect.exit server) trivial) n) ?_
  rintro x _ rfl
  cases x with
  | raised reason b => exact rests_failed hn reason b
  | cancelled => exact rests_ending hn
  | suppressed => exact rests_plain (plain_setPhase _ _) hn

theorem rests_clear (hn : ∀ r, ¬ n.Live r) :
    Rests servers server (McpRuntime.setCurrent server none) n :=
  (calls_clear server hn).mono fun _ _ hl => hl ▸ resting_idle _

/-- **A request is dispatched once and then answered or left.** -/
theorem rests_dispatch (r : ℕ) (tool : McpTool) :
    Rests servers server (McpRuntime.dispatch server r tool) (McpNote.committed r) := by
  refine Threads.outline_bind (calls_setStarted (owner_ne server) r) ?_
  rintro _ _ rfl
  refine Threads.outline_bind (calls_callTool (owner_ne server) server r tool.name) ?_
  rintro _ _ rfl
  refine Threads.outline_bind (calls_outcome server server r) ?_
  rintro outcome l ⟨hreturned, hother⟩
  cases outcome with
  | returned payload =>
      obtain rfl := hreturned payload rfl
      refine Threads.outline_bind (calls_finish_sent (owner_ne server) (Or.inr ⟨payload, rfl, rfl⟩)) ?_
      rintro _ _ rfl
      exact rests_clear fun _ => id
  | raised reason =>
      obtain rfl := hother nofun
      refine Threads.outline_bind (calls_plain (owner_ne server) (plain_setState _ _ _) _) ?_
      rintro _ _ rfl
      refine Threads.outline_bind (calls_finish_sent (owner_ne server) (Or.inl ⟨rfl, trivial⟩)) ?_
      rintro _ _ rfl
      refine Threads.outline_bind (calls_clear server fun _ => id) ?_
      rintro _ _ rfl
      exact rests_leave (resting_idle _)
  | cancelled =>
      obtain rfl := hother nofun
      exact rests_leave (resting_sent _ r)

theorem rests_serveRequest (live : List McpTool) (r : ℕ) :
    Rests servers server (McpRuntime.serveRequest server live r)
      (McpNote.holding r) := by
  refine Threads.outline_bind (calls_setCurrent server r) ?_
  rintro _ _ rfl
  refine Threads.outline_bind (calls_cancelled (owner_ne server) r) ?_
  rintro cancelled l ⟨hdropped, hheld⟩
  cases cancelled with
  | true =>
      obtain rfl := hdropped rfl
      exact rests_clear fun _ => id
  | false =>
      obtain rfl := hheld rfl
      refine Threads.outline_bind (calls_plain (owner_ne server)
        (all_operation (A := McpEffect.Answer) (e := McpEffect.tool r) trivial) _) ?_
      rintro tool _ rfl
      split_ifs
      · refine Threads.outline_bind (calls_finish_held (owner_ne server) r trivial) ?_
        rintro _ _ rfl
        exact rests_clear fun _ => id
      · refine Threads.outline_bind (calls_setRunning (owner_ne server) r) ?_
        rintro answer l ⟨hsome, htrue, hfalse⟩
        rcases answer with _ | _ | _
        · exact absurd rfl hsome
        · obtain rfl := hfalse rfl
          exact rests_clear fun _ => id
        · obtain rfl := htrue rfl
          exact rests_dispatch r tool

theorem rests_ownerRound (phase : McpPhase) :
    Rests servers server (McpRuntime.ownerRound server phase) McpNote.idle := by
  cases phase with
  | starting =>
      refine rests_plain (all_bind (all_operation trivial) fun imported => ?_) (resting_idle _)
      split_ifs
      · exact plain_setPhase _ _
      · exact all_bind (plain_setState _ _ _) fun _ => all_bind (plain_setInitial _ _) fun _ =>
          plain_setPhase _ _
  | connecting =>
      refine Threads.outline_bind (calls_plain (owner_ne server)
        (all_operation (A := McpEffect.Answer) (e := McpEffect.connect server) trivial) _) ?_
      rintro connection _ rfl
      cases connection with
      | opened tools =>
          exact rests_plain (all_bind (plain_setInitial _ _) fun _ =>
            all_bind (plain_setState _ _ _) fun _ => plain_setPhase _ _) (resting_idle _)
      | failed reason b => exact rests_failed (resting_idle _) reason b
      | cancelled => exact rests_ending (resting_idle _)
  | serving live =>
      refine Threads.outline_bind (calls_get server) ?_
      rintro (_ | r) l ⟨hnone, hsome⟩
      · obtain rfl := hnone rfl
        exact rests_leave (resting_idle _)
      · obtain rfl := hsome r rfl
        exact rests_serveRequest live r
  | ended => exact Threads.outline_pure (resting_idle _)

/-! ### The main task -/

theorem plain_main (l : List PyStr) : (McpRuntime.main l).All Plain :=
  all_bind (plain_fields _) fun _ => all_bind (plain_wait _ _) fun _ =>
    all_bind (plain_fields _) fun _ => all_bind (plain_wait _ _) fun _ =>
      all_bind (plain_wait _ _) fun _ => plain_fields _

/-- **What is left in the queues is answered, and not dispatched.** -/
theorem calls_drainOne (l : List PyStr) :
    Calls servers McpThread.main (McpRuntime.drainOne l) McpNote.idle
      fun _ l => Resting McpThread.main l := by
  induction l with
  | nil => exact Threads.outline_pure (resting_idle _)
  | cons server l ih =>
      refine Threads.outline_bind (calls_getNowait main_ne server) ?_
      rintro (_ | r) n ⟨hnone, hsome⟩
      · obtain rfl := hnone rfl
        exact ih
      · obtain rfl := hsome r rfl
        refine Threads.outline_bind (calls_finish_held main_ne r trivial) ?_
        rintro _ _ rfl
        exact Threads.outline_pure ⟨fun _ => id, nofun⟩

theorem calls_drainRound (l : List PyStr) :
    Calls servers McpThread.main (McpRuntime.drainRound l) McpNote.idle
      fun _ l => Resting McpThread.main l := by
  refine Threads.outline_bind (calls_drainOne l) fun drained n hn => ?_
  cases drained with
  | true => exact Threads.outline_pure hn
  | false =>
      exact (calls_plain main_ne (all_bind (plain_fields _) fun _ => plain_fields _) n).mono
        fun _ l hl => hl ▸ hn

/-! ### Whole runs -/

theorem inv_of_init (h : Initial s) : Inv s fun _ => McpNote.idle := by
  obtain ⟨_, hfresh, hscheduled, hqueue, hcurrent, hlog⟩ := h
  have hputs : s.puts = [] := by simp only [McpSystem.puts, hscheduled, List.filterMap_nil]
  have hdispatches : ∀ r, s.dispatches r = 0 := fun r => by
    rw [McpSystem.dispatches, hlog, List.countP_nil]
  refine ⟨fun _ => McpPlace.nowhere, ⟨fun r hr => absurd rfl hr, ?_, ?_, ?_, ?_, (by simp), ?_⟩,
    ⟨?_, fun r => (hdispatches r).le.trans (Nat.zero_le 1), fun r hr => absurd rfl hr, ?_,
      fun r _ _ => hdispatches r, ?_, ?_⟩, (fun _ _ h => by cases h), fun _ => trivial⟩
  · rw [hputs]
    exact List.nodup_nil
  · rw [hputs]
    simp
  · intro server
    rw [hqueue]
    exact List.nodup_nil
  · intro server r hr
    rw [hqueue] at hr
    cases hr
  · intro server r hr
    rw [hcurrent] at hr
    cases hr
  · rw [hlog]
    simp
  · rintro r (hr | ⟨_, hr⟩) <;> cases hr
  · intro r answer hr
    rw [hfresh] at hr
    exact absurd hr (Nat.not_lt_zero r)
  · rw [hlog]
    simp

/-- **What threads take up keeps the invariant.** -/
theorem inv_starts (hs : Inv s notes) (hrest : Resting j (notes j)) {o : McpChoice} {p : McpM Unit}
    (hstart : servers.starts j o s = some (p, s')) :
    ∃ n, Inv s' (Function.update notes j n) ∧
      Calls servers j p n fun _ l => Resting j l := by
  obtain ⟨place, hs⟩ := hs
  have hidle := orderly_forget hs hrest
  cases j with
  | outside =>
      simp only [starts] at hstart
      split at hstart
      · cases hstart
      · rename_i c rest hscheduled
        split_ifs at hstart
        cases hstart
        obtain ⟨place', hs'⟩ := hs.runCallback hscheduled
        refine ⟨notes McpThread.outside, ⟨place', ?_⟩, Threads.outline_pure hrest⟩
        rw [Function.update_eq_self]
        exact hs'
  | client m =>
      simp only [starts] at hstart
      split at hstart
      · cases hstart
        exact ⟨McpNote.idle, ⟨place, hidle⟩, (calls_ask m _ _ _).mono
          fun _ _ hl => hl ▸ resting_idle _⟩
      · cases hstart
        exact ⟨McpNote.idle, ⟨place, hidle⟩, (calls_plain (client_ne m) plain_close _).mono
          fun _ _ hl => hl ▸ resting_idle _⟩
      · cases hstart
        exact ⟨McpNote.idle, ⟨place, hidle⟩, (calls_plain (client_ne m) (plain_start _) _).mono
          fun _ _ hl => hl ▸ resting_idle _⟩
      · cases hstart
  | owner server =>
      simp only [starts] at hstart
      split_ifs at hstart
      cases hstart
      exact ⟨McpNote.idle, ⟨place, hidle⟩, rests_ownerRound _⟩
  | main =>
      simp only [starts] at hstart
      split at hstart
      · split_ifs at hstart
        cases hstart
        exact ⟨McpNote.idle, ⟨place, hidle⟩, (calls_plain main_ne (plain_main _) _).mono
          fun _ _ hl => hl ▸ resting_idle _⟩
      · cases hstart
        exact ⟨McpNote.idle, ⟨place, hidle⟩, calls_drainRound _⟩
      · cases hstart

/-- **Calls follow the protocol**, whatever the servers, the callers and the clock do. -/
theorem callProtocol (servers : McpServers)
    {c : Threads.Config McpThread McpEffect McpEffect.Answer McpSystem}
    (h : servers.threads.machine.Reachable c) : c.state.CallProtocol := by
  have hinv : ∃ notes, Inv c.state notes ∧
      ∀ j, Calls servers j (c.threads j) (notes j) fun _ l => Resting j l :=
    Threads.invariant Resting McpNote.idle resting_idle (fun _ => inv_of_init)
      (fun _ _ _ _ _ _ hs hrest hstart => inv_starts hs hrest hstart) h
  obtain ⟨notes, ⟨place, hs⟩, _⟩ := hinv
  exact hs.protocol

/-! ### One server -/

/-- A system with one server. -/
def single : McpServers := ⟨["s"], fun _ _ => true⟩

/-- The choices of an environment in which all goes well. -/
def smooth : McpEffect → McpChoice
  | McpEffect.connect _ => McpChoice.connection (McpConnection.opened [("t", "", "\x7b\x7d")])
  | McpEffect.outcome _ _ => McpChoice.outcome (McpOutcome.returned "ok")
  | McpEffect.exit _ => McpChoice.exit McpExit.suppressed
  | _ => McpChoice.proceed

/-- Nothing has happened yet. -/
def start : Threads.Config McpThread McpEffect McpEffect.Answer McpSystem :=
  ⟨⟨McpRuntime.initial, 0, fun _ => ⟨⟨"", "", "", ""⟩, Json.null, Future.pending, false⟩, [],
    fun _ => [], fun _ => none, []⟩, fun _ => Program.done ()⟩

theorem start_init : single.threads.machine.init start :=
  ⟨⟨rfl, rfl, rfl, fun _ => rfl, fun _ => rfl, rfl⟩, fun _ => rfl⟩

/-- The runtime starts, and a caller calls the tool of the server. -/
def called : Threads.Config McpThread McpEffect McpEffect.Answer McpSystem :=
  [(McpThread.client 0, McpChoice.start, smooth), (McpThread.main, McpChoice.proceed, smooth),
    (McpThread.owner "s", McpChoice.proceed, smooth),
    (McpThread.owner "s", McpChoice.proceed, smooth), (McpThread.main, McpChoice.proceed, smooth),
    (McpThread.client 0, McpChoice.proceed, smooth),
    (McpThread.client 1, McpChoice.call "mcp:s:t" Json.null, smooth),
    (McpThread.outside, McpChoice.callback, smooth),
    (McpThread.owner "s", McpChoice.proceed, smooth),
    (McpThread.client 1, McpChoice.proceed, smooth)].foldl (single.threads.turn 20) start

theorem reachable_called : single.threads.machine.Reachable called :=
  Threads.reachable_turns (Machine.Reach.of_init start_init) 20 _

/-- The call is dispatched, and its caller is told what the server has returned. -/
theorem callProtocol_called : called.state.dispatches 0 = 1 ∧
    (called.state.log.any fun
      | McpHappening.told r answer => decide (r = some 0 ∧ answer = McpAnswer.result "ok")
      | _ => false) = true ∧
    called.state.CallProtocol :=
  ⟨by decide +kernel, by decide +kernel, callProtocol single reachable_called⟩

end McpServers
