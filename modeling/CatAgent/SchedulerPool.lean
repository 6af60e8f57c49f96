/-
**The contexts of the core's scheduler.**

A context of the manager is free, or it belongs to a dialogue, or a thread holds it.  Every step
that moves a context keeps it that way, and every context that is free, or held to be given away,
has been reset since a dialogue used it.

Main results:

* `CoreScheduler.Pool.erase`, `CoreScheduler.Pool.take`, `CoreScheduler.Pool.assign`,
  `CoreScheduler.Pool.register`, `CoreScheduler.Pool.recover`, `CoreScheduler.Pool.resetDone`,
  `CoreScheduler.Pool.resetFailed` — **the steps keep the pool**.
-/

import CatAgent.SchedulerFutures

set_option relaxedAutoImplicit false
set_option autoImplicit false

namespace CoreScheduler

variable {config : SchedulerConfig} {safe : Bool} {s : CoreScheduler} {d : DriverNote}
  {e : ExecutorNote} {events : SchedulerThread → Option SystemEvent}
  {p q : Hold} {c : ℕ} {slot : ManagerSlot}
  {key : PyStr}

/-! ### The slots -/

/-- The place of a slot in the list of free contexts. -/
def slotIndex : ManagerSlot → ℕ
  | ManagerSlot.kv1 => 0
  | ManagerSlot.kv2 => 1

theorem slotIndex_injective {a b : ManagerSlot} (h : slotIndex a = slotIndex b) : a = b := by
  cases a <;> cases b <;> first | rfl | cases h

/-- The slots have different contexts. -/
def Distinct (s : CoreScheduler) : Prop :=
  ∀ a b c, s.managerSlots a = some c → s.managerSlots b = some c → a = b

theorem distinct_of_slots (h₁ : ∀ c, s.managerSlots ManagerSlot.kv1 = some c → c = runtime)
    (h₂ : s.managerSlots ManagerSlot.kv2 ≠ some runtime) : s.Distinct := by
  intro a b c ha hb
  cases a with
  | kv1 =>
      cases b with
      | kv1 => rfl
      | kv2 =>
          rw [h₁ c ha] at hb
          exact absurd hb h₂
  | kv2 =>
      cases b with
      | kv1 =>
          rw [h₁ c hb] at ha
          exact absurd ha h₂
      | kv2 => rfl

theorem runtime_of_kv1 (h : s.managerSlots ManagerSlot.kv1 =
    if config.managerPoolEnabled = true then some runtime else none) (c : ℕ)
    (hc : s.managerSlots ManagerSlot.kv1 = some c) : c = runtime := by
  rw [h] at hc
  split at hc
  · exact (Option.some.inj hc).symm
  · cases hc

theorem Pool.distinct (h : Pool config s p q) : s.Distinct :=
  distinct_of_slots (runtime_of_kv1 h.kv1) h.kv2_ne

theorem managerSlotIndex_eq (h : s.Distinct) (hc : s.managerSlots slot = some c) :
    s.managerSlotIndex c = some slot := by
  unfold managerSlotIndex
  cases slot with
  | kv1 => rw [if_pos hc]
  | kv2 =>
      rw [if_neg, if_pos hc]
      intro h₁
      cases h _ _ c h₁ hc

theorem slots_of_managerSlotIndex (h : s.managerSlotIndex c = some slot) :
    s.managerSlots slot = some c := by
  unfold managerSlotIndex at h
  split at h
  next hc =>
    cases h
    exact hc
  next =>
    split at h
    next hc =>
      cases h
      exact hc
    next => cases h

theorem slotRank_eq (h : s.Distinct) (hc : s.managerSlots slot = some c) :
    s.slotRank c = slotIndex slot := by
  rw [slotRank, managerSlotIndex_eq h hc]
  cases slot <;> rfl

/-- **A context that is offered takes its place in the sorted list.** -/
theorem sorted_offerContext (hd : s.Distinct)
    (hsorted : s.managerAvailable.Pairwise fun a b => s.slotRank a < s.slotRank b)
    (hslots : ∀ a ∈ s.managerAvailable, ∃ slot, s.managerSlots slot = some a)
    (hc : ∃ slot, s.managerSlots slot = some c) (hnot : c ∉ s.managerAvailable) :
    (s.offerContext c).managerAvailable.Pairwise fun a b => s.slotRank a < s.slotRank b := by
  have hperm : (s.offerContext c).managerAvailable.Perm (s.managerAvailable ++ [c]) :=
    List.mergeSort_perm _ _
  have hnodup : (s.offerContext c).managerAvailable.Nodup := by
    rw [hperm.nodup_iff]
    refine List.Nodup.append (hsorted.imp ?_) (List.nodup_singleton c) ?_
    · rintro a b hab rfl
      exact hab.false
    · intro a ha hac
      rw [List.mem_singleton] at hac
      exact hnot (hac ▸ ha)
  have hle : (s.offerContext c).managerAvailable.Pairwise fun a b => s.slotRank a ≤ s.slotRank b := by
    have hmerge : (s.offerContext c).managerAvailable.Pairwise fun a b =>
        decide (s.slotRank a ≤ s.slotRank b) = true :=
      List.pairwise_mergeSort (by simp; omega) (by simp; omega) (s.managerAvailable ++ [c])
    simpa using hmerge
  have hslot : ∀ a ∈ (s.offerContext c).managerAvailable, ∃ slot, s.managerSlots slot = some a := by
    intro a ha
    rw [hperm.mem_iff, List.mem_append, List.mem_singleton] at ha
    rcases ha with ha | rfl
    · exact hslots a ha
    · exact hc
  refine (hle.and hnodup).imp_of_mem fun {a b} ha hb hab => ?_
  obtain ⟨hab, hne⟩ := hab
  refine lt_of_le_of_ne hab fun heq => hne ?_
  -- Contexts of one slot are the same.
  obtain ⟨i, hi⟩ := hslot a ha
  obtain ⟨j, hj⟩ := hslot b hb
  rw [slotRank_eq hd hi, slotRank_eq hd hj] at heq
  rw [slotIndex_injective heq, hj] at hi
  exact (Option.some.inj hi).symm

theorem mem_offerContext {a : ℕ} :
    a ∈ (s.offerContext c).managerAvailable ↔ a ∈ s.managerAvailable ∨ a = c := by
  simp [offerContext]

/-! ### The steps -/

theorem get?_of_erase {contexts : PyDict PyStr ℕ} {key' : PyStr}
    (h : (contexts.erase key).get? key' = some c) : contexts.get? key' = some c := by
  rw [PyDict.get?_erase] at h
  split at h
  · cases h
  · exact h

theorem Hold.Valid.erase (h : p.Valid s) (key : PyStr) :
    p.Valid { s with contexts := s.contexts.erase key } := by
  refine ⟨fun c slot b hp => ?_, fun c hp => ?_, h.2.2⟩
  · obtain ⟨h₁, h₂, h₃, h₄, h₅⟩ := h.1 c slot b hp
    exact ⟨h₁, h₂, h₃, fun k hk => h₄ k (get?_of_erase hk), h₅⟩
  · obtain ⟨h₁, h₂, h₃, h₄⟩ := h.2.1 c hp
    exact ⟨h₁, h₂, fun k hk => h₃ k (get?_of_erase hk), h₄⟩

/-- A dialogue loses its context. -/
theorem Pool.erase (h : Pool config s p q) (key : PyStr) :
    Pool config { s with contexts := s.contexts.erase key } p q :=
  { h with
    available_unassigned := fun c hc key' hk => h.available_unassigned c hc key' (get?_of_erase hk)
    contexts_old := fun key' c hk => h.contexts_old key' c (get?_of_erase hk)
    assigned_unique := fun slot c hc k k' hk hk' =>
      h.assigned_unique slot c hc k k' (get?_of_erase hk) (get?_of_erase hk')
    unshared := fun hp c k k' hk hk' =>
      h.unshared hp c k k' (get?_of_erase hk) (get?_of_erase hk')
    assigned_ready := fun slot c hc k hk => h.assigned_ready slot c hc k (get?_of_erase hk)
    assigned_clean := fun slot c hc k hk => h.assigned_clean slot c hc k (get?_of_erase hk)
    left := h.left.erase key
    right := h.right.erase key }

/-- A context with a slot that a dialogue has is held by nobody. -/
theorem Pool.not_held (h : Pool config s p q) (hk : s.contexts.get? key = some c)
    (hc : s.managerSlots slot = some c) : p.context? ≠ some c := by
  intro hp
  cases p with
  | nothing => cases hp
  | pooled c' slot' b =>
      cases hp
      exact (h.left.1 c slot' b rfl).2.2.2.1 key hk
  | fresh c' =>
      cases hp
      exact (h.left.2.1 c rfl).2.2.1 key hk
  | loose c' =>
      cases hp
      exact (h.left.2.2 c rfl).2 slot hc

/-- A context that a thread holds is not free. -/
theorem Pool.not_available (h : Pool config s p q) (hp : p.context? = some c) :
    c ∉ s.managerAvailable := by
  intro ha
  obtain ⟨slot, hc, _⟩ := h.available_ready c ha
  cases p with
  | nothing => cases hp
  | pooled c' slot b =>
      cases hp
      exact (h.left.1 c slot b rfl).2.2.1 ha
  | fresh c' =>
      cases hp
      exact (h.left.2.1 c rfl).2.2.2.1 slot hc
  | loose c' =>
      cases hp
      exact (h.left.2.2 c rfl).2 slot hc

/-- A context that a thread holds is known. -/
theorem Pool.held_lt (h : Pool config s p q) (hp : p.context? = some c) : c < s.nextContext := by
  cases p with
  | nothing => cases hp
  | pooled c' slot b =>
      cases hp
      exact h.slots_old slot c (h.left.1 c slot b rfl).1
  | fresh c' =>
      cases hp
      exact (h.left.2.1 c rfl).1
  | loose c' =>
      cases hp
      exact (h.left.2.2 c rfl).1

/-- A thread holds a context that the other one does not hold. -/
theorem Pool.hold_right (h : Pool config s p Hold.nothing) (hq : q.Valid s)
    (hp : ∀ c, q.context? = some c → p.owned? ≠ some c)
    (hp' : ∀ c, q.owned? = some c → p.context? ≠ some c) : Pool config s p q :=
  { h with
    right := hq
    left_apart := fun c hc hq => hp c hq hc
    right_apart := hp' }

/-- **A thread takes the context of a dialogue.** -/
theorem Pool.pop (h : Pool config s p q) (hk : s.contexts.get? key = some c)
    (hc : s.managerSlots slot = some c) :
    Pool config { s with contexts := s.contexts.erase key } p (Hold.pooled c slot false) := by
  have hheld := h.not_held hk hc
  refine (h.erase key).release_right.hold_right ⟨?_, nofun, nofun⟩ ?_ ?_
  · intro c' slot' b hp
    cases hp
    refine ⟨hc, h.assigned_ready slot c hc key hk, ?_, ?_, nofun⟩
    · intro ha
      exact h.available_unassigned c ha key hk
    · intro k hk'
      have hkk := h.assigned_unique slot c hc key k hk (get?_of_erase hk')
      rw [hkk, PyDict.get?_erase_self] at hk'
      cases hk'
  · intro c' hq hp
    cases hq
    exact hheld (Hold.context?_of_owned? hp)
  · intro c' hq
    cases hq
    exact hheld

/-- A thread takes the context of a dialogue that has no slot. -/
theorem Pool.popLoose (h : Pool config s p q) (hk : s.contexts.get? key = some c)
    (hc : ∀ slot, s.managerSlots slot ≠ some c) :
    Pool config { s with contexts := s.contexts.erase key } p (Hold.loose c) := by
  refine (h.erase key).release_right.hold_right ⟨nofun, nofun, ?_⟩ ?_ nofun
  · intro c' hq
    cases hq
    exact ⟨h.contexts_old key c hk, hc⟩
  · intro c' hq hp
    cases hq
    cases p with
    | nothing => cases hp
    | loose c' => cases hp
    | pooled c' slot' b =>
        cases hp
        exact (h.left.1 c slot' b rfl).2.2.2.1 key hk
    | fresh c' =>
        cases hp
        exact (h.left.2.1 c rfl).2.2.1 key hk

/-- **A thread takes a free context.** -/
theorem Pool.take (h : Pool config s p q) {rest : List ℕ} (ha : s.managerAvailable = c :: rest) :
    ∃ slot, Pool config { s with managerAvailable := rest } p (Hold.pooled c slot true) := by
  have hmem : c ∈ s.managerAvailable := by simp [ha]
  have hsub : ∀ a ∈ rest, a ∈ s.managerAvailable := by
    intro a hr
    rw [ha]
    exact List.mem_cons_of_mem c hr
  obtain ⟨slot, hc, hready⟩ := h.available_ready c hmem
  have hsorted := h.sorted
  rw [ha, List.pairwise_cons] at hsorted
  have hrest : Pool config { s with managerAvailable := rest } p Hold.nothing :=
    { h.release_right with
      sorted := hsorted.2
      available_ready := fun a hr => h.available_ready a (hsub a hr)
      available_unassigned := fun a hr => h.available_unassigned a (hsub a hr)
      available_clean := fun a hr => h.available_clean a (hsub a hr)
      left := by
        refine ⟨fun c' slot' b hp => ?_, h.left.2⟩
        obtain ⟨h₁, h₂, h₃, h₄⟩ := h.left.1 c' slot' b hp
        exact ⟨h₁, h₂, fun hr => h₃ (hsub c' hr), h₄⟩
      right := ⟨nofun, nofun, nofun⟩ }
  refine ⟨slot, hrest.hold_right ⟨?_, nofun, nofun⟩ ?_ ?_⟩
  · intro c' slot' b hq
    cases hq
    refine ⟨hc, hready, ?_, h.available_unassigned c hmem, fun _ => h.available_clean c hmem⟩
    intro hr
    exact (hsorted.1 c hr).false
  · intro c' hq hp
    cases hq
    exact h.not_available (Hold.context?_of_owned? hp) hmem
  · intro c' hq hp
    cases hq
    exact h.not_available hp hmem

theorem get?_of_set {contexts : PyDict PyStr ℕ} {key' : PyStr} {a : ℕ}
    (h : (contexts.set key c).get? key' = some a) :
    key' = key ∧ a = c ∨ key' ≠ key ∧ contexts.get? key' = some a := by
  rw [PyDict.get?_set] at h
  split at h
  next hk =>
    cases h
    exact Or.inl ⟨hk.symm, rfl⟩
  next hk => exact Or.inr ⟨fun hk' => hk hk'.symm, h⟩

/-- **A context of the pool is given to a dialogue.** -/
theorem Pool.assign (h : Pool config s p (Hold.pooled c slot true)) (key : PyStr) :
    Pool config (s.assignPooled key c) p Hold.nothing := by
  obtain ⟨hc, hready, hnot, hunassigned, hclean⟩ := h.right.1 c slot true rfl
  have hclean := hclean rfl
  have hapart : ∀ c', p.context? = some c' → c' ≠ c := by
    rintro c' hp rfl
    exact h.right_apart c' rfl hp
  have hother : ∀ k a, (s.contexts.set key c).get? k = some a → a ≠ c →
      s.contexts.get? k = some a := by
    intro k a hk hne
    rcases get?_of_set hk with ⟨_, rfl⟩ | ⟨_, hk⟩
    · exact absurd rfl hne
    · exact hk
  -- The context was assigned to nobody, so the new key is its only one.
  have hself : ∀ k, (s.contexts.set key c).get? k = some c → k = key := by
    intro k hk
    rcases get?_of_set hk with ⟨hk, _⟩ | ⟨_, hk⟩
    · exact hk
    · exact absurd hk (hunassigned k)
  exact
    { h.release_right with
      available_unassigned := by
        intro a ha k hk
        exact h.available_unassigned a ha k (hother k a hk fun hac => hnot (hac ▸ ha))
      contexts_old := by
        intro k a hk
        rcases get?_of_set hk with ⟨_, rfl⟩ | ⟨_, hk⟩
        · exact h.slots_old slot a hc
        · exact h.contexts_old k a hk
      assigned_unique := by
        intro slot' a ha k k' hk hk'
        rcases eq_or_ne a c with rfl | hne
        · rw [hself k hk, hself k' hk']
        · exact h.assigned_unique slot' a ha k k' (hother k a hk hne) (hother k' a hk' hne)
      unshared := by
        intro hp a k k' hk hk'
        rcases eq_or_ne a c with rfl | hne
        · rw [hself k hk, hself k' hk']
        · exact h.unshared hp a k k' (hother k a hk hne) (hother k' a hk' hne)
      assigned_ready := by
        intro slot' a ha k hk
        rcases eq_or_ne a c with rfl | hne
        · rwa [h.distinct slot' slot a ha hc]
        · exact h.assigned_ready slot' a ha k (hother k a hk hne)
      assigned_clean := by
        intro slot' a ha k hk k' hk'
        rcases eq_or_ne a c with rfl | hne
        · rw [show dirt a (s.assignPooled key a).log = dirt a s.log from rfl, hclean] at hk'
          cases hk'
        · exact h.assigned_clean slot' a ha k (hother k a hk hne) k' hk'
      left := by
        refine ⟨fun c' slot' b hp => ?_, fun c' hp => ?_, h.left.2.2⟩
        · obtain ⟨h₁, h₂, h₃, h₄, h₅⟩ := h.left.1 c' slot' b hp
          exact ⟨h₁, h₂, h₃, fun k hk => h₄ k (hother k c' hk (hapart c' (hp ▸ rfl))), h₅⟩
        · obtain ⟨h₁, h₂, h₃, h₄, h₅⟩ := h.left.2.1 c' hp
          exact ⟨h₁, h₂, fun k hk => h₃ k (hother k c' hk (hapart c' (hp ▸ rfl))), h₄, h₅⟩
      right := ⟨nofun, nofun, nofun⟩
      handed := by
        intro c' k ready l hl
        rcases List.suffix_cons_iff.1 hl with hl | hl
        · cases hl
          rw [managerSlotIndex_eq h.distinct hc, hclean]
          exact ⟨hready, nofun⟩
        · exact h.handed c' k ready l hl }

/-- A context without a slot is given to a dialogue. -/
theorem Pool.assignOther (h : Pool config s p q) (key : PyStr) (hold : c < s.nextContext)
    (hc : ∀ slot, s.managerSlots slot ≠ some c) (hp : p ≠ Hold.fresh c)
    (hnew : config.managerPoolEnabled = true → ∀ k, s.contexts.get? k ≠ some c) :
    Pool config { s with contexts := s.contexts.set key c } p Hold.nothing := by
  have hother : ∀ slot k a, s.managerSlots slot = some a →
      (s.contexts.set key c).get? k = some a → s.contexts.get? k = some a := by
    intro slot k a ha hk
    rcases get?_of_set hk with ⟨_, rfl⟩ | ⟨_, hk⟩
    · exact absurd ha (hc slot)
    · exact hk
  exact
    { h.release_right with
      available_unassigned := by
        intro a ha k hk
        obtain ⟨slot, hslot, _⟩ := h.available_ready a ha
        exact h.available_unassigned a ha k (hother slot k a hslot hk)
      contexts_old := by
        intro k a hk
        rcases get?_of_set hk with ⟨_, rfl⟩ | ⟨_, hk⟩
        · exact hold
        · exact h.contexts_old k a hk
      assigned_unique := fun slot a ha k k' hk hk' =>
        h.assigned_unique slot a ha k k' (hother slot k a ha hk) (hother slot k' a ha hk')
      unshared := by
        intro hpool a k k' hk hk'
        rcases get?_of_set hk with ⟨hkey, hac⟩ | ⟨_, hold⟩ <;>
          rcases get?_of_set hk' with ⟨hkey', hac'⟩ | ⟨_, hold'⟩
        · rw [hkey, hkey']
        · exact absurd (hac ▸ hold') (hnew hpool k')
        · exact absurd (hac' ▸ hold) (hnew hpool k)
        · exact h.unshared hpool a k k' hold hold'
      assigned_ready := fun slot a ha k hk => h.assigned_ready slot a ha k (hother slot k a ha hk)
      assigned_clean := fun slot a ha k hk => h.assigned_clean slot a ha k (hother slot k a ha hk)
      left := by
        refine ⟨fun c' slot' b hp => ?_, fun c' hp' => ?_, h.left.2.2⟩
        · obtain ⟨h₁, h₂, h₃, h₄, h₅⟩ := h.left.1 c' slot' b hp
          exact ⟨h₁, h₂, h₃, fun k hk => h₄ k (hother slot' k c' h₁ hk), h₅⟩
        · obtain ⟨h₁, h₂, h₃, h₄⟩ := h.left.2.1 c' hp'
          refine ⟨h₁, h₂, fun k hk => ?_, h₄⟩
          rcases get?_of_set hk with ⟨_, rfl⟩ | ⟨_, hk⟩
          · exact hp hp'
          · exact h₃ k hk
      right := ⟨nofun, nofun, nofun⟩ }

/-- **A new context is forked.** -/
theorem Pool.fork (h : Pool config s p q) :
    Pool config { s with nextContext := s.nextContext + 1 } p (Hold.fresh s.nextContext) := by
  have hnext : Pool config { s with nextContext := s.nextContext + 1 } p Hold.nothing :=
    { h.release_right with
      next := h.next.trans (Nat.lt_succ_self _)
      slots_old := fun slot a ha => (h.slots_old slot a ha).trans (Nat.lt_succ_self _)
      contexts_old := fun k a hk => (h.contexts_old k a hk).trans (Nat.lt_succ_self _)
      dirt_old := fun a ha => (h.dirt_old a ha).trans (Nat.lt_succ_self _)
      left := by
        refine ⟨h.left.1, fun c hp => ?_, fun c hp => ?_⟩
        · obtain ⟨h₁, h₂⟩ := h.left.2.1 c hp
          exact ⟨h₁.trans (Nat.lt_succ_self _), h₂⟩
        · obtain ⟨h₁, h₂⟩ := h.left.2.2 c hp
          exact ⟨h₁.trans (Nat.lt_succ_self _), h₂⟩
      right := ⟨nofun, nofun, nofun⟩ }
  refine hnext.hold_right ⟨nofun, ?_, nofun⟩ ?_ ?_
  · intro c hq
    cases hq
    refine ⟨Nat.lt_succ_self _, h.next.ne', ?_, ?_, ?_⟩
    · intro k hk
      exact (h.contexts_old k _ hk).false
    · intro slot hc
      exact (h.slots_old slot _ hc).false
    · by_contra hne
      exact (h.dirt_old _ hne).false
  · intro c hq hp
    cases hq
    exact (h.held_lt (Hold.context?_of_owned? hp)).false
  · intro c hq hp
    cases hq
    exact (h.held_lt hp).false

/-- A slot has the context that KV2 has got, or the one that it had. -/
theorem of_managerSlots_registerKv2 {slot : ManagerSlot} {a : ℕ}
    (ha : (s.registerKv2 c).managerSlots slot = some a) :
    slot = ManagerSlot.kv2 ∧ a = c ∨ slot = ManagerSlot.kv1 ∧ s.managerSlots slot = some a := by
  cases slot with
  | kv1 => exact Or.inr ⟨rfl, ha⟩
  | kv2 =>
      cases ha
      exact Or.inl ⟨rfl, rfl⟩

/-- A slot that had a context keeps it, and its flag. -/
theorem managerSlots_registerKv2 (hnone : s.managerSlots ManagerSlot.kv2 = none)
    {slot : ManagerSlot} {a : ℕ} (ha : s.managerSlots slot = some a) :
    (s.registerKv2 c).managerSlots slot = some a ∧
      (s.registerKv2 c).managerSlotReady slot = s.managerSlotReady slot := by
  cases slot with
  | kv1 => exact ⟨ha, rfl⟩
  | kv2 =>
      rw [hnone] at ha
      cases ha

theorem mem_registerKv2 {a : ℕ} : a ∈ (s.registerKv2 c).managerAvailable ↔
    a ∈ s.managerAvailable ∨ a = c := mem_offerContext

/-- The context of KV2 takes its place behind the one of KV1. -/
theorem Pool.sorted_register (h : Pool config s p q) (hdistinct : (s.registerKv2 c).Distinct)
    (hnone : s.managerSlots ManagerSlot.kv2 = none) (hnot : c ∉ s.managerAvailable) :
    (s.registerKv2 c).managerAvailable.Pairwise fun a b =>
      (s.registerKv2 c).slotRank a < (s.registerKv2 c).slotRank b := by
  have hrank : ∀ a ∈ s.managerAvailable, (s.registerKv2 c).slotRank a = s.slotRank a := by
    intro a ha
    obtain ⟨slot, hslot, _⟩ := h.available_ready a ha
    rw [slotRank_eq hdistinct (managerSlots_registerKv2 hnone hslot).1, slotRank_eq h.distinct hslot]
  refine sorted_offerContext (s := { s with
    managerSlots := Function.update s.managerSlots ManagerSlot.kv2 (some c)
    managerSlotReady := Function.update s.managerSlotReady ManagerSlot.kv2 true })
    hdistinct ?_ ?_ ⟨ManagerSlot.kv2, rfl⟩ hnot
  · refine h.sorted.imp_of_mem fun {a b} ha hb hab => ?_
    have := hrank a ha
    have := hrank b hb
    have : s.slotRank a < s.slotRank b := hab
    change (s.registerKv2 c).slotRank a < (s.registerKv2 c).slotRank b
    omega
  · intro a ha
    obtain ⟨slot, hslot, _⟩ := h.available_ready a ha
    exact ⟨slot, (managerSlots_registerKv2 hnone hslot).1⟩

/-- What another thread holds is not touched when KV2 gets a context. -/
theorem Hold.Valid.register (hp : p.Valid s) (hnone : s.managerSlots ManagerSlot.kv2 = none)
    (hslots : ∀ slot, s.managerSlots slot ≠ some c) (hapart : p.context? ≠ some c) :
    p.Valid (s.registerKv2 c) := by
  have hloose : ∀ c', p.context? = some c' → (∀ slot', s.managerSlots slot' ≠ some c') →
      ∀ slot', (s.registerKv2 c).managerSlots slot' ≠ some c' := by
    intro c' hp' hno slot' hc'
    rcases of_managerSlots_registerKv2 hc' with ⟨_, rfl⟩ | ⟨_, hc'⟩
    · exact hapart hp'
    · exact hno slot' hc'
  refine ⟨fun c' slot' b hp' => ?_, fun c' hp' => ?_, fun c' hp' => ?_⟩
  · obtain ⟨h₁, h₂, h₃, h₄⟩ := hp.1 c' slot' b hp'
    obtain ⟨h₁', h₂'⟩ := managerSlots_registerKv2 hnone h₁
    refine ⟨h₁', h₂'.trans h₂, fun ha => ?_, h₄⟩
    rcases mem_registerKv2.1 ha with ha | rfl
    · exact h₃ ha
    · exact hslots slot' h₁
  · obtain ⟨h₁, h₂, h₃, h₄, h₅⟩ := hp.2.1 c' hp'
    exact ⟨h₁, h₂, h₃, hloose c' (hp' ▸ rfl) h₄, h₅⟩
  · obtain ⟨h₁, h₂⟩ := hp.2.2 c' hp'
    exact ⟨h₁, hloose c' (hp' ▸ rfl) h₂⟩

/-- **KV2 gets a new context.** -/
theorem Pool.register (h : Pool config s p (Hold.fresh c))
    (hready : s.managerSlotReady ManagerSlot.kv2 = false) :
    Pool config (s.registerKv2 c) p Hold.nothing := by
  obtain ⟨hold, hruntime, hunassigned, hslots, hclean⟩ := h.right.2.1 c rfl
  have hnone := h.kv2 hready
  have hnot : c ∉ s.managerAvailable := by
    intro ha
    obtain ⟨slot, hc, _⟩ := h.available_ready c ha
    exact hslots slot hc
  have hdistinct : (s.registerKv2 c).Distinct :=
    distinct_of_slots (runtime_of_kv1 h.kv1) fun hc => hruntime (Option.some.inj hc)
  exact
    { sorted := h.sorted_register hdistinct hnone hnot
      available_ready := by
        intro a ha
        rcases mem_registerKv2.1 ha with ha | rfl
        · obtain ⟨slot, hslot, hr⟩ := h.available_ready a ha
          obtain ⟨h₁, h₂⟩ := managerSlots_registerKv2 hnone hslot
          exact ⟨slot, h₁, h₂.trans hr⟩
        · exact ⟨ManagerSlot.kv2, rfl, rfl⟩
      available_unassigned := by
        intro a ha k hk
        rcases mem_registerKv2.1 ha with ha | rfl
        · exact h.available_unassigned a ha k hk
        · exact hunassigned k hk
      available_clean := by
        intro a ha
        rcases mem_registerKv2.1 ha with ha | rfl
        · exact h.available_clean a ha
        · exact hclean
      kv1 := h.kv1
      kv2_ne := fun hc => hruntime (Option.some.inj hc)
      kv2 := nofun
      next := h.next
      slots_old := by
        intro slot a ha
        rcases of_managerSlots_registerKv2 ha with ⟨_, rfl⟩ | ⟨_, ha⟩
        · exact hold
        · exact h.slots_old slot a ha
      contexts_old := h.contexts_old
      dirt_old := h.dirt_old
      assigned_unique := by
        intro slot a ha k k' hk hk'
        rcases of_managerSlots_registerKv2 ha with ⟨_, rfl⟩ | ⟨_, ha⟩
        · exact absurd hk (hunassigned k)
        · exact h.assigned_unique slot a ha k k' hk hk'
      unshared := h.unshared
      assigned_ready := by
        intro slot a ha k hk
        rcases of_managerSlots_registerKv2 ha with ⟨_, rfl⟩ | ⟨_, ha⟩
        · exact absurd hk (hunassigned k)
        · exact (managerSlots_registerKv2 hnone ha).2.trans (h.assigned_ready slot a ha k hk)
      assigned_clean := by
        intro slot a ha k hk
        rcases of_managerSlots_registerKv2 ha with ⟨_, rfl⟩ | ⟨_, ha⟩
        · exact absurd hk (hunassigned k)
        · exact h.assigned_clean slot a ha k hk
      left := h.left.register hnone hslots (h.right_apart c rfl)
      right := ⟨nofun, nofun, nofun⟩
      left_apart := fun _ _ => nofun
      right_apart := nofun
      handed := h.handed }

/-- A slot becomes ready, and its context is offered. -/
theorem Pool.offer (h : Pool config s p q) (hc : s.managerSlots slot = some c)
    (hnot : c ∉ s.managerAvailable) (hunassigned : ∀ k, s.contexts.get? k ≠ some c)
    (hclean : dirt c s.log = []) (hp : p.context? ≠ some c) :
    Pool config ({ s with
      managerSlotReady := Function.update s.managerSlotReady slot true }.offerContext c) p
      Hold.nothing := by
  have hready : ∀ a, s.managerSlotReady a = true →
      Function.update s.managerSlotReady slot true a = true := by
    intro a ha
    rcases eq_or_ne a slot with rfl | hne
    · rw [Function.update_self]
    · rwa [Function.update_of_ne hne]
  have hslot : ∀ a ∈ s.managerAvailable, ∃ slot, s.managerSlots slot = some a := fun a ha => by
    obtain ⟨slot, hslot, _⟩ := h.available_ready a ha
    exact ⟨slot, hslot⟩
  exact
    { h.release_right with
      sorted := sorted_offerContext h.distinct h.sorted hslot ⟨slot, hc⟩ hnot
      available_ready := by
        intro a ha
        rcases mem_offerContext.1 ha with ha | rfl
        · obtain ⟨slot', hslot', hr⟩ := h.available_ready a ha
          exact ⟨slot', hslot', hready slot' hr⟩
        · exact ⟨slot, hc, Function.update_self ..⟩
      available_unassigned := by
        intro a ha k hk
        rcases mem_offerContext.1 ha with ha | rfl
        · exact h.available_unassigned a ha k hk
        · exact hunassigned k hk
      available_clean := by
        intro a ha
        rcases mem_offerContext.1 ha with ha | rfl
        · exact h.available_clean a ha
        · exact hclean
      kv2 := by
        intro hr
        refine h.kv2 ?_
        by_contra hne
        have := hready _ (Bool.not_eq_false _ ▸ hne)
        rw [show (offerContext c _).managerSlotReady ManagerSlot.kv2 =
          Function.update s.managerSlotReady slot true ManagerSlot.kv2 from rfl, this] at hr
        cases hr
      assigned_ready := fun slot' a ha k hk => hready slot' (h.assigned_ready slot' a ha k hk)
      left := by
        refine ⟨fun c' slot' b hp' => ?_, h.left.2⟩
        obtain ⟨h₁, h₂, h₃, h₄⟩ := h.left.1 c' slot' b hp'
        refine ⟨h₁, hready slot' h₂, fun ha => ?_, h₄⟩
        rcases mem_offerContext.1 ha with ha | rfl
        · exact h₃ ha
        · exact hp (hp' ▸ rfl)
      right := ⟨nofun, nofun, nofun⟩ }

/-- The context of a slot that is not ready is nowhere else. -/
theorem Pool.unready (h : Pool config s p q) (hc : s.managerSlots slot = some c)
    (hready : s.managerSlotReady slot = false) :
    c ∉ s.managerAvailable ∧ (∀ k, s.contexts.get? k ≠ some c) ∧ p.context? ≠ some c := by
  have hne : ∀ slot', s.managerSlots slot' = some c → s.managerSlotReady slot' ≠ true := by
    intro slot' hc' hr
    rw [h.distinct slot' slot c hc' hc, hready] at hr
    cases hr
  refine ⟨fun ha => ?_, fun k hk => ?_, fun hp => ?_⟩
  · obtain ⟨slot', hc', hr⟩ := h.available_ready c ha
    exact hne slot' hc' hr
  · exact hne slot hc (h.assigned_ready slot c hc k hk)
  · cases p with
    | nothing => cases hp
    | pooled c' slot' b =>
        cases hp
        obtain ⟨hc', hr, _⟩ := h.left.1 c slot' b rfl
        exact hne slot' hc' hr
    | fresh c' =>
        cases hp
        exact (h.left.2.1 c rfl).2.2.2.1 slot hc
    | loose c' =>
        cases hp
        exact (h.left.2.2 c rfl).2 slot hc

/-- **KV1 has been rebuilt.** -/
theorem Pool.recover (h : Pool config s p q) (hc : s.managerSlots ManagerSlot.kv1 = some c)
    (hready : s.managerSlotReady ManagerSlot.kv1 = false) (hclean : dirt c s.log = []) :
    Pool config (s.recovered c) p Hold.nothing := by
  obtain ⟨hnot, hunassigned, hp⟩ := h.unready hc hready
  have hoffer := h.offer hc hnot hunassigned hclean hp
  unfold recovered
  simp only
  rw [if_neg hnot]
  exact hoffer

/-- **A context that has been reset is free.** -/
theorem Pool.resetDone (h : Pool config s p (Hold.pooled c slot true)) :
    Pool config (s.resetDone slot c) p Hold.nothing := by
  obtain ⟨hc, _, hnot, hunassigned, hclean⟩ := h.right.1 c slot true rfl
  have hoffer := h.offer hc hnot hunassigned (hclean rfl) (h.right_apart c rfl)
  unfold CoreScheduler.resetDone
  simp only
  rw [if_neg hnot]
  exact { hoffer with }

/-- The slot of a context that is being reset fails; the other slots stay. -/
theorem Pool.fail {b : Bool} (h : Pool config s p (Hold.pooled c slot b))
    (slots : ManagerSlot → Option ℕ)
    (hto : ∀ slot' a, a ≠ c → s.managerSlots slot' = some a → slots slot' = some a)
    (hof : ∀ slot' a, slots slot' = some a → s.managerSlots slot' = some a)
    (hkv2 : Function.update s.managerSlotReady slot false ManagerSlot.kv2 = false →
      slots ManagerSlot.kv2 = none)
    (hkv1 : slots ManagerSlot.kv1 = s.managerSlots ManagerSlot.kv1) :
    Pool config { s with
      managerSlots := slots
      managerSlotReady := Function.update s.managerSlotReady slot false } p Hold.nothing := by
  obtain ⟨hc, _, hnot, hunassigned, _⟩ := h.right.1 c slot b rfl
  have hready : ∀ slot' a, a ≠ c → s.managerSlots slot' = some a →
      Function.update s.managerSlotReady slot false slot' = s.managerSlotReady slot' := by
    intro slot' a hne ha
    refine Function.update_of_ne (fun hs => hne ?_) _ _
    rw [hs, hc] at ha
    exact (Option.some.inj ha).symm
  have hne : ∀ a ∈ s.managerAvailable, a ≠ c := by
    rintro a ha rfl
    exact hnot ha
  have hdistinct : { s with
      managerSlots := slots
      managerSlotReady := Function.update s.managerSlotReady slot false }.Distinct := by
    intro i j a hi hj
    exact h.distinct i j a (hof i a hi) (hof j a hj)
  have hrank : ∀ a ∈ s.managerAvailable, { s with
      managerSlots := slots
      managerSlotReady := Function.update s.managerSlotReady slot false }.slotRank a =
      s.slotRank a := by
    intro a ha
    obtain ⟨slot', hslot', _⟩ := h.available_ready a ha
    rw [slotRank_eq hdistinct (hto slot' a (hne a ha) hslot'), slotRank_eq h.distinct hslot']
  exact
    { h.release_right with
      sorted := by
        refine h.sorted.imp_of_mem fun {a b} ha hb hab => ?_
        rw [hrank a ha, hrank b hb]
        exact hab
      available_ready := by
        intro a ha
        obtain ⟨slot', hslot', hr⟩ := h.available_ready a ha
        exact ⟨slot', hto slot' a (hne a ha) hslot', (hready slot' a (hne a ha) hslot').trans hr⟩
      kv1 := hkv1.trans h.kv1
      kv2_ne := fun hr => h.kv2_ne (hof _ _ hr)
      kv2 := hkv2
      slots_old := fun slot' a ha => h.slots_old slot' a (hof slot' a ha)
      assigned_unique := fun slot' a ha => h.assigned_unique slot' a (hof slot' a ha)
      assigned_ready := by
        intro slot' a ha k hk
        have hac : a ≠ c := by
          rintro rfl
          exact hunassigned k hk
        exact (hready slot' a hac (hof slot' a ha)).trans
          (h.assigned_ready slot' a (hof slot' a ha) k hk)
      assigned_clean := fun slot' a ha => h.assigned_clean slot' a (hof slot' a ha)
      left := by
        refine ⟨fun c' slot' b' hp => ?_, fun c' hp => ?_, fun c' hp => ?_⟩
        · obtain ⟨h₁, h₂, h₃⟩ := h.left.1 c' slot' b' hp
          have hcc : c' ≠ c := by
            rintro rfl
            exact h.right_apart c' rfl (hp ▸ rfl)
          exact ⟨hto slot' c' hcc h₁, (hready slot' c' hcc h₁).trans h₂, h₃⟩
        · obtain ⟨h₁, h₂, h₃, h₄, h₅⟩ := h.left.2.1 c' hp
          exact ⟨h₁, h₂, h₃, fun slot' hs => h₄ slot' (hof slot' c' hs), h₅⟩
        · obtain ⟨h₁, h₂⟩ := h.left.2.2 c' hp
          exact ⟨h₁, fun slot' hs => h₂ slot' (hof slot' c' hs)⟩
      right := ⟨nofun, nofun, nofun⟩ }

/-- **A context that could not be reset is lost.** -/
theorem Pool.resetFailed {b : Bool} (h : Pool config s p (Hold.pooled c slot b)) :
    Pool config (s.resetFailed slot c) p Hold.nothing := by
  obtain ⟨hc, _, hnot, _, _⟩ := h.right.1 c slot b rfl
  have havailable : s.managerAvailable.filter (fun a => decide (a ≠ c)) = s.managerAvailable := by
    rw [List.filter_eq_self]
    intro a ha
    simp only [ne_eq, decide_eq_true_eq]
    rintro rfl
    exact hnot ha
  unfold CoreScheduler.resetFailed
  simp only
  rw [havailable]
  cases slot with
  | kv1 => exact h.fail s.managerSlots (fun _ _ _ ha => ha) (fun _ _ ha => ha) h.kv2 rfl
  | kv2 =>
      -- KV1 keeps its context, KV2 loses the one that it had.
      refine { h.fail (Function.update s.managerSlots ManagerSlot.kv2 none) ?_ ?_ ?_ ?_ with }
      · intro slot' a hac ha
        rwa [Function.update_of_ne]
        rintro rfl
        rw [hc] at ha
        exact hac (Option.some.inj ha).symm
      · intro slot' a ha
        cases slot' with
        | kv1 => exact ha
        | kv2 => cases ha
      · intro _
        exact Function.update_self ..
      · rfl

theorem dirt_used (c c' : ℕ) (key : PyStr) :
    dirt c' (s.record (SchedulerEvent.used c key)).log =
      if c = c' then key :: dirt c' s.log else dirt c' s.log := rfl

theorem dirt_based (c c' : ℕ) :
    dirt c' (s.record (SchedulerEvent.based c)).log = if c = c' then [] else dirt c' s.log := rfl

/-- **A dialogue uses its context.** -/
theorem Pool.use (h : Pool config s p q) (hk : s.contexts.get? key = some c) :
    Pool config (s.record (SchedulerEvent.used c key)) p q := by
  have hother : ∀ c', c' ≠ c → dirt c' (s.record (SchedulerEvent.used c key)).log =
      dirt c' s.log := by
    intro c' hne
    rw [dirt_used, if_neg hne.symm]
  have hheld : ∀ {r : Hold}, r.Valid s → r.Valid (s.record (SchedulerEvent.used c key)) := by
    intro r hr
    refine ⟨fun c' slot b hp => ?_, fun c' hp => ?_, hr.2.2⟩
    · obtain ⟨h₁, h₂, h₃, h₄, h₅⟩ := hr.1 c' slot b hp
      have hne : c' ≠ c := by
        rintro rfl
        exact h₄ key hk
      exact ⟨h₁, h₂, h₃, h₄, fun hb => (hother c' hne).trans (h₅ hb)⟩
    · obtain ⟨h₁, h₂, h₃, h₄, h₅⟩ := hr.2.1 c' hp
      have hne : c' ≠ c := by
        rintro rfl
        exact h₃ key hk
      exact ⟨h₁, h₂, h₃, h₄, (hother c' hne).trans h₅⟩
  exact
    { h with
      available_clean := by
        intro c' ha
        have hne : c' ≠ c := by
          rintro rfl
          exact h.available_unassigned c' ha key hk
        exact (hother c' hne).trans (h.available_clean c' ha)
      dirt_old := by
        intro c' hd
        rcases eq_or_ne c' c with rfl | hne
        · exact h.contexts_old key c' hk
        · exact h.dirt_old c' (hother c' hne ▸ hd)
      assigned_clean := by
        intro slot c' hc k hk' k' hd
        rcases eq_or_ne c' c with rfl | hne
        · rw [dirt_used, if_pos rfl, List.mem_cons] at hd
          rcases hd with rfl | hd
          · exact h.assigned_unique slot c' hc _ _ hk hk'
          · exact h.assigned_clean slot c' hc k hk' k' hd
        · rw [hother c' hne] at hd
          exact h.assigned_clean slot c' hc k hk' k' hd
      left := hheld h.left
      right := hheld h.right
      handed := fun c' k r l hl => h.handed c' k r l (suffix_of_cons (by simp) hl) }

/-- A context is reset to its base. -/
theorem Pool.base (h : Pool config s p q) (c : ℕ) :
    Pool config (s.record (SchedulerEvent.based c)) p q := by
  have hsub : ∀ c', dirt c' (s.record (SchedulerEvent.based c)).log = [] ∨
      dirt c' (s.record (SchedulerEvent.based c)).log = dirt c' s.log := by
    intro c'
    rw [dirt_based]
    split
    · exact Or.inl rfl
    · exact Or.inr rfl
  have hnil : ∀ c', dirt c' s.log = [] →
      dirt c' (s.record (SchedulerEvent.based c)).log = [] := by
    intro c' hd
    rcases hsub c' with hs | hs
    · exact hs
    · exact hs.trans hd
  have hheld : ∀ {r : Hold}, r.Valid s → r.Valid (s.record (SchedulerEvent.based c)) := by
    intro r hr
    refine ⟨fun c' slot b hp => ?_, fun c' hp => ?_, hr.2.2⟩
    · obtain ⟨h₁, h₂, h₃, h₄, h₅⟩ := hr.1 c' slot b hp
      exact ⟨h₁, h₂, h₃, h₄, fun hb => hnil c' (h₅ hb)⟩
    · obtain ⟨h₁, h₂, h₃, h₄, h₅⟩ := hr.2.1 c' hp
      exact ⟨h₁, h₂, h₃, h₄, hnil c' h₅⟩
  exact
    { h with
      available_clean := fun c' ha => hnil c' (h.available_clean c' ha)
      dirt_old := fun c' hd => h.dirt_old c' fun hn => hd (hnil c' hn)
      assigned_clean := by
        intro slot c' hc k hk k' hd
        rcases hsub c' with hs | hs
        · rw [hs] at hd
          cases hd
        · rw [hs] at hd
          exact h.assigned_clean slot c' hc k hk k' hd
      left := hheld h.left
      right := hheld h.right
      handed := fun c' k r l hl => h.handed c' k r l (suffix_of_cons (by simp) hl) }

/-- The thread that holds a context has reset it. -/
theorem Pool.based {b : Bool} (h : Pool config s p (Hold.pooled c slot b)) :
    Pool config (s.record (SchedulerEvent.based c)) p (Hold.pooled c slot true) :=
  { h.base c with
    right := by
      refine ⟨?_, nofun, nofun⟩
      intro c' slot' b' hq
      cases hq
      obtain ⟨h₁, h₂, h₃, h₄, _⟩ := (h.base c).right.1 c slot b rfl
      refine ⟨h₁, h₂, h₃, h₄, fun _ => ?_⟩
      rw [dirt_based, if_pos rfl]
    left_apart := fun c' hp => h.left_apart c' hp
    right_apart := fun c' hq => h.right_apart c' hq }

/-- All contexts are forgotten. -/
theorem Pool.forget (h : Pool config s Hold.nothing q) :
    Pool config (s.forgetContexts config) Hold.nothing Hold.nothing where
  sorted := List.Pairwise.nil
  available_ready := nofun
  available_unassigned := nofun
  available_clean := nofun
  kv1 := rfl
  kv2_ne := nofun
  kv2 := fun _ => rfl
  next := h.next
  slots_old := by
    intro slot a ha
    cases slot with
    | kv1 =>
        rw [runtime_of_kv1 (s := s.forgetContexts config) rfl a ha]
        exact h.next
    | kv2 => cases ha
  contexts_old := nofun
  dirt_old := h.dirt_old
  assigned_unique := nofun
  unshared := nofun
  assigned_ready := nofun
  assigned_clean := nofun
  left := ⟨nofun, nofun, nofun⟩
  right := ⟨nofun, nofun, nofun⟩
  left_apart := nofun
  right_apart := nofun
  handed := h.handed

/-- Losing KV2 while it is not there changes only its state. -/
theorem Pool.loseKv2 (h : Pool config s p q)
    (hready : s.managerSlotReady ManagerSlot.kv2 = false) :
    s.loseKv2 = { s with kv2State := Kv2State.notReady } := by
  have h₁ : Function.update s.managerSlots ManagerSlot.kv2 none = s.managerSlots := by
    rw [← h.kv2 hready]
    exact Function.update_eq_self ..
  have h₂ : Function.update s.managerSlotReady ManagerSlot.kv2 false = s.managerSlotReady := by
    rw [← hready]
    exact Function.update_eq_self ..
  rw [CoreScheduler.loseKv2, h₁, h₂]

end CoreScheduler
