/-
**Who owns a native context.**

Between two requests every context that the runtime has returned is either in one slot of one
table and open, or in none and closed once.  During a request this also holds; only the slot of the
request itself may be younger than the last success.

Main definitions:

* `InferenceService.Holds` — a slot of a table holds a context;
* `InferenceService.Owned` — the invariant.

Main results:

* `InferenceService.Owned.release`, `InferenceService.Owned.install`,
  `InferenceService.Owned.commit` — the three changes of a table;
* `InferenceService.Owned.complete` — the step lemma;
* `InferenceService.contexts_owned` — **the tables are bounded, every context is owned once, a
  failing request loses its context, and the oldest slot is evicted**.
-/

import CatAgent.InferenceService

set_option relaxedAutoImplicit false
set_option autoImplicit false

namespace PyDict

variable {κ α : Type*} [DecidableEq κ]

/-- Taking out a key that is present makes the dictionary smaller. -/
theorem length_erase {d : PyDict κ α} {k : κ} {v : α} (h : d.get? k = some v) :
    (d.erase k).entries.length < d.entries.length := by
  have hmem : (k, v) ∈ d.entries := mem_entries_iff.2 h
  refine List.length_filter_lt_length_iff_exists.2 ⟨(k, v), hmem, ?_⟩
  simp

theorem length_erase_le (d : PyDict κ α) (k : κ) :
    (d.erase k).entries.length ≤ d.entries.length := List.length_filter_le _ _

theorem values_erase_sublist (d : PyDict κ α) (k : κ) :
    (d.erase k).values.Sublist d.values := List.filter_sublist.map _

/-- A new key comes last. -/
theorem values_set_of_none {d : PyDict κ α} {k : κ} (v : α) (h : d.get? k = none) :
    (d.set k v).values = d.values ++ [v] := by
  rw [values, entries_set_of_not_mem v (get?_eq_none_iff.1 h), List.map_append]
  rfl

theorem length_set_of_none {d : PyDict κ α} {k : κ} (v : α) (h : d.get? k = none) :
    (d.set k v).entries.length = d.entries.length + 1 := by
  rw [entries_set_of_not_mem v (get?_eq_none_iff.1 h), List.length_append, List.length_singleton]

end PyDict

namespace InferenceService

variable {s : InferenceService} {v w : Bool} {t : PyDict SlotKey Slot} {key : SlotKey} {c : ℕ}
  {f : NativeContext → NativeContext} {slot : Slot} {busy : Option (Bool × SlotKey)}
  {env : RequestEnv} {r : InferenceRequest}

/-! ### Tables and contexts -/

theorem table_setTable (s : InferenceService) (v w : Bool) (t : PyDict SlotKey Slot) :
    (s.setTable v t).table w = if w = v then t else s.table w := by
  cases v <;> cases w <;> rfl

@[simp] theorem table_setTable_self : (s.setTable v t).table v = t := by
  rw [table_setTable, if_pos rfl]

@[simp] theorem contexts_setTable : (s.setTable v t).contexts = s.contexts := by cases v <;> rfl

@[simp] theorem capacity_setTable : (s.setTable v t).capacity w = s.capacity w := by
  cases v <;> rfl

@[simp] theorem clock_setTable : (s.setTable v t).clock = s.clock := by cases v <;> rfl

@[simp] theorem decodes_setTable : (s.setTable v t).decodes = s.decodes := by cases v <;> rfl

@[simp] theorem contexts_tick : s.tick.contexts = s.contexts := rfl

@[simp] theorem table_tick : s.tick.table w = s.table w := rfl

@[simp] theorem table_onContext : (s.onContext f c).table w = s.table w := by cases w <;> rfl

@[simp] theorem capacity_onContext : (s.onContext f c).capacity w = s.capacity w := rfl

theorem contexts_onContext (c c' : ℕ) : (s.onContext f c).contexts[c']? =
    if c = c' then s.contexts[c']?.map f else s.contexts[c']? := by
  rw [onContext, List.getElem?_modify]
  by_cases h : c = c'
  · simp [h]
  · simp [h]

/-- The slot `key` of the table holds the context. -/
def Holds (s : InferenceService) (v : Bool) (key : SlotKey) (c : ℕ) : Prop :=
  ∃ slot, (s.table v).get? key = some slot ∧ slot.context = c

/-- The context is open and in a slot, or closed once and in none. -/
def Accounted (s : InferenceService) (c : ℕ) (context : NativeContext) : Prop :=
  context.lateUses = 0 ∧
    ((context.closes = 0 ∧ ∃ v key, s.Holds v key c) ∨
      (context.closes = 1 ∧ ∀ v key, ¬ s.Holds v key c))

/-- The invariant; `busy` is the slot of the request in progress. -/
structure Owned (busy : Option (Bool × SlotKey)) (s : InferenceService) : Prop where
  capacity_pos : ∀ v, 1 ≤ s.capacity v
  size_le : ∀ v, (s.table v).entries.length ≤ s.capacity v
  unique : ∀ v key v' key' c, s.Holds v key c → s.Holds v' key' c → v = v' ∧ key = key'
  bound : ∀ v key c, s.Holds v key c → c < s.contexts.length
  accounted : ∀ c context, s.contexts[c]? = some context → s.Accounted c context
  ordered : ∀ v, (s.table v).values.Pairwise fun a b => a.usedAt < b.usedAt
  recent : ∀ v key slot, (s.table v).get? key = some slot →
    slot.usedAt < s.clock ∨ slot.usedAt = s.clock ∧ busy = some (v, key)

/-- A request may begin at any time. -/
theorem Owned.begin (hs : s.Owned none) (busy : Option (Bool × SlotKey)) : s.Owned busy :=
  ⟨hs.capacity_pos, hs.size_le, hs.unique, hs.bound, hs.accounted, hs.ordered,
    fun v key slot hslot => (hs.recent v key slot hslot).imp id fun h => by cases h.2⟩

/-- A request that has come to its end is in the past. -/
theorem Owned.tick (hs : s.Owned busy) : s.tick.Owned none :=
  ⟨hs.capacity_pos, hs.size_le, hs.unique, hs.bound, hs.accounted, hs.ordered, by
    intro v key slot hslot
    left
    rcases hs.recent v key slot hslot with h | h
    · exact Nat.lt_succ_of_lt h
    · exact Nat.lt_succ_of_le h.1.le⟩

/-- A change that leaves the slots alone and keeps the account of every context. -/
theorem Owned.onContext (hs : s.Owned busy) (hcloses : ∀ context, (f context).closes = context.closes)
    (hlate : ∀ context, s.contexts[c]? = some context →
      (f context).lateUses = context.lateUses) : (s.onContext f c).Owned busy := by
  refine ⟨hs.capacity_pos, ?_, ?_, ?_, ?_, ?_, ?_⟩
  · intro v
    rw [table_onContext]
    exact hs.size_le v
  · simpa only [Holds, table_onContext] using hs.unique
  · intro v key c' h
    simp only [Holds, table_onContext] at h
    simp only [InferenceService.onContext, List.length_modify]
    exact hs.bound v key c' h
  · intro c' context hcontext
    rw [contexts_onContext] at hcontext
    split_ifs at hcontext with hc
    · obtain ⟨context', hcontext', rfl⟩ := Option.map_eq_some_iff.1 hcontext
      have h := hs.accounted c' context' hcontext'
      subst hc
      simp only [Accounted, Holds, table_onContext, hcloses, hlate context' hcontext']
      exact h
    · have h := hs.accounted c' context hcontext
      simpa only [Accounted, Holds, table_onContext] using h
  · intro v
    rw [table_onContext]
    exact hs.ordered v
  · intro v key slot hslot
    rw [table_onContext] at hslot
    exact hs.recent v key slot hslot

/-- A context that is in a slot may be used. -/
theorem Owned.use (hs : s.Owned busy) (hc : s.Holds v key c) :
    (s.onContext NativeContext.use c).Owned busy := by
  refine hs.onContext (fun _ => rfl) ?_
  intro context hcontext
  rcases (hs.accounted c context hcontext).2 with ⟨hopen, -⟩ | ⟨-, hnone⟩
  · simp only [NativeContext.use, hopen, if_true]
  · exact absurd hc (hnone v key)

theorem holds_erase_iff {c' : ℕ} {key' : SlotKey} :
    (s.setTable v ((s.table v).erase key)).Holds w key' c' ↔
      s.Holds w key' c' ∧ ¬ (w = v ∧ key' = key) := by
  simp only [Holds, table_setTable]
  by_cases hw : w = v
  · subst hw
    by_cases hkey : key = key'
    · subst hkey
      simp
    · have hkey' : key' ≠ key := fun h => hkey h.symm
      simp [PyDict.get?_erase_of_ne _ hkey, hkey']
  · simp [hw]

/-- **A slot is taken out of its table and its context is closed.** -/
theorem Owned.release (hs : s.Owned busy) (hslot : (s.table v).get? key = some slot) :
    ((s.setTable v ((s.table v).erase key)).onContext NativeContext.close slot.context).Owned
      busy := by
  have hholds : s.Holds v key slot.context := ⟨slot, hslot, rfl⟩
  refine ⟨fun w => ?_, ?_, ?_, ?_, ?_, ?_, ?_⟩
  · simpa only [capacity_onContext, capacity_setTable] using hs.capacity_pos w
  · intro w
    simp only [table_onContext, table_setTable, capacity_onContext, capacity_setTable]
    split_ifs with hw
    · subst hw
      exact (PyDict.length_erase_le _ _).trans (hs.size_le w)
    · exact hs.size_le w
  · intro w key₁ w' key₂ c' h h'
    simp only [Holds, table_onContext] at h h'
    exact hs.unique w key₁ w' key₂ c' (holds_erase_iff.1 h).1 (holds_erase_iff.1 h').1
  · intro w key' c' h
    simp only [Holds, table_onContext] at h
    simp only [InferenceService.onContext, List.length_modify, contexts_setTable]
    exact hs.bound w key' c' (holds_erase_iff.1 h).1
  · intro c' context hcontext
    rw [contexts_onContext, contexts_setTable] at hcontext
    simp only [Accounted, Holds, table_onContext]
    split_ifs at hcontext with hc
    · obtain ⟨context', hcontext', rfl⟩ := Option.map_eq_some_iff.1 hcontext
      obtain ⟨hlate, hstate⟩ := hs.accounted c' context' hcontext'
      subst hc
      have hopen : context'.closes = 0 := by
        rcases hstate with h | h
        · exact h.1
        · exact absurd hholds (h.2 v key)
      refine ⟨hlate, Or.inr ⟨by simp only [NativeContext.close, hopen], ?_⟩⟩
      intro w key' h
      obtain ⟨h, hne⟩ := holds_erase_iff.1 h
      exact hne (hs.unique w key' v key _ h hholds)
    · obtain ⟨hlate, hstate⟩ := hs.accounted c' context hcontext
      refine ⟨hlate, hstate.imp ?_ ?_⟩
      · rintro ⟨hopen, w, key', h⟩
        refine ⟨hopen, w, key', holds_erase_iff.2 ⟨h, ?_⟩⟩
        rintro ⟨rfl, rfl⟩
        obtain ⟨slot', hslot', rfl⟩ := h
        exact hc (congrArg Slot.context (Option.some.inj (hslot.symm.trans hslot')))
      · rintro ⟨hclosed, hnone⟩
        exact ⟨hclosed, fun w key' h => hnone w key' (holds_erase_iff.1 h).1⟩
  · intro w
    simp only [table_onContext, table_setTable]
    split_ifs with hw
    · subst hw
      exact (hs.ordered w).sublist (PyDict.values_erase_sublist _ _)
    · exact hs.ordered w
  · intro w key' slot' h
    simp only [table_onContext, table_setTable] at h
    have hold : (s.table w).get? key' = some slot' := by
      split_ifs at h with hw
      · subst hw
        rw [PyDict.get?_erase] at h
        split_ifs at h
        exact h
      · exact h
    simpa only [InferenceService.onContext, clock_setTable] using hs.recent w key' slot' hold

/-- **The slot of the request is written again, as the youngest of its table.** -/
theorem Owned.commit {slot' : Slot} (hs : s.Owned (some (v, key)))
    (hslot : (s.table v).get? key = some slot) (hcontext : slot'.context = slot.context)
    (hused : slot'.usedAt = s.clock) :
    (s.setTable v (((s.table v).erase key).set key slot')).Owned (some (v, key)) := by
  have hnone : ((s.table v).erase key).get? key = none := PyDict.get?_erase_self _ _
  have hget : ∀ key', (((s.table v).erase key).set key slot').get? key' =
      if key = key' then some slot' else (s.table v).get? key' := by
    intro key'
    rw [PyDict.get?_set]
    split_ifs with h
    · rfl
    · exact PyDict.get?_erase_of_ne _ h
  -- The slot stays with its context; only its history and its age are new.
  have hholds : ∀ w key' c', (s.setTable v (((s.table v).erase key).set key slot')).Holds w key' c' ↔
      s.Holds w key' c' := by
    intro w key' c'
    simp only [Holds, table_setTable]
    split_ifs with hw
    · subst hw
      rw [hget]
      split_ifs with h
      · subst h
        simp [hslot, hcontext]
      · rfl
    · rfl
  refine ⟨fun w => ?_, ?_, ?_, ?_, ?_, ?_, ?_⟩
  · simpa only [capacity_setTable] using hs.capacity_pos w
  · intro w
    simp only [table_setTable, capacity_setTable]
    split_ifs with hw
    · subst hw
      rw [PyDict.length_set_of_none _ hnone]
      exact (PyDict.length_erase hslot).trans_le (hs.size_le w)
    · exact hs.size_le w
  · intro w key₁ w' key₂ c' h h'
    exact hs.unique w key₁ w' key₂ c' ((hholds _ _ _).1 h) ((hholds _ _ _).1 h')
  · intro w key' c' h
    rw [contexts_setTable]
    exact hs.bound w key' c' ((hholds _ _ _).1 h)
  · intro c' context h
    rw [contexts_setTable] at h
    simpa only [Accounted, hholds] using hs.accounted c' context h
  · intro w
    simp only [table_setTable]
    split_ifs with hw
    · subst hw
      rw [PyDict.values_set_of_none _ hnone, List.pairwise_append]
      refine ⟨(hs.ordered w).sublist (PyDict.values_erase_sublist _ _), List.pairwise_singleton _ _,
        ?_⟩
      rintro a ha b hb
      rw [List.mem_singleton] at hb
      subst hb
      obtain ⟨key', hkey'⟩ := PyDict.mem_values_iff.1 ha
      rw [PyDict.get?_erase] at hkey'
      split_ifs at hkey' with hne
      rw [hused]
      -- Every other slot is older than the clock, and the one that was not has been taken out.
      rcases hs.recent w key' a hkey' with h | ⟨-, h⟩
      · exact h
      · cases h
        exact absurd rfl hne
    · exact hs.ordered w
  · intro w key' a h
    simp only [table_setTable] at h
    rw [clock_setTable]
    split_ifs at h with hw
    · subst hw
      rw [hget] at h
      split_ifs at h with hkey
      · cases h
        subst hkey
        exact Or.inr ⟨hused, rfl⟩
      · exact hs.recent w key' a h
    · exact hs.recent w key' a h

theorem table_install (s : InferenceService) (r : InferenceRequest) (w : Bool) :
    (s.install r).table w = if w = r.vision then (s.table r.vision).set r.key
      { context := s.contexts.length, history := r.base, usedAt := s.clock } else s.table w :=
  table_setTable s r.vision w _

/-- What is held when a slot has been installed: the old slots, and the new one with the new
context. -/
theorem holds_install (hnone : (s.table r.vision).get? r.key = none) (w : Bool) (key' : SlotKey)
    (c' : ℕ) : (s.install r).Holds w key' c' ↔
      s.Holds w key' c' ∨ w = r.vision ∧ key' = r.key ∧ c' = s.contexts.length := by
  simp only [Holds, table_install]
  split_ifs with hw
  · subst hw
    rw [PyDict.get?_set]
    split_ifs with hkey
    · subst hkey
      simp [hnone, eq_comm]
    · have hkey' : key' ≠ r.key := fun h => hkey h.symm
      simp [hkey']
  · simp [hw]

/-- With no request in work, every slot is older than the clock. -/
theorem Owned.lt_clock (hs : s.Owned none) {a : Slot} (h : (s.table w).get? key = some a) :
    a.usedAt < s.clock := by
  rcases hs.recent w key a h with h | ⟨-, h⟩
  · exact h
  · cases h

/-- **A new context gets a slot of its own.** -/
theorem Owned.install (hs : s.Owned none) (hnone : (s.table r.vision).get? r.key = none)
    (hroom : (s.table r.vision).entries.length < s.capacity r.vision) :
    (s.install r).Owned (some (r.vision, r.key)) := by
  have hcapacity : ∀ w, (s.install r).capacity w = s.capacity w := fun w => capacity_setTable
  have hclock : (s.install r).clock = s.clock := clock_setTable
  have hcontexts : (s.install r).contexts =
      s.contexts ++ [NativeContext.create r.vision r.base] := rfl
  have hholds := holds_install hnone
  refine ⟨fun w => ?_, ?_, ?_, ?_, ?_, ?_, ?_⟩
  · rw [hcapacity]
    exact hs.capacity_pos w
  · intro w
    rw [table_install, hcapacity]
    split_ifs with hw
    · subst hw
      rw [PyDict.length_set_of_none _ hnone]
      exact hroom
    · exact hs.size_le w
  · intro w key₁ w' key₂ c' h h'
    rw [hholds] at h h'
    -- The number of the new context has not been handed out, so no old slot has it.
    rcases h with h | ⟨rfl, rfl, rfl⟩
    · rcases h' with h' | ⟨-, -, rfl⟩
      · exact hs.unique w key₁ w' key₂ c' h h'
      · exact absurd (hs.bound w key₁ _ h) (lt_irrefl _)
    · rcases h' with h' | ⟨rfl, rfl, -⟩
      · exact absurd (hs.bound w' key₂ _ h') (lt_irrefl _)
      · exact ⟨rfl, rfl⟩
  · intro w key' c' h
    rw [hcontexts, List.length_append, List.length_singleton]
    rcases (hholds _ _ _).1 h with h | ⟨-, -, rfl⟩
    · exact Nat.lt_succ_of_lt (hs.bound w key' c' h)
    · exact Nat.lt_succ_self _
  · intro c' context h
    rw [hcontexts] at h
    rcases Nat.lt_or_ge c' s.contexts.length with hlt | hge
    · rw [List.getElem?_append_left hlt] at h
      obtain ⟨hlate, hstate⟩ := hs.accounted c' context h
      refine ⟨hlate, hstate.imp ?_ ?_⟩
      · rintro ⟨hopen, w, key', hw⟩
        exact ⟨hopen, w, key', (hholds _ _ _).2 (Or.inl hw)⟩
      · rintro ⟨hclosed, hfree⟩
        refine ⟨hclosed, fun w key' hw => ?_⟩
        rcases (hholds _ _ _).1 hw with hw | ⟨-, -, rfl⟩
        · exact hfree w key' hw
        · exact absurd hlt (lt_irrefl _)
    · rw [List.getElem?_append_right hge] at h
      cases hzero : c' - s.contexts.length with
      | zero =>
          rw [hzero] at h
          cases h
          exact ⟨rfl, Or.inl ⟨rfl, r.vision, r.key, (hholds _ _ _).2
            (Or.inr ⟨rfl, rfl, by omega⟩)⟩⟩
      | succ n =>
          rw [hzero] at h
          cases h
  · intro w
    rw [table_install]
    split_ifs with hw
    · subst hw
      rw [PyDict.values_set_of_none _ hnone, List.pairwise_append]
      refine ⟨hs.ordered _, List.pairwise_singleton _ _, ?_⟩
      intro a ha b hb
      rw [List.mem_singleton] at hb
      subst hb
      obtain ⟨key', hkey'⟩ := PyDict.mem_values_iff.1 ha
      exact hs.lt_clock hkey'
    · exact hs.ordered w
  · intro w key' a h
    rw [table_install] at h
    rw [hclock]
    split_ifs at h with hw
    · subst hw
      rw [PyDict.get?_set] at h
      split_ifs at h with hkey
      · cases h
        subst hkey
        exact Or.inr ⟨rfl, rfl⟩
      · exact Or.inl (hs.lt_clock h)
    · exact Or.inl (hs.lt_clock h)

/-! ### Requests -/

/-- The service without the oldest slot of the table, if a new one needs the place. -/
def cleared (r : InferenceRequest) (s : InferenceService) : InferenceService :=
  if s.capacity r.vision ≤ (s.table r.vision).entries.length then s.evict r.vision else s

theorem Owned.evict (hs : s.Owned busy) (v : Bool) : (s.evict v).Owned busy := by
  unfold InferenceService.evict
  split
  · exact hs
  · next key old rest hentries =>
      exact hs.release (PyDict.mem_entries_iff.1 (by rw [hentries]; exact List.mem_cons_self ..))

theorem Owned.cleared (hs : s.Owned busy) : (s.cleared r).Owned busy := by
  unfold InferenceService.cleared
  split_ifs
  · exact hs.evict r.vision
  · exact hs

/-- The eviction takes the first slot out of the table. -/
theorem table_evict {rest : List (SlotKey × Slot)} (hentries : (s.table v).entries = (key, slot) :: rest) :
    (s.evict v).table w = if w = v then (s.table v).erase key else s.table w := by
  unfold InferenceService.evict
  rw [hentries]
  simp only [table_onContext, table_setTable]

@[simp] theorem capacity_evict : (s.evict v).capacity w = s.capacity w := by
  unfold InferenceService.evict
  cases (s.table v).entries with
  | nil => rfl
  | cons e rest => simp only [capacity_onContext, capacity_setTable]

@[simp] theorem length_contexts_evict : (s.evict v).contexts.length = s.contexts.length := by
  unfold InferenceService.evict
  cases (s.table v).entries with
  | nil => rfl
  | cons e rest => simp only [InferenceService.onContext, List.length_modify, contexts_setTable]

theorem length_contexts_cleared : (s.cleared r).contexts.length = s.contexts.length := by
  unfold InferenceService.cleared
  split_ifs
  · exact length_contexts_evict
  · rfl

/-- After the eviction there is room for one slot more. -/
theorem cleared_room (hs : s.Owned busy) :
    ((s.cleared r).table r.vision).entries.length < (s.cleared r).capacity r.vision := by
  unfold InferenceService.cleared
  split_ifs with hfull
  · cases hentries : (s.table r.vision).entries with
    | nil =>
        rw [hentries] at hfull
        exact absurd hfull (Nat.not_le.2 (hs.capacity_pos r.vision))
    | cons e rest =>
        obtain ⟨key, old⟩ := e
        have hget : (s.table r.vision).get? key = some old :=
          PyDict.mem_entries_iff.1 (by rw [hentries]; exact List.mem_cons_self ..)
        rw [table_evict hentries, if_pos rfl, capacity_evict]
        exact (PyDict.length_erase hget).trans_le (hs.size_le r.vision)
  · exact Nat.lt_of_not_le hfull

/-- What is not in the table is not in it after the eviction. -/
theorem get?_cleared_of_none {key' : SlotKey} (h : (s.table w).get? key' = none) :
    ((s.cleared r).table w).get? key' = none := by
  unfold InferenceService.cleared
  split_ifs
  · cases hentries : (s.table r.vision).entries with
    | nil =>
        unfold InferenceService.evict
        rw [hentries]
        exact h
    | cons e rest =>
        rw [table_evict hentries]
        split_ifs with hw
        · subst hw
          rw [PyDict.get?_erase]
          split_ifs
          · rfl
          · exact h
        · exact h
  · exact h

/-- **The choice of a context: a resident one, a new one, or none.** -/
theorem acquire_cases (hs : s.Owned none) :
    (∃ slot, (s.table r.vision).get? r.key = some slot ∧
        s.acquire env r = (Except.ok false, s)) ∨
      (s.table r.vision).get? r.key = none ∧
        ((∃ message, s.acquire env r = (Except.error message, s.cleared r)) ∨
          s.acquire env r = (Except.ok true, (s.cleared r).install r) ∧
            ((s.cleared r).install r).Owned (some (r.vision, r.key))) := by
  unfold InferenceService.acquire
  cases hslot : (s.table r.vision).get? r.key with
  | some slot => exact Or.inl ⟨slot, rfl, rfl⟩
  | none =>
      right
      refine ⟨rfl, ?_⟩
      cases env.create with
      | error message => exact Or.inl ⟨message, rfl⟩
      | ok u =>
          exact Or.inr ⟨rfl, hs.cleared.install (get?_cleared_of_none hslot) (cleared_room hs)⟩

/-- What a request leaves in the tables while it works. -/
structure Kept (s s' : InferenceService) : Prop where
  table : ∀ w, s'.table w = s.table w
  length : s'.contexts.length = s.contexts.length

theorem kept_onContext : s.Kept (s.onContext f c) :=
  ⟨fun _ => table_onContext, by simp only [InferenceService.onContext, List.length_modify]⟩

theorem kept_startDecode {resident : List ChatMessage} : s.Kept (s.startDecode r resident c) :=
  ⟨fun w => (by cases w <;> rfl), by
    simp only [InferenceService.startDecode, InferenceService.onContext, List.length_modify]⟩

theorem Owned.startDecode {resident : List ChatMessage} (hs : s.Owned busy)
    (hc : s.Holds v key c) : (s.startDecode r resident c).Owned busy := by
  obtain ⟨hpos, hsize, hunique, hbound, haccounted, hordered, hrecent⟩ := hs.use hc
  exact ⟨hpos, hsize, hunique, hbound, haccounted, hordered, hrecent⟩

theorem Kept.trans {s' s'' : InferenceService} (h : s.Kept s') (h' : s'.Kept s'') : s.Kept s'' :=
  ⟨fun w => (h'.table w).trans (h.table w), h'.length.trans h.length⟩

/-- **Prefill and decoding use the context of the slot; in the end the slot is written again, or it
is as it was.** -/
theorem work_cases {cold : Bool} {context : NativeContext}
    (hs : s.Owned (some (r.vision, r.key))) (hslot : (s.table r.vision).get? r.key = some slot) :
    (∃ message s', s.work env r cold slot context = (Except.error message, s') ∧
        s'.Owned (some (r.vision, r.key)) ∧ s.Kept s') ∨
      ∃ completion s' slot', s.work env r cold slot context = (Except.ok completion,
          s'.setTable r.vision (((s'.table r.vision).erase r.key).set r.key slot')) ∧
        s'.Owned (some (r.vision, r.key)) ∧ s.Kept s' ∧ slot'.context = slot.context ∧
        slot'.usedAt = s'.clock := by
  have hholds : ∀ {s' : InferenceService}, s.Kept s' → s'.Holds r.vision r.key slot.context :=
    fun hkept => ⟨slot, by rw [hkept.table]; exact hslot, rfl⟩
  have hkept₁ : s.Kept (s.onContext NativeContext.use slot.context) := kept_onContext
  have hs₁ := hs.use (hholds ⟨fun _ => rfl, rfl⟩)
  unfold InferenceService.work
  simp only
  generalize hfirst : s.onContext NativeContext.use slot.context = s₁ at hkept₁ hs₁ ⊢
  clear hfirst
  cases context.prefill r.earlier r.last (!cold && decide (r.earlier = slot.history)) with
  | none => exact Or.inl ⟨_, s₁, rfl, hs₁, hkept₁⟩
  | some resident =>
      cases env.prefill with
      | error message => exact Or.inl ⟨_, s₁, rfl, hs₁, hkept₁⟩
      | ok counts =>
          obtain ⟨cached, evaluated⟩ := counts
          simp only
          generalize (if cold = true then evaluated + cached else evaluated) = evaluated'
          generalize (if cold = true then 0 else cached) = cached'
          by_cases hfull : s₁.maxNumTokens ≤ cached' + evaluated'
          · rw [if_pos hfull]
            exact Or.inl ⟨_, s₁, rfl, hs₁, hkept₁⟩
          rw [if_neg hfull]
          have hs₂ : (s₁.startDecode r resident slot.context).Owned (some (r.vision, r.key)) :=
            hs₁.startDecode (hholds hkept₁)
          have hkept₂ : s.Kept (s₁.startDecode r resident slot.context) :=
            hkept₁.trans kept_startDecode
          generalize s₁.startDecode r resident slot.context = s₂ at hkept₂ hs₂ ⊢
          cases collect env.stream env.pieces [] false with
          | error message => exact Or.inl ⟨_, s₂, rfl, hs₂, hkept₂⟩
          | ok collected =>
              cases env.decodeError with
              | some message => exact Or.inl ⟨_, s₂, rfl, hs₂, hkept₂⟩
              | none =>
                  have hs₃ := hs₂.use (hholds hkept₂)
                  have hkept₃ : s.Kept (s₂.onContext NativeContext.use slot.context) :=
                    hkept₂.trans kept_onContext
                  simp only
                  generalize s₂.onContext NativeContext.use slot.context = s₃ at hkept₃ hs₃ ⊢
                  split
                  · exact Or.inl ⟨_, s₃, rfl, hs₃, hkept₃⟩
                  · next completion _ =>
                      refine Or.inr ⟨completion, _, _, rfl, ?_, hkept₃.trans kept_onContext, rfl, rfl⟩
                      exact hs₃.onContext (fun _ => rfl) fun _ _ => rfl

/-- The service and the slot with which a request works: those that are there, or new ones. -/
def Chosen (r : InferenceRequest) (s base : InferenceService) (slot : Slot) : Prop :=
  (s.table r.vision).get? r.key = some slot ∧ base = s ∨
    (s.table r.vision).get? r.key = none ∧ base = (s.cleared r).install r ∧
      slot = { context := s.contexts.length, history := r.base, usedAt := (s.cleared r).clock }

theorem Chosen.get? {base : InferenceService} (h : Chosen r s base slot) :
    (base.table r.vision).get? r.key = some slot := by
  rcases h with ⟨hslot, rfl⟩ | ⟨-, rfl, rfl⟩
  · exact hslot
  · have htable : ((s.cleared r).install r).table r.vision = ((s.cleared r).table r.vision).set r.key
        { context := (s.cleared r).contexts.length, history := r.base
          usedAt := (s.cleared r).clock } := table_setTable_self (s := s.cleared r)
    rw [htable, PyDict.get?_set_self, length_contexts_cleared]

/-- **A request gets no context, or it works with one and returns or fails.** -/
theorem attempt_cases (hs : s.Owned none) :
    ((s.table r.vision).get? r.key = none ∧
        ∃ message, s.attempt env r = (Except.error message, s.cleared r)) ∨
      ∃ base slot, Chosen r s base slot ∧
        ((∃ message s', s.attempt env r = (Except.error message, s') ∧
            s'.Owned (some (r.vision, r.key)) ∧ base.Kept s') ∨
          ∃ completion s' slot', s.attempt env r = (Except.ok completion,
              s'.setTable r.vision (((s'.table r.vision).erase r.key).set r.key slot')) ∧
            s'.Owned (some (r.vision, r.key)) ∧ base.Kept s' ∧ slot'.context = slot.context ∧
            slot'.usedAt = s'.clock) := by
  have hwork : ∀ cold base slot, Chosen r s base slot → base.Owned (some (r.vision, r.key)) →
      s.acquire env r = (Except.ok cold, base) →
        ((∃ message s', s.attempt env r = (Except.error message, s') ∧
            s'.Owned (some (r.vision, r.key)) ∧ base.Kept s') ∨
          ∃ completion s' slot', s.attempt env r = (Except.ok completion,
              s'.setTable r.vision (((s'.table r.vision).erase r.key).set r.key slot')) ∧
            s'.Owned (some (r.vision, r.key)) ∧ base.Kept s' ∧ slot'.context = slot.context ∧
            slot'.usedAt = s'.clock) := by
    intro cold base slot hchosen hbase hacquire
    have hget := hchosen.get?
    have hlt := hbase.bound r.vision r.key slot.context ⟨slot, hget, rfl⟩
    obtain ⟨context, hcontext⟩ : ∃ context, base.contexts[slot.context]? = some context :=
      ⟨_, List.getElem?_eq_getElem hlt⟩
    have hattempt : s.attempt env r = base.work env r cold slot context := by
      simp only [InferenceService.attempt, hacquire, hget, hcontext]
    rw [hattempt]
    exact work_cases hbase hget
  rcases @acquire_cases s env r hs with
    ⟨slot, hslot, hacquire⟩ | ⟨hnone, ⟨message, hacquire⟩ | ⟨hacquire, hinstalled⟩⟩
  · exact Or.inr ⟨s, slot, Or.inl ⟨hslot, rfl⟩,
      hwork _ _ _ (Or.inl ⟨hslot, rfl⟩) (hs.begin _) hacquire⟩
  · exact Or.inl ⟨hnone, message, by simp only [InferenceService.attempt, hacquire]⟩
  · exact Or.inr ⟨_, _, Or.inr ⟨hnone, rfl, rfl⟩,
      hwork _ _ _ (Or.inr ⟨hnone, rfl, rfl⟩) hinstalled hacquire⟩

theorem Owned.discard (hs : s.Owned busy) : (s.discard v key).Owned busy := by
  unfold InferenceService.discard
  split
  · exact hs
  · next broken hbroken => exact hs.release hbroken

/-- **Every request keeps the account.** -/
theorem Owned.complete {parsed : Except PyStr InferenceRequest} (hs : s.Owned none) :
    (s.complete env parsed).2.Owned none := by
  unfold InferenceService.complete
  cases parsed with
  | error message => exact hs
  | ok r =>
      rcases @attempt_cases s env r hs with ⟨-, message, h⟩ | ⟨base, slot, hchosen, h⟩
      · simp only [h]
        exact hs.cleared.discard.tick
      · rcases h with ⟨message, s', h, hs', -⟩ |
          ⟨completion, s', slot', h, hs', hkept, hcontext, hused⟩
        · simp only [h]
          exact hs'.discard.tick
        · simp only [h]
          exact (hs'.commit (by rw [hkept.table]; exact hchosen.get?) hcontext hused).tick

/-- A failing request leaves no slot under its key, and its context is closed. -/
theorem complete_error {s' : InferenceService} {message : PyStr} (hs : s.Owned none)
    (h : s.complete env (Except.ok r) = (Except.error message, s')) :
    (s'.table r.vision).get? r.key = none ∧
      ∀ c context, s'.contexts[c]? = some context →
        s.Holds r.vision r.key c ∨ s.contexts.length ≤ c → context.closes = 1 := by
  have howned : s'.Owned none := by
    have hcomplete := @Owned.complete s env (Except.ok r) hs
    rwa [h] at hcomplete
  unfold InferenceService.complete at h
  -- The request fails before it has a slot, or while it works in one.
  rcases @attempt_cases s env r hs with ⟨hnone, m, hm⟩ | ⟨base, slot, hchosen, hm⟩
  · simp only [hm] at h
    cases h
    have hcleared := get?_cleared_of_none (r := r) hnone
    have hdiscard : (s.cleared r).discard r.vision r.key = s.cleared r := by
      simp only [InferenceService.discard, hcleared]
    refine ⟨?_, ?_⟩
    · rw [hdiscard]
      exact hcleared
    · rintro c context hcontext (⟨slot, hslot, -⟩ | hge)
      all_goals rw [contexts_tick] at hcontext
      · rw [hnone] at hslot
        cases hslot
      · rw [hdiscard] at hcontext
        have hlt := (List.getElem?_eq_some_iff.1 hcontext).1
        rw [length_contexts_cleared] at hlt
        exact absurd hge (Nat.not_le.2 hlt)
  · rcases hm with ⟨m, s₁, hm, hs₁, hkept⟩ | ⟨completion, s₁, slot', hm, -⟩
    · simp only [hm] at h
      cases h
      have hget : (s₁.table r.vision).get? r.key = some slot := by
        rw [hkept.table]
        exact hchosen.get?
      have hdiscard : s₁.discard r.vision r.key = (s₁.setTable r.vision
          ((s₁.table r.vision).erase r.key)).onContext NativeContext.close slot.context := by
        simp only [InferenceService.discard, hget]
      rw [hdiscard] at howned ⊢
      refine ⟨?_, ?_⟩
      · have htable : ((s₁.setTable r.vision ((s₁.table r.vision).erase r.key)).onContext
            NativeContext.close slot.context).table r.vision = (s₁.table r.vision).erase r.key := by
          rw [table_onContext, table_setTable_self]
        exact (congrArg (fun t => PyDict.get? t r.key) htable).trans (PyDict.get?_erase_self _ _)
      · intro c context hcontext hc
        rw [contexts_tick] at hcontext
        -- The context of the slot is the one that was held under the key, or the new one.
        have hslot : c = slot.context := by
          rcases hchosen with ⟨hslot, rfl⟩ | ⟨hnone, rfl, rfl⟩
          · rcases hc with ⟨slot', hslot', rfl⟩ | hge
            · rw [hslot] at hslot'
              cases hslot'
              rfl
            · have hlt := (List.getElem?_eq_some_iff.1 hcontext).1
              simp only [InferenceService.onContext, List.length_modify, contexts_setTable,
                hkept.length] at hlt
              exact absurd hge (Nat.not_le.2 hlt)
          · rcases hc with ⟨slot', hslot', -⟩ | hge
            · rw [hnone] at hslot'
              cases hslot'
            · have hlt := (List.getElem?_eq_some_iff.1 hcontext).1
              simp only [InferenceService.onContext, List.length_modify, contexts_setTable,
                hkept.length, InferenceService.install, List.length_append,
                List.length_singleton, length_contexts_cleared] at hlt
              exact Nat.le_antisymm (Nat.le_of_lt_succ hlt) hge
        have haccounted := (howned.accounted c context hcontext).2
        rw [contexts_onContext, if_pos hslot.symm] at hcontext
        obtain ⟨context', -, rfl⟩ := Option.map_eq_some_iff.1 hcontext
        rcases haccounted with ⟨hzero, -⟩ | ⟨hone, -⟩
        · exact absurd hzero (Nat.succ_ne_zero _)
        · exact hone
    · simp only [hm] at h
      cases h

/-! ### Eviction -/

/-- Requests leave the other slots where they are, the evicted one apart. -/
theorem get?_complete_of_ne {key' : SlotKey} (hs : s.Owned none) (hkey : key' ≠ r.key) :
    ((s.complete env (Except.ok r)).2.table r.vision).get? key' =
        (s.table r.vision).get? key' ∨
      (s.table r.vision).get? r.key = none ∧
        ((s.complete env (Except.ok r)).2.table r.vision).get? key' =
          ((s.cleared r).table r.vision).get? key' := by
  have hdiscard : ∀ s' : InferenceService,
      ((s'.discard r.vision r.key).table r.vision).get? key' =
        (s'.table r.vision).get? key' := by
    intro s'
    unfold InferenceService.discard
    split
    · rfl
    · rw [table_onContext, table_setTable_self, PyDict.get?_erase_of_ne _ hkey.symm]
  have hcommit : ∀ (s' : InferenceService) slot',
      ((s'.setTable r.vision (((s'.table r.vision).erase r.key).set r.key slot')).table
        r.vision).get? key' = (s'.table r.vision).get? key' := by
    intro s' slot'
    rw [table_setTable_self, PyDict.get?_set_of_ne _ _ hkey.symm,
      PyDict.get?_erase_of_ne _ hkey.symm]
  have hbase : ∀ base slot, Chosen r s base slot →
      (base.table r.vision).get? key' = (s.table r.vision).get? key' ∨
        (s.table r.vision).get? r.key = none ∧
          (base.table r.vision).get? key' = ((s.cleared r).table r.vision).get? key' := by
    rintro base slot (⟨-, rfl⟩ | ⟨hnone, rfl, -⟩)
    · exact Or.inl rfl
    · refine Or.inr ⟨hnone, ?_⟩
      have htable : ((s.cleared r).install r).table r.vision =
          ((s.cleared r).table r.vision).set r.key
            { context := (s.cleared r).contexts.length, history := r.base
              usedAt := (s.cleared r).clock } := table_setTable_self (s := s.cleared r)
      rw [htable, PyDict.get?_set_of_ne _ _ hkey.symm]
  unfold InferenceService.complete
  rcases @attempt_cases s env r hs with ⟨hnone, m, hm⟩ | ⟨base, slot, hchosen, hm⟩
  · simp only [hm]
    exact Or.inr ⟨hnone, hdiscard _⟩
  · rcases hm with ⟨m, s₁, hm, -, hkept⟩ | ⟨completion, s₁, slot', hm, -, hkept, -⟩
    · simp only [hm]
      rw [table_tick, hdiscard, hkept.table]
      exact hbase base slot hchosen
    · simp only [hm]
      rw [table_tick, hcommit, hkept.table]
      exact hbase base slot hchosen

/-- **The slot that a request evicts is the one whose last success is the oldest.** -/
theorem evicted_oldest {key' : SlotKey} {victim : Slot} (hs : s.Owned none) (hkey : key' ≠ r.key)
    (hvictim : (s.table r.vision).get? key' = some victim)
    (hgone : ((s.complete env (Except.ok r)).2.table r.vision).get? key' = none) :
    ∀ key'' slot, (s.table r.vision).get? key'' = some slot → victim.usedAt ≤ slot.usedAt := by
  rcases @get?_complete_of_ne s env r key' hs hkey with h | ⟨-, h⟩
  · rw [hgone, hvictim] at h
    cases h
  rw [hgone] at h
  unfold InferenceService.cleared at h
  split_ifs at h with hfull
  · cases hentries : (s.table r.vision).entries with
    | nil =>
        have hmem := PyDict.mem_entries_iff.2 hvictim
        rw [hentries] at hmem
        cases hmem
    | cons e rest =>
        obtain ⟨key, oldest⟩ := e
        rw [table_evict hentries, if_pos rfl, PyDict.get?_erase, hvictim] at h
        have hhead : (s.table r.vision).get? key = some oldest :=
          PyDict.mem_entries_iff.1 (by rw [hentries]; exact List.mem_cons_self ..)
        split_ifs at h with hsame
        subst hsame
        cases hhead.symm.trans hvictim
        intro key'' slot hslot
        have hmem := PyDict.mem_values_of_get? hslot
        have hordered := hs.ordered r.vision
        rw [PyDict.values, hentries, List.map_cons] at hmem hordered
        rcases List.mem_cons.1 hmem with rfl | hmem
        · exact le_rfl
        · exact (List.rel_of_pairwise_cons hordered hmem).le
  · rw [hvictim] at h
    cases h

/-! ### The end of the service -/

/-- Closing a list of slots closes their contexts, once each. -/
theorem contexts_closeAll {l : List Slot} (hl : (l.map Slot.context).Nodup) (c : ℕ) :
    (s.closeAll l).contexts[c]? =
      if c ∈ l.map Slot.context then s.contexts[c]?.map NativeContext.close
      else s.contexts[c]? := by
  induction l generalizing s with
  | nil => rfl
  | cons slot l ih =>
      rw [List.map_cons, List.nodup_cons] at hl
      have hstep : s.closeAll (slot :: l) =
          (s.onContext NativeContext.close slot.context).closeAll l := rfl
      rw [hstep, ih hl.2, contexts_onContext, List.map_cons]
      by_cases hc : slot.context = c
      · subst hc
        rw [if_neg hl.1, if_pos rfl, if_pos (List.mem_cons_self ..)]
      · have hc' : c ≠ slot.context := fun h => hc h.symm
        simp only [hc, if_false, List.mem_cons, hc', false_or]

theorem limits_closeAll (l : List Slot) :
    (s.closeAll l).maxContexts = s.maxContexts ∧
      (s.closeAll l).maxVisionContexts = s.maxVisionContexts := by
  induction l generalizing s with
  | nil => exact ⟨rfl, rfl⟩
  | cons slot l ih => exact ih (s := s.onContext NativeContext.close slot.context)

/-- No two slots hold the same context. -/
theorem Owned.nodup_contexts (hs : s.Owned busy) :
    ((s.slots.values ++ s.visionSlots.values).map Slot.context).Nodup := by
  have hinj : ∀ v, ((s.table v).values.map Slot.context).Nodup := by
    intro v
    rw [PyDict.values, List.map_map]
    refine List.Nodup.map_on ?_ (List.Nodup.of_map _ (s.table v).nodup_keys)
    rintro ⟨key, slot⟩ hmem ⟨key', slot'⟩ hmem' heq
    have hslot := PyDict.mem_entries_iff.1 hmem
    have hslot' := PyDict.mem_entries_iff.1 hmem'
    have hkey := (hs.unique v key v key' _ ⟨slot, hslot, rfl⟩ ⟨slot', hslot', heq.symm⟩).2
    subst hkey
    rw [Option.some.inj (hslot.symm.trans hslot')]
  rw [List.map_append, List.nodup_append]
  refine ⟨hinj false, hinj true, ?_⟩
  intro a ha b hb hab
  obtain ⟨slot, hslot, rfl⟩ := List.mem_map.1 ha
  obtain ⟨slot', hslot', rfl⟩ := List.mem_map.1 hb
  obtain ⟨key, hkey⟩ := PyDict.mem_values_iff.1 hslot
  obtain ⟨key', hkey'⟩ := PyDict.mem_values_iff.1 hslot'
  have h := (hs.unique false key true key' slot.context ⟨slot, hkey, rfl⟩
    ⟨slot', hkey', hab.symm⟩).1
  cases h

/-- A context is held exactly if one of the slots to be closed holds it. -/
theorem mem_contexts_iff : c ∈ (s.slots.values ++ s.visionSlots.values).map Slot.context ↔
    ∃ v key, s.Holds v key c := by
  simp only [List.map_append, List.mem_append, List.mem_map, PyDict.mem_values_iff]
  constructor
  · rintro (⟨slot, ⟨key, h⟩, rfl⟩ | ⟨slot, ⟨key, h⟩, rfl⟩)
    · exact ⟨false, key, slot, h, rfl⟩
    · exact ⟨true, key, slot, h, rfl⟩
  · rintro ⟨v, key, slot, h, rfl⟩
    cases v with
    | false => exact Or.inl ⟨slot, ⟨key, h⟩, rfl⟩
    | true => exact Or.inr ⟨slot, ⟨key, h⟩, rfl⟩

/-- **The end of the service closes every context that is still open, once.** -/
theorem contexts_close (hs : s.Owned none) {context : NativeContext}
    (hcontext : s.close.contexts[c]? = some context) :
    context.closes = 1 ∧ context.lateUses = 0 := by
  have hcontexts : s.close.contexts[c]? =
      (s.closeAll (s.slots.values ++ s.visionSlots.values)).contexts[c]? := rfl
  rw [hcontexts, contexts_closeAll hs.nodup_contexts] at hcontext
  split_ifs at hcontext with hmem
  · obtain ⟨context', hcontext', rfl⟩ := Option.map_eq_some_iff.1 hcontext
    obtain ⟨v, key, hholds⟩ := mem_contexts_iff.1 hmem
    obtain ⟨hlate, hstate⟩ := hs.accounted c context' hcontext'
    rcases hstate with ⟨hopen, -⟩ | ⟨-, hnone⟩
    · exact ⟨congrArg (· + 1) hopen, hlate⟩
    · exact absurd hholds (hnone v key)
  · obtain ⟨hlate, hstate⟩ := hs.accounted c context hcontext
    rcases hstate with ⟨-, v, key, hholds⟩ | ⟨hclosed, -⟩
    · exact absurd (mem_contexts_iff.2 ⟨v, key, hholds⟩) hmem
    · exact ⟨hclosed, hlate⟩

theorem Owned.close (hs : s.Owned none) : s.close.Owned none := by
  have htable : ∀ w, s.close.table w = PyDict.empty := fun w => by cases w <;> rfl
  have hempty : ∀ w key c, ¬ s.close.Holds w key c := by
    rintro w key c ⟨slot, hslot, -⟩
    rw [htable, PyDict.get?_empty] at hslot
    cases hslot
  have hcapacity : ∀ w, s.close.capacity w = s.capacity w := by
    intro w
    cases w with
    | false => exact (limits_closeAll _).1
    | true => exact (limits_closeAll _).2
  refine ⟨fun w => ?_, fun w => ?_, ?_, ?_, ?_, fun w => ?_, ?_⟩
  · rw [hcapacity]
    exact hs.capacity_pos w
  · rw [htable]
    exact Nat.zero_le _
  · intro v key v' key' c h
    exact absurd h (hempty v key c)
  · intro v key c h
    exact absurd h (hempty v key c)
  · intro c context hcontext
    obtain ⟨hclosed, hlate⟩ := contexts_close hs hcontext
    exact ⟨hlate, Or.inr ⟨hclosed, fun w key => hempty w key c⟩⟩
  · rw [htable]
    exact List.Pairwise.nil
  · intro v key slot hslot
    rw [htable, PyDict.get?_empty] at hslot
    cases hslot

/-- **The account is right in every reachable state.** -/
theorem owned_of_reachable (h : machine.Reachable s) : s.Owned none := by
  refine h.invariant (I := Owned none) ?_ ?_
  · rintro s ⟨htext, hvision, hslots, hvisionSlots, hcontexts, -, -⟩
    have htable : ∀ w, s.table w = PyDict.empty := by
      intro w
      cases w with
      | false => exact hslots
      | true => exact hvisionSlots
    have hempty : ∀ w key c, ¬ s.Holds w key c := by
      rintro w key c ⟨slot, hslot, -⟩
      rw [htable, PyDict.get?_empty] at hslot
      cases hslot
    refine ⟨fun w => ?_, fun w => ?_, ?_, ?_, ?_, fun w => ?_, ?_⟩
    · cases w with
      | false => exact htext
      | true => exact hvision
    · rw [htable]
      exact Nat.zero_le _
    · intro v key v' key' c h
      exact absurd h (hempty v key c)
    · intro v key c h
      exact absurd h (hempty v key c)
    · intro c context hcontext
      rw [hcontexts] at hcontext
      cases hcontext
    · rw [htable]
      exact List.Pairwise.nil
    · intro v key slot hslot
      rw [htable, PyDict.get?_empty] at hslot
      cases hslot
  · intro s i _ hs
    cases i with
    | complete env parsed => exact hs.complete
    | close => exact hs.close

/-- **The tables are bounded, also while a request holds the lock; every context that the runtime
has returned is in exactly one slot and open, or in none and closed once, and none has been used
after it was closed; a failing request loses its context; what a request evicts is the slot of its
table whose last success is the oldest; and the end of the service closes all contexts once.** -/
theorem contexts_owned (h : machine.Reachable s) :
    (s.slots.entries.length ≤ s.maxContexts ∧
      s.visionSlots.entries.length ≤ s.maxVisionContexts) ∧
    (∀ env r, (s.acquire env r).2.slots.entries.length ≤ (s.acquire env r).2.maxContexts ∧
      (s.acquire env r).2.visionSlots.entries.length ≤ (s.acquire env r).2.maxVisionContexts) ∧
    (∀ c context, s.contexts[c]? = some context → context.lateUses = 0 ∧
      ((context.closes = 0 ∧ ∃! p : Bool × SlotKey, s.Holds p.1 p.2 c) ∨
        (context.closes = 1 ∧ ∀ v key, ¬ s.Holds v key c))) ∧
    (∀ env r message s', s.complete env (Except.ok r) = (Except.error message, s') →
      (s'.table r.vision).get? r.key = none ∧
        ∀ c context, s'.contexts[c]? = some context →
          s.Holds r.vision r.key c ∨ s.contexts.length ≤ c → context.closes = 1) ∧
    (∀ env r key victim, key ≠ r.key → (s.table r.vision).get? key = some victim →
      ((s.complete env (Except.ok r)).2.table r.vision).get? key = none →
        ∀ key' slot, (s.table r.vision).get? key' = some slot → victim.usedAt ≤ slot.usedAt) ∧
    ∀ (c : ℕ) (context : NativeContext), s.close.contexts[c]? = some context →
      context.closes = 1 ∧ context.lateUses = 0 := by
  have hs := owned_of_reachable h
  refine ⟨⟨hs.size_le false, hs.size_le true⟩, ?_, ?_, fun env r message s' => complete_error hs,
    fun env r key victim => evicted_oldest hs, fun c context => contexts_close hs⟩
  · intro env r
    have howned : ∃ busy, (s.acquire env r).2.Owned busy := by
      rcases @acquire_cases s env r hs with
        ⟨slot, -, hacquire⟩ | ⟨-, ⟨message, hacquire⟩ | ⟨hacquire, hinstalled⟩⟩
      · rw [hacquire]
        exact ⟨none, hs⟩
      · rw [hacquire]
        exact ⟨none, hs.cleared⟩
      · rw [hacquire]
        exact ⟨_, hinstalled⟩
    obtain ⟨busy, howned⟩ := howned
    exact ⟨howned.size_le false, howned.size_le true⟩
  · intro c context hcontext
    obtain ⟨hlate, hstate⟩ := hs.accounted c context hcontext
    refine ⟨hlate, hstate.imp ?_ id⟩
    rintro ⟨hopen, v, key, hholds⟩
    refine ⟨hopen, (v, key), hholds, ?_⟩
    rintro ⟨v', key'⟩ hholds'
    obtain ⟨rfl, rfl⟩ := hs.unique v key v' key' c hholds hholds'
    rfl

/-- A service with room for one text context. -/
def sample : InferenceService where
  maxContexts := 1
  maxVisionContexts := 1
  maxNumTokens := 100
  slots := PyDict.empty
  visionSlots := PyDict.empty
  contexts := []
  clock := 0
  decodes := []

/-- Everything succeeds; the reply has the given number of tokens. -/
def quietEnv (tokens : ℕ) : RequestEnv where
  create := Except.ok ()
  prefill := Except.ok (5, 1)
  pieces := [("x", EmitOutcome.delivered)]
  decodeError := none
  finish := Except.ok tokens
  visionCounts := (0, 0)
  stream := false

/-- A question under a system prompt. -/
def prompted (prompt : String) : InferenceRequest where
  earlier := [{ role := ChatRole.system, content := ChatContent.text prompt }]
  last := { role := ChatRole.user, content := ChatContent.text "hi" }
  options := { sampler := [], maxOutputTokens := 10 }
  last_user := rfl
  system_first := fun _ h => by cases h

/-- Two questions under different prompts. -/
def twoPrompts : List Call :=
  [Call.complete (quietEnv 1) (Except.ok (prompted "a")),
    Call.complete (quietEnv 1) (Except.ok (prompted "b"))]

theorem reachable_sample (l : List Call) : machine.Reachable (machine.exec sample l) :=
  Machine.Reachable.exec (m := machine)
    (Machine.Reach.of_init ⟨le_rfl, le_rfl, rfl, rfl, rfl, rfl, rfl⟩) l

theorem contexts_owned_twoPrompts :
    (machine.exec sample twoPrompts).contexts.map NativeContext.closes = [1, 0] ∧
      (machine.exec sample twoPrompts).slots.entries.length ≤ 1 :=
  ⟨by decide, (contexts_owned (reachable_sample twoPrompts)).1.1⟩

end InferenceService
