/-
**Insertion-ordered dictionaries.**

A Python `dict` is a finite map that also remembers the order in which its keys were first
written: assigning to a key that is present keeps its place, assigning to a new key appends it, and
every iteration follows that order.  A table kept in such a dictionary is at once a map and a
queue, and both readings are used below.

The dictionary is a list of entries with a proof that no key occurs twice, so that looking a key up
and meeting it in an iteration are the same thing (`PyDict.mem_entries_iff`).

Main definitions:

* `PyDict`, `PyDict.get?`, `PyDict.set`, `PyDict.erase`, `PyDict.modify`, `PyDict.mapVal`,
  `PyDict.filter` — the dictionary and its operations;
* `PyDict.Same` — equality of dictionaries as Python compares them, which ignores the order;
* `PyDict.Before` — one key stands before another in the iteration order;
* `PyDict.ofList`, `PyDict.sorted` — a dictionary from its items, and its items by key.

Main results:

* `PyDict.get?_set`, `PyDict.get?_erase`, `PyDict.get?_modify`, `PyDict.get?_mapVal`,
  `PyDict.get?_filter_eq_some` — each operation, read through `get?`;
* `PyDict.get?_ofList_sorted` — sorting the items and reading them back gives the same map;
* `PyDict.Before.of_sublist`, `PyDict.Before.of_set_new` — the operations keep the order of the
  keys that stay, and a new key comes last.
-/

import Mathlib.Data.List.Nodup
import Mathlib.Data.List.Sort
import Mathlib.Data.List.Sublists
import Mathlib.Logic.Relation

set_option relaxedAutoImplicit false
set_option autoImplicit false

/-- A dictionary: its items in insertion order, with no key twice. -/
structure PyDict (κ α : Type*) where
  /-- The items, oldest key first. -/
  entries : List (κ × α)
  /-- No key occurs twice. -/
  nodup_keys : (entries.map Prod.fst).Nodup

namespace PyDict

variable {κ α β : Type*}

@[ext] theorem ext {d d' : PyDict κ α} (h : d.entries = d'.entries) : d = d' := by
  cases d
  cases d'
  cases h
  rfl

instance [DecidableEq κ] [DecidableEq α] : DecidableEq (PyDict κ α) := fun d d' =>
  decidable_of_iff (d.entries = d'.entries) ⟨ext, fun h => by rw [h]⟩

/-- The empty dictionary. -/
def empty : PyDict κ α := ⟨[], by simp⟩

instance : Inhabited (PyDict κ α) := ⟨empty⟩

/-- The keys, in insertion order. -/
def keys (d : PyDict κ α) : List κ := d.entries.map Prod.fst

/-- The values, in insertion order. -/
def values (d : PyDict κ α) : List α := d.entries.map Prod.snd

@[simp] theorem entries_empty : (empty : PyDict κ α).entries = [] := rfl

@[simp] theorem keys_empty : (empty : PyDict κ α).keys = [] := rfl

@[simp] theorem values_empty : (empty : PyDict κ α).values = [] := rfl

theorem keys_nodup (d : PyDict κ α) : d.keys.Nodup := d.nodup_keys

/-- Keep the items that satisfy `p`. -/
def filter (d : PyDict κ α) (p : κ → α → Bool) : PyDict κ α :=
  ⟨d.entries.filter fun e => p e.1 e.2, d.nodup_keys.sublist (List.filter_sublist.map _)⟩

theorem keys_filter_sublist (d : PyDict κ α) (p : κ → α → Bool) :
    (d.filter p).keys.Sublist d.keys := List.filter_sublist.map _

/-- Update every value in its place. -/
def mapVal (d : PyDict κ α) (f : α → β) : PyDict κ β :=
  ⟨d.entries.map fun e => (e.1, f e.2), by
    rw [List.map_map]
    exact d.nodup_keys⟩

@[simp] theorem keys_mapVal (d : PyDict κ α) (f : α → β) : (d.mapVal f).keys = d.keys := by
  simp only [keys, mapVal, List.map_map]
  rfl

@[simp] theorem values_mapVal (d : PyDict κ α) (f : α → β) :
    (d.mapVal f).values = d.values.map f := by
  simp only [values, mapVal, List.map_map]
  rfl

/-! ### Looking a key up -/

section Lookup

variable [DecidableEq κ]

/-- The value of the first item with key `k`. -/
def lookup : List (κ × α) → κ → Option α
  | [], _ => none
  | (k', v) :: l, k => if k' = k then some v else lookup l k

@[simp] theorem lookup_nil (k : κ) : lookup ([] : List (κ × α)) k = none := rfl

@[simp] theorem lookup_cons (e : κ × α) (l : List (κ × α)) (k : κ) :
    lookup (e :: l) k = if e.1 = k then some e.2 else lookup l k := rfl

theorem lookup_eq_none_iff (l : List (κ × α)) (k : κ) :
    lookup l k = none ↔ k ∉ l.map Prod.fst := by
  induction l with
  | nil => simp
  | cons e l ih =>
      by_cases h : e.1 = k
      · simp [h]
      · simp only [lookup_cons, if_neg h, ih, List.map_cons, List.mem_cons, not_or]
        exact ⟨fun hl => ⟨fun hk => h hk.symm, hl⟩, fun hl => hl.2⟩

theorem mem_of_lookup {l : List (κ × α)} {k : κ} {v : α} (h : lookup l k = some v) :
    (k, v) ∈ l := by
  induction l with
  | nil => simp at h
  | cons e l ih =>
      rw [lookup_cons] at h
      by_cases he : e.1 = k
      · rw [if_pos he] at h
        obtain rfl : e.2 = v := Option.some.inj h
        subst he
        exact List.mem_cons_self ..
      · rw [if_neg he] at h
        exact List.mem_cons_of_mem _ (ih h)

theorem lookup_of_mem {l : List (κ × α)} (hl : (l.map Prod.fst).Nodup) {k : κ} {v : α}
    (h : (k, v) ∈ l) : lookup l k = some v := by
  induction l with
  | nil => simp at h
  | cons e l ih =>
      rw [List.map_cons, List.nodup_cons] at hl
      rcases List.mem_cons.1 h with rfl | h
      · simp
      · have hne : e.1 ≠ k := by
          rintro rfl
          exact hl.1 (List.mem_map.2 ⟨_, h, rfl⟩)
        rw [lookup_cons, if_neg hne]
        exact ih hl.2 h

/-- `d.get(k)`. -/
def get? (d : PyDict κ α) (k : κ) : Option α := lookup d.entries k

@[simp] theorem get?_empty (k : κ) : (empty : PyDict κ α).get? k = none := rfl

/-- **Looking a key up is meeting it in the iteration.** -/
theorem mem_entries_iff {d : PyDict κ α} {k : κ} {v : α} :
    (k, v) ∈ d.entries ↔ d.get? k = some v :=
  ⟨lookup_of_mem d.nodup_keys, mem_of_lookup⟩

theorem get?_eq_none_iff {d : PyDict κ α} {k : κ} : d.get? k = none ↔ k ∉ d.keys :=
  lookup_eq_none_iff d.entries k

theorem mem_keys_iff {d : PyDict κ α} {k : κ} : k ∈ d.keys ↔ ∃ v, d.get? k = some v := by
  rw [← not_iff_not, ← get?_eq_none_iff, Option.eq_none_iff_forall_ne_some]
  simp

theorem mem_keys_of_get? {d : PyDict κ α} {k : κ} {v : α} (h : d.get? k = some v) :
    k ∈ d.keys := mem_keys_iff.2 ⟨v, h⟩

theorem mem_values_iff {d : PyDict κ α} {v : α} : v ∈ d.values ↔ ∃ k, d.get? k = some v := by
  simp only [values, List.mem_map, ← mem_entries_iff]
  constructor
  · rintro ⟨⟨k, v⟩, h, rfl⟩
    exact ⟨k, h⟩
  · rintro ⟨k, h⟩
    exact ⟨(k, v), h, rfl⟩

theorem mem_values_of_get? {d : PyDict κ α} {k : κ} {v : α} (h : d.get? k = some v) :
    v ∈ d.values := mem_values_iff.2 ⟨k, h⟩

/-- Equality as Python compares dictionaries: the same items, in whatever order. -/
def Same (d d' : PyDict κ α) : Prop := ∀ k, d.get? k = d'.get? k

end Lookup

/-! ### Writing -/

section Write

variable [DecidableEq κ]

/-- Replace the item with key `k` in its place, or append it. -/
def assign : List (κ × α) → κ → α → List (κ × α)
  | [], k, v => [(k, v)]
  | (k', v') :: l, k, v => if k' = k then (k, v) :: l else (k', v') :: assign l k v

theorem map_fst_assign_of_mem {l : List (κ × α)} {k : κ} (v : α) (h : k ∈ l.map Prod.fst) :
    (assign l k v).map Prod.fst = l.map Prod.fst := by
  induction l with
  | nil => simp at h
  | cons e l ih =>
      by_cases he : e.1 = k
      · simp [assign, he]
      · have hl : k ∈ l.map Prod.fst := by
          rcases List.mem_cons.1 h with hk | hk
          · exact absurd hk.symm he
          · exact hk
        simp [assign, he, ih hl]

theorem assign_of_not_mem {l : List (κ × α)} {k : κ} (v : α) (h : k ∉ l.map Prod.fst) :
    assign l k v = l ++ [(k, v)] := by
  induction l with
  | nil => rfl
  | cons e l ih =>
      rw [List.map_cons, List.mem_cons, not_or] at h
      have he : e.1 ≠ k := fun hk => h.1 hk.symm
      simp [assign, he, ih h.2]

theorem lookup_assign (l : List (κ × α)) (k : κ) (v : α) (k' : κ) :
    lookup (assign l k v) k' = if k = k' then some v else lookup l k' := by
  induction l with
  | nil => simp [assign]
  | cons e l ih =>
      by_cases he : e.1 = k
      · by_cases hk : k = k'
        · simp [assign, he, hk]
        · have he' : e.1 ≠ k' := fun h => hk (he.symm.trans h)
          simp [assign, he, hk]
      · by_cases hk : e.1 = k'
        · have hne : k' ≠ k := fun h => he (hk.trans h)
          simp [assign, hk, hne, hne.symm]
        · simp [assign, he, hk, ih]

theorem nodup_map_fst_assign {l : List (κ × α)} (hl : (l.map Prod.fst).Nodup) (k : κ) (v : α) :
    ((assign l k v).map Prod.fst).Nodup := by
  by_cases h : k ∈ l.map Prod.fst
  · rwa [map_fst_assign_of_mem v h]
  · rw [assign_of_not_mem v h, List.map_append, List.nodup_append]
    refine ⟨hl, by simp, ?_⟩
    intro a ha b hb
    rw [List.map_singleton, List.mem_singleton] at hb
    rintro rfl
    subst hb
    exact h ha

/-- `d[k] = v`. -/
def set (d : PyDict κ α) (k : κ) (v : α) : PyDict κ α :=
  ⟨assign d.entries k v, nodup_map_fst_assign d.nodup_keys k v⟩

theorem get?_set (d : PyDict κ α) (k : κ) (v : α) (k' : κ) :
    (d.set k v).get? k' = if k = k' then some v else d.get? k' :=
  lookup_assign d.entries k v k'

@[simp] theorem get?_set_self (d : PyDict κ α) (k : κ) (v : α) :
    (d.set k v).get? k = some v := by rw [get?_set, if_pos rfl]

theorem get?_set_of_ne (d : PyDict κ α) {k k' : κ} (v : α) (h : k ≠ k') :
    (d.set k v).get? k' = d.get? k' := by rw [get?_set, if_neg h]

theorem keys_set_of_mem {d : PyDict κ α} {k : κ} (v : α) (h : k ∈ d.keys) :
    (d.set k v).keys = d.keys := map_fst_assign_of_mem v h

theorem entries_set_of_not_mem {d : PyDict κ α} {k : κ} (v : α) (h : k ∉ d.keys) :
    (d.set k v).entries = d.entries ++ [(k, v)] := assign_of_not_mem v h

theorem keys_set_of_not_mem {d : PyDict κ α} {k : κ} (v : α) (h : k ∉ d.keys) :
    (d.set k v).keys = d.keys ++ [k] := by
  simp [keys, entries_set_of_not_mem v h]

theorem mem_keys_set {d : PyDict κ α} {k k' : κ} {v : α} :
    k' ∈ (d.set k v).keys ↔ k' = k ∨ k' ∈ d.keys := by
  by_cases h : k ∈ d.keys
  · rw [keys_set_of_mem v h]
    exact ⟨Or.inr, fun hk => hk.elim (fun heq => heq ▸ h) id⟩
  · rw [keys_set_of_not_mem v h, List.mem_append, List.mem_singleton, or_comm]

theorem get?_filter_eq_some {d : PyDict κ α} {p : κ → α → Bool} {k : κ} {v : α} :
    (d.filter p).get? k = some v ↔ d.get? k = some v ∧ p k v = true := by
  rw [← mem_entries_iff, ← mem_entries_iff]
  exact List.mem_filter

/-- `d.pop(k, None)`. -/
def erase (d : PyDict κ α) (k : κ) : PyDict κ α := d.filter fun k' _ => decide (k' ≠ k)

theorem get?_erase (d : PyDict κ α) (k k' : κ) :
    (d.erase k).get? k' = if k = k' then none else d.get? k' := by
  ext v
  rw [erase, get?_filter_eq_some]
  by_cases h : k = k'
  · simp [h]
  · have h' : k' ≠ k := fun e => h e.symm
    simp [h, h']

@[simp] theorem get?_erase_self (d : PyDict κ α) (k : κ) : (d.erase k).get? k = none := by
  rw [get?_erase, if_pos rfl]

theorem get?_erase_of_ne (d : PyDict κ α) {k k' : κ} (h : k ≠ k') :
    (d.erase k).get? k' = d.get? k' := by rw [get?_erase, if_neg h]

theorem mem_keys_erase {d : PyDict κ α} {k k' : κ} :
    k' ∈ (d.erase k).keys ↔ k' ≠ k ∧ k' ∈ d.keys := by
  rw [mem_keys_iff, mem_keys_iff]
  constructor
  · rintro ⟨v, hv⟩
    have h := get?_filter_eq_some.1 hv
    exact ⟨of_decide_eq_true h.2, v, h.1⟩
  · rintro ⟨hk, v, hv⟩
    exact ⟨v, get?_filter_eq_some.2 ⟨hv, decide_eq_true hk⟩⟩

@[simp] theorem get?_mapVal (d : PyDict κ α) (f : α → β) (k : κ) :
    (d.mapVal f).get? k = (d.get? k).map f := by
  simp only [get?, mapVal]
  induction d.entries with
  | nil => rfl
  | cons e l ih =>
      by_cases h : e.1 = k
      · simp [h]
      · simp [h, ih]

/-- Update the value of `k` in its place, if there is one. -/
def modify (d : PyDict κ α) (k : κ) (f : α → α) : PyDict κ α :=
  ⟨d.entries.map fun e => (e.1, if e.1 = k then f e.2 else e.2), by
    rw [List.map_map]
    exact d.nodup_keys⟩

@[simp] theorem keys_modify (d : PyDict κ α) (k : κ) (f : α → α) :
    (d.modify k f).keys = d.keys := by
  simp only [keys, modify, List.map_map]
  rfl

theorem get?_modify (d : PyDict κ α) (k : κ) (f : α → α) (k' : κ) :
    (d.modify k f).get? k' = if k = k' then (d.get? k').map f else d.get? k' := by
  simp only [get?, modify]
  induction d.entries with
  | nil => simp
  | cons e l ih =>
      by_cases h : e.1 = k'
      · by_cases hk : k = k'
        · simp [h, hk]
        · have hk' : k' ≠ k := fun e => hk e.symm
          simp [h, hk, hk']
      · simp [h, ih]

@[simp] theorem get?_modify_self (d : PyDict κ α) (k : κ) (f : α → α) :
    (d.modify k f).get? k = (d.get? k).map f := by rw [get?_modify, if_pos rfl]

theorem get?_modify_of_ne (d : PyDict κ α) {k k' : κ} (f : α → α) (h : k ≠ k') :
    (d.modify k f).get? k' = d.get? k' := by rw [get?_modify, if_neg h]

end Write

/-! ### The iteration order -/

/-- Key `i` stands before key `j` in the iteration. -/
def Before (d : PyDict κ α) (i j : κ) : Prop := [i, j].Sublist d.keys

instance [DecidableEq κ] (d : PyDict κ α) (i j : κ) : Decidable (d.Before i j) :=
  inferInstanceAs (Decidable ([i, j].Sublist d.keys))

theorem Before.ne {d : PyDict κ α} {i j : κ} (h : d.Before i j) : i ≠ j := by
  have hnd := d.keys_nodup.sublist h
  simpa using hnd

theorem Before.left_mem {d : PyDict κ α} {i j : κ} (h : d.Before i j) : i ∈ d.keys :=
  h.subset (List.mem_cons_self ..)

theorem Before.right_mem {d : PyDict κ α} {i j : κ} (h : d.Before i j) : j ∈ d.keys :=
  h.subset (by simp)

theorem Before.of_sublist {d : PyDict κ α} {d' : PyDict κ β} (hs : d'.keys.Sublist d.keys)
    {i j : κ} (h : d'.Before i j) : d.Before i j := List.Sublist.trans h hs

theorem Before.of_keys_eq {d : PyDict κ α} {d' : PyDict κ β} (hk : d'.keys = d.keys) {i j : κ}
    (h : d'.Before i j) : d.Before i j := Before.of_sublist (hk ▸ List.Sublist.refl d'.keys) h

/-- A new key comes last. -/
theorem Before.of_set_new [DecidableEq κ] {d : PyDict κ α} {k : κ} {v : α} (hk : k ∉ d.keys)
    {i j : κ} (h : (d.set k v).Before i j) : d.Before i j ∨ j = k ∧ i ∈ d.keys := by
  rw [Before, keys_set_of_not_mem v hk, List.sublist_append_iff] at h
  obtain ⟨x, y, hxy, hx, hy⟩ := h
  rcases List.sublist_singleton.1 hy with rfl | rfl
  · rw [List.append_nil] at hxy
    subst hxy
    exact Or.inl hx
  · obtain rfl : x = [i] := by
      have := congrArg List.dropLast hxy
      simpa using this.symm
    have hj : j = k := by
      have := congrArg List.getLast? hxy
      simpa using this
    exact Or.inr ⟨hj, hx.subset (List.mem_singleton_self i)⟩

/-! ### From items, and by key -/

/-- The items in the order of their keys. -/
def sorted (le : κ → κ → Bool) (d : PyDict κ α) : List (κ × α) :=
  d.entries.insertionSort fun a b => le a.1 b.1 = true

theorem sorted_perm (le : κ → κ → Bool) (d : PyDict κ α) : (d.sorted le).Perm d.entries :=
  List.perm_insertionSort _ _

theorem nodup_map_fst_sorted (le : κ → κ → Bool) (d : PyDict κ α) :
    ((d.sorted le).map Prod.fst).Nodup :=
  ((sorted_perm le d).map _).nodup_iff.2 d.nodup_keys

section Sorted

variable [DecidableEq κ]

/-- The dictionary that assigns the items one after the other. -/
def ofList (l : List (κ × α)) : PyDict κ α := l.foldl (fun d e => d.set e.1 e.2) empty

theorem entries_foldl_set {l : List (κ × α)} {d : PyDict κ α}
    (h : (d.keys ++ l.map Prod.fst).Nodup) :
    (l.foldl (fun d e => d.set e.1 e.2) d).entries = d.entries ++ l := by
  induction l generalizing d with
  | nil => simp
  | cons e l ih =>
      have hnot : e.1 ∉ d.keys := by
        intro hmem
        rw [List.nodup_append] at h
        exact h.2.2 _ hmem _ (by simp) rfl
      have hnd : ((d.set e.1 e.2).keys ++ l.map Prod.fst).Nodup := by
        rw [keys_set_of_not_mem _ hnot, List.append_assoc]
        exact h
      rw [List.foldl_cons, ih hnd, entries_set_of_not_mem _ hnot, List.append_assoc]
      rfl

/-- Items without a repeated key come back in their order. -/
theorem entries_ofList {l : List (κ × α)} (h : (l.map Prod.fst).Nodup) :
    (ofList l).entries = l := by
  rw [ofList, entries_foldl_set (by simpa using h)]
  rfl

@[simp] theorem ofList_entries (d : PyDict κ α) : ofList d.entries = d :=
  ext (entries_ofList d.nodup_keys)

theorem mem_sorted_iff {le : κ → κ → Bool} {d : PyDict κ α} {k : κ} {v : α} :
    (k, v) ∈ d.sorted le ↔ d.get? k = some v :=
  (sorted_perm le d).mem_iff.trans mem_entries_iff

/-- **Sorting the items and reading them back gives the same map.** -/
theorem get?_ofList_sorted (le : κ → κ → Bool) (d : PyDict κ α) : Same (ofList (d.sorted le)) d := by
  intro k
  ext v
  rw [← mem_entries_iff, entries_ofList (nodup_map_fst_sorted le d), mem_sorted_iff]

end Sorted

end PyDict
