/-
**Tables of records.**

The tables of a service are dictionaries of records, and every record knows the key it is stored
under: a task carries its number, a run its identifier.  A table is such a dictionary with a proof
that each record is stored under its own key, so that a record cannot be misfiled and a table can
be rebuilt from its records alone.

Main definitions:

* `Table`, `Table.get?`, `Table.put`, `Table.erase`, `Table.filter`, `Table.map`, `Table.modify` —
  tables and their operations;
* `Table.Same`, `Table.Before` — the relations on dictionaries, for tables;
* `Table.ofList`, `Table.sorted` — a table from its records, and its records by key.

Main results:

* `Table.get?_put`, `Table.get?_erase`, `Table.get?_modify`, `Table.get?_map` — each operation,
  read through `get?`;
* `Table.Before.of_put_new`, `Table.Before.of_find?` — new records come last, and a search finds
  the first record;
* `Table.ofList_values`, `Table.ofList_sorted_same` — **a table is rebuilt from its records**, and
  up to the order also from the sorted ones.
-/

import CatAgent.PyDict

set_option relaxedAutoImplicit false
set_option autoImplicit false

/-- A dictionary of records, each stored under its own key. -/
structure Table {κ α : Type*} (key : α → κ) where
  /-- The dictionary. -/
  dict : PyDict κ α
  /-- Each record is stored under its own key. -/
  keyed : ∀ e ∈ dict.entries, key e.2 = e.1

namespace Table

variable {κ α : Type*} {key : α → κ}

@[ext] theorem ext {t t' : Table key} (h : t.dict = t'.dict) : t = t' := by
  cases t
  cases t'
  cases h
  rfl

/-- The empty table. -/
def empty : Table key := ⟨PyDict.empty, by simp⟩

instance : Inhabited (Table key) := ⟨empty⟩

/-- The keys, in insertion order. -/
def keys (t : Table key) : List κ := t.dict.keys

/-- The records, in insertion order. -/
def values (t : Table key) : List α := t.dict.values

@[simp] theorem values_empty : (empty : Table key).values = [] := rfl

@[simp] theorem keys_empty : (empty : Table key).keys = [] := rfl

theorem entries_eq (t : Table key) : t.dict.entries = t.values.map fun v => (key v, v) := by
  simp only [values, PyDict.values, List.map_map]
  refine (List.map_id _).symm.trans (List.map_congr_left ?_)
  intro e he
  rw [Function.comp_apply, t.keyed e he]
  rfl

theorem keys_eq (t : Table key) : t.keys = t.values.map key := by
  rw [keys, PyDict.keys, entries_eq, List.map_map]
  rfl

theorem nodup_keys (t : Table key) : (t.values.map key).Nodup := by
  rw [← keys_eq]
  exact t.dict.keys_nodup

/-- Keep the records that satisfy `p`. -/
def filter (t : Table key) (p : α → Bool) : Table key :=
  ⟨t.dict.filter fun _ v => p v, fun e he => t.keyed e (List.mem_of_mem_filter he)⟩

/-- Update every record in its place. -/
def map (t : Table key) (f : α → α) (hf : ∀ v, key (f v) = key v) : Table key :=
  ⟨t.dict.mapVal f, by
    intro e he
    obtain ⟨e', he', rfl⟩ := List.mem_map.1 he
    exact (hf _).trans (t.keyed e' he')⟩

@[simp] theorem values_map (t : Table key) (f : α → α) (hf : ∀ v, key (f v) = key v) :
    (t.map f hf).values = t.values.map f := PyDict.values_mapVal _ _

@[simp] theorem keys_map (t : Table key) (f : α → α) (hf : ∀ v, key (f v) = key v) :
    (t.map f hf).keys = t.keys := PyDict.keys_mapVal _ _

theorem ext_values {t t' : Table key} (h : t.values = t'.values) : t = t' :=
  ext (PyDict.ext (by rw [entries_eq, entries_eq, h]))

theorem map_eq_self (t : Table key) {f : α → α} (hf : ∀ v, key (f v) = key v)
    (h : ∀ v, f v = v) : t.map f hf = t := by
  refine ext_values ?_
  rw [values_map, funext h]
  exact List.map_id _

theorem map_map_eq (t : Table key) {f g h : α → α} (hf : ∀ v, key (f v) = key v)
    (hg : ∀ v, key (g v) = key v) (hh : ∀ v, key (h v) = key v) (hgf : g ∘ f = h) :
    (t.map f hf).map g hg = t.map h hh := by
  refine ext_values ?_
  rw [values_map, values_map, values_map, List.map_map, hgf]

variable [DecidableEq κ]

/-- **No two records have the same key.** -/
theorem length_filter_key_le_one (t : Table key) (k : κ) :
    (t.values.filter fun v => decide (key v = k)).length ≤ 1 := by
  have hnodup : ((t.values.filter fun v => decide (key v = k)).map key).Nodup :=
    t.nodup_keys.sublist (List.filter_sublist.map key)
  have hsame : (t.values.filter fun v => decide (key v = k)).map key =
      List.replicate (t.values.filter fun v => decide (key v = k)).length k := by
    refine List.eq_replicate_iff.2 ⟨List.length_map _, fun k' hk' => ?_⟩
    obtain ⟨v, hv, rfl⟩ := List.mem_map.1 hk'
    exact of_decide_eq_true (List.mem_filter.1 hv).2
  rw [hsame, List.nodup_replicate] at hnodup
  exact hnodup

instance [DecidableEq α] : DecidableEq (Table key) := fun t t' =>
  decidable_of_iff (t.dict = t'.dict) ⟨ext, fun h => by rw [h]⟩

/-! ### Reading and writing -/

/-- The record stored under `k`. -/
def get? (t : Table key) (k : κ) : Option α := t.dict.get? k

@[simp] theorem get?_empty (k : κ) : (empty : Table key).get? k = none := rfl

/-- **A record is found under its own key.** -/
theorem key_of_get? {t : Table key} {k : κ} {v : α} (h : t.get? k = some v) : key v = k :=
  t.keyed (k, v) (PyDict.mem_entries_iff.2 h)

theorem mem_values_iff {t : Table key} {v : α} : v ∈ t.values ↔ t.get? (key v) = some v := by
  rw [values, PyDict.mem_values_iff]
  constructor
  · rintro ⟨k, h⟩
    rwa [key_of_get? (t := t) h]
  · intro h
    exact ⟨_, h⟩

theorem mem_values_of_get? {t : Table key} {k : κ} {v : α} (h : t.get? k = some v) :
    v ∈ t.values := PyDict.mem_values_of_get? h

theorem get?_eq_none_iff {t : Table key} {k : κ} : t.get? k = none ↔ k ∉ t.keys :=
  PyDict.get?_eq_none_iff

theorem get?_filter_eq_some {t : Table key} {p : α → Bool} {k : κ} {v : α} :
    (t.filter p).get? k = some v ↔ t.get? k = some v ∧ p v = true :=
  PyDict.get?_filter_eq_some

omit [DecidableEq κ] in
theorem values_filter (t : Table key) (p : α → Bool) :
    (t.filter p).values = t.values.filter p := by
  simp only [values, filter, PyDict.values, PyDict.filter, List.filter_map]
  rfl

/-- Nothing but a prefix is removed with the keys of the prefix. -/
theorem filter_not_mem_take {l : List α} (h : (l.map key).Nodup) (n : ℕ) :
    (l.filter fun v => decide (key v ∉ (l.map key).take n)) = l.drop n := by
  induction l generalizing n with
  | nil => simp
  | cons a l ih =>
      obtain ⟨ha, hl⟩ := List.nodup_cons.1 h
      cases n with
      | zero => simp
      | succ n =>
          rw [List.drop_succ_cons, ← ih hl n, List.map_cons, List.take_succ_cons,
            List.filter_cons_of_neg (by simp)]
          refine List.filter_congr fun v hv => ?_
          have hne : key v ≠ key a := by
            intro heq
            exact ha (heq ▸ List.mem_map_of_mem hv)
          simp [hne]

@[simp] theorem get?_map (t : Table key) (f : α → α) (hf : ∀ v, key (f v) = key v) (k : κ) :
    (t.map f hf).get? k = (t.get? k).map f := PyDict.get?_mapVal _ _ _

/-- Store a record under its key. -/
def put (t : Table key) (v : α) : Table key :=
  ⟨t.dict.set (key v) v, by
    intro e he
    have hget := PyDict.mem_entries_iff (k := e.1) (v := e.2).1 he
    rw [PyDict.get?_set] at hget
    by_cases h : key v = e.1
    · rw [if_pos h] at hget
      rw [← Option.some.inj hget]
      exact h
    · rw [if_neg h] at hget
      exact t.keyed e (PyDict.mem_entries_iff.2 hget)⟩

theorem get?_put (t : Table key) (v : α) (k : κ) :
    (t.put v).get? k = if key v = k then some v else t.get? k := PyDict.get?_set _ _ _ _

@[simp] theorem get?_put_self (t : Table key) (v : α) : (t.put v).get? (key v) = some v :=
  PyDict.get?_set_self _ _ _

theorem get?_put_of_ne (t : Table key) {v : α} {k : κ} (h : key v ≠ k) :
    (t.put v).get? k = t.get? k := PyDict.get?_set_of_ne _ _ h

/-- A new record comes last. -/
theorem values_put_new {t : Table key} {v : α} (h : t.get? (key v) = none) :
    (t.put v).values = t.values ++ [v] := by
  have hkeys : key v ∉ t.dict.keys := get?_eq_none_iff.1 h
  simp [values, put, PyDict.values, PyDict.entries_set_of_not_mem v hkeys]

/-- Remove the record stored under `k`. -/
def erase (t : Table key) (k : κ) : Table key :=
  ⟨t.dict.erase k, fun e he => t.keyed e (List.mem_of_mem_filter he)⟩

theorem get?_erase (t : Table key) (k k' : κ) :
    (t.erase k).get? k' = if k = k' then none else t.get? k' := PyDict.get?_erase _ _ _

@[simp] theorem get?_erase_self (t : Table key) (k : κ) : (t.erase k).get? k = none :=
  PyDict.get?_erase_self _ _

theorem get?_erase_of_ne (t : Table key) {k k' : κ} (h : k ≠ k') :
    (t.erase k).get? k' = t.get? k' := PyDict.get?_erase_of_ne _ h

/-- Update the record stored under `k` in its place, if there is one. -/
def modify (t : Table key) (k : κ) (f : α → α) (hf : ∀ v, key (f v) = key v) : Table key :=
  ⟨t.dict.modify k f, by
    intro e he
    obtain ⟨e', he', rfl⟩ := List.mem_map.1 he
    by_cases h : e'.1 = k
    · simp only [h, if_true]
      rw [hf, t.keyed e' he', h]
    · simp only [h, if_false]
      exact t.keyed e' he'⟩

theorem values_modify (t : Table key) (k : κ) (f : α → α) (hf : ∀ v, key (f v) = key v) :
    (t.modify k f hf).values = t.values.map fun v => if key v = k then f v else v := by
  simp only [values, modify, PyDict.values, PyDict.modify, List.map_map]
  refine List.map_congr_left fun e he => ?_
  simp only [Function.comp_apply]
  rw [t.keyed e he]

theorem get?_modify (t : Table key) (k : κ) (f : α → α) (hf : ∀ v, key (f v) = key v) (k' : κ) :
    (t.modify k f hf).get? k' = if k = k' then (t.get? k').map f else t.get? k' :=
  PyDict.get?_modify t.dict k f k'

@[simp] theorem get?_modify_self (t : Table key) (k : κ) (f : α → α)
    (hf : ∀ v, key (f v) = key v) : (t.modify k f hf).get? k = (t.get? k).map f :=
  PyDict.get?_modify_self _ _ _

/-! ### Relations -/

/-- The same records, in whatever order. -/
def Same (t t' : Table key) : Prop := ∀ k, t.get? k = t'.get? k

theorem Same.refl (t : Table key) : Same t t := fun _ => rfl

theorem Same.symm {t t' : Table key} (h : Same t t') : Same t' t := fun k => (h k).symm

theorem Same.trans {t t' t'' : Table key} (h : Same t t') (h' : Same t' t'') : Same t t'' :=
  fun k => (h k).trans (h' k)

omit [DecidableEq κ] in
/-- Key `i` stands before key `j` in the iteration. -/
def Before (t : Table key) (i j : κ) : Prop := t.dict.Before i j

instance (t : Table key) (i j : κ) : Decidable (t.Before i j) :=
  inferInstanceAs (Decidable (t.dict.Before i j))

omit [DecidableEq κ] in
theorem Before.of_filter {t : Table key} {p : α → Bool} {i j : κ} (h : (t.filter p).Before i j) :
    t.Before i j := PyDict.Before.of_sublist (PyDict.keys_filter_sublist _ _) h

omit [DecidableEq κ] in
theorem Before.of_map {t : Table key} {f : α → α} {hf : ∀ v, key (f v) = key v} {i j : κ}
    (h : (t.map f hf).Before i j) : t.Before i j :=
  PyDict.Before.of_keys_eq (PyDict.keys_mapVal t.dict f) h

theorem Before.of_modify {t : Table key} {k : κ} {f : α → α} (hf : ∀ v, key (f v) = key v)
    {i j : κ} (h : (t.modify k f hf).Before i j) : t.Before i j :=
  PyDict.Before.of_keys_eq (PyDict.keys_modify t.dict k f) h

theorem Before.of_put_new {t : Table key} {v : α} (hv : t.get? (key v) = none) {i j : κ}
    (h : (t.put v).Before i j) : t.Before i j ∨ j = key v ∧ i ∈ t.keys :=
  PyDict.Before.of_set_new (get?_eq_none_iff.1 hv) h

/-- The records before the first one that satisfies `p` do not satisfy it. -/
theorem Before.of_find? {t : Table key} {p : α → Bool} {v w : α} {i : κ}
    (hv : t.values.find? p = some v) (h : t.Before i (key v)) (hw : t.get? i = some w) :
    p w = false := by
  obtain ⟨_, l, l', hl, hp⟩ := List.find?_eq_some_iff_append.1 hv
  have hkeys : t.keys = l.map key ++ key v :: l'.map key := by
    rw [keys_eq, hl, List.map_append, List.map_cons]
  have hnodup : (l.map key ++ key v :: l'.map key).Nodup := hkeys ▸ t.dict.keys_nodup
  -- `i` cannot stand at or after `key v`, which occurs only once.
  have hi : i ∈ l.map key := by
    have hs : [i, key v].Sublist (l.map key ++ key v :: l'.map key) := hkeys ▸ h
    obtain ⟨x, y, hxy, hx, hy⟩ := List.sublist_append_iff.1 hs
    cases x with
    | nil =>
        rw [List.nil_append] at hxy
        subst hxy
        rw [List.nodup_append] at hnodup
        have hmem : key v ∈ l'.map key := by
          cases hy with
          | cons _ hy => exact hy.subset (by simp)
          | cons_cons _ hy => exact hy.subset (by simp)
        exact absurd hmem (List.nodup_cons.1 hnodup.2.1).1
    | cons a x =>
        rw [List.cons_append, List.cons.injEq] at hxy
        exact hxy.1 ▸ hx.subset (List.mem_cons_self ..)
  obtain ⟨u, hu, rfl⟩ := List.mem_map.1 hi
  have hmem : u ∈ t.values := by
    rw [hl]
    exact List.mem_append_left _ hu
  rw [mem_values_iff, hw] at hmem
  cases hmem
  simpa using hp w hu

/-! ### From records, and by key -/

omit [DecidableEq κ] in
/-- The records in the order of their keys. -/
def sorted (le : κ → κ → Bool) (t : Table key) : List α := (t.dict.sorted le).map Prod.snd

/-- The table that stores the records one after the other. -/
def ofList (l : List α) : Table key := l.foldl put empty

theorem dict_foldl_put (l : List α) (t : Table key) :
    (l.foldl put t).dict = (l.map fun v => (key v, v)).foldl (fun d e => d.set e.1 e.2) t.dict := by
  induction l generalizing t with
  | nil => rfl
  | cons v l ih => exact ih (t.put v)

theorem dict_ofList (l : List α) :
    (ofList l : Table key).dict = PyDict.ofList (l.map fun v => (key v, v)) :=
  dict_foldl_put l empty

/-- **A table is rebuilt from its records.** -/
@[simp] theorem ofList_values (t : Table key) : ofList t.values = t := by
  refine ext ?_
  rw [dict_ofList, ← entries_eq, PyDict.ofList_entries]

theorem ofList_map_values (t : Table key) (f : α → α) (hf : ∀ v, key (f v) = key v) :
    ofList (t.values.map f) = t.map f hf := by rw [← values_map t f hf, ofList_values]

omit [DecidableEq κ] in
theorem sorted_map_key (le : κ → κ → Bool) (t : Table key) :
    (t.sorted le).map (fun v => (key v, v)) = t.dict.sorted le := by
  rw [sorted, List.map_map]
  refine (List.map_congr_left ?_).trans (List.map_id _)
  intro e he
  have hkey := t.keyed e ((PyDict.sorted_perm le t.dict).mem_iff.1 he)
  rw [Function.comp_apply, hkey]
  rfl

/-- **Up to their order, the records of a table are rebuilt from the sorted ones.** -/
theorem ofList_sorted_same (le : κ → κ → Bool) (t : Table key) :
    Same (ofList (t.sorted le)) t := by
  intro k
  rw [get?, dict_ofList, sorted_map_key]
  exact PyDict.get?_ofList_sorted le t.dict k

omit [DecidableEq κ] in
theorem nodup_sorted (le : κ → κ → Bool) (t : Table key) : ((t.sorted le).map key).Nodup := by
  have h := PyDict.nodup_map_fst_sorted le t.dict
  rw [← sorted_map_key, List.map_map] at h
  exact h

/-- Records with different keys are all kept. -/
theorem mem_of_get?_foldl_put {l : List α} {t : Table key} {k : κ} {v : α}
    (h : (l.foldl put t).get? k = some v) : v ∈ l ∨ t.get? k = some v := by
  induction l generalizing t with
  | nil => exact Or.inr h
  | cons a l ih =>
      rcases ih h with hmem | hput
      · exact Or.inl (List.mem_cons_of_mem _ hmem)
      · rw [get?_put] at hput
        split_ifs at hput with hk
        · cases hput
          exact Or.inl List.mem_cons_self
        · exact Or.inr hput

/-- What a table made from a list holds is in the list. -/
theorem mem_of_get?_ofList {l : List α} {k : κ} {v : α}
    (h : (ofList l : Table key).get? k = some v) : v ∈ l := by
  rcases mem_of_get?_foldl_put h with hmem | hempty
  · exact hmem
  · cases hempty

theorem get?_ofList_iff {l : List α} (h : (l.map key).Nodup) {k : κ} {v : α} :
    (ofList l : Table key).get? k = some v ↔ v ∈ l ∧ key v = k := by
  have hl : ((l.map fun v => (key v, v)).map Prod.fst).Nodup := by
    rw [List.map_map]
    exact h
  rw [get?, dict_ofList, ← PyDict.mem_entries_iff, PyDict.entries_ofList hl, List.mem_map]
  constructor
  · rintro ⟨v', hv', he⟩
    cases he
    exact ⟨hv', rfl⟩
  · rintro ⟨hv, rfl⟩
    exact ⟨v, hv, rfl⟩

omit [DecidableEq κ] in
theorem mem_sorted_iff {le : κ → κ → Bool} {t : Table key} {v : α} :
    v ∈ t.sorted le ↔ v ∈ t.values := by
  rw [sorted, values, PyDict.values]
  exact ((PyDict.sorted_perm le t.dict).map _).mem_iff

end Table
