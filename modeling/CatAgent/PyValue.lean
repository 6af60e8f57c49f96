/-
**Values that `json.loads` returns.**

A value of the program, as far as JSON text can stand for one: integers and floats are told apart,
a float may be infinite, and a float zero has a sign.  The type of the floats is a parameter, so that
the same tree can hold the texts that the floats were read from.

Main definitions:

* `PyValue`, `PyDouble` — values, and floats;
* `PyValue.parts` — a value and everything in it;
* `PyValue.same` — `_same`, the equality of JSON values;
* `PyValue.sameKind` — corresponding numbers are of one kind;
* `PyValue.dumpsSorted` — `json.dumps(…, sort_keys=True, ensure_ascii=False)`.

Main results:

* `PyValue.dumpsSorted_congr` — **equal values whose numbers are of one kind have one text**.
-/

import CatAgent.Json
import CatAgent.PyDict
import Mathlib.Data.List.Sort
import Mathlib.Data.List.Lex

set_option relaxedAutoImplicit false
set_option autoImplicit false

/-- A float that is not a NaN.  A finite one is given by the decimal that `repr` writes for it. -/
inductive PyDouble where
  | finite (q : ℚ)
  | negativeZero
  | infinite (negative : Bool)
deriving DecidableEq

/-- `None`, booleans, integers, floats of type `φ`, strings, lists and dictionaries. -/
inductive PyValue (φ : Type) where
  | none
  | bool (b : Bool)
  | int (n : ℤ)
  | float (x : φ)
  | str (s : PyStr)
  | list (xs : List (PyValue φ))
  | dict (items : List (PyStr × PyValue φ))

namespace PyDouble

/-- The decimal of a float, unless it is infinite. -/
def decimal : PyDouble → Option ℚ
  | finite q => some q
  | negativeZero => some 0
  | infinite _ => none

def isFinite : PyDouble → Bool
  | infinite _ => false
  | _ => true

/-- `Decimal(str(left)) == Decimal(str(right))`. -/
def same : PyDouble → PyDouble → Bool
  | infinite a, infinite b => a == b
  | infinite _, _ => false
  | _, infinite _ => false
  | a, b => a.decimal == b.decimal

end PyDouble

namespace PyValue

variable {φ : Type}

/-! ### The parts of a value -/

mutual

/-- A value and everything in it. -/
def parts : PyValue φ → List (PyValue φ)
  | list xs => list xs :: partsList xs
  | dict items => dict items :: partsItems items
  | v => [v]

/-- The parts of the elements. -/
def partsList : List (PyValue φ) → List (PyValue φ)
  | [] => []
  | v :: l => parts v ++ partsList l

/-- The parts of the values of the items. -/
def partsItems : List (PyStr × PyValue φ) → List (PyValue φ)
  | [] => []
  | (_, v) :: l => parts v ++ partsItems l

end

theorem partsList_eq (l : List (PyValue φ)) : partsList l = l.flatMap parts := by
  induction l with
  | nil => rfl
  | cons v l ih => rw [partsList, ih, List.flatMap_cons]

theorem partsItems_eq (l : List (PyStr × PyValue φ)) :
    partsItems l = l.flatMap fun e => parts e.2 := by
  induction l with
  | nil => rfl
  | cons e l ih =>
      obtain ⟨k, v⟩ := e
      rw [partsItems, ih, List.flatMap_cons]

/-- No dictionary in the value has a key twice. -/
def UniqueKeys (v : PyValue φ) : Prop :=
  ∀ items, dict items ∈ parts v → (items.map Prod.fst).Nodup

/-- All floats in the value satisfy `p`. -/
def FloatsAll (p : φ → Prop) (v : PyValue φ) : Prop := ∀ x, float x ∈ parts v → p x

theorem uniqueKeys_list {xs : List (PyValue φ)} :
    UniqueKeys (list xs) ↔ ∀ v ∈ xs, UniqueKeys v := by
  unfold UniqueKeys
  rw [parts, partsList_eq]
  constructor
  · intro h v hv items hitems
    exact h items (List.mem_cons_of_mem _ (List.mem_flatMap.2 ⟨v, hv, hitems⟩))
  · intro h items hitems
    rcases List.mem_cons.1 hitems with heq | hmem
    · cases heq
    · obtain ⟨v, hv, hpart⟩ := List.mem_flatMap.1 hmem
      exact h v hv items hpart

theorem uniqueKeys_dict {items : List (PyStr × PyValue φ)} :
    UniqueKeys (dict items) ↔ (items.map Prod.fst).Nodup ∧ ∀ e ∈ items, UniqueKeys e.2 := by
  unfold UniqueKeys
  rw [parts, partsItems_eq]
  constructor
  · intro h
    refine ⟨h items List.mem_cons_self, fun e he items' hitems => ?_⟩
    exact h items' (List.mem_cons_of_mem _ (List.mem_flatMap.2 ⟨e, he, hitems⟩))
  · rintro ⟨hnodup, h⟩ items' hitems
    rcases List.mem_cons.1 hitems with heq | hmem
    · cases heq
      exact hnodup
    · obtain ⟨e, he, hpart⟩ := List.mem_flatMap.1 hmem
      exact h e he items' hpart

theorem floatsAll_list {p : φ → Prop} {xs : List (PyValue φ)} :
    FloatsAll p (list xs) ↔ ∀ v ∈ xs, FloatsAll p v := by
  unfold FloatsAll
  rw [parts, partsList_eq]
  constructor
  · intro h v hv x hx
    exact h x (List.mem_cons_of_mem _ (List.mem_flatMap.2 ⟨v, hv, hx⟩))
  · intro h x hx
    rcases List.mem_cons.1 hx with heq | hmem
    · cases heq
    · obtain ⟨v, hv, hpart⟩ := List.mem_flatMap.1 hmem
      exact h v hv x hpart

theorem floatsAll_dict {p : φ → Prop} {items : List (PyStr × PyValue φ)} :
    FloatsAll p (dict items) ↔ ∀ e ∈ items, FloatsAll p e.2 := by
  unfold FloatsAll
  rw [parts, partsItems_eq]
  constructor
  · intro h e he x hx
    exact h x (List.mem_cons_of_mem _ (List.mem_flatMap.2 ⟨e, he, hx⟩))
  · intro h x hx
    rcases List.mem_cons.1 hx with heq | hmem
    · cases heq
    · obtain ⟨e, he, hpart⟩ := List.mem_flatMap.1 hmem
      exact h e he x hpart

@[simp] theorem floatsAll_float {p : φ → Prop} {x : φ} : FloatsAll p (float x) ↔ p x := by
  simp [FloatsAll, parts]

/-! ### Equal values -/

/-- `left.keys() == right.keys()`. -/
def sameKeys {α β : Type} (xs : List (PyStr × α)) (ys : List (PyStr × β)) : Bool :=
  (xs.all fun e => (PyDict.lookup ys e.1).isSome) && ys.all fun e => (PyDict.lookup xs e.1).isSome

mutual

/-- `_same(left, right)`. -/
def same : PyValue PyDouble → PyValue PyDouble → Bool
  | bool a, bool b => a == b
  | int a, int b => a == b
  | int a, float b => b.decimal == some (a : ℚ)
  | float a, int b => a.decimal == some (b : ℚ)
  | float a, float b => a.same b
  | dict xs, dict ys => sameKeys xs ys && sameItems xs ys
  | list xs, list ys => sameList xs ys
  | none, none => true
  | str a, str b => a == b
  | _, _ => false

/-- Lists of the same length, element by element. -/
def sameList : List (PyValue PyDouble) → List (PyValue PyDouble) → Bool
  | [], [] => true
  | x :: xs, y :: ys => same x y && sameList xs ys
  | _, _ => false

/-- Every item has the same value on the right. -/
def sameItems : List (PyStr × PyValue PyDouble) → List (PyStr × PyValue PyDouble) → Bool
  | [], _ => true
  | (k, x) :: xs, ys =>
      (match PyDict.lookup ys k with
        | some y => same x y
        | Option.none => false) && sameItems xs ys

end

mutual

/-- Where the values have numbers at the same place, both are integers or both are floats, and
zeros have the same sign. -/
def sameKind : PyValue PyDouble → PyValue PyDouble → Bool
  | int _, float _ => false
  | float _, int _ => false
  | float a, float b => (a == PyDouble.negativeZero) == (b == PyDouble.negativeZero)
  | dict xs, dict ys => sameKindItems xs ys
  | list xs, list ys => sameKindList xs ys
  | _, _ => true

/-- The elements at the same places. -/
def sameKindList : List (PyValue PyDouble) → List (PyValue PyDouble) → Bool
  | x :: xs, y :: ys => sameKind x y && sameKindList xs ys
  | _, _ => true

/-- The values of the same keys. -/
def sameKindItems : List (PyStr × PyValue PyDouble) → List (PyStr × PyValue PyDouble) → Bool
  | [], _ => true
  | (k, x) :: xs, ys =>
      (match PyDict.lookup ys k with
        | some y => sameKind x y
        | Option.none => true) && sameKindItems xs ys

end

/-! ### Writing with sorted keys -/

/-- Texts with a comma and a blank between them. -/
def spaced : List PyStr → PyStr
  | [] => []
  | [t] => t
  | t :: u :: l => t ++ PyStr.ofString ", " ++ spaced (u :: l)

/-- Items in the order of their keys. -/
def sortItems (items : List (PyStr × PyStr)) : List (PyStr × PyStr) :=
  items.insertionSort fun a b => a.1 ≤ b.1

mutual

/-- `json.dumps(v, sort_keys=True, ensure_ascii=False)`; `fl` writes the floats. -/
def dumpsSorted (fl : PyDouble → PyStr) : PyValue PyDouble → PyStr
  | none => "null"
  | bool true => "true"
  | bool false => "false"
  | int n => toString n
  | float x => fl x
  | str s => Json.escape s
  | list xs => PyStr.ofString "[" ++ spaced (dumpsList fl xs) ++ PyStr.ofString "]"
  | dict items =>
      PyStr.ofString "\x7b" ++
        spaced ((sortItems (dumpsItems fl items)).map fun e =>
          Json.escape e.1 ++ PyStr.ofString ": " ++ e.2) ++
        PyStr.ofString "\x7d"

/-- The texts of the elements. -/
def dumpsList (fl : PyDouble → PyStr) : List (PyValue PyDouble) → List PyStr
  | [] => []
  | v :: l => dumpsSorted fl v :: dumpsList fl l

/-- The keys, each with the text of its value. -/
def dumpsItems (fl : PyDouble → PyStr) : List (PyStr × PyValue PyDouble) → List (PyStr × PyStr)
  | [] => []
  | (k, v) :: l => (k, dumpsSorted fl v) :: dumpsItems fl l

end

/-! ### Equal values have one text -/

theorem PyDouble.eq_of_same {a b : PyDouble} (h : a.same b = true)
    (hzero : ((a == PyDouble.negativeZero) == (b == PyDouble.negativeZero)) = true) : a = b := by
  cases a <;> cases b <;> simp_all [PyDouble.same, PyDouble.decimal]

/-- Induction over values: what holds of the elements of a list holds of the list. -/
theorem nestedInduction {motive : PyValue φ → Prop} (none : motive none)
    (bool : ∀ b, motive (bool b)) (int : ∀ n, motive (int n)) (float : ∀ x, motive (float x))
    (str : ∀ s, motive (str s)) (list : ∀ xs, (∀ v ∈ xs, motive v) → motive (list xs))
    (dict : ∀ items, (∀ e ∈ items, motive e.2) → motive (dict items)) (v : PyValue φ) : motive v :=
  @PyValue.rec φ motive (fun l => ∀ v ∈ l, motive v) (fun l => ∀ e ∈ l, motive e.2)
    (fun e => motive e.2) none bool int float str list dict nofun
    (fun _ _ hv hl => List.forall_mem_cons.2 ⟨hv, hl⟩) nofun
    (fun _ _ he hl => List.forall_mem_cons.2 ⟨he, hl⟩) (fun _ _ hv => hv) v

theorem dumpsItems_eq {fl : PyDouble → PyStr} (items : List (PyStr × PyValue PyDouble)) :
    dumpsItems fl items = items.map fun e => (e.1, dumpsSorted fl e.2) := by
  induction items with
  | nil => rfl
  | cons e items ih =>
      obtain ⟨k, v⟩ := e
      rw [dumpsItems, List.map_cons, ih]

theorem keys_dumpsItems {fl : PyDouble → PyStr} (items : List (PyStr × PyValue PyDouble)) :
    (dumpsItems fl items).map Prod.fst = items.map Prod.fst := by
  rw [dumpsItems_eq, List.map_map]
  rfl

theorem lookup_of_sameItems {xs ys : List (PyStr × PyValue PyDouble)}
    (h : sameItems xs ys = true) :
    ∀ e ∈ xs, ∃ y, PyDict.lookup ys e.1 = some y ∧ same e.2 y = true := by
  induction xs with
  | nil => exact nofun
  | cons e xs ih =>
      obtain ⟨k, x⟩ := e
      rw [sameItems, Bool.and_eq_true] at h
      refine List.forall_mem_cons.2 ⟨?_, ih h.2⟩
      cases hy : PyDict.lookup ys k with
      | none =>
          rw [hy] at h
          cases h.1
      | some y =>
          rw [hy] at h
          exact ⟨y, rfl, h.1⟩

theorem sameKind_of_lookup {xs ys : List (PyStr × PyValue PyDouble)}
    (h : sameKindItems xs ys = true) :
    ∀ e ∈ xs, ∀ y, PyDict.lookup ys e.1 = some y → sameKind e.2 y = true := by
  induction xs with
  | nil => exact nofun
  | cons e xs ih =>
      obtain ⟨k, x⟩ := e
      rw [sameKindItems, Bool.and_eq_true] at h
      refine List.forall_mem_cons.2 ⟨fun y hy => ?_, ih h.2⟩
      dsimp only at hy ⊢
      rw [hy] at h
      exact h.1

/-- Sorted items are sorted strictly when no key occurs twice. -/
theorem sortItems_strict {l : List (PyStr × PyStr)} (h : (l.map Prod.fst).Nodup) :
    (sortItems l).Pairwise fun a b => a.1 < b.1 := by
  have hle : (sortItems l).Pairwise fun a b => a.1 ≤ b.1 := by
    have : Std.Total fun a b : PyStr × PyStr => a.1 ≤ b.1 := ⟨fun a b => le_total a.1 b.1⟩
    have : IsTrans (PyStr × PyStr) fun a b => a.1 ≤ b.1 := ⟨fun a b c => le_trans⟩
    exact List.pairwise_insertionSort _ l
  have hne : (sortItems l).Pairwise fun a b => a.1 ≠ b.1 := by
    have hperm := (List.perm_insertionSort (fun a b : PyStr × PyStr => a.1 ≤ b.1) l).map Prod.fst
    exact List.pairwise_map.1 (hperm.nodup_iff.2 h)
  exact (hle.and hne).imp fun hab => lt_of_le_of_ne hab.1 hab.2

/-- What is written in the order of the keys depends on the items alone. -/
theorem sortItems_congr {l l' : List (PyStr × PyStr)} (h : (l.map Prod.fst).Nodup)
    (h' : (l'.map Prod.fst).Nodup) (hmem : ∀ e, e ∈ l ↔ e ∈ l') : sortItems l = sortItems l' := by
  have : Std.Antisymm fun a b : PyStr × PyStr => a.1 < b.1 :=
    ⟨fun a b hab hba => absurd hba (lt_asymm hab)⟩
  have : Std.Irrefl fun a b : PyStr × PyStr => a.1 < b.1 := ⟨fun a => lt_irrefl a.1⟩
  refine (sortItems_strict h).eq_of_mem_iff (sortItems_strict h') fun e => ?_
  rw [sortItems, sortItems, List.mem_insertionSort, List.mem_insertionSort]
  exact hmem e

section Congruence

variable {fl : PyDouble → PyStr}

theorem dumpsList_congr {xs ys : List (PyValue PyDouble)}
    (ih : ∀ v ∈ xs, ∀ {b}, same v b = true → sameKind v b = true → UniqueKeys v → UniqueKeys b →
      dumpsSorted fl v = dumpsSorted fl b)
    (hsame : sameList xs ys = true) (hkind : sameKindList xs ys = true)
    (hxs : ∀ v ∈ xs, UniqueKeys v) (hys : ∀ v ∈ ys, UniqueKeys v) :
    dumpsList fl xs = dumpsList fl ys := by
  induction xs generalizing ys with
  | nil =>
      cases ys with
      | nil => rfl
      | cons y ys => cases hsame
  | cons x xs ih' =>
      cases ys with
      | nil => cases hsame
      | cons y ys =>
          rw [sameList, Bool.and_eq_true] at hsame
          rw [sameKindList, Bool.and_eq_true] at hkind
          obtain ⟨hx, hxs⟩ := List.forall_mem_cons.1 hxs
          obtain ⟨hy, hys⟩ := List.forall_mem_cons.1 hys
          rw [dumpsList, dumpsList, ih x List.mem_cons_self hsame.1 hkind.1 hx hy,
            ih' (fun v hv => ih v (List.mem_cons_of_mem _ hv)) hsame.2 hkind.2 hxs hys]

/-- Dictionaries with the same keys and equal values have the same texts at their keys. -/
theorem mem_dumpsItems_iff {xs ys : List (PyStr × PyValue PyDouble)}
    (ih : ∀ e ∈ xs, ∀ {b}, same e.2 b = true → sameKind e.2 b = true → UniqueKeys e.2 →
      UniqueKeys b → dumpsSorted fl e.2 = dumpsSorted fl b)
    (hkeys : sameKeys xs ys = true) (hsame : sameItems xs ys = true)
    (hkind : sameKindItems xs ys = true) (hxs : ∀ e ∈ xs, UniqueKeys e.2)
    (hys : (ys.map Prod.fst).Nodup ∧ ∀ e ∈ ys, UniqueKeys e.2) (e : PyStr × PyStr) :
    e ∈ dumpsItems fl xs ↔ e ∈ dumpsItems fl ys := by
  -- The text at a key on the left is the text at this key on the right.
  have hright : ∀ e ∈ xs, ∃ y, (e.1, y) ∈ ys ∧ dumpsSorted fl e.2 = dumpsSorted fl y := by
    intro e he
    obtain ⟨y, hy, hey⟩ := lookup_of_sameItems hsame e he
    have hmem := PyDict.mem_of_lookup hy
    exact ⟨y, hmem, ih e he hey (sameKind_of_lookup hkind e he y hy) (hxs e he) (hys.2 _ hmem)⟩
  rw [dumpsItems_eq, dumpsItems_eq, List.mem_map, List.mem_map]
  constructor
  · rintro ⟨x, hx, rfl⟩
    obtain ⟨y, hy, htext⟩ := hright x hx
    exact ⟨_, hy, by rw [htext]⟩
  · rintro ⟨y, hy, rfl⟩
    rw [sameKeys, Bool.and_eq_true] at hkeys
    obtain ⟨x, hx⟩ := Option.isSome_iff_exists.1 (List.all_eq_true.1 hkeys.2 y hy)
    have hmem := PyDict.mem_of_lookup hx
    obtain ⟨y', hy', htext⟩ := hright _ hmem
    have heq : y' = y.2 := by
      have hlookup := PyDict.lookup_of_mem hys.1 hy'
      rw [PyDict.lookup_of_mem hys.1 hy] at hlookup
      exact (Option.some.inj hlookup).symm
    exact ⟨_, hmem, by rw [htext, heq]⟩

/-- **Equal values whose numbers are of one kind have one text.** -/
theorem dumpsSorted_congr {a b : PyValue PyDouble} (hsame : same a b = true)
    (hkind : sameKind a b = true) (ha : UniqueKeys a) (hb : UniqueKeys b) :
    dumpsSorted fl a = dumpsSorted fl b := by
  induction a using nestedInduction generalizing b with
  | none =>
      cases b with
      | none => rfl
      | _ => cases hsame
  | bool x =>
      cases b with
      | bool y =>
          rw [same, beq_iff_eq] at hsame
          rw [hsame]
      | _ => cases hsame
  | int n =>
      cases b with
      | int m =>
          rw [same, beq_iff_eq] at hsame
          rw [hsame]
      | float y => cases hkind
      | _ => cases hsame
  | float x =>
      cases b with
      | float y =>
          rw [same] at hsame
          rw [sameKind] at hkind
          rw [PyDouble.eq_of_same hsame hkind]
      | int m => cases hkind
      | _ => cases hsame
  | str s =>
      cases b with
      | str t =>
          rw [same, beq_iff_eq] at hsame
          rw [hsame]
      | _ => cases hsame
  | list xs ih =>
      cases b with
      | list ys =>
          rw [same] at hsame
          rw [sameKind] at hkind
          rw [dumpsSorted, dumpsSorted, dumpsList_congr ih hsame hkind (uniqueKeys_list.1 ha)
            (uniqueKeys_list.1 hb)]
      | _ => cases hsame
  | dict items ih =>
      cases b with
      | dict ys =>
          rw [same, Bool.and_eq_true] at hsame
          rw [sameKind] at hkind
          rw [uniqueKeys_dict] at ha hb
          rw [dumpsSorted, dumpsSorted,
            sortItems_congr (by rw [keys_dumpsItems]; exact ha.1)
              (by rw [keys_dumpsItems]; exact hb.1)
              (mem_dumpsItems_iff ih hsame.1 hsame.2 hkind ha.2 hb)]
      | _ => cases hsame

end Congruence

end PyValue
