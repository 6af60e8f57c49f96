/-
**Results of MCP tools: what is left out is still there.**

A tool answers with blocks of content and, often, with the same data once more as structured
content.  The payload for the model keeps the blocks and leaves out of the structured content what
a block already says.  Equal values are found by machine only: JSON values, whatever their spelling,
at the same path.

Main definitions:

* `Json.same`, `Json.additional` — `_same` and `_additional`;
* `McpResult`, `McpResult.normalize` — a result of a tool, and its payload;
* `Json.valueAt`, `Json.IsLeaf`, `Json.Subtree` — paths, leaves and sub-trees;
* `Json.Told` — the candidates tell a leaf;
* `McpResult.Recoverable` — where a leaf can be found in a payload.

Main results:

* `Json.subtree_additional` — nothing is added or changed;
* `Json.missing_iff` — **which leaves are left out**;
* `McpResult.lossless` — and every leaf of the structured content is in the payload.
-/

import CatAgent.JsonText
import CatAgent.PyValue

set_option relaxedAutoImplicit false
set_option autoImplicit false

namespace Json

/-! ### Equal values -/

mutual

/-- The value of the program: a JSON number with a fraction or an exponent is a finite float. -/
def toPyValue : Json → PyValue PyDouble
  | null => PyValue.none
  | bool b => PyValue.bool b
  | int n => PyValue.int n
  | num q => PyValue.float (PyDouble.finite q)
  | str s => PyValue.str s
  | arr xs => PyValue.list (toPyList xs)
  | obj items => PyValue.dict (toPyItems items)

/-- The values of the elements. -/
def toPyList : List Json → List (PyValue PyDouble)
  | [] => []
  | v :: l => toPyValue v :: toPyList l

/-- The values of the items. -/
def toPyItems : List (PyStr × Json) → List (PyStr × PyValue PyDouble)
  | [] => []
  | (k, v) :: l => (k, toPyValue v) :: toPyItems l

end

/-- `_same(left, right)`: numbers are compared as decimals. -/
def same (v w : Json) : Bool := PyValue.same v.toPyValue w.toPyValue

/-- `isinstance(v, dict)`. -/
def isObject : Json → Bool
  | obj _ => true
  | _ => false

mutual

/-- `_additional(value, candidates)`; `none` is `_ABSENT`. -/
def additional : Json → List Json → Option Json
  | obj items, candidates =>
      if candidates ≠ [] ∧ candidates.all (same (obj items)) then none
      else if items ≠ [] then
        -- A value of another kind contradicts the whole object.
        if candidates.any fun other => !isObject other then some (obj items)
        else
          match additionalItems items candidates with
          | [] => none
          | rest => some (obj rest)
      else some (obj items)
  | v, candidates => if candidates ≠ [] ∧ candidates.all (same v) then none else some v

/-- The items of an object, each with the candidates that have its key. -/
def additionalItems : List (PyStr × Json) → List Json → List (PyStr × Json)
  | [], _ => []
  | (key, item) :: items, candidates =>
      match additional item (candidates.filterMap (get key)) with
      | none => additionalItems items candidates
      | some rest => (key, rest) :: additionalItems items candidates

end

end Json

/-! ### Results of tools -/

/-- A JSON value in which no object has a key twice. -/
abbrev JsonValue := { v : Json // v.WellFormed }

/-- A result of a tool; a block is the dictionary that `model_dump` makes of it. -/
structure McpResult where
  content : List (List (PyStr × Json))
  isError : Bool
  /-- `structured_content`; `None` is `null`. -/
  structuredContent : JsonValue

namespace McpResult

/-- What `json.loads` raises in `_parse_text`: a `ValueError`, its own or that of a hook, or the
`InvalidOperation` of `Decimal`, which is none. -/
inductive ParseError where
  | valueError
  | invalidOperation
deriving DecidableEq

instance : Failing (Except ParseError) := ⟨Except.error ParseError.valueError⟩

/-- The hooks of `_parse_text`, with any `parse_float`. -/
def hooks {m : Type → Type} [Monad m] [Failing m] (parseFloat : PyStr → m Json) :
    JsonHooks m Json where
  null := Json.null
  bool := Json.bool
  int := Json.int
  parseFloat := parseFloat
  str := Json.str
  list := Json.arr
  objectPairs := fun pairs =>
    if (pairs.map Prod.fst).Nodup then pure (Json.obj pairs) else Failing.fail
  parseConstant := fun _ => Failing.fail

/-- `parse_float=Decimal`. -/
def parseFloat (text : PyStr) : Except ParseError Json :=
  if Json.isDecimal text then Except.ok (Json.num (Json.decimal text))
  else Except.error ParseError.invalidOperation

/-- `_parse_text(text)`; `none` is `_ABSENT`.  On the texts in `beyond` a limit of the interpreter
makes `json.loads` raise a `ValueError` or a `RecursionError`. -/
def parseText (beyond : PyStr → Bool) (text : PyStr) : Except ParseError (Option Json) :=
  if beyond text then Except.ok none
  else
    match (hooks parseFloat).loads text with
    | Except.ok v => Except.ok (some v)
    | Except.error ParseError.valueError => Except.ok none
    | Except.error ParseError.invalidOperation => Except.error ParseError.invalidOperation

/-- The text of a block, if it is a block of text. -/
def blockText (block : List (PyStr × Json)) : Option PyStr :=
  match Json.find (PyStr.ofString "type") block, Json.find (PyStr.ofString "text") block with
  | some (Json.str kind), some (Json.str text) =>
      if kind = PyStr.ofString "text" then some text else none
  | _, _ => none

/-- An item of a list is what a text says, or what it says as JSON. -/
def itemSays (item : Json) (said : PyStr × Option Json) : Bool :=
  match item with
  | Json.str s => Json.same (Json.str s) (Json.str said.1)
  | item =>
      match said.2 with
      | some v => Json.same item v
      | none => false

/-- Whether the value of the wrapper `{"result": value}` is told by the texts, each of them with what
it says as JSON. -/
def wrapperTold (value : Json) (texts : List (PyStr × Option Json)) (blocks : ℕ) : Bool :=
  let candidates := texts.filterMap Prod.snd
  (texts.map (fun said => Json.str said.1) == [value]) ||
    (!candidates.isEmpty && candidates.all (Json.same value)) ||
    match value with
    | Json.arr items =>
        !items.isEmpty && items.length == texts.length && texts.length == blocks &&
          (items.zip texts).all fun e => itemSays e.1 e.2
    | _ => false

/-- What is left of the structured content. -/
def structuredRest (result : McpResult) (texts : List (PyStr × Option Json)) : Option Json :=
  match result.structuredContent.val with
  | Json.null => none
  | Json.obj [(key, value)] =>
      if key = PyStr.ofString "result" ∧
          wrapperTold value texts result.content.length = true then none
      else result.structuredContent.val.additional (texts.filterMap Prod.snd)
  | structured => structured.additional (texts.filterMap Prod.snd)

/-- The texts of the blocks. -/
def texts (result : McpResult) : List PyStr := result.content.filterMap blockText

/-- `normalize_mcp_result(result)`.  A text that is parsed once more for the wrapper says the
same. -/
def normalize (beyond : PyStr → Bool) (result : McpResult) :
    Except ParseError (List (PyStr × Json)) := do
  let said ← result.texts.mapM fun text => (fun v => (text, v)) <$> parseText beyond text
  pure ([(PyStr.ofString "isError", Json.bool result.isError),
      (PyStr.ofString "content", Json.arr (result.content.map Json.obj))] ++
    match structuredRest result said with
    | some rest => [(PyStr.ofString "structuredContent", rest)]
    | none => [])

end McpResult

namespace Json

/-! ### Paths, leaves and sub-trees -/

/-- The value at a path of keys. -/
def valueAt : List PyStr → Json → Option Json
  | [], v => some v
  | k :: p, v => (get k v).bind (valueAt p)

/-- A scalar, an array or an empty object. -/
def IsLeaf : Json → Prop
  | obj items => items = []
  | _ => True

mutual

/-- A sub-tree: some fields are left out, and none of the objects is emptied. -/
inductive Subtree : Json → Json → Prop
  | whole (v : Json) : Subtree v v
  | fields {xs ys : List (PyStr × Json)} : Subfields xs ys → xs ≠ [] → Subtree (obj xs) (obj ys)

/-- Fields that are left out, or kept with a sub-tree. -/
inductive Subfields : List (PyStr × Json) → List (PyStr × Json) → Prop
  | nil : Subfields [] []
  | drop (e : PyStr × Json) {xs ys : List (PyStr × Json)} : Subfields xs ys → Subfields xs (e :: ys)
  | keep (k : PyStr) {x y : Json} {xs ys : List (PyStr × Json)} : Subtree x y → Subfields xs ys →
      Subfields ((k, x) :: xs) ((k, y) :: ys)

end

mutual

/-- **Nothing is added or changed.** -/
theorem subtree_additional (v : Json) (candidates : List Json) {r : Json}
    (h : additional v candidates = some r) : Subtree r v := by
  match v with
  | obj items =>
      unfold additional at h
      split at h
      · cases h
      split at h
      · split at h
        · cases h
          exact Subtree.whole _
        · split at h
          · cases h
          · rename_i hne
            cases h
            exact Subtree.fields (subfields_additionalItems items candidates) hne
      · cases h
        exact Subtree.whole _
  | null | bool _ | int _ | num _ | str _ | arr _ =>
      unfold additional at h
      split at h
      · cases h
      · cases h
        exact Subtree.whole _

theorem subfields_additionalItems (items : List (PyStr × Json)) (candidates : List Json) :
    Subfields (additionalItems items candidates) items := by
  match items with
  | [] => exact Subfields.nil
  | (key, item) :: items =>
      unfold additionalItems
      split
      · exact Subfields.drop _ (subfields_additionalItems items candidates)
      · rename_i rest hrest
        exact Subfields.keep key (subtree_additional item _ hrest)
          (subfields_additionalItems items candidates)

end

/-! ### Which leaves are left out -/

/-- The candidates tell the leaf `x` at the path `p`: one of them holds the path, all that hold it
have the same value there, and none has something else than an object on the way. -/
structure Told (p : List PyStr) (x : Json) (candidates : List Json) : Prop where
  held : ∃ c ∈ candidates, (valueAt p c).isSome
  agreed : ∀ c ∈ candidates, ∀ y, valueAt p c = some y → same x y = true
  objects : ∀ c ∈ candidates, ∀ q, q <+: p → q ≠ p → ∀ y, valueAt q c = some y →
    isObject y = true

theorem told_nil_iff {x : Json} {candidates : List Json} :
    Told [] x candidates ↔ candidates ≠ [] ∧ candidates.all (same x) = true := by
  rw [List.all_eq_true]
  constructor
  · intro h
    obtain ⟨c, hc, _⟩ := h.held
    exact ⟨List.ne_nil_of_mem hc, fun c hc => h.agreed c hc c rfl⟩
  · rintro ⟨hne, hall⟩
    obtain ⟨c, hc⟩ := List.exists_mem_of_ne_nil _ hne
    refine ⟨⟨c, hc, rfl⟩, fun c hc y hy => ?_, fun c _ q hq hne => ?_⟩
    · cases hy
      exact hall c hc
    · exact absurd (List.prefix_nil.1 hq) hne

theorem mem_filterMap_get {k : PyStr} {candidates : List Json} {c : Json}
    (h : c ∈ candidates.filterMap (get k)) : ∃ o ∈ candidates, get k o = some c :=
  List.mem_filterMap.1 h

/-- One step along the path. -/
theorem told_cons_iff {k : PyStr} {p : List PyStr} {x : Json} {candidates : List Json} :
    Told (k :: p) x candidates ↔
      (∀ c ∈ candidates, isObject c = true) ∧ Told p x (candidates.filterMap (get k)) := by
  constructor
  · intro h
    refine ⟨fun c hc => h.objects c hc [] List.nil_prefix (List.cons_ne_nil k p).symm c rfl,
      ?_, ?_, ?_⟩
    · obtain ⟨c, hc, hsome⟩ := h.held
      obtain ⟨y, hy⟩ := Option.isSome_iff_exists.1 hsome
      obtain ⟨w, hw, hwy⟩ := Option.bind_eq_some_iff.1 hy
      exact ⟨w, List.mem_filterMap.2 ⟨c, hc, hw⟩, by rw [hwy]; rfl⟩
    · intro w hw y hy
      obtain ⟨c, hc, hget⟩ := mem_filterMap_get hw
      exact h.agreed c hc y (Option.bind_eq_some_iff.2 ⟨w, hget, hy⟩)
    · intro w hw q hq hne y hy
      obtain ⟨c, hc, hget⟩ := mem_filterMap_get hw
      refine h.objects c hc (k :: q) (List.prefix_cons_inj k |>.2 hq) ?_ y
        (Option.bind_eq_some_iff.2 ⟨w, hget, hy⟩)
      intro heq
      exact hne (List.tail_eq_of_cons_eq heq)
  · rintro ⟨hobjects, h⟩
    refine ⟨?_, ?_, ?_⟩
    · obtain ⟨w, hw, hsome⟩ := h.held
      obtain ⟨c, hc, hget⟩ := mem_filterMap_get hw
      obtain ⟨y, hy⟩ := Option.isSome_iff_exists.1 hsome
      exact ⟨c, hc, Option.isSome_iff_exists.2
        ⟨y, Option.bind_eq_some_iff.2 ⟨w, hget, hy⟩⟩⟩
    · intro c hc y hy
      obtain ⟨w, hget, hwy⟩ := Option.bind_eq_some_iff.1 hy
      exact h.agreed w (List.mem_filterMap.2 ⟨c, hc, hget⟩) y hwy
    · intro c hc q hq hne y hy
      rcases List.prefix_cons_iff.1 hq with rfl | ⟨q', rfl, hq'⟩
      · cases hy
        exact hobjects c hc
      · obtain ⟨w, hget, hwy⟩ := Option.bind_eq_some_iff.1 hy
        refine h.objects w (List.mem_filterMap.2 ⟨c, hc, hget⟩) q' hq' ?_ y hwy
        rintro rfl
        exact hne rfl

theorem additional_of_same {v : Json} {candidates : List Json} (hne : candidates ≠ [])
    (hall : candidates.all (same v) = true) : additional v candidates = none := by
  cases v with
  | obj items =>
      unfold additional
      exact if_pos ⟨hne, hall⟩
  | null | bool _ | int _ | num _ | str _ | arr _ =>
      unfold additional
      exact if_pos ⟨hne, hall⟩

theorem additional_leaf {v : Json} {candidates : List Json} (hleaf : IsLeaf v)
    (h : ¬ (candidates ≠ [] ∧ candidates.all (same v) = true)) :
    additional v candidates = some v := by
  cases v with
  | obj items =>
      have hitems : items = [] := hleaf
      subst hitems
      unfold additional
      rw [if_neg h, if_neg (not_not_intro rfl)]
  | null | bool _ | int _ | num _ | str _ | arr _ =>
      unfold additional
      exact if_neg h

/-! ### The fields of an object -/

theorem find_isSome_iff {k : PyStr} {items : List (PyStr × Json)} :
    (find k items).isSome = true ↔ k ∈ items.map Prod.fst := by
  induction items with
  | nil => simp
  | cons e items ih =>
      obtain ⟨k', v⟩ := e
      rw [find_cons, List.map_cons, List.mem_cons]
      by_cases h : k' = k
      · simp [h]
      · rw [if_neg h, ih]
        exact ⟨Or.inr, fun hk => hk.resolve_left (Ne.symm h)⟩

theorem find_eq_none_iff {k : PyStr} {items : List (PyStr × Json)} :
    find k items = none ↔ k ∉ items.map Prod.fst := by
  rw [← find_isSome_iff, Option.not_isSome_iff_eq_none]

theorem mem_of_find {k : PyStr} {items : List (PyStr × Json)} {w : Json}
    (h : find k items = some w) : (k, w) ∈ items := by
  induction items with
  | nil => cases h
  | cons e items ih =>
      obtain ⟨k', v⟩ := e
      rw [find_cons] at h
      by_cases hk : k' = k
      · rw [if_pos hk] at h
        cases h
        rw [hk]
        exact List.mem_cons_self
      · rw [if_neg hk] at h
        exact List.mem_cons_of_mem _ (ih h)

theorem keys_additionalItems (items : List (PyStr × Json)) (candidates : List Json) :
    ((additionalItems items candidates).map Prod.fst).Sublist (items.map Prod.fst) := by
  induction items with
  | nil => exact List.Sublist.slnil
  | cons e items ih =>
      obtain ⟨k, v⟩ := e
      unfold additionalItems
      split
      · exact ih.cons _
      · exact ih.cons_cons _

/-- A field is what is left of it. -/
theorem find_additionalItems {k : PyStr} {items : List (PyStr × Json)} {w : Json}
    (hnodup : (items.map Prod.fst).Nodup) (hw : find k items = some w) (candidates : List Json) :
    find k (additionalItems items candidates) = additional w (candidates.filterMap (get k)) := by
  induction items with
  | nil => cases hw
  | cons e items ih =>
      obtain ⟨k', v⟩ := e
      rw [List.map_cons, List.nodup_cons] at hnodup
      rw [find_cons] at hw
      unfold additionalItems
      by_cases hk : k' = k
      · rw [if_pos hk] at hw
        cases hw
        subst hk
        cases additional w (candidates.filterMap (get k')) with
        | none =>
            exact find_eq_none_iff.2 fun hmem =>
              hnodup.1 ((keys_additionalItems items candidates).subset hmem)
        | some rest => exact if_pos rfl
      · rw [if_neg hk] at hw
        cases additional v (candidates.filterMap (get k')) with
        | none => exact ih hnodup.2 hw
        | some rest =>
            dsimp only
            rw [find_cons, if_neg hk]
            exact ih hnodup.2 hw

theorem toPyItems_eq (items : List (PyStr × Json)) :
    toPyItems items = items.map fun e => (e.1, toPyValue e.2) := by
  induction items with
  | nil => rfl
  | cons e items ih =>
      obtain ⟨k, v⟩ := e
      rw [toPyItems, ih, List.map_cons]

theorem lookup_toPyItems (items : List (PyStr × Json)) (k : PyStr) :
    PyDict.lookup (toPyItems items) k = (find k items).map toPyValue := by
  induction items with
  | nil => rfl
  | cons e items ih =>
      obtain ⟨k', v⟩ := e
      rw [toPyItems, PyDict.lookup_cons, find_cons, ih]
      split <;> rfl

theorem isObject_of_same {items : List (PyStr × Json)} {c : Json}
    (h : same (obj items) c = true) : isObject c = true := by
  cases c with
  | obj ys => rfl
  | null | bool _ | int _ | num _ | str _ | arr _ => simp [same, toPyValue, PyValue.same] at h

/-- Equal objects have equal fields. -/
theorem get_of_same {k : PyStr} {items : List (PyStr × Json)} {w c : Json}
    (h : same (obj items) c = true) (hw : find k items = some w) :
    ∃ y, get k c = some y ∧ same w y = true := by
  cases c with
  | obj ys =>
      rw [same, toPyValue, toPyValue, PyValue.same, Bool.and_eq_true] at h
      have hmem : (k, toPyValue w) ∈ toPyItems items := by
        rw [toPyItems_eq]
        exact List.mem_map.2 ⟨_, mem_of_find hw, rfl⟩
      obtain ⟨y, hy, hsame⟩ := PyValue.lookup_of_sameItems h.2 _ hmem
      rw [lookup_toPyItems] at hy
      obtain ⟨y, hy', rfl⟩ := Option.map_eq_some_iff.1 hy
      exact ⟨y, hy', hsame⟩
  | null | bool _ | int _ | num _ | str _ | arr _ => cases isObject_of_same h

/-- An object that is not left out as a whole is left out field by field, unless a candidate is
something else. -/
theorem additional_obj {items : List (PyStr × Json)} {candidates : List Json}
    (hne : items ≠ []) (h : ¬ (candidates ≠ [] ∧ candidates.all (same (obj items)) = true))
    (hobjects : ∀ c ∈ candidates, isObject c = true) (k : PyStr) (p : List PyStr) :
    (additional (obj items) candidates).bind (valueAt (k :: p)) =
      (find k (additionalItems items candidates)).bind (valueAt p) := by
  have hany : (candidates.any fun other => !isObject other) = false := by
    rw [List.any_eq_false]
    intro c hc
    rw [hobjects c hc]
    decide
  unfold additional
  rw [if_neg h, if_pos hne, hany, if_neg Bool.false_ne_true]
  cases additionalItems items candidates with
  | nil => rfl
  | cons e rest => rfl

/-- **A leaf is left out exactly when the candidates tell it**, and is kept as it is otherwise. -/
theorem valueAt_additional {v x : Json} (hv : WellFormed v) {p : List PyStr}
    (hx : valueAt p v = some x) (hleaf : IsLeaf x) (candidates : List Json) :
    (Told p x candidates → (additional v candidates).bind (valueAt p) = none) ∧
      (¬ Told p x candidates → (additional v candidates).bind (valueAt p) = some x) := by
  induction p generalizing v candidates with
  | nil =>
      cases hx
      rw [told_nil_iff]
      refine ⟨fun h => ?_, fun h => ?_⟩
      · rw [additional_of_same h.1 h.2]
        rfl
      · rw [additional_leaf hleaf h]
        rfl
  | cons k p ih =>
      obtain ⟨w, hget, hwx⟩ := Option.bind_eq_some_iff.1 hx
      cases v with
      | null | bool _ | int _ | num _ | str _ | arr _ => cases hget
      | obj items =>
          rw [get_obj] at hget
          have hne : items ≠ [] := by
            rintro rfl
            cases hget
          have hw : WellFormed w := (wellFormedItems_iff items).1 hv.2 _ (mem_of_find hget)
          have hstep := ih hw hwx (candidates.filterMap (get k))
          rw [told_cons_iff]
          by_cases hsame : candidates ≠ [] ∧ candidates.all (same (obj items)) = true
          · -- The candidates below are the equal fields of equal objects.
            have hall := List.all_eq_true.1 hsame.2
            have hbelow : ∀ c ∈ candidates.filterMap (get k), same w c = true := by
              intro c hc
              obtain ⟨o, ho, hoc⟩ := mem_filterMap_get hc
              obtain ⟨y, hy, hwy⟩ := get_of_same (hall o ho) hget
              rw [hoc] at hy
              cases hy
              exact hwy
            have hsome : candidates.filterMap (get k) ≠ [] := by
              obtain ⟨o, ho⟩ := List.exists_mem_of_ne_nil _ hsame.1
              obtain ⟨y, hy, _⟩ := get_of_same (hall o ho) hget
              exact List.ne_nil_of_mem (List.mem_filterMap.2 ⟨o, ho, hy⟩)
            have htold : Told p x (candidates.filterMap (get k)) := by
              by_contra hnot
              have hkept := hstep.2 hnot
              rw [additional_of_same hsome (List.all_eq_true.2 hbelow)] at hkept
              cases hkept
            rw [additional_of_same hsame.1 hsame.2]
            exact ⟨fun _ => rfl,
              fun hnot => absurd ⟨fun c hc => isObject_of_same (hall c hc), htold⟩ hnot⟩
          · by_cases hobjects : ∀ c ∈ candidates, isObject c = true
            · rw [additional_obj hne hsame hobjects, find_additionalItems hv.1 hget]
              exact ⟨fun h => hstep.1 h.2, fun h => hstep.2 fun htold => h ⟨hobjects, htold⟩⟩
            · -- The whole object is kept.
              have hany : (candidates.any fun other => !isObject other) = true := by
                push Not at hobjects
                obtain ⟨c, hc, hkind⟩ := hobjects
                refine List.any_eq_true.2 ⟨c, hc, ?_⟩
                rw [Bool.eq_false_iff.2 hkind]
                rfl
              have hkept : additional (obj items) candidates = some (obj items) := by
                unfold additional
                rw [if_neg hsame, if_pos hne, hany, if_pos rfl]
              rw [hkept]
              exact ⟨fun h => absurd h.1 hobjects, fun _ => hx⟩

/-- Every value has a leaf. -/
theorem exists_leaf (v : Json) : ∃ p x, valueAt p v = some x ∧ IsLeaf x := by
  induction v using nestedInduction with
  | null => exact ⟨[], _, rfl, trivial⟩
  | bool b => exact ⟨[], _, rfl, trivial⟩
  | int n => exact ⟨[], _, rfl, trivial⟩
  | num q => exact ⟨[], _, rfl, trivial⟩
  | str s => exact ⟨[], _, rfl, trivial⟩
  | arr xs => exact ⟨[], _, rfl, trivial⟩
  | obj items ih =>
      cases items with
      | nil => exact ⟨[], _, rfl, rfl⟩
      | cons e items =>
          obtain ⟨p, x, hx, hleaf⟩ := ih e List.mem_cons_self
          refine ⟨e.1 :: p, x, ?_, hleaf⟩
          rw [valueAt, get_obj, find_cons, if_pos rfl]
          exact hx

end Json

/-! ### Texts that cannot be parsed -/

/-- A reading that notes the texts of the floats that it comes to. -/
structure Noted (α : Type) where
  texts : List PyStr
  value : Option α

namespace Noted

variable {α β : Type}

instance : Monad Noted where
  pure a := ⟨[], some a⟩
  bind x f :=
    match x.value with
    | some a => ⟨x.texts ++ (f a).texts, (f a).value⟩
    | none => ⟨x.texts, none⟩

instance : Failing Noted := ⟨⟨[], none⟩⟩

theorem bind_some (ts : List PyStr) (a : α) (f : α → Noted β) :
    (⟨ts, some a⟩ : Noted α) >>= f = ⟨ts ++ (f a).texts, (f a).value⟩ := rfl

end Noted

namespace McpResult

/-- The reading raises `InvalidOperation` exactly when it comes to a float that `Decimal` does not
hold; otherwise both read related values, or nothing. -/
def Meets {α β : Type} (R : α → β → Prop) : Except ParseError α → Noted β → Prop
  | Except.ok a, y => (∀ t ∈ y.texts, Json.isDecimal t = true) ∧ ∃ b, y.value = some b ∧ R a b
  | Except.error ParseError.valueError, y =>
      (∀ t ∈ y.texts, Json.isDecimal t = true) ∧ y.value = none
  | Except.error ParseError.invalidOperation, y => ∃ t ∈ y.texts, Json.isDecimal t = false

section Meets

variable {α β γ δ : Type} {R : α → β → Prop} {S : γ → δ → Prop}

/-- What has been noted before does not matter if `Decimal` holds all of it. -/
theorem meets_append {x : Except ParseError α} {y : Noted β} {ts : List PyStr}
    (hall : ∀ t ∈ ts, Json.isDecimal t = true) (h : Meets R x y) :
    Meets R x ⟨ts ++ y.texts, y.value⟩ := by
  rcases x with (_ | _) | a
  · exact ⟨List.forall_mem_append.2 ⟨hall, h.1⟩, h.2⟩
  · obtain ⟨t, ht, hbad⟩ := h
    exact ⟨t, List.mem_append_right _ ht, hbad⟩
  · exact ⟨List.forall_mem_append.2 ⟨hall, h.1⟩, h.2⟩

theorem meets_bind {x : Except ParseError α} {y : Noted β} {f : α → Except ParseError γ}
    {g : β → Noted δ} (h : Meets R x y) (hfg : ∀ a b, R a b → Meets S (f a) (g b)) :
    Meets S (x >>= f) (y >>= g) := by
  obtain ⟨ts, o⟩ := y
  rcases x with (_ | _) | a
  · -- A `ValueError` ends both readings.
    obtain ⟨hall, hnone⟩ := h
    cases hnone
    exact ⟨hall, rfl⟩
  · obtain ⟨t, ht, hbad⟩ := h
    cases o with
    | none => exact ⟨t, ht, hbad⟩
    | some b => exact ⟨t, List.mem_append_left _ ht, hbad⟩
  · obtain ⟨hall, b, hb, hR⟩ := h
    cases hb
    rw [Noted.bind_some]
    exact meets_append hall (hfg a b hR)

end Meets

/-- Readings that raise, and readings that note what they come to. -/
def meets : MonadRelation (Except ParseError) Noted where
  rel := Meets
  of_pure := fun {_ _ _ _ b} h => ⟨nofun, b, rfl, h⟩
  of_bind := meets_bind
  of_map := fun {_ _ _ _ _ _ x _ f _} h hfg => by
    have hbind := meets_bind h fun a b hR => show Meets _ (pure (f a)) (pure _) from
      ⟨nofun, _, rfl, hfg a b hR⟩
    cases x <;> exact hbind
  of_fail := ⟨nofun, rfl⟩

/-- A `parse_float` that notes its argument and never raises. -/
def noteFloat (text : PyStr) : Noted Json := ⟨[text], some (Json.num (Json.decimal text))⟩

/-- The texts of the floats that `json.loads` comes to before it ends or a `ValueError` ends it. -/
def floatTexts (text : PyStr) : List PyStr := ((hooks noteFloat).loads text).texts

theorem related_hooks : JsonHooks.Related meets Eq (hooks parseFloat) (hooks noteFloat) where
  null := rfl
  bool := fun _ => rfl
  int := fun _ => rfl
  parseFloat := fun t => by
    change Meets Eq (parseFloat t) (noteFloat t)
    unfold parseFloat
    split
    · rename_i hdecimal
      exact ⟨List.forall_mem_singleton.2 hdecimal, _, rfl, rfl⟩
    · rename_i hnot
      exact ⟨t, List.mem_singleton_self t, Bool.eq_false_iff.2 hnot⟩
  str := fun _ => rfl
  list := fun xs ys h => by
    rw [List.forall₂_eq_eq_eq] at h
    rw [h]
    rfl
  objectPairs := fun xs ys h => by
    have heq : List.Forall₂ Eq xs ys := h.imp fun _ _ he => Prod.ext he.1 he.2
    rw [List.forall₂_eq_eq_eq] at heq
    subst heq
    unfold hooks
    dsimp only
    split
    · exact meets.of_pure rfl
    · exact meets.of_fail
  parseConstant := fun _ => meets.of_fail

variable {beyond : PyStr → Bool} {result : McpResult}

/-- **A text is parsed unless the reader comes to a float that `Decimal` does not hold.** -/
theorem parseText_ok_iff (text : PyStr) :
    (∃ v, parseText beyond text = Except.ok v) ↔
      beyond text = true ∨ ∀ t ∈ floatTexts text, Json.isDecimal t = true := by
  have hread : Meets Eq ((hooks parseFloat).loads text) ((hooks noteFloat).loads text) :=
    JsonHooks.loads_related related_hooks text
  unfold parseText
  cases beyond text with
  | true => exact ⟨fun _ => Or.inl rfl, fun _ => ⟨none, rfl⟩⟩
  | false =>
      rw [if_neg Bool.false_ne_true]
      unfold floatTexts
      generalize (hooks parseFloat).loads text = x at hread ⊢
      rcases x with (_ | _) | v
      · exact ⟨fun _ => Or.inr hread.1, fun _ => ⟨none, rfl⟩⟩
      · obtain ⟨t, ht, hbad⟩ := hread
        refine ⟨nofun, ?_⟩
        rintro (h | h)
        · cases h
        · rw [h t ht] at hbad
          cases hbad
      · exact ⟨fun _ => Or.inr hread.1, fun _ => ⟨some v, rfl⟩⟩

/-! ### Payloads -/

section Payloads

variable (beyond : PyStr → Bool)

/-- What a text says as JSON, if it is parsed. -/
def said (text : PyStr) : Option Json :=
  match parseText beyond text with
  | Except.ok v => v
  | Except.error _ => none

/-- The texts of the blocks of a payload. -/
def payloadTexts (payload : List (PyStr × Json)) : List PyStr :=
  match Json.find (PyStr.ofString "content") payload with
  | some (Json.arr blocks) =>
      blocks.filterMap fun block =>
        match block with
        | Json.obj items => blockText items
        | _ => none
  | _ => []

/-- The JSON values of the texts of a payload. -/
def payloadValues (payload : List (PyStr × Json)) : List Json :=
  (payloadTexts payload).filterMap (said beyond)

/-- The structured content of a payload. -/
def payloadStructured (payload : List (PyStr × Json)) : Option Json :=
  Json.find (PyStr.ofString "structuredContent") payload

/-- The payload tells the value of the wrapper: by its only text, by everything that it says as
JSON, or item by item. -/
def TellsWrapped (payload : List (PyStr × Json)) (value : Json) : Prop :=
  (∃ text, payloadTexts payload = [text] ∧ value = Json.str text) ∨
    (payloadValues beyond payload ≠ [] ∧
      ∀ v ∈ payloadValues beyond payload, Json.same value v = true) ∨
    ∃ items, value = Json.arr items ∧ items.length = (payloadTexts payload).length ∧
      ∀ e ∈ items.zip (payloadTexts payload), itemSays e.1 (e.2, said beyond e.2) = true

/-- Where the leaf `x` at the path `p` of the structured content is in a payload: in its structured
content, in what a text says as JSON, or, when the structured content was a wrapper and has been
left out, in what the texts say. -/
def Recoverable (payload : List (PyStr × Json)) (structured : Json) (p : List PyStr) (x : Json) :
    Prop :=
  (∃ r, payloadStructured payload = some r ∧ Json.valueAt p r = some x) ∨
    (∃ v ∈ payloadValues beyond payload, ∃ y, Json.valueAt p v = some y ∧ Json.same x y = true) ∨
    ∃ value, structured = Json.obj [(PyStr.ofString "result", value)] ∧
      payloadStructured payload = none ∧ TellsWrapped beyond payload value

/-- The texts, each with what it says as JSON. -/
def saidTexts (result : McpResult) : List (PyStr × Option Json) :=
  result.texts.map fun text => (text, said beyond text)

end Payloads

/-- All texts are parsed before anything is put into the payload. -/
theorem mapM_parseText_iff (l : List PyStr) (l' : List (PyStr × Option Json)) :
    (l.mapM fun text => (fun v => (text, v)) <$> parseText beyond text) = Except.ok l' ↔
      (∀ text ∈ l, ∃ v, parseText beyond text = Except.ok v) ∧
        l' = l.map fun text => (text, said beyond text) := by
  induction l generalizing l' with
  | nil => exact ⟨fun h => by cases h; exact ⟨nofun, rfl⟩, fun h => by rw [h.2]; rfl⟩
  | cons text l ih =>
      rw [List.mapM_cons, List.forall_mem_cons, List.map_cons]
      cases htext : parseText beyond text with
      | error e =>
          refine ⟨nofun, fun h => ?_⟩
          obtain ⟨v, hv⟩ := h.1.1
          cases hv
      | ok v =>
          have hsaid : said beyond text = v := by rw [said, htext]
          rw [hsaid]
          cases hl : l.mapM fun text => (fun v => (text, v)) <$> parseText beyond text with
          | error e =>
              refine ⟨nofun, fun h => ?_⟩
              have hok := (ih _).2 ⟨h.1.2, rfl⟩
              rw [hl] at hok
              cases hok
          | ok rest =>
              obtain ⟨hall, hrest⟩ := (ih rest).1 hl
              subst hrest
              refine ⟨fun h => ⟨⟨⟨v, rfl⟩, hall⟩, ?_⟩, fun h => ?_⟩
              · cases h
                rfl
              · rw [h.2]
                rfl

/-- **There is a payload exactly when every text is parsed.** -/
theorem normalize_eq_ok_iff {payload : List (PyStr × Json)} :
    normalize beyond result = Except.ok payload ↔
      (∀ text ∈ result.texts, ∃ v, parseText beyond text = Except.ok v) ∧
        payload = [(PyStr.ofString "isError", Json.bool result.isError),
          (PyStr.ofString "content", Json.arr (result.content.map Json.obj))] ++
            match structuredRest result (saidTexts beyond result) with
            | some rest => [(PyStr.ofString "structuredContent", rest)]
            | none => [] := by
  unfold normalize
  cases hsaid : result.texts.mapM fun text => (fun v => (text, v)) <$> parseText beyond text with
  | error e =>
      refine ⟨nofun, fun h => ?_⟩
      have hok := (@mapM_parseText_iff beyond _ _).2 ⟨h.1, rfl⟩
      rw [hsaid] at hok
      cases hok
  | ok texts =>
      obtain ⟨hall, rfl⟩ := (mapM_parseText_iff _ _).1 hsaid
      refine ⟨fun h => ⟨hall, ?_⟩, fun h => ?_⟩
      · cases h
        rfl
      · rw [h.2]
        rfl

section Normalized

variable {payload : List (PyStr × Json)} (hpayload : normalize beyond result = Except.ok payload)

include hpayload

theorem payloadTexts_normalize : payloadTexts payload = result.texts := by
  obtain ⟨_, rfl⟩ := normalize_eq_ok_iff.1 hpayload
  unfold payloadTexts
  rw [List.cons_append, Json.find_cons, if_neg (by decide), List.cons_append, Json.find_cons,
    if_pos rfl]
  dsimp only
  rw [List.filterMap_map]
  rfl

theorem payloadStructured_normalize :
    payloadStructured payload = structuredRest result (saidTexts beyond result) := by
  obtain ⟨_, rfl⟩ := normalize_eq_ok_iff.1 hpayload
  unfold payloadStructured
  rw [List.cons_append, Json.find_cons, if_neg (by decide), List.cons_append, Json.find_cons,
    if_neg (by decide), List.nil_append]
  cases structuredRest result (saidTexts beyond result) with
  | none => rfl
  | some rest => exact if_pos (by decide)

theorem payloadValues_normalize :
    payloadValues beyond payload = (saidTexts beyond result).filterMap Prod.snd := by
  rw [payloadValues, payloadTexts_normalize hpayload, saidTexts, List.filterMap_map]
  rfl

/-- **What lets the wrapper be left out tells its value.** -/
theorem tellsWrapped_of_told {value : Json}
    (h : wrapperTold value (saidTexts beyond result) result.content.length = true) :
    TellsWrapped beyond payload value := by
  unfold wrapperTold at h
  unfold TellsWrapped
  rw [payloadValues_normalize hpayload, payloadTexts_normalize hpayload]
  simp only [Bool.or_eq_true, Bool.and_eq_true] at h
  rcases h with (h | h) | h
  · left
    have heq : result.texts.map Json.str = [value] := by
      rw [saidTexts, List.map_map, beq_iff_eq] at h
      exact h
    obtain ⟨text, l, htexts, hvalue, hl⟩ := List.map_eq_cons_iff.1 heq
    rw [List.map_eq_nil_iff.1 hl] at htexts
    exact ⟨text, htexts, hvalue.symm⟩
  · right
    left
    exact ⟨by simpa using h.1, List.all_eq_true.1 h.2⟩
  · right
    right
    cases value with
    | arr items =>
        simp only [Bool.and_eq_true, beq_iff_eq, saidTexts, List.length_map] at h
        refine ⟨items, rfl, h.1.1.2, fun e he => ?_⟩
        refine List.all_eq_true.1 h.2 (e.1, (e.2, said beyond e.2)) ?_
        rw [List.zip_map_right]
        exact List.mem_map.2 ⟨e, he, rfl⟩
    | null | bool _ | int _ | num _ | str _ | obj _ => cases h

end Normalized

/-- What is left of the structured content, or the wrapper that has been left out. -/
theorem structuredRest_cases (hpresent : result.structuredContent.val ≠ Json.null)
    (texts : List (PyStr × Option Json)) :
    (∃ value, result.structuredContent.val = Json.obj [(PyStr.ofString "result", value)] ∧
        structuredRest result texts = none ∧
        wrapperTold value texts result.content.length = true) ∨
      structuredRest result texts =
        result.structuredContent.val.additional (texts.filterMap Prod.snd) := by
  unfold structuredRest
  split
  · rename_i hnull
    exact absurd hnull hpresent
  · rename_i key value hwrapper
    split
    · rename_i htold
      exact Or.inl ⟨value, by rw [hwrapper, htold.1], rfl, htold.2⟩
    · exact Or.inr rfl
  · exact Or.inr rfl

/-- Every leaf of the structured content is in the payload. -/
theorem recoverable_normalize {payload : List (PyStr × Json)}
    (hpayload : normalize beyond result = Except.ok payload)
    (hpresent : result.structuredContent.val ≠ Json.null)
    {p : List PyStr} {x : Json} (hx : Json.valueAt p result.structuredContent.val = some x)
    (hleaf : Json.IsLeaf x) :
    Recoverable beyond payload result.structuredContent.val p x := by
  unfold Recoverable
  rw [payloadStructured_normalize hpayload]
  rcases structuredRest_cases hpresent (saidTexts beyond result) with
    ⟨value, hvalue, hnone, htold⟩ | hrest
  · exact Or.inr (Or.inr ⟨value, hvalue, hnone, tellsWrapped_of_told hpayload htold⟩)
  · obtain ⟨hmissing, hkept⟩ := Json.valueAt_additional result.structuredContent.property hx hleaf
      ((saidTexts beyond result).filterMap Prod.snd)
    by_cases htold : Json.Told p x ((saidTexts beyond result).filterMap Prod.snd)
    · -- The candidate that holds the path agrees.
      obtain ⟨c, hc, hsome⟩ := htold.held
      obtain ⟨y, hy⟩ := Option.isSome_iff_exists.1 hsome
      refine Or.inr (Or.inl ⟨c, ?_, y, hy, htold.agreed c hc y hy⟩)
      rw [payloadValues_normalize hpayload]
      exact hc
    · obtain ⟨r, hr, hrx⟩ := Option.bind_eq_some_iff.1 (hkept htold)
      exact Or.inl ⟨r, by rw [hrest, hr], hrx⟩

/-- The reader comes to no float that `Decimal` does not hold, in none of the texts. -/
def DecimalTexts (beyond : PyStr → Bool) (result : McpResult) : Prop :=
  ∀ text ∈ result.texts, beyond text = true ∨ ∀ t ∈ floatTexts text, Json.isDecimal t = true

/-- **The reduction loses nothing.**  It leaves a sub-tree, from which a leaf is missing exactly when
the candidates tell it; and every leaf of the structured content of a result is in its payload,
exactly when `Decimal` holds the floats in the texts, or there is no structured content. -/
theorem lossless_iff (v : JsonValue) (candidates : List Json) (beyond : PyStr → Bool)
    (result : McpResult) :
    ((∀ r, v.val.additional candidates = some r → Json.Subtree r v.val) ∧
        ∀ p x, Json.valueAt p v.val = some x → Json.IsLeaf x →
          ((v.val.additional candidates).bind (Json.valueAt p) = none ↔
              Json.Told p x candidates) ∧
            (¬ Json.Told p x candidates →
              (v.val.additional candidates).bind (Json.valueAt p) = some x)) ∧
      ((result.structuredContent.val ≠ Json.null → ∀ p x,
          Json.valueAt p result.structuredContent.val = some x → Json.IsLeaf x →
            ∃ payload, normalize beyond result = Except.ok payload ∧
              Recoverable beyond payload result.structuredContent.val p x) ↔
        result.structuredContent.val = Json.null ∨ DecimalTexts beyond result) := by
  refine ⟨⟨fun r => Json.subtree_additional _ _, fun p x hx hleaf => ?_⟩,
    fun h => ?_, fun h hpresent p x hx hleaf => ?_⟩
  · obtain ⟨hmissing, hkept⟩ := Json.valueAt_additional v.property hx hleaf candidates
    refine ⟨⟨fun hnone => ?_, hmissing⟩, hkept⟩
    by_contra hnot
    rw [hkept hnot] at hnone
    cases hnone
  · by_cases hpresent : result.structuredContent.val = Json.null
    · exact Or.inl hpresent
    · obtain ⟨p, x, hx, hleaf⟩ := Json.exists_leaf result.structuredContent.val
      obtain ⟨payload, hpayload, _⟩ := h hpresent p x hx hleaf
      exact Or.inr fun text htext =>
        (parseText_ok_iff text).1 ((normalize_eq_ok_iff.1 hpayload).1 text htext)
  · have htexts := h.resolve_left hpresent
    have hpayload := normalize_eq_ok_iff.2
      ⟨fun text htext => (parseText_ok_iff text).2 (htexts text htext), rfl⟩
    exact ⟨_, hpayload, recoverable_normalize hpayload hpresent hx hleaf⟩

/-- A block of text. -/
def textBlock (text : String) : List (PyStr × Json) :=
  [(PyStr.ofString "type", Json.str "text"), (PyStr.ofString "text", Json.str text)]

/-- A tool says something in a text, and `{"a": 1, "b": 2}` as structured content. -/
def twoFields (text : String) : McpResult where
  content := [textBlock text]
  isError := false
  structuredContent :=
    ⟨Json.obj [(PyStr.ofString "a", Json.int 1), (PyStr.ofString "b", Json.int 2)],
      by simp [Json.WellFormed, Json.WellFormedItems]⟩

theorem lossless_iff_twoFields :
    ((twoFields "\x7b\"a\":1.0\x7d").structuredContent.val.additional
        [Json.obj [(PyStr.ofString "a", Json.num 1)]]).bind (Json.valueAt [PyStr.ofString "b"]) =
        some (Json.int 2) ∧
      ∃ payload, normalize (fun _ => false) (twoFields "\x7b\"a\":1.0\x7d") = Except.ok payload ∧
        Recoverable (fun _ => false) payload
          (twoFields "\x7b\"a\":1.0\x7d").structuredContent.val [PyStr.ofString "a"]
          (Json.int 1) := by
  obtain ⟨hreduced, hlossless⟩ := lossless_iff (twoFields "\x7b\"a\":1.0\x7d").structuredContent
    [Json.obj [(PyStr.ofString "a", Json.num 1)]] (fun _ => false) (twoFields "\x7b\"a\":1.0\x7d")
  refine ⟨(hreduced.2 _ (Json.int 2) (by decide) trivial).2 ?_,
    hlossless.2 (Or.inr ?_) (by decide) _ (Json.int 1) (by decide) trivial⟩
  · intro htold
    obtain ⟨c, hc, hsome⟩ := htold.held
    rw [List.mem_singleton.1 hc] at hsome
    exact absurd hsome (by decide)
  · intro text htext
    have htexts : (twoFields "\x7b\"a\":1.0\x7d").texts =
        [PyStr.ofString "\x7b\"a\":1.0\x7d"] := by decide
    rw [htexts, List.mem_singleton] at htext
    subst htext
    exact Or.inr (by decide)

/-- `Decimal` does not hold `1e1000000000000000000`, and then there is no payload. -/
theorem not_lossless :
    ¬ ∀ (beyond : PyStr → Bool) (result : McpResult),
      result.structuredContent.val ≠ Json.null → ∀ p x,
        Json.valueAt p result.structuredContent.val = some x → Json.IsLeaf x →
          ∃ payload, normalize beyond result = Except.ok payload ∧
            Recoverable beyond payload result.structuredContent.val p x := by
  intro h
  obtain ⟨payload, hpayload, _⟩ := h (fun _ => false) (twoFields "1e1000000000000000000")
    (by decide) [PyStr.ofString "a"] (Json.int 1) (by decide) trivial
  have hraised : normalize (fun _ => false) (twoFields "1e1000000000000000000") =
      Except.error ParseError.invalidOperation := by
    rfl
  rw [hraised] at hpayload
  cases hpayload

end McpResult
