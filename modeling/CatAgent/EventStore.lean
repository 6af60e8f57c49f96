/-
**The registry of event bindings.**

A binding connects the name of an external event to a saved task.  The engine hands bindings out as
Python objects: the MQTT monitor keeps the object it was given and `consume_mqtt` later asks
whether the store still holds that very object.  A binding is therefore stored as an object, with
an identity that no two objects share; the identity is allocated when the object is built.

Main definitions:

* `EventBinding`, `BindingObject`, `BindingTable` — bindings, the objects that hold them, and the
  table of those objects;
* `EventStore.validatedBinding`, `EventStore.register`, `EventStore.resolve`,
  `EventStore.unregisterTask`, `EventStore.snapshot` — the operations of the store;
* `EventBinding.Normal` — a binding whose texts are in the form that the validator returns.

Main results:

* `EventStore.validatedBinding_normal` — **what the validator returns is in normal form**;
* `EventStore.resolve_of_get?` — a binding in normal form is found again by its own source and name.
-/

import CatAgent.Host
import CatAgent.Table

set_option relaxedAutoImplicit false
set_option autoImplicit false

/-- `EventBinding`. -/
structure EventBinding where
  name : PyStr
  source : PyStr
  taskId : ℤ
  description : PyStr
  topic : PyStr
  field : PyStr
  valueType : PyStr
  values : List PyStr
  command : PyStr
deriving DecidableEq

/-- A Python object that holds a binding. -/
structure BindingObject where
  /-- The identity of the object, which `is` compares. -/
  id : ℕ
  binding : EventBinding
deriving DecidableEq

/-- `EventStore._bindings`. -/
abbrev BindingTable := Table fun o : BindingObject => o.binding.name

/-- The arguments of `EventStore.register` after the task, defaults filled in. -/
structure BindingSpec where
  source : PyStr := "gpio"
  name : Option PyStr := none
  topic : PyStr := []
  field : PyStr := []
  valueType : PyStr := []
  values : List PyStr := []
  command : PyStr := []

/-- The letters, digits and marks of `_EVENT_NAME_RE`. -/
def isEventNameChar (c : CodePoint) : Bool :=
  (65 ≤ c.val && c.val ≤ 90) || (97 ≤ c.val && c.val ≤ 122) || (48 ≤ c.val && c.val ≤ 57) ||
    c.val == 95 || c.val == 46 || c.val == 58 || c.val == 45

/-- `_EVENT_NAME_RE.fullmatch(s)`. -/
def isEventName (s : PyStr) : Bool := decide (s ≠ []) && s.all isEventNameChar

/-- `_FIELD_RE.fullmatch(s)`. -/
def isField : PyStr → Bool
  | [] => false
  | c :: cs =>
      let letter (c : CodePoint) : Bool :=
        (65 ≤ c.val && c.val ≤ 90) || (97 ≤ c.val && c.val ≤ 122) || c.val == 95
      letter c && cs.all fun d => letter d || (48 ≤ d.val && d.val ≤ 57)

/-- A binding whose name and source are in the form that lookups use. -/
structure EventBinding.Normal (host : Host) (b : EventBinding) : Prop where
  name_ok : isEventName b.name = true
  source_ok : isEventName b.source = true
  source_lower : host.lower b.source = b.source

namespace EventStore

/-- `if p: raise EventStoreError(msg)`. -/
abbrev check (p : Prop) [Decidable p] (msg : PyStr) : Except PyError Unit :=
  raiseIf p (PyError.eventStoreError msg)

/-- What `_validated_binding` asks of an MQTT binding in addition. -/
def validateMqtt (host : Host) (source topic field valueType : PyStr) (values : List PyStr)
    (command : PyStr) : Except PyError Unit :=
  if source = PyStr.ofString "mqtt" then do
    check (topic = []) "mqtt event topic must be non-empty"
    check (¬ isField field) (PyStr.ofString "invalid mqtt event field: " ++ host.repr field)
    check (valueType = []) "mqtt event value_type must be non-empty"
    check (values = [] ∨ [] ∈ values) "mqtt event values must be non-empty"
    check (¬ values.Nodup) "mqtt event values must be unique"
    check (command = []) "mqtt event command must be non-empty"
  else Except.ok ()

/-- `EventStore._validated_binding`. -/
def validatedBinding (host : Host) (name source : PyStr) (taskId : ℤ) (description topic field
    valueType : PyStr) (values : List PyStr) (command : PyStr) : Except PyError EventBinding := do
  let name := PyStr.strip name
  let source := host.lower (PyStr.strip source)
  let description := PyStr.strip description
  let topic := PyStr.strip topic
  let field := PyStr.strip field
  let valueType := host.lower (PyStr.strip valueType)
  let values := values.map PyStr.strip
  let command := PyStr.strip command
  check (¬ isEventName name) (PyStr.ofString "invalid event name: " ++ host.repr name)
  check (¬ isEventName source) (PyStr.ofString "invalid event source: " ++ host.repr source)
  check (taskId ≤ 0) "event task_id must be > 0"
  check (description = []) "event description must be non-empty"
  validateMqtt host source topic field valueType values command
  return { name, source, taskId, description, topic, field, valueType, values, command }

/-- A name that is taken stays with its task. -/
def checkOwner (host : Host) (binding : EventBinding) (bindings : BindingTable) :
    Except PyError Unit :=
  match bindings.get? binding.name with
  | none => Except.ok ()
  | some current => check (current.binding.taskId ≠ binding.taskId)
      (PyStr.ofString "event " ++ host.repr binding.name ++
        PyStr.ofString " is already bound to task " ++
        PyStr.ofString (toString current.binding.taskId))

/-- The name under which `EventStore.register` binds: the given one, or one made from the source
and the task. -/
def eventName (host : Host) (taskId : ℤ) (spec : BindingSpec) : PyStr :=
  let source := host.lower (PyStr.strip spec.source)
  let default := PyStr.ofString "task_" ++ source ++ PyStr.ofString (toString taskId)
  PyStr.strip (match spec.name with
    | none => default
    | some name => if name = [] then default else name)

/-- `EventStore.register`, where `id` is the identity of the object that it builds. -/
def register (host : Host) (id : ℕ) (taskId : ℤ) (description : PyStr) (spec : BindingSpec)
    (bindings : BindingTable) : Except PyError (EventBinding × BindingTable) := do
  let source := host.lower (PyStr.strip spec.source)
  let binding ← validatedBinding host (eventName host taskId spec) source taskId description
    spec.topic spec.field spec.valueType spec.values spec.command
  checkOwner host binding bindings
  return (binding, bindings.put ⟨id, binding⟩)

/-- `EventStore.resolve`. -/
def resolve (host : Host) (source name : PyStr) (bindings : BindingTable) :
    Option BindingObject :=
  let source := host.lower (PyStr.strip source)
  (bindings.get? (PyStr.strip name)).filter fun o => decide (o.binding.source = source)

/-- `EventStore.unregister_task`. -/
def unregisterTask (taskId : ℤ) (bindings : BindingTable) : BindingTable :=
  bindings.filter fun o => decide (o.binding.taskId ≠ taskId)

/-- The order of strings that `sorted` uses. -/
def strLe : PyStr → PyStr → Bool
  | [], _ => true
  | _ :: _, [] => false
  | a :: s, b :: t => decide (a < b) || (decide (a = b) && strLe s t)

/-- `EventStore.snapshot`: the objects by name. -/
def snapshot (bindings : BindingTable) : List BindingObject := bindings.sorted strLe

/-! ### The order of strings -/

theorem strLe_refl (s : PyStr) : strLe s s = true := by
  induction s with
  | nil => rfl
  | cons a s ih => simp [strLe, ih]

theorem strLe_total (s t : PyStr) : strLe s t = true ∨ strLe t s = true := by
  induction s generalizing t with
  | nil => exact Or.inl rfl
  | cons a s ih =>
      cases t with
      | nil => exact Or.inr rfl
      | cons b t =>
          simp only [strLe, Bool.or_eq_true, Bool.and_eq_true, decide_eq_true_eq]
          rcases lt_trichotomy a b with hlt | rfl | hlt
          · exact Or.inl (Or.inl hlt)
          · rcases ih t with h | h
            · exact Or.inl (Or.inr ⟨rfl, h⟩)
            · exact Or.inr (Or.inr ⟨rfl, h⟩)
          · exact Or.inr (Or.inl hlt)

theorem strLe_antisymm {s t : PyStr} (h : strLe s t = true) (h' : strLe t s = true) : s = t := by
  induction s generalizing t with
  | nil =>
      cases t with
      | nil => rfl
      | cons b t => cases h'
  | cons a s ih =>
      cases t with
      | nil => cases h
      | cons b t =>
          simp only [strLe, Bool.or_eq_true, Bool.and_eq_true, decide_eq_true_eq] at h h'
          rcases h with hlt | ⟨rfl, h⟩
          · rcases h' with hlt' | ⟨heq, _⟩
            · exact absurd hlt' hlt.asymm
            · exact absurd hlt heq.le.not_gt
          · rcases h' with hlt | ⟨_, h'⟩
            · exact absurd hlt (lt_irrefl a)
            · rw [ih h h']

theorem strLe_trans {s t u : PyStr} (h : strLe s t = true) (h' : strLe t u = true) :
    strLe s u = true := by
  induction s generalizing t u with
  | nil => rfl
  | cons a s ih =>
      cases t with
      | nil => cases h
      | cons b t =>
          cases u with
          | nil => cases h'
          | cons c u =>
              simp only [strLe, Bool.or_eq_true, Bool.and_eq_true, decide_eq_true_eq] at h h' ⊢
              rcases h with hlt | ⟨rfl, h⟩
              · rcases h' with hlt' | ⟨rfl, _⟩
                · exact Or.inl (hlt.trans hlt')
                · exact Or.inl hlt
              · rcases h' with hlt | ⟨rfl, h'⟩
                · exact Or.inl hlt
                · exact Or.inr ⟨rfl, ih h h'⟩

/-! ### Normal forms -/

theorem isSpace_of_isEventNameChar {c : CodePoint} (h : isEventNameChar c = true) :
    PyStr.isSpace c = false := by
  by_contra hs
  simp only [isEventNameChar, PyStr.isSpace, Bool.not_eq_false, Bool.or_eq_true, Bool.and_eq_true,
    decide_eq_true_eq, beq_iff_eq] at h hs
  omega

theorem strip_of_isEventName {s : PyStr} (h : isEventName s = true) : PyStr.strip s = s := by
  simp only [isEventName, Bool.and_eq_true, List.all_eq_true] at h
  exact PyStr.strip_eq_self fun c hc => isSpace_of_isEventNameChar (h.2 c hc)

/-- **What the validator returns is in normal form**, and keeps the task and the name it was
given. -/
theorem validatedBinding_normal {host : Host} {name source description topic field valueType :
    PyStr} {values : List PyStr} {command : PyStr} {taskId : ℤ} {b : EventBinding}
    (h : validatedBinding host name source taskId description topic field valueType values
      command = Except.ok b) :
    b.Normal host ∧ b.taskId = taskId ∧ 0 < b.taskId ∧ b.name = PyStr.strip name := by
  unfold validatedBinding at h
  obtain ⟨_, hn, h⟩ := bind_eq_ok_iff.1 h
  obtain ⟨_, hs, h⟩ := bind_eq_ok_iff.1 h
  obtain ⟨_, ht, h⟩ := bind_eq_ok_iff.1 h
  obtain ⟨_, _, h⟩ := bind_eq_ok_iff.1 h
  obtain ⟨_, _, h⟩ := bind_eq_ok_iff.1 h
  cases h
  rw [raiseIf_eq_ok_iff, not_not] at hn hs
  rw [raiseIf_eq_ok_iff, not_le] at ht
  exact ⟨⟨hn, hs, host.lower_lower _⟩, rfl, ht, rfl⟩

/-- A registered binding is in normal form and belongs to the given task; its name is the event
name, which was free or belonged to the same task. -/
theorem register_spec {host : Host} {id : ℕ} {taskId : ℤ} {description : PyStr}
    {spec : BindingSpec} {bindings bindings' : BindingTable} {b : EventBinding}
    (h : register host id taskId description spec bindings = Except.ok (b, bindings')) :
    b.Normal host ∧ b.taskId = taskId ∧ bindings' = bindings.put ⟨id, b⟩ ∧
      b.name = PyStr.strip (eventName host taskId spec) ∧
      ∀ o, bindings.get? b.name = some o → o.binding.taskId = b.taskId := by
  unfold register at h
  obtain ⟨b', hb, h⟩ := bind_eq_ok_iff.1 h
  have hnormal := validatedBinding_normal hb
  obtain ⟨_, hc, h⟩ := bind_eq_ok_iff.1 h
  cases h
  refine ⟨hnormal.1, hnormal.2.1, rfl, hnormal.2.2.2, ?_⟩
  intro o ho
  simp only [checkOwner, ho] at hc
  exact not_not.1 (raiseIf_eq_ok_iff.1 hc)

/-- **A binding in normal form is found again by its own source and name.** -/
theorem resolve_of_get? {host : Host} {bindings : BindingTable} {o : BindingObject}
    (hn : o.binding.Normal host) (h : bindings.get? o.binding.name = some o) :
    resolve host o.binding.source o.binding.name bindings = some o := by
  rw [resolve, strip_of_isEventName hn.name_ok, strip_of_isEventName hn.source_ok,
    hn.source_lower, h]
  simp

/-- Registering a binding leaves the bindings of other names alone. -/
theorem get?_put_of_ne (bindings : BindingTable) (id : ℕ) {b : EventBinding} {name : PyStr}
    (h : b.name ≠ name) :
    Table.get? (Table.put bindings ⟨id, b⟩) name = Table.get? bindings name :=
  Table.get?_put_of_ne _ h

/-- A resolved binding is in the store. -/
theorem get?_of_resolve {host : Host} {source name : PyStr} {bindings : BindingTable}
    {o : BindingObject} (h : resolve host source name bindings = some o) :
    bindings.get? (PyStr.strip name) = some o ∧
      o.binding.source = host.lower (PyStr.strip source) := by
  have := Option.filter_eq_some_iff.1 h
  exact ⟨this.1, by simpa using this.2⟩

end EventStore
