/-
**The delegations of a manager turn.**

While the manager answers, its tool calls only queue work for the agents: `enqueue` checks the
arguments and stores the task, or hands a periodic or external task to the task controller.  The
manager's turn takes the stored tasks out between two of its questions.

What the task controller answers is not modelled here; `enqueue` is given it, and says which call it
has made.

Main definitions:

* `NativeValue` — the values that the native decoder delivers;
* `PendingDelegation`, `DelegationBroker` — a stored task, and the broker;
* `DelegationBroker.beginTurn`, `DelegationBroker.finishTurn`, `DelegationBroker.takePending`,
  `DelegationBroker.enqueue` — its methods;
* `NativeValue.isExternal`, `NativeValue.isZero`, `NativeValue.periodSeconds?` — the looks at the
  period;
* `DelegationBroker.queue` — one task more.

Main results:

* `DelegationBroker.enqueue_cases` — **a call of `enqueue` leaves the broker alone, or it stores
  one task more in a turn that has room for it**;
* `DelegationBroker.enqueue_of_inactive` — outside a turn it refuses;
* `DelegationBroker.callId_injective` — tasks of one turn have different identifiers.
-/

import CatAgent.Host
import CatAgent.JsonText
import CatAgent.PyValue
import CatAgent.TextLines

set_option relaxedAutoImplicit false
set_option autoImplicit false

/-- `PendingDelegation`. -/
structure PendingDelegation where
  callId : PyStr
  agentId : PyStr
  task : PyStr
deriving DecidableEq

/-- `DelegationBroker`. -/
structure DelegationBroker where
  agentIds : List PyStr
  /-- There is a `periodic_controller`. -/
  periodicController : Bool
  enabled : Bool
  turnActive : Bool
  count : ℕ
  pending : List PendingDelegation
deriving DecidableEq

/-- A value, as the native decoder delivers it.  The float −0.0 is equal to 0.0 and is treated like
it everywhere. -/
abbrev NativeValue := PyValue PyNumber

/-- The arguments of `enqueue`, as the native decoder delivers them. -/
structure EnqueueArgs where
  agentId : Json
  task : Json
  periodSeconds : NativeValue := PyValue.int 0
  eventTool : Json := Json.str []
  eventField : Json := Json.str []

/-- A call of the task controller. -/
inductive ControllerCall where
  /-- `create_external(agent_id, task, event_tool, event_field)`. -/
  | createExternal (agentId task : PyStr) (eventTool eventField : Json)
  /-- `create(interval, agent_id, task)`. -/
  | create (interval : ℤ) (agentId task : PyStr)

namespace Json

/-- `bool(v)`. -/
def truthy : Json → Bool
  | null => false
  | bool b => b
  | int n => n != 0
  | num q => q != 0
  | str s => !s.isEmpty
  | arr xs => !xs.isEmpty
  | obj items => !items.isEmpty

end Json

namespace DelegationBroker

/-- `MAX_DELEGATIONS_PER_TURN`. -/
def maxDelegationsPerTurn : ℕ := 3

/-- `MAX_TASK_CHARS`. -/
def maxTaskChars : ℕ := 4096

/-- `MAX_PERIOD_SECONDS`. -/
def maxPeriodSeconds : ℕ := 604800

/-! ### Turns -/

/-- `DelegationBroker(agent_ids, periodic_controller)`. -/
def create (agentIds : List PyStr) (periodicController : Bool) : Except PyStr DelegationBroker :=
  if agentIds.Nodup then
    Except.ok
      { agentIds := agentIds, periodicController := periodicController, enabled := false
        turnActive := false, count := 0, pending := [] }
  else Except.error "Duplicate agent IDs"

/-- `begin_turn()`. -/
def beginTurn (b : DelegationBroker) : Except PyStr DelegationBroker :=
  if b.turnActive then Except.error "Nested manager turns are forbidden"
  else Except.ok { b with turnActive := true, pending := [], count := 0 }

/-- `finish_turn()`. -/
def finishTurn (b : DelegationBroker) : DelegationBroker :=
  { b with turnActive := false, pending := [] }

/-- `take_pending()`. -/
def takePending (b : DelegationBroker) : List PendingDelegation × DelegationBroker :=
  (b.pending, { b with pending := [] })

/-! ### Periods -/

/-- Zeros, and at least one. -/
def isZeros (s : PyStr) : Bool := !s.isEmpty && s.all fun c => c.val == 0x30

/-- Nothing, or a point and zeros: `(?:\.0+)?`. -/
def isZeroFraction (s : PyStr) : Bool :=
  match s with
  | [] => true
  | c :: rest => c.val == 0x2E && isZeros rest

/-- `seconds if 10 <= seconds <= MAX_PERIOD_SECONDS else None`. -/
def inRange (seconds : ℤ) : Option ℤ :=
  if 10 ≤ seconds ∧ seconds ≤ maxPeriodSeconds then some seconds else none

end DelegationBroker

namespace NativeValue

open DelegationBroker (isZeros isZeroFraction inRange)

/-- `type(v) in (int, float) and v == n`. -/
def isNumber (n : ℤ) : NativeValue → Bool
  | PyValue.int m => m == n
  | PyValue.float (PyNumber.finite q) => q == n
  | _ => false

/-- `external`: the period is `-1`. -/
def isExternal (v : NativeValue) : Bool :=
  v.isNumber (-1) ||
    match v with
    | PyValue.str s =>
        let raw := PyStr.strip s
        (PyStr.ofString "-1").isPrefixOf raw && isZeroFraction (raw.drop 2)
    | _ => false

/-- `zero`: the period is `0`. -/
def isZero (v : NativeValue) : Bool :=
  v.isNumber 0 ||
    match v with
    | PyValue.str s =>
        let raw := PyStr.strip s
        isZeros (raw.takeWhile fun c => c.val == 0x30) &&
          isZeroFraction (raw.dropWhile fun c => c.val == 0x30)
    | _ => false

/-- The whole number that a string stands for: at most sixteen characters, and after a point only
zeros. -/
def whole? (s : PyStr) : Option ℕ :=
  let raw := PyStr.strip s
  if raw.length < 1 ∨ 16 < raw.length then none
  else
    let whole := raw.takeWhile fun c => c.val != 0x2E
    if whole.isEmpty || !whole.all Json.isDigit then none
    else if !isZeroFraction (raw.dropWhile fun c => c.val != 0x2E) then none
    else some (Json.ofDigits whole)

/-- `_period_seconds(value)`. -/
def periodSeconds? : NativeValue → Option ℤ
  | PyValue.int seconds => inRange seconds
  | PyValue.float (PyNumber.finite q) =>
      if 10 ≤ q ∧ q ≤ DelegationBroker.maxPeriodSeconds ∧ q.den = 1 then inRange q.num else none
  | PyValue.str s => (whole? s).bind fun n => inRange n
  | _ => none

end NativeValue

namespace DelegationBroker

/-! ### Queueing -/

/-- `{"ok": False, "error": message}`. -/
def refusal (message : String) : Json :=
  Json.obj [("ok", Json.bool false), ("error", Json.str message)]

/-- `f"delegation_{n}"`. -/
def callId (n : ℕ) : PyStr := PyStr.ofString "delegation_" ++ PyStr.ofString (toString n)

/-- The task that is stored next. -/
def item (b : DelegationBroker) (agentId task : PyStr) : PendingDelegation :=
  { callId := callId (b.count + 1), agentId := agentId, task := PyStr.strip task }

/-- The broker with one task more. -/
def queue (b : DelegationBroker) (agentId task : PyStr) : DelegationBroker :=
  { b with count := b.count + 1, pending := b.pending ++ [b.item agentId task] }

/-- `_pending.append(item)`, with the answer to the manager. -/
def accept (b : DelegationBroker) (agentId task : PyStr) : Json × DelegationBroker :=
  (Json.obj
    [("ok", Json.bool true), ("status", Json.str "queued"),
      ("call_id", Json.str (b.item agentId task).callId), ("agent_id", Json.str agentId),
      ("note", Json.str "The result is not ready. It will be delivered in a later turn.")],
    b.queue agentId task)

/-- The part of `enqueue` that looks at the period: the calls of the task controller, the answer to
the manager, and the broker afterwards.  `controller` is what the task controller answers. -/
def schedule (b : DelegationBroker) (a : EnqueueArgs) (controller : ControllerCall → Json)
    (agentId task : PyStr) : List ControllerCall × Json × DelegationBroker :=
  if a.periodSeconds.isExternal then
    if b.periodicController then
      let call := ControllerCall.createExternal agentId task a.eventTool a.eventField
      ([call], controller call, b)
    else ([], refusal "TASK_SYSTEM_not_configured", b)
  else if a.eventTool.truthy || a.eventField.truthy then
    ([], refusal "event_tool/event_field require period_seconds=-1", b)
  else if !a.periodSeconds.isZero then
    match a.periodSeconds.periodSeconds? with
    | none => ([], refusal "period_seconds must be -1, 0 or an integer in 10..604800", b)
    | some interval =>
        if b.periodicController then
          let call := ControllerCall.create interval agentId task
          ([call], controller call, b)
        else ([], refusal "periodic_TASK_SYSTEM_not_configured", b)
  else
    match a.periodSeconds with
    | PyValue.bool _ => ([], refusal "invalid_period_seconds", b)
    | _ =>
        if maxDelegationsPerTurn ≤ b.count then ([], refusal "delegation_limit_reached", b)
        else ([], b.accept agentId task)

/-- `enqueue(agent_id, task, period_seconds, event_tool, event_field)`: the calls of the task
controller, the answer to the tool call, and the broker afterwards. -/
def enqueue (b : DelegationBroker) (a : EnqueueArgs) (controller : ControllerCall → Json) :
    List ControllerCall × Json × DelegationBroker :=
  if !b.enabled then ([], refusal "delegation_disabled_during_warm", b)
  else if !b.turnActive then ([], refusal "no_active_manager_turn", b)
  else
    match a.agentId with
    | Json.str agentId =>
        if agentId ∉ b.agentIds then ([], refusal "unknown_agent", b)
        else
          match a.task with
          | Json.str task =>
              if (PyStr.strip task).isEmpty || decide (maxTaskChars < task.length) then
                ([], refusal "invalid_task", b)
              else if ¬ PyStr.Encodable task then ([], refusal "invalid_unicode", b)
              else b.schedule a controller agentId task
          | _ => ([], refusal "invalid_task", b)
    | _ => ([], refusal "unknown_agent", b)

/-- The tasks that a call has stored. -/
def queued (b b' : DelegationBroker) : List PendingDelegation := b'.pending.drop b.pending.length

/-! ### What a call does -/

variable {b : DelegationBroker} {a : EnqueueArgs} {controller : ControllerCall → Json}
  {agentId task : PyStr}

theorem schedule_cases : (b.schedule a controller agentId task).2.2 = b ∨
    b.count < maxDelegationsPerTurn ∧
      b.schedule a controller agentId task = ([], b.accept agentId task) := by
  unfold schedule
  by_cases hexternal : a.periodSeconds.isExternal = true
  · rw [if_pos hexternal]
    cases b.periodicController <;> exact Or.inl rfl
  · rw [if_neg hexternal]
    by_cases hevent : (a.eventTool.truthy || a.eventField.truthy) = true
    · rw [if_pos hevent]
      exact Or.inl rfl
    · rw [if_neg hevent]
      by_cases hzero : (!a.periodSeconds.isZero) = true
      · rw [if_pos hzero]
        cases a.periodSeconds.periodSeconds? with
        | none => exact Or.inl rfl
        | some _ => cases b.periodicController <;> exact Or.inl rfl
      · rw [if_neg hzero]
        split
        · exact Or.inl rfl
        · split_ifs with hlimit
          · exact Or.inl rfl
          · exact Or.inr ⟨Nat.lt_of_not_le hlimit, rfl⟩

/-- **A delegation is refused, or its period is looked at.** -/
theorem enqueue_schedule : (∃ message, b.enqueue a controller = ([], refusal message, b)) ∨
    ∃ agentId task, b.enabled = true ∧ b.turnActive = true ∧ agentId ∈ b.agentIds ∧
      PyStr.strip task ≠ [] ∧
      b.enqueue a controller = b.schedule a controller agentId task := by
  unfold enqueue
  cases b.enabled with
  | false => exact Or.inl ⟨_, rfl⟩
  | true =>
      cases b.turnActive with
      | false => exact Or.inl ⟨_, rfl⟩
      | true =>
          rw [if_neg (by simp), if_neg (by simp)]
          cases a.agentId with
          | str agentId =>
              dsimp only
              by_cases hagent : agentId ∉ b.agentIds
              · rw [if_pos hagent]
                exact Or.inl ⟨_, rfl⟩
              · rw [if_neg hagent]
                cases a.task with
                | str task =>
                    dsimp only
                    split_ifs with hinvalid hencodable
                    · exact Or.inl ⟨_, rfl⟩
                    · rw [Bool.or_eq_true, not_or, List.isEmpty_iff] at hinvalid
                      exact Or.inr ⟨agentId, task, rfl, rfl, not_not.1 hagent, hinvalid.1, rfl⟩
                    · exact Or.inl ⟨_, rfl⟩
                | _ => exact Or.inl ⟨_, rfl⟩
          | _ => exact Or.inl ⟨_, rfl⟩

/-- **A call of `enqueue` leaves the broker alone, or it stores one task more in a turn that has
room for it.** -/
theorem enqueue_cases : (b.enqueue a controller).2.2 = b ∨
    b.enabled = true ∧ b.turnActive = true ∧ b.count < maxDelegationsPerTurn ∧
      ∃ agentId task, agentId ∈ b.agentIds ∧ PyStr.strip task ≠ [] ∧
        (b.enqueue a controller).2.2 = b.queue agentId task := by
  rcases @enqueue_schedule b a controller with
    ⟨message, h⟩ | ⟨agentId, task, henabled, hactive, hagent, htask, h⟩
  · rw [h]
    exact Or.inl rfl
  · rw [h]
    refine schedule_cases.imp id ?_
    rintro ⟨hroom, haccept⟩
    refine ⟨henabled, hactive, hroom, agentId, task, hagent, htask, ?_⟩
    rw [haccept]
    rfl

/-- **Outside a turn every call is refused.** -/
theorem enqueue_of_inactive (h : b.turnActive = false) :
    b.enqueue a controller = ([], refusal "delegation_disabled_during_warm", b) ∨
      b.enqueue a controller = ([], refusal "no_active_manager_turn", b) := by
  unfold enqueue
  cases b.enabled with
  | false => exact Or.inl rfl
  | true =>
      rw [h]
      exact Or.inr rfl

/-- Tasks of one turn have different identifiers. -/
theorem callId_injective : Function.Injective callId := by
  intro m n h
  have hdigits : (Nat.toDigits 10 m).map PyStr.ofChar = (Nat.toDigits 10 n).map PyStr.ofChar := by
    rw [← Json.ofString_toString_nat, ← Json.ofString_toString_nat]
    exact List.append_cancel_left h
  rw [← Json.ofDigits_toDigits m, ← Json.ofDigits_toDigits n, hdigits]

end DelegationBroker
