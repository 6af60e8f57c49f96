/-
**The scheduler of the model operations.**

All operations of the native models are done by one thread, one after the other.  An operation that
runs is not interrupted; of those that wait, the ones of the smallest priority come first, and among
them the one that was submitted first.  The queue is bounded for new work, but not for the operations
that clean up and for the continuations of work that was admitted before.

Main definitions:

* `OperationKind`, `Operation`, `PriorityScheduler` — the operations and their queue;
* `PriorityScheduler.submit`, `PriorityScheduler.pop`, `PriorityScheduler.finish`,
  `PriorityScheduler.close` — what its methods do;
* `PriorityScheduler.Record`, `PriorityScheduler.machine` — any sequence of calls, with a record of
  what was admitted and what was started.

Main results:

* `PriorityScheduler.pop_cases` — what is taken out of the queue, and what stays;
* `PriorityScheduler.served_in_order` — **nothing that was admitted is lost or done twice, each kind
  is served in the order of submission, and nothing overtakes an operation of a smaller priority**.
-/

import CatAgent.Machine
import Mathlib.Data.List.Pairwise
import Mathlib.Tactic.Linarith

set_option relaxedAutoImplicit false
set_option autoImplicit false

/-- The kinds of operations. -/
inductive OperationKind where
  | control
  | human
  | hardware
  | background
deriving DecidableEq

/-- `PRIORITIES`. -/
def OperationKind.priority : OperationKind → ℤ
  | control => -10
  | human => 0
  | hardware => 10
  | background => 20

/-- `_Operation`. -/
structure Operation (α : Type) where
  sequence : ℕ
  kind : OperationKind
  callback : α
deriving DecidableEq

/-- `PriorityScheduler`.  The queue is kept in the order of submission, not as a heap. -/
structure PriorityScheduler (α : Type) where
  queue : List (Operation α)
  maxPending : ℕ
  sequence : ℕ
  stopping : Bool
  /-- The kind of the operation that runs. -/
  active : Option OperationKind

/-- What `submit` raises. -/
inductive SubmitError where
  /-- `RuntimeError`. -/
  | stopped
  /-- `QueueFullError`. -/
  | full
deriving DecidableEq

namespace PriorityScheduler

variable {α : Type}

/-- `operation < other`. -/
def precedes (operation other : Operation α) : Bool :=
  decide (operation.kind.priority < other.kind.priority) ||
    (decide (operation.kind.priority = other.kind.priority) &&
      decide (operation.sequence < other.sequence))

/-- The least operation of a queue. -/
def least : List (Operation α) → Option (Operation α)
  | [] => none
  | operation :: l =>
      match least l with
      | none => some operation
      | some other => if precedes other operation then some other else some operation

variable (s : PriorityScheduler α)

/-- `submit(kind, callback, continuation=continuation)`; other kinds do not exist. -/
def submit (kind : OperationKind) (callback : α) (continuation : Bool) :
    Except SubmitError Unit × PriorityScheduler α :=
  if s.stopping then (Except.error SubmitError.stopped, s)
  else if kind ≠ OperationKind.control ∧ continuation = false ∧ s.maxPending ≤ s.queue.length then
    (Except.error SubmitError.full, s)
  else
    (Except.ok (),
      { s with
        sequence := s.sequence + 1
        queue := s.queue ++ [{ sequence := s.sequence + 1, kind, callback }] })

/-- The thread takes the next operation. -/
def pop : Option (Operation α × PriorityScheduler α) :=
  if s.stopping then none
  else
    (least s.queue).map fun operation =>
      (operation,
        { s with
          queue := s.queue.filter fun other => decide (other.sequence ≠ operation.sequence)
          active := some operation.kind })

/-- The callback has returned or raised. -/
def finish : PriorityScheduler α := { s with active := none }

/-- `close`, before the thread is joined. -/
def close : PriorityScheduler α := { s with stopping := true, queue := [] }

/-- `PriorityScheduler(max_pending=max_pending)`. -/
def create (maxPending : ℕ) : PriorityScheduler α where
  queue := []
  maxPending := maxPending
  sequence := 0
  stopping := false
  active := none

/-! ### The queue -/

/-- The numbers of the queue increase, and have all been given. -/
structure Numbered (s : PriorityScheduler α) : Prop where
  increasing : s.queue.Pairwise fun operation other => operation.sequence < other.sequence
  given : ∀ operation ∈ s.queue, operation.sequence ≤ s.sequence

theorem numbered_create (maxPending : ℕ) : (create maxPending : PriorityScheduler α).Numbered where
  increasing := List.Pairwise.nil
  given := nofun

variable {s} {kind : OperationKind} {callback : α} {continuation : Bool} {operation : Operation α}
  {s' : PriorityScheduler α}

theorem least_eq_none_iff {l : List (Operation α)} : least l = none ↔ l = [] := by
  cases l with
  | nil => exact ⟨fun _ => rfl, fun _ => rfl⟩
  | cons operation l =>
      refine ⟨fun h => ?_, nofun⟩
      unfold least at h
      cases hl : least l with
      | none =>
          rw [hl] at h
          cases h
      | some other =>
          rw [hl] at h
          dsimp only at h
          split_ifs at h

/-- **The least operation of a queue**: what stands before it has a larger priority, and nothing
behind it has a smaller one. -/
theorem least_cases {l : List (Operation α)}
    (hl : l.Pairwise fun operation other => operation.sequence < other.sequence)
    (h : least l = some operation) :
    ∃ before after, l = before ++ operation :: after ∧
      (∀ other ∈ before, operation.kind.priority < other.kind.priority) ∧
      ∀ other ∈ after, operation.kind.priority ≤ other.kind.priority := by
  induction l generalizing operation with
  | nil => cases h
  | cons first l ih =>
      obtain ⟨hfirst, hl⟩ := List.pairwise_cons.1 hl
      unfold least at h
      cases hrest : least l with
      | none =>
          rw [hrest] at h
          cases h
          rw [least_eq_none_iff.1 hrest]
          exact ⟨[], [], rfl, nofun, nofun⟩
      | some other =>
          obtain ⟨before, after, hsplit, hbefore, hafter⟩ := ih hl hrest
          have hmem : other ∈ l := by
            rw [hsplit]
            exact List.mem_append_right _ List.mem_cons_self
          have hlater := hfirst other hmem
          rw [hrest] at h
          dsimp only at h
          by_cases hprecedes : precedes other first = true
          · rw [if_pos hprecedes] at h
            cases h
            have hless : operation.kind.priority < first.kind.priority := by
              unfold precedes at hprecedes
              simp only [Bool.or_eq_true, Bool.and_eq_true, decide_eq_true_eq] at hprecedes
              omega
            refine ⟨first :: before, after, by rw [hsplit, List.cons_append], ?_, hafter⟩
            intro another hanother
            rcases List.mem_cons.1 hanother with rfl | hanother
            · exact hless
            · exact hbefore another hanother
          · rw [if_neg hprecedes] at h
            cases h
            have hnot : first.kind.priority ≤ other.kind.priority := by
              unfold precedes at hprecedes
              simp only [Bool.or_eq_true, Bool.and_eq_true, decide_eq_true_eq, not_or,
                not_and] at hprecedes
              omega
            refine ⟨[], l, rfl, nofun, fun another hanother => ?_⟩
            rw [hsplit] at hanother
            rcases List.mem_append.1 hanother with hanother | hanother
            · exact hnot.trans (le_of_lt (hbefore another hanother))
            · rcases List.mem_cons.1 hanother with rfl | hanother
              · exact hnot
              · exact hnot.trans (hafter another hanother)

/-- **What the thread takes out of the queue.** -/
theorem pop_cases (hs : s.Numbered) (h : s.pop = some (operation, s')) :
    ∃ before after, s.queue = before ++ operation :: after ∧
      (∀ other ∈ before, operation.kind.priority < other.kind.priority) ∧
      (∀ other ∈ after, operation.kind.priority ≤ other.kind.priority) ∧
      s' = { s with queue := before ++ after, active := some operation.kind } := by
  unfold pop at h
  by_cases hstopping : s.stopping = true
  · rw [if_pos hstopping] at h
    cases h
  rw [if_neg hstopping] at h
  obtain ⟨operation', hleast, heq⟩ := Option.map_eq_some_iff.1 h
  cases heq
  obtain ⟨before, after, hsplit, hbefore, hafter⟩ := least_cases hs.increasing hleast
  refine ⟨before, after, hsplit, hbefore, hafter, ?_⟩
  have hkept : (s.queue.filter fun other => decide (other.sequence ≠ operation.sequence)) =
      before ++ after := by
    have hincreasing := hs.increasing
    rw [hsplit] at hincreasing ⊢
    obtain ⟨-, hcons, hcross⟩ := List.pairwise_append.1 hincreasing
    obtain ⟨hlater, -⟩ := List.pairwise_cons.1 hcons
    rw [List.filter_append, List.filter_cons_of_neg (by simp)]
    congr 1
    · refine List.filter_eq_self.2 fun other hother => decide_eq_true ?_
      have := hcross other hother operation List.mem_cons_self
      omega
    · refine List.filter_eq_self.2 fun other hother => decide_eq_true ?_
      have := hlater other hother
      omega
  rw [hkept]

theorem pop_eq_none_iff : s.pop = none ↔ s.stopping = true ∨ s.queue = [] := by
  unfold pop
  by_cases hstopping : s.stopping = true
  · rw [if_pos hstopping]
    exact ⟨fun _ => Or.inl hstopping, fun _ => rfl⟩
  · rw [if_neg hstopping, Option.map_eq_none_iff, least_eq_none_iff]
    exact ⟨Or.inr, fun h => h.resolve_left hstopping⟩

theorem Numbered.pop (hs : s.Numbered) (h : s.pop = some (operation, s')) : s'.Numbered := by
  obtain ⟨before, after, hsplit, -, -, rfl⟩ := pop_cases hs h
  have hsub : List.Sublist (before ++ after) s.queue := by
    rw [hsplit]
    exact List.Sublist.append_left (List.sublist_cons_self _ _) _
  exact ⟨hs.increasing.sublist hsub, fun other hother => hs.given other (hsub.subset hother)⟩

/-- **An operation is refused, or it becomes the last of the queue.** -/
theorem submit_cases (s : PriorityScheduler α) (kind : OperationKind) (callback : α)
    (continuation : Bool) :
    (∃ e, s.submit kind callback continuation = (Except.error e, s) ∧
        (s.stopping = true ∨ kind ≠ OperationKind.control ∧ continuation = false ∧
          s.maxPending ≤ s.queue.length)) ∨
      (s.stopping = false ∧
        (kind = OperationKind.control ∨ continuation = true ∨ s.queue.length < s.maxPending) ∧
        s.submit kind callback continuation =
          (Except.ok (),
            { s with
              sequence := s.sequence + 1
              queue := s.queue ++ [{ sequence := s.sequence + 1, kind, callback }] })) := by
  unfold submit
  by_cases hstopping : s.stopping = true
  · rw [if_pos hstopping]
    exact Or.inl ⟨_, rfl, Or.inl hstopping⟩
  rw [if_neg hstopping]
  by_cases hfull : kind ≠ OperationKind.control ∧ continuation = false ∧
      s.maxPending ≤ s.queue.length
  · rw [if_pos hfull]
    exact Or.inl ⟨_, rfl, Or.inr hfull⟩
  rw [if_neg hfull]
  refine Or.inr ⟨Bool.eq_false_of_not_eq_true hstopping, ?_, rfl⟩
  by_contra hnone
  push Not at hnone
  obtain ⟨hkind, hcontinuation, hlength⟩ := hnone
  exact hfull ⟨hkind, Bool.eq_false_of_not_eq_true hcontinuation, hlength⟩

theorem Numbered.append (hs : s.Numbered) (kind : OperationKind) (callback : α) :
    Numbered
      { s with
        sequence := s.sequence + 1
        queue := s.queue ++ [{ sequence := s.sequence + 1, kind, callback }] } where
  increasing := by
    refine List.pairwise_append.2 ⟨hs.increasing, List.pairwise_singleton _ _, ?_⟩
    intro operation hoperation other hother
    rw [List.mem_singleton.1 hother]
    exact Nat.lt_succ_of_le (hs.given operation hoperation)
  given := by
    intro operation hoperation
    rcases List.mem_append.1 hoperation with hoperation | hoperation
    · exact (hs.given operation hoperation).trans (Nat.le_succ _)
    · rw [List.mem_singleton.1 hoperation]

theorem Numbered.submit (hs : s.Numbered) (kind : OperationKind) (callback : α)
    (continuation : Bool) : (s.submit kind callback continuation).2.Numbered := by
  rcases submit_cases s kind callback continuation with ⟨e, h, -⟩ | ⟨-, -, h⟩
  · rw [h]
    exact hs
  · rw [h]
    exact hs.append kind callback

/-! ### Any sequence of calls -/

/-- A scheduler, the operations that it has admitted and those that its thread has started, in their
order, and the numbers of the admitted ones that the bound does not concern. -/
structure Record (α : Type) where
  scheduler : PriorityScheduler α
  admitted : List (Operation α)
  started : List (Operation α)
  forced : List ℕ

/-- A call of `submit` or `close`, or a step of the thread. -/
inductive Input (α : Type) where
  | submit (kind : OperationKind) (callback : α) (continuation : Bool)
  | pop
  | finish
  | close

/-- One call, or one step of the thread. -/
def Record.step (r : Record α) : Input α → Record α
  | Input.submit kind callback continuation =>
      match r.scheduler.submit kind callback continuation with
      | (Except.error _, _) => r
      | (Except.ok (), s) =>
          { r with
            scheduler := s
            admitted := r.admitted ++ [{ sequence := s.sequence, kind, callback }]
            forced := if continuation then s.sequence :: r.forced else r.forced }
  | Input.pop =>
      match r.scheduler.active, r.scheduler.pop with
      | none, some (operation, s) =>
          { r with scheduler := s, started := r.started ++ [operation] }
      | _, _ => r
  | Input.finish => { r with scheduler := r.scheduler.finish }
  | Input.close => { r with scheduler := r.scheduler.close }

/-- Any sequence of calls, from a new scheduler. -/
def machine : Machine (Record α) (Input α) where
  init := fun r => ∃ maxPending, 1 ≤ maxPending ∧
    r = { scheduler := create maxPending, admitted := [], started := [], forced := [] }
  step := Record.step

/-- The operations of one kind. -/
def ofKind (kind : OperationKind) (l : List (Operation α)) : List (Operation α) :=
  l.filter fun operation => decide (operation.kind = kind)

/-- The bound concerns the operation. -/
def Voluntary (forced : List ℕ) (operation : Operation α) : Bool :=
  decide (operation.kind ≠ OperationKind.control) && decide (operation.sequence ∉ forced)

/-- The invariant. -/
structure Served (r : Record α) : Prop where
  numbered : r.scheduler.Numbered
  /-- The admitted operations have different numbers, which have all been given. -/
  distinct : r.admitted.Pairwise fun operation other => operation.sequence < other.sequence
  given : ∀ operation ∈ r.admitted, operation.sequence ≤ r.scheduler.sequence
  /-- Each kind is started in the order of submission. -/
  order : ∀ kind, ofKind kind r.started <+: ofKind kind r.admitted
  /-- What was admitted was started, or waits, until the scheduler is closed. -/
  kept : r.scheduler.stopping = false → ∀ kind,
    ofKind kind r.admitted = ofKind kind r.started ++ ofKind kind r.scheduler.queue
  bounded : (r.scheduler.queue.filter (Voluntary r.forced)).length ≤ r.scheduler.maxPending
  /-- Only numbers that have been given are noted. -/
  noted : ∀ n ∈ r.forced, n ≤ r.scheduler.sequence

theorem ofKind_append (kind : OperationKind) (l l' : List (Operation α)) :
    ofKind kind (l ++ l') = ofKind kind l ++ ofKind kind l' := List.filter_append _ _

/-- A kind whose first operation is taken. -/
theorem ofKind_pop {before after : List (Operation α)} (kind : OperationKind)
    (hbefore : ∀ other ∈ before, operation.kind.priority < other.kind.priority) :
    ofKind kind (before ++ operation :: after) =
      ofKind kind [operation] ++ ofKind kind (before ++ after) := by
  have hsplit : before ++ operation :: after = before ++ ([operation] ++ after) := rfl
  rw [hsplit, ofKind_append, ofKind_append, ofKind_append]
  by_cases hkind : operation.kind = kind
  · -- What stands before it is of another kind.
    have hnone : ofKind kind before = [] := by
      refine List.filter_eq_nil_iff.2 fun other hother => ?_
      have hless := hbefore other hother
      simp only [decide_eq_true_eq]
      rintro rfl
      rw [hkind] at hless
      exact lt_irrefl _ hless
    rw [hnone, List.nil_append, List.nil_append]
  · have hnone : ofKind kind [operation] = [] := by
      unfold ofKind
      rw [List.filter_cons_of_neg (by simpa using hkind), List.filter_nil]
    rw [hnone, List.nil_append, List.nil_append]

theorem Served.submit {r : Record α} (h : Served r) (kind : OperationKind) (callback : α)
    (continuation : Bool) : Served (r.step (Input.submit kind callback continuation)) := by
  unfold Record.step
  dsimp only
  rcases submit_cases r.scheduler kind callback continuation with ⟨e, hsubmit, -⟩ |
    ⟨hstopping, hadmits, hsubmit⟩
  · rw [hsubmit]
    exact h
  rw [hsubmit]
  have hnew : ∀ l : List (Operation α), ∀ kind', ofKind kind'
      (l ++ [{ sequence := r.scheduler.sequence + 1, kind, callback }]) =
        ofKind kind' l ++ ofKind kind'
          [{ sequence := r.scheduler.sequence + 1, kind, callback }] :=
    fun l kind' => ofKind_append kind' l _
  refine ⟨h.numbered.append kind callback, ?_, ?_, ?_, ?_, ?_, ?_⟩
  · refine List.pairwise_append.2 ⟨h.distinct, List.pairwise_singleton _ _, ?_⟩
    intro operation hoperation other hother
    rw [List.mem_singleton.1 hother]
    exact Nat.lt_succ_of_le (h.given operation hoperation)
  · intro operation hoperation
    rcases List.mem_append.1 hoperation with hoperation | hoperation
    · exact (h.given operation hoperation).trans (Nat.le_succ _)
    · rw [List.mem_singleton.1 hoperation]
  · intro kind'
    rw [hnew]
    exact (h.order kind').trans (List.prefix_append _ _)
  · intro _ kind'
    dsimp only
    rw [hnew, hnew, h.kept hstopping kind', List.append_assoc]
  · -- The numbers that wait are smaller than the new one, so nothing about them changes.
    have hold : (r.scheduler.queue.filter
        (Voluntary (if continuation then (r.scheduler.sequence + 1) :: r.forced else r.forced))) =
          r.scheduler.queue.filter (Voluntary r.forced) := by
      refine List.filter_congr fun operation hoperation => ?_
      have hgiven := h.numbered.given operation hoperation
      unfold Voluntary
      cases continuation with
      | false => rfl
      | true =>
          have hne : operation.sequence ≠ r.scheduler.sequence + 1 := by omega
          simp only [if_true, List.mem_cons, hne, false_or]
    dsimp only
    rw [List.filter_append, List.length_append, hold]
    have hlength : (r.scheduler.queue.filter (Voluntary r.forced)).length ≤
        r.scheduler.queue.length := List.length_filter_le _ _
    have hbounded := h.bounded
    rcases hadmits with hcontrol | hcontinuation | hroom
    · rw [List.filter_cons_of_neg (by simp [Voluntary, hcontrol]), List.filter_nil,
        List.length_nil]
      exact hbounded
    · rw [List.filter_cons_of_neg (by simp [Voluntary, hcontinuation]), List.filter_nil,
        List.length_nil]
      exact hbounded
    · have hone := List.length_filter_le
        (Voluntary (if continuation then (r.scheduler.sequence + 1) :: r.forced else r.forced))
        [({ sequence := r.scheduler.sequence + 1, kind, callback } : Operation α)]
      rw [List.length_singleton] at hone
      omega
  · intro n hn
    dsimp only at hn ⊢
    cases continuation with
    | false => exact (h.noted n hn).trans (Nat.le_succ _)
    | true =>
        rcases List.mem_cons.1 hn with rfl | hn
        · exact le_refl _
        · exact (h.noted n hn).trans (Nat.le_succ _)

theorem Served.pop {r : Record α} (h : Served r) : Served (r.step Input.pop) := by
  unfold Record.step
  dsimp only
  cases hactive : r.scheduler.active with
  | some kind => exact h
  | none =>
      cases hpop : r.scheduler.pop with
      | none => exact h
      | some p =>
          obtain ⟨operation, s⟩ := p
          have hnumbered := h.numbered.pop hpop
          have hstopping : r.scheduler.stopping = false := by
            by_contra hstopping
            have hnone := pop_eq_none_iff.2 (Or.inl (Bool.eq_true_of_not_eq_false hstopping))
            rw [hnone] at hpop
            cases hpop
          obtain ⟨before, after, hsplit, hbefore, -, rfl⟩ := pop_cases h.numbered hpop
          have hkept : ∀ kind, ofKind kind r.admitted =
              ofKind kind (r.started ++ [operation]) ++ ofKind kind (before ++ after) := by
            intro kind
            rw [h.kept hstopping kind, hsplit, ofKind_pop kind hbefore,
              ofKind_append kind r.started [operation], List.append_assoc]
          refine ⟨hnumbered, h.distinct, h.given, ?_, fun _ => hkept, ?_, h.noted⟩
          · intro kind
            rw [hkept kind]
            exact List.prefix_append _ _
          · have hsub : List.Sublist (before ++ after) r.scheduler.queue := by
              rw [hsplit]
              exact List.Sublist.append_left (List.sublist_cons_self _ _) _
            exact (hsub.filter _).length_le.trans h.bounded

theorem Served.close {r : Record α} (h : Served r) : Served (r.step Input.close) where
  numbered := ⟨List.Pairwise.nil, nofun⟩
  distinct := h.distinct
  given := h.given
  order := h.order
  kept := nofun
  bounded := Nat.zero_le _
  noted := h.noted

/-- **The invariant, in every reachable state.** -/
theorem served_of_reachable {r : Record α} (h : machine.Reachable r) : Served r := by
  refine h.invariant ?_ ?_
  · rintro r ⟨maxPending, -, rfl⟩
    exact ⟨numbered_create maxPending, List.Pairwise.nil, nofun, fun _ => List.prefix_refl _,
      fun _ _ => rfl, Nat.zero_le _, nofun⟩
  · intro r input _ h
    cases input with
    | submit kind callback continuation => exact h.submit kind callback continuation
    | pop => exact h.pop
    | finish => exact ⟨⟨h.numbered.increasing, h.numbered.given⟩, h.distinct, h.given, h.order,
        h.kept, h.bounded, h.noted⟩
    | close => exact h.close

/-- **Nothing is lost, nothing is done twice, and nothing is overtaken.**  In every reachable state:
the admitted operations are different ones; the operations of each kind are started in the order in
which they were admitted; until the scheduler is closed, an operation that was admitted and has not
been started waits in the queue, behind the earlier ones of its kind; whatever the thread takes next,
nothing of a smaller priority waits; and no more operations wait than the bound says, apart from
those that clean up and those that continue work. -/
theorem served_in_order {r : Record α} (h : machine.Reachable r) :
    r.admitted.Nodup ∧
      (∀ kind, ofKind kind r.started <+: ofKind kind r.admitted) ∧
      (r.scheduler.stopping = false → ∀ kind,
        ofKind kind r.admitted = ofKind kind r.started ++ ofKind kind r.scheduler.queue) ∧
      (∀ operation s, r.scheduler.pop = some (operation, s) →
        ∀ other ∈ r.scheduler.queue, operation.kind.priority ≤ other.kind.priority) ∧
      (r.scheduler.queue.filter (Voluntary r.forced)).length ≤ r.scheduler.maxPending := by
  have hserved := served_of_reachable h
  refine ⟨hserved.distinct.imp ?_, hserved.order, hserved.kept, ?_, hserved.bounded⟩
  · rintro operation other hless rfl
    exact lt_irrefl _ hless
  · intro operation s hpop other hother
    obtain ⟨before, after, hsplit, hbefore, hafter, -⟩ := pop_cases hserved.numbered hpop
    rw [hsplit] at hother
    rcases List.mem_append.1 hother with hother | hother
    · exact le_of_lt (hbefore other hother)
    · rcases List.mem_cons.1 hother with rfl | hother
      · exact le_refl _
      · exact hafter other hother

/-- A new scheduler of numbers. -/
def newRecord : Record ℕ where
  scheduler := create 2
  admitted := []
  started := []
  forced := []

/-- A continuation, a message and a cleaning up, of which two are done; another message has found the
queue full. -/
def twoOfThree : Record ℕ :=
  machine.exec newRecord
    [Input.submit OperationKind.background 1 true, Input.submit OperationKind.human 2 false,
      Input.submit OperationKind.control 3 false, Input.submit OperationKind.human 4 false,
      Input.pop, Input.finish, Input.pop]

/-- The cleaning up is done first, and then the message; the continuation waits. -/
theorem served_in_order_twoOfThree :
    twoOfThree.admitted.Nodup ∧ twoOfThree.started.map Operation.callback = [3, 2] ∧
      twoOfThree.scheduler.queue.map Operation.callback = [1] ∧
      ∀ kind, ofKind kind twoOfThree.admitted =
        ofKind kind twoOfThree.started ++ ofKind kind twoOfThree.scheduler.queue := by
  have hinit : machine.init newRecord := ⟨2, by decide, rfl⟩
  obtain ⟨hdistinct, -, hkept, -⟩ :=
    served_in_order (Machine.Reachable.exec (Machine.Reach.of_init hinit)
      [Input.submit OperationKind.background 1 true, Input.submit OperationKind.human 2 false,
        Input.submit OperationKind.control 3 false, Input.submit OperationKind.human 4 false,
        Input.pop, Input.finish, Input.pop])
  exact ⟨hdistinct, by decide, by decide, hkept (by decide)⟩

end PriorityScheduler
