/-
**The outbox of notifications.**

Notifications for people are kept in one SQLite file that all COREs share.  Every CORE has a thread
that pumps: in one transaction it reports itself as a dispatcher, takes part in an election, and
selects a notification that is due; it sends the notification outside of any transaction; and in a
third step it marks it as delivered or puts it off.  Between these steps the other COREs do what
they like.

Main definitions:

* `Notification`, `Dispatcher`, `OutboxDb` — the rows of the two tables, and the file;
* `NotificationOutbox.enqueue`, `NotificationOutbox.acknowledge`, `NotificationOutbox.select`,
  `NotificationOutbox.reschedule` — the transactions;
* `Outbox.machine` — the COREs that share the file.

Main results:

* `NotificationOutbox.select_spec` — what a pump selects;
* `NotificationOutbox.winner_eq_iff` — **a CORE is elected unless a live one precedes it**.
-/

import CatAgent.EventStore
import CatAgent.Machine
import Mathlib.Data.Rat.Defs
import Mathlib.Algebra.Order.Ring.Rat

set_option relaxedAutoImplicit false
set_option autoImplicit false

/-- A row of `notifications`. -/
structure Notification where
  id : PyStr
  text : PyStr
  attempts : ℕ := 0
  due : ℚ := 0
  delivered : Option ℚ := none
  error : PyStr := []
  scope : PyStr := []
deriving DecidableEq

/-- A row of `dispatchers`, the scope apart. -/
structure Dispatcher where
  human : Bool
  lastSeen : ℚ
deriving DecidableEq

/-- The SQLite file; the notifications are ordered by `rowid`. -/
structure OutboxDb where
  notifications : Table Notification.id
  dispatchers : PyDict PyStr Dispatcher

namespace NotificationOutbox

/-- `DISPATCHER_LEASE_SECONDS`. -/
def lease : ℚ := 1

/-- The first `_connect` of a process: old rows get a scope. -/
def migrate (scope : PyStr) (db : OutboxDb) : OutboxDb :=
  { db with
    notifications := db.notifications.map (fun row =>
      if row.scope = [] ∧ row.delivered = none then { row with scope } else row)
      fun row => by split <;> rfl }

/-- `NotificationOutbox._heartbeat`. -/
def heartbeat (scope : PyStr) (human : Bool) (now : ℚ) (db : OutboxDb) : OutboxDb :=
  { db with dispatchers := db.dispatchers.set scope { human, lastSeen := now } }

/-- `NotificationOutbox.enqueue`: a repeated identifier changes nothing. -/
def enqueue (scope : PyStr) (human : Bool) (now : ℚ) (text identifier : PyStr) (db : OutboxDb) :
    OutboxDb :=
  let db := heartbeat scope human now db
  match db.notifications.get? identifier with
  | some _ => db
  | none => { db with notifications := db.notifications.put { id := identifier, text, scope } }

/-- `NotificationOutbox.acknowledge`. -/
def acknowledge (now : ℚ) (identifier : PyStr) (db : OutboxDb) : OutboxDb :=
  { db with
    notifications := db.notifications.modify identifier (fun row =>
      if row.delivered = none then { row with delivered := some now, error := [] } else row)
      fun row => by split <;> rfl }

/-- The dispatchers that have reported themselves within the lease. -/
def live (now : ℚ) (db : OutboxDb) : List (PyStr × Dispatcher) :=
  db.dispatchers.entries.filter fun e => decide (now - lease ≤ e.2.lastSeen)

/-- `ORDER BY scope LIMIT 1`. -/
def firstScope : List (PyStr × Dispatcher) → Option PyStr
  | [] => none
  | (scope, _) :: l =>
      match firstScope l with
      | none => some scope
      | some first => some (if EventStore.strLe scope first then scope else first)

/-- The scope that is elected: COREs with a human interface come first. -/
def winner (now : ℚ) (db : OutboxDb) : Option PyStr :=
  match firstScope ((live now db).filter fun e => e.2.human) with
  | some scope => some scope
  | none => firstScope (live now db)

/-- A notification that may be sent at a given time. -/
def Notification.Eligible (now : ℚ) (row : Notification) : Prop :=
  row.delivered = none ∧ row.due ≤ now

instance (now : ℚ) (row : Notification) : Decidable (Notification.Eligible now row) :=
  inferInstanceAs (Decidable (_ ∧ _))

/-- The oldest notification that may be sent. -/
def nextRow (now : ℚ) (db : OutboxDb) : Option Notification :=
  db.notifications.values.find? fun row => decide (Notification.Eligible now row)

/-- The first transaction of `NotificationOutbox.pump`. -/
def select (scope : PyStr) (human : Bool) (now : ℚ) (db : OutboxDb) :
    Option Notification × OutboxDb :=
  let db := heartbeat scope human now db
  (if winner now db = some scope then nextRow now db else none, db)

/-- How long a notification is put off. -/
def delay (attempts : ℕ) : ℚ := min 300 (10 * 2 ^ min attempts 5)

/-- The last transaction of `NotificationOutbox.pump`, after a send that was not accepted. -/
def reschedule (now : ℚ) (row : Notification) (error : PyStr) (db : OutboxDb) : OutboxDb :=
  { db with
    notifications := db.notifications.modify row.id (fun current =>
      if current.delivered = none then
        { current with attempts := current.attempts + 1, due := now + delay row.attempts, error }
      else current)
      fun current => by split <;> rfl }

/-- `NotificationOutbox.close`. -/
def leave (scope : PyStr) (db : OutboxDb) : OutboxDb :=
  { db with dispatchers := db.dispatchers.erase scope }

end NotificationOutbox

/-! ### The COREs that share the file -/

/-- Where the pump of a CORE stands. -/
inductive Pump where
  | idle
  /-- `self.sender(identifier, text)` has been called. -/
  | sending (now : ℚ) (row : Notification)
  /-- The sender has accepted the notification. -/
  | acknowledging (now : ℚ) (row : Notification)
  | rescheduling (now : ℚ) (row : Notification) (error : PyStr)
deriving DecidableEq

/-- The file, and for every CORE its human interface and its pump. -/
structure Outbox (κ : Type) where
  db : OutboxDb
  human : κ → Bool
  pump : κ → Pump

/-- What happens next. -/
inductive OutboxInput (κ : Type) where
  /-- A process opens the file for the first time. -/
  | connect (k : κ)
  /-- A human interface comes or goes. -/
  | interface (k : κ) (present : Bool)
  | enqueue (k : κ) (now : ℚ) (text : PyStr) (identifier : Option PyStr) (fresh : PyStr)
  | acknowledge (now : ℚ) (identifier : PyStr)
  | start (k : κ) (now : ℚ)
  | close (k : κ)
  /-- The first transaction of `pump`. -/
  | pump (k : κ) (now : ℚ)
  /-- The sender returns or raises. -/
  | sent (k : κ) (result : Except PyStr Bool)
  /-- The last transaction of `pump`, or it raises. -/
  | settle (k : κ) (now : ℚ) (raised : Option PyStr)
  /-- The process dies. -/
  | crash (k : κ)

namespace Outbox

open NotificationOutbox

variable {κ : Type} [DecidableEq κ]

/-- `identifier or uuid.uuid4().hex`. -/
def identifierOf (identifier : Option PyStr) (fresh : PyStr) : PyStr :=
  if identifier.getD [] = [] then fresh else identifier.getD []

/-- One step of one of the COREs, of which `scope` gives the scopes. -/
def step (scope : κ → PyStr) (s : Outbox κ) : OutboxInput κ → Outbox κ
  | OutboxInput.connect k => { s with db := migrate (scope k) s.db }
  | OutboxInput.interface k present => { s with human := Function.update s.human k present }
  | OutboxInput.enqueue k now text identifier fresh =>
      { s with
        db := NotificationOutbox.enqueue (scope k) (s.human k) now text
          (identifierOf identifier fresh) s.db }
  | OutboxInput.acknowledge now identifier =>
      { s with db := NotificationOutbox.acknowledge now identifier s.db }
  | OutboxInput.start k now => { s with db := heartbeat (scope k) (s.human k) now s.db }
  | OutboxInput.close k => { s with db := leave (scope k) s.db }
  | OutboxInput.pump k now =>
      match s.pump k, select (scope k) (s.human k) now s.db with
      | Pump.idle, (none, db) => { s with db }
      | Pump.idle, (some row, db) =>
          { s with db, pump := Function.update s.pump k (Pump.sending now row) }
      | _, _ => s
  | OutboxInput.sent k result =>
      match s.pump k, result with
      | Pump.sending now row, Except.ok true =>
          { s with pump := Function.update s.pump k (Pump.acknowledging now row) }
      | Pump.sending now row, Except.ok false =>
          { s with
            pump := Function.update s.pump k
              (Pump.rescheduling now row "awaiting interface acknowledgement") }
      | Pump.sending now row, Except.error e =>
          { s with pump := Function.update s.pump k (Pump.rescheduling now row e) }
      | _, _ => s
  | OutboxInput.settle k later raised =>
      match s.pump k, raised with
      | Pump.acknowledging _ row, none =>
          { s with
            db := NotificationOutbox.acknowledge later row.id s.db
            pump := Function.update s.pump k Pump.idle }
      | Pump.acknowledging now row, some e =>
          -- What `acknowledge` raises is caught like what the sender raises.
          { s with pump := Function.update s.pump k (Pump.rescheduling now row e) }
      | Pump.rescheduling now row error, none =>
          { s with
            db := reschedule now row error s.db
            pump := Function.update s.pump k Pump.idle }
      | Pump.rescheduling _ _ _, some _ => { s with pump := Function.update s.pump k Pump.idle }
      | _, _ => s
  | OutboxInput.crash k => { s with pump := Function.update s.pump k Pump.idle }

/-- The COREs start with an existing file, and no pump is running. -/
def machine (scope : κ → PyStr) : Machine (Outbox κ) (OutboxInput κ) where
  init := fun s => ∀ k, s.pump k = Pump.idle
  step := step scope

end Outbox

/-! ### The election -/

namespace NotificationOutbox

variable {scope c : PyStr} {now : ℚ} {db : OutboxDb} {d : Dispatcher}

theorem select_spec {human : Bool} {row : Notification}
    (h : (select scope human now db).1 = some row) :
    db.notifications.get? row.id = some row ∧ Notification.Eligible now row ∧
      winner now (heartbeat scope human now db) = some scope ∧ nextRow now db = some row := by
  simp only [select] at h
  split at h
  next hwinner =>
    have hfind : nextRow now db = some row := h
    have hrow := List.find?_some hfind
    exact ⟨Table.mem_values_iff.1 (List.mem_of_find?_eq_some hfind), of_decide_eq_true hrow,
      hwinner, hfind⟩
  next => cases h

theorem firstScope_eq_none_iff {l : List (PyStr × Dispatcher)} :
    firstScope l = none ↔ l = [] := by
  cases l with
  | nil => exact iff_of_true rfl rfl
  | cons e l =>
      refine iff_of_false ?_ (List.cons_ne_nil _ _)
      simp only [firstScope]
      split <;> exact nofun

/-- The first of some scopes is one of them, and comes before all of them. -/
theorem firstScope_spec {l : List (PyStr × Dispatcher)} (h : firstScope l = some scope) :
    scope ∈ l.map Prod.fst ∧ ∀ c ∈ l.map Prod.fst, EventStore.strLe scope c = true := by
  induction l generalizing scope with
  | nil => cases h
  | cons e l ih =>
      simp only [firstScope] at h
      rw [List.map_cons, List.forall_mem_cons]
      split at h
      next hnone =>
        cases h
        rw [firstScope_eq_none_iff] at hnone
        subst hnone
        exact ⟨List.mem_cons_self, EventStore.strLe_refl _, by simp⟩
      next first hfirst =>
        obtain ⟨hmem, hle⟩ := ih hfirst
        cases h
        split
        next hlt =>
          exact ⟨List.mem_cons_self, EventStore.strLe_refl _,
            fun c hc => EventStore.strLe_trans hlt (hle c hc)⟩
        next hlt =>
          exact ⟨List.mem_cons_of_mem _ hmem, (EventStore.strLe_total _ _).resolve_left hlt, hle⟩

theorem firstScope_eq_some_iff {l : List (PyStr × Dispatcher)} :
    firstScope l = some scope ↔ scope ∈ l.map Prod.fst ∧
      ∀ c ∈ l.map Prod.fst, EventStore.strLe scope c = true := by
  refine ⟨firstScope_spec, fun ⟨hmem, hle⟩ => ?_⟩
  cases hfirst : firstScope l with
  | none =>
      rw [firstScope_eq_none_iff] at hfirst
      subst hfirst
      cases hmem
  | some first =>
      obtain ⟨hmem', hle'⟩ := firstScope_spec hfirst
      rw [EventStore.strLe_antisymm (hle' scope hmem) (hle first hmem')]

theorem mem_live_iff : (c, d) ∈ live now db ↔
    db.dispatchers.get? c = some d ∧ now - lease ≤ d.lastSeen := by
  rw [live, List.mem_filter, PyDict.mem_entries_iff, decide_eq_true_eq]

/-- In the election, the CORE with the scope `c` precedes the one with the scope `scope`: it has a
human interface and the other has none, or they are alike and `c` is the smaller scope. -/
def Precedes (c : PyStr) (d : Dispatcher) (scope : PyStr) (d' : Dispatcher) : Prop :=
  if d.human = d'.human then EventStore.strLe c scope = true else d.human = true

/-- A live CORE other than `scope` precedes it. -/
def Outranked (now : ℚ) (human : Bool) (scope : PyStr) (db : OutboxDb) : Prop :=
  ∃ c d, c ≠ scope ∧ db.dispatchers.get? c = some d ∧ now - lease ≤ d.lastSeen ∧
    Precedes c d scope { human, lastSeen := now }

/-- A CORE that takes part in the election is live in it. -/
theorem mem_live_self (scope : PyStr) (human : Bool) (now : ℚ) (db : OutboxDb) :
    (scope, { human, lastSeen := now }) ∈ live now (heartbeat scope human now db) := by
  refine mem_live_iff.2 ⟨PyDict.get?_set_self _ _ _, ?_⟩
  simp [lease]

/-- The other COREs are live in it if they were before. -/
theorem mem_live_of_ne (human : Bool) (hne : c ≠ scope) :
    (c, d) ∈ live now (heartbeat scope human now db) ↔
      db.dispatchers.get? c = some d ∧ now - lease ≤ d.lastSeen := by
  have hget : (heartbeat scope human now db).dispatchers.get? c = db.dispatchers.get? c :=
    PyDict.get?_set_of_ne _ _ hne.symm
  rw [mem_live_iff, hget]

theorem eq_of_mem_live_self {human : Bool}
    (h : (scope, d) ∈ live now (heartbeat scope human now db)) :
    d = { human, lastSeen := now } := by
  have hget := (mem_live_iff.1 h).1
  have hset : (heartbeat scope human now db).dispatchers.get? scope =
      some { human, lastSeen := now } := PyDict.get?_set_self _ _ _
  rw [hset] at hget
  exact (Option.some.inj hget).symm

/-- The election among COREs with a human interface. -/
theorem firstScope_human_iff {human : Bool} {first : PyStr}
    (hfirst : firstScope ((live now (heartbeat scope human now db)).filter fun e => e.2.human) =
      some first) : first = scope ↔ ¬ Outranked now human scope db := by
  obtain ⟨hmem, hle⟩ := firstScope_spec hfirst
  obtain ⟨⟨first', d⟩, hd, rfl⟩ := List.mem_map.1 hmem
  obtain ⟨hd, hhuman⟩ := List.mem_filter.1 hd
  constructor
  · rintro rfl ⟨c, d', hne, hget, hseen, hprec⟩
    have hd' := eq_of_mem_live_self hd
    subst hd'
    have hhuman' : human = true := hhuman
    have hd'human : d'.human = true := by
      simp only [Precedes] at hprec
      split at hprec
      next heq => exact heq.trans hhuman'
      next => exact hprec
    have hlive := (mem_live_of_ne human hne).2 ⟨hget, hseen⟩
    have hle' := hle c (List.mem_map.2 ⟨(c, d'), List.mem_filter.2 ⟨hlive, hd'human⟩, rfl⟩)
    rw [Precedes, if_pos (hd'human.trans hhuman'.symm)] at hprec
    exact hne (EventStore.strLe_antisymm hprec hle')
  · intro hnot
    by_contra hne
    obtain ⟨hget, hseen⟩ := (mem_live_of_ne human hne).1 hd
    refine hnot ⟨first', d, hne, hget, hseen, ?_⟩
    rw [Precedes]
    split
    next heq =>
      have hself := mem_live_self scope human now db
      exact hle scope (List.mem_map.2 ⟨_, List.mem_filter.2 ⟨hself, heq.symm.trans hhuman⟩, rfl⟩)
    next => exact hhuman

/-- The election when nobody has a human interface. -/
theorem firstScope_live_iff {human : Bool}
    (hnone : ∀ e ∈ live now (heartbeat scope human now db), e.2.human = false) :
    firstScope (live now (heartbeat scope human now db)) = some scope ↔
      ¬ Outranked now human scope db := by
  have hself := mem_live_self scope human now db
  have hhuman : human = false := hnone _ hself
  rw [firstScope_eq_some_iff]
  constructor
  · rintro ⟨-, hle⟩ ⟨c, d, hne, hget, hseen, hprec⟩
    have hlive := (mem_live_of_ne human hne).2 ⟨hget, hseen⟩
    have hd : d.human = false := hnone _ hlive
    rw [Precedes, if_pos (hd.trans hhuman.symm)] at hprec
    exact hne (EventStore.strLe_antisymm hprec (hle c (List.mem_map.2 ⟨(c, d), hlive, rfl⟩)))
  · intro hnot
    refine ⟨List.mem_map.2 ⟨_, hself, rfl⟩, fun c hc => ?_⟩
    obtain ⟨⟨c', d⟩, hd, rfl⟩ := List.mem_map.1 hc
    by_cases hne : c' = scope
    · rw [hne]
      exact EventStore.strLe_refl scope
    · have hdh : d.human = false := hnone _ hd
      obtain ⟨hget, hseen⟩ := (mem_live_of_ne human hne).1 hd
      by_contra hle
      refine hnot ⟨c', d, hne, hget, hseen, ?_⟩
      rw [Precedes, if_pos (hdh.trans hhuman.symm)]
      exact (EventStore.strLe_total scope c').resolve_left hle

/-- **A CORE that takes part in the election wins it unless a live one precedes it.** -/
theorem winner_eq_iff {human : Bool} :
    winner now (heartbeat scope human now db) = some scope ↔ ¬ Outranked now human scope db := by
  unfold winner
  cases hfirst : firstScope
      ((live now (heartbeat scope human now db)).filter fun e => e.2.human) with
  | some first => rw [← firstScope_human_iff hfirst, Option.some.injEq]
  | none =>
      rw [firstScope_eq_none_iff, List.filter_eq_nil_iff] at hfirst
      exact firstScope_live_iff fun e he => Bool.not_eq_true _ ▸ hfirst e he

end NotificationOutbox
