/-
**What the outbox guarantees.**

Nothing is lost in the outbox.  A row is never removed, its text never changes, and it counts as
delivered once somebody has acknowledged it or a sender has accepted it; until then it comes up
again, whatever processes die or fail in between.

That a row is not sent by two COREs at a time is another matter.  The election rests on a lease
of one second, which a CORE does not renew while it sends, and on who has a human interface, which
may change while it sends.

Main definitions:

* `Notification.Kept` — what never changes about a row;
* `Outbox.AtLeastOnce` — the delivery of notifications, over all runs;
* `Outbox.Exclusive`, `Outbox.Leased` — no row is sent by two COREs at a time, and the condition on
  a pump that this takes.

Main results:

* `Outbox.stepped` — what a step does to the file and to the pumps;
* `Outbox.step_row` — what a step does to a row;
* `Outbox.atLeastOnce` — **at-least-once delivery**;
* `Outbox.exclusive_iff` — **sends are exclusive in the runs in which every pump is leased**, and in
  no other;
* `Outbox.not_exclusive` — a CORE that starts while another one sends sends the same row.
-/

import CatAgent.NotificationOutbox
import Mathlib.Tactic.Linarith

set_option relaxedAutoImplicit false
set_option autoImplicit false

/-- What never changes about a notification. -/
structure Notification.Kept (row row' : Notification) : Prop where
  id : row'.id = row.id
  text : row'.text = row.text
  attempts : row.attempts ≤ row'.attempts
  delivered : ∀ t, row.delivered = some t → row'.delivered = some t

theorem Notification.Kept.refl (row : Notification) : row.Kept row :=
  ⟨rfl, rfl, le_rfl, fun _ h => h⟩

theorem Notification.Kept.trans {row row' row'' : Notification} (h : row.Kept row')
    (h' : row'.Kept row'') : row.Kept row'' where
  id := h'.id.trans h.id
  text := h'.text.trans h.text
  attempts := h.attempts.trans h'.attempts
  delivered := fun t ht => h'.delivered t (h.delivered t ht)

namespace Outbox

open NotificationOutbox

variable {κ : Type} [DecidableEq κ] {scope : κ → PyStr} {s s₀ : Outbox κ} {i : OutboxInput κ}

/-! ### Single steps -/

/-- The step marks the row as delivered: somebody acknowledges it, or a pump whose sender has
accepted it. -/
def Marks (s : Outbox κ) (i : OutboxInput κ) (identifier : PyStr) : Prop :=
  (∃ now, i = OutboxInput.acknowledge now identifier) ∨
    ∃ k later now row, i = OutboxInput.settle k later none ∧ s.pump k = Pump.acknowledging now row ∧
      row.id = identifier

/-- What a step does to a row that was there. -/
structure RowStep (s : Outbox κ) (i : OutboxInput κ) (row row' : Notification) : Prop where
  kept : row.Kept row'
  /-- The row becomes delivered only if it is marked. -/
  marked : row'.delivered = row.delivered ∨ Marks s i row.id
  /-- It is put off only after a send that was not accepted. -/
  due : row'.due = row.due ∨ ∃ k later now r error, i = OutboxInput.settle k later none ∧
    s.pump k = Pump.rescheduling now r error ∧ row'.due = now + delay r.attempts

omit [DecidableEq κ] in
theorem RowStep.same (row : Notification) : RowStep s i row row :=
  ⟨Notification.Kept.refl row, Or.inl rfl, Or.inl rfl⟩

/-- `acknowledge` and a row. -/
theorem get?_acknowledge {now : ℚ} {identifier k : PyStr} {db : OutboxDb} {row' : Notification}
    (h : (NotificationOutbox.acknowledge now identifier db).notifications.get? k = some row') :
    ∃ row, db.notifications.get? k = some row ∧ row.Kept row' ∧ row'.due = row.due ∧
      (row'.delivered = row.delivered ∨ identifier = k) := by
  simp only [NotificationOutbox.acknowledge, Table.get?_modify] at h
  split at h
  next hid =>
    obtain ⟨row, hrow, rfl⟩ := Option.map_eq_some_iff.1 h
    refine ⟨row, hrow, ?_, ?_, Or.inr hid⟩
    · split
      next hnone => exact ⟨rfl, rfl, le_rfl, fun t ht => by rw [hnone] at ht; cases ht⟩
      next => exact Notification.Kept.refl row
    · split <;> rfl
  next => exact ⟨row', h, Notification.Kept.refl row', rfl, Or.inl rfl⟩

/-- `reschedule` and a row. -/
theorem get?_reschedule {now : ℚ} {r : Notification} {error k : PyStr} {db : OutboxDb}
    {row' : Notification} (h : (reschedule now r error db).notifications.get? k = some row') :
    ∃ row, db.notifications.get? k = some row ∧ row.Kept row' ∧ row'.delivered = row.delivered ∧
      (row'.due = row.due ∨ row'.due = now + delay r.attempts) := by
  simp only [reschedule, Table.get?_modify] at h
  split at h
  next =>
    obtain ⟨row, hrow, rfl⟩ := Option.map_eq_some_iff.1 h
    refine ⟨row, hrow, ?_, ?_, ?_⟩
    · split
      next => exact ⟨rfl, rfl, Nat.le_succ _, fun t ht => ht⟩
      next => exact Notification.Kept.refl row
    · split <;> rfl
    · split
      next => exact Or.inr rfl
      next => exact Or.inl rfl
  next => exact ⟨row', h, Notification.Kept.refl row', rfl, Or.inl rfl⟩

/-- `enqueue` and a row. -/
theorem get?_enqueue {sc text identifier k : PyStr} {human : Bool} {now : ℚ} {db : OutboxDb}
    {row' : Notification}
    (h : (NotificationOutbox.enqueue sc human now text identifier db).notifications.get? k =
      some row') :
    db.notifications.get? k = some row' ∨
      db.notifications.get? k = none ∧ row' = { id := identifier, text, scope := sc } := by
  simp only [NotificationOutbox.enqueue] at h
  split at h
  next => exact Or.inl h
  next hnone =>
    rw [Table.get?_put] at h
    split at h
    next hid =>
      cases h
      change identifier = k at hid
      subst hid
      exact Or.inr ⟨hnone, rfl⟩
    next => exact Or.inl h

/-- What a step does to the file. -/
inductive DbStep (scope : κ → PyStr) (s : Outbox κ) (i : OutboxInput κ) : OutboxDb → Prop where
  /-- No row changes. -/
  | same {db : OutboxDb} (h : db.notifications = s.db.notifications) : DbStep scope s i db
  | migrated (c : κ) : DbStep scope s i (migrate (scope c) s.db)
  | enqueued (c : κ) (now : ℚ) (text identifier : PyStr) :
      DbStep scope s i
        (NotificationOutbox.enqueue (scope c) (s.human c) now text identifier s.db)
  | acknowledged (now : ℚ) (identifier : PyStr) (h : Marks s i identifier) :
      DbStep scope s i (NotificationOutbox.acknowledge now identifier s.db)
  | rescheduled (c : κ) (later now : ℚ) (r : Notification) (error : PyStr)
      (hi : i = OutboxInput.settle c later none)
      (hc : s.pump c = Pump.rescheduling now r error) :
      DbStep scope s i (reschedule now r error s.db)

/-- What a step does to the pump of the CORE `k`. -/
inductive PumpStep (scope : κ → PyStr) (s : Outbox κ) (i : OutboxInput κ) (k : κ) :
    Pump → Prop where
  | same : PumpStep scope s i k (s.pump k)
  | ended : PumpStep scope s i k Pump.idle
  | selected (now : ℚ) (row : Notification) (hi : i = OutboxInput.pump k now)
      (hidle : s.pump k = Pump.idle)
      (hselect : (select (scope k) (s.human k) now s.db).1 = some row) :
      PumpStep scope s i k (Pump.sending now row)
  | accepted (now : ℚ) (row : Notification) (hi : i = OutboxInput.sent k (Except.ok true))
      (hsending : s.pump k = Pump.sending now row) :
      PumpStep scope s i k (Pump.acknowledging now row)
  | refused (now : ℚ) (row : Notification) (error : PyStr)
      (h : s.pump k = Pump.sending now row ∨ s.pump k = Pump.acknowledging now row) :
      PumpStep scope s i k (Pump.rescheduling now row error)

/-- A step writes to the file what one transaction writes, and moves one pump. -/
def Stepped (scope : κ → PyStr) (s : Outbox κ) (i : OutboxInput κ) (s' : Outbox κ) : Prop :=
  DbStep scope s i s'.db ∧ ∀ k, PumpStep scope s i k (s'.pump k)

/-- A step that moves the pump of `c` only. -/
theorem PumpStep.update {c : κ} {p : Pump} (h : PumpStep scope s i c p) (k : κ) :
    PumpStep scope s i k (Function.update s.pump c p k) := by
  by_cases hc : k = c
  · subst hc
    rw [Function.update_self]
    exact h
  · rw [Function.update_of_ne hc]
    exact PumpStep.same

/-- **What a step does** to the file and to the pumps. -/
theorem stepped (scope : κ → PyStr) (s : Outbox κ) (i : OutboxInput κ) :
    Stepped scope s i (step scope s i) := by
  have hsame : ∀ k, PumpStep scope s i k (s.pump k) := fun _ => PumpStep.same
  cases i with
  | connect c => exact ⟨DbStep.migrated c, hsame⟩
  | enqueue c now text identifier fresh => exact ⟨DbStep.enqueued c now text _, hsame⟩
  | acknowledge now identifier =>
      exact ⟨DbStep.acknowledged now identifier (Or.inl ⟨now, rfl⟩), hsame⟩
  | pump c now =>
      simp only [step]
      split
      next db hidle hselect =>
        have hdb : heartbeat (scope c) (s.human c) now s.db = db := congrArg Prod.snd hselect
        subst hdb
        exact ⟨DbStep.same rfl, hsame⟩
      next row db hidle hselect =>
        have hdb : heartbeat (scope c) (s.human c) now s.db = db := congrArg Prod.snd hselect
        subst hdb
        exact ⟨DbStep.same rfl,
          PumpStep.update (PumpStep.selected now row rfl hidle (congrArg Prod.fst hselect))⟩
      next => exact ⟨DbStep.same rfl, hsame⟩
  | sent c result =>
      simp only [step]
      split
      next now row hsending =>
        exact ⟨DbStep.same rfl, PumpStep.update (PumpStep.accepted now row rfl hsending)⟩
      next now row hsending =>
        exact ⟨DbStep.same rfl, PumpStep.update (PumpStep.refused now row _ (Or.inl hsending))⟩
      next now row error hsending =>
        exact ⟨DbStep.same rfl, PumpStep.update (PumpStep.refused now row error (Or.inl hsending))⟩
      next => exact ⟨DbStep.same rfl, hsame⟩
  | settle c later raised =>
      simp only [step]
      split
      next now row hpump =>
        exact ⟨DbStep.acknowledged later row.id (Or.inr ⟨c, later, now, row, rfl, hpump, rfl⟩),
          PumpStep.update PumpStep.ended⟩
      next now row error hpump =>
        exact ⟨DbStep.same rfl, PumpStep.update (PumpStep.refused now row error (Or.inr hpump))⟩
      next now row error hpump =>
        exact ⟨DbStep.rescheduled c later now row error rfl hpump,
          PumpStep.update PumpStep.ended⟩
      next => exact ⟨DbStep.same rfl, PumpStep.update PumpStep.ended⟩
      next => exact ⟨DbStep.same rfl, hsame⟩
  | crash c => exact ⟨DbStep.same rfl, PumpStep.update PumpStep.ended⟩
  | _ => exact ⟨DbStep.same rfl, hsame⟩

/-- **What a step does to a row**: it has been there, or it is new, undelivered and due. -/
theorem step_row {k : PyStr} {row' : Notification}
    (h : (step scope s i).db.notifications.get? k = some row') :
    (∃ row, s.db.notifications.get? k = some row ∧ RowStep s i row row') ∨
      s.db.notifications.get? k = none ∧ row'.delivered = none ∧ row'.due = 0 := by
  have hdb := (stepped scope s i).1
  generalize (step scope s i).db = db at h hdb
  cases hdb with
  | same hrows => exact Or.inl ⟨row', hrows ▸ h, RowStep.same row'⟩
  | migrated c =>
      simp only [migrate, Table.get?_map] at h
      obtain ⟨row, hrow, rfl⟩ := Option.map_eq_some_iff.1 h
      refine Or.inl ⟨row, hrow, ?_⟩
      split
      next => exact ⟨⟨rfl, rfl, le_rfl, fun t ht => ht⟩, Or.inl rfl, Or.inl rfl⟩
      next => exact RowStep.same row
  | enqueued c now text identifier =>
      rcases get?_enqueue h with hk | ⟨hk, rfl⟩
      · exact Or.inl ⟨row', hk, RowStep.same row'⟩
      · exact Or.inr ⟨hk, rfl, rfl⟩
  | acknowledged now identifier hmarks =>
      obtain ⟨row, hrow, hkept, hdue, hmarked⟩ := get?_acknowledge h
      refine Or.inl ⟨row, hrow, hkept, ?_, Or.inl hdue⟩
      rcases hmarked with hd | rfl
      · exact Or.inl hd
      · have hid : row.id = identifier := Table.key_of_get? (t := s.db.notifications) hrow
        exact Or.inr (hid.symm ▸ hmarks)
  | rescheduled c later now r error hi hc =>
      obtain ⟨row, hrow, hkept, hdelivered, hdue⟩ := get?_reschedule h
      refine Or.inl ⟨row, hrow, hkept, Or.inl hdelivered, ?_⟩
      rcases hdue with hd | hd
      · exact Or.inl hd
      · exact Or.inr ⟨c, later, now, r, error, hi, hc, hd⟩

/-- A modified row is still there. -/
theorem isSome_modify {t : Table Notification.id} {k identifier : PyStr}
    {f : Notification → Notification} (hf : ∀ row, (f row).id = row.id)
    (h : (t.get? k).isSome = true) : ((t.modify identifier f hf).get? k).isSome = true := by
  rw [Table.get?_modify]
  split
  next => rwa [Option.isSome_map]
  next => exact h

omit [DecidableEq κ] in
/-- No transaction removes a row. -/
theorem DbStep.isSome {db : OutboxDb} {k : PyStr} (h : DbStep scope s i db)
    (hk : (s.db.notifications.get? k).isSome = true) : (db.notifications.get? k).isSome = true := by
  cases h with
  | same hrows => rwa [hrows]
  | migrated c =>
      simp only [migrate, Table.get?_map, Option.isSome_map]
      exact hk
  | enqueued c now text identifier =>
      simp only [NotificationOutbox.enqueue]
      split
      next => exact hk
      next =>
        rw [Table.get?_put]
        split
        next => rfl
        next => exact hk
  | acknowledged now identifier hmarks =>
      simp only [NotificationOutbox.acknowledge]
      exact isSome_modify _ hk
  | rescheduled c later now r error hi hc =>
      simp only [reschedule]
      exact isSome_modify _ hk

/-- A row stays. -/
theorem step_kept {k : PyStr} {row : Notification} (h : s.db.notifications.get? k = some row) :
    ∃ row', (step scope s i).db.notifications.get? k = some row' ∧ row.Kept row' := by
  have hsome := (stepped scope s i).1.isSome (k := k) (by rw [h]; rfl)
  obtain ⟨row', hrow'⟩ := Option.isSome_iff_exists.1 hsome
  rcases step_row hrow' with ⟨row₀, hrow₀, hstep⟩ | ⟨hnone, _⟩
  · rw [h] at hrow₀
    cases hrow₀
    exact ⟨row', hrow', hstep.kept⟩
  · rw [h] at hnone
    cases hnone

/-- A pump sends what it has just selected, or what it was sending. -/
theorem step_sending {k : κ} {now : ℚ} {row : Notification}
    (h : (step scope s i).pump k = Pump.sending now row) :
    s.pump k = Pump.sending now row ∨
      i = OutboxInput.pump k now ∧ s.pump k = Pump.idle ∧
        (select (scope k) (s.human k) now s.db).1 = some row := by
  have hpump := (stepped scope s i).2 k
  rw [h] at hpump
  generalize hp : Pump.sending now row = p at hpump
  cases hpump with
  | same => exact Or.inl rfl
  | selected now' row' hi hidle hselect =>
      cases hp
      exact Or.inr ⟨hi, hidle, hselect⟩
  | _ => cases hp

/-- A pump acknowledges what its sender has just accepted, or what it was acknowledging. -/
theorem step_acknowledging {k : κ} {now : ℚ} {row : Notification}
    (h : (step scope s i).pump k = Pump.acknowledging now row) :
    s.pump k = Pump.acknowledging now row ∨
      i = OutboxInput.sent k (Except.ok true) ∧ s.pump k = Pump.sending now row := by
  have hpump := (stepped scope s i).2 k
  rw [h] at hpump
  generalize hp : Pump.acknowledging now row = p at hpump
  cases hpump with
  | same => exact Or.inl rfl
  | accepted now' row' hi hsending =>
      cases hp
      exact Or.inr ⟨hi, hsending⟩
  | _ => cases hp

/-- A pump puts off what it was sending or acknowledging, or what it was putting off. -/
theorem step_rescheduling {k : κ} {now : ℚ} {row : Notification} {error : PyStr}
    (h : (step scope s i).pump k = Pump.rescheduling now row error) :
    s.pump k = Pump.rescheduling now row error ∨ s.pump k = Pump.sending now row ∨
      s.pump k = Pump.acknowledging now row := by
  have hpump := (stepped scope s i).2 k
  rw [h] at hpump
  generalize hp : Pump.rescheduling now row error = p at hpump
  cases hpump with
  | same => exact Or.inl rfl
  | refused now' row' error' hold =>
      cases hp
      exact Or.inr hold
  | _ => cases hp

/-! ### At-least-once delivery -/

/-- Somebody acknowledges the notification, or a sender that it was given to accepts it. -/
def Accepts (s : Outbox κ) (i : OutboxInput κ) (identifier : PyStr) : Prop :=
  (∃ now, i = OutboxInput.acknowledge now identifier) ∨
    ∃ k now row, i = OutboxInput.sent k (Except.ok true) ∧ s.pump k = Pump.sending now row ∧
      row.id = identifier

/-- In the run `l` from `s₀`, the notification has been acknowledged or accepted. -/
def Accepted (scope : κ → PyStr) (s₀ : Outbox κ) (l : List (OutboxInput κ)) (identifier : PyStr) :
    Prop :=
  ∃ l₁ i l₂, l = l₁ ++ i :: l₂ ∧ Accepts ((machine scope).exec s₀ l₁) i identifier

theorem Accepted.append {l : List (OutboxInput κ)} {identifier : PyStr}
    (h : Accepted scope s₀ l identifier) (i : OutboxInput κ) :
    Accepted scope s₀ (l ++ [i]) identifier := by
  obtain ⟨l₁, j, l₂, rfl, hj⟩ := h
  exact ⟨l₁, j, l₂ ++ [i], by simp, hj⟩

/-- The delivery of notifications, over all runs from `s₀`. -/
structure AtLeastOnce (scope : κ → PyStr) (s₀ : Outbox κ) : Prop where
  /-- What is enqueued under an identifier that is not in use is a row with that text from then
  on. -/
  stored : ∀ l l' c now text identifier fresh,
    ((machine scope).exec s₀ l).db.notifications.get? (identifierOf identifier fresh) = none →
    ∃ row, ((machine scope).exec s₀
        (l ++ OutboxInput.enqueue c now text identifier fresh :: l')).db.notifications.get?
          (identifierOf identifier fresh) = some row ∧ row.text = text
  /-- A row is never removed, its text never changes, its attempts never decrease, and the mark that
  it is delivered is never cleared. -/
  kept : ∀ l l' k row, ((machine scope).exec s₀ l).db.notifications.get? k = some row →
    ∃ row', ((machine scope).exec s₀ (l ++ l')).db.notifications.get? k = some row' ∧ row.Kept row'
  /-- A row is marked as delivered only by an acknowledgement or by a sender that accepted it. -/
  marked : ∀ l k row, ((machine scope).exec s₀ l).db.notifications.get? k = some row →
    row.delivered ≠ none → Accepted scope s₀ l k ∨
      ∃ row₀, s₀.db.notifications.get? k = some row₀ ∧ row₀.delivered = row.delivered
  /-- What a pump sends it has selected while it was not delivered. -/
  unsent : ∀ l i k now row, ((machine scope).exec s₀ (l ++ [i])).pump k = Pump.sending now row →
    ((machine scope).exec s₀ l).pump k = Pump.sending now row ∨
      i = OutboxInput.pump k now ∧
        ((machine scope).exec s₀ l).db.notifications.get? row.id = some row ∧
          Notification.Eligible now row
  /-- Five minutes after the last pump, every row that is not delivered is eligible, however its
  sends have ended. -/
  eligible : ∀ l last, 0 ≤ last + 300 → (∀ k now, OutboxInput.pump k now ∈ l → now ≤ last) →
    (∀ k row, s₀.db.notifications.get? k = some row → row.due ≤ last + 300) →
    ∀ k row, ((machine scope).exec s₀ l).db.notifications.get? k = some row →
      row.delivered = none → ∀ t, last + 300 ≤ t → Notification.Eligible t row

theorem exec_concat (l : List (OutboxInput κ)) (i : OutboxInput κ) :
    (machine scope).exec s₀ (l ++ [i]) = step scope ((machine scope).exec s₀ l) i := by
  rw [Machine.exec_append]
  rfl

theorem delay_le (attempts : ℕ) : delay attempts ≤ 300 := min_le_left _ _

/-- Rows are kept along every run. -/
theorem exec_kept {k : PyStr} {row : Notification} (h : s.db.notifications.get? k = some row)
    (l : List (OutboxInput κ)) :
    ∃ row', ((machine scope).exec s l).db.notifications.get? k = some row' ∧ row.Kept row' := by
  induction l generalizing s row with
  | nil => exact ⟨row, h, Notification.Kept.refl row⟩
  | cons i l ih =>
      obtain ⟨row₁, h₁, hk₁⟩ := step_kept h
      obtain ⟨row₂, h₂, hk₂⟩ := ih h₁
      exact ⟨row₂, h₂, hk₁.trans hk₂⟩

/-- `enqueue` under an identifier that is not in use. -/
theorem get?_enqueued (scope : κ → PyStr) (c : κ) (now : ℚ) (text : PyStr)
    (identifier : Option PyStr) (fresh : PyStr)
    (hnone : s.db.notifications.get? (identifierOf identifier fresh) = none) :
    (step scope s (OutboxInput.enqueue c now text identifier fresh)).db.notifications.get?
        (identifierOf identifier fresh) =
      some { id := identifierOf identifier fresh, text, scope := scope c } := by
  simp only [step, NotificationOutbox.enqueue]
  split
  next row hrow =>
    have hrow' : s.db.notifications.get? (identifierOf identifier fresh) = some row := hrow
    rw [hnone] at hrow'
    cases hrow'
  next => exact Table.get?_put_self _ _

/-- What is delivered, and what a pump is about to acknowledge, has been accepted. -/
theorem exec_marked (hs₀ : (machine scope).init s₀) (l : List (OutboxInput κ)) :
    (∀ k row, ((machine scope).exec s₀ l).db.notifications.get? k = some row →
      row.delivered ≠ none → Accepted scope s₀ l k ∨
        ∃ row₀, s₀.db.notifications.get? k = some row₀ ∧ row₀.delivered = row.delivered) ∧
    ∀ k now row, ((machine scope).exec s₀ l).pump k = Pump.acknowledging now row →
      Accepted scope s₀ l row.id := by
  induction l using List.reverseRecOn with
  | nil =>
      refine ⟨fun k row hk _ => Or.inr ⟨row, hk, rfl⟩, fun k now row hk => ?_⟩
      have hidle : s₀.pump k = Pump.idle := hs₀ k
      rw [Machine.exec_nil, hidle] at hk
      cases hk
  | append_singleton l i ih =>
      obtain ⟨ihrow, ihpump⟩ := ih
      rw [exec_concat]
      constructor
      · intro k row' hk hdelivered
        rcases step_row hk with ⟨row, hrow, hstep⟩ | ⟨_, hnew, _⟩
        · have hid : row.id = k :=
            Table.key_of_get? (t := ((machine scope).exec s₀ l).db.notifications) hrow
          rcases hstep.marked with hd | ⟨now, rfl⟩ | ⟨c, later, now, r, rfl, hc, hr⟩
          · rcases ihrow k row hrow (hd ▸ hdelivered) with hacc | ⟨row₀, h₀, hd₀⟩
            · exact Or.inl (hacc.append i)
            · exact Or.inr ⟨row₀, h₀, hd₀.trans hd.symm⟩
          · exact Or.inl ⟨l, _, [], rfl, Or.inl ⟨now, by rw [hid]⟩⟩
          · have hacc := ihpump c now r hc
            rw [hr, hid] at hacc
            exact Or.inl (hacc.append _)
        · exact absurd hnew hdelivered
      · intro k now row hk
        rcases step_acknowledging hk with hold | ⟨rfl, hsending⟩
        · exact (ihpump k now row hold).append i
        · exact ⟨l, _, [], rfl, Or.inr ⟨k, now, row, rfl, hsending, rfl⟩⟩

/-- The times of the pumps that are running are those of the inputs. -/
theorem exec_pump_le (hs₀ : (machine scope).init s₀) {l : List (OutboxInput κ)} {last : ℚ}
    (hl : ∀ k now, OutboxInput.pump k now ∈ l → now ≤ last) (k : κ) :
    (∀ now row, ((machine scope).exec s₀ l).pump k = Pump.sending now row → now ≤ last) ∧
    (∀ now row, ((machine scope).exec s₀ l).pump k = Pump.acknowledging now row → now ≤ last) ∧
    ∀ now row error, ((machine scope).exec s₀ l).pump k = Pump.rescheduling now row error →
      now ≤ last := by
  induction l using List.reverseRecOn with
  | nil =>
      have hidle : s₀.pump k = Pump.idle := hs₀ k
      rw [Machine.exec_nil, hidle]
      exact ⟨nofun, nofun, nofun⟩
  | append_singleton l i ih =>
      obtain ⟨ihs, iha, ihr⟩ := ih fun k now hk => hl k now (List.mem_append_left _ hk)
      rw [exec_concat]
      refine ⟨fun now row hk => ?_, fun now row hk => ?_, fun now row error hk => ?_⟩
      · rcases step_sending hk with hold | ⟨rfl, _, _⟩
        · exact ihs now row hold
        · exact hl k now (by simp)
      · rcases step_acknowledging hk with hold | ⟨_, hsending⟩
        · exact iha now row hold
        · exact ihs now row hsending
      · rcases step_rescheduling hk with hold | hsending | hacknowledging
        · exact ihr now row error hold
        · exact ihs now row hsending
        · exact iha now row hacknowledging

/-- **At-least-once delivery.** -/
theorem atLeastOnce (hs₀ : (machine scope).init s₀) : AtLeastOnce scope s₀ where
  stored := by
    intro l l' c now text identifier fresh hnone
    obtain ⟨row, hrow, hkept⟩ :=
      exec_kept (get?_enqueued scope c now text identifier fresh hnone) l'
    refine ⟨row, ?_, hkept.text⟩
    rw [Machine.exec_append]
    exact hrow
  kept := by
    intro l l' k row hk
    rw [Machine.exec_append]
    exact exec_kept hk l'
  marked := fun l => (exec_marked hs₀ l).1
  unsent := by
    intro l i k now row hk
    rw [exec_concat] at hk
    rcases step_sending hk with hold | ⟨hi, _, hselect⟩
    · exact Or.inl hold
    · obtain ⟨hget, heligible, _⟩ := select_spec hselect
      exact Or.inr ⟨hi, hget, heligible⟩
  eligible := by
    intro l last hlast hl hold k row hk hdelivered t ht
    have hdue : ∀ k row, ((machine scope).exec s₀ l).db.notifications.get? k = some row →
        row.due ≤ last + 300 := by
      clear hk hdelivered
      induction l using List.reverseRecOn with
      | nil => exact hold
      | append_singleton l i ih =>
          have hl' : ∀ k now, OutboxInput.pump k now ∈ l → now ≤ last :=
            fun k now hk => hl k now (List.mem_append_left _ hk)
          intro k row' hk
          rw [exec_concat] at hk
          rcases step_row hk with ⟨row, hrow, hstep⟩ | ⟨_, _, hnew⟩
          · rcases hstep.due with hd | ⟨c, later, now, r, error, _, hc, hd⟩
            · rw [hd]
              exact ih hl' k row hrow
            · have hnow := (exec_pump_le hs₀ hl' c).2.2 now r error hc
              rw [hd]
              exact add_le_add hnow (delay_le r.attempts)
          · rw [hnew]
            exact hlast
    exact ⟨hdelivered, (hdue k row hk).trans ht⟩

/-- A file without rows. -/
def empty (κ : Type) : Outbox κ where
  db := ⟨Table.empty, PyDict.empty⟩
  human := fun _ => false
  pump := fun _ => Pump.idle

/-- Two COREs, `a` and `b`. -/
def twoScopes (k : Bool) : PyStr := if k then "a" else "b"

/-- `b` has a notification, is elected and sends it. -/
def oneSend : List (OutboxInput Bool) :=
  [OutboxInput.enqueue false 0 "done" (some "n1") [], OutboxInput.pump false 0]

/-- The send of `oneSend` is accepted, and that is written down. -/
def oneDelivery : List (OutboxInput Bool) :=
  oneSend ++ [OutboxInput.sent false (Except.ok true), OutboxInput.settle false 1 none]

/-- A notification that is enqueued, sent and delivered: its text is the one that was enqueued, and
its mark comes from the sender that accepted it. -/
theorem atLeastOnce_oneDelivery :
    ∃ row, ((machine twoScopes).exec (empty Bool) oneDelivery).db.notifications.get? "n1" =
        some row ∧ row.text = "done" ∧ row.delivered = some 1 ∧
      Accepted twoScopes (empty Bool) oneDelivery "n1" := by
  have hinit : (machine twoScopes).init (empty Bool) := fun _ => rfl
  obtain ⟨row, hrow, htext⟩ :=
    (atLeastOnce hinit).stored [] (oneDelivery.tail) false 0 "done" (some "n1") [] rfl
  have hdelivered : (((machine twoScopes).exec (empty Bool) oneDelivery).db.notifications.get?
      "n1").map Notification.delivered = some (some 1) := by decide +kernel
  have hrow' : ((machine twoScopes).exec (empty Bool) oneDelivery).db.notifications.get? "n1" =
      some row := hrow
  rw [hrow', Option.map_some, Option.some.injEq] at hdelivered
  refine ⟨row, hrow', htext, hdelivered, ?_⟩
  rcases (atLeastOnce hinit).marked oneDelivery "n1" row hrow' (by rw [hdelivered]; nofun) with
    hacc | ⟨row₀, h₀, -⟩
  · exact hacc
  · cases h₀

/-! ### Exclusive sends -/

/-- No notification is being sent by two COREs. -/
def Exclusive (s : Outbox κ) : Prop :=
  ∀ k k' now now' row row', k ≠ k' → s.pump k = Pump.sending now row →
    s.pump k' = Pump.sending now' row' → row.id ≠ row'.id

/-- The condition on a step: when a CORE pumps while another one sends the row that is next, a live
CORE with another scope precedes it in the election. -/
def Leased (scope : κ → PyStr) (s : Outbox κ) : OutboxInput κ → Prop
  | OutboxInput.pump k now => s.pump k = Pump.idle → ∀ k' now' row row', k' ≠ k →
      s.pump k' = Pump.sending now' row' → nextRow now s.db = some row → row.id = row'.id →
      Outranked now (s.human k) (scope k) s.db
  | _ => True

/-- A CORE that is elected sends the row that is next. -/
theorem step_pump {k : κ} {now : ℚ} {row : Notification} (hidle : s.pump k = Pump.idle)
    (hnot : ¬ Outranked now (s.human k) (scope k) s.db) (hnext : nextRow now s.db = some row) :
    (step scope s (OutboxInput.pump k now)).pump =
      Function.update s.pump k (Pump.sending now row) := by
  have hselect : select (scope k) (s.human k) now s.db =
      (some row, heartbeat (scope k) (s.human k) now s.db) := by
    rw [select, if_pos (winner_eq_iff.2 hnot)]
    exact Prod.ext hnext rfl
  simp only [step, hidle, hselect]

/-- A leased step keeps sends exclusive. -/
theorem step_exclusive (hs : Exclusive s) (hi : Leased scope s i) : Exclusive (step scope s i) := by
  -- At most one of the two has just been selected, and that one has won the election.
  have hnew : ∀ k k' now now' row row', k ≠ k' → i = OutboxInput.pump k now →
      s.pump k = Pump.idle → (select (scope k) (s.human k) now s.db).1 = some row →
      s.pump k' = Pump.sending now' row' → row.id ≠ row'.id := by
    rintro k k' now now' row row' hne rfl hidle hselect hold hid
    obtain ⟨_, _, hwinner, hnext⟩ := select_spec hselect
    exact winner_eq_iff.1 hwinner (hi hidle k' now' row row' hne.symm hold hnext hid)
  intro k k' now now' row row' hne hk hk'
  rcases step_sending hk with hold | ⟨hi₁, hidle, hselect⟩
  · rcases step_sending hk' with hold' | ⟨hi₂, hidle', hselect'⟩
    · exact hs k k' now now' row row' hne hold hold'
    · exact (hnew k' k now' now row' row hne.symm hi₂ hidle' hselect' hold).symm
  · rcases step_sending hk' with hold' | ⟨hi₂, hidle', hselect'⟩
    · exact hnew k k' now now' row row' hne hi₁ hidle hselect hold'
    · rw [hi₁] at hi₂
      cases hi₂
      exact absurd rfl hne

/-- Any other step breaks it. -/
theorem leased_of_exclusive (h : Exclusive (step scope s i)) : Leased scope s i := by
  cases i with
  | pump k now =>
      intro hidle k' now' row row' hne hsending hnext hid
      by_contra hnot
      have hpump := step_pump hidle hnot hnext
      refine h k k' now now' row row' hne.symm ?_ ?_ hid
      · rw [hpump, Function.update_self]
      · rw [hpump, Function.update_of_ne hne]
        exact hsending
  | _ => trivial

/-- **In the runs in which every pump is leased, sends are exclusive, and the first pump that is
not leased breaks that.** -/
theorem exclusive_iff (hs : (machine scope).Reach (Leased scope) s) :
    Exclusive s ∧ ∀ i, Exclusive (step scope s i) ↔ Leased scope s i := by
  have hexclusive : Exclusive s := by
    refine Machine.Reach.invariant hs ?_ fun s i _ hs hi => step_exclusive hs hi
    intro s₀ hs₀ k k' now now' row row' _ hk
    have hidle : s₀.pump k = Pump.idle := hs₀ k
    rw [hidle] at hk
    cases hk
  exact ⟨hexclusive, fun i => ⟨leased_of_exclusive, step_exclusive hexclusive⟩⟩

/-- While `b` is alone, its send is exclusive. -/
theorem exclusive_iff_oneSend :
    Exclusive ((machine twoScopes).exec (empty Bool) oneSend) ∧
      ∀ i, Exclusive (step twoScopes ((machine twoScopes).exec (empty Bool) oneSend) i) ↔
        Leased twoScopes ((machine twoScopes).exec (empty Bool) oneSend) i := by
  have hinit : (machine twoScopes).init (empty Bool) := fun _ => rfl
  exact exclusive_iff ⟨_, hinit, Machine.leads_of_guarded ⟨trivial, nofun, trivial⟩⟩

/-- **Two COREs can send the same notification**: while `b` sends, `a` starts to pump, is elected
because its scope is the smaller one, and sends the row, which is still due. -/
theorem not_exclusive :
    ¬ ∀ s : Outbox Bool, (machine twoScopes).Reachable s → Exclusive s := by
  intro h
  have hinit : (machine twoScopes).init (empty Bool) := fun _ => rfl
  have hreach := Machine.Reachable.exec (Machine.Reach.of_init hinit)
    (oneSend ++ [OutboxInput.pump true (1 / 2)])
  let row : Notification := { id := "n1", text := "done", scope := "b" }
  have hb : ((machine twoScopes).exec (empty Bool)
      (oneSend ++ [OutboxInput.pump true (1 / 2)])).pump false = Pump.sending 0 row := by
    decide +kernel
  have ha : ((machine twoScopes).exec (empty Bool)
      (oneSend ++ [OutboxInput.pump true (1 / 2)])).pump true = Pump.sending (1 / 2) row := by
    decide +kernel
  exact h _ hreach true false (1 / 2) 0 row row nofun ha hb rfl

end Outbox
