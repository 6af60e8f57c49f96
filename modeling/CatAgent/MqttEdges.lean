/-
**The edges of a field.**

The values of a field arrive in payloads, and a payload may lack the field or carry an invalid
value.  The edge law compares every valid value with the last valid one before it.  The monitor
compares it with the last payload, whatever that payload says about the field.  A sensor that
reports its fields separately therefore loses edges, and may report its active state twice.  A
payload on which `json.loads` raises anything but `JSONDecodeError` ends the thread of the monitor,
and every edge after it is lost.

Main definitions:

* `Observation`, `Reading` — what a payload says about a field, and what a line says;
* `Observation.law` — the edges that a sequence of readings has;
* `Observation.heard` — the edges that are found by looking at the last observation only, until a
  line ends the thread;
* `Observation.Steady` — no edge is lost or repeated in this way;
* `MqttEventMonitor.emissions` — what the monitor emits for a binding, line by line.

Main results:

* `Observation.heard_eq_law_iff` — when both find the same edges;
* `MqttEventMonitor.emissions_eq_law_iff` — **the monitor follows the edge law exactly on the steady
  histories**;
* `MqttEventMonitor.not_emissions_eq_law` — a payload without the field hides an edge.
-/

import CatAgent.MqttEventMonitor

set_option relaxedAutoImplicit false
set_option autoImplicit false

/-! ### Edges -/

/-- What a payload says about a field. -/
inductive Observation (α : Type*) where
  | missing
  | invalid
  | value (a : α)
deriving DecidableEq

/-- What a line says to somebody who watches a field: nothing about its topic, or what its payload
says about the field; or it ends the thread that reads the lines. -/
inductive Reading (α : Type*) where
  | silent
  | fatal
  | said (o : Observation α)
deriving DecidableEq

namespace Observation

variable {α : Type*}

/-- The valid value, if there is one. -/
def value? : Observation α → Option α
  | value a => some a
  | _ => none

/-- The last valid value, after one more observation. -/
def next (last : Option α) : Observation α → Option α
  | value a => some a
  | _ => last

theorem value?_eq_next {last : Option α} (o : Observation α) (d : α) (h : o.value? = some d) :
    o.next last = some d := by
  cases o with
  | value a => exact h
  | _ => cases h

variable [DecidableEq α] (active : Option α)

/-- The first valid value is reported if it is the active one, a later one if it is a change. -/
def edge (last : Option α) (c : α) : Option α :=
  match last with
  | none => if active = some c then some c else none
  | some d => if d = c then none else some c

/-- **The edge law**: every valid value is compared with the last valid value before it. -/
def law : Option α → List (Reading α) → List (Option α)
  | _, [] => []
  | last, Reading.silent :: l => none :: law last l
  | last, Reading.fatal :: l => none :: law last l
  | last, Reading.said o :: l => o.value?.bind (edge active last) :: law (o.next last) l

/-- What is reported for the value `c` right after the observation `previous`. -/
def step (previous : Observation α) (c : α) : Option α :=
  match previous with
  | missing => if active = some c then some c else none
  | invalid => none
  | value d => if d = c then none else some c

/-- Every valid value is compared with the last observation, and nothing is heard from a fatal line
on. -/
def heard : Observation α → List (Reading α) → List (Option α)
  | _, [] => []
  | previous, Reading.silent :: l => none :: heard previous l
  | _, Reading.fatal :: l => none :: l.map fun _ => none
  | previous, Reading.said o :: l => o.value?.bind (step active previous) :: heard o l

/-- The value `c` after the observation `previous`, where `last` is the last valid value: an
observation that lacks the field makes no difference if there was no valid value, or if `c` is the
active value and a change or neither; an invalid one makes no difference if `c` is no edge. -/
def Agrees (last : Option α) (previous : Observation α) (c : α) : Prop :=
  match previous, last with
  | missing, none => True
  | missing, some d => active = some c ↔ d ≠ c
  | invalid, none => active ≠ some c
  | invalid, some d => d = c
  | value _, _ => True

/-- The field keeps its last valid value; if it has none, its first one is not the active one. -/
def Quiet : Option α → List (Reading α) → Prop
  | _, [] => True
  | last, Reading.silent :: l => Quiet last l
  | last, Reading.fatal :: l => Quiet last l
  | last, Reading.said o :: l =>
      (∀ c, o.value? = some c → match last with
        | none => active ≠ some c
        | some d => d = c) ∧ Quiet (o.next last) l

/-- Every valid value that follows an observation without one makes no difference, and the field is
quiet after a fatal line. -/
def Steady : Option α → Observation α → List (Reading α) → Prop
  | _, _, [] => True
  | last, previous, Reading.silent :: l => Steady last previous l
  | last, _, Reading.fatal :: l => Quiet active last l
  | last, previous, Reading.said o :: l =>
      (∀ c, o.value? = some c → Agrees active last previous c) ∧ Steady (o.next last) o l

variable {active}

theorem edge_eq_none_iff {last : Option α} {c : α} :
    edge active last c = none ↔ match last with
      | none => active ≠ some c
      | some d => d = c := by
  cases last with
  | none => simp [edge]
  | some d => simp [edge]

/-- A quiet field has no edge. -/
theorem law_eq_none_iff {l : List (Reading α)} {last : Option α} :
    law active last l = l.map (fun _ => none) ↔ Quiet active last l := by
  induction l generalizing last with
  | nil => exact iff_of_true rfl trivial
  | cons o l ih =>
      cases o with
      | silent | fatal =>
          simp only [law, Quiet, List.map_cons, List.cons.injEq, true_and]
          exact ih
      | said o =>
          simp only [law, Quiet, List.map_cons, List.cons.injEq]
          refine and_congr ?_ ih
          cases hv : o.value? with
          | none => simp
          | some c => simpa using edge_eq_none_iff

/-- A single value is treated alike exactly when it agrees. -/
theorem step_eq_edge_iff {last : Option α} {previous : Observation α} {c : α}
    (h : ∀ d, previous.value? = some d → last = some d) :
    step active previous c = edge active last c ↔ Agrees active last previous c := by
  cases previous with
  | value d =>
      rw [h d rfl]
      simp [step, edge, Agrees]
  | missing =>
      cases last with
      | none => simp [step, edge, Agrees]
      | some d =>
          simp only [step, edge, Agrees]
          split_ifs with ha hd hd
          · simp [ha, hd]
          · simp [ha, hd]
          · simp [ha, hd]
          · simp [ha, hd]
  | invalid =>
      cases last with
      | none =>
          simp only [step, edge, Agrees]
          split_ifs with ha
          · simp [ha]
          · simp [ha]
      | some d =>
          simp only [step, edge, Agrees]
          split_ifs with hd
          · simp [hd]
          · simp [hd]

/-- **Looking at the last observation only finds the same edges exactly on the steady
sequences.** -/
theorem heard_eq_law_iff {l : List (Reading α)} {last : Option α}
    {previous : Observation α} (h : ∀ d, previous.value? = some d → last = some d) :
    heard active previous l = law active last l ↔ Steady active last previous l := by
  induction l generalizing last previous with
  | nil => exact iff_of_true rfl trivial
  | cons o l ih =>
      cases o with
      | silent =>
          simp only [heard, law, Steady, List.cons.injEq, true_and]
          exact ih h
      | fatal =>
          simp only [heard, law, Steady, List.cons.injEq, true_and]
          exact eq_comm.trans law_eq_none_iff
      | said o =>
          simp only [heard, law, Steady, List.cons.injEq]
          refine and_congr ?_ (ih (value?_eq_next o))
          cases hv : o.value? with
          | none => simp
          | some c => simpa using step_eq_edge_iff h

end Observation

/-! ### The monitor -/

namespace MqttEventMonitor

variable {host : Host} {loads : PyStr → Except LoadsError Json} {b : EventBinding}

/-- What a payload says about the field of a binding. -/
def observation (host : Host) (b : EventBinding) (payload : List (PyStr × Json)) :
    Observation PyStr :=
  match Json.find b.field payload with
  | none => Observation.missing
  | some value =>
      match canonicalValue host value b.valueType with
      | none => Observation.invalid
      | some c => Observation.value c

/-- What a line says about the field of a binding, if it is a payload on its topic. -/
def observe (host : Host) (loads : PyStr → Except LoadsError Json) (b : EventBinding)
    (raw : PyStr) : Reading PyStr :=
  match parseLine loads raw with
  | Except.error _ => Reading.fatal
  | Except.ok none => Reading.silent
  | Except.ok (some (topic, payload)) =>
      if topic = b.topic then Reading.said (observation host b payload) else Reading.silent

/-- What the monitor emits for a binding, while `_run` reads lines under changing tables of
bindings.  An error that `_consume_line` does not catch ends `_run` and its thread. -/
def emissions (host : Host) (loads : PyStr → Except LoadsError Json) (b : EventBinding) :
    MqttEventMonitor → List (BindingTable × PyStr) → List (Option PyStr)
  | _, [] => []
  | monitor, (bindings, raw) :: l =>
      match monitor.consumeLine host loads bindings raw with
      | Except.error _ => none :: l.map fun _ => none
      | Except.ok (monitor', events) =>
          ((events.find? fun e => decide (e.1.binding = b)).map Prod.snd) ::
            emissions host loads b monitor' l

/-- What the monitor remembers of the field of a binding. -/
def recalled (host : Host) (monitor : MqttEventMonitor) (b : EventBinding) : Observation PyStr :=
  match monitor.lastPayloads.get? b.topic with
  | none => Observation.missing
  | some payload => observation host b payload

/-- A binding that is registered is emitted once at most. -/
theorem find?_events {bindings : BindingTable} {o : BindingObject} {topic : PyStr}
    {payload : List (PyStr × Json)} {monitor : MqttEventMonitor}
    (ho : bindings.get? b.name = some o) (hb : o.binding = b) :
    ((((EventStore.snapshot bindings).filterMap fun o' =>
      (monitor.emitted host topic payload o'.binding).map fun current => (o', current)).find?
        fun e => decide (e.1.binding = b)).map Prod.snd) =
      monitor.emitted host topic payload b := by
  subst hb
  have honly : ∀ o' ∈ EventStore.snapshot bindings, o'.binding = o.binding → o' = o := by
    intro o' ho' heq
    have hget := Table.mem_values_iff.1 (Table.mem_sorted_iff.1 ho')
    rw [heq, ho] at hget
    exact (Option.some.inj hget).symm
  have hmem : o ∈ EventStore.snapshot bindings :=
    Table.mem_sorted_iff.2 (Table.mem_values_of_get? ho)
  cases hfind : ((EventStore.snapshot bindings).filterMap fun o' =>
      (monitor.emitted host topic payload o'.binding).map fun current => (o', current)).find?
        fun e => decide (e.1.binding = o.binding) with
  | some e =>
      have he := List.find?_some hfind
      rw [decide_eq_true_eq] at he
      obtain ⟨o', ho', hemit⟩ := List.mem_filterMap.1 (List.mem_of_find?_eq_some hfind)
      obtain ⟨current, hcurrent, rfl⟩ := Option.map_eq_some_iff.1 hemit
      obtain rfl := honly o' ho' he
      exact hcurrent.symm
  | none =>
      cases hemit : monitor.emitted host topic payload o.binding with
      | none => rfl
      | some current =>
          have hin : (o, current) ∈ (EventStore.snapshot bindings).filterMap fun o' =>
              (monitor.emitted host topic payload o'.binding).map fun current => (o', current) :=
            List.mem_filterMap.2 ⟨o, hmem, by rw [hemit]; rfl⟩
          exact absurd (decide_eq_true rfl) (List.find?_eq_none.1 hfind _ hin)

/-- A payload on the topic of a binding is compared with the last one. -/
theorem emitted_eq_step {topic : PyStr} {payload : List (PyStr × Json)}
    {monitor : MqttEventMonitor} (hsource : b.source = PyStr.ofString "mqtt")
    (htopic : topic = b.topic) :
    monitor.emitted host topic payload b =
      (observation host b payload).value?.bind
        (Observation.step (monitor.activeStates b.topic b.field) (monitor.recalled host b)) := by
  subst htopic
  have hgo : ¬ (b.source ≠ PyStr.ofString "mqtt" ∨ b.topic ≠ b.topic) := by simp [hsource]
  rw [emitted, if_neg hgo, observation, recalled]
  cases Json.find b.field payload with
  | none => rfl
  | some value =>
      cases hcurrent : canonicalValue host value b.valueType with
      | none => simp [hcurrent, Observation.value?]
      | some c =>
          cases monitor.lastPayloads.get? b.topic with
          | none => simp [hcurrent, Observation.value?, Observation.step]
          | some last =>
              cases hprevious : Json.find b.field last with
              | none => simp [hcurrent, hprevious, Observation.value?, Observation.step, observation]
              | some value' =>
                  cases hcanonical : canonicalValue host value' b.valueType with
                  | none =>
                      simp [hcurrent, hprevious, hcanonical, Observation.value?, Observation.step,
                        observation]
                  | some d =>
                      simp [hcurrent, hprevious, hcanonical, Observation.value?, Observation.step,
                        observation]

/-- **The monitor compares every value with the last observation.** -/
theorem emissions_eq_heard (hsource : b.source = PyStr.ofString "mqtt")
    {l : List (BindingTable × PyStr)} {monitor : MqttEventMonitor}
    (hl : ∀ e ∈ l, ∃ o, e.1.get? b.name = some o ∧ o.binding = b) :
    emissions host loads b monitor l =
      Observation.heard (monitor.activeStates b.topic b.field) (monitor.recalled host b)
        (l.map fun e => observe host loads b e.2) := by
  induction l generalizing monitor with
  | nil => rfl
  | cons e l ih =>
      obtain ⟨bindings, raw⟩ := e
      obtain ⟨o, ho, hb⟩ := hl _ List.mem_cons_self
      have ih' : ∀ monitor : MqttEventMonitor, emissions host loads b monitor l =
          Observation.heard (monitor.activeStates b.topic b.field) (monitor.recalled host b)
            (l.map fun e => observe host loads b e.2) :=
        fun _ => ih fun e he => hl e (List.mem_cons_of_mem _ he)
      simp only [emissions, List.map_cons]
      rcases hline : parseLine loads raw with e | _ | ⟨topic, payload⟩
      · have hdead : monitor.consumeLine host loads bindings raw = Except.error e := by
          rw [consumeLine, hline]
          rfl
        simp only [observe, hline, hdead, Observation.heard, List.map_map]
        rfl
      · have hsame : monitor.consumeLine host loads bindings raw = Except.ok (monitor, []) := by
          rw [consumeLine, hline]
          rfl
        simp only [observe, hline, hsame, ih', Observation.heard, List.find?_nil, Option.map_none]
      · have hread : monitor.consumeLine host loads bindings raw =
            Except.ok ({ monitor with lastPayloads := monitor.lastPayloads.set topic payload },
              (EventStore.snapshot bindings).filterMap fun o =>
                (monitor.emitted host topic payload o.binding).map fun current => (o, current)) := by
          rw [consumeLine, hline]
          rfl
        simp only [observe, hline, hread, ih', find?_events ho hb]
        by_cases htopic : topic = b.topic
        · have hrecalled : recalled host
              { monitor with lastPayloads := monitor.lastPayloads.set topic payload } b =
                observation host b payload := by
            simp only [recalled]
            rw [htopic, PyDict.get?_set_self]
          rw [if_pos htopic, emitted_eq_step hsource htopic]
          simp only [Observation.heard, hrecalled]
        · have hnone : monitor.emitted host topic payload b = none :=
            if_pos (Or.inr fun heq => htopic heq.symm)
          have hrecalled : recalled host
              { monitor with lastPayloads := monitor.lastPayloads.set topic payload } b =
                recalled host monitor b := by
            simp only [recalled]
            rw [PyDict.get?_set_of_ne _ _ htopic]
          rw [if_neg htopic, hnone]
          simp only [Observation.heard, hrecalled]

/-- **The monitor follows the edge law exactly on the steady histories.** -/
theorem emissions_eq_law_iff (hsource : b.source = PyStr.ofString "mqtt")
    {l : List (BindingTable × PyStr)} {monitor : MqttEventMonitor}
    (hfresh : monitor.lastPayloads = PyDict.empty)
    (hl : ∀ e ∈ l, ∃ o, e.1.get? b.name = some o ∧ o.binding = b) :
    emissions host loads b monitor l =
        Observation.law (monitor.activeStates b.topic b.field) none
          (l.map fun e => observe host loads b e.2) ↔
      Observation.Steady (monitor.activeStates b.topic b.field) none Observation.missing
        (l.map fun e => observe host loads b e.2) := by
  have hrecalled : monitor.recalled host b = Observation.missing := by
    rw [recalled, hfresh]
    rfl
  rw [emissions_eq_heard hsource hl, hrecalled]
  exact Observation.heard_eq_law_iff nofun

/-! ### A door that reports its fields separately -/

/-- The bindings of a service that watches a door. -/
def doorBindings : BindingTable := Table.empty.put TaskEngine.doorBinding

/-- `json.loads` on the payloads of the door; the last of them is nested too deeply to be read. -/
def doorPayloads (text : PyStr) : Except LoadsError Json :=
  if text = PyStr.ofString "open" then Except.ok (Json.obj [("open", Json.bool true)])
  else if text = PyStr.ofString "shut" then Except.ok (Json.obj [("open", Json.bool false)])
  else if text = PyStr.ofString "battery" then Except.ok (Json.obj [("battery", Json.int 80)])
  else if text = PyStr.ofString "deep" then Except.error LoadsError.other
  else Except.error LoadsError.jsonDecodeError

/-- The lines of the door, by what their payloads say. -/
def doorLines (payloads : List String) : List (BindingTable × PyStr) :=
  payloads.map fun payload => (doorBindings, PyStr.ofString "door " ++ PyStr.ofString payload)

theorem doorLines_registered (payloads : List String) :
    ∀ e ∈ doorLines payloads, ∃ o, e.1.get? TaskEngine.doorBinding.binding.name = some o ∧
      o.binding = TaskEngine.doorBinding.binding := by
  intro e he
  obtain ⟨payload, _, rfl⟩ := List.mem_map.1 he
  exact ⟨TaskEngine.doorBinding, Table.get?_put_self _ _, rfl⟩

/-- The door opens and shuts, every payload says so, and the thread of the monitor ends when the
door has not moved since. -/
theorem emissions_eq_law_door :
    emissions Host.ascii doorPayloads TaskEngine.doorBinding.binding TaskEngine.doorMonitor
        (doorLines ["open", "", "shut", "deep", "shut"]) =
      [some (PyStr.ofString "true"), none, some (PyStr.ofString "false"), none, none] := by
  refine ((emissions_eq_law_iff rfl rfl (doorLines_registered _)).2 ?_).trans ?_
  · exact ⟨fun _ _ => trivial, fun _ _ => trivial, fun _ hc => Option.some.inj hc, trivial⟩
  · decide

/-- **A payload without the field hides an edge**: the door opens, it reports its battery, it shuts,
and nobody is told. -/
theorem not_emissions_eq_law :
    ¬ ∀ (loads : PyStr → Except LoadsError Json) (b : EventBinding) (monitor : MqttEventMonitor)
        (l : List (BindingTable × PyStr)), b.source = PyStr.ofString "mqtt" →
      monitor.lastPayloads = PyDict.empty →
      (∀ e ∈ l, ∃ o, e.1.get? b.name = some o ∧ o.binding = b) →
      emissions Host.ascii loads b monitor l =
        Observation.law (monitor.activeStates b.topic b.field) none
          (l.map fun e => observe Host.ascii loads b e.2) := by
  intro h
  have hlaw := h doorPayloads TaskEngine.doorBinding.binding TaskEngine.doorMonitor
    (doorLines ["open", "battery", "shut"]) rfl rfl (doorLines_registered _)
  exact absurd hlaw (by decide +kernel)

end MqttEventMonitor
