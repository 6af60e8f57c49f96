/-
**No call of an MCP tool is repeated after an unknown outcome.**

A call whose outcome is unknown may have taken effect.  Its key is kept, and a later command with
the same key is refused.  The key is the text of the arguments with sorted keys, so it is the same
for equal arguments as long as their numbers are of one kind; `1` and `1.0` are equal, but they have
different texts.

Main definitions:

* `McpLedger`, `McpLedger.machine` — the uncertain calls of one runtime, in any sequence of commands;
* `McpLedger.NoReplay` — no call equals an earlier one with an unknown outcome;
* `McpLedger.OneKind` — an equal command writes its numbers as the earlier call did.

Main results:

* `McpLedger.kept_of_reach` — the invariant;
* `McpLedger.no_replay` — **commands that write equal numbers alike are never replayed**.
-/

import CatAgent.ToolDispatcher
import CatAgent.Machine

set_option relaxedAutoImplicit false
set_option autoImplicit false

open ToolDispatcher

/-- A call that has reached `mcp_runtime.call`. -/
structure McpCall where
  tool : PyStr
  arguments : List (PyStr × PyValue PyDouble)
  /-- It returned `outcome_unknown`. -/
  unknown : Bool

/-- `_uncertain_commands` of a runtime since its last reset, with a record of the calls. -/
structure McpLedger where
  uncertain : List PyStr
  calls : List McpCall

namespace McpLedger

/-- What happens on one runtime. -/
inductive Input where
  /-- `dispatch(command)`, and what `mcp_runtime.call` returns if it is called and does not raise. -/
  | dispatch (command : PyStr) (answer : Option PyStr)
  /-- Another tool keeps a command that it could not finish. -/
  | remember (command : PyStr)

/-- `result.startswith("SYSTEM_ERROR\nMCP outcome_unknown:")`. -/
def isUnknown (answer : PyStr) : Bool :=
  (PyStr.ofString "SYSTEM_ERROR\nMCP outcome_unknown:").isPrefixOf answer

/-- One event. -/
def step (env : ToolDispatcher.Env) (s : McpLedger) : Input → McpLedger
  | Input.dispatch command answer =>
      match ToolDispatcher.dispatch env s.uncertain command with
      | Decision.call name arguments =>
          let unknown := answer.elim false isUnknown
          { uncertain := if unknown then callKey env name arguments :: s.uncertain else s.uncertain
            calls := s.calls ++ [{ tool := name, arguments := arguments, unknown := unknown }] }
      | _ => s
  | Input.remember command => { s with uncertain := command :: s.uncertain }

/-- Any sequence of events after a reset. -/
def machine (env : ToolDispatcher.Env) : Machine McpLedger Input where
  init := fun s => s.calls = []
  step := step env

/-- No call equals an earlier one of the same tool whose outcome is unknown. -/
def NoReplay (calls : List McpCall) : Prop :=
  calls.Pairwise fun c d => c.unknown = true → c.tool = d.tool →
    PyValue.same (PyValue.dict c.arguments) (PyValue.dict d.arguments) = false

instance (calls : List McpCall) : Decidable (NoReplay calls) := by
  unfold NoReplay
  infer_instance

/-- The command writes the numbers of its arguments as the equal call with an unknown outcome did:
integers as integers, floats as floats, and a zero with the same sign. -/
def OneKind (env : ToolDispatcher.Env) (s : McpLedger) : Input → Prop
  | Input.dispatch command _ =>
      ∀ name arguments, prepare env command = Except.ok (name, arguments) → ∀ c ∈ s.calls,
        c.unknown = true → c.tool = name →
          PyValue.same (PyValue.dict c.arguments) (PyValue.dict arguments) = true →
            PyValue.sameKind (PyValue.dict c.arguments) (PyValue.dict arguments) = true
  | Input.remember _ => True

/-! ### The invariant -/

variable {env : ToolDispatcher.Env} {s : McpLedger}

/-- The calls with an unknown outcome are kept by their keys. -/
structure Kept (env : ToolDispatcher.Env) (s : McpLedger) : Prop where
  key : ∀ c ∈ s.calls, c.unknown = true → callKey env c.tool c.arguments ∈ s.uncertain
  unique : ∀ c ∈ s.calls, PyValue.UniqueKeys (PyValue.dict c.arguments)
  noReplay : NoReplay s.calls

theorem unique_of_prepare {command name : PyStr} {arguments : List (PyStr × PyValue PyDouble)}
    (h : prepare env command = Except.ok (name, arguments)) :
    PyValue.UniqueKeys (PyValue.dict arguments) := by
  obtain ⟨_, _, hread, _⟩ := prepare_ok h
  exact keys_unique hread

/-- **Equal arguments with numbers of one kind have one key.** -/
theorem Kept.key_mem (h : Kept env s) {command name : PyStr}
    {arguments : List (PyStr × PyValue PyDouble)}
    (hprepare : prepare env command = Except.ok (name, arguments)) {c : McpCall}
    (hc : c ∈ s.calls) (hunknown : c.unknown = true) (htool : c.tool = name)
    (hsame : PyValue.same (PyValue.dict c.arguments) (PyValue.dict arguments) = true)
    (hkind : PyValue.sameKind (PyValue.dict c.arguments) (PyValue.dict arguments) = true) :
    callKey env name arguments ∈ s.uncertain := by
  have hkey := h.key c hc hunknown
  unfold callKey at hkey ⊢
  rw [htool, PyValue.dumpsSorted_congr hsame hkind (h.unique c hc) (unique_of_prepare hprepare)]
    at hkey
  exact hkey

theorem Kept.dispatch (h : Kept env s) (command : PyStr) (answer : Option PyStr)
    (hkind : OneKind env s (Input.dispatch command answer)) :
    Kept env (s.step env (Input.dispatch command answer)) := by
  unfold step
  dsimp only
  cases hdecision : ToolDispatcher.dispatch env s.uncertain command with
  | other => exact h
  | refused text => exact h
  | call name arguments =>
      obtain ⟨hprepare, hnew⟩ := prepare_of_call hdecision
      dsimp only
      refine { key := ?_, unique := ?_, noReplay := ?_ }
      · intro c hc hunknown
        rcases List.mem_append.1 hc with hc | hc
        · have hkey := h.key c hc hunknown
          dsimp only
          split
          · exact List.mem_cons_of_mem _ hkey
          · exact hkey
        · rw [List.mem_singleton.1 hc] at hunknown ⊢
          dsimp only at hunknown ⊢
          rw [if_pos hunknown]
          exact List.mem_cons_self
      · intro c hc
        rcases List.mem_append.1 hc with hc | hc
        · exact h.unique c hc
        · rw [List.mem_singleton.1 hc]
          exact unique_of_prepare hprepare
      · refine List.pairwise_append.2 ⟨h.noReplay, List.pairwise_singleton _ _, ?_⟩
        intro c hc d hd hunknown htool
        rw [List.mem_singleton.1 hd] at htool ⊢
        -- An equal call would have found its key.
        by_contra hsame
        rw [Bool.not_eq_false] at hsame
        exact hnew (h.key_mem hprepare hc hunknown htool hsame
          (hkind name arguments hprepare c hc hunknown htool hsame))

theorem Kept.remember (h : Kept env s) (command : PyStr) :
    Kept env (s.step env (Input.remember command)) where
  key := fun c hc hunknown => List.mem_cons_of_mem _ (h.key c hc hunknown)
  unique := h.unique
  noReplay := h.noReplay

theorem kept_of_reach (h : (machine env).Reach (OneKind env) s) : Kept env s := by
  refine h.invariant (I := Kept env) ?_ ?_
  · intro s hs
    have hcalls : s.calls = [] := hs
    refine { key := ?_, unique := ?_, noReplay := ?_ }
    · rw [hcalls]
      exact nofun
    · rw [hcalls]
      exact nofun
    · rw [hcalls]
      exact List.Pairwise.nil
  · intro s i _ hs hkind
    cases i with
    | dispatch command answer => exact hs.dispatch command answer hkind
    | remember command => exact hs.remember command

/-- **Commands that write equal numbers alike are never replayed**: no call equals an earlier one of
the same tool with an unknown outcome, and a command that does is not passed on. -/
theorem no_replay (h : (machine env).Reach (OneKind env) s) :
    NoReplay s.calls ∧
      ∀ command answer name arguments, OneKind env s (Input.dispatch command answer) →
        prepare env command = Except.ok (name, arguments) →
          (∃ c ∈ s.calls, c.unknown = true ∧ c.tool = name ∧
            PyValue.same (PyValue.dict c.arguments) (PyValue.dict arguments) = true) →
            ∀ name' arguments',
              ToolDispatcher.dispatch env s.uncertain command ≠ Decision.call name' arguments' := by
  have hkept := kept_of_reach h
  refine ⟨hkept.noReplay, ?_⟩
  rintro command answer name arguments hkind hprepare ⟨c, hc, hunknown, htool, hsame⟩ name' arguments'
    hcall
  obtain ⟨hprepare', hnew⟩ := prepare_of_call hcall
  rw [hprepare] at hprepare'
  cases hprepare'
  exact hnew (hkept.key_mem hprepare hc hunknown htool hsame
    (hkind name arguments hprepare c hc hunknown htool hsame))

/-! ### One and one point zero -/

/-- A call with an unknown outcome, and the command `second`. -/
def tried (second : PyStr) : List Input :=
  [Input.dispatch "mcp:s:t \x7b\"a\":1\x7d" (some "SYSTEM_ERROR\nMCP outcome_unknown: timed out"),
    Input.dispatch second none]

/-- A runtime after a reset. -/
def empty : McpLedger where
  uncertain := []
  calls := []

/-- The call with an unknown outcome has been recorded. -/
theorem calls_tried : ((machine plainEnv).exec empty
      [Input.dispatch "mcp:s:t \x7b\"a\":1\x7d"
        (some "SYSTEM_ERROR\nMCP outcome_unknown: timed out")]).calls =
    [{ tool := "mcp:s:t", arguments := [("a", PyValue.int 1)], unknown := true }] := rfl

theorem no_replay_sameSpelling :
    NoReplay ((machine plainEnv).exec empty (tried "mcp:s:t \x7b \"a\" : 1 \x7d")).calls := by
  have hguarded : (machine plainEnv).Guarded (OneKind plainEnv) empty
      (tried "mcp:s:t \x7b \"a\" : 1 \x7d") := by
    refine ⟨fun name arguments _ c hc => (by cases hc), ?_, trivial⟩
    intro name arguments hprepare c hc _ _ _
    have hread : prepare plainEnv "mcp:s:t \x7b \"a\" : 1 \x7d" =
        Except.ok (PyStr.ofString "mcp:s:t", [(PyStr.ofString "a", PyValue.int 1)]) := rfl
    rw [hread] at hprepare
    cases hprepare
    have hmem : c ∈ [_] := calls_tried ▸ hc
    rw [List.mem_singleton.1 hmem]
    rfl
  exact (no_replay ⟨empty, rfl, Machine.leads_of_guarded hguarded⟩).1

/-- `1` and `1.0` are equal, but the call is made a second time. -/
theorem not_always_no_replay :
    ¬ ∀ env s, (machine env).Reachable s → NoReplay s.calls := by
  intro h
  have hinit : (machine plainEnv).init empty := rfl
  have hbad := h plainEnv _ (Machine.Reachable.exec (Machine.Reach.of_init hinit)
    (tried "mcp:s:t \x7b\"a\":1.0\x7d"))
  revert hbad
  decide +kernel

end McpLedger
