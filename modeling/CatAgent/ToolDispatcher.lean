/-
**The gate before MCP tools.**

A command that begins with `mcp:` names a tool and gives its arguments as JSON.  It is passed on
when the tool is assigned, the arguments are read, and no call with the same key has ended with an
unknown outcome.

Main definitions:

* `ToolDispatcher.hooks`, `Floats.float` — how the arguments are read;
* `ToolDispatcher.assigned` — whether a tool is assigned;
* `ToolDispatcher.prepare`, `ToolDispatcher.dispatch` — the gate;
* `ToolDispatcher.InRange` — no float of the text is beyond the doubles.

Main results:

* `ToolDispatcher.keys_unique` — what is read has no key twice;
* `ToolDispatcher.finite_iff_inRange` — and its floats are finite when they are in range;
* `ToolDispatcher.gate_iff` — **a call is passed on as it should be exactly when its floats are in
  range**.
-/

import CatAgent.JsonHooks
import CatAgent.PyValue

set_option relaxedAutoImplicit false
set_option autoImplicit false

/-- The doubles, as far as reading and writing them is concerned. -/
structure Floats where
  /-- The double that is nearest to a number below the limit, by the decimal that `repr` writes. -/
  round : ℚ → ℚ
  /-- `float.__repr__`. -/
  repr : PyDouble → PyStr

namespace Floats

/-- The least number that is rounded to infinity. -/
def limit : ℚ := ((2 ^ 1024 - 2 ^ 970 : ℕ) : ℚ)

/-- `float(text)`, of the text of a number. -/
def float (floats : Floats) (text : PyStr) : PyDouble :=
  let q := Json.decimal text
  if limit ≤ |q| then PyDouble.infinite (q < 0)
  else if floats.round q = 0 ∧ text.head? = some (PyStr.ofChar '-') then PyDouble.negativeZero
  else PyDouble.finite (floats.round q)

theorem isFinite_float_iff (floats : Floats) (text : PyStr) :
    (floats.float text).isFinite = true ↔ |Json.decimal text| < limit := by
  unfold float
  dsimp only
  split
  · rename_i h
    exact ⟨nofun, fun hlt => absurd hlt (not_lt.2 h)⟩
  · rename_i h
    refine ⟨fun _ => not_le.1 h, fun _ => ?_⟩
    split <;> rfl

end Floats

namespace ToolDispatcher

/-! ### The gate -/

/-- The hooks of `dispatch`: constants and keys that occur twice raise. -/
def hooks {φ : Type} (parseFloat : PyStr → φ) : JsonHooks Option (PyValue φ) where
  null := PyValue.none
  bool := PyValue.bool
  int := PyValue.int
  parseFloat := fun t => some (PyValue.float (parseFloat t))
  str := PyValue.str
  list := PyValue.list
  objectPairs := fun pairs =>
    if (pairs.map Prod.fst).Nodup then some (PyValue.dict pairs) else none
  parseConstant := fun _ => none

/-- What `dispatch` finds in the process. -/
structure Env where
  floats : Floats
  /-- The texts beyond the limits of the interpreter. -/
  beyond : PyStr → Bool
  /-- The text of the exception for a text that is not read. -/
  jsonError : PyStr → PyStr
  /-- `runtime.skill_names`. -/
  skillNames : List PyStr
  /-- `self.mcp_runtime is not None`. -/
  configured : Bool

/-- `is_mcp(command)`. -/
def isMcp (command : PyStr) : Bool :=
  (PyStr.ofString "mcp:").isPrefixOf (command.dropWhile PyStr.isSpace)

/-- `command.strip().split(maxsplit=1)`, when it has two parts. -/
def splitCommand (command : PyStr) : Option (PyStr × PyStr) :=
  let text := PyStr.strip command
  let name := text.takeWhile fun c => !PyStr.isSpace c
  let raw := (text.dropWhile fun c => !PyStr.isSpace c).dropWhile PyStr.isSpace
  if name.isEmpty || raw.isEmpty then none else some (name, raw)

/-- What is before the first colon, and what is after it. -/
def splitColon (s : PyStr) : Option (PyStr × PyStr) :=
  match s.dropWhile fun c => c != PyStr.ofChar ':' with
  | [] => none
  | _ :: rest => some (s.takeWhile fun c => c != PyStr.ofChar ':', rest)

/-- The server in `mcp:SERVER:TOOL`. -/
def serverOf (name : PyStr) : Option PyStr :=
  match splitColon name with
  | some (first, rest) =>
      if first = PyStr.ofString "mcp" then (splitColon rest).map Prod.fst else none
  | none => none

/-- `_assigned(name, skill_names)`. -/
def assigned (name : PyStr) (skillNames : List PyStr) : Bool :=
  skillNames.contains name ||
    match serverOf name with
    | some server => skillNames.contains (PyStr.ofString "mcp:" ++ server)
    | none => false

/-- What the `try` block makes of a command: the tool and its arguments, or the error. -/
def prepare (env : Env) (command : PyStr) :
    Except PyStr (PyStr × List (PyStr × PyValue PyDouble)) :=
  match splitCommand command with
  | none => Except.error "not enough values to unpack (expected 2, got 1)"
  | some (name, raw) =>
      if env.beyond raw then Except.error (env.jsonError raw)
      else
        match (hooks env.floats.float).loads raw with
        | none => Except.error (env.jsonError raw)
        | some (PyValue.dict arguments) =>
            if !assigned name env.skillNames then
              Except.error "MCP tool is unknown or not assigned to this runtime"
            else if !env.configured then Except.error "MCP is not configured"
            else Except.ok (name, arguments)
        | some _ => Except.error "MCP arguments must be a JSON object"

/-- The key of a call in `_uncertain_commands`. -/
def callKey (env : Env) (name : PyStr) (arguments : List (PyStr × PyValue PyDouble)) : PyStr :=
  name ++ PyStr.ofString " " ++
    PyValue.dumpsSorted env.floats.repr (PyValue.dict arguments)

/-- What `dispatch` does with a command. -/
inductive Decision where
  /-- `None`: the command is none for an MCP tool. -/
  | other
  /-- The text that is returned, and nothing is called. -/
  | refused (text : PyStr)
  /-- `self.mcp_runtime.call(name, arguments)`. -/
  | call (name : PyStr) (arguments : List (PyStr × PyValue PyDouble))

/-- `dispatch(command, runtime)`, up to the call. -/
def dispatch (env : Env) (uncertain : List PyStr) (command : PyStr) : Decision :=
  if !isMcp command then Decision.other
  else
    match prepare env command with
    | Except.error text => Decision.refused (PyStr.ofString "SYSTEM_ERROR\nMCP invalid_call: " ++ text)
    | Except.ok (name, arguments) =>
        if uncertain.contains (callKey env name arguments) then
          Decision.refused (PyStr.ofString
            "SYSTEM_ERROR\nMCP outcome_unknown: previous attempt may have executed; automatic replay refused")
        else Decision.call name arguments

/-! ### What is passed on -/

variable {env : Env} {uncertain : List PyStr} {command name : PyStr}
  {arguments : List (PyStr × PyValue PyDouble)}

/-- **What is read has no key twice.** -/
theorem keys_unique {φ : Type} {parseFloat : PyStr → φ} {raw : PyStr} {v : PyValue φ}
    (h : (hooks parseFloat).loads raw = some v) : PyValue.UniqueKeys v := by
  refine JsonHooks.loads_forall (P := PyValue.UniqueKeys) ?_ h
  exact
    { null := by simp [PyValue.UniqueKeys, hooks, PyValue.parts]
      bool := by simp [PyValue.UniqueKeys, hooks, PyValue.parts]
      int := by simp [PyValue.UniqueKeys, hooks, PyValue.parts]
      parseFloat := fun t v hv => by
        cases hv
        simp [PyValue.UniqueKeys, PyValue.parts]
      str := by simp [PyValue.UniqueKeys, hooks, PyValue.parts]
      list := fun xs hxs => PyValue.uniqueKeys_list.2 hxs
      objectPairs := fun pairs v hpairs hv => by
        unfold hooks at hv
        dsimp only at hv
        split at hv
        · rename_i hnodup
          cases hv
          exact PyValue.uniqueKeys_dict.2 ⟨hnodup, hpairs⟩
        · cases hv
      parseConstant := nofun }

/-- What is passed on has been read, is assigned and has not ended with an unknown outcome. -/
theorem prepare_ok (h : prepare env command = Except.ok (name, arguments)) :
    ∃ raw, splitCommand command = some (name, raw) ∧
      (hooks env.floats.float).loads raw = some (PyValue.dict arguments) ∧
      assigned name env.skillNames = true := by
  unfold prepare at h
  split at h
  · cases h
  · rename_i name' raw hsplit
    split at h
    · cases h
    · split at h
      · cases h
      · rename_i arguments' hread
        split at h
        · cases h
        · rename_i hassigned
          split at h
          · cases h
          · cases h
            refine ⟨raw, hsplit, hread, ?_⟩
            simpa using hassigned
      · cases h

theorem prepare_of_call (h : dispatch env uncertain command = Decision.call name arguments) :
    prepare env command = Except.ok (name, arguments) ∧
      callKey env name arguments ∉ uncertain := by
  unfold dispatch at h
  split at h
  · cases h
  · split at h
    · cases h
    · rename_i name' arguments' hprepare
      split at h
      · cases h
      · rename_i hnew
        cases h
        refine ⟨hprepare, fun hmem => hnew ?_⟩
        exact List.contains_iff_mem.2 hmem

/-! ### Floats in range -/

/-- Every number in the text that has a fraction or an exponent is below the limit of the doubles. -/
def InRange (raw : PyStr) : Prop :=
  ∀ tree, (hooks id).loads raw = some tree →
    PyValue.FloatsAll (fun text : PyStr => |Json.decimal text| < Floats.limit) tree

/-- All numbers are finite; integers always are. -/
def Finite (v : PyValue PyDouble) : Prop := PyValue.FloatsAll (fun x => x.isFinite = true) v

/-- The same text is read with the floats and with their texts. -/
theorem related_hooks (floats : Floats) :
    JsonHooks.Related MonadRelation.option
      (fun (t : PyValue PyStr) (v : PyValue PyDouble) =>
        PyValue.FloatsAll (fun text => |Json.decimal text| < Floats.limit) t ↔ Finite v)
      (hooks id) (hooks floats.float) where
  null := by simp [Finite, PyValue.FloatsAll, hooks, PyValue.parts]
  bool := by simp [Finite, PyValue.FloatsAll, hooks, PyValue.parts]
  int := by simp [Finite, PyValue.FloatsAll, hooks, PyValue.parts]
  parseFloat := fun t => by
    unfold Finite hooks
    change PyValue.FloatsAll _ _ ↔ PyValue.FloatsAll _ _
    rw [PyValue.floatsAll_float, PyValue.floatsAll_float, floats.isFinite_float_iff]
    rfl
  str := by simp [Finite, PyValue.FloatsAll, hooks, PyValue.parts]
  list := fun xs ys h => by
    unfold Finite hooks
    rw [PyValue.floatsAll_list, PyValue.floatsAll_list]
    exact List.forall_mem_iff_of_forall₂ h
  objectPairs := fun xs ys h => by
    have hkeys : xs.map Prod.fst = ys.map Prod.fst := by
      induction h with
      | nil => rfl
      | cons he _ ih => rw [List.map_cons, List.map_cons, he.1, ih]
    unfold hooks
    dsimp only
    rw [hkeys]
    split
    · unfold Finite
      change PyValue.FloatsAll _ _ ↔ PyValue.FloatsAll _ _
      rw [PyValue.floatsAll_dict, PyValue.floatsAll_dict]
      exact List.forall_mem_iff_of_forall₂ (h.imp fun _ _ he => he.2)
    · trivial
  parseConstant := fun _ => trivial

/-- **The floats that are read are finite exactly when their texts are in range.** -/
theorem finite_iff_inRange {floats : Floats} {raw : PyStr} {v : PyValue PyDouble}
    (h : (hooks floats.float).loads raw = some v) : Finite v ↔ InRange raw := by
  have hread := JsonHooks.loads_related (related_hooks floats) raw
  rw [h] at hread
  unfold InRange
  cases htree : (hooks id).loads raw with
  | none =>
      rw [htree] at hread
      exact hread.elim
  | some tree =>
      rw [htree] at hread
      have hiff : PyValue.FloatsAll _ tree ↔ Finite v := hread
      exact ⟨fun hfinite tree' htree' => Option.some.inj htree' ▸ hiff.2 hfinite,
        fun hrange => hiff.1 (hrange tree rfl)⟩

/-- What may be passed on: a tool that is assigned by its name or by its server, with arguments that
have no key twice at any depth and whose numbers are all finite. -/
def Proper (env : Env) (name : PyStr) (arguments : List (PyStr × PyValue PyDouble)) : Prop :=
  (name ∈ env.skillNames ∨
      ∃ server, serverOf name = some server ∧ PyStr.ofString "mcp:" ++ server ∈ env.skillNames) ∧
    PyValue.UniqueKeys (PyValue.dict arguments) ∧ Finite (PyValue.dict arguments)

theorem assigned_iff {skillNames : List PyStr} :
    assigned name skillNames = true ↔
      name ∈ skillNames ∨
        ∃ server, serverOf name = some server ∧ PyStr.ofString "mcp:" ++ server ∈ skillNames := by
  unfold assigned
  rw [Bool.or_eq_true, List.contains_iff_mem]
  cases serverOf name with
  | none => simp
  | some server => simp

/-- The command is an MCP command with the argument text `raw`, and passes every check of the gate:
the text is read as an object, the tool is assigned, there is a runtime, and no call with the same
key is uncertain. -/
def PassesChecks (env : Env) (uncertain : List PyStr) (command raw : PyStr) : Prop :=
  isMcp command = true ∧
    ∃ name arguments, splitCommand command = some (name, raw) ∧
      prepare env command = Except.ok (name, arguments) ∧ callKey env name arguments ∉ uncertain

theorem dispatch_of_passes {raw : PyStr} (h : PassesChecks env uncertain command raw) :
    ∃ name arguments, splitCommand command = some (name, raw) ∧
      dispatch env uncertain command = Decision.call name arguments := by
  obtain ⟨hmcp, name, arguments, hsplit, hprepare, hnew⟩ := h
  refine ⟨name, arguments, hsplit, ?_⟩
  unfold dispatch
  rw [if_neg (by rw [hmcp]; decide), hprepare]
  exact if_neg fun hmem => hnew (List.contains_iff_mem.1 hmem)

theorem passes_of_dispatch (h : dispatch env uncertain command = Decision.call name arguments) :
    ∃ raw, PassesChecks env uncertain command raw ∧
      (hooks env.floats.float).loads raw = some (PyValue.dict arguments) := by
  obtain ⟨hprepare, hnew⟩ := prepare_of_call h
  obtain ⟨raw, hsplit, hread, _⟩ := prepare_ok hprepare
  refine ⟨raw, ⟨?_, name, arguments, hsplit, hprepare, hnew⟩, hread⟩
  by_contra hmcp
  unfold dispatch at h
  rw [Bool.not_eq_true] at hmcp
  rw [hmcp] at h
  cases h

/-- **What is passed on is proper exactly when the floats of a command that passes the checks are in
range.** -/
theorem gate_iff (env : Env) (uncertain : List PyStr) (command : PyStr) :
    (∀ name arguments, dispatch env uncertain command = Decision.call name arguments →
        Proper env name arguments) ↔
      ∀ raw, PassesChecks env uncertain command raw → InRange raw := by
  constructor
  · intro h raw hpasses
    obtain ⟨name, arguments, hsplit, hcall⟩ := dispatch_of_passes hpasses
    obtain ⟨raw', _, hread⟩ := passes_of_dispatch hcall
    obtain ⟨raw'', hsplit', hread', _⟩ := prepare_ok (prepare_of_call hcall).1
    rw [hsplit] at hsplit'
    cases hsplit'
    exact (finite_iff_inRange hread').1 (h name arguments hcall).2.2
  · intro h name arguments hcall
    obtain ⟨raw, hpasses, hread⟩ := passes_of_dispatch hcall
    obtain ⟨_, _, _, hassigned⟩ := prepare_ok (prepare_of_call hcall).1
    exact ⟨assigned_iff.1 hassigned, keys_unique hread,
      (finite_iff_inRange hread).2 (h raw hpasses)⟩

/-- Doubles that are not rounded, and a float writer with a point. -/
def plainFloats : Floats where
  round := id
  repr := fun x =>
    match x with
    | PyDouble.finite q => PyStr.ofString (toString q.num) ++ PyStr.ofString ".0"
    | PyDouble.negativeZero => "-0.0"
    | PyDouble.infinite negative => if negative then "-Infinity" else "Infinity"

/-- A process in which the server `s` is assigned. -/
def plainEnv : Env where
  floats := plainFloats
  beyond := fun _ => false
  jsonError := fun _ => "Expecting value"
  skillNames := ["mcp:s"]
  configured := true

theorem float_huge : plainFloats.float "1e999" = PyDouble.infinite false := by
  decide +kernel

/-- `1e999` is read as infinity, and infinity is passed on. -/
theorem not_always_proper :
    ¬ ∀ env uncertain command name arguments,
        dispatch env uncertain command = Decision.call name arguments →
          Proper env name arguments := by
  intro h
  have hcall : dispatch plainEnv [] "mcp:s:t \x7b\"a\":1e999\x7d" =
      Decision.call "mcp:s:t" [("a", PyValue.float (plainFloats.float "1e999"))] := by
    rfl
  have hfinite := (h _ _ _ _ _ hcall).2.2
  unfold Finite at hfinite
  rw [PyValue.floatsAll_dict] at hfinite
  have hbad := PyValue.floatsAll_float.1 (hfinite _ List.mem_cons_self)
  rw [float_huge] at hbad
  cases hbad

end ToolDispatcher
