/-
**The guard of the tool loop.**

Every tool call of a turn is approved before it runs, and its result is measured before the model
sees it.  A result that takes more than the budget is saved and replaced by a summary, whose
preview is as long as the budget allows.  The results that have not yet become part of the context
share what is left of it.

The clock, the session, the length of the context and the files are the outside world: what they
are in one call is the value of type `GuardEnv` that the call is given.

Main definitions:

* `GuardLimits`, `ToolGuard` — the limits that a guard accepts, and the guard;
* `ToolGuard.approve`, `ToolGuard.process` — its two hooks;
* `ToolGuard.machine` — any sequence of calls in one turn;
* `ResultStore.readToolResult` — one page of a saved result;
* `ResultStore.PageFits` — what a page takes on the wire.

Main results:

* `ToolGuard.process_cases` — what a result is replaced by;
* `ToolGuard.budget_kept` — **results stay within the budget, and previews are as long as they can
  be**;
* `ToolGuard.not_batch_le` — with nothing accumulated the bound may be negative;
* `ResultStore.page_unmodified_iff` — **a page passes exactly if its characters leave room for the
  envelope**, and `ResultStore.not_pages_unmodified` — which is not always so.
-/

import CatAgent.Bisect
import CatAgent.Machine
import CatAgent.WireSize

set_option relaxedAutoImplicit false
set_option autoImplicit false

/-- The limits that `ToolGuard.__init__` accepts. -/
structure GuardLimits where
  maxCalls : ℕ
  contextLimit : ℕ
  outputReserve : ℕ
  maxResultBytes : ℕ
  maxCalls_pos : 1 ≤ maxCalls
  maxResultBytes_ge : 256 ≤ maxResultBytes
  outputReserve_pos : 1 ≤ outputReserve
  contextLimit_gt : outputReserve + 256 < contextLimit

/-- `ToolGuard`, with the counters of its ledger. -/
structure ToolGuard where
  limits : GuardLimits
  /-- `store is not None`. -/
  hasStore : Bool
  attempts : ℕ
  /-- `shared['calls']`, if the turn has a shared budget. -/
  shared : Option ℕ
  /-- `calls_before`, once a call has been approved. -/
  callsBefore : Option ℕ
  ledgerCalls : ℕ
  /-- `ledger.status_code` is one. -/
  ledgerFailed : Bool
  batchKv : Option ℕ
  batchBytes : ℕ

/-- What the outside world is in one call. -/
structure GuardEnv where
  /-- `conversation.token_count`. -/
  kv : ℕ
  /-- `is_active()`. -/
  active : Bool
  /-- `time.monotonic() >= deadline`. -/
  expired : Bool
  /-- `store.save(result)`. -/
  save : Except PyStr PyStr

namespace ToolGuard

/-! ### The hooks -/

/-- `_stop(reason)`. -/
def stop {α : Type} (reason : String) (g : ToolGuard) : Except PyStr α × ToolGuard :=
  (Except.error reason, { g with ledgerFailed := true })

/-- The batch starts again when the length of the context has changed. -/
def refresh (kv : ℕ) (g : ToolGuard) : ToolGuard :=
  if g.batchKv = some kv then g else { g with batchKv := some kv, batchBytes := 0 }

/-- What is left of the context. -/
def room (kv : ℕ) (g : ToolGuard) : ℤ :=
  (g.limits.contextLimit : ℤ) - kv - g.limits.outputReserve - 256 - g.batchBytes

/-- `_available()`, once the batch belongs to the present context. -/
def available (kv : ℕ) (g : ToolGuard) : ℤ := (g.refresh kv).room kv

/-- `approve_tool_call(tool_call)`. -/
def approve (env : GuardEnv) (g : ToolGuard) : Except PyStr Unit × ToolGuard :=
  if !env.active then g.stop "Native turn cancelled before next tool call"
  else if env.expired then g.stop "Native tool turn deadline reached"
  else if g.limits.maxCalls ≤ g.shared.getD g.attempts then
    g.stop "Native tool call limit reached"
  else
    let g := g.refresh env.kv
    if g.room env.kv < 256 then g.stop "Insufficient context for tool result; use /new"
    else
      (Except.ok (),
        { g with
          attempts := g.attempts + 1
          shared := g.shared.map fun n => n + 1
          callsBefore := some g.ledgerCalls })

/-- The result says that the tool has failed. -/
def isFailure : Json → Bool
  | Json.str s => (PyStr.ofString "Error:").isPrefixOf s
  | Json.obj items =>
      decide (Json.find "ok" items = some (Json.bool false)) ||
        decide (Json.find "isError" items = some (Json.bool true))
  | _ => false

/-- `if key in result: summary[key] = result[key]`. -/
def keptItem (result : Json) (key : PyStr) : List (PyStr × Json) :=
  match Json.get key result with
  | none => []
  | some v => [(key, v)]

/-- What a summary says about the saved result. -/
def savedItems : Option PyStr → List (PyStr × Json)
  | some identifier =>
      [("result_id", Json.str identifier), ("read_with", Json.str "read_tool_result")]
  | none => [("full_result_saved", Json.bool false)]

/-- The items of a summary before its preview. -/
def envelope (fl : ℚ → PyStr) (result : Json) (identifier : Option PyStr) :
    List (PyStr × Json) :=
  (PyStr.ofString "truncated", Json.bool true) ::
    (PyStr.ofString "original_bytes", Json.int (Json.wireSize fl result)) ::
      (keptItem result "ok" ++ keptItem result "isError" ++ keptItem result "exit_code" ++
        savedItems identifier)

/-- The summary with the first characters of the text as its preview. -/
def summary (fl : ℚ → PyStr) (result : Json) (identifier : Option PyStr) (n : ℕ) : Json :=
  Json.obj (envelope fl result identifier ++
    [(PyStr.ofString "preview", Json.str ((Json.dumps fl result).take n))])

/-- What is left for one result. -/
def budget (kv : ℕ) (g : ToolGuard) : ℤ :=
  min (g.limits.maxResultBytes : ℤ) (g.room kv - 128)

/-- How many characters the preview has. -/
def previewLength (fl : ℚ → PyStr) (budget : ℤ) (result : Json) (identifier : Option PyStr) : ℕ :=
  bisect (fun n => decide ((Json.wireSize fl (summary fl result identifier n) : ℤ) ≤ budget)) 0
    (min (Json.dumps fl result).length (max 0 budget).toNat)

/-- The result is handed to the model, if it fits and the turn goes on. -/
def handBack (fl : ℚ → PyStr) (env : GuardEnv) (budget : ℤ) (result : Json) (g : ToolGuard) :
    Except PyStr Json × ToolGuard :=
  if budget < Json.wireSize fl result then
    g.stop "Insufficient context for tool result metadata; operation was not replayed"
  else
    let g := { g with batchBytes := g.batchBytes + (Json.wireSize fl result + 128) }
    if !env.active then
      g.stop "Native turn cancelled after tool execution; operation was not replayed"
    else if env.expired then
      g.stop "Native tool turn deadline reached after execution; operation was not replayed"
    else (Except.ok result, g)

/-- The ledger counts a call that never reached the tool, and notes a failure. -/
def count (before : ℕ) (result : Json) (g : ToolGuard) : ToolGuard :=
  { g with
    ledgerCalls := if g.ledgerCalls = before then g.ledgerCalls + 1 else g.ledgerCalls
    ledgerFailed := g.ledgerFailed || isFailure result }

/-- `process_tool_response(result)`. -/
def process (fl : ℚ → PyStr) (env : GuardEnv) (result : Json) (g : ToolGuard) :
    Except PyStr Json × ToolGuard :=
  match g.callsBefore with
  | none => (Except.error "'ToolGuard' object has no attribute 'calls_before'", g)
  | some before =>
      let g := (g.count before result).refresh env.kv
      if g.budget env.kv < Json.wireSize fl result then
        match if g.hasStore then env.save.map some else Except.ok none with
        | Except.error message => (Except.error message, g)
        | Except.ok identifier =>
            g.handBack fl env (g.budget env.kv)
              (summary fl result identifier
                (previewLength fl (g.budget env.kv) result identifier))
      else g.handBack fl env (g.budget env.kv) result

/-! ### One turn -/

/-- What happens in a turn. -/
inductive Call where
  | approve (env : GuardEnv)
  | process (env : GuardEnv) (result : Json)
  /-- A wrapped tool has returned or raised. -/
  | measured (failed : Bool)
  /-- Another guard of the same turn has approved a call. -/
  | elsewhere

/-- One step. -/
def step (fl : ℚ → PyStr) (g : ToolGuard) : Call → ToolGuard
  | Call.approve env => (g.approve env).2
  | Call.process env result => (g.process fl env result).2
  | Call.measured failed =>
      { g with ledgerCalls := g.ledgerCalls + 1, ledgerFailed := g.ledgerFailed || failed }
  | Call.elsewhere => { g with shared := g.shared.map fun n => n + 1 }

/-- Any sequence of calls, from `reset` on. -/
def machine (fl : ℚ → PyStr) : Machine ToolGuard Call where
  init := fun g => g.attempts = 0 ∧ g.batchKv = none ∧ g.batchBytes = 0
  step := step fl

end ToolGuard

/-! ### Pages -/

namespace ResultStore

/-- The stream after some characters, which are read in pieces; nothing is left to read before the
end of an offset beyond the text. -/
def skipChars (remaining : ℕ) (stream : PyStr) : Option PyStr :=
  if remaining = 0 then some stream
  else if stream = [] then none
  else
    skipChars (remaining - (stream.take (min remaining 4096)).length)
      (stream.drop (min remaining 4096))
termination_by remaining
decreasing_by
  have hpos : 0 < stream.length := List.length_pos_of_ne_nil (by assumption)
  rw [List.length_take]
  omega

/-- `{"ok": False, "error": message}`. -/
def refusal (message : PyStr) : Json :=
  Json.obj [("ok", Json.bool false), ("error", Json.str message)]

/-- A lower case hexadecimal digit. -/
def isHexDigit (c : CodePoint) : Bool :=
  (0x30 ≤ c.val && c.val ≤ 0x39) || (0x61 ≤ c.val && c.val ≤ 0x66)

/-- The page that a request for a text gets. -/
def page (text : PyStr) (offset length : ℕ) : Json :=
  match skipChars offset text with
  | none => refusal "offset_past_end"
  | some stream =>
      let part := stream.take length
      let more := !((stream.drop length).take 1).isEmpty
      Json.obj [("ok", Json.bool true), ("text", Json.str part),
        ("next_offset", if more then Json.int (offset + part.length : ℕ) else Json.null)]

/-- `read_tool_result(result_id, offset, length)`; `files` opens a file of the directory. -/
def readToolResult (files : PyStr → Except PyStr PyStr) (resultId offset length : Json) : Json :=
  match resultId with
  | Json.str identifier =>
      if identifier.length ≠ 32 ∨ identifier.all isHexDigit = false then
        refusal "invalid_result_id"
      else
        match offset, length with
        | Json.int offset, Json.int length =>
            if offset < 0 ∨ length < 1 ∨ 512 < length then refusal "invalid_page"
            else
              match files (identifier ++ PyStr.ofString ".json") with
              | Except.error message => refusal message
              | Except.ok text => page text offset.toNat length.toNat
        | _, _ => refusal "invalid_page"
  | _ => refusal "invalid_result_id"

end ResultStore

/-! ### What a result is replaced by -/

namespace ToolGuard

variable {fl : ℚ → PyStr} {g : ToolGuard} {env : GuardEnv} {result r : Json}

/-- What is handed back fits, and is what was to be handed back. -/
theorem handBack_ok {budget : ℤ} {g' : ToolGuard}
    (h : g.handBack fl env budget result = (Except.ok r, g')) :
    r = result ∧ (Json.wireSize fl result : ℤ) ≤ budget := by
  unfold handBack at h
  by_cases hfits : budget < Json.wireSize fl result
  · rw [if_pos hfits] at h
    cases h
  · rw [if_neg hfits] at h
    have hr : r = result := by
      by_cases hactive : (!env.active) = true
      · rw [if_pos hactive] at h
        cases h
      · rw [if_neg hactive] at h
        by_cases hexpired : env.expired = true
        · rw [if_pos hexpired] at h
          cases h
        · rw [if_neg hexpired] at h
          cases h
          rfl
    exact ⟨hr, Int.not_lt.1 hfits⟩

/-- The size of a summary as a function of the length of its preview. -/
theorem wireSize_summary (identifier : Option PyStr) (n : ℕ) :
    Json.wireSize fl (summary fl result identifier n) =
      Json.wireSize fl (summary fl result identifier 0) +
        Json.escapedSize ((Json.dumps fl result).take n) := by
  unfold summary
  rw [Json.wireSize_lastItem, List.take_zero]

/-- **A preview that leaves no room for one character more is the longest that fits.** -/
theorem previewLength_last {budget : ℤ} {identifier : Option PyStr} {n : ℕ}
    (hn : previewLength fl budget result identifier < n) (hlength : n ≤ (Json.dumps fl result).length) :
    budget < Json.wireSize fl (summary fl result identifier n) := by
  by_cases hhigh : n ≤ min (Json.dumps fl result).length (max 0 budget).toNat
  · have hmono : ∀ m n, m ≤ n →
        decide ((Json.wireSize fl (summary fl result identifier n) : ℤ) ≤ budget) = true →
          decide ((Json.wireSize fl (summary fl result identifier m) : ℤ) ≤ budget) = true := by
      intro m n hmn hfits
      have hle := Json.escapedSize_take_le (Json.dumps fl result) hmn
      rw [decide_eq_true_eq, wireSize_summary] at hfits ⊢
      omega
    exact not_le.1 (of_decide_eq_false (bisect_last hmono hn hhigh))
  · -- A preview of more characters than there are bytes takes more than the budget.
    have hlong : budget < n := by omega
    have hsize := Json.length_le_escapedSize ((Json.dumps fl result).take n)
    rw [List.length_take, min_eq_left hlength] at hsize
    rw [wireSize_summary]
    omega

theorem previewLength_le {budget : ℤ} {identifier : Option PyStr} :
    previewLength fl budget result identifier ≤ (Json.dumps fl result).length :=
  (bisect_le (Nat.zero_le _)).trans (min_le_left _ _)

theorem refresh_count (before kv : ℕ) :
    (g.count before result).refresh kv = (g.refresh kv).count before result := by
  unfold refresh
  by_cases hkv : g.batchKv = some kv
  · rw [if_pos hkv, if_pos (show (g.count before result).batchKv = some kv from hkv)]
  · rw [if_neg hkv, if_neg (show ¬ (g.count before result).batchKv = some kv from hkv)]
    rfl

theorem hasStore_refresh (before kv : ℕ) :
    ((g.count before result).refresh kv).hasStore = g.hasStore := by
  unfold refresh
  split_ifs <;> rfl

/-- The budget of a result is what the limits and the rest of the context allow. -/
theorem budget_refresh (before kv : ℕ) :
    ((g.count before result).refresh kv).budget kv =
      min (g.limits.maxResultBytes : ℤ) (g.available kv - 128) := by
  have hlimits : (g.refresh kv).limits = g.limits := by
    unfold refresh
    split_ifs <;> rfl
  rw [refresh_count, ← hlimits]
  rfl

/-- **A result that is handed back fits; it is the result itself, or a summary with the longest
preview.** -/
theorem process_cases {g' : ToolGuard} (h : g.process fl env result = (Except.ok r, g')) :
    (Json.wireSize fl r : ℤ) ≤ min (g.limits.maxResultBytes : ℤ) (g.available env.kv - 128) ∧
      (r = result ∨
        min (g.limits.maxResultBytes : ℤ) (g.available env.kv - 128) < Json.wireSize fl result ∧
          ∃ identifier n, n ≤ (Json.dumps fl result).length ∧
            r = summary fl result identifier n ∧
            ∀ m, n < m → m ≤ (Json.dumps fl result).length →
              min (g.limits.maxResultBytes : ℤ) (g.available env.kv - 128) <
                Json.wireSize fl (summary fl result identifier m)) := by
  unfold process at h
  cases hcalls : g.callsBefore with
  | none =>
      rw [hcalls] at h
      cases h
  | some before =>
      simp only [hcalls, budget_refresh] at h
      by_cases hlarge :
          min (g.limits.maxResultBytes : ℤ) (g.available env.kv - 128) < Json.wireSize fl result
      · rw [if_pos hlarge] at h
        cases hsave : (if g.hasStore then env.save.map some else Except.ok none :
            Except PyStr (Option PyStr)) with
        | error message =>
            rw [hasStore_refresh, hsave] at h
            cases h
        | ok identifier =>
            rw [hasStore_refresh, hsave] at h
            obtain ⟨rfl, hfits⟩ := handBack_ok h
            exact ⟨hfits, Or.inr ⟨hlarge, identifier, _, previewLength_le, rfl,
              fun m hm hlength => previewLength_last hm hlength⟩⟩
      · rw [if_neg hlarge] at h
        obtain ⟨rfl, hfits⟩ := handBack_ok h
        exact ⟨hfits, Or.inl rfl⟩

/-! ### The batch -/

/-- What has been accumulated fits in the context. -/
def BatchFits (g : ToolGuard) : Prop :=
  (g.batchKv = none → g.batchBytes = 0) ∧
    ∀ kv, g.batchKv = some kv → g.batchBytes = 0 ∨ 0 ≤ g.room kv

theorem BatchFits.refresh (hg : g.BatchFits) (kv : ℕ) : (g.refresh kv).BatchFits := by
  unfold ToolGuard.refresh
  split_ifs
  · exact hg
  · exact ⟨nofun, fun _ _ => Or.inl rfl⟩

theorem batchKv_refresh (kv : ℕ) : (g.refresh kv).batchKv = some kv := by
  unfold refresh
  split_ifs with h
  · exact h
  · rfl

/-- What is handed back still fits. -/
theorem BatchFits.handBack (hg : g.BatchFits) (hkv : g.batchKv = some env.kv) :
    (g.handBack fl env (g.budget env.kv) result).2.BatchFits := by
  unfold ToolGuard.handBack
  by_cases hlarge : g.budget env.kv < Json.wireSize fl result
  · rw [if_pos hlarge]
    exact hg
  · rw [if_neg hlarge]
    have hadded : BatchFits
        { g with batchBytes := g.batchBytes + (Json.wireSize fl result + 128) } := by
      refine ⟨fun hnone => ?_, ?_⟩
      · rw [hkv] at hnone
        cases hnone
      · intro kv hsame
        have hkv' : kv = env.kv := Option.some.inj (hsame.symm.trans hkv)
        subst hkv'
        have hroom : g.budget env.kv ≤ g.room env.kv - 128 := min_le_right _ _
        simp only [room] at hroom ⊢
        right
        push_cast
        omega
    cases env.active <;> cases env.expired <;> exact hadded

/-- **Every call keeps the batch within the context.** -/
theorem BatchFits.step (hg : g.BatchFits) (i : Call) : (g.step fl i).BatchFits := by
  cases i with
  | approve env =>
      simp only [ToolGuard.step, approve]
      split_ifs
      · exact hg
      · exact hg
      · exact hg
      · exact hg.refresh env.kv
      · exact hg.refresh env.kv
  | process env result =>
      simp only [ToolGuard.step, process]
      cases hcalls : g.callsBefore with
      | none => exact hg
      | some before =>
          have hfits : ((g.count before result).refresh env.kv).BatchFits :=
            BatchFits.refresh (g := g.count before result) hg env.kv
          simp only
          by_cases hlarge : ((g.count before result).refresh env.kv).budget env.kv <
              Json.wireSize fl result
          · rw [if_pos hlarge]
            cases (if ((g.count before result).refresh env.kv).hasStore then env.save.map some
                else Except.ok none : Except PyStr (Option PyStr)) with
            | error message => exact hfits
            | ok identifier => exact hfits.handBack (batchKv_refresh _)
          · rw [if_neg hlarge]
            exact hfits.handBack (batchKv_refresh _)
  | measured failed => exact hg
  | elsewhere => exact hg

/-- **What is handed to the model fits, what has been accumulated fits in the context, and a
summary has the longest preview with which it fits.** -/
theorem budget_kept (h : (machine fl).Reachable g) :
    (∀ kv, g.batchKv = some kv → 0 < g.batchBytes →
        (g.batchBytes : ℤ) ≤
          (g.limits.contextLimit : ℤ) - kv - g.limits.outputReserve - 256) ∧
      ∀ env result r g', g.process fl env result = (Except.ok r, g') →
        (Json.wireSize fl r : ℤ) ≤
            min (g.limits.maxResultBytes : ℤ) (g.available env.kv - 128) ∧
          (r = result ∨
            min (g.limits.maxResultBytes : ℤ) (g.available env.kv - 128) <
                Json.wireSize fl result ∧
              ∃ identifier n, n ≤ (Json.dumps fl result).length ∧
                r = summary fl result identifier n ∧
                ∀ m, n < m → m ≤ (Json.dumps fl result).length →
                  min (g.limits.maxResultBytes : ℤ) (g.available env.kv - 128) <
                    Json.wireSize fl (summary fl result identifier m)) := by
  have hfits : g.BatchFits := by
    refine h.invariant (I := BatchFits) ?_ fun g i _ hg => hg.step i
    rintro g ⟨-, hkv, hbytes⟩
    refine ⟨fun _ => hbytes, fun kv hsome => ?_⟩
    rw [hkv] at hsome
    cases hsome
  refine ⟨?_, fun env result r g' => process_cases⟩
  intro kv hkv hpos
  rcases hfits.2 kv hkv with hzero | hroom
  · exact absurd hzero (Nat.ne_of_gt hpos)
  · simp only [room] at hroom
    omega

/-- The default limits, with a result store or without one. -/
def defaults (hasStore : Bool) : ToolGuard where
  limits :=
    { maxCalls := 12, contextLimit := 4096, outputReserve := 512, maxResultBytes := 2048
      maxCalls_pos := by decide, maxResultBytes_ge := by decide, outputReserve_pos := by decide
      contextLimit_gt := by decide }
  hasStore := hasStore
  attempts := 0
  shared := none
  callsBefore := none
  ledgerCalls := 0
  ledgerFailed := false
  batchKv := none
  batchBytes := 0

/-- An open session, a clock that has not run out and a context of the given length. -/
def quiet (kv : ℕ) : GuardEnv := { kv := kv, active := true, expired := false, save := Except.ok [] }

theorem reachable_defaults (hasStore : Bool) (l : List Call) :
    (machine fl).Reachable ((machine fl).exec (defaults hasStore) l) :=
  Machine.Reachable.exec (m := machine fl) (Machine.Reach.of_init ⟨rfl, rfl, rfl⟩) l

/-- One result of four bytes. -/
def oneResult : List Call :=
  [Call.approve (quiet 100), Call.measured false, Call.process (quiet 100) (Json.bool true)]

/-- No number is written. -/
def noNumbers : ℚ → PyStr := fun _ => []

/-- A call has run while the context leaves two hundred bytes for its result. -/
def oneCall : ToolGuard :=
  (machine noNumbers).exec (defaults true) [Call.approve (quiet 3000), Call.measured false]

/-- A result of two hundred letters, which takes two bytes more. -/
def letters : Json := Json.str (List.replicate 200 (PyStr.ofChar 'a'))

/-- A result that fits is counted, and one that does not is replaced by a summary, for which one
letter more would be too long. -/
theorem budget_kept_oneResult :
    (((machine noNumbers).exec (defaults false) oneResult).batchBytes = 132 ∧
      (((machine noNumbers).exec (defaults false) oneResult).batchBytes : ℤ) ≤
        4096 - 100 - 512 - 256) ∧
      ∃ identifier n g', oneCall.process noNumbers (quiet 3000) letters =
          (Except.ok (summary noNumbers letters identifier n), g') ∧
        Json.wireSize noNumbers (summary noNumbers letters identifier n) ≤ 200 ∧
        200 < Json.wireSize noNumbers (summary noNumbers letters identifier (n + 1)) := by
  refine ⟨⟨by decide,
    (budget_kept (reachable_defaults false oneResult)).1 100 (by decide) (by decide)⟩, ?_⟩
  have hsize : Json.wireSize noNumbers letters = 202 := by decide +kernel
  have hlength : (Json.dumps noNumbers letters).length = 202 := by decide +kernel
  have hbudget : min (oneCall.limits.maxResultBytes : ℤ) (oneCall.available (quiet 3000).kv - 128) = 200 := by
    decide +kernel
  have hok : (oneCall.process noNumbers (quiet 3000) letters).1.isOk = true := by decide +kernel
  obtain ⟨r, g', hr⟩ : ∃ r g', oneCall.process noNumbers (quiet 3000) letters =
      (Except.ok r, g') := by
    cases hout : oneCall.process noNumbers (quiet 3000) letters with
    | mk out g' =>
        rw [hout] at hok
        cases out with
        | error message => cases hok
        | ok r => exact ⟨r, g', rfl⟩
  have hcall : (machine noNumbers).Reachable oneCall := reachable_defaults true _
  obtain ⟨hle, hsame | ⟨-, identifier, n, hn, rfl, hlast⟩⟩ :=
    (budget_kept hcall).2 (quiet 3000) letters r g' hr
  · rw [hbudget, hsame, hsize] at hle
    omega
  · rw [hbudget] at hle
    have hpreview := Json.length_le_escapedSize ((Json.dumps noNumbers letters).take n)
    have hsummary := @wireSize_summary noNumbers letters identifier n
    rw [List.length_take, min_eq_left hn] at hpreview
    have hnext := hlast (n + 1) (Nat.lt_succ_self n) (by omega)
    rw [hbudget] at hnext
    exact ⟨identifier, n, g', hr, by omega, by omega⟩

/-- **With nothing accumulated the bound of a batch may be negative.** -/
theorem not_batch_le : ¬ ∀ (fl : ℚ → PyStr) (g : ToolGuard), (machine fl).Reachable g →
    ∀ kv, g.batchKv = some kv → (g.batchBytes : ℤ) ≤
      (g.limits.contextLimit : ℤ) - kv - g.limits.outputReserve - 256 := by
  intro hall
  have h := hall (fun _ => []) _ (reachable_defaults false [Call.approve (quiet 4000)]) 4000
    (by decide)
  exact absurd h (by decide)

end ToolGuard

namespace ResultStore

variable {fl : ℚ → PyStr} {files : PyStr → Except PyStr PyStr} {text : PyStr} {offset length : ℕ}

/-! ### The size of a page -/

/-- Skipping in pieces is skipping. -/
theorem skipChars_eq (remaining : ℕ) (stream : PyStr) :
    skipChars remaining stream =
      if remaining ≤ stream.length then some (stream.drop remaining) else none := by
  fun_induction skipChars remaining stream with
  | case1 stream => simp
  | case2 remaining hremaining => simp [hremaining]
  | case3 remaining stream hremaining hstream ih =>
      have hpos : 0 < stream.length := List.length_pos_of_ne_nil hstream
      rw [ih, List.length_take, List.length_drop, List.drop_drop]
      by_cases hle : remaining ≤ stream.length
      · rw [if_pos (by omega), if_pos hle]
        congr 2
        omega
      · rw [if_neg (by omega), if_neg hle]

/-- `next_offset` of a page. -/
def nextOffset (text : PyStr) (offset length : ℕ) : Json :=
  if offset + length < text.length then Json.int (offset + length : ℕ) else Json.null

/-- **A page is a part of the text.** -/
theorem page_eq (hoffset : offset ≤ text.length) :
    page text offset length =
      Json.obj [("ok", Json.bool true), ("text", Json.str ((text.drop offset).take length)),
        ("next_offset", nextOffset text offset length)] := by
  unfold page
  rw [skipChars_eq, if_pos hoffset]
  simp only [nextOffset]
  by_cases hmore : offset + length < text.length
  · have hrest : ((((text.drop offset).drop length).take 1).isEmpty) = false := by
      rw [List.isEmpty_eq_false_iff, ← List.length_pos_iff]
      simp only [List.length_take, List.length_drop]
      omega
    have hpart : ((text.drop offset).take length).length = length := by
      rw [List.length_take, List.length_drop]
      omega
    rw [hrest, if_pos hmore, hpart]
    rfl
  · have hrest : ((((text.drop offset).drop length).take 1).isEmpty) = true := by
      rw [List.isEmpty_iff_length_eq_zero]
      simp only [List.length_take, List.length_drop]
      omega
    rw [hrest, if_neg hmore]
    rfl

/-- How many bytes `next_offset` takes. -/
def nextSize (text : PyStr) (offset length : ℕ) : ℕ :=
  if offset + length < text.length then (Nat.toDigits 10 (offset + length)).length else 4

/-- The characters of a page leave room for the envelope. -/
def PageFits (text : PyStr) (offset length : ℕ) : Prop :=
  Json.escapedSize ((text.drop offset).take length) + nextSize text offset length ≤ 2012

theorem wireSize_nextOffset :
    PyStr.utf8Length (Json.ascii fl (nextOffset text offset length)) =
      nextSize text offset length := by
  unfold nextOffset nextSize
  split_ifs with hmore
  · have hdigits : ∀ c ∈ (Nat.toDigits 10 (offset + length)).map PyStr.ofChar,
        PyStr.utf8Size c = 1 := by
      intro c hc
      have h := Json.isDigit_of_mem_toDigits hc
      simp only [Json.isDigit, Bool.and_eq_true, decide_eq_true_eq] at h
      unfold PyStr.utf8Size
      rw [if_pos (by omega)]
    have hsum : ∀ s : PyStr, (∀ c ∈ s, PyStr.utf8Size c = 1) → PyStr.utf8Length s = s.length := by
      intro s hs
      induction s with
      | nil => rfl
      | cons c s ih =>
          rw [PyStr.utf8Length_cons, hs c (List.mem_cons_self ..), List.length_cons,
            ih fun d hd => hs d (List.mem_cons_of_mem _ hd), Nat.add_comm]
    have htext : PyStr.ofString (toString ((offset + length : ℕ) : ℤ)) =
        (Nat.toDigits 10 (offset + length)).map PyStr.ofChar := Json.ofString_toString_nat _
    simp only [Json.ascii]
    rw [htext, hsum _ hdigits, List.length_map]
  · simp only [Json.ascii]
    decide

/-- **What a page takes on the wire.** -/
theorem wireSize_page (hoffset : offset ≤ text.length) :
    Json.wireSize fl (page text offset length) =
      Json.escapedSize ((text.drop offset).take length) + nextSize text offset length + 36 := by
  rw [page_eq hoffset]
  simp only [Json.wireSize, Json.ascii, Json.asciiItems, Json.commaJoin, PyStr.utf8Length_append,
    wireSize_nextOffset, Json.utf8Length_asciiEscape]
  have hopen : PyStr.utf8Length (PyStr.ofString "\x7b") = 1 := by decide
  have hclose : PyStr.utf8Length (PyStr.ofString "\x7d") = 1 := by decide
  have hcolon : PyStr.utf8Length (PyStr.ofString ":") = 1 := by decide
  have hcomma : PyStr.utf8Length (PyStr.ofString ",") = 1 := by decide
  have htrue : PyStr.utf8Length (PyStr.ofString "true") = 4 := by decide
  have hok : Json.escapedSize (PyStr.ofString "ok") = 2 := by decide
  have htext : Json.escapedSize (PyStr.ofString "text") = 4 := by decide
  have hnext : Json.escapedSize (PyStr.ofString "next_offset") = 11 := by decide
  simp only [hopen, hclose, hcolon, hcomma, htrue, hok, htext, hnext]
  omega

/-! ### Pages and the guard -/

/-- The page of a valid request. -/
theorem readToolResult_eq {identifier : PyStr} (hlength : identifier.length = 32)
    (hdigits : identifier.all isHexDigit = true)
    (hfile : files (identifier ++ PyStr.ofString ".json") = Except.ok text)
    (hpos : 1 ≤ length) (hmax : length ≤ 512) :
    readToolResult files (Json.str identifier) (Json.int offset) (Json.int length) =
      page text offset length := by
  have hid : ¬ (identifier.length ≠ 32 ∨ identifier.all isHexDigit = false) := by
    rintro (h | h)
    · exact h hlength
    · rw [hdigits] at h
      cases h
  have hrange : ¬ ((offset : ℤ) < 0 ∨ (length : ℤ) < 1 ∨ (512 : ℤ) < length) := by omega
  simp only [readToolResult]
  rw [if_neg hid, if_neg hrange, hfile]
  rfl

/-- **With the default limit and enough context, the page of a saved result passes
the guard as it is exactly if its characters leave room for the envelope.** -/
theorem page_unmodified_iff {g : ToolGuard} {env : GuardEnv} {identifier : PyStr} {value : Json}
    (hlength : identifier.length = 32) (hdigits : identifier.all isHexDigit = true)
    (hfile : files (identifier ++ PyStr.ofString ".json") = Except.ok (Json.dumps fl value))
    (hoffset : offset ≤ (Json.dumps fl value).length) (hpos : 1 ≤ length) (hmax : length ≤ 512)
    (hcalls : g.callsBefore.isSome = true) (hlimit : g.limits.maxResultBytes = 2048)
    (hroom : 2048 + 128 ≤ g.available env.kv) (hactive : env.active = true)
    (hexpired : env.expired = false) :
    (g.process fl env (readToolResult files (Json.str identifier) (Json.int offset)
          (Json.int length))).1 =
        Except.ok (readToolResult files (Json.str identifier) (Json.int offset)
          (Json.int length)) ↔
      PageFits (Json.dumps fl value) offset length := by
  rw [readToolResult_eq hlength hdigits hfile hpos hmax]
  have hbudget : min (g.limits.maxResultBytes : ℤ) (g.available env.kv - 128) = 2048 := by
    rw [hlimit]
    omega
  constructor
  · intro hpass
    have hfits := (ToolGuard.process_cases (Prod.ext hpass rfl)).1
    rw [hbudget, wireSize_page hoffset] at hfits
    unfold PageFits
    omega
  · intro hfits
    obtain ⟨before, hbefore⟩ := Option.isSome_iff_exists.1 hcalls
    have hsmall : ¬ ((2048 : ℤ) < Json.wireSize fl (page (Json.dumps fl value) offset length)) := by
      rw [wireSize_page hoffset]
      unfold PageFits at hfits
      omega
    simp only [ToolGuard.process, hbefore, ToolGuard.budget_refresh, hbudget]
    rw [if_neg hsmall]
    simp only [ToolGuard.handBack]
    rw [if_neg hsmall, hactive, hexpired]
    rfl

/-- A valid identifier. -/
def sampleId : PyStr := List.replicate 32 (PyStr.ofChar '0')

/-- A guard that has approved one call, in a context of a hundred tokens. -/
def approved : ToolGuard :=
  (ToolGuard.machine fun _ => []).exec (ToolGuard.defaults true)
    [ToolGuard.Call.approve (ToolGuard.quiet 100)]

theorem page_unmodified_short :
    (approved.process (fun _ => []) (ToolGuard.quiet 100)
        (readToolResult (fun _ => Except.ok "true") (Json.str sampleId) (Json.int (0 : ℕ))
          (Json.int (512 : ℕ)))).1 =
      Except.ok (readToolResult (fun _ => Except.ok "true") (Json.str sampleId) (Json.int (0 : ℕ))
        (Json.int (512 : ℕ))) :=
  (@page_unmodified_iff _ _ _ _ _ _ _ (Json.bool true) (by decide) (by decide) rfl (by decide) (by decide)
    (by decide) (by decide) rfl (by decide) rfl rfl).2 (by unfold PageFits; decide)

/-- A text of six hundred Cyrillic letters. -/
def letters : Json := Json.str (List.replicate 600 ⟨0x44F, by decide⟩)

theorem not_pageFits_letters : ¬ PageFits (Json.dumps (fun _ => []) letters) 1 512 := by
  have hbody : ∀ n, (List.replicate n (⟨0x44F, by decide⟩ : CodePoint)).flatMap Json.escapeChar =
      List.replicate n ⟨0x44F, by decide⟩ := by
    intro n
    induction n with
    | zero => rfl
    | succ n ih =>
        rw [List.replicate_succ, List.flatMap_cons, ih]
        rfl
  have hpart : ((Json.dumps (fun _ => []) letters).drop 1).take 512 =
      List.replicate 512 ⟨0x44F, by decide⟩ := by
    have htext : Json.dumps (fun _ => []) letters = PyStr.ofString "\"" ++
        (List.replicate 600 ⟨0x44F, by decide⟩ ++ PyStr.ofString "\"") := by
      rw [letters, Json.dumps, Json.escape, hbody, List.append_assoc]
    rw [htext, List.drop_left' (show (PyStr.ofString "\"").length = 1 from rfl),
      List.take_append_of_le_length (by rw [List.length_replicate]; decide), List.take_replicate]
    rfl
  unfold PageFits
  have hsize : Json.asciiSize ⟨0x44F, by decide⟩ = 6 := by decide
  rw [hpart, Json.escapedSize_replicate, hsize]
  omega

/-- **A page of letters outside ASCII may be truncated in its turn.** -/
theorem not_pages_unmodified : ¬ ∀ (fl : ℚ → PyStr) (files : PyStr → Except PyStr PyStr)
    (g : ToolGuard) (env : GuardEnv) (identifier : PyStr) (value : Json) (offset length : ℕ),
    (ToolGuard.machine fl).Reachable g → identifier.length = 32 →
    identifier.all isHexDigit = true →
    files (identifier ++ PyStr.ofString ".json") = Except.ok (Json.dumps fl value) →
    offset ≤ (Json.dumps fl value).length → 1 ≤ length → length ≤ 512 →
    g.callsBefore.isSome = true → g.limits.maxResultBytes = 2048 →
    (g.refresh env.kv).batchBytes = 0 → 2048 + 128 ≤ g.available env.kv → env.active = true →
    env.expired = false →
    (g.process fl env (readToolResult files (Json.str identifier) (Json.int offset)
          (Json.int length))).1 =
        Except.ok (readToolResult files (Json.str identifier) (Json.int offset)
          (Json.int length)) := by
  intro hall
  have hoffset : 1 ≤ (Json.dumps (fun _ => []) letters).length := by
    have hquote : (PyStr.ofString "\"").length = 1 := rfl
    rw [letters, Json.dumps, Json.escape, List.append_assoc, List.length_append, hquote]
    exact Nat.le_add_right _ _
  have hpass := hall (fun _ => []) (fun _ => Except.ok (Json.dumps (fun _ => []) letters)) approved
    (ToolGuard.quiet 100) sampleId letters 1 512 (ToolGuard.reachable_defaults true _) (by decide)
    (by decide) rfl hoffset (by decide) (by decide) (by decide) rfl (by decide) (by decide) rfl rfl
  have hfits := (ToolGuard.process_cases (Prod.ext hpass rfl)).1
  have hbudget : min (approved.limits.maxResultBytes : ℤ) (approved.available 100 - 128) = 2048 := by
    decide
  have hpage : readToolResult (fun _ => Except.ok (Json.dumps (fun _ => []) letters))
      (Json.str sampleId) (Json.int (1 : ℕ)) (Json.int (512 : ℕ)) =
        page (Json.dumps (fun _ => []) letters) 1 512 :=
    readToolResult_eq (by decide) (by decide) rfl (by decide) (by decide)
  rw [hpage, wireSize_page hoffset] at hfits
  refine not_pageFits_letters ?_
  unfold PageFits
  have hle := hfits.trans hbudget.le
  omega

end ResultStore
