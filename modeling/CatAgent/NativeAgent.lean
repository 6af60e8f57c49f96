/-
**Native agents and their dialogues.**

An agent owns a prewarmed base conversation and one working clone of it.  A task is one question to
the clone; afterwards the clone is replaced by a fresh one.  A background task is a chain of slices
that share one clone, and only the last slice, a failure or an abort replaces it.  Replacing the
clone can fail itself, and then the agent is out of use.

The inference runtime, the tools and the close of an old clone are the outside world: what they do
in one call is the value of type `AgentEnv` that the call is given.

Main definitions:

* `Dialogue`, `ConversationChat` — a clone with what was sent to it, and `NativeConversationChat`;
* `ConversationChat.ask`, `ConversationChat.newDialogue` — one question, and a fresh clone;
* `NativeAgent.run`, `NativeAgent.runSlice`, `NativeAgent.abortSlices` — the agent;
* `AgentRecord` — an agent with a record of its last slice and of failed resets;
* `NativeAgent.machine` — any sequence of calls.

Main results:

* `AgentRecord.settled_of_reachable` — the invariant of an open agent;
* `NativeAgent.fresh_of_reachable` — **a free agent has an unused clone, a waiting one the clone of
  its last slice, and a failed one stays failed**;
* `NativeAgent.not_waits_iff_resident` — but a failed agent may still hold the clone of a slice.
-/

import CatAgent.PyStr
import CatAgent.Host
import CatAgent.Machine

set_option relaxedAutoImplicit false
set_option autoImplicit false

/-! ### Dialogues -/

/-- A clone of the base conversation: which one it is, how long its context was when it was made,
and what has been sent to it. -/
structure Dialogue where
  clone : ℕ
  kv : Option ℕ
  sent : List PyStr
deriving DecidableEq

/-- `NativeConversationChat`, as far as the agents use it. -/
structure ConversationChat where
  closed : Bool
  baseKvTokens : Option ℕ
  /-- How many clones have been made. -/
  clones : ℕ
  working : Option Dialogue
deriving DecidableEq

/-- What the outside world does in one call. -/
structure AgentEnv where
  /-- `native_picture_message`, before anything is sent. -/
  picture : Except PyStr Unit
  /-- `send_message` and `response_text`. -/
  send : Except PyStr PyStr
  /-- `execution_status_code` is not zero: a tool of the turn has failed. -/
  toolsFailed : Bool
  /-- `working_kv_tokens` afterwards. -/
  kv : Option ℕ
  /-- `clone_conversation`, with the context length of the clone. -/
  clone : Except PyStr (Option ℕ)
  /-- `old.close()`. -/
  closeOld : Except PyStr Unit

namespace ConversationChat

/-- A surrogate in upper case hexadecimal digits; it has four of them. -/
def upperHex (c : CodePoint) : PyStr :=
  ((Nat.toDigits 16 c.val).map Char.toUpper).map PyStr.ofChar

/-- The text of `InvalidUserTextError`, which names the first surrogate. -/
def invalidUnicode (question : PyStr) : PyStr :=
  let start := question.findIdx PyStr.isSurrogate
  PyStr.ofString "Invalid Unicode U+" ++ upperHex (question.getD start 0) ++
    PyStr.ofString " at character " ++ PyStr.ofString (toString start) ++
    PyStr.ofString "; re-enter the request (terminal UTF-8 input was corrupted)."

/-- What is wrong with a question before anything is sent. -/
def askError (chat : ConversationChat) (question : PyStr) : Option PyStr :=
  if chat.closed || chat.working.isNone then some "Conversation is closed"
  else if (PyStr.strip question).isEmpty then some "Question must not be empty"
  else if PyStr.Encodable question then none
  else some (invalidUnicode question)

/-- The clone has been sent a question. -/
def use (question : PyStr) (chat : ConversationChat) : ConversationChat :=
  { chat with working := chat.working.map fun d => { d with sent := d.sent ++ [question] } }

/-- `ask(question)`. -/
def ask (env : AgentEnv) (question : PyStr) (chat : ConversationChat) :
    Except PyStr PyStr × ConversationChat :=
  match chat.askError question with
  | some message => (Except.error message, chat)
  | none =>
      match env.picture with
      | Except.error message => (Except.error message, chat)
      | Except.ok () => (env.send, chat.use question)

/-- `str(kv)`. -/
def showTokens : Option ℕ → PyStr
  | none => "None"
  | some n => PyStr.ofString (toString n)

/-- `_clone_base()`: the context length of a clone has to be that of the base. -/
def cloneBase (env : AgentEnv) (chat : ConversationChat) : Except PyStr Dialogue :=
  match env.clone with
  | Except.error message => Except.error message
  | Except.ok kv =>
      if kv = chat.baseKvTokens then Except.ok { clone := chat.clones, kv := kv, sent := [] }
      else
        Except.error
          (PyStr.ofString "Cloned KV length " ++ showTokens kv ++
            PyStr.ofString " does not match warmed BASE " ++ showTokens chat.baseKvTokens)

/-- `new_dialogue()`. -/
def newDialogue (env : AgentEnv) (chat : ConversationChat) :
    Except PyStr Unit × ConversationChat :=
  if chat.closed then (Except.error "Conversation is closed", chat)
  else
    match chat.cloneBase env with
    | Except.error message => (Except.error message, { chat with clones := chat.clones + 1 })
    | Except.ok fresh =>
        -- The fresh clone is in place before the old one is closed.
        (if chat.working.isSome then env.closeOld else Except.ok (),
          { chat with working := some fresh, clones := chat.clones + 1 })

/-- `close()`. -/
def close (chat : ConversationChat) : ConversationChat :=
  { chat with closed := true, working := none }

end ConversationChat

/-! ### Agents -/

/-- `AgentState`. -/
inductive AgentState where
  | free
  | running
  | waiting
  | failed
deriving DecidableEq

/-- `AgentState.value`. -/
def AgentState.value : AgentState → PyStr
  | free => "FREE"
  | running => "RUNNING"
  | waiting => "WAITING"
  | failed => "FAILED"

/-- `AgentOutcome`. -/
structure NativeAgent.AgentOutcome where
  agentId : PyStr
  state : AgentState
  text : PyStr
  kvBeforeReset : Option ℕ
  statusCode : ℤ
deriving DecidableEq

/-- The exceptions of an agent. -/
inductive AgentError where
  | unavailable (agentId : PyStr) (state : AgentState)
  | emptyTask
  | emptySlice
  | resetFailed (agentId message : PyStr)
  | stillRunning (agentId : PyStr)
deriving DecidableEq

/-- `str(exc)`. -/
def AgentError.text : AgentError → PyStr
  | unavailable agentId state => agentId ++ PyStr.ofString " is not available: " ++ state.value
  | emptyTask => "Agent task must not be empty"
  | emptySlice => "Background slice must not be empty"
  | resetFailed agentId message => agentId ++ PyStr.ofString " reset failed: " ++ message
  | stillRunning agentId => agentId ++ PyStr.ofString " is still running"

/-- `NativeAgent`. -/
structure NativeAgent where
  agentId : PyStr
  chat : ConversationChat
  state : AgentState
  closed : Bool
deriving DecidableEq

namespace NativeAgent

/-- The question of a task or a slice: its text, or why it failed. -/
def inference (env : AgentEnv) (question : PyStr) (agent : NativeAgent) :
    Except PyStr PyStr × ConversationChat :=
  match agent.chat.ask env question with
  | (Except.error message, chat) => (Except.error message, chat)
  | (Except.ok text, chat) =>
      if env.toolsFailed then (Except.error "One or more native tools failed", chat)
      else (Except.ok text, chat)

/-- The outcome of a task or a slice that left the agent in the given state. -/
def outcome (env : AgentEnv) (agent : NativeAgent) (state : AgentState) :
    Except PyStr PyStr → NativeAgent.AgentOutcome
  | Except.error message =>
      { agentId := agent.agentId, state := AgentState.failed, text := message
        kvBeforeReset := env.kv, statusCode := 1 }
  | Except.ok text =>
      { agentId := agent.agentId, state := state, text := text
        kvBeforeReset := env.kv, statusCode := 0 }

/-- The dialogue is replaced; the agent is free afterwards, or it has failed. -/
def reset (env : AgentEnv) (agent : NativeAgent) (chat : ConversationChat) :
    Except AgentError Unit × NativeAgent :=
  match chat.newDialogue env with
  | (Except.error message, chat) =>
      (Except.error (AgentError.resetFailed agent.agentId message),
        { agent with chat := chat, state := AgentState.failed })
  | (Except.ok (), chat) => (Except.ok (), { agent with chat := chat, state := AgentState.free })

/-- `run(task)`. -/
def run (env : AgentEnv) (task : PyStr) (agent : NativeAgent) :
    Except AgentError NativeAgent.AgentOutcome × NativeAgent :=
  if agent.closed ∨ agent.state ≠ AgentState.free then
    (Except.error (AgentError.unavailable agent.agentId agent.state), agent)
  else if (PyStr.strip task).isEmpty then (Except.error AgentError.emptyTask, agent)
  else
    let agent := { agent with state := AgentState.running }
    let (content, chat) := agent.inference env task
    match agent.reset env chat with
    | (Except.error e, agent) => (Except.error e, agent)
    | (Except.ok (), agent) => (Except.ok (agent.outcome env AgentState.free content), agent)

/-- `run_slice(instruction, final=final)`. -/
def runSlice (env : AgentEnv) (instruction : PyStr) (final : Bool) (agent : NativeAgent) :
    Except AgentError NativeAgent.AgentOutcome × NativeAgent :=
  if agent.closed ∨ ¬ (agent.state = AgentState.free ∨ agent.state = AgentState.waiting) then
    (Except.error (AgentError.unavailable agent.agentId agent.state), agent)
  else if (PyStr.strip instruction).isEmpty then (Except.error AgentError.emptySlice, agent)
  else
    let agent := { agent with state := AgentState.running }
    let (text, chat) := agent.inference env instruction
    if !text.isOk || final then
      match agent.reset env chat with
      | (Except.error e, agent) => (Except.error e, agent)
      | (Except.ok (), agent) => (Except.ok (agent.outcome env AgentState.free text), agent)
    else
      (Except.ok (agent.outcome env AgentState.waiting text),
        { agent with chat := chat, state := AgentState.waiting })

/-- `abort_slices()`. -/
def abortSlices (env : AgentEnv) (agent : NativeAgent) : Except AgentError Unit × NativeAgent :=
  if agent.closed then (Except.ok (), agent)
  else
    match agent.state with
    | AgentState.running => (Except.error (AgentError.stillRunning agent.agentId), agent)
    | AgentState.waiting => agent.reset env agent.chat
    | _ => (Except.ok (), agent)

/-- `close()`. -/
def close (agent : NativeAgent) : NativeAgent :=
  if agent.closed then agent else { agent with closed := true, chat := agent.chat.close }

/-- A call of the agent. -/
inductive Call where
  | run (env : AgentEnv) (task : PyStr)
  | runSlice (env : AgentEnv) (instruction : PyStr) (final : Bool)
  | abortSlices (env : AgentEnv)
  | close

end NativeAgent

/-! ### Any sequence of calls -/

/-- A slice that ran: whether it was the last one of its chain, whether it succeeded, and the clone
that it used. -/
structure Slice where
  final : Bool
  succeeded : Bool
  clone : Option ℕ
deriving DecidableEq

/-- An agent, the last slice that it ran, and whether a reset of its dialogue has failed. -/
structure AgentRecord where
  agent : NativeAgent
  lastSlice : Option Slice
  resetFailed : Bool
deriving DecidableEq

namespace AgentRecord

/-- The clone that the agent now works with. -/
def resident (s : AgentRecord) : Option ℕ := s.agent.chat.working.map Dialogue.clone

/-- The exception says that a reset has failed. -/
def isResetFailed {α : Type} : Except AgentError α → Bool
  | Except.error (AgentError.resetFailed _ _) => true
  | _ => false

/-- `outcome.status_code == 0`, if the slice returned. -/
def isSuccess : Except AgentError NativeAgent.AgentOutcome → Bool
  | Except.ok outcome => outcome.statusCode == 0
  | _ => false

/-- The call was refused before the question was asked. -/
def isRefused : Except AgentError NativeAgent.AgentOutcome → Bool
  | Except.error (AgentError.unavailable _ _) => true
  | Except.error AgentError.emptySlice => true
  | _ => false

/-- One call. -/
def step (s : AgentRecord) : NativeAgent.Call → AgentRecord
  | NativeAgent.Call.run env task =>
      let r := s.agent.run env task
      { s with agent := r.2, resetFailed := s.resetFailed || isResetFailed r.1 }
  | NativeAgent.Call.runSlice env instruction final =>
      let r := s.agent.runSlice env instruction final
      { agent := r.2
        lastSlice :=
          if isRefused r.1 then s.lastSlice
          else some { final := final, succeeded := isSuccess r.1, clone := s.resident }
        resetFailed := s.resetFailed || isResetFailed r.1 }
  | NativeAgent.Call.abortSlices env =>
      let r := s.agent.abortSlices env
      { s with agent := r.2, resetFailed := s.resetFailed || isResetFailed r.1 }
  | NativeAgent.Call.close => { s with agent := s.agent.close }

end AgentRecord

/-- Any sequence of calls, from an agent with a fresh clone of its base. -/
def NativeAgent.machine : Machine AgentRecord NativeAgent.Call where
  init := fun s => ∃ agentId kv, s =
    { agent :=
        { agentId := agentId
          chat :=
            { closed := false, baseKvTokens := kv, clones := 1
              working := some { clone := 0, kv := kv, sent := [] } }
          state := AgentState.free
          closed := false }
      lastSlice := none
      resetFailed := false }
  step := AgentRecord.step

/-! ### What the operations do -/

namespace ConversationChat

/-- The chat with a fresh clone. -/
def fresh (chat : ConversationChat) : ConversationChat :=
  { chat with
    working := some { clone := chat.clones, kv := chat.baseKvTokens, sent := [] }
    clones := chat.clones + 1 }

/-- The two chats work with the same clone, whatever was sent to it. -/
def SameClone (chat chat' : ConversationChat) : Prop :=
  chat'.closed = chat.closed ∧ chat'.baseKvTokens = chat.baseKvTokens ∧
    chat'.clones = chat.clones ∧
    chat'.working.map Dialogue.clone = chat.working.map Dialogue.clone

variable {env : AgentEnv} {question : PyStr} {chat : ConversationChat}

theorem sameClone_refl (chat : ConversationChat) : chat.SameClone chat := ⟨rfl, rfl, rfl, rfl⟩

theorem sameClone_use : chat.SameClone (chat.use question) := by
  refine ⟨rfl, rfl, rfl, ?_⟩
  cases h : chat.working <;> simp [use, h]

/-- A question leaves the clone in place. -/
theorem sameClone_ask : chat.SameClone (chat.ask env question).2 := by
  unfold ask
  cases chat.askError question with
  | some message => exact sameClone_refl chat
  | none =>
      cases env.picture with
      | error message => exact sameClone_refl chat
      | ok u => exact sameClone_use

/-- **A reset puts a fresh clone in place, or it fails; then the old clone may still be there.** -/
theorem newDialogue_cases (hopen : chat.closed = false) :
    chat.newDialogue env = (Except.ok (), chat.fresh) ∨
      ∃ message chat', chat.newDialogue env = (Except.error message, chat') ∧
        (chat' = { chat with clones := chat.clones + 1 } ∨ chat' = chat.fresh) := by
  unfold newDialogue
  rw [if_neg (by rw [hopen]; decide)]
  cases hclone : chat.cloneBase env with
  | error message => exact Or.inr ⟨message, _, rfl, Or.inl rfl⟩
  | ok d =>
      have hd : d = { clone := chat.clones, kv := chat.baseKvTokens, sent := [] } := by
        unfold cloneBase at hclone
        cases henv : env.clone with
        | error message =>
            rw [henv] at hclone
            cases hclone
        | ok kv =>
            rw [henv] at hclone
            by_cases hkv : kv = chat.baseKvTokens
            · simp only [hkv, if_true, Except.ok.injEq] at hclone
              exact hclone.symm
            · simp only [hkv, if_false] at hclone
              cases hclone
      subst hd
      cases hold : (if chat.working.isSome = true then env.closeOld else Except.ok ()) with
      | ok u => exact Or.inl (by rw [← hold]; rfl)
      | error message => exact Or.inr ⟨message, _, by rw [← hold]; rfl, Or.inr rfl⟩

end ConversationChat

namespace NativeAgent

variable {env : AgentEnv} {question : PyStr} {agent : NativeAgent} {chat : ConversationChat}

theorem sameClone_inference : agent.chat.SameClone (agent.inference env question).2 := by
  have h := @ConversationChat.sameClone_ask env question agent.chat
  unfold inference
  cases hask : agent.chat.ask env question with
  | mk r chat =>
      rw [hask] at h
      cases r with
      | error message => exact h
      | ok text => cases env.toolsFailed <;> exact h

/-- After a reset the agent is free with a fresh clone, or it has failed. -/
theorem reset_cases (hopen : chat.closed = false) :
    agent.reset env chat =
        (Except.ok (), { agent with chat := chat.fresh, state := AgentState.free }) ∨
      ∃ message chat', agent.reset env chat =
          (Except.error (AgentError.resetFailed agent.agentId message),
            { agent with chat := chat', state := AgentState.failed }) ∧
        (chat' = { chat with clones := chat.clones + 1 } ∨ chat' = chat.fresh) := by
  unfold reset
  rcases @ConversationChat.newDialogue_cases env chat hopen with h | ⟨message, chat', h, hchat⟩
  · exact Or.inl (by rw [h])
  · exact Or.inr ⟨message, chat', by rw [h], hchat⟩

/-- A reset leaves the `closed` flag alone. -/
theorem closed_reset : (agent.reset env chat).2.closed = agent.closed := by
  unfold reset
  cases chat.newDialogue env with
  | mk r chat => cases r <;> rfl

/-- **A task is refused, or it is one question and a reset.** -/
theorem run_cases {task : PyStr} :
    (∃ e, agent.run env task = (Except.error e, agent) ∧
        AgentRecord.isResetFailed (Except.error e : Except AgentError AgentOutcome) = false) ∨
      agent.state = AgentState.free ∧ ∃ agent' chat, agent.chat.SameClone chat ∧
        (agent.run env task).2 = (NativeAgent.reset env agent' chat).2 ∧
        AgentRecord.isResetFailed (agent.run env task).1 =
          AgentRecord.isResetFailed (NativeAgent.reset env agent' chat).1 ∧
        agent'.closed = agent.closed := by
  unfold run
  by_cases hfree : agent.closed = true ∨ agent.state ≠ AgentState.free
  · rw [if_pos hfree]
    exact Or.inl ⟨_, rfl, rfl⟩
  rw [if_neg hfree]
  by_cases hempty : (PyStr.strip task).isEmpty = true
  · rw [if_pos hempty]
    exact Or.inl ⟨_, rfl, rfl⟩
  rw [if_neg hempty]
  push Not at hfree
  obtain ⟨agent', hagent⟩ : ∃ agent' : NativeAgent,
      agent' = { agent with state := AgentState.running } := ⟨_, rfl⟩
  rw [← hagent]
  have hsame := @sameClone_inference env task agent'
  refine Or.inr ⟨hfree.2, agent', (agent'.inference env task).2, ?_, ?_, ?_, ?_⟩
  · rwa [hagent] at hsame ⊢
  · simp only
    cases agent'.reset env (agent'.inference env task).2 with
    | mk r a => cases r <;> rfl
  · simp only
    cases agent'.reset env (agent'.inference env task).2 with
    | mk r a =>
        cases r with
        | error e => cases e <;> rfl
        | ok u => rfl
  · rw [hagent]

/-- **A slice is refused, or it is one question and a reset, or one question that succeeded.** -/
theorem runSlice_cases {instruction : PyStr} {final : Bool} :
    (∃ e, agent.runSlice env instruction final = (Except.error e, agent) ∧
        AgentRecord.isRefused (Except.error e) = true ∧
        AgentRecord.isResetFailed (Except.error e : Except AgentError AgentOutcome) = false) ∨
      agent.state ≠ AgentState.failed ∧
        ((∃ agent' chat, agent.chat.SameClone chat ∧
            (agent.runSlice env instruction final).2 = (NativeAgent.reset env agent' chat).2 ∧
            AgentRecord.isRefused (agent.runSlice env instruction final).1 = false ∧
            AgentRecord.isResetFailed (agent.runSlice env instruction final).1 =
              AgentRecord.isResetFailed (NativeAgent.reset env agent' chat).1 ∧
            agent'.closed = agent.closed) ∨
          ∃ outcome chat, agent.chat.SameClone chat ∧
            agent.runSlice env instruction final =
              (Except.ok outcome, { agent with chat := chat, state := AgentState.waiting }) ∧
            outcome.statusCode = 0 ∧ final = false) := by
  unfold runSlice
  by_cases havailable : agent.closed = true ∨
      ¬ (agent.state = AgentState.free ∨ agent.state = AgentState.waiting)
  · rw [if_pos havailable]
    exact Or.inl ⟨_, rfl, rfl, rfl⟩
  rw [if_neg havailable]
  by_cases hempty : (PyStr.strip instruction).isEmpty = true
  · rw [if_pos hempty]
    exact Or.inl ⟨_, rfl, rfl, rfl⟩
  rw [if_neg hempty]
  have hstate : agent.state ≠ AgentState.failed := by
    intro hfailed
    exact havailable (Or.inr (by rw [hfailed]; decide))
  refine Or.inr ⟨hstate, ?_⟩
  -- The question is asked in the conversation of the agent, which then runs.
  obtain ⟨agent', hagent⟩ : ∃ agent' : NativeAgent,
      agent' = { agent with state := AgentState.running } := ⟨_, rfl⟩
  rw [← hagent]
  have hsame : agent.chat.SameClone (agent'.inference env instruction).2 := by
    have h := @sameClone_inference env instruction agent'
    rwa [hagent] at h ⊢
  cases htext : agent'.inference env instruction with
  | mk text chat =>
      rw [htext] at hsame
      simp only [htext]
      -- After a failure or the last step the conversation is replaced.
      by_cases hreset : (!text.isOk || final) = true
      · rw [if_pos hreset]
        refine Or.inl ⟨agent', chat, hsame, ?_, ?_, ?_, by rw [hagent]⟩
        · cases agent'.reset env chat with
          | mk r a => cases r <;> rfl
        · rcases hr : agent'.reset env chat with ⟨r, a⟩
          cases r with
          | error e =>
              rw [reset] at hr
              cases hnew : chat.newDialogue env with
              | mk x c =>
                  rw [hnew] at hr
                  cases x <;> cases hr
                  rfl
          | ok u => rfl
        · cases agent'.reset env chat with
          | mk r a =>
              cases r with
              | error e => cases e <;> rfl
              | ok u => rfl
      · cases text with
        | error message => exact absurd rfl hreset
        | ok text =>
            have hfinal : final = false := by
              cases final with
              | true => exact absurd rfl hreset
              | false => rfl
            subst hfinal
            exact Or.inr ⟨_, chat, hsame, by rw [if_neg hreset, hagent], rfl, rfl⟩

theorem closed_run {task : PyStr} : (agent.run env task).2.closed = agent.closed := by
  rcases @run_cases env agent task with ⟨e, h, -⟩ | ⟨-, a, chat, -, h, -, ha⟩
  · rw [h]
  · rw [h, closed_reset, ha]

theorem closed_runSlice {instruction : PyStr} {final : Bool} :
    (agent.runSlice env instruction final).2.closed = agent.closed := by
  rcases @runSlice_cases env agent instruction final with
    ⟨e, h, -⟩ | ⟨-, ⟨a, chat, -, h, -, -, ha⟩ | ⟨outcome, chat, -, h, -⟩⟩
  · rw [h]
  · rw [h, closed_reset, ha]
  · rw [h]

theorem closed_abortSlices : (agent.abortSlices env).2.closed = agent.closed := by
  unfold abortSlices
  split_ifs
  · rfl
  · cases agent.state with
    | waiting => exact closed_reset
    | _ => rfl

/-- A failed agent refuses to run a task, and stays as it is. -/
theorem run_of_failed (h : agent.state = AgentState.failed) :
    agent.run env question =
      (Except.error (AgentError.unavailable agent.agentId AgentState.failed), agent) := by
  unfold run
  rw [if_pos (Or.inr (by rw [h]; decide)), h]

/-- A failed agent refuses to run a slice, and stays as it is. -/
theorem runSlice_of_failed {final : Bool} (h : agent.state = AgentState.failed) :
    agent.runSlice env question final =
      (Except.error (AgentError.unavailable agent.agentId AgentState.failed), agent) := by
  unfold runSlice
  rw [if_pos (Or.inr (by rw [h]; decide)), h]

/-- A failed agent has no slices to discard. -/
theorem abortSlices_of_failed (h : agent.state = AgentState.failed) :
    agent.abortSlices env = (Except.ok (), agent) := by
  unfold abortSlices
  split_ifs
  · rfl
  · rw [h]

end NativeAgent

namespace AgentRecord

/-! ### The invariant of an open agent -/

/-- The last slice succeeded, was not the last of its chain, and its clone is still resident. -/
def Suspended (s : AgentRecord) : Prop :=
  ∃ slice, s.lastSlice = some slice ∧ slice.succeeded = true ∧ slice.final = false ∧
    slice.clone = s.resident

/-- No slice has used a clone that is yet to be made. -/
def SlicesOld (s : AgentRecord) : Prop :=
  ∀ slice, s.lastSlice = some slice → ∀ n, s.agent.chat.clones ≤ n → slice.clone ≠ some n

/-- What the state of an agent says about its dialogue. -/
def Tells (s : AgentRecord) (d : Dialogue) : AgentState → Prop
  | AgentState.free =>
      s.resetFailed = false ∧ d.sent = [] ∧ d.kv = s.agent.chat.baseKvTokens ∧ ¬ s.Suspended
  | AgentState.running => False
  | AgentState.waiting => s.resetFailed = false ∧ s.Suspended
  | AgentState.failed => s.resetFailed = true

/-- The invariant of an open agent. -/
structure Settled (s : AgentRecord) : Prop where
  chatOpen : s.agent.chat.closed = false
  old : s.SlicesOld
  dialogue : ∃ d, s.agent.chat.working = some d ∧ d.clone < s.agent.chat.clones ∧
    s.Tells d s.agent.state

variable {s : AgentRecord} {env : AgentEnv} {question : PyStr}

/-- **Whatever a slice has left behind, a reset settles the agent.** -/
theorem settled_reset {agent : NativeAgent} {chat : ConversationChat} {d : Dialogue}
    {slice : Option Slice} (hopen : chat.closed = false) (hworking : chat.working = some d)
    (hd : d.clone < chat.clones)
    (hold : ∀ r, slice = some r → ∀ n, chat.clones ≤ n → r.clone ≠ some n) :
    Settled
      { agent := (agent.reset env chat).2
        lastSlice := slice
        resetFailed := isResetFailed (agent.reset env chat).1 } := by
  have hlater : ∀ r, slice = some r → ∀ n, chat.clones + 1 ≤ n → r.clone ≠ some n :=
    fun r hr n hn => hold r hr n (by omega)
  rcases @NativeAgent.reset_cases env agent chat hopen with h | ⟨message, chat', h, rfl | rfl⟩
  · rw [h]
    refine ⟨hopen, hlater, _, rfl, Nat.lt_succ_self _, rfl, rfl, rfl, ?_⟩
    rintro ⟨r, hr, -, -, hclone⟩
    exact hold r hr chat.clones le_rfl hclone
  · rw [h]
    exact ⟨hopen, hlater, d, hworking, by simp only; omega, rfl⟩
  · rw [h]
    exact ⟨hopen, hlater, _, rfl, Nat.lt_succ_self _, rfl⟩

/-- The state says that no reset has failed. -/
theorem Settled.not_resetFailed (hs : s.Settled) (h : s.agent.state ≠ AgentState.failed) :
    s.resetFailed = false := by
  obtain ⟨d, -, -, htells⟩ := hs.dialogue
  cases hstate : s.agent.state with
  | free => exact (hstate ▸ htells : s.Tells d AgentState.free).1
  | running => exact absurd (hstate ▸ htells : s.Tells d AgentState.running) id
  | waiting => exact (hstate ▸ htells : s.Tells d AgentState.waiting).1
  | failed => exact absurd hstate h

/-- What was sent to the clone does not matter to a reset. -/
theorem Settled.reset {agent : NativeAgent} {chat : ConversationChat} {slice : Option Slice}
    (hs : s.Settled) (hchat : s.agent.chat.SameClone chat)
    (hslice : slice = s.lastSlice ∨ ∃ final succeeded,
      slice = some { final := final, succeeded := succeeded, clone := s.resident }) :
    Settled
      { agent := (agent.reset env chat).2
        lastSlice := slice
        resetFailed := isResetFailed (agent.reset env chat).1 } := by
  obtain ⟨hclosed, hbase, hclones, hworking⟩ := hchat
  obtain ⟨d, hd, hlt, -⟩ := hs.dialogue
  rw [hd] at hworking
  obtain ⟨d', hd', hclone⟩ := Option.map_eq_some_iff.1 hworking
  refine settled_reset (hclosed.trans hs.chatOpen) hd' (by rw [hclone, hclones]; exact hlt) ?_
  intro r hr n hn
  rw [hclones] at hn
  rcases hslice with rfl | ⟨final, succeeded, rfl⟩
  · exact hs.old r hr n hn
  · cases hr
    simp only [resident, hd, Option.map_some, ne_eq, Option.some.injEq]
    omega

/-- A task settles the agent. -/
theorem settled_run {task : PyStr} (hs : s.Settled) :
    (s.step (NativeAgent.Call.run env task)).Settled := by
  simp only [step]
  rcases @NativeAgent.run_cases env s.agent task with ⟨e, h, he⟩ | ⟨hfree, hrest⟩
  · rw [h, he, Bool.or_false]
    exact hs
  · obtain ⟨agent, chat, hchat, hagent, hfailed, -⟩ := hrest
    rw [hagent, hfailed, hs.not_resetFailed (by rw [hfree]; decide), Bool.false_or]
    exact hs.reset hchat (Or.inl rfl)

/-- A slice settles the agent. -/
theorem settled_runSlice {instruction : PyStr} {final : Bool} (hs : s.Settled) :
    (s.step (NativeAgent.Call.runSlice env instruction final)).Settled := by
  simp only [step]
  rcases @NativeAgent.runSlice_cases env s.agent instruction final with
    ⟨e, h, hrefused, he⟩ | ⟨hstate, hrest⟩
  · rw [h, hrefused, he, Bool.or_false, if_pos rfl]
    exact hs
  have hfailed : s.resetFailed = false := hs.not_resetFailed hstate
  rcases hrest with ⟨agent, chat, hchat, hagent, hrefused, hreset, -⟩ |
    ⟨outcome, chat, hchat, h, hsuccess, hfinal⟩
  · rw [hagent, hreset, hrefused, hfailed, Bool.false_or, if_neg (by decide)]
    exact hs.reset hchat (Or.inr ⟨_, _, rfl⟩)
  · rw [h]
    obtain ⟨hclosed, hbase, hclones, hworking⟩ := hchat
    obtain ⟨d, hd, hlt, -⟩ := hs.dialogue
    rw [hd] at hworking
    obtain ⟨d', hd', hclone⟩ := Option.map_eq_some_iff.1 hworking
    refine ⟨hclosed.trans hs.chatOpen, ?_, d', hd', ?_, ?_, ?_⟩
    · intro r hr n hn
      simp only [isRefused, Bool.false_eq_true, ↓reduceIte, Option.some.injEq] at hr
      subst hr
      simp only [resident, hd, Option.map_some, ne_eq, Option.some.injEq]
      simp only [hclones] at hn
      omega
    · simp only [hclones, hclone]
      exact hlt
    · simp only [hfailed, isResetFailed, Bool.or_false]
    · refine ⟨_, rfl, ?_, hfinal, ?_⟩
      · simp only [isSuccess, hsuccess, beq_self_eq_true]
      · simp only [resident, hd, hd', Option.map_some, hclone]

/-- An abort settles the agent. -/
theorem settled_abortSlices (hs : s.Settled) :
    (s.step (NativeAgent.Call.abortSlices env)).Settled := by
  simp only [step]
  unfold NativeAgent.abortSlices
  by_cases hclosed : s.agent.closed = true
  · rw [if_pos hclosed]
    simpa only [isResetFailed, Bool.or_false] using hs
  rw [if_neg hclosed]
  cases hstate : s.agent.state with
  | waiting =>
      simp only
      rw [hs.not_resetFailed (by rw [hstate]; decide), Bool.false_or]
      exact hs.reset (ConversationChat.sameClone_refl _) (Or.inl rfl)
  | _ => simpa only [isResetFailed, Bool.or_false] using hs

/-- **As long as an agent is open, it is settled.** -/
theorem settled_of_reachable (h : NativeAgent.machine.Reachable s)
    (hopen : s.agent.closed = false) : s.Settled := by
  have key : s.agent.closed = false → s.Settled := by
    refine h.invariant (I := fun s => s.agent.closed = false → s.Settled) ?_ ?_
    · rintro s ⟨agentId, kv, rfl⟩ -
      refine ⟨rfl, nofun, _, rfl, Nat.zero_lt_one, rfl, rfl, rfl, ?_⟩
      rintro ⟨slice, hslice, -⟩
      cases hslice
    · intro s i _ ih hopen
      cases i with
      | run env task => exact settled_run (ih (s.agent.closed_run ▸ hopen))
      | runSlice env instruction final =>
          exact settled_runSlice (ih (s.agent.closed_runSlice ▸ hopen))
      | abortSlices env => exact settled_abortSlices (ih (s.agent.closed_abortSlices ▸ hopen))
      | close =>
          exfalso
          simp only [NativeAgent.machine, step, NativeAgent.close] at hopen
          split_ifs at hopen with hclosed
          rw [hclosed] at hopen
          cases hopen
  exact key hopen

end AgentRecord

namespace NativeAgent

open AgentRecord

/-! ### Freshness -/

/-- A failed agent stays failed. -/
theorem failed_exec {s : AgentRecord} (h : s.agent.state = AgentState.failed) (l : List Call) :
    (machine.exec s l).agent.state = AgentState.failed := by
  refine (Machine.leads_exec (m := machine) s l).invariant
    (I := fun s => s.agent.state = AgentState.failed) h ?_
  intro t i ht _
  cases i with
  | run env task => exact (congrArg (fun r => r.2.state) (run_of_failed ht)).trans ht
  | runSlice env instruction final =>
      exact (congrArg (fun r => r.2.state) (runSlice_of_failed ht)).trans ht
  | abortSlices env => exact (congrArg (fun r => r.2.state) (abortSlices_of_failed ht)).trans ht
  | close =>
      simp only [machine, step, close]
      split_ifs
      · exact ht
      · exact ht

/-- **An open agent is never left running.  A free one has an unused clone of its base; it waits
exactly when its last slice succeeded without being final, the clone of that slice is still
resident and no reset has failed; and once it has failed it stays failed and refuses all work.** -/
theorem fresh_of_reachable {s : AgentRecord} (h : machine.Reachable s)
    (hopen : s.agent.closed = false) :
    s.agent.state ≠ AgentState.running ∧
      (s.agent.state = AgentState.free → ∃ d, s.agent.chat.working = some d ∧ d.sent = [] ∧
        d.kv = s.agent.chat.baseKvTokens) ∧
      (s.agent.state = AgentState.waiting ↔ s.Suspended ∧ s.resetFailed = false) ∧
      (s.agent.state = AgentState.failed →
        (∀ env task, s.agent.run env task =
          (Except.error (AgentError.unavailable s.agent.agentId AgentState.failed), s.agent)) ∧
        (∀ env instruction final, s.agent.runSlice env instruction final =
          (Except.error (AgentError.unavailable s.agent.agentId AgentState.failed), s.agent)) ∧
        ∀ l, (machine.exec s l).agent.state = AgentState.failed) := by
  have hs := settled_of_reachable h hopen
  obtain ⟨d, hd, -, htells⟩ := hs.dialogue
  refine ⟨?_, ?_, ?_, ?_⟩
  · intro hstate
    rw [hstate] at htells
    exact htells
  · intro hstate
    rw [hstate] at htells
    exact ⟨d, hd, htells.2.1, htells.2.2.1⟩
  · constructor
    · intro hstate
      rw [hstate] at htells
      exact ⟨htells.2, htells.1⟩
    · rintro ⟨hsuspended, hreset⟩
      cases hstate : s.agent.state with
      | free =>
          rw [hstate] at htells
          exact absurd hsuspended htells.2.2.2
      | running =>
          rw [hstate] at htells
          exact htells.elim
      | waiting => rfl
      | failed =>
          rw [hstate] at htells
          exact absurd (htells.symm.trans hreset) (by decide)
  · intro hstate
    exact ⟨fun env task => run_of_failed hstate, fun env instruction final =>
      runSlice_of_failed hstate, failed_exec hstate⟩

/-- An agent before its first task. -/
def sample : AgentRecord where
  agent :=
    { agentId := "agent_1"
      chat :=
        { closed := false, baseKvTokens := some 7, clones := 1
          working := some { clone := 0, kv := some 7, sent := [] } }
      state := AgentState.free
      closed := false }
  lastSlice := none
  resetFailed := false

/-- Everything succeeds, but a clone has the given length. -/
def quietEnv (kv : Option ℕ) : AgentEnv where
  picture := Except.ok ()
  send := Except.ok "done"
  toolsFailed := false
  kv := some 9
  clone := Except.ok kv
  closeOld := Except.ok ()

/-- One slice that is not the last one, and an abort that cannot make a clone. -/
def brokenAbort : List Call :=
  [Call.runSlice (quietEnv (some 7)) "go" false, Call.abortSlices (quietEnv none)]

theorem reachable_sample (l : List Call) : machine.Reachable (machine.exec sample l) :=
  Machine.Reachable.exec (m := machine) (Machine.Reach.of_init ⟨"agent_1", some 7, rfl⟩) l

theorem fresh_brokenAbort : (machine.exec sample brokenAbort).agent.state = AgentState.failed ∧
    ∀ l, (machine.exec (machine.exec sample brokenAbort) l).agent.state = AgentState.failed :=
  have hfailed : (machine.exec sample brokenAbort).agent.state = AgentState.failed := by decide
  ⟨hfailed, ((fresh_of_reachable (reachable_sample brokenAbort) (by decide)).2.2.2 hfailed).2.2⟩

/-- **A failed agent may still hold the clone of a slice that could have been continued.** -/
theorem not_waits_iff_resident : ¬ ∀ s, machine.Reachable s → s.agent.closed = false →
    (s.agent.state = AgentState.waiting ↔ s.Suspended) := by
  intro hall
  have hsuspended : (machine.exec sample brokenAbort).Suspended :=
    ⟨{ final := false, succeeded := true, clone := some 0 }, by decide, rfl, rfl, by decide⟩
  have hwaiting := (hall _ (reachable_sample brokenAbort) (by decide)).2 hsuspended
  exact absurd hwaiting (by decide)

end NativeAgent
