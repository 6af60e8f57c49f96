/-
**The chat client of a native session.**

`LiteRTChatClient` keeps one dialogue in the key-value cache of a native session, and appends only
the new turn when it is asked to continue it.  It remembers which messages it takes to be in the
session.  A checkpoint after the system message lets it go back to the base; dialogues with images
run in a conversation of their own until then.

Every native call may raise.  The texts that the native renderer makes of messages are a parameter,
and so is what the native calls do: which of them raise, what they have appended to the session
before they raise, and what is generated.  Events for the display, timings and the log are left out.

Main definitions:

* `ClientMessage`, `ChatTemplate`, `Resident` — messages, their texts, and what is in a session;
* `NativeEnv` — what the native calls do;
* `LiteRTChatClient` — the client, with a record of what was done;
* `LiteRTChatClient.preparePrefix`, `LiteRTChatClient.resetToBase`, `LiteRTChatClient.chat` — its
  methods;
* `LiteRTChatClient.leftover` — what failed turns have left in the session since the last base.

Main results:

* `LiteRTChatClient.intact_call` — the invariant;
* `LiteRTChatClient.prefix_coherent` — **a turn runs on the messages before it exactly if nothing is
  left over**.
-/

import CatAgent.Host
import CatAgent.Machine
import CatAgent.Unwinding

set_option relaxedAutoImplicit false
set_option autoImplicit false

/-! ### Messages -/

/-- A part of a message with images. -/
inductive MessagePart where
  | text (body : PyStr)
  | imageUrl (url : PyStr)
  | other
deriving DecidableEq

/-- The content of a message: a text, or a list of parts. -/
inductive MessageContent where
  | text (body : PyStr)
  | parts (l : List MessagePart)
deriving DecidableEq

/-- A message of a dialogue. -/
structure ClientMessage where
  role : PyStr
  content : MessageContent
deriving DecidableEq

/-- How a reply is kept in the dialogue. -/
def ClientMessage.reply (content : PyStr) : ClientMessage :=
  ⟨"assistant", MessageContent.text content⟩

/-- `isinstance(content, list)`. -/
def MessageContent.isList : MessageContent → Bool
  | text _ => false
  | parts _ => true

/-- What the native renderer makes of the messages that it was created with, and of one more
message after them. -/
structure ChatTemplate where
  preface : List ClientMessage → PyStr
  message : List ClientMessage → ClientMessage → PyStr

namespace ChatTemplate

variable (template : ChatTemplate)

/-- The end of `_render_user_turn`: what the rendered message has after the preface.  There is none
if the preface is not there, or nothing is after it. -/
def suffix (preface rendered : PyStr) : Option PyStr :=
  if preface.isPrefixOf rendered = true ∧ rendered.drop preface.length ≠ [] then
    some (rendered.drop preface.length)
  else none

/-- The text of a turn. -/
def turn (base : List ClientMessage) (m : ClientMessage) : Option PyStr :=
  suffix (template.preface base) (template.message base m)

end ChatTemplate

/-- A piece of what is in a session. -/
inductive Resident where
  | prefilled (text : PyStr)
  | generated (text : PyStr)
deriving DecidableEq

/-- What a message leaves in a session. -/
def ChatTemplate.piece (template : ChatTemplate) (base : List ClientMessage) (m : ClientMessage) :
    Resident :=
  if m.role = "system" then Resident.prefilled (template.preface [m])
  else if m.role = "assistant" then
    match m.content with
    | MessageContent.text body => Resident.generated body
    | MessageContent.parts _ => Resident.generated []
  else Resident.prefilled ((template.turn base m).getD [])

/-- What a dialogue leaves in a session. -/
def ChatTemplate.rendering (template : ChatTemplate) (base messages : List ClientMessage) :
    List Resident := messages.map (template.piece base)

@[simp] theorem ChatTemplate.length_rendering (template : ChatTemplate)
    (base messages : List ClientMessage) :
    (template.rendering base messages).length = messages.length := List.length_map _

/-- A native session: what is in it, and its checkpoint. -/
structure NativeSession where
  resident : List Resident
  checkpoint : Option (List Resident)

/-- What is written down: the session is at its base, something of a failed turn was left in it, it
was abandoned with what is in it, or a turn begins. -/
inductive ClientEvent where
  | based
  | failed (pieces : List Resident)
  | abandoned (pieces : List Resident)
  /-- A turn of the session: the messages of the renderer and those of the turn, and what is in the
  session. -/
  | prefill (base messages : List ClientMessage) (resident : List Resident)
  /-- A turn of the conversation with images, and the dialogue that is in it. -/
  | visionPrefill (messages dialogue : List ClientMessage)
deriving DecidableEq

/-! ### The environment -/

/-- What the native calls do.  The calls are numbered. -/
structure NativeEnv where
  template : ChatTemplate
  /-- The call raises. -/
  raises : ℕ → Bool
  /-- A `close` raises. -/
  closeRaises : ℕ → Bool
  /-- A rewind is refused. -/
  rewindFails : ℕ → Bool
  /-- What a call that raises has appended. -/
  left : ℕ → List Resident
  /-- A token count. -/
  count : ℕ → ℤ
  /-- What is generated; there is nothing if the response has no text. -/
  answer : ℕ → Option PyStr
  /-- The reply is read in chunks. -/
  streams : Bool

/-- The native binding can close what it has made, and go back to a checkpoint. -/
structure NativeEnv.Reliable (env : NativeEnv) : Prop where
  closes : ∀ n, env.closeRaises n = false
  rewinds : ∀ n, env.rewindFails n = false

/-- What the methods raise: a `ModelClientError`, or something else. -/
inductive ClientError where
  | modelClient
  | other
deriving DecidableEq

/-- The fields of the client, with a record of what was done, newest first. -/
structure LiteRTChatClient where
  /-- The messages that the renderer was created with. -/
  renderer : Option (List ClientMessage)
  /-- The dialogue of the conversation with images. -/
  vision : Option (List ClientMessage)
  session : Option NativeSession
  lib : Bool
  basePreface : PyStr
  baseMessages : List ClientMessage
  baseResidentTokens : ℤ
  checkpointReady : Bool
  syncedMessages : List ClientMessage
  residentTokens : Option ℤ
  /-- How many native calls there were. -/
  calls : ℕ
  history : List ClientEvent

/-- A method of the client. -/
abbrev ClientM (α : Type) := EStateM ClientError LiteRTChatClient α

namespace LiteRTChatClient

/-- A client that has just been made. -/
def initial : LiteRTChatClient where
  renderer := none
  vision := none
  session := none
  lib := false
  basePreface := []
  baseMessages := []
  baseResidentTokens := 0
  checkpointReady := false
  syncedMessages := []
  residentTokens := some 0
  calls := 0
  history := []

variable {α : Type} (env : NativeEnv)

/-! ### Native calls -/

/-- The number of the next native call. -/
def next : ClientM ℕ := modifyGet fun c => (c.calls, { c with calls := c.calls + 1 })

/-- A native call that changes nothing, and may raise. -/
def attempt : ClientM ℕ := do
  let n ← next
  if env.raises n then throw ClientError.other else return n

/-- What raises a `RuntimeError`. -/
def refuse (p : Prop) [Decidable p] : ClientM Unit :=
  if p then throw ClientError.other else pure ()

/-- Something is written down. -/
def note (e : ClientEvent) : ClientM Unit := modify fun c => { c with history := e :: c.history }

/-- Something is put into the session. -/
def put (pieces : List Resident) : ClientM Unit := modify fun c =>
  { c with session := c.session.map fun s => { s with resident := s.resident ++ pieces } }

/-- A native call that appends to the session.  If it raises, it may have appended something. -/
def append (pieces : ℕ → ClientM α) : ClientM α := do
  let n ← next
  if env.raises n then do
    put (env.left n)
    throw ClientError.other
  else pieces n

/-- `_close_vision`. -/
def closeVision : ClientM Unit := do
  let c ← get
  if c.vision.isSome then do
    let n ← next
    if env.closeRaises n then throw ClientError.other
    else modify fun c => { c with vision := none }
  else return ()

/-- The session is closed. -/
def closeSession : ClientM Unit := do
  let c ← get
  if c.session.isSome then do
    let n ← next
    if env.closeRaises n then throw ClientError.other
    else modify fun c => { c with session := none }
  else return ()

/-- The renderer is closed. -/
def closeRenderer : ClientM Unit := do
  let c ← get
  if c.renderer.isSome then do
    let n ← next
    if env.closeRaises n then throw ClientError.other
    else modify fun c => { c with renderer := none }
  else return ()

/-- `close`. -/
def close : ClientM Unit := do
  closeVision env
  closeSession env
  closeRenderer env
  modify fun c =>
    { c with
      lib := false
      basePreface := []
      baseMessages := []
      baseResidentTokens := 0
      checkpointReady := false
      syncedMessages := []
      residentTokens := some 0 }

/-! ### The base -/

/-- `prepare_prefix`: what follows `self.close()` in its `try`. -/
def prefillBase (messages : List ClientMessage) : ClientM Unit := do
  -- `create_conversation`, and the library is configured.
  let _ ← attempt env
  modify fun c => { c with renderer := some messages, lib := true }
  let _ ← attempt env
  -- An empty preface is taken for a failure.
  refuse (env.template.preface messages = [])
  modify fun c => { c with basePreface := env.template.preface messages }
  -- `create_session`
  let _ ← attempt env
  modify fun c => { c with session := some ⟨[], none⟩ }
  -- `run_prefill`
  append env fun _ => put [Resident.prefilled (env.template.preface messages)]
  let n ← attempt env
  refuse (env.count n ≤ 0)
  modify fun c =>
    { c with
      baseMessages := messages
      baseResidentTokens := env.count n
      residentTokens := some (env.count n)
      syncedMessages := messages }
  -- `_save_base_checkpoint`
  let _ ← attempt env
  modify fun c =>
    { c with
      session := c.session.map fun s => { s with checkpoint := some s.resident }
      checkpointReady := true }
  note ClientEvent.based

/-- The messages of a base: one system message that is not blank.  A content that is no text has no
`strip`. -/
def checkBase (messages : List ClientMessage) : ClientM Unit :=
  match messages with
  | [m] =>
      if m.role = "system" then
        match m.content with
        | MessageContent.text body =>
            if PyStr.strip body = [] then throw ClientError.modelClient else pure ()
        | MessageContent.parts _ => throw ClientError.other
      else throw ClientError.modelClient
  | _ => throw ClientError.modelClient

/-- `prepare_prefix`. -/
def preparePrefix (messages : List ClientMessage) : ClientM Unit := do
  checkBase messages
  tryCatch (do
      close env
      prefillBase env messages)
    fun e =>
      match e with
      | ClientError.modelClient => throw ClientError.modelClient
      | ClientError.other => do
          close env
          throw ClientError.modelClient

/-- The native rewind to the checkpoint of the base. -/
def rewind : ClientM Unit := do
  let n ← next
  let c ← get
  match c.session.bind NativeSession.checkpoint with
  | none => throw ClientError.other
  | some resident =>
      if env.rewindFails n then throw ClientError.other
      else modify fun c => { c with session := c.session.map fun s => { s with resident } }

/-- `reset_to_base`. -/
def resetToBase (messages : List ClientMessage) : ClientM Unit := do
  let c ← get
  if messages ≠ c.baseMessages ∨ c.session = none ∨ c.lib = false ∨ c.checkpointReady = false then
    throw ClientError.modelClient
  else
    tryCatch (do
        closeVision env
        rewind env
        modify fun c =>
          { c with
            residentTokens := some c.baseResidentTokens
            syncedMessages := c.baseMessages }
        note ClientEvent.based)
      fun _ => throw ClientError.modelClient

/-! ### Turns -/

/-- What is in the session. -/
def resident (c : LiteRTChatClient) : List Resident :=
  match c.session with
  | some s => s.resident
  | none => []

/-- `_try_reset_prefix`, and the error of its callers. -/
def requireReset (allowPrefixReset : Bool) (messages : List ClientMessage) : ClientM Unit :=
  if allowPrefixReset = false ∨ messages.length ≠ 2 then throw ClientError.modelClient
  else if (messages.take 1).any (fun m => decide (m.role ≠ "system")) then
    throw ClientError.modelClient
  else do
    let c ← get
    if c.checkpointReady = true ∧ messages.take 1 = c.baseMessages then
      resetToBase env (messages.take 1)
    else preparePrefix env (messages.take 1)
    let c ← get
    if messages.dropLast ≠ c.syncedMessages then throw ClientError.modelClient else pure ()

/-- `_session_response_text`, or the join of the chunks. -/
def decode : ClientM PyStr := append env fun n =>
  match env.answer n with
  | none => do
      put (env.left n)
      throw ClientError.modelClient
  | some content =>
      if env.streams = true ∧ content = [] then do
        put (env.left n)
        throw ClientError.modelClient
      else do
        put [Resident.generated content]
        return content

/-- The `try` of `chat`. -/
def textTurn (messages : List ClientMessage) (last : ClientMessage) : ClientM PyStr := do
  -- `_render_user_turn`
  let _ ← attempt env
  let c ← get
  match ChatTemplate.suffix c.basePreface (env.template.message (c.renderer.getD []) last) with
  | none => throw ClientError.other
  | some turn => do
      note (ClientEvent.prefill (c.renderer.getD []) messages c.resident)
      append env fun _ => put [Resident.prefilled turn]
      let prefilled ← attempt env
      let content ← decode env
      let decoded ← attempt env
      let c ← get
      -- After a dialogue with images the number of tokens is unknown.
      match c.residentTokens with
      | none => throw ClientError.other
      | some tokens => do
          modify fun c =>
            { c with
              residentTokens := some (tokens + env.count prefilled + env.count decoded)
              syncedMessages := messages ++ [ClientMessage.reply content] }
          return content

/-- A turn of the session.  What a turn that fails has put into it is written down. -/
def chatText (messages : List ClientMessage) (last : ClientMessage) : ClientM PyStr := do
  let before ← get
  tryCatch (textTurn env messages last) fun _ => do
    modify fun c =>
      { c with
        history := ClientEvent.failed (c.resident.drop before.resident.length) :: c.history }
    throw ClientError.modelClient

/-- The images that `_vision_message` takes: PNG and JPEG that are embedded. -/
def convertible : MessagePart → Bool
  | MessagePart.text _ => true
  | MessagePart.imageUrl url =>
      url.any (fun c => decide (c = PyStr.ofChar ',')) &&
        (decide (url.takeWhile (fun c => decide (c ≠ PyStr.ofChar ',')) =
            PyStr.ofString "data:image/png;base64") ||
          decide (url.takeWhile (fun c => decide (c ≠ PyStr.ofChar ',')) =
            PyStr.ofString "data:image/jpeg;base64"))
  | MessagePart.other => false

/-- `_vision_message`, for messages that are translated. -/
def translates (m : ClientMessage) : Bool :=
  match m.content with
  | MessageContent.text _ => true
  | MessageContent.parts l => l.all convertible

/-- The conversation with images, which is made of the earlier messages if there is none yet. -/
def visionConversation (earlier : List ClientMessage) : ClientM Unit := do
  let c ← get
  match c.vision with
  | some _ => pure ()
  | none => do
      refuse (earlier.all translates = false)
      let _ ← attempt env
      modify fun c => { c with vision := some earlier }

/-- The `try` of `_chat_multimodal`. -/
def visionTurn (messages : List ClientMessage) (last : ClientMessage) : ClientM PyStr := do
  visionConversation env messages.dropLast
  refuse (translates last = false)
  let c ← get
  note (ClientEvent.visionPrefill messages (c.vision.getD []))
  modify fun c => { c with vision := c.vision.map fun d => d ++ [last] }
  -- `send_message_async`
  let n ← attempt env
  match env.answer n with
  | none => throw ClientError.modelClient
  | some text => do
      refuse (text = [])
      let _ ← attempt env
      modify fun c =>
        { c with
          vision := c.vision.map fun d => d ++ [ClientMessage.reply text]
          residentTokens := none
          syncedMessages := messages ++ [ClientMessage.reply text] }
      return text

/-- `_chat_multimodal`: a turn that fails ends the dialogue, and the session is not continued. -/
def chatMultimodal (messages : List ClientMessage) (last : ClientMessage) : ClientM PyStr :=
  tryCatch (visionTurn env messages last) fun _ => do
    closeVision env
    modify fun c =>
      { c with
        syncedMessages := []
        history := ClientEvent.abandoned c.resident :: c.history }
    throw ClientError.modelClient

/-- A reset that a turn needs in some states. -/
def resetIf (p : LiteRTChatClient → Prop) [DecidablePred p] (allowPrefixReset : Bool)
    (messages : List ClientMessage) : ClientM Unit := do
  let c ← get
  if p c then requireReset env allowPrefixReset messages else pure ()

/-- `chat`, for a turn of the session. -/
def chatSession (allowPrefixReset : Bool) (messages : List ClientMessage) (last : ClientMessage) :
    ClientM PyStr := do
  resetIf env (fun c => c.session.isSome = false ∨ c.renderer.isSome = false) allowPrefixReset
    messages
  resetIf env (fun c => messages.dropLast ≠ c.syncedMessages) allowPrefixReset messages
  chatText env messages last

/-- `chat`, for messages that end with one of the user. -/
def chatTurn (allowPrefixReset : Bool) (messages : List ClientMessage) (last : ClientMessage) :
    ClientM PyStr := do
  resetIf env (fun c => c.vision.isSome = true ∧ messages.dropLast ≠ c.syncedMessages)
    allowPrefixReset messages
  let c ← get
  if c.vision.isSome = true ∨ last.content.isList = true then chatMultimodal env messages last
  else chatSession env allowPrefixReset messages last

/-- `chat`. -/
def chat (allowPrefixReset : Bool) (messages : List ClientMessage) : ClientM PyStr :=
  match messages.getLast? with
  | none => throw ClientError.modelClient
  | some last =>
      if last.role ≠ "user" then throw ClientError.modelClient
      else chatTurn env allowPrefixReset messages last

/-! ### Any sequence of calls -/

/-- The calls of a client. -/
inductive Call where
  | preparePrefix (messages : List ClientMessage)
  | resetToBase (messages : List ClientMessage)
  | chat (messages : List ClientMessage)
  | close

/-- A call; what it has done before it raises stays done. -/
def call (allowPrefixReset : Bool) : Call → ClientM Unit
  | Call.preparePrefix messages => preparePrefix env messages
  | Call.resetToBase messages => resetToBase env messages
  | Call.chat messages => do
      let _ ← chat env allowPrefixReset messages
  | Call.close => close env

/-- The client after a call, whether it has returned or raised. -/
def after (allowPrefixReset : Bool) (c : LiteRTChatClient) (i : Call) : LiteRTChatClient :=
  match call env allowPrefixReset i c with
  | .ok _ c' => c'
  | .error _ c' => c'

/-- Any sequence of calls. -/
def machine (allowPrefixReset : Bool) : Machine LiteRTChatClient Call where
  init := fun c => c = initial
  step := after env allowPrefixReset

/-- What failed turns have left in the session since it was at its base. -/
def leftover : List ClientEvent → List Resident
  | [] => []
  | ClientEvent.based :: _ => []
  | ClientEvent.failed pieces :: l => leftover l ++ pieces
  | ClientEvent.abandoned pieces :: _ => pieces
  | ClientEvent.prefill _ _ _ :: l | ClientEvent.visionPrefill _ _ :: l => leftover l

/-! ### What holds of a client -/

/-- What a recorded turn was to be: the session holds the messages before it exactly if nothing is
left over, and a conversation with images always does. -/
def Proper (template : ChatTemplate) (earlier : List ClientEvent) : ClientEvent → Prop
  | ClientEvent.prefill base messages resident =>
      resident = template.rendering base messages.dropLast ↔ leftover earlier = []
  | ClientEvent.visionPrefill messages dialogue => dialogue = messages.dropLast
  | _ => True

/-- Every recorded turn is proper. -/
def Coherent (template : ChatTemplate) (history : List ClientEvent) : Prop :=
  ∀ e earlier, e :: earlier <:+ history → Proper template earlier e

variable {template : ChatTemplate} {history : List ClientEvent}

theorem Coherent.cons (h : Coherent template history) {e : ClientEvent}
    (he : Proper template history e) : Coherent template (e :: history) := by
  intro e' earlier hs
  rcases List.suffix_cons_iff.1 hs with heq | hs
  · obtain ⟨rfl, rfl⟩ := List.cons.inj heq
    exact he
  · exact h e' earlier hs

/-- What holds of a client at any time after a base was prefilled, and of a closed one. -/
structure Founded (template : ChatTemplate) (c : LiteRTChatClient) : Prop where
  base : ∀ s, c.session = some s →
    c.renderer = some c.baseMessages ∧ c.basePreface = template.preface c.baseMessages ∧
      s.checkpoint = some (template.rendering c.baseMessages c.baseMessages)
  coherent : Coherent template c.history

/-- What holds of a client between the calls. -/
structure Intact (template : ChatTemplate) (c : LiteRTChatClient) : Prop
    extends Founded template c where
  dialogue : ∀ d, c.vision = some d → d = c.syncedMessages
  length_eq : c.vision = none → ∀ s, c.session = some s →
    s.resident.length = c.syncedMessages.length + (leftover c.history).length
  resident_eq : c.vision = none → leftover c.history = [] → ∀ s, c.session = some s →
    s.resident = template.rendering c.baseMessages c.syncedMessages

/-- A client that has a session and no conversation with images. -/
structure Seated (template : ChatTemplate) (c : LiteRTChatClient) : Prop
    extends Intact template c where
  vision_eq : c.vision = none
  session_ne : c.session ≠ none

/-- A client that has been closed. -/
structure Closed (template : ChatTemplate) (c : LiteRTChatClient) : Prop where
  session_eq : c.session = none
  vision_eq : c.vision = none
  coherent : Coherent template c.history

variable {c : LiteRTChatClient}

theorem Closed.intact (h : Closed template c) : Intact template c where
  base := fun s hs => by rw [h.session_eq] at hs; cases hs
  coherent := h.coherent
  dialogue := fun d hd => by rw [h.vision_eq] at hd; cases hd
  length_eq := fun _ s hs => by rw [h.session_eq] at hs; cases hs
  resident_eq := fun _ _ s hs => by rw [h.session_eq] at hs; cases hs

/-- A session holds the dialogue exactly if nothing is left over. -/
theorem Intact.resident_eq_iff (h : Intact template c) (hvision : c.vision = none)
    {s : NativeSession} (hs : c.session = some s) :
    s.resident = template.rendering c.baseMessages c.syncedMessages ↔
      leftover c.history = [] := by
  constructor
  · intro heq
    have hlength := h.length_eq hvision s hs
    rw [heq, ChatTemplate.length_rendering] at hlength
    exact List.eq_nil_of_length_eq_zero (by omega)
  · intro hleft
    exact h.resident_eq hvision hleft s hs

/-! ### Rules for the native calls -/

open Unwinding

variable {α : Type} {env : NativeEnv} {P : LiteRTChatClient → Prop}
  {Q : α → LiteRTChatClient → Prop} {E : ClientError → LiteRTChatClient → Prop}

/-- The number of calls does not matter. -/
def Uncounted (P : LiteRTChatClient → Prop) : Prop := ∀ c n, P c → P { c with calls := n }

theorem meets_next (hP : Uncounted P) : Meets P next (fun _ => P) E :=
  fun c hc => hP c (c.calls + 1) hc

theorem meets_attempt (hP : Uncounted P) (hE : ∀ c, P c → E ClientError.other c) :
    Meets P (attempt env) (fun _ => P) E := by
  refine (meets_next hP).bind fun n => ?_
  by_cases hraises : env.raises n = true
  · rw [if_pos hraises]
    exact meets_throw hE
  · rw [if_neg hraises]
    exact meets_pure fun _ hc => hc

theorem meets_refuse {p : Prop} [Decidable p] {R : Unit → LiteRTChatClient → Prop}
    (hok : ¬p → ∀ c, P c → R () c) (hE : p → ∀ c, P c → E ClientError.other c) :
    Meets P (refuse p) R E := by
  unfold refuse
  by_cases hp : p
  · rw [if_pos hp]
    exact meets_throw (hE hp)
  · rw [if_neg hp]
    exact meets_pure (hok hp)

/-- A client with more in its session. -/
def filled (pieces : List Resident) (c : LiteRTChatClient) : LiteRTChatClient :=
  { c with session := c.session.map fun s => { s with resident := s.resident ++ pieces } }

theorem meets_append {pieces : ℕ → ClientM α} (hP : Uncounted P)
    (hpieces : ∀ n, Meets P (pieces n) Q E)
    (hE : ∀ c l, P c → E ClientError.other (filled l c)) : Meets P (append env pieces) Q E := by
  refine (meets_next hP).bind fun n => ?_
  by_cases hraises : env.raises n = true
  · rw [if_pos hraises]
    exact (meets_modify (R := fun _ c => E ClientError.other c)
      fun c hc => hE c (env.left n) hc).bind fun _ => meets_throw fun _ hc => hc
  · rw [if_neg hraises]
    exact hpieces n

/-! ### The specifications of the methods -/

theorem uncounted_coherent : Uncounted fun c => Coherent template c.history := fun _ _ hc => hc

/-- A conversation with images is closed. -/
theorem meets_closeVision (henv : env.Reliable) (hP : Uncounted P)
    (hclosed : ∀ c, P c → P { c with vision := none }) :
    Meets P (closeVision env) (fun _ c => P c ∧ c.vision = none) fun _ _ => False := by
  refine meets_get fun r hr => ?_
  by_cases hvision : r.vision.isSome = true
  · rw [if_pos hvision]
    refine Meets.pre (P := P) ?_ fun c hc => hc ▸ hr
    refine (meets_next hP).bind fun n => ?_
    rw [henv.closes n]
    exact meets_modify fun c hc => ⟨hclosed c hc, rfl⟩
  · rw [if_neg hvision]
    refine meets_pure fun c hc => ?_
    rw [hc]
    exact ⟨hr, by simpa using hvision⟩

/-- A session is closed. -/
theorem meets_closeSession (henv : env.Reliable) (hP : Uncounted P)
    (hclosed : ∀ c, P c → P { c with session := none }) :
    Meets P (closeSession env) (fun _ c => P c ∧ c.session = none) fun _ _ => False := by
  refine meets_get fun r hr => ?_
  by_cases hsession : r.session.isSome = true
  · rw [if_pos hsession]
    refine Meets.pre (P := P) ?_ fun c hc => hc ▸ hr
    refine (meets_next hP).bind fun n => ?_
    rw [henv.closes n]
    exact meets_modify fun c hc => ⟨hclosed c hc, rfl⟩
  · rw [if_neg hsession]
    refine meets_pure fun c hc => ?_
    rw [hc]
    exact ⟨hr, by simpa using hsession⟩

theorem meets_closeRenderer (henv : env.Reliable) (hP : Uncounted P)
    (hclosed : ∀ c, P c → P { c with renderer := none }) :
    Meets P (closeRenderer env) (fun _ => P) fun _ _ => False := by
  refine meets_get fun r hr => ?_
  refine Meets.pre (P := P) ?_ fun c hc => hc ▸ hr
  by_cases hrenderer : r.renderer.isSome = true
  · rw [if_pos hrenderer]
    refine (meets_next hP).bind fun n => ?_
    rw [henv.closes n]
    exact meets_modify fun c hc => hclosed c hc
  · rw [if_neg hrenderer]
    exact meets_pure fun _ hc => hc

/-- **`close` leaves nothing open.** -/
theorem meets_close (henv : env.Reliable) (template : ChatTemplate) :
    Meets (fun c => Coherent template c.history) (close env) (fun _ => Closed template)
      fun _ _ => False := by
  refine (meets_closeVision henv uncounted_coherent fun _ hc => hc).bind fun _ => ?_
  refine (meets_closeSession henv (fun _ _ hc => hc) fun _ hc => hc).bind fun _ => ?_
  refine (meets_closeRenderer henv (fun _ _ hc => hc) fun _ hc => hc).bind fun _ => ?_
  refine meets_modify fun c hc => ?_
  obtain ⟨⟨hcoherent, hvision⟩, hsession⟩ := hc
  exact ⟨hsession, hvision, hcoherent⟩

/-- A client whose base is being prefilled. -/
structure Preparing (template : ChatTemplate) (messages : List ClientMessage)
    (session : Option NativeSession) (c : LiteRTChatClient) : Prop where
  renderer_eq : c.renderer = some messages
  session_eq : c.session = session
  vision_eq : c.vision = none
  coherent : Coherent template c.history

theorem rendering_system (template : ChatTemplate) {m : ClientMessage} (hrole : m.role = "system") :
    template.rendering [m] [m] = [Resident.prefilled (template.preface [m])] := by
  simp [ChatTemplate.rendering, ChatTemplate.piece, hrole]

/-- A session that is at its base. -/
theorem seated_based (hcoherent : Coherent template c.history) (hvision : c.vision = none)
    {s : NativeSession} (hsession : c.session = some s)
    (hrenderer : c.renderer = some c.baseMessages)
    (hpreface : c.basePreface = template.preface c.baseMessages)
    (hresident : s.resident = template.rendering c.baseMessages c.baseMessages)
    (hcheckpoint : s.checkpoint = some (template.rendering c.baseMessages c.baseMessages))
    (hsynced : c.syncedMessages = c.baseMessages) (hleft : leftover c.history = []) :
    Seated template c where
  base := by
    intro s' hs'
    obtain rfl := Option.some.inj (hsession.symm.trans hs')
    exact ⟨hrenderer, hpreface, hcheckpoint⟩
  coherent := hcoherent
  dialogue := fun d hd => by cases hvision.symm.trans hd
  length_eq := by
    intro _ s' hs'
    obtain rfl := Option.some.inj (hsession.symm.trans hs')
    rw [hresident, hleft, hsynced, ChatTemplate.length_rendering, List.length_nil, Nat.add_zero]
  resident_eq := by
    intro _ _ s' hs'
    obtain rfl := Option.some.inj (hsession.symm.trans hs')
    rw [hsynced]
    exact hresident
  vision_eq := hvision
  session_ne := fun h => by cases hsession.symm.trans h

/-- **A base is prefilled.** -/
theorem meets_prefillBase (m : ClientMessage) (hrole : m.role = "system") :
    Meets (Closed env.template) (prefillBase env [m]) (fun _ => Seated env.template)
      fun e c => e = ClientError.other ∧ Coherent env.template c.history := by
  have hraised : ∀ {session : Option NativeSession} (c : LiteRTChatClient),
      Preparing env.template [m] session c →
        ClientError.other = ClientError.other ∧ Coherent env.template c.history :=
    fun c hc => ⟨rfl, hc.coherent⟩
  refine (meets_attempt (fun c _ hc => ⟨hc.session_eq, hc.vision_eq, hc.coherent⟩)
    fun c hc => ⟨rfl, hc.coherent⟩).bind fun _ => ?_
  refine (meets_modify (R := fun _ => Preparing env.template [m] none)
    fun c hc => ⟨rfl, hc.session_eq, hc.vision_eq, hc.coherent⟩).bind fun _ => ?_
  have huncounted : ∀ session, Uncounted (Preparing env.template [m] session) :=
    fun _ c _ hc => ⟨hc.renderer_eq, hc.session_eq, hc.vision_eq, hc.coherent⟩
  refine (meets_attempt (huncounted _) hraised).bind fun _ => ?_
  refine (meets_refuse (R := fun _ => Preparing env.template [m] none) (fun _ _ hc => hc)
    fun _ => hraised).bind fun _ => ?_
  -- From here on the preface of the base is known.
  let prepared (session : Option NativeSession) (c : LiteRTChatClient) : Prop :=
    Preparing env.template [m] session c ∧ c.basePreface = env.template.preface [m]
  have hknown : ∀ session, Uncounted (prepared session) :=
    fun session c n hc => ⟨huncounted session c n hc.1, hc.2⟩
  refine (meets_modify (R := fun _ => prepared none) fun c hc =>
    ⟨⟨hc.renderer_eq, hc.session_eq, hc.vision_eq, hc.coherent⟩, rfl⟩).bind fun _ => ?_
  refine (meets_attempt (hknown _) fun c hc => hraised c hc.1).bind fun _ => ?_
  refine (meets_modify (R := fun _ => prepared (some ⟨[], none⟩)) fun c hc =>
    ⟨⟨hc.1.renderer_eq, rfl, hc.1.vision_eq, hc.1.coherent⟩, hc.2⟩).bind fun _ => ?_
  refine (meets_append (hknown _)
    (Q := fun _ => prepared (some ⟨[Resident.prefilled (env.template.preface [m])], none⟩))
    (fun _ => meets_modify fun c hc => ?_) fun c l hc => ⟨rfl, hc.1.coherent⟩).bind fun _ => ?_
  · refine ⟨⟨hc.1.renderer_eq, ?_, hc.1.vision_eq, hc.1.coherent⟩, hc.2⟩
    simp only [hc.1.session_eq, Option.map_some, List.nil_append]
  refine (meets_attempt (hknown _) fun c hc => hraised c hc.1).bind fun n => ?_
  refine (meets_refuse
    (R := fun _ => prepared (some ⟨[Resident.prefilled (env.template.preface [m])], none⟩))
    (fun _ _ hc => hc) fun _ c hc => hraised c hc.1).bind fun _ => ?_
  let based (c : LiteRTChatClient) : Prop :=
    prepared (some ⟨[Resident.prefilled (env.template.preface [m])], none⟩) c ∧
      c.baseMessages = [m] ∧ c.syncedMessages = [m]
  refine (meets_modify (R := fun _ => based) fun c hc =>
    ⟨⟨⟨hc.1.renderer_eq, hc.1.session_eq, hc.1.vision_eq, hc.1.coherent⟩, hc.2⟩, rfl, rfl⟩).bind
    fun _ => ?_
  refine (meets_attempt (P := based) (fun c n hc => ⟨hknown _ c n hc.1, hc.2⟩)
    fun c hc => hraised c hc.1.1).bind fun _ => ?_
  -- The checkpoint is the base.
  refine (meets_modify (R := fun _ c => c.syncedMessages = [m] ∧ c.baseMessages = [m] ∧
    c.basePreface = env.template.preface [m] ∧
    Preparing env.template [m] (some ⟨[Resident.prefilled (env.template.preface [m])],
      some [Resident.prefilled (env.template.preface [m])]⟩) c) fun c hc => ?_).bind fun _ => ?_
  · obtain ⟨⟨hpreparing, hpreface⟩, hbase, hsynced⟩ := hc
    refine ⟨hsynced, hbase, hpreface, hpreparing.renderer_eq, ?_, hpreparing.vision_eq,
      hpreparing.coherent⟩
    simp only [hpreparing.session_eq, Option.map_some]
  refine meets_modify fun c hc => ?_
  obtain ⟨hsynced, hbase, hpreface, hpreparing⟩ := hc
  have hrendering : [Resident.prefilled (env.template.preface [m])] =
      env.template.rendering c.baseMessages c.baseMessages := by
    rw [hbase, rendering_system env.template hrole]
  rw [← hbase] at hpreface hsynced
  exact seated_based (hpreparing.coherent.cons True.intro) hpreparing.vision_eq
    hpreparing.session_eq (by rw [hpreparing.renderer_eq, hbase]) hpreface hrendering
    (congrArg some hrendering) hsynced rfl

theorem meets_checkBase (messages : List ClientMessage) (hE : ∀ e c, P c → E e c) :
    Meets P (checkBase messages)
      (fun _ c => P c ∧ ∃ m : ClientMessage, messages = [m] ∧ m.role = "system") E := by
  unfold checkBase
  split
  · rename_i m
    by_cases hrole : m.role = "system"
    · rw [if_pos hrole]
      split
      · split_ifs
        · exact meets_throw (hE _)
        · exact meets_pure fun c hc => ⟨hc, m, rfl, hrole⟩
      · exact meets_throw (hE _)
    · rw [if_neg hrole]
      exact meets_throw (hE _)
  · exact meets_throw (hE _)

/-- **A base is prepared, or everything is closed.** -/
theorem meets_preparePrefix (henv : env.Reliable) (messages : List ClientMessage) :
    Meets (Intact env.template) (preparePrefix env messages) (fun _ => Seated env.template)
      fun _ => Intact env.template := by
  refine (meets_checkBase messages fun _ _ hc => hc).bind fun _ => ?_
  intro c hc
  obtain ⟨hintact, m, rfl, hrole⟩ := hc
  have hprefill : Meets (fun c => Coherent env.template c.history)
      (do close env; prefillBase env [m]) (fun _ => Seated env.template)
      fun e c => e = ClientError.other ∧ Coherent env.template c.history :=
    ((meets_close henv _).conseq (fun _ hc => hc) (fun _ _ hc => hc)
      fun _ _ hc => hc.elim).bind fun _ => meets_prefillBase m hrole
  refine hprefill.tryCatch (fun e => ?_) c hintact.coherent
  cases e with
  | modelClient => exact meets_throw fun _ hc => by cases hc.1
  | other =>
      refine ((meets_close henv env.template).conseq (fun _ hc => hc.2)
        (fun _ _ hc => hc) fun _ _ hc => hc.elim).bind fun _ => ?_
      exact meets_throw fun _ hc => hc.intact

/-- A client whose session was rewound. -/
def Rewound (template : ChatTemplate) (c : LiteRTChatClient) : Prop :=
  c.vision = none ∧ Coherent template c.history ∧ ∃ s, c.session = some s ∧
    c.renderer = some c.baseMessages ∧ c.basePreface = template.preface c.baseMessages ∧
    s.resident = template.rendering c.baseMessages c.baseMessages ∧
    s.checkpoint = some (template.rendering c.baseMessages c.baseMessages)

/-- The checkpoint is there, so that the rewind is done. -/
theorem meets_rewind (henv : env.Reliable) :
    Meets (fun c => (Founded env.template c ∧ c.session ≠ none) ∧ c.vision = none) (rewind env)
      (fun _ => Rewound env.template) fun _ _ => False := by
  refine (meets_next fun c _ hc => ⟨⟨⟨hc.1.1.base, hc.1.1.coherent⟩, hc.1.2⟩, hc.2⟩).bind
    fun n => ?_
  refine meets_get fun r hr => ?_
  obtain ⟨⟨hfounded, hsession⟩, hvision⟩ := hr
  obtain ⟨s, hs⟩ := Option.ne_none_iff_exists'.1 hsession
  obtain ⟨hrenderer, hpreface, hcheckpoint⟩ := hfounded.base s hs
  rw [hs, Option.bind_some, hcheckpoint]
  dsimp only
  rw [henv.rewinds n]
  refine meets_modify fun c hc => ?_
  rw [hc]
  refine ⟨hvision, hfounded.coherent,
    ⟨env.template.rendering r.baseMessages r.baseMessages, s.checkpoint⟩, ?_, hrenderer, hpreface,
    rfl, hcheckpoint⟩
  rw [hs, Option.map_some]

/-- **A client goes back to its base**, or stays as it is. -/
theorem meets_resetToBase (henv : env.Reliable) (messages : List ClientMessage) :
    Meets (Intact env.template) (resetToBase env messages) (fun _ => Seated env.template)
      fun _ => Intact env.template := by
  refine meets_get fun r hr => ?_
  split_ifs with hrefused
  · exact meets_throw fun c hc => hc ▸ hr
  have hsome : r.session ≠ none := fun h => hrefused (Or.inr (Or.inl h))
  suffices hreset : Meets (fun c => c = r) (do
      closeVision env
      rewind env
      modify fun c =>
        { c with
          residentTokens := some c.baseResidentTokens
          syncedMessages := c.baseMessages }
      note ClientEvent.based) (fun _ => Seated env.template) fun _ _ => False from
    hreset.tryCatch fun e _ hc => hc.elim
  refine Meets.pre (P := fun c => Founded env.template c ∧ c.session ≠ none) ?_ fun c hc => by
    rw [hc]
    exact ⟨hr.toFounded, hsome⟩
  refine (meets_closeVision henv (fun c _ hc => ⟨⟨hc.1.base, hc.1.coherent⟩, hc.2⟩)
    fun c hc => ⟨⟨hc.1.base, hc.1.coherent⟩, hc.2⟩).bind fun _ => ?_
  refine (meets_rewind henv).bind fun _ => ?_
  refine (meets_modify (R := fun _ c => c.syncedMessages = c.baseMessages ∧
    Rewound env.template c) fun c hc => ?_).bind fun _ => ?_
  · exact ⟨rfl, hc⟩
  refine meets_modify fun c hc => ?_
  obtain ⟨hsynced, hvision, hcoherent, s, hs, hrenderer, hpreface, hresident, hcheckpoint⟩ := hc
  exact seated_based (hcoherent.cons True.intro) hvision hs hrenderer hpreface hresident
    hcheckpoint hsynced rfl

/-- A client whose session can take a turn after `earlier`. -/
def Ready (template : ChatTemplate) (earlier : List ClientMessage) (c : LiteRTChatClient) : Prop :=
  Seated template c ∧ earlier = c.syncedMessages

theorem meets_requireReset (henv : env.Reliable) (allowPrefixReset : Bool)
    (messages : List ClientMessage) :
    Meets (Intact env.template) (requireReset env allowPrefixReset messages)
      (fun _ => Ready env.template messages.dropLast) fun _ => Intact env.template := by
  unfold requireReset
  split_ifs with hshape hsystem
  · exact meets_throw fun _ hc => hc
  · exact meets_throw fun _ hc => hc
  refine meets_get fun r hr => ?_
  have hsynced : Meets (Seated env.template)
      (do
        let c ← get
        if messages.dropLast ≠ c.syncedMessages then throw ClientError.modelClient else pure () :
        ClientM Unit)
      (fun _ => Ready env.template messages.dropLast) fun _ => Intact env.template := by
    refine meets_get fun r hr => ?_
    split_ifs with hne
    · exact meets_throw fun c hc => hc ▸ hr.toIntact
    · exact meets_pure fun c hc => hc ▸ ⟨hr, not_not.1 hne⟩
  refine Meets.pre (P := Intact env.template) ?_ fun c hc => hc ▸ hr
  dsimp only
  split_ifs
  · exact (meets_resetToBase henv _).bind fun _ => hsynced
  · exact (meets_preparePrefix henv _).bind fun _ => hsynced

/-! #### A turn of the session -/

/-- What a turn that is under way has changed. -/
def Turning (c₀ : LiteRTChatClient) (history : List ClientEvent) (pieces : List Resident)
    (c : LiteRTChatClient) : Prop :=
  ∃ n, c = { filled pieces c₀ with calls := n, history }

theorem uncounted_turning (c₀ : LiteRTChatClient) (history : List ClientEvent)
    (pieces : List Resident) : Uncounted (Turning c₀ history pieces) := by
  rintro _ n ⟨m, rfl⟩
  exact ⟨n, rfl⟩

theorem Turning.filled {c₀ c : LiteRTChatClient} {pieces : List Resident}
    (h : Turning c₀ history pieces c) (l : List Resident) :
    Turning c₀ history (pieces ++ l) (filled l c) := by
  obtain ⟨n, rfl⟩ := h
  refine ⟨n, ?_⟩
  simp only [LiteRTChatClient.filled, Option.map_map, Function.comp_def, List.append_assoc]

/-- What is left of a turn that has failed. -/
def Spoilt (c₀ : LiteRTChatClient) (e : ClientEvent) (c : LiteRTChatClient) : Prop :=
  ∃ history pieces, (history = c₀.history ∨ history = e :: c₀.history) ∧
    Turning c₀ history pieces c

theorem Turning.spoilt {c₀ c : LiteRTChatClient} {e : ClientEvent} {pieces : List Resident}
    (h : Turning c₀ (e :: c₀.history) pieces c) : Spoilt c₀ e c := ⟨_, _, Or.inr rfl, h⟩

/-- **The reply** is read, or something of it is left. -/
theorem meets_decode (c₀ : LiteRTChatClient) (e : ClientEvent) (pieces : List Resident) :
    Meets (Turning c₀ (e :: c₀.history) pieces) (decode env)
      (fun content => Turning c₀ (e :: c₀.history) (pieces ++ [Resident.generated content]))
      fun _ => Spoilt c₀ e := by
  refine meets_append (uncounted_turning _ _ _) (fun n => ?_)
    fun c l hc => (hc.filled l).spoilt
  have hleft : ∀ (e' : ClientError), Meets (Turning c₀ (e :: c₀.history) pieces)
      (do put (env.left n); throw e' : ClientM PyStr)
      (fun content => Turning c₀ (e :: c₀.history) (pieces ++ [Resident.generated content]))
      fun _ => Spoilt c₀ e := by
    intro e'
    refine (meets_modify (R := fun _ => Spoilt c₀ e) fun c hc => ?_).bind fun _ => ?_
    · exact (hc.filled (env.left n)).spoilt
    · exact meets_throw fun _ hc => hc
  cases env.answer n with
  | none => exact hleft _
  | some content =>
      dsimp only
      split_ifs
      · exact hleft _
      · refine (meets_modify (R := fun _ => Turning c₀ (e :: c₀.history)
          (pieces ++ [Resident.generated content])) fun c hc => ?_).bind fun _ => ?_
        · exact hc.filled _
        · exact meets_pure fun _ hc => hc

/-- The record of a turn that begins. -/
def turnEvent (messages : List ClientMessage) (c : LiteRTChatClient) : ClientEvent :=
  ClientEvent.prefill (c.renderer.getD []) messages c.resident

theorem Ready.proper {messages : List ClientMessage} (h : Ready template messages.dropLast c) :
    Proper template c.history (turnEvent messages c) := by
  obtain ⟨s, hs⟩ := Option.ne_none_iff_exists'.1 h.1.session_ne
  have hresident : c.resident = s.resident := by rw [resident, hs]
  obtain ⟨hrenderer, -, -⟩ := h.1.base s hs
  change c.resident = template.rendering (c.renderer.getD []) messages.dropLast ↔ _
  rw [hresident, hrenderer, Option.getD_some, h.2]
  exact h.1.resident_eq_iff h.1.vision_eq hs

/-- What a turn leaves when it has returned. -/
def Turned (c₀ : LiteRTChatClient) (messages : List ClientMessage) (last : ClientMessage)
    (template : ChatTemplate) (content : PyStr) (c : LiteRTChatClient) : Prop :=
  ∃ turn tokens c',
    ChatTemplate.suffix c₀.basePreface (template.message (c₀.renderer.getD []) last) = some turn ∧
    Turning c₀ (turnEvent messages c₀ :: c₀.history)
      [Resident.prefilled turn, Resident.generated content] c' ∧
    c = { c' with
      residentTokens := tokens
      syncedMessages := messages ++ [ClientMessage.reply content] }

/-- **A turn** is done, or something of it is left in the session. -/
theorem meets_textTurn (c₀ : LiteRTChatClient) (messages : List ClientMessage)
    (last : ClientMessage) :
    Meets (fun c => c = c₀) (textTurn env messages last)
      (Turned c₀ messages last env.template) fun _ => Spoilt c₀ (turnEvent messages c₀) := by
  have hfilled : filled [] c₀ = c₀ := by
    cases c₀ with
    | mk renderer vision session =>
        cases session <;> simp [filled]
  have hstart : ∀ c, c = c₀ → Turning c₀ c₀.history [] c := by
    rintro c rfl
    exact ⟨c.calls, hfilled.symm⟩
  have hearly : ∀ c, Turning c₀ c₀.history [] c → Spoilt c₀ (turnEvent messages c₀) c :=
    fun c hc => ⟨_, _, Or.inl rfl, hc⟩
  refine Meets.pre (P := Turning c₀ c₀.history []) ?_ hstart
  refine (meets_attempt (uncounted_turning _ _ _) hearly).bind fun _ => ?_
  refine meets_get fun r hr => ?_
  obtain ⟨n, rfl⟩ := hr
  rw [hfilled]
  dsimp only
  cases hturn : ChatTemplate.suffix c₀.basePreface
      (env.template.message (c₀.renderer.getD []) last) with
  | none => exact meets_throw fun c hc => hearly c ⟨n, by rw [hc, hfilled]⟩
  | some turn =>
      dsimp only
      refine (meets_modify (R := fun _ => Turning c₀ (turnEvent messages c₀ :: c₀.history) [])
        fun c hc => ?_).bind fun _ => ?_
      · rw [hc]
        exact ⟨n, by rw [hfilled]; rfl⟩
      refine (meets_append (uncounted_turning _ _ _) (Q := fun _ =>
        Turning c₀ (turnEvent messages c₀ :: c₀.history) [Resident.prefilled turn])
        (fun _ => meets_modify fun c hc => hc.filled _)
        fun c l hc => (hc.filled l).spoilt).bind fun _ => ?_
      refine (meets_attempt (uncounted_turning _ _ _) fun _ hc => hc.spoilt).bind
        fun prefilled => ?_
      refine (meets_decode c₀ _ _).bind fun content => ?_
      refine (meets_attempt (uncounted_turning _ _ _) fun _ hc => hc.spoilt).bind
        fun decoded => ?_
      refine meets_get fun r hr => ?_
      cases r.residentTokens with
      | none => exact meets_throw fun c hc => hc ▸ hr.spoilt
      | some tokens =>
          refine (meets_modify (R := fun _ => Turned c₀ messages last env.template content)
            fun c hc => ?_).bind fun _ => meets_pure fun _ hc => hc
          rw [hc]
          exact ⟨turn, _, r, hturn, hr, rfl⟩

/-- A turn that has failed leaves an intact client. -/
theorem Ready.intact_spoilt {messages : List ClientMessage} {c₀ : LiteRTChatClient}
    (h : Ready template messages.dropLast c₀) (hc : Spoilt c₀ (turnEvent messages c₀) c) :
    Intact template { c with
      history := ClientEvent.failed (c.resident.drop c₀.resident.length) :: c.history } := by
  obtain ⟨history, pieces, hhistory, n, rfl⟩ := hc
  obtain ⟨s, hs⟩ := Option.ne_none_iff_exists'.1 h.1.session_ne
  have hcoherent : Coherent template history := by
    rcases hhistory with rfl | rfl
    · exact h.1.coherent
    · exact h.1.coherent.cons h.proper
  have hleft : leftover history = leftover c₀.history := by
    rcases hhistory with rfl | rfl
    · rfl
    · rfl
  have hpieces : ((filled pieces c₀).resident).drop c₀.resident.length = pieces := by
    simp [filled, resident, hs]
  have hsession : ∀ s', (filled pieces c₀).session = some s' →
      s' = { s with resident := s.resident ++ pieces } := by
    intro s' hs'
    simp only [filled, hs, Option.map_some, Option.some.injEq] at hs'
    exact hs'.symm
  have hlength := h.1.length_eq h.1.vision_eq s hs
  constructor
  · constructor
    · intro s' hs'
      rw [hsession s' hs']
      exact h.1.base s hs
    · exact hcoherent.cons True.intro
  · intro d hd
    cases h.1.vision_eq.symm.trans hd
  · intro _ s' hs'
    rw [hsession s' hs']
    change (s.resident ++ pieces).length = c₀.syncedMessages.length +
      (leftover history ++ ((filled pieces c₀).resident).drop c₀.resident.length).length
    rw [hpieces, hleft, List.length_append, List.length_append, hlength, Nat.add_assoc]
  · intro _ hnil s' hs'
    change leftover history ++ ((filled pieces c₀).resident).drop c₀.resident.length = [] at hnil
    rw [hpieces, hleft, List.append_eq_nil_iff] at hnil
    rw [hsession s' hs']
    change s.resident ++ pieces = _
    rw [hnil.2, List.append_nil]
    exact h.1.resident_eq h.1.vision_eq hnil.1 s hs

/-- What the turn and its reply leave in a session. -/
theorem rendering_turn (template : ChatTemplate) (base : List ClientMessage)
    {messages : List ClientMessage} {last : ClientMessage} {turn : PyStr}
    (hlast : messages.getLast? = some last) (hrole : last.role = "user")
    (hturn : template.turn base last = some turn) (content : PyStr) :
    template.rendering base (messages ++ [ClientMessage.reply content]) =
      template.rendering base messages.dropLast ++
        [Resident.prefilled turn, Resident.generated content] := by
  have hmessages : messages = messages.dropLast ++ [last] :=
    (List.dropLast_append_getLast? last hlast).symm
  have hsystem : ("user" : PyStr) ≠ "system" := by decide
  have hassistant : ("user" : PyStr) ≠ "assistant" := by decide
  have hreply : ("assistant" : PyStr) ≠ "system" := by decide
  rw [hmessages, List.dropLast_concat, List.append_assoc]
  simp [ChatTemplate.rendering, ChatTemplate.piece, ClientMessage.reply, hrole, hsystem,
    hassistant, hreply, hturn]

/-- A turn that has returned leaves an intact client. -/
theorem Ready.intact_turned {messages : List ClientMessage} {last : ClientMessage}
    {c₀ : LiteRTChatClient} {content : PyStr} (h : Ready template messages.dropLast c₀)
    (hlast : messages.getLast? = some last) (hrole : last.role = "user")
    (hc : Turned c₀ messages last template content c) : Intact template c := by
  obtain ⟨turn, tokens, -, hturn, ⟨n, rfl⟩, rfl⟩ := hc
  obtain ⟨s, hs⟩ := Option.ne_none_iff_exists'.1 h.1.session_ne
  obtain ⟨hrenderer, hpreface, hcheckpoint⟩ := h.1.base s hs
  have hrendering := rendering_turn template c₀.baseMessages hlast hrole
    (by rw [ChatTemplate.turn, ← hpreface, ← hturn, hrenderer]; rfl) content
  have hsession : ∀ s', (filled [Resident.prefilled turn, Resident.generated content] c₀).session =
      some s' → s' = { s with
        resident := s.resident ++ [Resident.prefilled turn, Resident.generated content] } := by
    intro s' hs'
    simp only [filled, hs, Option.map_some, Option.some.injEq] at hs'
    exact hs'.symm
  constructor
  · constructor
    · intro s' hs'
      rw [hsession s' hs']
      exact ⟨hrenderer, hpreface, hcheckpoint⟩
    · exact h.1.coherent.cons h.proper
  · intro d hd
    cases h.1.vision_eq.symm.trans hd
  · intro _ s' hs'
    have hlength : (messages ++ [ClientMessage.reply content]).length =
        c₀.syncedMessages.length + 2 := by
      rw [← ChatTemplate.length_rendering template c₀.baseMessages, hrendering,
        List.length_append, ChatTemplate.length_rendering, h.2]
      rfl
    rw [hsession s' hs']
    change (s.resident ++ _).length = (messages ++ [ClientMessage.reply content]).length +
      (leftover c₀.history).length
    rw [hlength, List.length_append, h.1.length_eq h.1.vision_eq s hs, Nat.add_right_comm]
    rfl
  · intro _ hnil s' hs'
    rw [hsession s' hs']
    change s.resident ++ _ = template.rendering c₀.baseMessages _
    rw [hrendering, h.2, h.1.resident_eq h.1.vision_eq hnil s hs]

/-- **A turn of the session.** -/
theorem meets_chatText {messages : List ClientMessage} {last : ClientMessage}
    (hlast : messages.getLast? = some last) (hrole : last.role = "user") :
    Meets (Ready env.template messages.dropLast) (chatText env messages last)
      (fun _ => Intact env.template) fun _ => Intact env.template := by
  refine meets_get fun c₀ hready => ?_
  refine Meets.tryCatch ((meets_textTurn c₀ messages last).conseq (fun _ hc => hc)
    (fun _ _ hc => hready.intact_turned hlast hrole hc) fun _ _ hc => hc) fun e => ?_
  refine (meets_modify (R := fun _ => Intact env.template) fun c hc => ?_).bind fun _ =>
    meets_throw fun _ hc => hc
  exact hready.intact_spoilt hc

/-! #### A turn with images -/

/-- The conversation with images holds what comes before the turn. -/
def Shown (template : ChatTemplate) (dialogue : List ClientMessage) (c : LiteRTChatClient) :
    Prop := Founded template c ∧ c.vision = some dialogue

theorem uncounted_shown (dialogue : List ClientMessage) : Uncounted (Shown template dialogue) :=
  fun _ _ hc => ⟨⟨hc.1.base, hc.1.coherent⟩, hc.2⟩

theorem uncounted_founded : Uncounted (Founded template) :=
  fun _ _ hc => ⟨hc.base, hc.coherent⟩

/-- The conversation is there, or is made of the messages before the turn. -/
theorem meets_visionConversation (earlier : List ClientMessage) :
    Meets (fun c => Intact env.template c ∧ (c.vision.isSome = true → earlier = c.syncedMessages))
      (visionConversation env earlier) (fun _ => Shown env.template earlier)
      fun _ => Founded env.template := by
  refine meets_get fun r hr => ?_
  obtain ⟨hintact, hsynced⟩ := hr
  cases hvision : r.vision with
  | some d =>
      refine meets_pure fun c hc => ?_
      rw [hc]
      refine ⟨hintact.toFounded, ?_⟩
      rw [hvision, hintact.dialogue d hvision, hsynced (by rw [hvision]; rfl)]
  | none =>
      dsimp only
      refine Meets.pre (P := Founded env.template) ?_ fun c hc => hc ▸ hintact.toFounded
      refine (meets_refuse (R := fun _ => Founded env.template) (fun _ _ hc => hc)
        fun _ _ hc => hc).bind fun _ => ?_
      refine (meets_attempt uncounted_founded fun _ hc => hc).bind fun _ => ?_
      exact meets_modify fun c hc => ⟨⟨hc.base, hc.coherent⟩, rfl⟩

/-- **A turn with images** is in the conversation, which holds the synced messages when it
returns. -/
theorem meets_visionTurn {messages : List ClientMessage} {last : ClientMessage}
    (hlast : messages.getLast? = some last) :
    Meets (fun c => Intact env.template c ∧
        (c.vision.isSome = true → messages.dropLast = c.syncedMessages))
      (visionTurn env messages last) (fun _ => Intact env.template)
      fun _ => Founded env.template := by
  refine (meets_visionConversation messages.dropLast).bind fun _ => ?_
  refine (meets_refuse (R := fun _ => Shown env.template messages.dropLast) (fun _ _ hc => hc)
    fun _ _ hc => hc.1).bind fun _ => ?_
  refine meets_get fun r hr => ?_
  refine (meets_modify (R := fun _ => Shown env.template messages.dropLast) fun c hc => ?_).bind
    fun _ => ?_
  · rw [hc]
    refine ⟨⟨hr.1.base, hr.1.coherent.cons ?_⟩, hr.2⟩
    change r.vision.getD [] = _
    rw [hr.2, Option.getD_some]
  refine (meets_modify (R := fun _ => Shown env.template messages) fun c hc => ?_).bind
    fun _ => ?_
  · refine ⟨⟨hc.1.base, hc.1.coherent⟩, ?_⟩
    dsimp only
    rw [hc.2, Option.map_some, List.dropLast_append_getLast? last hlast]
  refine (meets_attempt (uncounted_shown messages) fun _ hc => hc.1).bind fun n => ?_
  cases env.answer n with
  | none => exact meets_throw fun _ hc => hc.1
  | some text =>
      dsimp only
      refine (meets_refuse (R := fun _ => Shown env.template messages) (fun _ _ hc => hc)
        fun _ _ hc => hc.1).bind fun _ => ?_
      refine (meets_attempt (uncounted_shown messages) fun _ hc => hc.1).bind fun _ => ?_
      refine (meets_modify (R := fun _ => Intact env.template) fun c hc => ?_).bind fun _ =>
        meets_pure fun _ hc => hc
      have hvision : c.vision.map
          (fun d => d ++ [ClientMessage.reply text]) =
          some (messages ++ [ClientMessage.reply text]) := by
        rw [hc.2, Option.map_some]
      refine ⟨⟨hc.1.base, hc.1.coherent⟩, fun d hd => ?_, fun hnone => ?_, fun hnone => ?_⟩
      · exact Option.some.inj (hd.symm.trans hvision)
      · cases hvision.symm.trans hnone
      · cases hvision.symm.trans hnone

/-- **A turn with images that fails leaves the dialogue**, and the session counts as empty. -/
theorem meets_chatMultimodal (henv : env.Reliable) {messages : List ClientMessage}
    {last : ClientMessage} (hlast : messages.getLast? = some last) :
    Meets (fun c => Intact env.template c ∧
        (c.vision.isSome = true → messages.dropLast = c.syncedMessages))
      (chatMultimodal env messages last) (fun _ => Intact env.template)
      fun _ => Intact env.template := by
  refine Meets.tryCatch (meets_visionTurn hlast) fun e => ?_
  refine ((meets_closeVision henv uncounted_founded
    fun c hc => ⟨hc.base, hc.coherent⟩).conseq (fun _ hc => hc) (fun _ _ hc => hc)
    fun _ _ hc => hc.elim).bind fun _ => ?_
  refine (meets_modify (R := fun _ => Intact env.template) fun c hc => ?_).bind fun _ =>
    meets_throw fun _ hc => hc
  obtain ⟨hfounded, hvision⟩ := hc
  have hresident : ∀ s, c.session = some s → c.resident = s.resident := by
    intro s hs
    rw [resident, hs]
  refine ⟨⟨hfounded.base, hfounded.coherent.cons True.intro⟩, fun d hd => ?_, fun _ s hs => ?_,
    fun _ hnil s hs => ?_⟩
  · cases hvision.symm.trans hd
  · change s.resident.length = 0 + c.resident.length
    rw [hresident s hs, Nat.zero_add]
  · change c.resident = [] at hnil
    rw [← hresident s hs, hnil]
    rfl

/-! #### The calls -/

theorem meets_resetIf (henv : env.Reliable) (p : LiteRTChatClient → Prop) [DecidablePred p]
    (allowPrefixReset : Bool) (messages : List ClientMessage)
    (hP : ∀ c, P c → Intact env.template c) :
    Meets P (resetIf env p allowPrefixReset messages)
      (fun _ c => Ready env.template messages.dropLast c ∨ (P c ∧ ¬p c))
      fun _ => Intact env.template := by
  refine meets_get fun r hr => ?_
  split_ifs with hp
  · exact (meets_requireReset henv allowPrefixReset messages).conseq (fun c hc => hc ▸ hP r hr)
      (fun _ _ hc => Or.inl hc) fun _ _ hc => hc
  · exact meets_pure fun c hc => hc ▸ Or.inr ⟨hr, hp⟩

/-- **A turn of the session runs on a session that is ready for it.** -/
theorem meets_chatSession (henv : env.Reliable) (allowPrefixReset : Bool)
    {messages : List ClientMessage} {last : ClientMessage}
    (hlast : messages.getLast? = some last) (hrole : last.role = "user") :
    Meets (fun c => Intact env.template c ∧ c.vision = none)
      (chatSession env allowPrefixReset messages last) (fun _ => Intact env.template)
      fun _ => Intact env.template := by
  let seated : LiteRTChatClient → Prop := Seated env.template
  refine Meets.bind (Q := fun _ => seated) ((meets_resetIf henv _ allowPrefixReset messages
    fun c hc => hc.1).conseq (fun _ hc => hc) (fun _ c hc => ?_) fun _ _ hc => hc) fun _ => ?_
  · rcases hc with hc | ⟨hc, hnone⟩
    · exact hc.1
    · refine ⟨hc.1, hc.2, fun hsession => hnone (Or.inl ?_)⟩
      rw [hsession]
      rfl
  refine Meets.bind (Q := fun _ => Ready env.template messages.dropLast)
    ((meets_resetIf (P := seated) henv _ allowPrefixReset messages
    fun c hc => hc.toIntact).conseq (fun _ hc => hc) (fun _ c hc => ?_) fun _ _ hc => hc)
    fun _ => meets_chatText hlast hrole
  rcases hc with hc | ⟨hc, hsynced⟩
  · exact hc
  · exact ⟨hc, not_not.1 hsynced⟩

theorem meets_chatTurn (henv : env.Reliable) (allowPrefixReset : Bool)
    {messages : List ClientMessage} {last : ClientMessage}
    (hlast : messages.getLast? = some last) (hrole : last.role = "user") :
    Meets (Intact env.template) (chatTurn env allowPrefixReset messages last)
      (fun _ => Intact env.template) fun _ => Intact env.template := by
  refine Meets.bind (Q := fun _ c => Intact env.template c ∧
    (c.vision.isSome = true → messages.dropLast = c.syncedMessages))
    ((meets_resetIf henv _ allowPrefixReset messages fun c hc => hc).conseq (fun _ hc => hc)
    (fun _ c hc => ?_) fun _ _ hc => hc) fun _ => ?_
  · rcases hc with hc | ⟨hc, hsynced⟩
    · exact ⟨hc.1.toIntact, fun _ => hc.2⟩
    · exact ⟨hc, fun hvision => by_contra fun hne => hsynced ⟨hvision, hne⟩⟩
  refine meets_get fun r hr => ?_
  split_ifs with hkind
  · exact (meets_chatMultimodal henv hlast).pre fun c hc => hc ▸ hr
  · refine (meets_chatSession henv allowPrefixReset hlast hrole).pre fun c hc => ?_
    rw [hc]
    exact ⟨hr.1, Option.not_isSome_iff_eq_none.1 fun h => hkind (Or.inl h)⟩

theorem meets_chat (henv : env.Reliable) (allowPrefixReset : Bool)
    (messages : List ClientMessage) :
    Meets (Intact env.template) (chat env allowPrefixReset messages)
      (fun _ => Intact env.template) fun _ => Intact env.template := by
  unfold chat
  cases hlast : messages.getLast? with
  | none => exact meets_throw fun _ hc => hc
  | some last =>
      dsimp only
      split_ifs with hrole
      · exact meets_throw fun _ hc => hc
      · exact meets_chatTurn henv allowPrefixReset hlast (not_not.1 hrole)

/-- **Every call keeps the client intact**, however it ends. -/
theorem intact_call (henv : env.Reliable) (allowPrefixReset : Bool) (i : Call) :
    Meets (Intact env.template) (call env allowPrefixReset i) (fun _ => Intact env.template)
      fun _ => Intact env.template := by
  cases i with
  | preparePrefix messages =>
      exact (meets_preparePrefix henv messages).conseq (fun _ hc => hc)
        (fun _ _ hc => hc.toIntact) fun _ _ hc => hc
  | resetToBase messages =>
      exact (meets_resetToBase henv messages).conseq (fun _ hc => hc)
        (fun _ _ hc => hc.toIntact) fun _ _ hc => hc
  | chat messages =>
      exact (meets_chat henv allowPrefixReset messages).bind fun _ => meets_pure fun _ hc => hc
  | close =>
      exact (meets_close henv _).conseq (fun _ hc => hc.coherent) (fun _ _ hc => hc.intact)
        fun _ _ hc => hc.elim

theorem intact_after (henv : env.Reliable) (allowPrefixReset : Bool)
    (hc : Intact env.template c) (i : Call) :
    Intact env.template (after env allowPrefixReset c i) := by
  have h := intact_call henv allowPrefixReset i c hc
  unfold after
  cases hcall : call env allowPrefixReset i c with
  | ok u c' =>
      rw [hcall] at h
      exact h
  | error e c' =>
      rw [hcall] at h
      exact h

theorem intact_initial : Intact template initial where
  base := nofun
  coherent := fun e earlier h => by cases List.suffix_nil.1 h
  dialogue := nofun
  length_eq := nofun
  resident_eq := nofun

/-- **What a client holds is what it takes to be there, unless a turn has failed.**  However its
calls were ordered and whichever native calls have raised: a turn of the session runs on exactly the
messages before it if nothing of a failed turn is left in the session since its last base, and on
something else if there is; a turn with images always runs on exactly the messages before it. -/
theorem prefix_coherent (henv : env.Reliable) (allowPrefixReset : Bool)
    (hc : (machine env allowPrefixReset).Reachable c) {earlier : List ClientEvent} :
    (∀ base messages resident,
      ClientEvent.prefill base messages resident :: earlier <:+ c.history →
        (resident = env.template.rendering base messages.dropLast ↔ leftover earlier = [])) ∧
      ∀ messages dialogue, ClientEvent.visionPrefill messages dialogue :: earlier <:+ c.history →
        dialogue = messages.dropLast := by
  have hintact : Intact env.template c := by
    refine Machine.Reachable.invariant hc ?_ fun s i _ hs => intact_after henv allowPrefixReset hs i
    rintro _ rfl
    exact intact_initial
  exact ⟨fun _ _ _ hs => hintact.coherent _ _ hs, fun _ _ hs => hintact.coherent _ _ hs⟩

/-! #### A turn on what a failed one has left -/

/-- Messages are rendered as their texts, and the tenth native call, which is to read the first
reply, raises. -/
def flaky : NativeEnv where
  template :=
    { preface := fun _ => "begin"
      message := fun _ m =>
        match m.content with
        | MessageContent.text body => PyStr.ofString "begin" ++ body
        | MessageContent.parts _ => "begin" }
  raises := fun n => decide (n = 9)
  closeRaises := fun _ => false
  rewindFails := fun _ => false
  left := fun _ => []
  count := fun _ => 1
  answer := fun _ => some "fine"
  streams := false

theorem flaky_reliable : flaky.Reliable := ⟨fun _ => rfl, fun _ => rfl⟩

/-- A base, and a turn that is asked for twice. -/
def askedTwice : List Call :=
  let system : ClientMessage := ⟨"system", MessageContent.text "be kind"⟩
  let question : ClientMessage := ⟨"user", MessageContent.text "hello"⟩
  [Call.preparePrefix [system], Call.chat [system, question], Call.chat [system, question]]

/-- The second turn is accepted while the first question is still in the session. -/
theorem prefix_coherent_flaky :
    ∃ base messages resident earlier,
      ClientEvent.prefill base messages resident :: earlier <:+
        ((machine flaky false).exec initial askedTwice).history ∧
      leftover earlier = [Resident.prefilled "hello"] ∧
      resident ≠ flaky.template.rendering base messages.dropLast := by
  have hreachable : (machine flaky false).Reachable
      ((machine flaky false).exec initial askedTwice) :=
    Machine.Reachable.exec (Machine.Reach.of_init rfl) askedTwice
  obtain ⟨base, messages, resident, earlier, hhistory, hleft⟩ :
      ∃ base messages resident earlier,
        ((machine flaky false).exec initial askedTwice).history =
          ClientEvent.prefill base messages resident :: earlier ∧
        leftover earlier = [Resident.prefilled "hello"] :=
    ⟨_, _, _, _, rfl, by decide +kernel⟩
  have hsuffix : ClientEvent.prefill base messages resident :: earlier <:+
      ((machine flaky false).exec initial askedTwice).history := hhistory ▸ List.suffix_refl _
  refine ⟨base, messages, resident, earlier, hsuffix, hleft, fun heq => ?_⟩
  have hnil := ((prefix_coherent flaky_reliable false hreachable).1 base messages resident
    hsuffix).1 heq
  cases hleft.symm.trans hnil

end LiteRTChatClient
