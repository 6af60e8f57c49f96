/-
**The inference server and its contexts.**

A request of the HTTP server runs in a native context.  Contexts are kept in two bounded tables,
one for texts and one for images, under the system prompt and the options of the request; a
context that is resident is continued, or rewound and given the whole history again.  One lock
covers a request from the choice of its context to the commit of its history.

The native runtime and the connection are the outside world: what they do during one request is
the value of type `RequestEnv` that the request is given.  Dialogues are lists of messages; the
texts that the chat template makes of them are not modelled.

Main definitions:

* `ChatMessage`, `InferenceRequest` — what `parse_request` returns;
* `NativeContext` — a context of the runtime, with the dialogue that is resident in it and a record
  of how it was closed and used;
* `Slot`, `InferenceService` — the tables;
* `InferenceService.complete`, `InferenceService.close` — the service;
* `InferenceService.machine` — any sequence of requests.

Main results:

* `InferenceService.acquire_cases`, `InferenceService.work_cases` — what a request does to the
  tables.
-/

import CatAgent.Json
import CatAgent.Machine
import CatAgent.PyDict

set_option relaxedAutoImplicit false
set_option autoImplicit false

/-! ### Requests -/

/-- `message["role"]`. -/
inductive ChatRole where
  | system
  | user
  | assistant
deriving DecidableEq

/-- A block of a message that holds images. -/
inductive ContentPart where
  | text (s : PyStr)
  | image (url : PyStr)
deriving DecidableEq

/-- `message["content"]`, as `normalize_content` leaves it. -/
inductive ChatContent where
  | text (s : PyStr)
  | parts (l : List ContentPart)
deriving DecidableEq

/-- A message of a request. -/
structure ChatMessage where
  role : ChatRole
  content : ChatContent
deriving DecidableEq

/-- The options of a request: `{"sampler": …, "max_output_tokens": …}`. -/
structure InferenceOptions where
  sampler : List (PyStr × Json)
  maxOutputTokens : ℕ
deriving DecidableEq

/-- What `parse_request` returns: the last message is the user's, and only the first one may be a
system prompt. -/
structure InferenceRequest where
  /-- `messages[:-1]`. -/
  earlier : List ChatMessage
  /-- `messages[-1]`. -/
  last : ChatMessage
  options : InferenceOptions
  last_user : last.role = ChatRole.user
  system_first : ∀ m ∈ earlier.tail, m.role ≠ ChatRole.system

/-- The key of a slot. -/
abbrev SlotKey := List ChatMessage × InferenceOptions

namespace InferenceRequest

/-- `messages`. -/
def messages (r : InferenceRequest) : List ChatMessage := r.earlier ++ [r.last]

/-- `messages[:1] if messages[0]["role"] == "system" else []`. -/
def base (r : InferenceRequest) : List ChatMessage :=
  match r.earlier with
  | m :: _ => if m.role = ChatRole.system then [m] else []
  | [] => []

/-- `json.dumps([base, options], sort_keys=True)`. -/
def key (r : InferenceRequest) : SlotKey := (r.base, r.options)

/-- The block is an image. -/
def isImage : ContentPart → Bool
  | ContentPart.image _ => true
  | _ => false

/-- `has_images(messages)`. -/
def vision (r : InferenceRequest) : Bool :=
  r.messages.any fun m =>
    match m.content with
    | ChatContent.parts l => l.any isImage
    | _ => false

end InferenceRequest

/-! ### Contexts -/

/-- A context that the runtime has returned. -/
structure NativeContext where
  /-- It is a `VisionContext`. -/
  vision : Bool
  /-- The base that is saved as a checkpoint. -/
  base : List ChatMessage
  /-- The dialogue in the session or the conversation; a vision context has none at first. -/
  resident : Option (List ChatMessage)
  /-- How often it has been closed. -/
  closes : ℕ
  /-- How often it has been used after it was closed. -/
  lateUses : ℕ
deriving DecidableEq

namespace NativeContext

/-- `new_context(base, options)` or `new_vision_context(base, options)`. -/
def create (vision : Bool) (base : List ChatMessage) : NativeContext :=
  { vision := vision, base := base, resident := if vision then none else some base
    closes := 0, lateUses := 0 }

/-- The context is used. -/
def use (c : NativeContext) : NativeContext :=
  { c with lateUses := if c.closes = 0 then c.lateUses else c.lateUses + 1 }

/-- `close()`. -/
def close (c : NativeContext) : NativeContext := { c with closes := c.closes + 1 }

/-- What the renderer makes of the new turn: with its own messages before it, or with others. -/
def rendered (c : NativeContext) (earlier : List ChatMessage) (last : ChatMessage)
    (continuation : Bool) : List ChatMessage :=
  if continuation ∨ earlier = c.base then c.base ++ [last] else earlier ++ [last]

/-- `prefill(messages, continuation)` of a text context; `none` stands for the errors about the
chat template. -/
def prefillText (c : NativeContext) (earlier : List ChatMessage) (last : ChatMessage)
    (continuation : Bool) : Option (List ChatMessage) :=
  let resident := if continuation then c.resident.getD [] else c.base
  let rendered := c.rendered earlier last continuation
  if ¬ c.base <+: rendered then none
  else if rendered.drop c.base.length = [] then none
  else some (resident ++ rendered.drop c.base.length)

/-- `prefill(messages, continuation)` of a vision context: the conversation that the new turn will
be sent to. -/
def prefillVision (c : NativeContext) (earlier : List ChatMessage) (continuation : Bool) :
    List ChatMessage :=
  match c.resident with
  | none => earlier
  | some resident => if continuation then resident else earlier

/-- `prefill(messages, continuation)`, and the new turn that `decode` begins with: the dialogue in
the context when the model starts to answer. -/
def prefill (c : NativeContext) (earlier : List ChatMessage) (last : ChatMessage)
    (continuation : Bool) : Option (List ChatMessage) :=
  if c.vision then some (c.prefillVision earlier continuation ++ [last])
  else c.prefillText earlier last continuation

end NativeContext

/-! ### The service -/

/-- `Slot`, and the number of the request that last succeeded in it. -/
structure Slot where
  context : ℕ
  history : List ChatMessage
  usedAt : ℕ
deriving DecidableEq

/-- What `emit` does with a piece of text. -/
inductive EmitOutcome where
  | delivered
  | osError
  | raised (message : PyStr)

/-- What the outside world does during one request. -/
structure RequestEnv where
  /-- `new_context` or `new_vision_context`. -/
  create : Except PyStr Unit
  /-- `prefill`: the cached and the evaluated tokens. -/
  prefill : Except PyStr (ℕ × ℕ)
  /-- What `decode` yields, and what `emit` does with it. -/
  pieces : List (PyStr × EmitOutcome)
  /-- What `decode` raises in the end. -/
  decodeError : Option PyStr
  /-- `finish`. -/
  finish : Except PyStr ℕ
  /-- `cached_tokens` and `prompt_tokens` of a vision context. -/
  visionCounts : ℕ × ℕ
  /-- There is an `emit`. -/
  stream : Bool

/-- What a request returns. -/
structure Completion where
  content : PyStr
  promptTokens : ℕ
  completionTokens : ℕ
  cachedTokens : ℕ
  /-- `finish_reason` is `"length"`, and not `"stop"`. -/
  truncated : Bool
deriving DecidableEq

/-- `InferenceService`, with the contexts that the runtime has returned so far. -/
structure InferenceService where
  maxContexts : ℕ
  maxVisionContexts : ℕ
  maxNumTokens : ℕ
  slots : PyDict SlotKey Slot
  visionSlots : PyDict SlotKey Slot
  contexts : List NativeContext
  /-- The number of requests so far. -/
  clock : ℕ
  /-- The requests whose decoding has started, with the dialogue that was then resident. -/
  decodes : List (List ChatMessage × List ChatMessage)

namespace InferenceService

/-- `self.vision_slots if vision else self.slots`. -/
def table (vision : Bool) (s : InferenceService) : PyDict SlotKey Slot :=
  if vision then s.visionSlots else s.slots

/-- `self.max_vision_contexts if vision else self.max_contexts`. -/
def capacity (vision : Bool) (s : InferenceService) : ℕ :=
  if vision then s.maxVisionContexts else s.maxContexts

/-- The table is replaced. -/
def setTable (vision : Bool) (t : PyDict SlotKey Slot) (s : InferenceService) : InferenceService :=
  if vision then { s with visionSlots := t } else { s with slots := t }

/-- Something happens to a context. -/
def onContext (f : NativeContext → NativeContext) (c : ℕ) (s : InferenceService) :
    InferenceService :=
  { s with contexts := s.contexts.modify c f }

/-- `slots.popitem(last=False)`, and the context is closed. -/
def evict (vision : Bool) (s : InferenceService) : InferenceService :=
  match (s.table vision).entries with
  | [] => s
  | (key, old) :: _ =>
      (s.setTable vision ((s.table vision).erase key)).onContext NativeContext.close old.context

/-- `slots.pop(key, None)`, and the context is closed. -/
def discard (vision : Bool) (key : SlotKey) (s : InferenceService) : InferenceService :=
  match (s.table vision).get? key with
  | none => s
  | some broken =>
      (s.setTable vision ((s.table vision).erase key)).onContext NativeContext.close broken.context

/-- A new context, and its slot. -/
def install (r : InferenceRequest) (s : InferenceService) : InferenceService :=
  { s.setTable r.vision ((s.table r.vision).set r.key
      { context := s.contexts.length, history := r.base, usedAt := s.clock }) with
    contexts := s.contexts ++ [NativeContext.create r.vision r.base] }

/-- The choice of the context, and whether it is cold. -/
def acquire (env : RequestEnv) (r : InferenceRequest) (s : InferenceService) :
    Except PyStr Bool × InferenceService :=
  match (s.table r.vision).get? r.key with
  | some _ => (Except.ok false, s)
  | none =>
      let s :=
        if s.capacity r.vision ≤ (s.table r.vision).entries.length then s.evict r.vision else s
      match env.create with
      | Except.error message => (Except.error message, s)
      | Except.ok () => (Except.ok true, s.install r)

/-- The loop over `decode`: the pieces, and whether the client has gone. -/
def collect (stream : Bool) :
    List (PyStr × EmitOutcome) → PyStr → Bool → Except PyStr (PyStr × Bool)
  | [], content, disconnected => Except.ok (content, disconnected)
  | (text, outcome) :: pieces, content, disconnected =>
      if stream && !text.isEmpty && !disconnected then
        match outcome with
        | EmitOutcome.delivered => collect stream pieces (content ++ text) disconnected
        | EmitOutcome.osError => collect stream pieces (content ++ text) true
        | EmitOutcome.raised message => Except.error message
      else collect stream pieces (content ++ text) disconnected

/-- `decode` begins, with the dialogue that is then resident. -/
def startDecode (r : InferenceRequest) (resident : List ChatMessage) (c : ℕ)
    (s : InferenceService) : InferenceService :=
  { s.onContext NativeContext.use c with decodes := (r.messages, resident) :: s.decodes }

/-- What follows the decoding: the counts, and the checks of the reply. -/
def conclude (env : RequestEnv) (r : InferenceRequest) (maxNumTokens cached evaluated : ℕ)
    (content : PyStr) (disconnected : Bool) : Except PyStr Completion :=
  match env.finish with
  | Except.error message => Except.error message
  | Except.ok completionTokens =>
      let cached := if r.vision then env.visionCounts.1 else cached
      let promptTokens := if r.vision then env.visionCounts.2 else cached + evaluated
      if content.isEmpty then
        Except.error "LiteRT generated no text; context may be exhausted"
      else if disconnected then Except.error "Client disconnected; native decode drained"
      else
        Except.ok
          { content := content, promptTokens := promptTokens
            completionTokens := completionTokens, cachedTokens := cached
            truncated := decide (r.options.maxOutputTokens ≤ completionTokens) ||
              decide (maxNumTokens ≤ promptTokens + completionTokens) }

/-- Prefill and decoding in the context that has been chosen. -/
def work (env : RequestEnv) (r : InferenceRequest) (cold : Bool) (slot : Slot)
    (context : NativeContext) (s : InferenceService) : Except PyStr Completion × InferenceService :=
  let continuation := !cold && decide (r.earlier = slot.history)
  let s := s.onContext NativeContext.use slot.context
  match context.prefill r.earlier r.last continuation, env.prefill with
  | none, _ => (Except.error "Chat template changed the base prefix", s)
  | _, Except.error message => (Except.error message, s)
  | some resident, Except.ok (cached, evaluated) =>
      let evaluated' := if cold then evaluated + cached else evaluated
      let cached' := if cold then 0 else cached
      if s.maxNumTokens ≤ cached' + evaluated' then
        (Except.error "Context is full; shorten messages or increase max_num_tokens", s)
      else
        let s := s.startDecode r resident slot.context
        match collect env.stream env.pieces [] false, env.decodeError with
        | Except.error message, _ => (Except.error message, s)
        | _, some message => (Except.error message, s)
        | Except.ok (content, disconnected), none =>
            let s := s.onContext NativeContext.use slot.context
            match conclude env r s.maxNumTokens cached' evaluated' content disconnected with
            | Except.error message => (Except.error message, s)
            | Except.ok completion =>
                -- The reply is resident now; only a complete one is recorded as history.
                let reply : ChatMessage :=
                  { role := ChatRole.assistant, content := ChatContent.text content }
                let s := s.onContext
                  (fun c => { c with resident := some (resident ++ [reply]) }) slot.context
                let slot' : Slot :=
                  { slot with
                    history := if completion.truncated then [] else r.messages ++ [reply]
                    usedAt := s.clock }
                (Except.ok completion,
                  s.setTable r.vision (((s.table r.vision).erase r.key).set r.key slot'))

/-- The request, up to its exceptions. -/
def attempt (env : RequestEnv) (r : InferenceRequest) (s : InferenceService) :
    Except PyStr Completion × InferenceService :=
  match s.acquire env r with
  | (Except.error message, s) => (Except.error message, s)
  | (Except.ok cold, s) =>
      match (s.table r.vision).get? r.key with
      | none => (Except.error "the slot is missing", s)
      | some slot =>
          match s.contexts[slot.context]? with
          | none => (Except.error "the context is missing", s)
          | some context => s.work env r cold slot context

/-- One request more. -/
def tick (s : InferenceService) : InferenceService := { s with clock := s.clock + 1 }

/-- `complete(body, emit)`; `parsed` is what `parse_request` makes of the body. -/
def complete (env : RequestEnv) (parsed : Except PyStr InferenceRequest) (s : InferenceService) :
    Except PyStr Completion × InferenceService :=
  match parsed with
  | Except.error message => (Except.error message, s)
  | Except.ok r =>
      match s.attempt env r with
      | (Except.ok completion, s) => (Except.ok completion, s.tick)
      | (Except.error message, s) => (Except.error message, (s.discard r.vision r.key).tick)

/-- The contexts of a list of slots are closed. -/
def closeAll (l : List Slot) (s : InferenceService) : InferenceService :=
  l.foldl (fun s slot => s.onContext NativeContext.close slot.context) s

/-- `close()`. -/
def close (s : InferenceService) : InferenceService :=
  { s.closeAll (s.slots.values ++ s.visionSlots.values) with
    slots := PyDict.empty
    visionSlots := PyDict.empty }

/-- A request, or the end of the service. -/
inductive Call where
  | complete (env : RequestEnv) (parsed : Except PyStr InferenceRequest)
  | close

/-- One call. -/
def step (s : InferenceService) : Call → InferenceService
  | Call.complete env parsed => (s.complete env parsed).2
  | Call.close => s.close

/-- Any sequence of calls. -/
def machine : Machine InferenceService Call where
  init := fun s => 1 ≤ s.maxContexts ∧ 1 ≤ s.maxVisionContexts ∧ s.slots = PyDict.empty ∧
    s.visionSlots = PyDict.empty ∧ s.contexts = [] ∧ s.clock = 0 ∧ s.decodes = []
  step := step

end InferenceService
