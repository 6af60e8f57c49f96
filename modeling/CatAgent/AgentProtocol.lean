/-
**What an agent's model may answer.**

A worker accepts one command behind `/work#`, or one JSON object that gives the result, says that
the task is done, or asks for what is missing.  Everything else is answered with a correction.

Main definitions:

* `unwrapWorkCommand` — the command behind `/work#`;
* `parseAgentOutput` — the JSON answers;
* `AgentDirective.read` — what a worker makes of an answer.
-/

import CatAgent.JsonText

set_option relaxedAutoImplicit false
set_option autoImplicit false

/-- `json.loads`, with what depends on the interpreter. -/
structure JsonDecoder where
  read : JsonReader
  /-- `exc.msg` of the `JSONDecodeError` for a text. -/
  message : PyStr → PyStr
  /-- The nesting or an integer of the text is beyond what the interpreter reads, and it raises
  another exception. -/
  beyond : PyStr → Bool

/-- `AgentDirective`: an error, or an action with what belongs to it. -/
inductive AgentDirective where
  | error (text : PyStr)
  | command (command : PyStr)
  | done (body : PyStr)
  | need (body : PyStr)
deriving DecidableEq

/-- `"\n" in text or "\r" in text`. -/
def hasLineBreak (text : PyStr) : Bool := text.any fun c => c.val == 0x0A || c.val == 0x0D

/-- `unwrap_work_command(text)`. -/
def unwrapWorkCommand (text : PyStr) : Except PyStr (Option PyStr) :=
  let stripped := PyStr.strip text
  let workPrefix := PyStr.ofString "/work#"
  if workPrefix.isPrefixOf stripped then
    let command := PyStr.strip (stripped.drop workPrefix.length)
    if command.isEmpty || hasLineBreak command then
      Except.error (PyStr.ofString "command must be one non-empty line after /work#")
    else Except.ok (some command)
  else Except.ok none

namespace AgentDirective

/-- The JSON object that was read. -/
def ofItems : List (PyStr × Json) → AgentDirective
  | [(key, value)] =>
      if key = PyStr.ofString "result" then
        match value with
        | Json.str result => done (PyStr.strip result)
        | _ => error (PyStr.ofString "JSON field \"result\" must be a string")
      else if key = PyStr.ofString "done" then
        match value with
        | Json.bool true => done []
        | _ => error (PyStr.ofString "JSON completion must be \x7b\"done\": true\x7d")
      else if key = PyStr.ofString "need" then
        match value with
        | Json.str body =>
            if (PyStr.strip body).isEmpty then
              error (PyStr.ofString "JSON field \"need\" must be a non-empty string")
            else need (PyStr.strip body)
        | _ => error (PyStr.ofString "JSON field \"need\" must be a non-empty string")
      else otherKeys
  | _ => otherKeys
where
  /-- The keys are none of the three that are accepted. -/
  otherKeys : AgentDirective :=
    error (PyStr.ofString
      "JSON response must be exactly one of: \x7b\"result\":\"...\"\x7d, \x7b\"done\":true\x7d, or \x7b\"need\":\"...\"\x7d")

/-- A text that is no JSON. -/
def ofLine (text : PyStr) : AgentDirective :=
  if hasLineBreak text then
    error (PyStr.ofString
      "previous response was rejected completely and no command was executed; reply with exactly one Linux command on one line or one JSON result object")
  else command text

end AgentDirective

/-- `parse_agent_output(content)`; `none` is an exception that is no `JSONDecodeError`. -/
def parseAgentOutput (json : JsonDecoder) (content : PyStr) : Option AgentDirective :=
  let text := PyStr.strip content
  let fence := PyStr.ofString "```"
  if text.isEmpty then some (AgentDirective.error (PyStr.ofString "empty response"))
  else if 8192 < text.length then
    some (AgentDirective.error (PyStr.ofString "response is longer than 8192 characters"))
  else if fence.isPrefixOf text || fence.isSuffixOf text then
    some (AgentDirective.error (PyStr.ofString "Markdown code fences are not accepted"))
  else if json.beyond text then none
  else
    match Json.loads json.read text with
    | none =>
        if (PyStr.ofString "\x7b").isPrefixOf text || (PyStr.ofString "[").isPrefixOf text then
          some (AgentDirective.error
            (PyStr.ofString "invalid JSON response: " ++ json.message text))
        else some (AgentDirective.ofLine text)
    | some (Json.obj items) => some (AgentDirective.ofItems items)
    | some _ => some (AgentDirective.error (PyStr.ofString "JSON response must be an object"))

namespace AgentDirective

/-- What a worker makes of an answer: a command has to be behind `/work#`. -/
def read (json : JsonDecoder) (content : PyStr) : Option AgentDirective :=
  match unwrapWorkCommand (PyStr.strip content) with
  | Except.error text => some (error text)
  | Except.ok (some c) => some (command c)
  | Except.ok none =>
      match parseAgentOutput json content with
      | some (command _) => some (error (PyStr.ofString "tool command must start with /work#"))
      | r => r

end AgentDirective
