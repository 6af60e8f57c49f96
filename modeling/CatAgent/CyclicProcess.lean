/-
**Processing the parts of a file one by one.**

`cyclic_process FILE -n COUNT` lets the model answer for each of the files `1FILE` to `COUNTFILE`, in a
child context of its own, and writes the answers to one output file.  It is a generator: after every
fragment it hands control back, and whoever drives it may never resume it.  The output is written to
a temporary file that replaces the old output at the end.

Everything that the function calls may raise, and the environment says what does: reading a
fragment, the model, the reset of the child, the observer of the progress, the file system, and the
driver, who closes the generator by raising in it.  What is proved is what is left behind on every
way out.

Main definitions:

* `CyclicProcess.Point`, `CyclicProcess.Env` — where something may raise, and what the environment
  does;
* `CyclicProcess.plan` — the command is read and the files are resolved;
* `CyclicProcess.fragmentStep`, `CyclicProcess.managedChild`, `CyclicProcess.writeOutput`,
  `CyclicProcess.cyclicProcessSteps` — the code, as actions that return or raise;
* `CyclicProcess.executeCyclicProcess` — the driver that always resumes;
* `CyclicProcess.Untouched`, `CyclicProcess.Replaced` — the two states of the files.

Main results:

* `CyclicProcess.writeOutput_meets` — a failed attempt leaves only its temporary file behind;
* `CyclicProcess.cyclicProcess_allOrNothing` — **the output is as before or complete, the temporary
  file is gone, and the child is closed once**;
* `CyclicProcess.executeCyclicProcess_complete` — a generator that nothing disturbs ends with the
  complete output.
-/

import CatAgent.DataPaths
import CatAgent.ShellWords
import CatAgent.Unwinding

set_option relaxedAutoImplicit false
set_option autoImplicit false

namespace CyclicProcess

open Unwinding

/-! ### The environment -/

/-- What kind of exception it is.  The handlers of the function take every `Exception`;
`GeneratorExit` and the signals of the interpreter are none. -/
inductive ExceptionKind where
  | typeError
  | exception
  | exit
deriving DecidableEq

/-- An exception. -/
structure Raised where
  kind : ExceptionKind
  text : PyStr
deriving DecidableEq

/-- `isinstance(exc, Exception)`. -/
def Raised.isException (e : Raised) : Bool := e.kind ≠ ExceptionKind.exit

/-- Where something may raise: around the child, around the temporary file, and in the course of the
fragment with the given index. -/
inductive Point where
  | fork
  | forkWithBase
  | makeTemp
  | openTemp
  | closeDescriptor
  | closeOutput
  | replace
  | read (index : ℕ)
  | running (index : ℕ)
  | chat (index : ℕ)
  | reset (index : ℕ)
  | between (index : ℕ)
  /-- At the `yield`: the driver raises in the generator instead of resuming it. -/
  | resume (index : ℕ)
  | cleared (index : ℕ)
  | write (index : ℕ)
  | newline (index : ℕ)
deriving DecidableEq

/-- The errors that the function meets by itself. -/
inductive SystemError where
  | unicodeEncode
  | fileExists
  | notWritable
  | unresolved (e : WalkError)
deriving DecidableEq

/-- What the environment does. -/
structure Env where
  /-- The workspace, `runtime.root`. -/
  workspace : Location PyStr
  /-- How deeply links may be nested. -/
  depth : ℕ
  /-- The decimal digits outside ASCII. -/
  digit : CodePoint → Option ℕ
  /-- The messages of the errors of the system. -/
  describe : SystemError → PyStr
  /-- What is raised where. -/
  raises : Point → Option Raised
  /-- The client has a `fork`. -/
  forks : Bool
  /-- The child has a `close`; what that raises is only logged. -/
  closable : Bool
  /-- The child has a `reset_to_base`. -/
  resettable : Bool
  /-- The random part of the name of the temporary file. -/
  suffix : PyStr
  /-- `unlink` raises an `OSError`, which is only logged. -/
  unlinkFails : Bool
  /-- The text of a fragment. -/
  fragment : ℕ → PyStr
  /-- What the model replies to a fragment. -/
  reply : ℕ → PyStr

/-- The files and the variables of the function, and what was done: the children that were forked
and closed, the prompts that the model was asked, and the fragments that were processed. -/
structure World where
  tree : FileTree PyStr (List UInt8)
  /-- The descriptor of the temporary file is still owned by the function. -/
  descriptor : Bool
  /-- The temporary file, a name and its directory. -/
  temp : Option (PyStr × Location PyStr)
  /-- What the file object was given. -/
  output : List UInt8
  forks : ℕ
  closes : ℕ
  asked : List PyStr
  processed : List ℕ

/-- A part of the generator. -/
abbrev Step (α : Type) := EStateM Raised World α

variable (env : Env)

/-- Something that may raise. -/
def attempt (point : Point) : Step Unit :=
  match env.raises point with
  | some e => throw e
  | none => pure ()

/-- An error of the system. -/
def systemError (e : SystemError) : Step Unit := throw ⟨ExceptionKind.exception, env.describe e⟩

/-- `except Exception`. -/
def exceptException {α : Type} (x : Step α) (handler : Raised → Step α) : Step α :=
  tryCatch x fun e => if e.isException then handler e else throw e

/-! ### Reading the command -/

/-- What is special about a result. -/
inductive Metadata where
  | errorCode (code : PyStr)
  | processed (file : PyStr) (count : ℕ) (output : PyStr)
deriving DecidableEq

/-- A `CommandResult`, whose operation is `cyclic_process` and whose directory the workspace. -/
structure CommandResult where
  command : PyStr
  exitCode : ℤ
  stdout : PyStr
  stderr : PyStr
  metadata : Metadata
deriving DecidableEq

/-- `fail`. -/
def fail (command message code : PyStr) : CommandResult :=
  ⟨command, 2, [], message, Metadata.errorCode code⟩

/-- What the command asks for. -/
structure Plan where
  task : PyStr
  fileArg : PyStr
  count : ℕ
  /-- The names of the parts, with where they are. -/
  parts : List (PyStr × Location PyStr)
  outputName : PyStr
  output : Location PyStr

def dot : CodePoint := PyStr.ofChar '.'

/-- The slashes that a path starts with, as `pathlib` keeps them. -/
def pathRoot (s : PyStr) : PyStr :=
  if (PyStr.ofString "//").isPrefixOf s && !(PyStr.ofString "///").isPrefixOf s then "//"
  else if (PyStr.ofString "/").isPrefixOf s then "/"
  else []

/-- `(parent / name).as_posix()`, for the parent of the path `s`. -/
def sibling (s name : PyStr) : PyStr :=
  pathRoot s ++ List.intercalate [PurePath.slash] ((PurePath.ofStr s).parts.dropLast ++ [name])

/-- `Path(s).name`. -/
def pathName (s : PyStr) : PyStr := (PurePath.ofStr s).parts.getLast?.getD []

/-- `Path(s).stem`: the name up to its last dot, unless the dot is its first or its last
character. -/
def pathStem (s : PyStr) : PyStr :=
  let name := pathName s
  let suffix := (name.reverse.takeWhile (· ≠ dot)).length
  if dot ∈ name ∧ 0 < suffix ∧ suffix + 1 < name.length then name.take (name.length - suffix - 1)
  else name

/-- The name of a part. -/
def partName (s : PyStr) (index : ℕ) : PyStr :=
  sibling s (PyStr.ofString (toString index) ++ pathName s)

/-- The name of the output. -/
def outputName (s : PyStr) : PyStr := sibling s (pathStem s ++ PyStr.ofString "_out.txt")

/-- `resolve_data_path`, with the result that a failure leads to. -/
def resolve (tree : FileTree PyStr (List UInt8)) (command name : PyStr) (mustExist : Bool) :
    Except CommandResult (Location PyStr) :=
  match DataPaths.resolveDataPath tree env.depth env.workspace name mustExist with
  | Except.ok p => Except.ok p
  | Except.error e =>
      let text := match e with
        | DataPaths.DataPathError.unresolved w => env.describe (SystemError.unresolved w)
        | e => (e.message (PyStr.ofString "data" :: env.workspace) name).getD []
      Except.error (fail command (PyStr.ofString "cyclic_process: " ++ text) "invalid_data_path")

/-- The words of the command: the file and the count. -/
def arguments (command : PyStr) : Except CommandResult (PyStr × ℕ) :=
  match ShellWords.split command with
  | Except.error message =>
      Except.error (fail command (PyStr.ofString "cyclic_process: " ++ message) "parse_error")
  | Except.ok [name, file, flag, number] =>
      if name = PyStr.ofString "cyclic_process" ∧ flag = PyStr.ofString "-n" then
        match ShellWords.decimal env.digit number with
        | some n =>
            if n ≤ 0 then
              Except.error (fail command "cyclic_process: COUNT must be a positive integer"
                "invalid_arguments")
            else Except.ok (file, n.toNat)
        | none =>
            Except.error (fail command "cyclic_process: COUNT must be a positive integer"
              "invalid_arguments")
      else
        Except.error (fail command "cyclic_process: usage: cyclic_process FILE -n COUNT"
          "invalid_arguments")
  | Except.ok _ =>
      Except.error (fail command "cyclic_process: usage: cyclic_process FILE -n COUNT"
        "invalid_arguments")

/-- What is checked before the child is forked. -/
def plan (tree : FileTree PyStr (List UInt8)) (command taskText : PyStr) :
    Except CommandResult Plan := do
  let (fileArg, count) ← arguments env command
  let task := PyStr.strip taskText
  raiseIf (task = []) (fail command "cyclic_process: current task text is unavailable"
    "missing_task")
  let logicalFile := DataPaths.logical fileArg
  raiseIf (logicalFile = []) (fail command "cyclic_process: FILE must not be empty"
    "invalid_arguments")
  let names := (List.range' 1 count).map (partName logicalFile)
  let paths ← names.mapM fun name => resolve env tree command name true
  let output ← resolve env tree command (outputName logicalFile) false
  raiseIf (tree.node output ≠ none ∧ tree.isFile output = false)
    (fail command (PyStr.ofString "cyclic_process: output is not a regular file: " ++
      outputName logicalFile) "invalid_output")
  return ⟨task, fileArg, count, names.zip paths, outputName logicalFile, output⟩

/-! ### The child -/

/-- One call of `fork`. -/
def fork (point : Point) : Step Unit := do
  attempt env point
  modify fun w => { w with forks := w.forks + 1 }

/-- `fork_child`: a client whose `fork` does not know `inherit_base` is asked again without it. -/
def forkChild : Step Unit :=
  tryCatch (fork env Point.fork) fun e =>
    if e.kind = ExceptionKind.typeError then fork env Point.forkWithBase else throw e

/-- What `managed_child` does in the end. -/
def closeChild : Step Unit :=
  modify fun w => { w with closes := w.closes + env.closable.toNat }

/-- `with managed_child(child)`. -/
def managedChild {α : Type} (x : Step α) : Step α := tryFinally x (closeChild env)

/-- The model is asked. -/
def chat (index : ℕ) (prompt : PyStr) : Step PyStr := do
  modify fun w => { w with asked := w.asked ++ [prompt] }
  attempt env (Point.chat index)
  return env.reply index

/-- The child goes back to its base, if it can. -/
def reset (index : ℕ) : Step Unit :=
  if env.resettable then attempt env (Point.reset index) else pure ()

/-- `fragment_step`: one inference, the reset of the child, and the `yield`. -/
def fragmentStep (index : ℕ) (prompt : PyStr) : Step PyStr :=
  tryFinally
    (do
      attempt env (Point.running index)
      let response ← chat env index prompt
      let result := PyStr.strip response
      reset env index
      attempt env (Point.between index)
      attempt env (Point.resume index)
      return result)
    (attempt env (Point.cleared index))

/-! ### The temporary file -/

/-- The name of the temporary file for an output. -/
def tempName (name : PyStr) : PyStr :=
  PyStr.ofString "." ++ name ++ PyStr.ofString "." ++ env.suffix ++ PyStr.ofString ".tmp"

/-- `tempfile.mkstemp`: a new file, and a descriptor for it. -/
def makeTemp (name : PyStr) (dir : Location PyStr) : Step Unit := do
  attempt env Point.makeTemp
  let w ← get
  if w.tree.node (tempName env name :: dir) ≠ none then systemError env SystemError.fileExists
  else if h : w.tree.Slot (tempName env name) dir then
    set { w with
      tree := w.tree.put (tempName env name) dir [] h
      descriptor := true
      temp := some (tempName env name, dir) }
  else systemError env SystemError.notWritable

/-- `os.fdopen`: from here on the file object owns the descriptor. -/
def openTemp : Step Unit := do
  attempt env Point.openTemp
  modify fun w => { w with descriptor := false }

/-- `output.write`. -/
def write (point : Point) (text : PyStr) : Step Unit :=
  if PyStr.Encodable text then do
    attempt env point
    modify fun w => { w with output := w.output ++ PyStr.utf8 text }
  else systemError env SystemError.unicodeEncode

/-- The file object is closed, and its contents are in the temporary file. -/
def closeOutput : Step Unit := do
  attempt env Point.closeOutput
  let w ← get
  match w.temp with
  | some (name, dir) =>
      if h : w.tree.Slot name dir then set { w with tree := w.tree.put name dir w.output h }
      else systemError env SystemError.notWritable
  | none => pure ()

/-- `os.replace(temp_path, output_path)`. -/
def replaceOutput (name : PyStr) (dir : Location PyStr) : Step Unit := do
  attempt env Point.replace
  let w ← get
  match w.temp with
  | some (temp, tempDir) =>
      match w.tree.node (temp :: tempDir) with
      | some (FileNode.file contents) =>
          if h : w.tree.isDirectory (temp :: tempDir) = false then
            let tree := w.tree.remove (temp :: tempDir) h
            if h : tree.Slot name dir then set { w with tree := tree.put name dir contents h }
            else systemError env SystemError.notWritable
          else systemError env SystemError.notWritable
      | _ => systemError env SystemError.notWritable
  | none => pure ()

/-- `temp_path.unlink(missing_ok=True)`, whose `OSError` is only logged. -/
def unlinkTemp : Step Unit := do
  let w ← get
  match w.temp with
  | some (name, dir) =>
      if h : w.tree.isDirectory (name :: dir) = false then
        if env.unlinkFails then pure () else set { w with tree := w.tree.remove (name :: dir) h }
      else pure ()
  | none => pure ()

/-- The descriptor is closed, if the function still owns it. -/
def closeDescriptor : Step Unit := do
  let w ← get
  if w.descriptor then attempt env Point.closeDescriptor else pure ()

/-- The `finally` clause. -/
def cleanUp : Step Unit := tryFinally (closeDescriptor env) (unlinkTemp env)

/-! ### The generator -/

/-- The prompt for a fragment. -/
def prompt (plan : Plan) (index : ℕ) (name fragment : PyStr) : PyStr :=
  PyStr.ofString "ЗАДАНИЕ:\n" ++ plan.task ++ PyStr.ofString "\n\nФРАГМЕНТ " ++
    PyStr.ofString (toString index) ++ PyStr.ofString "/" ++ PyStr.ofString (toString plan.count) ++
    PyStr.ofString ": " ++ name ++ PyStr.ofString "\n----- BEGIN FRAGMENT -----\n" ++ fragment ++
    PyStr.ofString "\n----- END FRAGMENT -----"

/-- The result of a fragment is written, on a line of its own, unless it is empty. -/
def writeResult (index : ℕ) (result : PyStr) : Step Unit :=
  if result = [] then pure ()
  else do
    write env (Point.write index) result
    write env (Point.newline index) "\n"

/-- One pass of the loop. -/
def processFragment (plan : Plan) (part : ℕ × PyStr × Location PyStr) : Step Unit := do
  attempt env (Point.read part.1)
  let result ← fragmentStep env part.1 (prompt plan part.1 part.2.1 (env.fragment part.1))
  writeResult env part.1 result
  modify fun w => { w with processed := w.processed ++ [part.1] }

/-- The body of the `try` statement. -/
def writeOutput (plan : Plan) : Step Unit :=
  match plan.output with
  | [] => systemError env SystemError.notWritable
  | name :: dir => do
      makeTemp env name dir
      openTemp env
      tryFinally ((plan.parts.zipIdx 1).forM fun part => processFragment env plan (part.2, part.1))
        (closeOutput env)
      replaceOutput env name dir

/-- What is done with the child; the result of a failed attempt is returned at once. -/
def underChild (command : PyStr) (plan : Plan) : Step (Option CommandResult) :=
  tryFinally
    (exceptException
      (do
        writeOutput env plan
        return none)
      fun e => return some (fail command (PyStr.ofString "cyclic_process: " ++ e.text)
        "iteration_failed"))
    (cleanUp env)

/-- The result of a complete run. -/
def complete (command : PyStr) (plan : Plan) : CommandResult :=
  ⟨command, 0, plan.outputName ++ PyStr.ofString "\n", [],
    Metadata.processed plan.fileArg plan.count plan.outputName⟩

/-- `cyclic_process_steps`, once the command is read. -/
def processPlan (command : PyStr) (plan : Plan) : Step CommandResult := do
  let refused ← exceptException
    (do
      forkChild env
      return none)
    fun e => return some (fail command
      (PyStr.ofString "cyclic_process: cannot create isolated model context: " ++ e.text)
      "fork_failed")
  match refused with
  | some result => return result
  | none =>
      let failed ← managedChild env (underChild env command plan)
      return failed.getD (complete command plan)

/-- `cyclic_process_steps`. -/
def cyclicProcessSteps (command taskText : PyStr) : Step CommandResult := do
  let w ← get
  match plan env w.tree command taskText with
  | Except.error result => return result
  | Except.ok plan =>
      if env.forks then
        processPlan env command plan
      else
        return fail command "cyclic_process: model client does not support isolated contexts"
          "unsupported_client"

/-- The environment of a generator that is always resumed. -/
def Env.resumed : Env :=
  { env with
    raises := fun
      | Point.resume _ => none
      | point => env.raises point }

/-- `execute_cyclic_process`: the generator under a driver that always resumes it. -/
def executeCyclicProcess (command taskText : PyStr) : Step CommandResult :=
  cyclicProcessSteps env.resumed command taskText

/-! ### The two states of the files -/

/-- What a fragment contributes to the output. -/
def Env.line (index : ℕ) : PyStr :=
  let result := PyStr.strip (env.reply index)
  if result = [] then [] else result ++ PyStr.ofString "\n"

variable {env} {tree : FileTree PyStr (List UInt8)} {w : World}

/-- The files are as in `tree`, but for the temporary file, which was not there. -/
structure OnlyTemp (tree : FileTree PyStr (List UInt8)) (w : World) : Prop where
  same : ∀ q, (∀ temp ∈ w.temp, q ≠ temp.1 :: temp.2) → w.tree.node q = tree.node q
  nameable_eq : w.tree.nameable = tree.nameable
  fresh : ∀ temp ∈ w.temp, tree.node (temp.1 :: temp.2) = none
  removable : ∀ temp ∈ w.temp, w.tree.isDirectory (temp.1 :: temp.2) = false

/-- The child is open, and the files are as before, but for the temporary file. -/
structure Attempted (tree : FileTree PyStr (List UInt8)) (w : World) : Prop where
  files : OnlyTemp tree w
  forks_eq : w.forks = 1
  closes_eq : w.closes = 0

/-- The fragments `done` are processed, and the file object was given `output`. -/
structure Writing (tree : FileTree PyStr (List UInt8)) (temp : PyStr × Location PyStr)
    (done : List ℕ) (output : List UInt8) (w : World) : Prop where
  attempted : Attempted tree w
  descriptor_eq : w.descriptor = false
  temp_eq : w.temp = some temp
  processed_eq : w.processed = done
  output_eq : w.output = output

/-- Nothing stands in the way of the command: nothing raises, every reply can be written, and there
is room for the temporary file and for the output. -/
structure Calm (env : Env) (tree : FileTree PyStr (List UInt8)) (plan : Plan) : Prop where
  quiet : ∀ point, env.raises point = none
  encodable : ∀ index ∈ List.range' 1 plan.parts.length,
    PyStr.Encodable (PyStr.strip (env.reply index))
  room : ∃ name dir, plan.output = name :: dir ∧ tree.node (tempName env name :: dir) = none ∧
    tree.Slot (tempName env name) dir ∧ tree.Slot name dir

/-- A failed attempt, which something has stood in the way of. -/
structure Spoilt (env : Env) (tree : FileTree PyStr (List UInt8)) (plan : Plan) (w : World) :
    Prop where
  attempted : Attempted tree w
  reason : ¬ Calm env tree plan

/-! ### What each action keeps -/

section Rules

variable {P : World → Prop} {point : Point} {plan : Plan}

/-- A call raises only where something does. -/
theorem meets_attempt :
    Meets P (attempt env point) (fun _ => P) fun _ w => P w ∧ ¬ Calm env tree plan := by
  unfold attempt
  cases hraises : env.raises point with
  | some e =>
      refine meets_throw fun w hw => ⟨hw, fun hcalm => ?_⟩
      rw [hcalm.quiet point] at hraises
      cases hraises
  | none => exact meets_pure fun _ => id

theorem meets_systemError {e : SystemError} {R : Unit → World → Prop}
    (h : ¬ Calm env tree plan) :
    Meets P (systemError env e) R fun _ w => P w ∧ ¬ Calm env tree plan :=
  meets_throw fun _ hw => ⟨hw, h⟩

theorem meets_chat (hP : ∀ w prompts, P w → P { w with asked := prompts }) (index : ℕ)
    (prompt : PyStr) :
    Meets P (chat env index prompt) (fun response w => P w ∧ response = env.reply index)
      fun _ w => P w ∧ ¬ Calm env tree plan := by
  unfold chat
  refine (meets_modify (R := fun _ => P) fun w hw => hP w _ hw).bind fun _ => ?_
  exact meets_attempt.bind fun _ => meets_pure fun w hw => ⟨hw, rfl⟩

theorem meets_reset (index : ℕ) :
    Meets P (reset env index) (fun _ => P) fun _ w => P w ∧ ¬ Calm env tree plan := by
  unfold reset
  split_ifs
  · exact meets_attempt
  · exact meets_pure fun _ => id

/-- A fragment step changes only the record of the prompts. -/
theorem meets_fragmentStep (hP : ∀ w prompts, P w → P { w with asked := prompts }) (index : ℕ)
    (prompt : PyStr) :
    Meets P (fragmentStep env index prompt)
      (fun result w => P w ∧ result = PyStr.strip (env.reply index))
      fun _ w => P w ∧ ¬ Calm env tree plan := by
  unfold fragmentStep
  refine Meets.tryFinally (?_ : Meets P _ (fun result w => P w ∧
    result = PyStr.strip (env.reply index)) fun _ w => P w ∧ ¬ Calm env tree plan)
    (fun result => ?_) fun e => ?_
  · refine meets_attempt.bind fun _ => (meets_chat hP index prompt).bind fun response => ?_
    intro w hw
    obtain ⟨hw, rfl⟩ := hw
    refine ((meets_reset index).bind fun _ => meets_attempt.bind fun _ => meets_attempt.bind
      fun _ => ?_ : Meets P _ _ _) w hw
    exact meets_pure fun w' hw' => ⟨hw', rfl⟩
  · exact meets_attempt.conseq (fun _ => id) (fun _ _ => id) fun _ w hw => ⟨hw.1.1, hw.2⟩
  · exact meets_attempt.conseq (fun _ => id) (fun _ _ => id)
      fun _ w (hw : _ ∧ ¬ Calm env tree plan) => hw.1

end Rules

section Writes

variable {temp : PyStr × Location PyStr} {done : List ℕ} {output : List UInt8} {plan : Plan}

/-- What the predicate reads of a state. -/
theorem Attempted.of_eq {w' : World} (h : Attempted tree w) (htree : w'.tree = w.tree)
    (htemp : w'.temp = w.temp) (hforks : w'.forks = w.forks) (hcloses : w'.closes = w.closes) :
    Attempted tree w' where
  files := by
    refine ⟨?_, ?_, ?_, ?_⟩
    · rw [htree, htemp]
      exact h.files.same
    · rw [htree]
      exact h.files.nameable_eq
    · rw [htemp]
      exact h.files.fresh
    · rw [htree, htemp]
      exact h.files.removable
  forks_eq := hforks.trans h.forks_eq
  closes_eq := hcloses.trans h.closes_eq

theorem Writing.of_eq {w' : World} {done' : List ℕ} {output' : List UInt8}
    (h : Writing tree temp done output w) (htree : w'.tree = w.tree) (htemp : w'.temp = w.temp)
    (hforks : w'.forks = w.forks) (hcloses : w'.closes = w.closes)
    (hdescriptor : w'.descriptor = w.descriptor) (hdone : w'.processed = done')
    (houtput : w'.output = output') : Writing tree temp done' output' w' :=
  ⟨h.attempted.of_eq htree htemp hforks hcloses, hdescriptor.trans h.descriptor_eq,
    htemp.trans h.temp_eq, hdone, houtput⟩

/-- A failure leaves an attempt. -/
theorem meets_of_writing {α : Type} {x : Step α} {Q : α → World → Prop}
    (h : Meets (Writing tree temp done output) x Q
      fun _ w => Writing tree temp done output w ∧ ¬ Calm env tree plan) :
    Meets (Writing tree temp done output) x Q fun _ => Spoilt env tree plan :=
  h.conseq (fun _ => id) (fun _ _ => id) fun _ _ hw => ⟨hw.1.attempted, hw.2⟩

/-- A text is added to what the file object was given. -/
theorem meets_write (point : Point) {text : PyStr}
    (htext : Calm env tree plan → PyStr.Encodable text) :
    Meets (Writing tree temp done output) (write env point text)
      (fun _ => Writing tree temp done (output ++ PyStr.utf8 text))
      fun _ => Spoilt env tree plan := by
  unfold write
  split_ifs with hencodable
  · refine (meets_of_writing meets_attempt).bind fun _ => meets_modify fun w hw => ?_
    exact hw.of_eq rfl rfl rfl rfl rfl hw.processed_eq (by rw [hw.output_eq])
  · exact meets_of_writing (meets_systemError fun hcalm => hencodable (htext hcalm))

/-- The result of a fragment is its line. -/
theorem meets_writeResult {index : ℕ} (hindex : index ∈ List.range' 1 plan.parts.length) :
    Meets (Writing tree temp done output)
      (writeResult env index (PyStr.strip (env.reply index)))
      (fun _ => Writing tree temp done (output ++ PyStr.utf8 (env.line index)))
      fun _ => Spoilt env tree plan := by
  unfold writeResult Env.line
  dsimp only
  split_ifs with hempty
  · refine meets_pure fun w hw => ?_
    rwa [PyStr.utf8_nil, List.append_nil]
  · rw [PyStr.utf8_append, ← List.append_assoc]
    exact (meets_write _ fun hcalm => hcalm.encodable index hindex).bind fun _ =>
      meets_write _ fun _ => by decide

/-- **One pass of the loop** adds one line. -/
theorem meets_processFragment {part : ℕ × PyStr × Location PyStr}
    (hpart : part.1 ∈ List.range' 1 plan.parts.length) :
    Meets (Writing tree temp done output) (processFragment env plan part)
      (fun _ => Writing tree temp (done ++ [part.1]) (output ++ PyStr.utf8 (env.line part.1)))
      fun _ => Spoilt env tree plan := by
  unfold processFragment
  refine (meets_of_writing meets_attempt).bind fun _ => ?_
  refine (meets_of_writing (meets_fragmentStep (fun w prompts hw => ?_) _ _)).bind fun result => ?_
  · exact hw.of_eq rfl rfl rfl rfl rfl hw.processed_eq hw.output_eq
  · intro w hw
    obtain ⟨hw, rfl⟩ := hw
    refine ((meets_writeResult hpart).bind fun _ => meets_modify fun w' hw' => ?_ :
      Meets (Writing tree temp done output) _ _ _) w hw
    exact hw'.of_eq rfl rfl rfl rfl rfl (by rw [hw'.processed_eq]) hw'.output_eq

/-- The lines of some fragments. -/
def Env.lines (env : Env) (indices : List ℕ) : PyStr := indices.flatMap env.line

/-- **The loop** adds the lines of all fragments. -/
theorem meets_fragments {parts : List ((PyStr × Location PyStr) × ℕ)}
    (hparts : ∀ part ∈ parts, part.2 ∈ List.range' 1 plan.parts.length) :
    Meets (Writing tree temp [] [])
      (parts.forM fun part => processFragment env plan (part.2, part.1))
      (fun _ => Writing tree temp (parts.map Prod.snd) (PyStr.utf8 (env.lines (parts.map Prod.snd))))
      fun _ => Spoilt env tree plan := by
  refine meets_forM (I := fun done => Writing tree temp (done.map Prod.snd)
    (PyStr.utf8 (env.lines (done.map Prod.snd)))) fun done part rest hdone => ?_
  have hpart : part ∈ parts := by simp [hdone]
  have hindex : (part.2, part.1).1 ∈ List.range' 1 plan.parts.length := hparts part hpart
  refine (meets_processFragment hindex).conseq (fun _ => id) (fun _ w hw => ?_) fun _ _ => id
  have hlines : env.lines ((done ++ [part]).map Prod.snd) =
      env.lines (done.map Prod.snd) ++ env.line part.2 := by
    simp [Env.lines]
  rw [hlines, PyStr.utf8_append, List.map_append]
  exact hw

/-- The state before the attempt: the child is open, and nothing was written. -/
structure Ready (tree : FileTree PyStr (List UInt8)) (w : World) : Prop where
  attempted : Attempted tree w
  temp_eq : w.temp = none
  processed_eq : w.processed = []
  output_eq : w.output = []

theorem Calm.room_at {name : PyStr} {dir : Location PyStr} (h : Calm env tree plan)
    (hout : plan.output = name :: dir) :
    tree.node (tempName env name :: dir) = none ∧ tree.Slot (tempName env name) dir ∧
      tree.Slot name dir := by
  obtain ⟨name', dir', hout', hroom⟩ := h.room
  obtain ⟨rfl, rfl⟩ := List.cons.inj (hout.symm.trans hout')
  exact hroom

/-- There is still room for a file outside the temporary one. -/
theorem Attempted.slot {name : PyStr} {dir : Location PyStr} (h : Attempted tree w)
    (hdir : ∀ temp ∈ w.temp, dir ≠ temp.1 :: temp.2) (hslot : tree.Slot name dir)
    (hfile : w.tree.isDirectory (name :: dir) = false) : w.tree.Slot name dir := by
  refine ⟨?_, ?_, hfile⟩
  · rw [FileTree.isDirectory_iff, h.files.same dir hdir]
    exact FileTree.isDirectory_iff.1 hslot.1
  · rw [h.files.nameable_eq]
    exact hslot.2.1

theorem meets_makeTemp {name : PyStr} {dir : Location PyStr} (hout : plan.output = name :: dir) :
    Meets (Ready tree) (makeTemp env name dir)
      (fun _ w => Writing tree (tempName env name, dir) [] [] { w with descriptor := false })
      fun _ => Spoilt env tree plan := by
  have hfailed : ∀ (e : Raised) (w : World), Ready tree w ∧ ¬ Calm env tree plan →
      Spoilt env tree plan w := fun _ w hw => ⟨hw.1.attempted, hw.2⟩
  unfold makeTemp
  refine (meets_attempt.conseq (fun _ => id) (fun _ _ => id) hfailed).bind fun _ => ?_
  refine meets_get fun r hr => ?_
  have hspoilt : ∀ (e : Raised) (w : World), w = r ∧ ¬ Calm env tree plan → Spoilt env tree plan w :=
    fun _ w hw => ⟨hw.1 ▸ hr.attempted, hw.2⟩
  have hsame : ∀ q, r.tree.node q = tree.node q :=
    fun q => hr.attempted.files.same q (by simp [hr.temp_eq])
  split_ifs with hnode hslot
  · refine (meets_systemError fun hcalm => hnode ?_).conseq (fun _ => id) (fun _ _ => id) hspoilt
    rw [hsame]
    exact (hcalm.room_at hout).1
  · have hfresh : tree.node (tempName env name :: dir) = none := by
      rw [← hsame]
      exact not_not.1 hnode
    rintro w -
    refine ⟨⟨⟨?_, hr.attempted.files.nameable_eq, ?_, ?_⟩, hr.attempted.forks_eq,
      hr.attempted.closes_eq⟩, rfl, rfl, hr.processed_eq, hr.output_eq⟩
    · intro q hq
      have hne : q ≠ tempName env name :: dir := hq _ rfl
      exact (if_neg hne).trans (hsame q)
    · rintro temp ⟨⟩
      exact hfresh
    · rintro temp ⟨⟩
      simp [FileTree.isDirectory, FileTree.node_put]
  · refine (meets_systemError fun hcalm => hslot ?_).conseq (fun _ => id) (fun _ _ => id) hspoilt
    refine hr.attempted.slot (by simp [hr.temp_eq]) (hcalm.room_at hout).2.1 ?_
    simp [FileTree.isDirectory, not_not.1 hnode]

theorem meets_openTemp :
    Meets (fun w => Writing tree temp done output { w with descriptor := false }) (openTemp env)
      (fun _ => Writing tree temp done output) fun _ => Spoilt env tree plan := by
  unfold openTemp
  refine (meets_attempt.conseq (fun _ => id) (fun _ _ => id) fun _ w hw => ⟨?_, hw.2⟩).bind
    fun _ => meets_modify fun _ => id
  exact hw.1.attempted.of_eq rfl rfl rfl rfl

/-- Writing to the temporary file is part of an attempt. -/
theorem Attempted.put {name : PyStr} {dir : Location PyStr} (h : Attempted tree w)
    (htemp : w.temp = some (name, dir)) (contents : List UInt8) (hslot : w.tree.Slot name dir) :
    Attempted tree { w with tree := w.tree.put name dir contents hslot } where
  files := by
    refine ⟨fun q hq => ?_, h.files.nameable_eq, h.files.fresh, fun temp ht => ?_⟩
    · have hne : q ≠ name :: dir := hq (name, dir) (by simp [htemp])
      exact (if_neg hne).trans (h.files.same q hq)
    · obtain rfl : (name, dir) = temp := by simpa [htemp] using ht
      simp [FileTree.isDirectory, FileTree.node_put]
  forks_eq := h.forks_eq
  closes_eq := h.closes_eq

/-- Closing the file object is part of an attempt, whether it works or not. -/
theorem meets_closeOutput_spoilt :
    Meets (Spoilt env tree plan) (closeOutput env) (fun _ => Spoilt env tree plan)
      fun _ => Spoilt env tree plan := by
  unfold closeOutput
  refine (meets_attempt.conseq (fun _ => id) (fun _ _ => id)
    fun _ w (hw : _ ∧ ¬ Calm env tree plan) => hw.1).bind fun _ => meets_get fun r hr => ?_
  cases htemp : r.temp with
  | none => exact meets_pure fun w hw => hw ▸ hr
  | some temp =>
      dsimp only
      split_ifs with hslot
      · rintro w -
        exact ⟨(hr.attempted.put htemp r.output hslot).of_eq rfl htemp.symm rfl rfl, hr.reason⟩
      · exact (meets_systemError hr.reason).conseq (fun _ => id) (fun _ _ => id)
          fun _ w hw => hw.1 ▸ hr

/-- The contents are in the temporary file. -/
structure Closed (tree : FileTree PyStr (List UInt8)) (temp : PyStr × Location PyStr)
    (done : List ℕ) (output : List UInt8) (w : World) : Prop where
  writing : Writing tree temp done output w
  node_eq : w.tree.node (temp.1 :: temp.2) = some (FileNode.file output)

theorem meets_closeOutput (htemp : Calm env tree plan → tree.Slot temp.1 temp.2) :
    Meets (Writing tree temp done output) (closeOutput env)
      (fun _ => Closed tree temp done output) fun _ => Spoilt env tree plan := by
  unfold closeOutput
  refine (meets_of_writing meets_attempt).bind fun _ => meets_get fun r hr => ?_
  rw [hr.temp_eq]
  dsimp only
  split_ifs with hslot
  · rintro w -
    refine ⟨⟨(hr.attempted.put hr.temp_eq r.output hslot).of_eq rfl hr.temp_eq.symm rfl rfl,
      hr.descriptor_eq, rfl, hr.processed_eq, hr.output_eq⟩, ?_⟩
    rw [FileTree.node_put, if_pos rfl, hr.output_eq]
  · refine (meets_systemError fun hcalm => hslot ?_).conseq (fun _ => id) (fun _ _ => id)
      fun _ w hw => ⟨hw.1 ▸ hr.attempted, hw.2⟩
    refine hr.attempted.slot ?_ (htemp hcalm) (hr.attempted.files.removable temp hr.temp_eq)
    rw [hr.temp_eq]
    rintro temp ⟨⟩
    exact (List.cons_ne_self _ _).symm

/-- The output has the new contents, and everything else is as in `tree`. -/
def Replaced (tree : FileTree PyStr (List UInt8)) (target : Location PyStr)
    (contents : List UInt8) (w : World) : Prop :=
  ∀ q, w.tree.node q = if q = target then some (FileNode.file contents) else tree.node q

/-- The state after a complete attempt. -/
structure Complete (tree : FileTree PyStr (List UInt8)) (target : Location PyStr) (done : List ℕ)
    (contents : List UInt8) (w : World) : Prop where
  replaced : Replaced tree target contents w
  gone : ∀ temp ∈ w.temp, w.tree.node (temp.1 :: temp.2) = none
  descriptor_eq : w.descriptor = false
  processed_eq : w.processed = done
  forks_eq : w.forks = 1
  closes_eq : w.closes = 0

/-- The temporary file has a longer name than the output. -/
theorem tempName_ne (name : PyStr) : tempName env name ≠ name := by
  intro h
  have hlen := congrArg List.length h
  simp only [tempName, List.length_append] at hlen
  have hdot : (PyStr.ofString ".").length = 1 := rfl
  omega

theorem meets_replaceOutput {name : PyStr} {dir : Location PyStr} (hout : plan.output = name :: dir) :
    Meets (Closed tree (tempName env name, dir) done output) (replaceOutput env name dir)
      (fun _ => Complete tree (name :: dir) done output) fun _ => Spoilt env tree plan := by
  have hfailed : ∀ (e : Raised) (w : World), Closed tree (tempName env name, dir) done output w ∧
      ¬ Calm env tree plan → Spoilt env tree plan w := fun _ w hw => ⟨hw.1.writing.attempted, hw.2⟩
  unfold replaceOutput
  refine (meets_attempt.conseq (fun _ => id) (fun _ _ => id) hfailed).bind fun _ =>
    meets_get fun r hr => ?_
  have hspoilt : ∀ (e : Raised) (w : World), w = r ∧ ¬ Calm env tree plan → Spoilt env tree plan w :=
    fun _ w hw => ⟨hw.1 ▸ hr.writing.attempted, hw.2⟩
  have hne : tempName env name :: dir ≠ name :: dir := fun h => tempName_ne name (List.cons.inj h).1
  have hfiles := hr.writing.attempted.files
  have hother : ∀ q, q ≠ tempName env name :: dir → r.tree.node q = tree.node q :=
    fun q hq => hfiles.same q (by simpa [hr.writing.temp_eq] using hq)
  rw [hr.writing.temp_eq]
  dsimp only
  rw [hr.node_eq]
  dsimp only
  split_ifs with hdir hslot
  · rintro w -
    have hfresh : tree.node (tempName env name :: dir) = none :=
      hfiles.fresh (tempName env name, dir) (by simp [hr.writing.temp_eq])
    refine ⟨fun q => ?_, ?_, hr.writing.descriptor_eq, hr.writing.processed_eq,
      hr.writing.attempted.forks_eq, hr.writing.attempted.closes_eq⟩
    · rw [FileTree.node_put]
      by_cases hq : q = name :: dir
      · rw [if_pos hq, if_pos hq]
      · rw [if_neg hq, if_neg hq, FileTree.node_remove]
        by_cases htemp : q = tempName env name :: dir
        · rw [if_pos htemp, htemp, hfresh]
        · rw [if_neg htemp, hother q htemp]
    · intro temp ht
      obtain rfl : (tempName env name, dir) = temp := by simpa [hr.writing.temp_eq] using ht
      rw [FileTree.node_put, if_neg hne, FileTree.node_remove, if_pos rfl]
  · -- Nothing that is needed for the output lies at the temporary file.
    refine (meets_systemError fun hcalm => hslot ?_).conseq (fun _ => id) (fun _ _ => id) hspoilt
    obtain ⟨_, _, hisdir, hname, hfile⟩ := hcalm.room_at hout
    have hremoved : ∀ q, q ≠ tempName env name :: dir →
        (r.tree.remove (tempName env name :: dir) hdir).isDirectory q = tree.isDirectory q := by
      intro q hq
      simp only [FileTree.isDirectory, FileTree.node_remove, if_neg hq, hother q hq]
    refine ⟨(hremoved dir (List.cons_ne_self _ _).symm).trans hisdir, ?_,
      (hremoved _ hne.symm).trans hfile⟩
    change r.tree.nameable name = true
    rw [hfiles.nameable_eq]
    exact hname
  · refine (meets_systemError fun _ => hdir ?_).conseq (fun _ => id) (fun _ _ => id) hspoilt
    simp [FileTree.isDirectory, hr.node_eq]

/-- **The attempt**: it is complete, or it leaves only its temporary file behind. -/
theorem meets_writeOutput (plan : Plan) :
    Meets (Ready tree) (writeOutput env plan)
      (fun _ => Complete tree plan.output (List.range' 1 plan.parts.length)
        (PyStr.utf8 (env.lines (List.range' 1 plan.parts.length))))
      fun _ => Spoilt env tree plan := by
  unfold writeOutput
  cases hout : plan.output with
  | nil =>
      refine (meets_systemError fun hcalm => ?_).conseq (fun _ => id) (fun _ _ => id)
        fun _ w (hw : Ready tree w ∧ ¬ Calm env tree plan) => ⟨hw.1.attempted, hw.2⟩
      obtain ⟨_, _, hout', _⟩ := hcalm.room
      rw [hout] at hout'
      cases hout'
  | cons name dir =>
      refine (meets_makeTemp hout).bind fun _ => meets_openTemp.bind fun _ => ?_
      refine Meets.bind ?_ fun _ => meets_replaceOutput hout
      have hparts : (plan.parts.zipIdx 1).map Prod.snd = List.range' 1 plan.parts.length :=
        List.zipIdx_map_snd ..
      have hmem : ∀ part ∈ plan.parts.zipIdx 1, part.2 ∈ List.range' 1 plan.parts.length :=
        fun part hpart => hparts ▸ List.mem_map_of_mem hpart
      rw [← hparts]
      exact (meets_fragments hmem).tryFinally
        (fun _ => meets_closeOutput fun hcalm => (hcalm.room_at hout).2.1)
        fun _ => meets_closeOutput_spoilt

/-! ### The way out -/

/-- The files are as before; only if the temporary file could not be removed, it is still there. -/
structure Untouched (env : Env) (tree : FileTree PyStr (List UInt8)) (w : World) : Prop where
  same : ∀ q, (∀ temp ∈ w.temp, q ≠ temp.1 :: temp.2) → w.tree.node q = tree.node q
  gone : env.unlinkFails = false → ∀ q, w.tree.node q = tree.node q

/-- What a failed attempt leaves while the child is still open. -/
structure Failed (env : Env) (tree : FileTree PyStr (List UInt8)) (plan : Plan) (w : World) :
    Prop where
  untouched : Untouched env tree w
  reason : ¬ Calm env tree plan
  forks_eq : w.forks = 1
  closes_eq : w.closes = 0

theorem meets_unlinkTemp {E : Raised → World → Prop} :
    Meets (Spoilt env tree plan) (unlinkTemp env) (fun _ => Failed env tree plan) E := by
  unfold unlinkTemp
  refine meets_get fun r ⟨hr, hreason⟩ => ?_
  cases htemp : r.temp with
  | none =>
      refine meets_pure fun w hw => ?_
      subst hw
      exact ⟨⟨hr.files.same, fun _ q => hr.files.same q (by simp [htemp])⟩, hreason, hr.forks_eq,
        hr.closes_eq⟩
  | some temp =>
      have hdir := hr.files.removable temp (by simp [htemp])
      dsimp only
      rw [dif_pos hdir]
      split_ifs with hfails
      · refine meets_pure fun w hw => ?_
        subst hw
        exact ⟨⟨hr.files.same, fun h => by simp [h] at hfails⟩, hreason, hr.forks_eq, hr.closes_eq⟩
      · rintro w -
        have hall : ∀ q, (r.tree.remove (temp.1 :: temp.2) hdir).node q = tree.node q := by
          intro q
          rw [FileTree.node_remove]
          by_cases hq : q = temp.1 :: temp.2
          · rw [if_pos hq, hq, hr.files.fresh temp (by simp [htemp])]
          · rw [if_neg hq]
            exact hr.files.same q (by simpa [htemp] using hq)
        exact ⟨⟨fun q _ => hall q, fun _ => hall⟩, hreason, hr.forks_eq, hr.closes_eq⟩

theorem meets_unlinkTemp_complete {target : Location PyStr} {E : Raised → World → Prop} :
    Meets (Complete tree target done output) (unlinkTemp env)
      (fun _ => Complete tree target done output) E := by
  unfold unlinkTemp
  refine meets_get fun r hr => ?_
  cases htemp : r.temp with
  | none =>
      refine meets_pure fun w hw => ?_
      subst hw
      exact hr
  | some temp =>
      have hnone := hr.gone temp (by simp [htemp])
      have hdir : r.tree.isDirectory (temp.1 :: temp.2) = false := by
        simp [FileTree.isDirectory, hnone]
      dsimp only
      rw [dif_pos hdir]
      split_ifs
      · refine meets_pure fun w hw => ?_
        subst hw
        exact hr
      · rintro w -
        have hall : ∀ q, (r.tree.remove (temp.1 :: temp.2) hdir).node q = r.tree.node q := by
          intro q
          rw [FileTree.node_remove]
          by_cases hq : q = temp.1 :: temp.2
          · rw [if_pos hq, hq, hnone]
          · rw [if_neg hq]
        refine ⟨fun q => (hall q).trans (hr.replaced q), fun temp' ht => ?_, hr.descriptor_eq,
          hr.processed_eq, hr.forks_eq, hr.closes_eq⟩
        exact (hall _).trans (hr.gone temp' (by simpa [htemp] using ht))

theorem meets_closeDescriptor :
    Meets (Spoilt env tree plan) (closeDescriptor env) (fun _ => Spoilt env tree plan)
      fun _ => Spoilt env tree plan := by
  unfold closeDescriptor
  refine meets_get fun r hr => ?_
  split_ifs
  · exact meets_attempt.conseq (fun w hw => hw ▸ hr) (fun _ _ => id)
      fun _ _ (hw : _ ∧ ¬ Calm env tree plan) => hw.1
  · exact meets_pure fun w hw => hw ▸ hr

theorem meets_closeDescriptor_complete {target : Location PyStr} {E : Raised → World → Prop} :
    Meets (Complete tree target done output) (closeDescriptor env)
      (fun _ => Complete tree target done output) E := by
  unfold closeDescriptor
  refine meets_get fun r hr => ?_
  rw [hr.descriptor_eq]
  exact meets_pure fun w hw => hw ▸ hr

/-- **The clean-up of a failed attempt** removes the temporary file. -/
theorem meets_cleanUp :
    Meets (Spoilt env tree plan) (cleanUp env) (fun _ => Failed env tree plan)
      fun _ => Failed env tree plan :=
  meets_closeDescriptor.tryFinally (fun _ => meets_unlinkTemp) fun _ => meets_unlinkTemp

/-- The clean-up of a complete attempt finds nothing to do. -/
theorem meets_cleanUp_complete {target : Location PyStr} :
    Meets (Complete tree target done output) (cleanUp env)
      (fun _ => Complete tree target done output) fun _ => Failed env tree plan :=
  (meets_closeDescriptor_complete (E := fun _ => Spoilt env tree plan)).tryFinally
    (fun _ => meets_unlinkTemp_complete) fun _ => meets_unlinkTemp

/-- How the work with the child ends: complete, or with the result of a failure. -/
def Ended (env : Env) (tree : FileTree PyStr (List UInt8)) (command : PyStr) (plan : Plan)
    (failed : Option CommandResult) (w : World) : Prop :=
  (failed = none ∧ Complete tree plan.output (List.range' 1 plan.parts.length)
    (PyStr.utf8 (env.lines (List.range' 1 plan.parts.length))) w) ∨
  ((∃ message, failed = some (fail command message "iteration_failed")) ∧ Failed env tree plan w)

theorem meets_underChild (command : PyStr) (plan : Plan) :
    Meets (Ready tree) (underChild env command plan) (Ended env tree command plan)
      fun _ => Failed env tree plan := by
  unfold underChild exceptException
  refine Meets.tryFinally (R := fun failed w => (failed = none ∧ Complete tree plan.output
      (List.range' 1 plan.parts.length)
      (PyStr.utf8 (env.lines (List.range' 1 plan.parts.length))) w) ∨
    ((∃ message, failed = some (fail command message "iteration_failed")) ∧
      Spoilt env tree plan w))
    (Meets.tryCatch (?_ : Meets (Ready tree) _ _ fun _ => Spoilt env tree plan) fun e => ?_)
    (fun failed => ?_) fun _ => meets_cleanUp
  · exact (meets_writeOutput plan).bind fun _ => meets_pure fun w hw => Or.inl ⟨rfl, hw⟩
  · split_ifs
    · exact meets_pure fun w hw => Or.inr ⟨⟨_, rfl⟩, hw⟩
    · exact meets_throw fun _ => id
  · rintro w (⟨hfailed, hw⟩ | ⟨hfailed, hw⟩)
    · exact (meets_cleanUp_complete.conseq (fun _ => id) (fun _ w' hw' => Or.inl ⟨hfailed, hw'⟩)
        fun _ _ => id) w hw
    · exact (meets_cleanUp.conseq (fun _ => id) (fun _ w' hw' => Or.inr ⟨hfailed, hw'⟩)
        fun _ _ => id) w hw

/-! ### The generator -/

/-- The state at the beginning. -/
def World.start (tree : FileTree PyStr (List UInt8)) : World :=
  ⟨tree, false, none, [], 0, 0, [], []⟩

/-- The child was closed once, if there was one. -/
def ClosedOnce (env : Env) (w : World) : Prop :=
  (w.forks = 0 ∧ w.closes = 0) ∨ (w.forks = 1 ∧ w.closes = env.closable.toNat)

theorem meets_fork (point : Point) :
    Meets (fun w => w = World.start tree) (fork env point) (fun _ => Ready tree)
      fun _ w => w = World.start tree ∧ ¬ Calm env tree plan := by
  unfold fork
  refine meets_attempt.bind fun _ => meets_modify fun w hw => ?_
  subst hw
  exact ⟨⟨⟨fun _ _ => rfl, rfl, by simp [World.start], by simp [World.start]⟩, rfl, rfl⟩, rfl, rfl,
    rfl⟩

theorem meets_forkChild :
    Meets (fun w => w = World.start tree) (forkChild env) (fun _ => Ready tree)
      fun _ w => w = World.start tree ∧ ¬ Calm env tree plan := by
  unfold forkChild
  have hfork : Meets (fun w => w = World.start tree) (fork env Point.fork) (fun _ => Ready tree)
      fun _ w => w = World.start tree ∧ ¬ Calm env tree plan := meets_fork Point.fork
  refine hfork.tryCatch fun e => ?_
  split_ifs
  · exact (meets_fork Point.forkWithBase).pre fun _ hw => hw.1
  · exact meets_throw fun _ => id

/-- Closing the child of an attempt closes it once. -/
theorem closedOnce (hforks : w.forks = 1) (hcloses : w.closes = 0) :
    ClosedOnce env { w with closes := w.closes + env.closable.toNat } :=
  Or.inr ⟨hforks, by simp [hcloses]⟩

/-- The end of the generator by a result: complete, or without effect because something stood in the
way. -/
def Settled (env : Env) (tree : FileTree PyStr (List UInt8)) (command : PyStr) (plan : Plan)
    (result : CommandResult) (w : World) : Prop :=
  (result = complete command plan ∧ w.processed = List.range' 1 plan.parts.length ∧
    Replaced tree plan.output (PyStr.utf8 (env.lines (List.range' 1 plan.parts.length))) w) ∨
  (result.exitCode = 2 ∧ Untouched env tree w ∧ ¬ Calm env tree plan)

theorem meets_managedChild (command : PyStr) (plan : Plan) :
    Meets (Ready tree) (managedChild env (underChild env command plan))
      (fun failed w => ClosedOnce env w ∧
        Settled env tree command plan (failed.getD (complete command plan)) w)
      fun _ w => ClosedOnce env w ∧ Untouched env tree w ∧ ¬ Calm env tree plan := by
  unfold managedChild
  refine (meets_underChild command plan).tryFinally (fun failed => ?_) fun _ => ?_
  · rintro w (⟨rfl, hw⟩ | ⟨⟨message, rfl⟩, hw⟩)
    · exact ⟨closedOnce hw.forks_eq hw.closes_eq, Or.inl ⟨rfl, hw.processed_eq, hw.replaced⟩⟩
    · exact ⟨closedOnce hw.forks_eq hw.closes_eq,
        Or.inr ⟨rfl, ⟨hw.untouched.same, hw.untouched.gone⟩, hw.reason⟩⟩
  · exact meets_modify fun w hw => ⟨closedOnce hw.forks_eq hw.closes_eq,
      ⟨hw.untouched.same, hw.untouched.gone⟩, hw.reason⟩

theorem untouched_start : Untouched env tree (World.start tree) := ⟨fun _ _ => rfl, fun _ _ => rfl⟩

theorem closedOnce_start : ClosedOnce env (World.start tree) := Or.inl ⟨rfl, rfl⟩

theorem meets_processPlan (command : PyStr) (plan : Plan) :
    Meets (fun w => w = World.start tree) (processPlan env command plan)
      (fun result w => ClosedOnce env w ∧ Settled env tree command plan result w)
      fun _ w => ClosedOnce env w ∧ Untouched env tree w ∧ ¬ Calm env tree plan := by
  unfold processPlan exceptException
  refine Meets.bind (Q := fun refused w => (refused = none ∧ Ready tree w) ∨
    ((∃ message, refused = some (fail command message "fork_failed")) ∧ w = World.start tree ∧
      ¬ Calm env tree plan))
    (Meets.tryCatch (?_ : Meets _ _ _ fun _ w => w = World.start tree ∧ ¬ Calm env tree plan)
      fun e => ?_)
    fun refused => ?_
  · exact meets_forkChild.bind fun _ => meets_pure fun w hw => Or.inl ⟨rfl, hw⟩
  · split_ifs
    · exact meets_pure fun w hw => Or.inr ⟨⟨_, rfl⟩, hw⟩
    · rintro w ⟨rfl, hreason⟩
      exact ⟨closedOnce_start, untouched_start, hreason⟩
  · rintro w (⟨rfl, hw⟩ | ⟨⟨message, rfl⟩, rfl, hreason⟩)
    · exact ((meets_managedChild command plan).bind fun _ => meets_pure fun _ => id) w hw
    · exact ⟨closedOnce_start, Or.inr ⟨rfl, untouched_start, hreason⟩⟩

end Writes

theorem length_of_mapM {α β ε : Type} {f : α → Except ε β} {l : List α} {l' : List β}
    (h : l.mapM f = Except.ok l') : l'.length = l.length := by
  induction l generalizing l' with
  | nil =>
      cases h
      rfl
  | cons a l ih =>
      rw [List.mapM_cons] at h
      obtain ⟨b, -, h⟩ := bind_eq_ok_iff.1 h
      obtain ⟨rest, hrest, h⟩ := bind_eq_ok_iff.1 h
      cases h
      rw [List.length_cons, List.length_cons, ih hrest]

/-- A plan has as many parts as the command says. -/
theorem length_parts {command taskText : PyStr} {p : Plan}
    (h : plan env tree command taskText = Except.ok p) : p.parts.length = p.count := by
  unfold plan at h
  obtain ⟨⟨fileArg, count⟩, -, h⟩ := bind_eq_ok_iff.1 h
  obtain ⟨_, -, h⟩ := bind_eq_ok_iff.1 h
  obtain ⟨_, -, h⟩ := bind_eq_ok_iff.1 h
  obtain ⟨paths, hpaths, h⟩ := bind_eq_ok_iff.1 h
  obtain ⟨output, -, h⟩ := bind_eq_ok_iff.1 h
  obtain ⟨_, -, h⟩ := bind_eq_ok_iff.1 h
  cases h
  simp [length_of_mapM hpaths]

/-- Every refusal has the exit code 2. -/
def Refuses {α : Type} (x : Except CommandResult α) : Prop :=
  ∀ result, x = Except.error result → result.exitCode = 2

theorem refuses_ok {α : Type} (a : α) : Refuses (Except.ok a) := fun _ h => by cases h

theorem refuses_fail {α : Type} (command message code : PyStr) :
    Refuses (Except.error (fail command message code) : Except CommandResult α) := by
  intro result h
  cases h
  rfl

theorem Refuses.bind {α β : Type} {x : Except CommandResult α} {f : α → Except CommandResult β}
    (hx : Refuses x) (hf : ∀ a, Refuses (f a)) : Refuses (x >>= f) := by
  intro result h
  cases x with
  | error r =>
      have hr : r = result := Except.error.inj (show Except.error r = Except.error result from h)
      exact hr ▸ hx r rfl
  | ok a => exact hf a result h

theorem refuses_raiseIf {p : Prop} [Decidable p] (command message code : PyStr) :
    Refuses (raiseIf p (fail command message code)) := by
  unfold raiseIf
  split_ifs
  · exact refuses_fail _ _ _
  · exact refuses_ok _

theorem refuses_mapM {α β : Type} {f : α → Except CommandResult β} (hf : ∀ a, Refuses (f a))
    (l : List α) : Refuses (l.mapM f) := by
  induction l with
  | nil => exact refuses_ok _
  | cons a l ih =>
      rw [List.mapM_cons]
      exact (hf a).bind fun b => ih.bind fun rest => refuses_ok _

theorem refuses_resolve (command name : PyStr) (mustExist : Bool) :
    Refuses (resolve env tree command name mustExist) := by
  unfold resolve
  cases DataPaths.resolveDataPath tree env.depth env.workspace name mustExist with
  | ok p => exact refuses_ok _
  | error e => exact refuses_fail _ _ _

theorem refuses_arguments (command : PyStr) : Refuses (arguments env command) := by
  unfold arguments
  split
  · exact refuses_fail _ _ _
  · split_ifs
    · split
      · split_ifs
        · exact refuses_fail _ _ _
        · exact refuses_ok _
      · exact refuses_fail _ _ _
    · exact refuses_fail _ _ _
  · exact refuses_fail _ _ _

/-- A command that is refused is refused with the exit code 2. -/
theorem refuses_plan (command taskText : PyStr) : Refuses (plan env tree command taskText) :=
  (refuses_arguments command).bind fun _ => (refuses_raiseIf _ _ _).bind fun _ =>
    (refuses_raiseIf _ _ _).bind fun _ =>
      (refuses_mapM (fun _ => refuses_resolve _ _ _) _).bind fun _ =>
        (refuses_resolve _ _ _).bind fun _ => (refuses_raiseIf _ _ _).bind fun _ => refuses_ok _

/-- A result and what it says of the files: exit code 0 and a complete output, or exit code 2 and
files as before. -/
def Outcome (env : Env) (tree : FileTree PyStr (List UInt8)) (command taskText : PyStr)
    (result : CommandResult) (w : World) : Prop :=
  (result.exitCode = 0 ∧ ∃ p, plan env tree command taskText = Except.ok p ∧
    w.processed = List.range' 1 p.count ∧
    Replaced tree p.output (PyStr.utf8 (env.lines (List.range' 1 p.count))) w) ∨
  (result.exitCode = 2 ∧ Untouched env tree w)

/-- **All or nothing.**  However the generator ends, the child that was forked has been closed once,
and either the output is complete and the exit code 0 is returned, or the files are as before.
Complete means that the fragments `1` to `COUNT` were processed and the output consists of their
lines, with every other file, the temporary one included, as before. -/
theorem cyclicProcess_allOrNothing (env : Env) (tree : FileTree PyStr (List UInt8))
    (command taskText : PyStr) :
    After (fun result w => ClosedOnce env w ∧ Outcome env tree command taskText result w)
      (fun _ w => ClosedOnce env w ∧ Untouched env tree w)
      (cyclicProcessSteps env command taskText (World.start tree)) := by
  have h : Meets (fun w => w = World.start tree) (cyclicProcessSteps env command taskText)
      (fun result w => ClosedOnce env w ∧ Outcome env tree command taskText result w)
      (fun _ w => ClosedOnce env w ∧ Untouched env tree w) := by
    unfold cyclicProcessSteps
    refine meets_get fun r hr => ?_
    subst hr
    dsimp only [World.start]
    cases hplan : plan env tree command taskText with
    | error result =>
        refine meets_pure fun w hw => ?_
        subst hw
        exact ⟨closedOnce_start, Or.inr ⟨refuses_plan _ _ _ hplan, untouched_start⟩⟩
    | ok p =>
        dsimp only
        split_ifs
        · refine (meets_processPlan command p).conseq (fun _ => id) ?_
            fun _ w hw => ⟨hw.1, hw.2.1⟩
          rintro result w ⟨hclosed, ⟨rfl, hprocessed, hreplaced⟩ | ⟨hcode, hw, -⟩⟩
          · rw [length_parts hplan] at hprocessed hreplaced
            exact ⟨hclosed, Or.inl ⟨rfl, p, hplan, hprocessed, hreplaced⟩⟩
          · exact ⟨hclosed, Or.inr ⟨hcode, hw⟩⟩
        · refine meets_pure fun w hw => ?_
          subst hw
          exact ⟨closedOnce_start, Or.inr ⟨rfl, untouched_start⟩⟩
  exact h _ rfl

/-- A workspace with two parts and an output of an earlier run. -/
def parts : FileTree PyStr (List UInt8) :=
  let data : Location PyStr := [PyStr.ofString "data", PyStr.ofString "w"]
  let first := (DataPaths.bare (List UInt8)).put "1a.txt" data [] (by decide +kernel)
  let second := first.put "2a.txt" data [] (by decide +kernel)
  second.put "a_out.txt" data (PyStr.utf8 "old") (by decide +kernel)

/-- A model that answers with the number of the fragment, and raises in one of them. -/
def counting (failing : Option ℕ) : Env where
  workspace := [PyStr.ofString "w"]
  depth := 0
  digit := fun _ => none
  describe := fun _ => []
  raises := fun point =>
    if ∃ index ∈ failing, point = Point.chat index then some ⟨ExceptionKind.exception, "busy"⟩
    else none
  forks := true
  closable := true
  resettable := true
  suffix := "x"
  unlinkFails := false
  fragment := fun _ => []
  reply := fun index => PyStr.ofString (toString index)

/-- The exit code of the result, and how often a child was forked. -/
def ending? : EStateM.Result Raised World CommandResult → Option (ℤ × ℕ)
  | .ok result w => some (result.exitCode, w.forks)
  | .error _ _ => none

/-- The output of the parts. -/
def combined : Location PyStr := ["a_out.txt", "data", "w"]

/-- Both fragments are answered; and the model raises in the second one. -/
theorem cyclicProcess_allOrNothing_counting :
    (∃ result w, cyclicProcessSteps (counting none) "cyclic_process a.txt -n 2" "sum up"
        (World.start parts) = EStateM.Result.ok result w ∧
      result.exitCode = 0 ∧ w.closes = 1 ∧ Replaced parts combined (PyStr.utf8 "1\n2\n") w) ∧
    ∃ result w, cyclicProcessSteps (counting (some 2)) "cyclic_process a.txt -n 2" "sum up"
        (World.start parts) = EStateM.Result.ok result w ∧
      result.exitCode = 2 ∧ w.closes = 1 ∧ ∀ q, w.tree.node q = parts.node q := by
  -- The theorem is used where the run is a variable, which nothing tries to evaluate.
  have hall : ∀ {env tree command taskText run},
      cyclicProcessSteps env command taskText (World.start tree) = run →
      After (fun result w => ClosedOnce env w ∧ Outcome env tree command taskText result w)
        (fun _ w => ClosedOnce env w ∧ Untouched env tree w) run := by
    rintro env tree command taskText _ rfl
    exact cyclicProcess_allOrNothing env tree command taskText
  refine ⟨?_, ?_⟩
  · have hending : ending? (cyclicProcessSteps (counting none) "cyclic_process a.txt -n 2" "sum up"
        (World.start parts)) = some (0, 1) := by decide +kernel
    have hplan : (plan (counting none) parts "cyclic_process a.txt -n 2" "sum up").toOption.map
        (fun p => (p.count, p.output)) = some (2, combined) := by decide +kernel
    have hlines : PyStr.utf8 ((counting none).lines (List.range' 1 2)) = PyStr.utf8 "1\n2\n" := by
      decide +kernel
    obtain ⟨run, hrun⟩ : ∃ run, cyclicProcessSteps (counting none) "cyclic_process a.txt -n 2"
      "sum up" (World.start parts) = run := ⟨_, rfl⟩
    have h := hall hrun
    rw [hrun] at hending
    cases run with
    | error e w => cases hending
    | ok result w =>
        obtain ⟨hcode, hforks⟩ := Prod.mk.inj (Option.some.inj hending)
        obtain ⟨⟨hnone, -⟩ | ⟨-, hcloses⟩, ⟨-, p, hp, -, hreplaced⟩ | ⟨htwo, -⟩⟩ := h
        · rw [hforks] at hnone
          cases hnone
        · rw [hforks] at hnone
          cases hnone
        · rw [hp] at hplan
          obtain ⟨hcount, hout⟩ := Prod.mk.inj (Option.some.inj hplan)
          rw [hcount, hout, hlines] at hreplaced
          exact ⟨result, w, hrun, hcode, hcloses, hreplaced⟩
        · rw [hcode] at htwo
          cases htwo
  · have hending : ending? (cyclicProcessSteps (counting (some 2)) "cyclic_process a.txt -n 2"
        "sum up" (World.start parts)) = some (2, 1) := by decide +kernel
    obtain ⟨run, hrun⟩ : ∃ run, cyclicProcessSteps (counting (some 2)) "cyclic_process a.txt -n 2"
      "sum up" (World.start parts) = run := ⟨_, rfl⟩
    have h := hall hrun
    rw [hrun] at hending
    cases run with
    | error e w => cases hending
    | ok result w =>
        obtain ⟨hcode, hforks⟩ := Prod.mk.inj (Option.some.inj hending)
        obtain ⟨⟨hnone, -⟩ | ⟨-, hcloses⟩, ⟨hzero, -⟩ | ⟨-, huntouched⟩⟩ := h
        · rw [hforks] at hnone
          cases hnone
        · rw [hforks] at hnone
          cases hnone
        · rw [hcode] at hzero
          cases hzero
        · exact ⟨result, w, hrun, hcode, hcloses, huntouched.gone rfl⟩

/-- A command that is accepted is carried out. -/
theorem cyclicProcessSteps_of_plan {command taskText : PyStr} {p : Plan}
    (hplan : plan env tree command taskText = Except.ok p) (hforks : env.forks = true) :
    cyclicProcessSteps env command taskText (World.start tree) =
      processPlan env command p (World.start tree) := by
  have htree : plan env (World.start tree).tree command taskText = Except.ok p := hplan
  rw [cyclicProcessSteps, get_bind, htree]
  dsimp only
  rw [if_pos hforks]

/-- **A generator that nothing disturbs** ends with the complete output. -/
theorem executeCyclicProcess_complete {command taskText : PyStr} {p : Plan}
    (hplan : plan env tree command taskText = Except.ok p) (hforks : env.forks = true)
    (hcalm : Calm env.resumed tree p) :
    ∃ w, executeCyclicProcess env command taskText (World.start tree) =
        EStateM.Result.ok (complete command p) w ∧
      ClosedOnce env w ∧ w.processed = List.range' 1 p.count ∧
      Replaced tree p.output (PyStr.utf8 (env.lines (List.range' 1 p.count))) w := by
  have h := @meets_processPlan env.resumed tree command p (World.start tree) rfl
  have hresumed : plan env.resumed tree command taskText = Except.ok p := hplan
  rw [executeCyclicProcess, cyclicProcessSteps_of_plan hresumed hforks]
  cases hx : processPlan env.resumed command p (World.start tree) with
  | ok result w =>
      rw [hx] at h
      obtain ⟨hclosed, ⟨rfl, hprocessed, hreplaced⟩ | ⟨-, -, hreason⟩⟩ := h
      · rw [length_parts hplan] at hprocessed hreplaced
        exact ⟨w, rfl, hclosed, hprocessed, hreplaced⟩
      · exact absurd hcalm hreason
  | error e w =>
      rw [hx] at h
      exact absurd hcalm h.2.2

end CyclicProcess
