/-
**Paths in the data directory.**

Tools name files of the data directory by strings.  A string is parsed as a path, the directory that
it names is resolved, links included, and the last name is put under it; the result has to lie in the
data directory and must not be a link.

Main definitions:

* `PurePath` — what `pathlib` makes of a string;
* `DataPaths.dataRoot`, `DataPaths.resolveDataPath` — the two functions of the module;
* `DataPaths.Confined` — what callers rely on;
* `DataPaths.NamesRoot` — the string names the data directory itself.

Main results:

* `DataPaths.resolved_real`, `DataPaths.resolved_inside` — a path that is returned is its own real
  path and lies in the data directory;
* `DataPaths.resolved_root_iff` — when the data directory itself is returned;
* `DataPaths.confined_iff` — callers can rely on the function **unless the string names the data
  directory itself**.
-/

import CatAgent.FileTree
import CatAgent.Host

set_option relaxedAutoImplicit false
set_option autoImplicit false

/-! ### Paths -/

/-- A path of `pathlib`: whether it starts at the root, and its parts, the outermost first. -/
structure PurePath where
  absolute : Bool
  parts : List PyStr
deriving DecidableEq

namespace PurePath

def slash : CodePoint := PyStr.ofChar '/'

/-- `Path(s)`: empty components and those for the same directory are dropped. -/
def ofStr (s : PyStr) : PurePath where
  absolute := decide (s.head? = some slash)
  parts := (s.splitOn slash).filter fun part =>
    decide (part ≠ []) && decide (part ≠ PyStr.ofString ".")

/-- The location of a path, as far as it goes down only. -/
def under (root : Location PyStr) (path : PurePath) : Location PyStr := path.parts.reverse ++ root

theorem mem_parts {s part : PyStr} :
    part ∈ (ofStr s).parts ↔ part ∈ s.splitOn slash ∧ part ≠ [] ∧ part ≠ PyStr.ofString "." := by
  simp only [ofStr, List.mem_filter, Bool.and_eq_true, decide_eq_true_eq]

end PurePath

namespace DataPaths

open PurePath (slash)

/-- Why a path is refused. -/
inductive DataPathError where
  | noDirectory
  | notDirectory
  | noName
  | invalid
  | escapes
  | link
  | missing
  | notRegular
  /-- What `resolve` raises by itself. -/
  | unresolved (e : WalkError)
deriving DecidableEq

/-- A location as a string. -/
def render (p : Location PyStr) : PyStr :=
  match p with
  | [] => PyStr.ofString "/"
  | _ => p.reverse.flatMap fun name => slash :: name

/-- The message of a `ValueError`, for the directory and the string. -/
def DataPathError.message (root : Location PyStr) (value : PyStr) : DataPathError → Option PyStr
  | noDirectory => some (PyStr.ofString "data directory does not exist: " ++ render root)
  | notDirectory => some (PyStr.ofString "data path is not a directory: " ++ render root)
  | noName => some (PyStr.ofString "data path must name a file")
  | invalid => some (PyStr.ofString "invalid data path: " ++ value)
  | escapes => some (PyStr.ofString "data path escapes data directory: " ++ value)
  | link => some (PyStr.ofString "symlink is not permitted: " ++ value)
  | missing => some (PyStr.ofString "data file does not exist: " ++ value)
  | notRegular => some (PyStr.ofString "data path is not a regular file: " ++ value)
  | unresolved _ => none

variable {κ : Type} (t : FileTree PyStr κ) (depth : ℕ) (workspace : Location PyStr)

/-- `resolve(strict=True)`, where a missing file is an error of its own. -/
def resolveStrict (absent : DataPathError) (p : Location PyStr) :
    Except DataPathError (Location PyStr) :=
  match t.walk true depth [] (stepsTo p) with
  | Except.ok resolved => Except.ok resolved
  | Except.error WalkError.missing => Except.error absent
  | Except.error e => Except.error (DataPathError.unresolved e)

/-- `data_root`. -/
def dataRoot : Except DataPathError (Location PyStr) := do
  let resolved ← resolveStrict t depth DataPathError.noDirectory
    (PyStr.ofString "data" :: workspace)
  raiseIf (t.isDirectory resolved = false) DataPathError.notDirectory
  return resolved

/-- The string without the slash that marks the data directory. -/
def logical (value : PyStr) : PyStr :=
  if value.head? = some slash then value.tail else value

/-- `raw.parent.resolve(strict=False)`, with the last name put under it. -/
def locate (raw : Location PyStr) : Except DataPathError (Location PyStr) :=
  match t.walk false depth [] (stepsTo raw.tail) with
  | Except.ok parent => Except.ok (raw.head?.toList ++ parent)
  | Except.error e => Except.error (DataPathError.unresolved e)

/-- What is done if the file has to exist. -/
def existing (root candidate : Location PyStr) : Except DataPathError (Location PyStr) := do
  let resolved ← resolveStrict t depth DataPathError.missing candidate
  raiseIf (¬ Inside root resolved) DataPathError.escapes
  raiseIf (t.isFile resolved = false) DataPathError.notRegular
  return resolved

/-- `resolve_data_path`. -/
def resolveDataPath (value : PyStr) (mustExist : Bool) :
    Except DataPathError (Location PyStr) := do
  raiseIf (logical value = []) DataPathError.noName
  let relative := PurePath.ofStr (logical value)
  raiseIf (relative.absolute ∨ PyStr.ofString ".." ∈ relative.parts) DataPathError.invalid
  let root ← dataRoot t depth workspace
  let candidate ← locate t depth (relative.under root)
  raiseIf (¬ Inside root candidate) DataPathError.escapes
  raiseIf (t.isLink candidate) DataPathError.link
  if mustExist then existing t depth root candidate else return candidate

/-! ### What is returned -/

variable {t depth workspace} {root candidate p q : Location PyStr} {value : PyStr}
  {mustExist : Bool}

/-- The string is a path that goes down. -/
def Named (value : PyStr) : Prop :=
  logical value ≠ [] ∧ (PurePath.ofStr (logical value)).absolute = false ∧
    PyStr.ofString ".." ∉ (PurePath.ofStr (logical value)).parts

theorem resolveDataPath_eq_ok_iff :
    resolveDataPath t depth workspace value mustExist = Except.ok p ↔
      Named value ∧ ∃ root candidate, dataRoot t depth workspace = Except.ok root ∧
        locate t depth ((PurePath.ofStr (logical value)).under root) = Except.ok candidate ∧
        Inside root candidate ∧ t.isLink candidate = false ∧
        (if mustExist then existing t depth root candidate else Except.ok candidate) =
          Except.ok p := by
  simp only [resolveDataPath, bind_eq_ok_iff, raiseIf_eq_ok_iff, Named, not_or, not_not,
    Bool.not_eq_true, exists_const]
  tauto

theorem resolveStrict_eq_ok_iff {absent : DataPathError} :
    resolveStrict t depth absent p = Except.ok q ↔
      t.walk true depth [] (stepsTo p) = Except.ok q := by
  unfold resolveStrict
  split <;> simp_all

theorem dataRoot_eq_ok_iff :
    dataRoot t depth workspace = Except.ok root ↔
      t.walk true depth [] (stepsTo (PyStr.ofString "data" :: workspace)) = Except.ok root ∧
        t.isDirectory root = true := by
  simp only [dataRoot, bind_eq_ok_iff, raiseIf_eq_ok_iff, resolveStrict_eq_ok_iff, exists_const,
    Bool.not_eq_false]
  constructor
  · rintro ⟨r, hr, hdir, h⟩
    cases h
    exact ⟨hr, hdir⟩
  · rintro ⟨hr, hdir⟩
    exact ⟨root, hr, hdir, rfl⟩

theorem locate_eq_ok_iff {raw : Location PyStr} :
    locate t depth raw = Except.ok candidate ↔
      ∃ parent, t.walk false depth [] (stepsTo raw.tail) = Except.ok parent ∧
        candidate = raw.head?.toList ++ parent := by
  unfold locate
  split
  · rename_i parent hparent
    simp only [hparent, Except.ok.injEq, exists_eq_left', eq_comm]
  · rename_i e he
    simp [he]

theorem existing_eq_ok_iff :
    existing t depth root candidate = Except.ok p ↔
      t.walk true depth [] (stepsTo candidate) = Except.ok p ∧ Inside root p ∧
        t.isFile p = true := by
  simp only [existing, bind_eq_ok_iff, raiseIf_eq_ok_iff, resolveStrict_eq_ok_iff, exists_const,
    Bool.not_eq_false, not_not]
  constructor
  · rintro ⟨r, hr, hin, hfile, h⟩
    cases h
    exact ⟨hr, hin, hfile⟩
  · rintro ⟨hr, hin, hfile⟩
    exact ⟨p, hr, hin, hfile, rfl⟩

theorem real_root (h : dataRoot t depth workspace = Except.ok root) :
    t.Real root ∧ t.isDirectory root = true := by
  obtain ⟨hwalk, hdir⟩ := dataRoot_eq_ok_iff.1 h
  exact ⟨FileTree.real_of_walk FileTree.real_nil hwalk, hdir⟩

/-- What has been located is real unless it is a link. -/
theorem real_of_locate {raw : Location PyStr}
    (h : locate t depth raw = Except.ok candidate) (hlink : t.isLink candidate = false) :
    t.Real candidate := by
  obtain ⟨parent, hparent, rfl⟩ := locate_eq_ok_iff.1 h
  have hreal := FileTree.real_of_walk FileTree.real_nil hparent
  cases hname : raw.head? with
  | none => exact hreal
  | some name =>
      rw [hname] at hlink
      exact FileTree.real_cons.2 ⟨hreal, hlink⟩

/-- **A path that is returned is its own real path, and lies in the data directory.** -/
theorem resolved_inside (h : resolveDataPath t depth workspace value mustExist = Except.ok p) :
    t.Real p ∧ ∃ root, dataRoot t depth workspace = Except.ok root ∧ Inside root p := by
  obtain ⟨_, root, candidate, hroot, hlocate, hinside, hlink, hp⟩ := resolveDataPath_eq_ok_iff.1 h
  cases mustExist with
  | false =>
      cases hp
      exact ⟨real_of_locate hlocate hlink, root, hroot, hinside⟩
  | true =>
      obtain ⟨hwalk, hin, _⟩ := existing_eq_ok_iff.1 hp
      exact ⟨FileTree.real_of_walk FileTree.real_nil hwalk, root, hroot, hin⟩

/-! ### The data directory itself -/

variable (t depth workspace) in
/-- The string names the data directory itself: its directory leads to where the data directory
lies, and its last name is the name of the data directory.  A string without any component is
among them. -/
def NamesRoot (value : PyStr) : Prop :=
  Named value ∧ ∃ root, dataRoot t depth workspace = Except.ok root ∧
    ((PurePath.ofStr (logical value)).under root).head? = root.head? ∧
    t.walk false depth [] (stepsTo ((PurePath.ofStr (logical value)).under root).tail) =
      Except.ok root.tail

/-- A location is put together from its name and its directory. -/
theorem locate_eq_root_iff {path : PurePath} :
    locate t depth (path.under root) = Except.ok root ↔
      (path.under root).head? = root.head? ∧
        t.walk false depth [] (stepsTo (path.under root).tail) = Except.ok root.tail := by
  rw [locate_eq_ok_iff]
  cases hraw : path.under root with
  | nil =>
      obtain ⟨_, rfl⟩ := List.append_eq_nil_iff.1 hraw
      simp [eq_comm]
  | cons name above =>
      cases root with
      | nil => simp
      | cons name' root =>
          simp only [List.head?_cons, Option.toList_some, List.singleton_append, List.cons.injEq,
            List.tail_cons, Option.some.injEq]
          constructor
          · rintro ⟨parent, hparent, rfl, rfl⟩
            exact ⟨rfl, hparent⟩
          · rintro ⟨rfl, hparent⟩
            exact ⟨root, hparent, rfl, rfl⟩

/-- **When the data directory itself is returned.** -/
theorem resolved_root_iff :
    (∃ root, dataRoot t depth workspace = Except.ok root ∧
      resolveDataPath t depth workspace value mustExist = Except.ok root) ↔
      mustExist = false ∧ NamesRoot t depth workspace value := by
  constructor
  · rintro ⟨root, hroot, h⟩
    obtain ⟨hnamed, root', candidate, hroot', hlocate, _, _, hp⟩ := resolveDataPath_eq_ok_iff.1 h
    rw [hroot] at hroot'
    cases hroot'
    cases mustExist with
    | true =>
        have hfile := (existing_eq_ok_iff.1 hp).2.2
        have hdir := (real_root hroot).2
        unfold FileTree.isFile at hfile
        unfold FileTree.isDirectory at hdir
        split at hdir <;> simp_all
    | false =>
        cases hp
        exact ⟨rfl, hnamed, root, hroot, locate_eq_root_iff.1 hlocate⟩
  · rintro ⟨rfl, hnamed, root, hroot, hnames⟩
    have hlink : t.isLink root = false := (real_root hroot).1 root List.suffix_rfl
    exact ⟨root, hroot, resolveDataPath_eq_ok_iff.2 ⟨hnamed, root, root, hroot,
      locate_eq_root_iff.2 hnames, List.suffix_rfl, hlink, rfl⟩⟩

/-! ### What callers rely on -/

variable (t depth workspace) in
/-- **The contract**, for a string. -/
structure Confined (value : PyStr) (mustExist : Bool) : Prop where
  /-- What is returned is not a link, and its real path, which it is itself, lies strictly inside
  the data directory. -/
  inside : ∀ p, resolveDataPath t depth workspace value mustExist = Except.ok p →
    t.isLink p = false ∧ t.Real p ∧
      ∃ root, dataRoot t depth workspace = Except.ok root ∧ StrictlyInside root p
  /-- A string with a component for the directory above is not accepted. -/
  upward : PyStr.ofString ".." ∈ value.splitOn slash →
    ∀ p, resolveDataPath t depth workspace value mustExist ≠ Except.ok p
  /-- A single slash at the beginning makes no difference. -/
  slash : value.head? ≠ some slash →
    resolveDataPath t depth workspace (slash :: value) mustExist =
      resolveDataPath t depth workspace value mustExist

theorem logical_slash (hvalue : value.head? ≠ some slash) :
    logical (slash :: value) = logical value := by
  simp only [logical, List.head?_cons, if_true, List.tail_cons, if_neg hvalue]

theorem mem_splitOn_logical {part : PyStr} (hpart : part ∈ value.splitOn slash)
    (hne : part ≠ []) : part ∈ (logical value).splitOn slash := by
  unfold logical
  split_ifs with hhead
  · cases value with
    | nil => cases hhead
    | cons c rest =>
        cases hhead
        rw [List.splitOn_cons_eq_if_modifyHead, if_pos (by simp)] at hpart
        exact (List.mem_cons.1 hpart).resolve_left hne
  · exact hpart

/-- **Callers can rely on the function unless the string names the data directory itself.** -/
theorem confined_iff :
    Confined t depth workspace value mustExist ↔
      mustExist = true ∨ ¬ NamesRoot t depth workspace value := by
  have hroot : (mustExist = true ∨ ¬ NamesRoot t depth workspace value) ↔
      ¬ ∃ root, dataRoot t depth workspace = Except.ok root ∧
        resolveDataPath t depth workspace value mustExist = Except.ok root := by
    rw [resolved_root_iff, not_and_or, Bool.not_eq_false]
  rw [hroot]
  constructor
  · rintro h ⟨root, hr, hp⟩
    obtain ⟨_, _, root', hr', hstrict⟩ := h.inside root hp
    rw [hr] at hr'
    cases hr'
    exact hstrict.2 rfl
  · intro h
    refine ⟨fun p hp => ?_, fun hup p hp => ?_, fun hvalue => ?_⟩
    · obtain ⟨hreal, root, hr, hin⟩ := resolved_inside hp
      refine ⟨hreal p List.suffix_rfl, hreal, root, hr, hin, ?_⟩
      rintro rfl
      exact h ⟨p, hr, hp⟩
    · obtain ⟨⟨_, _, hnot⟩, _⟩ := resolveDataPath_eq_ok_iff.1 hp
      have hne : PyStr.ofString ".." ≠ [] := by decide
      exact hnot (PurePath.mem_parts.2 ⟨mem_splitOn_logical hup hne, hne, by decide⟩)
    · simp only [resolveDataPath, logical_slash hvalue]

/-- A file system with a workspace and an empty data directory. -/
def bare (κ : Type) : FileTree PyStr κ where
  node := fun p =>
    if p = [] ∨ p = [PyStr.ofString "w"] ∨ p = [PyStr.ofString "data", PyStr.ofString "w"] then
      some FileNode.directory
    else none
  nameable := fun _ => true
  root := rfl
  closed := by
    intro name p h
    rw [ne_eq, ite_eq_right_iff, Classical.not_imp] at h
    obtain ⟨h | h | h, _⟩ := h
    · cases h
    · cases h
      rfl
    · cases h
      rfl
  named := fun _ _ _ => rfl

/-- **The string `.` names the data directory itself**, and is accepted. -/
theorem not_confined_dot :
    ¬ Confined (bare Unit) 0 [PyStr.ofString "w"] (PyStr.ofString ".") false := by
  intro h
  have hroot : dataRoot (bare Unit) 0 [PyStr.ofString "w"] =
      Except.ok [PyStr.ofString "data", PyStr.ofString "w"] := by decide +kernel
  have hp : resolveDataPath (bare Unit) 0 [PyStr.ofString "w"] (PyStr.ofString ".") false =
      Except.ok [PyStr.ofString "data", PyStr.ofString "w"] := by decide +kernel
  obtain ⟨_, _, root, hr, hstrict⟩ := h.inside _ hp
  rw [hroot] at hr
  cases hr
  exact hstrict.2 rfl

end DataPaths
