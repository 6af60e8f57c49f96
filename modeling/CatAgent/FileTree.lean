/-
**Trees of files with symbolic links.**

A location is a list of names, the innermost name first: a location is inside a directory when the
directory is one of its suffixes.  A tree says what is found at each location.  A path is walked
step by step, and a link that is met is walked in its turn; links that lead in a circle, or that are
nested too deeply, make the walk fail.

Main definitions:

* `PathStep`, `LinkTarget`, `FileNode`, `FileTree` — steps, links, and trees;
* `FileTree.walk` — where a path leads, strictly or as far as there is something;
* `FileTree.Real` — a location that no link lies on;
* `FileTree.put`, `FileTree.remove` — a file is written or replaced, and removed;
* `Inside`, `StrictlyInside` — what lies in a directory.

Main results:

* `FileTree.real_of_walk` — **a walk leads to a real location**.
-/

import Mathlib.Data.List.Infix

set_option relaxedAutoImplicit false
set_option autoImplicit false

universe u v

/-- A location, the innermost name first. -/
abbrev Location (ν : Type u) := List ν

/-- A step of a path: to the directory above, or to a name. -/
inductive PathStep (ν : Type u) where
  | up
  | down (name : ν)
deriving DecidableEq

/-- What a link says. -/
structure LinkTarget (ν : Type u) where
  absolute : Bool
  steps : List (PathStep ν)
deriving DecidableEq

/-- What is found at a location. -/
inductive FileNode (ν : Type u) (κ : Type v) where
  | directory
  | file (contents : κ)
  | link (target : LinkTarget ν)
  /-- A device, a pipe or a socket. -/
  | special

/-- A tree of files. -/
structure FileTree (ν : Type u) (κ : Type v) where
  node : Location ν → Option (FileNode ν κ)
  /-- Which names the operating system takes. -/
  nameable : ν → Bool
  root : node [] = some FileNode.directory
  closed : ∀ name p, node (name :: p) ≠ none → node p = some FileNode.directory
  named : ∀ name p, node (name :: p) ≠ none → nameable name = true

/-- Why a path leads nowhere. -/
inductive WalkError where
  | loop
  | missing
  | notDirectory
  | badName
deriving DecidableEq

/-- The steps to a location. -/
def stepsTo {ν : Type u} (p : Location ν) : List (PathStep ν) := p.reverse.map PathStep.down

/-- The location lies in the directory, or is the directory. -/
abbrev Inside {ν : Type u} (root p : Location ν) : Prop := root <:+ p

/-- The location lies in the directory, and is not the directory itself. -/
def StrictlyInside {ν : Type u} (root p : Location ν) : Prop := root <:+ p ∧ p ≠ root

namespace FileTree

variable {ν : Type u} {κ : Type v} (t : FileTree ν κ)

/-- There is a link at the location. -/
def isLink (p : Location ν) : Bool :=
  match t.node p with
  | some (FileNode.link _) => true
  | _ => false

/-- There is a directory at the location. -/
def isDirectory (p : Location ν) : Bool :=
  match t.node p with
  | some FileNode.directory => true
  | _ => false

/-- There is a regular file at the location. -/
def isFile (p : Location ν) : Bool :=
  match t.node p with
  | some (FileNode.file _) => true
  | _ => false

/-- Why nothing is found under a location. -/
def absent (p : Location ν) : WalkError :=
  match t.node p with
  | none | some FileNode.directory => WalkError.missing
  | _ => WalkError.notDirectory

/-- The steps of a path are taken one after the other; `follow` says where a link leads. -/
def walkWith (follow : Location ν → LinkTarget ν → Except WalkError (Location ν)) (strict : Bool) :
    Location ν → List (PathStep ν) → Except WalkError (Location ν)
  | p, [] => Except.ok p
  | p, PathStep.up :: rest => walkWith follow strict p.tail rest
  | p, PathStep.down name :: rest =>
      if t.nameable name then
        match t.node (name :: p) with
        | some (FileNode.link target) =>
            match follow p target with
            | Except.ok q => walkWith follow strict q rest
            | Except.error e => Except.error e
        | some _ => walkWith follow strict (name :: p) rest
        | none =>
            if strict then Except.error (t.absent p)
            else walkWith follow strict (name :: p) rest
      else Except.error WalkError.badName

/-- **Where a path leads** from a location, if links are nested so deeply at most.  A strict walk
fails where there is nothing. -/
def walk (strict : Bool) : ℕ → Location ν → List (PathStep ν) → Except WalkError (Location ν)
  | 0 => t.walkWith (fun _ _ => Except.error WalkError.loop) strict
  | n + 1 => t.walkWith
      (fun p target => walk strict n (if target.absolute then [] else p) target.steps) strict

/-- No link lies on the way to the location. -/
def Real (p : Location ν) : Prop := ∀ q, q <:+ p → t.isLink q = false

variable {t} {p q : Location ν} {name : ν}

/-! ### Real locations -/

@[simp] theorem isLink_nil : t.isLink [] = false := by simp only [isLink, t.root]

@[simp] theorem real_nil : t.Real [] := by
  intro q hq
  obtain rfl := List.suffix_nil.1 hq
  exact isLink_nil

theorem real_cons : t.Real (name :: p) ↔ t.Real p ∧ t.isLink (name :: p) = false := by
  constructor
  · intro h
    exact ⟨fun q hq => h q (hq.trans (List.suffix_cons name p)), h _ List.suffix_rfl⟩
  · rintro ⟨hp, hlink⟩ q hq
    rcases List.suffix_cons_iff.1 hq with rfl | hq
    · exact hlink
    · exact hp q hq

theorem Real.of_suffix (h : t.Real p) (hq : q <:+ p) : t.Real q := fun r hr => h r (hr.trans hq)

theorem Real.tail (h : t.Real p) : t.Real p.tail := h.of_suffix (List.tail_suffix p)

theorem isLink_of_node_none (h : t.node p = none) : t.isLink p = false := by
  simp only [isLink, h]

/-! ### Walks -/

/-- **What a step to a name can do.** -/
theorem walkWith_down {follow : Location ν → LinkTarget ν → Except WalkError (Location ν)}
    {strict : Bool} {rest : List (PathStep ν)}
    (h : t.walkWith follow strict p (PathStep.down name :: rest) = Except.ok q) :
    t.nameable name = true ∧
      ((∃ target r, t.node (name :: p) = some (FileNode.link target) ∧
          follow p target = Except.ok r ∧ t.walkWith follow strict r rest = Except.ok q) ∨
        (t.isLink (name :: p) = false ∧ (strict = true → t.node (name :: p) ≠ none) ∧
          t.walkWith follow strict (name :: p) rest = Except.ok q)) := by
  unfold walkWith at h
  by_cases hname : t.nameable name = true
  · refine ⟨hname, ?_⟩
    rw [if_pos hname] at h
    cases hnode : t.node (name :: p) with
    | none =>
        simp only [hnode] at h
        cases strict with
        | true => cases h
        | false => exact Or.inr ⟨isLink_of_node_none hnode, nofun, h⟩
    | some node =>
        cases node with
        | link target =>
            simp only [hnode] at h
            cases hr : follow p target with
            | error e =>
                rw [hr] at h
                cases h
            | ok r =>
                rw [hr] at h
                exact Or.inl ⟨target, r, rfl, hr, h⟩
        | _ =>
            simp only [hnode] at h
            exact Or.inr ⟨by simp only [isLink, hnode], fun _ => nofun, h⟩
  · rw [if_neg hname] at h
    cases h

/-- **A walk leads to a real location**, if links are followed to real locations. -/
theorem real_of_walkWith {follow : Location ν → LinkTarget ν → Except WalkError (Location ν)}
    {strict : Bool} (hfollow : ∀ p target q, t.Real p → follow p target = Except.ok q → t.Real q)
    {steps : List (PathStep ν)} (hp : t.Real p)
    (h : t.walkWith follow strict p steps = Except.ok q) : t.Real q := by
  induction steps generalizing p with
  | nil =>
      cases h
      exact hp
  | cons step rest ih =>
      cases step with
      | up => exact ih hp.tail h
      | down name =>
          obtain ⟨_, ⟨target, r, _, hr, h⟩ | ⟨hlink, _, h⟩⟩ := walkWith_down h
          · exact ih (hfollow _ _ _ hp hr) h
          · exact ih (real_cons.2 ⟨hp, hlink⟩) h

/-- **A walk leads to a real location.** -/
theorem real_of_walk {strict : Bool} {n : ℕ} {steps : List (PathStep ν)} (hp : t.Real p)
    (h : t.walk strict n p steps = Except.ok q) : t.Real q := by
  induction n generalizing p q steps with
  | zero => exact real_of_walkWith (fun _ _ _ _ hq => by cases hq) hp h
  | succ n ih =>
      refine real_of_walkWith (fun r target q hr hq => ih ?_ hq) hp h
      split_ifs
      · exact real_nil
      · exact hr

/-! ### Writing -/

/-- A regular file can be put under the name: there is a directory, and no directory in the way. -/
def Slot (t : FileTree ν κ) (name : ν) (p : Location ν) : Prop :=
  t.isDirectory p = true ∧ t.nameable name = true ∧ t.isDirectory (name :: p) = false

instance (name : ν) (p : Location ν) : Decidable (t.Slot name p) :=
  inferInstanceAs (Decidable (_ ∧ _ ∧ _))

theorem isDirectory_iff : t.isDirectory p = true ↔ t.node p = some FileNode.directory := by
  unfold isDirectory
  cases t.node p with
  | none => simp
  | some node => cases node <;> simp

/-- Nothing lies under what is not a directory. -/
theorem node_cons_eq_none (h : t.isDirectory p = false) (name : ν) : t.node (name :: p) = none := by
  by_contra hne
  rw [isDirectory_iff.2 (t.closed name p hne)] at h
  cases h

section Write

variable [DecidableEq ν]

/-- A regular file is put under a name, in the place of what is there. -/
def put (t : FileTree ν κ) (name : ν) (p : Location ν) (contents : κ) (h : t.Slot name p) :
    FileTree ν κ where
  node := fun q => if q = name :: p then some (FileNode.file contents) else t.node q
  nameable := t.nameable
  root := by rw [if_neg (List.cons_ne_nil name p).symm, t.root]
  closed := by
    intro name' q hq
    by_cases hqp : q = name :: p
    · subst hqp
      rw [if_neg (by simp)] at hq
      exact absurd (node_cons_eq_none h.2.2 name') hq
    · rw [if_neg hqp]
      by_cases heq : name' :: q = name :: p
      · obtain ⟨-, rfl⟩ := List.cons.inj heq
        exact isDirectory_iff.1 h.1
      · rw [if_neg heq] at hq
        exact t.closed name' q hq
  named := by
    intro name' q hq
    by_cases heq : name' :: q = name :: p
    · obtain ⟨rfl, -⟩ := List.cons.inj heq
      exact h.2.1
    · rw [if_neg heq] at hq
      exact t.named name' q hq

/-- What is not a directory is removed. -/
def remove (t : FileTree ν κ) (p : Location ν) (h : t.isDirectory p = false) : FileTree ν κ where
  node := fun q => if q = p then none else t.node q
  nameable := t.nameable
  root := by
    rw [if_neg, t.root]
    rintro rfl
    rw [isDirectory_iff.2 t.root] at h
    cases h
  closed := by
    intro name q hq
    by_cases hqp : q = p
    · subst hqp
      rw [node_cons_eq_none h name] at hq
      simp at hq
    · rw [if_neg hqp]
      by_cases heq : name :: q = p
      · rw [if_pos heq] at hq
        exact absurd rfl hq
      · rw [if_neg heq] at hq
        exact t.closed name q hq
  named := by
    intro name q hq
    by_cases heq : name :: q = p
    · rw [if_pos heq] at hq
      exact absurd rfl hq
    · rw [if_neg heq] at hq
      exact t.named name q hq

theorem node_put {contents : κ} (h : t.Slot name p) (q : Location ν) :
    (t.put name p contents h).node q =
      if q = name :: p then some (FileNode.file contents) else t.node q := rfl

theorem node_remove (h : t.isDirectory p = false) (q : Location ν) :
    (t.remove p h).node q = if q = p then none else t.node q := rfl

end Write

end FileTree
