/-
**The life of a background job.**

A job is accepted, its steps are run one after the other, and it ends.  At any time it may be
cancelled, by its client, by the end of the session, by its deadline or by a message that cannot be
sent; then an operation discards the context of its agent, and that operation ends the job.  A step
that was submitted before may still wait in the queue, and finds the job gone.

Main definitions:

* `JobLife`, `JobLife.Move` — what is known of one job, and what can happen to it;
* `JobLife.Sound` — the invariant of one job;
* `NativeCore.life` — what a state of the CORE says about a job;
* `NativeCore.Tracked` — all jobs are sound, and no two active ones have one agent.

Main results:

* `JobLife.Move.sound` — every move keeps the invariant of a job;
* `NativeCore.evolves_step` — **the CORE refines the lives**: whatever it does, other than to
  accept a job, is a sequence of moves of each job;
* `NativeCore.jobs_tracked` — **no job is lost and no step is done twice**.
-/

import CatAgent.CoreSessions
import Mathlib.Data.List.Count
import Mathlib.Logic.Relation

set_option relaxedAutoImplicit false
set_option autoImplicit false

/-! ### One job -/

/-- What is asked of a job, and how far it is. -/
structure JobTask where
  agentId : PyStr
  steps : List PyStr
  index : ℕ
  cancelled : Bool
  /-- A message could not be sent. -/
  undelivered : Bool
deriving DecidableEq

/-- A task that has not begun. -/
structure JobTask.New (task : JobTask) : Prop where
  index : task.index = 0
  cancelled : task.cancelled = false
  undelivered : task.undelivered = false
  length : 0 < task.steps.length

/-- What the thread does for the job. -/
inductive JobStage where
  | resting
  /-- The agent is about to be asked. -/
  | before (instruction : PyStr) (final : Bool)
  /-- The agent has answered. -/
  | after (final ok : Bool)
  /-- The context of the agent has been discarded. -/
  | aborting
deriving DecidableEq

/-- A step of the job is being run: zero or one. -/
def JobStage.stepping : JobStage → ℕ
  | before _ _ => 1
  | after _ _ => 1
  | _ => 0

/-- The job is being cleaned up: zero or one. -/
def JobStage.clearing : JobStage → ℕ
  | aborting => 1
  | _ => 0

/-- What is known of one job. -/
structure JobLife where
  task : Option JobTask
  active : Bool
  /-- The operations that wait: those that run a step, and those that clean up. -/
  steps : ℕ
  clears : ℕ
  stage : JobStage
  /-- A message about a step could not be encoded, and nothing was submitted. -/
  stranded : ℕ
  /-- The instructions that were run, in their order. -/
  ran : List PyStr
  ends : List JobEnd

namespace JobLife

/-- A job is accepted, and its first step waits. -/
def accept (v : JobLife) (task : JobTask) : JobLife :=
  { v with task := some task, active := true, steps := v.steps + 1 }

/-- What can happen to a job that exists. -/
inductive Move : JobLife → JobLife → Prop
  | cancel (v : JobLife) (task : JobTask) (undelivered : Bool) : v.task = some task →
      v.active = true → task.cancelled = false →
      Move v { v with
        task := some { task with cancelled := true, undelivered }
        clears := v.clears + 1 }
  | drop (v : JobLife) (n : ℕ) : v.steps = n + 1 →
      (v.active = true → ∀ task, v.task = some task → task.cancelled = true) →
      Move v { v with steps := n }
  | take (v : JobLife) (n : ℕ) (task : JobTask) (instruction : PyStr) : v.steps = n + 1 →
      v.stage = JobStage.resting → v.active = true → v.task = some task →
      task.cancelled = false → task.steps[task.index]? = some instruction →
      Move v { v with
        steps := n
        stage := JobStage.before instruction (decide (task.index + 1 = task.steps.length)) }
  | run (v : JobLife) (instruction : PyStr) (final ok : Bool) :
      v.stage = JobStage.before instruction final →
      Move v { v with stage := JobStage.after final ok, ran := v.ran ++ [instruction] }
  | leave (v : JobLife) (task : JobTask) (final ok : Bool) : v.stage = JobStage.after final ok →
      v.task = some task → task.cancelled = true → Move v { v with stage := JobStage.resting }
  /-- The next step is submitted. -/
  | proceed (v : JobLife) (task : JobTask) : v.stage = JobStage.after false true →
      v.task = some task → task.cancelled = false →
      Move v { v with
        task := some { task with index := task.index + 1 }
        stage := JobStage.resting
        steps := v.steps + 1 }
  | strand (v : JobLife) (task : JobTask) (final ok : Bool) : v.stage = JobStage.after final ok →
      v.task = some task → task.cancelled = false →
      Move v { v with
        task := some { task with index := task.index + 1 }
        stage := JobStage.resting
        stranded := v.stranded + 1 }
  /-- The job is cancelled after a step. -/
  | retire (v : JobLife) (task : JobTask) (final ok undelivered : Bool) :
      v.stage = JobStage.after final ok → v.task = some task → task.cancelled = false →
      Move v { v with
        task := some { task with index := task.index + 1, cancelled := true, undelivered }
        stage := JobStage.resting
        clears := v.clears + 1 }
  | finish (v : JobLife) (task : JobTask) (final ok : Bool) (e : JobEnd) :
      v.stage = JobStage.after final ok → v.task = some task → task.cancelled = false →
      (ok && !final) = false → (e.state = JobState.completed → ok = true) →
      Move v { v with
        task := some { task with index := task.index + 1 }
        stage := JobStage.resting
        active := false
        ends := e :: v.ends }
  | abort (v : JobLife) (n : ℕ) : v.clears = n + 1 → v.stage = JobStage.resting →
      Move v { v with clears := n, stage := JobStage.aborting }
  | clear (v : JobLife) (e : JobEnd) : v.stage = JobStage.aborting →
      e.state ≠ JobState.completed →
      Move v { v with stage := JobStage.resting, active := false, ends := e :: v.ends }
  /-- The message about the end could not be sent. -/
  | note (v : JobLife) (task : JobTask) (undelivered : Bool) : v.task = some task →
      v.active = false → Move v { v with task := some { task with undelivered } }

/-- Some moves. -/
def Moves : JobLife → JobLife → Prop := Relation.ReflTransGen Move

/-- A job that does not exist. -/
structure Unborn (v : JobLife) : Prop where
  active : v.active = false
  steps : v.steps = 0
  clears : v.clears = 0
  stage : v.stage = JobStage.resting
  stranded : v.stranded = 0
  ran : v.ran = []
  ends : v.ends = []

/-- The instructions of a job that were run are the first ones of its list. -/
def Ran (v : JobLife) (task : JobTask) (n : ℕ) : Prop :=
  v.ran = task.steps.take n ∧ n ≤ task.steps.length

/-- How many instructions were run, as the stage tells it. -/
def Counts (v : JobLife) (task : JobTask) : JobStage → Prop
  | JobStage.before instruction final => v.Ran task task.index ∧
      task.steps[task.index]? = some instruction ∧
      final = decide (task.index + 1 = task.steps.length)
  | JobStage.after final _ => v.Ran task (task.index + 1) ∧
      final = decide (task.index + 1 = task.steps.length)
  | _ => v.Ran task task.index ∨ task.cancelled = true ∧ v.Ran task (task.index + 1)

/-- **The invariant of one job.** -/
structure Sound (v : JobLife) : Prop where
  unborn : v.task = none → v.Unborn
  /-- A job that goes on: exactly one step waits or is run, or the job is stranded. -/
  live : ∀ task, v.task = some task → v.active = true → task.cancelled = false →
    v.clears + v.stage.clearing = 0 ∧ v.steps + v.stage.stepping + v.stranded = 1 ∧
      task.undelivered = false ∧ (v.steps = 1 → task.index < task.steps.length)
  /-- A job that was cancelled: exactly one operation will clean up. -/
  dying : ∀ task, v.task = some task → v.active = true → task.cancelled = true →
    v.clears + v.stage.clearing = 1 ∧ v.steps + v.stage.stepping + v.stranded ≤ 1
  /-- A job that has ended. -/
  gone : ∀ task, v.task = some task → v.active = false →
    v.clears = 0 ∧ v.stage = JobStage.resting ∧ v.steps + v.stranded ≤ 1 ∧
      ∃ e, v.ends = [e] ∧ (e.state = JobState.completed → v.ran = task.steps)
  fresh : v.active = true → v.ends = []
  counts : ∀ task, v.task = some task → v.Counts task v.stage

variable {v v' : JobLife}

theorem Sound.counts_resting (h : v.Sound) {task : JobTask} (htask : v.task = some task)
    (hcancelled : task.cancelled = false) (hstage : v.stage = JobStage.resting) :
    v.Ran task task.index := by
  have := h.counts task htask
  rw [hstage] at this
  rcases this with h | ⟨h, -⟩
  · exact h
  · rw [hcancelled] at h
    cases h

/-- What was run of a job. -/
theorem Sound.ran (h : v.Sound) {task : JobTask} (htask : v.task = some task) :
    ∃ n, v.Ran task n := by
  have hcounts := h.counts task htask
  cases hstage : v.stage with
  | before instruction final =>
      rw [hstage] at hcounts
      exact ⟨_, hcounts.1⟩
  | after final ok =>
      rw [hstage] at hcounts
      exact ⟨_, hcounts.1⟩
  | resting =>
      rw [hstage] at hcounts
      rcases hcounts with hran | ⟨-, hran⟩
      · exact ⟨_, hran⟩
      · exact ⟨_, hran⟩
  | aborting =>
      rw [hstage] at hcounts
      rcases hcounts with hran | ⟨-, hran⟩
      · exact ⟨_, hran⟩
      · exact ⟨_, hran⟩

theorem Sound.active (h : v.Sound) {task : JobTask} (htask : v.task = some task)
    (hstage : v.stage ≠ JobStage.resting) : v.active = true := by
  cases hactive : v.active with
  | true => rfl
  | false => exact absurd (h.gone task htask hactive).2.1 hstage

/-- The instruction that is run is the next one of the list. -/
theorem Ran.append {task : JobTask} {n : ℕ} {instruction : PyStr} (h : v.Ran task n)
    (hnext : task.steps[n]? = some instruction) :
    v.ran ++ [instruction] = task.steps.take (n + 1) ∧ n + 1 ≤ task.steps.length := by
  obtain ⟨hlt, hget⟩ := List.getElem?_eq_some_iff.1 hnext
  refine ⟨?_, hlt⟩
  rw [h.1, ← hget]
  exact List.take_append_getElem hlt

/-- All instructions were run. -/
theorem Ran.complete {task : JobTask} {n : ℕ} (h : v.Ran task n)
    (hn : n = task.steps.length) : v.ran = task.steps := by
  rw [h.1, hn, List.take_length]

/-- A job that goes on. -/
theorem Sound.of_live {task : JobTask} (htask : v.task = some task) (hactive : v.active = true)
    (hcancelled : task.cancelled = false) (hclears : v.clears + v.stage.clearing = 0)
    (hone : v.steps + v.stage.stepping + v.stranded = 1) (hdelivered : task.undelivered = false)
    (hnext : v.steps = 1 → task.index < task.steps.length) (hends : v.ends = [])
    (hcounts : v.Counts task v.stage) : v.Sound where
  unborn := by
    intro hnone
    rw [htask] at hnone
    cases hnone
  live := by
    intro task' htask' _ _
    obtain rfl : task = task' := Option.some.inj (htask.symm.trans htask')
    exact ⟨hclears, hone, hdelivered, hnext⟩
  dying := by
    intro task' htask' _ h
    obtain rfl : task = task' := Option.some.inj (htask.symm.trans htask')
    rw [hcancelled] at h
    cases h
  gone := by
    intro task' _ h
    rw [hactive] at h
    cases h
  fresh := fun _ => hends
  counts := by
    intro task' htask'
    obtain rfl : task = task' := Option.some.inj (htask.symm.trans htask')
    exact hcounts

/-- A job that was cancelled. -/
theorem Sound.of_dying {task : JobTask} (htask : v.task = some task) (hactive : v.active = true)
    (hcancelled : task.cancelled = true) (hclears : v.clears + v.stage.clearing = 1)
    (hone : v.steps + v.stage.stepping + v.stranded ≤ 1) (hends : v.ends = [])
    (hcounts : v.Counts task v.stage) : v.Sound where
  unborn := by
    intro hnone
    rw [htask] at hnone
    cases hnone
  live := by
    intro task' htask' _ h
    obtain rfl : task = task' := Option.some.inj (htask.symm.trans htask')
    rw [hcancelled] at h
    cases h
  dying := fun _ _ _ _ => ⟨hclears, hone⟩
  gone := by
    intro task' _ h
    rw [hactive] at h
    cases h
  fresh := fun _ => hends
  counts := by
    intro task' htask'
    obtain rfl : task = task' := Option.some.inj (htask.symm.trans htask')
    exact hcounts

/-- A job that has ended. -/
theorem Sound.of_gone {task : JobTask} (htask : v.task = some task) (hactive : v.active = false)
    (hclears : v.clears = 0) (hstage : v.stage = JobStage.resting)
    (hone : v.steps + v.stranded ≤ 1) {e : JobEnd} (hends : v.ends = [e])
    (hcompleted : e.state = JobState.completed → v.ran = task.steps)
    (hcounts : v.Counts task v.stage) : v.Sound where
  unborn := by
    intro hnone
    rw [htask] at hnone
    cases hnone
  live := by
    intro task' _ h
    rw [hactive] at h
    cases h
  dying := by
    intro task' _ h
    rw [hactive] at h
    cases h
  gone := by
    intro task' htask' _
    obtain rfl : task = task' := Option.some.inj (htask.symm.trans htask')
    exact ⟨hclears, hstage, hone, e, hends, hcompleted⟩
  fresh := by
    intro h
    rw [hactive] at h
    cases h
  counts := by
    intro task' htask'
    obtain rfl : task = task' := Option.some.inj (htask.symm.trans htask')
    exact hcounts

/-- A job at which the thread is has been accepted. -/
theorem Sound.exists_task (h : v.Sound) (hstage : v.stage ≠ JobStage.resting) :
    ∃ task, v.task = some task := by
  cases htask : v.task with
  | some task => exact ⟨task, rfl⟩
  | none => exact absurd (h.unborn htask).stage hstage

/-- The thread is at a job that goes on. -/
theorem Sound.live_at {stage : JobStage} (h : v.Sound) (hstage : v.stage = stage)
    (hne : stage ≠ JobStage.resting) {task : JobTask} (htask : v.task = some task)
    (hcancelled : task.cancelled = false) :
    v.active = true ∧ v.clears + stage.clearing = 0 ∧ v.steps + stage.stepping + v.stranded = 1 ∧
      task.undelivered = false ∧ v.Counts task stage := by
  subst hstage
  have hactive := h.active htask hne
  obtain ⟨hclears, hone, hdelivered, -⟩ := h.live task htask hactive hcancelled
  exact ⟨hactive, hclears, hone, hdelivered, h.counts task htask⟩

/-- The thread is at a job that was cancelled. -/
theorem Sound.dying_at {stage : JobStage} (h : v.Sound) (hstage : v.stage = stage)
    (hne : stage ≠ JobStage.resting) {task : JobTask} (htask : v.task = some task)
    (hcancelled : task.cancelled = true) :
    v.active = true ∧ v.clears + stage.clearing = 1 ∧ v.steps + stage.stepping + v.stranded ≤ 1 ∧
      v.Counts task stage := by
  subst hstage
  have hactive := h.active htask hne
  obtain ⟨hclears, hone⟩ := h.dying task htask hactive hcancelled
  exact ⟨hactive, hclears, hone, h.counts task htask⟩

/-- A new job is sound. -/
theorem Sound.accept (hv : v.Sound) (hnone : v.task = none) {task : JobTask} (htask : task.New) :
    (v.accept task).Sound := by
  obtain ⟨-, hsteps, hclears, hstage, hstranded, hran, hends⟩ := hv.unborn hnone
  refine Sound.of_live rfl rfl htask.cancelled ?_ ?_ htask.undelivered ?_ hends ?_
  · show v.clears + v.stage.clearing = 0
    rw [hclears, hstage]
    rfl
  · show v.steps + 1 + v.stage.stepping + v.stranded = 1
    rw [hsteps, hstage, hstranded]
    rfl
  · intro _
    rw [htask.index]
    exact htask.length
  · show Counts _ task v.stage
    rw [hstage]
    refine Or.inl ⟨?_, ?_⟩
    · show v.ran = _
      rw [hran, htask.index, List.take_zero]
    · rw [htask.index]
      exact Nat.zero_le _

/-- A job that goes on is cancelled. -/
theorem Sound.cancel (hv : v.Sound) {task : JobTask} (undelivered : Bool)
    (htask : v.task = some task) (hactive : v.active = true) (hcancelled : task.cancelled = false) :
    Sound { v with
      task := some { task with cancelled := true, undelivered }
      clears := v.clears + 1 } := by
  obtain ⟨hclears, hone, -, -⟩ := hv.live task htask hactive hcancelled
  refine Sound.of_dying rfl hactive rfl ?_ (le_of_eq hone) (hv.fresh hactive) ?_
  · show v.clears + 1 + v.stage.clearing = 1
    omega
  · have hcounts := hv.counts task htask
    cases hstage : v.stage with
    | before instruction final =>
        rw [hstage] at hcounts
        exact hcounts
    | after final ok =>
        rw [hstage] at hcounts
        exact hcounts
    | resting =>
        have hran : v.Ran task task.index := hv.counts_resting htask hcancelled hstage
        exact Or.inl hran
    | aborting =>
        rw [hstage] at hclears
        exact absurd hclears (Nat.succ_ne_zero _)

/-- A step that waits is dropped: the job is gone or cancelled, and its invariant asks for at most
one step. -/
theorem Sound.drop (hv : v.Sound) {n : ℕ} (hsteps : v.steps = n + 1)
    (hidle : v.active = true → ∀ task, v.task = some task → task.cancelled = true) :
    Sound { v with steps := n } := by
  refine ⟨?_, ?_, ?_, ?_, hv.fresh, hv.counts⟩
  · intro hnone
    have := (hv.unborn hnone).steps
    omega
  · intro task htask hactive hcancelled
    rw [hidle hactive task htask] at hcancelled
    cases hcancelled
  · intro task htask hactive hcancelled
    have := hv.dying task htask hactive hcancelled
    dsimp only
    omega
  · intro task htask hactive
    obtain ⟨hclears, hstage, hle, hends⟩ := hv.gone task htask hactive
    exact ⟨hclears, hstage, by dsimp only; omega, hends⟩

/-- The thread takes up the next step. -/
theorem Sound.take (hv : v.Sound) {n : ℕ} {task : JobTask} {instruction : PyStr}
    (hsteps : v.steps = n + 1) (hstage : v.stage = JobStage.resting) (hactive : v.active = true)
    (htask : v.task = some task) (hcancelled : task.cancelled = false)
    (hnext : task.steps[task.index]? = some instruction) :
    Sound { v with
      steps := n
      stage := JobStage.before instruction (decide (task.index + 1 = task.steps.length)) } := by
  obtain ⟨hclears, hone, hdelivered, -⟩ := hv.live task htask hactive hcancelled
  have hran := hv.counts_resting htask hcancelled hstage
  rw [hstage] at hclears hone
  dsimp only [JobStage.stepping] at hone
  refine Sound.of_live htask hactive hcancelled hclears ?_ hdelivered ?_ (hv.fresh hactive)
    ⟨hran, hnext, rfl⟩
  · dsimp only [JobStage.stepping]
    omega
  · dsimp only
    omega

/-- The step is run; the job may have been cancelled after it was taken up. -/
theorem Sound.run (hv : v.Sound) {instruction : PyStr} {final : Bool} (ok : Bool)
    (hstage : v.stage = JobStage.before instruction final) :
    Sound { v with stage := JobStage.after final ok, ran := v.ran ++ [instruction] } := by
  obtain ⟨task, htask⟩ := hv.exists_task (by rw [hstage]; exact nofun)
  cases hcancelled : task.cancelled with
  | false =>
      obtain ⟨hactive, hclears, hone, hdelivered, hran, hnext, hfinal⟩ :=
        hv.live_at hstage nofun htask hcancelled
      refine Sound.of_live htask hactive hcancelled hclears hone hdelivered ?_
        (hv.fresh hactive) ⟨hran.append hnext, hfinal⟩
      dsimp only [JobStage.stepping] at *
      omega
  | true =>
      obtain ⟨hactive, hclears, hone, hran, hnext, hfinal⟩ :=
        hv.dying_at hstage nofun htask hcancelled
      exact Sound.of_dying htask hactive hcancelled hclears hone (hv.fresh hactive)
        ⟨hran.append hnext, hfinal⟩

/-- The thread leaves a job that was cancelled while its step ran. -/
theorem Sound.leave (hv : v.Sound) {task : JobTask} {final ok : Bool}
    (hstage : v.stage = JobStage.after final ok) (htask : v.task = some task)
    (hcancelled : task.cancelled = true) : Sound { v with stage := JobStage.resting } := by
  obtain ⟨hactive, hclears, hone, hran, -⟩ := hv.dying_at hstage nofun htask hcancelled
  refine Sound.of_dying htask hactive hcancelled hclears ?_ (hv.fresh hactive)
    (Or.inr ⟨hcancelled, hran⟩)
  dsimp only [JobStage.stepping] at *
  omega

theorem Sound.proceed (hv : v.Sound) {task : JobTask} (hstage : v.stage = JobStage.after false true)
    (htask : v.task = some task) (hcancelled : task.cancelled = false) :
    Sound { v with
      task := some { task with index := task.index + 1 }
      stage := JobStage.resting
      steps := v.steps + 1 } := by
  obtain ⟨hactive, hclears, hone, hdelivered, hran, hfinal⟩ :=
    hv.live_at hstage nofun htask hcancelled
  have hmore := of_decide_eq_false hfinal.symm
  have hle := hran.2
  dsimp only [JobStage.stepping] at hone
  refine Sound.of_live rfl hactive hcancelled hclears ?_ hdelivered ?_ (hv.fresh hactive)
    (Or.inl hran)
  · dsimp only [JobStage.stepping]
    omega
  · dsimp only
    omega

theorem Sound.strand (hv : v.Sound) {task : JobTask} {final ok : Bool}
    (hstage : v.stage = JobStage.after final ok) (htask : v.task = some task)
    (hcancelled : task.cancelled = false) :
    Sound { v with
      task := some { task with index := task.index + 1 }
      stage := JobStage.resting
      stranded := v.stranded + 1 } := by
  obtain ⟨hactive, hclears, hone, hdelivered, hran, -⟩ :=
    hv.live_at hstage nofun htask hcancelled
  dsimp only [JobStage.stepping] at hone
  refine Sound.of_live rfl hactive hcancelled hclears ?_ hdelivered ?_ (hv.fresh hactive)
    (Or.inl hran)
  · dsimp only [JobStage.stepping]
    omega
  · dsimp only
    omega

theorem Sound.retire (hv : v.Sound) {task : JobTask} {final ok : Bool} (undelivered : Bool)
    (hstage : v.stage = JobStage.after final ok) (htask : v.task = some task)
    (hcancelled : task.cancelled = false) :
    Sound { v with
      task := some { task with index := task.index + 1, cancelled := true, undelivered }
      stage := JobStage.resting
      clears := v.clears + 1 } := by
  obtain ⟨hactive, hclears, hone, -, hran, -⟩ := hv.live_at hstage nofun htask hcancelled
  dsimp only [JobStage.stepping, JobStage.clearing] at hone hclears
  refine Sound.of_dying rfl hactive rfl ?_ ?_ (hv.fresh hactive) (Or.inl hran)
  · dsimp only [JobStage.clearing]
    omega
  · dsimp only [JobStage.stepping]
    omega

/-- A job that ends without being cancelled; it is only completed after its last step. -/
theorem Sound.finish (hv : v.Sound) {task : JobTask} {final ok : Bool} {e : JobEnd}
    (hstage : v.stage = JobStage.after final ok) (htask : v.task = some task)
    (hcancelled : task.cancelled = false) (hover : (ok && !final) = false)
    (hcompleted : e.state = JobState.completed → ok = true) :
    Sound { v with
      task := some { task with index := task.index + 1 }
      stage := JobStage.resting
      active := false
      ends := e :: v.ends } := by
  obtain ⟨hactive, hclears, hone, -, hran, hfinal⟩ :=
    hv.live_at hstage nofun htask hcancelled
  dsimp only [JobStage.stepping] at hone
  refine Sound.of_gone rfl rfl hclears rfl ?_ (by rw [hv.fresh hactive]) (fun h => ?_)
    (Or.inl hran)
  · dsimp only
    omega
  · rw [hcompleted h, Bool.true_and, Bool.not_eq_false'] at hover
    rw [hover] at hfinal
    exact hran.complete (of_decide_eq_true hfinal.symm)

/-- The operation that cleans up begins: only a job that was cancelled has one. -/
theorem Sound.abort (hv : v.Sound) {n : ℕ} (hclears : v.clears = n + 1)
    (hstage : v.stage = JobStage.resting) :
    Sound { v with clears := n, stage := JobStage.aborting } := by
  refine ⟨?_, ?_, ?_, ?_, hv.fresh, ?_⟩
  · intro hnone
    have := (hv.unborn hnone).clears
    omega
  · intro task htask hactive hcancelled
    have := (hv.live task htask hactive hcancelled).1
    omega
  · intro task htask hactive hcancelled
    have := hv.dying task htask hactive hcancelled
    rw [hstage] at this
    dsimp only [JobStage.stepping, JobStage.clearing] at *
    omega
  · intro task htask hactive
    have := (hv.gone task htask hactive).1
    omega
  · intro task htask
    have hcounts := hv.counts task htask
    rw [hstage] at hcounts
    exact hcounts

theorem Sound.clear (hv : v.Sound) {e : JobEnd} (hstage : v.stage = JobStage.aborting)
    (hstate : e.state ≠ JobState.completed) :
    Sound { v with stage := JobStage.resting, active := false, ends := e :: v.ends } := by
  obtain ⟨task, htask⟩ := hv.exists_task (by rw [hstage]; exact nofun)
  cases hcancelled : task.cancelled with
  | false =>
      obtain ⟨-, hclears, -⟩ := hv.live_at hstage nofun htask hcancelled
      exact absurd hclears (Nat.succ_ne_zero _)
  | true =>
      obtain ⟨hactive, hclears, hone, hcounts⟩ := hv.dying_at hstage nofun htask hcancelled
      refine Sound.of_gone htask rfl ?_ rfl hone (by rw [hv.fresh hactive])
        (fun h => absurd h hstate) hcounts
      exact Nat.succ.inj hclears

theorem Sound.note (hv : v.Sound) {task : JobTask} (undelivered : Bool)
    (htask : v.task = some task) (hactive : v.active = false) :
    Sound { v with task := some { task with undelivered } } := by
  obtain ⟨hclears, hstage, hle, e, hends, hcompleted⟩ := hv.gone task htask hactive
  have hcounts := hv.counts task htask
  refine Sound.of_gone rfl hactive hclears hstage hle hends hcompleted ?_
  rw [hstage] at hcounts
  show Counts _ _ v.stage
  rw [hstage]
  exact hcounts

/-- **Every move keeps the invariant.** -/
theorem Move.sound (h : Move v v') (hv : v.Sound) : v'.Sound := by
  cases h with
  | cancel task undelivered htask hactive hcancelled =>
      exact hv.cancel undelivered htask hactive hcancelled
  | drop n hsteps hidle => exact hv.drop hsteps hidle
  | take n task instruction hsteps hstage hactive htask hcancelled hnext =>
      exact hv.take hsteps hstage hactive htask hcancelled hnext
  | run instruction final ok hstage => exact hv.run ok hstage
  | leave task final ok hstage htask hcancelled => exact hv.leave hstage htask hcancelled
  | proceed task hstage htask hcancelled => exact hv.proceed hstage htask hcancelled
  | strand task final ok hstage htask hcancelled => exact hv.strand hstage htask hcancelled
  | retire task final ok undelivered hstage htask hcancelled =>
      exact hv.retire undelivered hstage htask hcancelled
  | finish task final ok e hstage htask hcancelled hover hcompleted =>
      exact hv.finish hstage htask hcancelled hover hcompleted
  | abort n hclears hstage => exact hv.abort hclears hstage
  | clear e hstage hstate => exact hv.clear hstage hstate
  | note task undelivered htask hactive => exact hv.note undelivered htask hactive

theorem Moves.sound (h : Moves v v') (hv : v.Sound) : v'.Sound := by
  induction h with
  | refl => exact hv
  | tail _ hmove ih => exact hmove.sound ih

/-- A move keeps the agent, and does not bring a job back. -/
theorem Move.keeps (h : Move v v') :
    v'.task.map JobTask.agentId = v.task.map JobTask.agentId ∧
      (v'.active = true → v.active = true) := by
  cases h with
  | cancel task undelivered htask =>
      exact ⟨by rw [htask]; rfl, id⟩
  | proceed task hstage htask => exact ⟨by rw [htask]; rfl, id⟩
  | strand task final ok hstage htask => exact ⟨by rw [htask]; rfl, id⟩
  | retire task final ok undelivered hstage htask => exact ⟨by rw [htask]; rfl, id⟩
  | finish task final ok e hstage htask => exact ⟨by rw [htask]; rfl, nofun⟩
  | clear e hstage hstate => exact ⟨rfl, nofun⟩
  | note task undelivered htask => exact ⟨by rw [htask]; rfl, id⟩
  | drop n hsteps => exact ⟨rfl, id⟩
  | take n task instruction hsteps => exact ⟨rfl, id⟩
  | run instruction final ok hstage => exact ⟨rfl, id⟩
  | leave task final ok hstage => exact ⟨rfl, id⟩
  | abort n hclears hstage => exact ⟨rfl, id⟩

theorem Moves.keeps (h : Moves v v') :
    v'.task.map JobTask.agentId = v.task.map JobTask.agentId ∧
      (v'.active = true → v.active = true) := by
  induction h with
  | refl => exact ⟨rfl, id⟩
  | tail _ hmove ih =>
      obtain ⟨hagent, hactive⟩ := hmove.keeps
      exact ⟨hagent.trans ih.1, fun h => ih.2 (hactive h)⟩

/-- A job that does not exist is sound. -/
theorem Unborn.sound (h : v.Unborn) (hnone : v.task = none) : v.Sound := by
  refine ⟨fun _ => h, ?_, ?_, ?_, fun _ => h.ends, ?_⟩
  · intro task htask
    rw [hnone] at htask
    cases htask
  · intro task htask
    rw [hnone] at htask
    cases htask
  · intro task htask
    rw [hnone] at htask
    cases htask
  · intro task htask
    rw [hnone] at htask
    cases htask

end JobLife

/-! ### What a state says about a job -/

/-- The part of a job that its life depends on. -/
def BackgroundJob.task (job : BackgroundJob) : JobTask where
  agentId := job.agentId
  steps := job.steps
  index := job.index
  cancelled := job.cancelled
  undelivered := job.deliveryFailed

/-- What the thread does for a job. -/
def CorePoint.stage (jobId : PyStr) : CorePoint → JobStage
  | slice id _ instruction final =>
      if id = jobId then JobStage.before instruction final else JobStage.resting
  | sliced id final ok _ => if id = jobId then JobStage.after final ok else JobStage.resting
  | aborted id _ _ => if id = jobId then JobStage.aborting else JobStage.resting
  | _ => JobStage.resting

/-- The operation runs a step of the job. -/
def CoreOperation.stepsOf (jobId : PyStr) : CoreOperation → Bool
  | backgroundStep id => decide (id = jobId)
  | _ => false

/-- The operation cleans up after the job. -/
def CoreOperation.clearsOf (jobId : PyStr) : CoreOperation → Bool
  | clearContext _ id => decide (id = jobId)
  | clearTimedOut _ id => decide (id = jobId)
  | _ => false

/-- The thread works for no job. -/
structure CorePoint.Off (p : CorePoint) : Prop where
  entered : p.entered? = none
  stage : ∀ jobId, p.stage jobId = JobStage.resting

namespace NativeCore

open JobLife (Move Moves)

variable {s s' s'' : NativeCore} {env : CoreEnv} {jobId id : PyStr} {operation : CoreOperation}

/-- The operations that have not begun. -/
def work (s : NativeCore) : List CoreOperation :=
  s.point.entered?.toList ++ s.scheduler.queue.map Operation.callback

/-- What a state says about a job. -/
def life (s : NativeCore) (jobId : PyStr) : JobLife where
  task := (s.jobs.get? jobId).map BackgroundJob.task
  active := decide (jobId ∈ s.backgrounds)
  steps := s.work.countP (CoreOperation.stepsOf jobId)
  clears := s.work.countP (CoreOperation.clearsOf jobId)
  stage := s.point.stage jobId
  stranded := s.history.stranded.count jobId
  ran := (s.history.slices.reverse.filter fun e => decide (e.1 = jobId)).map Prod.snd
  ends := s.history.ended.filter fun e => decide (e.jobId = jobId)

/-- The jobs and what is recorded of them stay. -/
structure Plain (s s' : NativeCore) : Prop where
  jobs : s'.jobs = s.jobs
  backgrounds : s'.backgrounds = s.backgrounds
  queue : s'.scheduler.queue = s.scheduler.queue
  slices : s'.history.slices = s.history.slices
  ended : s'.history.ended = s.history.ended
  stranded : s'.history.stranded = s.history.stranded

theorem Plain.refl : Plain s s := ⟨rfl, rfl, rfl, rfl, rfl, rfl⟩

theorem Plain.trans (h : Plain s s') (h' : Plain s' s'') : Plain s s'' :=
  ⟨h'.jobs.trans h.jobs, h'.backgrounds.trans h.backgrounds, h'.queue.trans h.queue,
    h'.slices.trans h.slices, h'.ended.trans h.ended, h'.stranded.trans h.stranded⟩

theorem Plain.life (h : Plain s s') (jobId : PyStr) : s'.life jobId = { s.life jobId with
    steps := s'.work.countP (CoreOperation.stepsOf jobId)
    clears := s'.work.countP (CoreOperation.clearsOf jobId)
    stage := s'.point.stage jobId } := by
  unfold NativeCore.life
  rw [h.jobs, h.backgrounds, h.slices, h.ended, h.stranded]

theorem work_of_off (h : s.point.entered? = none) :
    s.work = s.scheduler.queue.map Operation.callback := by
  unfold work
  rw [h]
  rfl

/-- The thread works for no job, before and after. -/
theorem Plain.off (h : Plain s s') (hp : s.point.Off) (hp' : s'.point.Off) (jobId : PyStr) :
    s'.life jobId = s.life jobId := by
  have hwork : s'.work = s.work := by
    rw [work_of_off hp.entered, work_of_off hp'.entered, h.queue]
  rw [h.life, hwork, hp'.stage jobId, ← hp.stage jobId]
  rfl

/-- The thread leaves a job, or none. -/
theorem Plain.rested (h : Plain s s') (hp : s.point.entered? = none) (hp' : s'.point.Off)
    (jobId : PyStr) : s'.life jobId = { s.life jobId with stage := JobStage.resting } := by
  have hwork : s'.work = s.work := by
    rw [work_of_off hp, work_of_off hp'.entered, h.queue]
  rw [h.life, hwork, hp'.stage jobId]
  rfl

theorem work_of_entered (h : s.point = CorePoint.entered operation) :
    s.work = operation :: s.scheduler.queue.map Operation.callback := by
  unfold work
  rw [h]
  rfl

/-- An operation is put at the end of the queue. -/
theorem work_append {n : ℕ} {kind : OperationKind}
    (hqueue : s'.scheduler.queue =
      s.scheduler.queue ++ [{ sequence := n, kind, callback := operation }])
    (hpoint : s'.point = s.point) : s'.work = s.work ++ [operation] := by
  unfold work
  rw [hpoint, hqueue, List.map_append, List.append_assoc]
  rfl

theorem off_idle : CorePoint.idle.Off := ⟨rfl, fun _ => rfl⟩

theorem plain_done : Plain s s.done := ⟨rfl, rfl, rfl, rfl, rfl, rfl⟩

theorem plain_goto (point : CorePoint) : Plain s (s.goto point) := ⟨rfl, rfl, rfl, rfl, rfl, rfl⟩

theorem plain_runAgent (env : CoreEnv) (agentId task : PyStr) :
    Plain s (s.runAgent env agentId task).2 := by
  unfold runAgent
  cases s.agents.get? agentId with
  | none => exact Plain.refl
  | some r =>
      dsimp only
      split_ifs
      · exact ⟨rfl, rfl, rfl, rfl, rfl, rfl⟩
      · exact ⟨rfl, rfl, rfl, rfl, rfl, rfl⟩

theorem plain_runSlice (env : CoreEnv) (jobId agentId instruction : PyStr) (final : Bool) :
    Plain s (s.runSlice env jobId agentId instruction final).2 := by
  unfold runSlice
  cases s.agents.get? agentId with
  | none => exact Plain.refl
  | some r =>
      dsimp only
      split_ifs
      · exact ⟨rfl, rfl, rfl, rfl, rfl, rfl⟩
      · exact ⟨rfl, rfl, rfl, rfl, rfl, rfl⟩

theorem plain_abortSlices (env : CoreEnv) (agentId : PyStr) :
    Plain s (s.abortSlices env agentId).2 := by
  unfold abortSlices
  cases s.agents.get? agentId with
  | none => exact Plain.refl
  | some r => exact ⟨rfl, rfl, rfl, rfl, rfl, rfl⟩

/-- A job is changed. -/
theorem life_modifyJob (f : BackgroundJob → BackgroundJob) (jobId : PyStr) :
    (s.modifyJob id f).life jobId =
      if id = jobId then
        { s.life jobId with task := (s.jobs.get? jobId).map fun job => (f job).task }
      else s.life jobId := by
  by_cases hid : id = jobId
  · subst hid
    rw [if_pos rfl]
    unfold life modifyJob
    rw [PyDict.get?_modify_self, Option.map_map]
    rfl
  · rw [if_neg hid]
    unfold life modifyJob
    rw [PyDict.get?_modify_of_ne _ _ hid]
    rfl

/-- An operation that the bound of the queue does not concern is submitted. -/
theorem life_submit (hrunning : s.scheduler.stopping = false) {kind : OperationKind}
    {continuation : Bool} (hforced : kind = OperationKind.control ∨ continuation = true)
    (jobId : PyStr) : (s.submit kind operation continuation).life jobId = { s.life jobId with
      steps := (s.life jobId).steps + if operation.stepsOf jobId then 1 else 0
      clears := (s.life jobId).clears + if operation.clearsOf jobId then 1 else 0 } := by
  rcases PriorityScheduler.submit_cases s.scheduler kind operation continuation with
    ⟨e, -, hrefused⟩ | ⟨-, -, hsubmit⟩
  · rcases hrefused with hstopping | ⟨hkind, hcontinuation, -⟩
    · rw [hrunning] at hstopping
      cases hstopping
    · rcases hforced with hforced | hforced
      · exact absurd hforced hkind
      · rw [hforced] at hcontinuation
        cases hcontinuation
  · have hqueue : (s.submit kind operation continuation).scheduler.queue = s.scheduler.queue ++
        [{ sequence := s.scheduler.sequence + 1, kind, callback := operation }] := by
      unfold submit
      rw [hsubmit]
    unfold life
    rw [work_append hqueue rfl, List.countP_append, List.countP_append, List.countP_singleton,
      List.countP_singleton]
    rfl

/-! ### Every step is some moves of each job -/

/-- Some moves of each job; no job becomes active again. -/
structure Evolves (s s' : NativeCore) : Prop where
  moves : ∀ jobId, Moves (s.life jobId) (s'.life jobId)
  backgrounds : s'.backgrounds.Sublist s.backgrounds

theorem Evolves.refl : Evolves s s :=
  ⟨fun _ => Relation.ReflTransGen.refl, List.Sublist.refl _⟩

theorem Evolves.trans (h : Evolves s s') (h' : Evolves s' s'') : Evolves s s'' :=
  ⟨fun jobId => (h.moves jobId).trans (h'.moves jobId), h'.backgrounds.trans h.backgrounds⟩

/-- At most one job moves. -/
theorem Evolves.of_one (id : PyStr) (hmove : Move (s.life id) (s'.life id))
    (hother : ∀ jobId, id ≠ jobId → s'.life jobId = s.life jobId)
    (hbackgrounds : s'.backgrounds.Sublist s.backgrounds) : Evolves s s' := by
  refine ⟨fun jobId => ?_, hbackgrounds⟩
  by_cases hid : id = jobId
  · subst hid
    exact Relation.ReflTransGen.single hmove
  · rw [hother jobId hid]
    exact Relation.ReflTransGen.refl

theorem Evolves.of_eq (h : ∀ jobId, s'.life jobId = s.life jobId)
    (hbackgrounds : s'.backgrounds.Sublist s.backgrounds) : Evolves s s' := by
  refine ⟨fun jobId => ?_, hbackgrounds⟩
  rw [h jobId]
  exact Relation.ReflTransGen.refl

/-- The thread works for no job. -/
theorem Plain.evolves (h : Plain s s') (hp : s.point.Off) (hp' : s'.point.Off) : Evolves s s' :=
  Evolves.of_eq (h.off hp hp') (by rw [h.backgrounds])

theorem activeJob_eq_some {job : BackgroundJob} (h : s.activeJob id = some job) :
    id ∈ s.backgrounds ∧ s.jobs.get? id = some job := by
  unfold activeJob at h
  split_ifs at h with hmem
  exact ⟨hmem, h⟩

theorem activeJob_of_mem (h : id ∈ s.backgrounds) : s.activeJob id = s.jobs.get? id := by
  unfold activeJob
  rw [if_pos h]

/-- The operation cleans up after the one job, and does nothing for another one. -/
def Cleans (id : PyStr) (operation : CoreOperation) : Prop :=
  ∀ jobId, operation.stepsOf jobId = false ∧ operation.clearsOf jobId = decide (id = jobId)

theorem cleans_clearContext (agentId id : PyStr) :
    Cleans id (CoreOperation.clearContext agentId id) := fun _ => ⟨rfl, rfl⟩

theorem cleans_clearTimedOut (agentId id : PyStr) :
    Cleans id (CoreOperation.clearTimedOut agentId id) := fun _ => ⟨rfl, rfl⟩

/-- **A job is marked.** -/
theorem life_mark (hrunning : s.scheduler.stopping = false) (hoperation : Cleans id operation)
    (jobId : PyStr) : (s.mark id operation).life jobId =
      if id = jobId then
        { s.life jobId with
          task := (s.jobs.get? jobId).map fun job => { job.task with cancelled := true }
          clears := (s.life jobId).clears + 1 }
      else s.life jobId := by
  unfold mark
  obtain ⟨s₁, hs₁⟩ : ∃ s₁, s₁ = s.modifyJob id fun job =>
      { job with cancelled := true, state := JobState.cancelling } := ⟨_, rfl⟩
  have hrunning₁ : s₁.scheduler.stopping = false := by
    rw [hs₁]
    exact hrunning
  rw [← hs₁, life_submit hrunning₁ (Or.inl rfl), hs₁, life_modifyJob, (hoperation jobId).1,
    (hoperation jobId).2]
  by_cases hid : id = jobId
  · rw [if_pos hid, if_pos hid, decide_eq_true hid]
    rfl
  · rw [if_neg hid, if_neg hid, decide_eq_false hid]
    rfl

theorem evolves_mark (hrunning : s.scheduler.stopping = false) (hoperation : Cleans id operation)
    {job : BackgroundJob} (hmem : id ∈ s.backgrounds) (hjob : s.jobs.get? id = some job)
    (hcancelled : job.cancelled = false) : Evolves s (s.mark id operation) := by
  refine Evolves.of_one id ?_ ?_ (List.Sublist.refl _)
  · rw [life_mark hrunning hoperation, if_pos rfl, hjob]
    refine Move.cancel (s.life id) job.task job.deliveryFailed ?_ (decide_eq_true hmem) hcancelled
    unfold life
    rw [hjob]
    rfl
  · intro jobId hid
    rw [life_mark hrunning hoperation, if_neg hid]

theorem evolves_cancelOne (hrunning : s.scheduler.stopping = false) (client : ℕ) (id : PyStr) :
    Evolves s (s.cancelOne client id) := by
  unfold cancelOne
  cases hactive : s.activeJob id with
  | none => exact Evolves.refl
  | some job =>
      obtain ⟨hmem, hjob⟩ := activeJob_eq_some hactive
      dsimp only
      split_ifs with hskip
      · exact Evolves.refl
      · push Not at hskip
        exact evolves_mark hrunning (cleans_clearContext _ _) hmem hjob
          (Bool.eq_false_of_not_eq_true hskip.2)

theorem evolves_cancelBackgrounds (hrunning : s.scheduler.stopping = false) (client : ℕ)
    (jobId : Option PyStr) : Evolves s (s.cancelBackgrounds client jobId) := by
  unfold cancelBackgrounds
  generalize s.backgrounds.filter _ = l
  induction l generalizing s with
  | nil => exact Evolves.refl
  | cons id l ih =>
      have hstopping := (aside_cancelOne (s := s) client id).stopping
      exact (evolves_cancelOne hrunning client id).trans (ih (hstopping.trans hrunning))

/-- One job is cancelled. -/
theorem cancelBackgrounds_some (hnodup : s.backgrounds.Nodup) (client : ℕ) (id : PyStr) :
    s.cancelBackgrounds client (some id) =
      if id ∈ s.backgrounds then s.cancelOne client id else s := by
  have hfilter : (s.backgrounds.filter fun other =>
      decide (some id = none ∨ some id = some other)) =
        if id ∈ s.backgrounds then [id] else [] := by
    have hsame : ∀ other, decide (some id = none ∨ some id = some other) = decide (other = id) := by
      intro other
      refine decide_eq_decide.2 ⟨fun h => ?_, fun h => Or.inr (by rw [h])⟩
      exact (Option.some.inj (h.resolve_left (Option.some_ne_none _))).symm
    simp only [hsame]
    split_ifs with hmem
    · rw [List.filter_eq, List.count_eq_one_of_mem hnodup hmem]
      rfl
    · exact List.filter_eq_nil_iff.2 fun other hother h => hmem (of_decide_eq_true h ▸ hother)
  unfold cancelBackgrounds
  rw [hfilter]
  split_ifs
  · rfl
  · rfl

/-- An active job is cancelled by its own client. -/
theorem cancelBackgrounds_own (hnodup : s.backgrounds.Nodup) {job : BackgroundJob}
    (hmem : id ∈ s.backgrounds) (hjob : s.jobs.get? id = some job)
    (hcancelled : job.cancelled = false) : s.cancelBackgrounds job.client (some id) =
      s.mark id (CoreOperation.clearContext job.agentId id) := by
  have hown : ¬(job.client ≠ job.client ∨ job.cancelled = true) := by
    rw [hcancelled]
    exact not_or.2 ⟨fun h => h rfl, Bool.false_ne_true⟩
  rw [cancelBackgrounds_some hnodup, if_pos hmem]
  unfold cancelOne
  rw [activeJob_of_mem hmem, hjob]
  dsimp only
  rw [if_neg hown]

/-! #### The steps of a job -/

/-- A step waits in the hands of the thread. -/
theorem life_entered_step (h : s.point = CorePoint.entered (CoreOperation.backgroundStep id)) :
    (s.life id).steps = (s.scheduler.queue.map Operation.callback).countP
      (CoreOperation.stepsOf id) + 1 := by
  unfold life
  rw [work_of_entered h]
  exact List.countP_cons_of_pos (decide_eq_true rfl)

/-- The step leaves the hands of the thread. -/
theorem life_take (h : Plain s s')
    (hpoint : s.point = CorePoint.entered (CoreOperation.backgroundStep id))
    (hnone : s'.point.entered? = none) (jobId : PyStr) : s'.life jobId = { s.life jobId with
      steps := (s.scheduler.queue.map Operation.callback).countP (CoreOperation.stepsOf jobId)
      stage := s'.point.stage jobId } := by
  rw [h.life, work_of_off hnone, h.queue]
  unfold life
  have hnot : ¬CoreOperation.clearsOf jobId (CoreOperation.backgroundStep id) = true :=
    Bool.false_ne_true
  rw [work_of_entered hpoint, List.countP_cons_of_neg hnot]

theorem life_take_ne (h : Plain s s')
    (hpoint : s.point = CorePoint.entered (CoreOperation.backgroundStep id))
    (hnone : s'.point.entered? = none) {jobId : PyStr} (hid : id ≠ jobId)
    (hstage : s'.point.stage jobId = JobStage.resting) : s'.life jobId = s.life jobId := by
  rw [life_take h hpoint hnone, hstage]
  have hnot : ¬CoreOperation.stepsOf jobId (CoreOperation.backgroundStep id) = true :=
    fun h => hid (of_decide_eq_true h)
  unfold life
  rw [work_of_entered hpoint, List.countP_cons_of_neg hnot, hpoint]
  rfl

/-- A step that finds its job gone or cancelled. -/
theorem evolves_drop (hpoint : s.point = CorePoint.entered (CoreOperation.backgroundStep id))
    (hidle : id ∈ s.backgrounds → ∀ job, s.jobs.get? id = some job → job.cancelled = true) :
    Evolves s s.done := by
  refine Evolves.of_one id ?_ ?_ (List.Sublist.refl _)
  · rw [life_take plain_done hpoint rfl]
    have hmove := Move.drop (s.life id) _ (life_entered_step hpoint) ?_
    · have hstage : (s.life id).stage = s.done.point.stage id := by
        show s.point.stage id = _
        rw [hpoint]
        rfl
      rw [← hstage]
      exact hmove
    · intro hactive task htask
      obtain ⟨job, hjob, rfl⟩ := Option.map_eq_some_iff.1 htask
      exact hidle (of_decide_eq_true hactive) job hjob
  · exact fun jobId hid => life_take_ne plain_done hpoint rfl hid rfl

theorem evolves_enterBackgroundStep (hrunning : s.scheduler.stopping = false)
    (hsound : (s.life id).Sound)
    (hpoint : s.point = CorePoint.entered (CoreOperation.backgroundStep id)) (env : CoreEnv) :
    Evolves s (s.enterBackgroundStep env id) := by
  unfold enterBackgroundStep
  cases hactive : s.activeJob id with
  | none =>
      -- the job has ended before its step was taken up
      refine evolves_drop hpoint fun hmem job hjob => ?_
      rw [activeJob_of_mem hmem, hjob] at hactive
      cases hactive
  | some job =>
      obtain ⟨hmem, hjob⟩ := activeJob_eq_some hactive
      have htask : (s.life id).task = some job.task := by
        show (s.jobs.get? id).map _ = _
        rw [hjob]
        rfl
      dsimp only
      by_cases hcancelled : job.cancelled = true
      · -- another operation will end it
        rw [if_pos hcancelled]
        refine evolves_drop hpoint fun _ job' hjob' => ?_
        rw [hjob] at hjob'
        cases hjob'
        exact hcancelled
      rw [if_neg hcancelled]
      have huncancelled := Bool.eq_false_of_not_eq_true hcancelled
      have hsteps := life_entered_step hpoint
      cases hnext : job.steps[job.index]? with
      | none =>
          -- a step waits, so an instruction is left
          obtain ⟨-, hone, -, hless⟩ :=
            hsound.live job.task htask (decide_eq_true hmem) huncancelled
          have hlt : job.index < job.steps.length := hless (by omega)
          have hge := List.getElem?_eq_none_iff.1 hnext
          omega
      | some instruction =>
          dsimp only
          by_cases hlate : job.deadline ≤ env.now
          · -- the deadline has passed: the job is marked, and the step is dropped
            rw [if_pos hlate]
            refine (evolves_mark hrunning (cleans_clearTimedOut _ _) hmem hjob huncancelled).trans
              (evolves_drop hpoint ?_)
            intro _ job' hjob'
            have hmarked : (s.jobs.modify id fun job =>
                { job with cancelled := true, state := JobState.cancelling }).get? id =
                  some job' := hjob'
            rw [PyDict.get?_modify_self, hjob] at hmarked
            cases hmarked
            rfl
          · rw [if_neg hlate]
            obtain ⟨s₁, hs₁⟩ : ∃ s₁, s₁ = s.modifyJob id fun job =>
                { job with state := JobState.running } := ⟨_, rfl⟩
            have hlife : ∀ jobId, s₁.life jobId = s.life jobId := by
              intro jobId
              rw [hs₁, life_modifyJob]
              split_ifs
              · rfl
              · rfl
            have hpoint₁ : s₁.point = CorePoint.entered (CoreOperation.backgroundStep id) := by
              rw [hs₁]
              exact hpoint
            rw [← hs₁]
            refine Evolves.of_one id ?_ ?_ (by rw [hs₁]; exact List.Sublist.refl _)
            · rw [life_take (plain_goto _) hpoint₁ rfl, ← hlife id]
              have hmove := Move.take (s₁.life id) _ job.task instruction
                (life_entered_step hpoint₁) (by show s₁.point.stage id = _; rw [hpoint₁]; rfl)
                (by rw [hlife]; exact decide_eq_true hmem) (by rw [hlife]; exact htask)
                huncancelled hnext
              have hstage : (s₁.goto (CorePoint.slice id job.agentId instruction
                  (decide (job.index + 1 = job.steps.length)))).point.stage id =
                    JobStage.before instruction (decide (job.index + 1 = job.steps.length)) :=
                if_pos rfl
              rw [hstage]
              exact hmove
            · intro jobId hid
              exact Eq.trans (life_take_ne (plain_goto _) hpoint₁ rfl hid (if_neg hid))
                (hlife jobId)

theorem evolves_callSlice {agentId instruction : PyStr} {final : Bool}
    (hpoint : s.point = CorePoint.slice id agentId instruction final) (env : CoreEnv) :
    Evolves s (s.callSlice env id agentId instruction final) := by
  have hplain := plain_runSlice (s := s) env id agentId instruction final
  have hnone : s.point.entered? = none := by
    rw [hpoint]
    rfl
  obtain ⟨ok, text, hcall⟩ : ∃ ok text, s.callSlice env id agentId instruction final =
      { (s.runSlice env id agentId instruction final).2 with
        history := { (s.runSlice env id agentId instruction final).2.history with
          slices := (id, instruction) ::
            (s.runSlice env id agentId instruction final).2.history.slices }
        point := CorePoint.sliced id final ok text } := by
    unfold callSlice
    generalize s.runSlice env id agentId instruction final = r
    obtain ⟨result, s₁⟩ := r
    cases result with
    | ok outcome => exact ⟨_, _, rfl⟩
    | error text => exact ⟨_, _, rfl⟩
  rw [hcall]
  generalize (s.runSlice env id agentId instruction final).2 = s₁ at hplain
  have hother : ∀ jobId, NativeCore.life
      { s₁ with
        history := { s₁.history with slices := (id, instruction) :: s₁.history.slices }
        point := CorePoint.sliced id final ok text } jobId =
      { s.life jobId with
        stage := (CorePoint.sliced id final ok text).stage jobId
        ran := (s.life jobId).ran ++ if id = jobId then [instruction] else [] } := by
    intro jobId
    have hnew : (([(id, instruction)].filter fun e : PyStr × PyStr =>
        decide (e.1 = jobId)).map Prod.snd) = if id = jobId then [instruction] else [] := by
      by_cases hid : id = jobId
      · simp [hid]
      · simp [hid]
    unfold life work
    rw [hnone, hplain.jobs, hplain.backgrounds, hplain.queue, hplain.ended, hplain.stranded,
      hplain.slices, List.reverse_cons, List.filter_append, List.map_append, hnew]
    rfl
  refine Evolves.of_one id ?_ ?_ (by rw [show _ = s₁.backgrounds from rfl, hplain.backgrounds])
  · rw [hother, if_pos rfl]
    have hstage : (CorePoint.sliced id final ok text).stage id = JobStage.after final ok :=
      if_pos rfl
    rw [hstage]
    refine Move.run (s.life id) instruction final ok ?_
    show s.point.stage id = _
    rw [hpoint]
    exact if_pos rfl
  · intro jobId hid
    rw [hother, if_neg hid, List.append_nil]
    have hstage : (CorePoint.sliced id final ok text).stage jobId = (s.life jobId).stage := by
      show _ = s.point.stage jobId
      rw [hpoint]
      exact (if_neg hid).trans (if_neg hid).symm
    rw [hstage]

/-- The task of a job that exists. -/
theorem life_task {job : BackgroundJob} (h : s.jobs.get? id = some job) :
    (s.life id).task = some job.task := by
  show (s.jobs.get? id).map _ = _
  rw [h]
  rfl

/-- The thread leaves a step. -/
theorem life_done (hnone : s.point.entered? = none) (jobId : PyStr) :
    s.done.life jobId = { s.life jobId with stage := JobStage.resting } :=
  plain_done.rested hnone off_idle jobId

/-- The thread leaves a step of another job. -/
theorem life_done_ne (hnone : s.point.entered? = none) {jobId : PyStr}
    (hstage : s.point.stage jobId = JobStage.resting) : s.done.life jobId = s.life jobId := by
  rw [life_done hnone, ← hstage]
  rfl

/-- A finished job is not cancelled any more. -/
theorem cancelBackgrounds_finished (hnodup : s.backgrounds.Nodup) (hmem : id ∉ s.backgrounds)
    (client : ℕ) : s.cancelBackgrounds client (some id) = s := by
  rw [cancelBackgrounds_some hnodup, if_neg hmem]

/-- What a message about the end of a job may change. -/
theorem sendBackgroundEvent_finished (hnodup : s.backgrounds.Nodup) (hmem : id ∉ s.backgrounds)
    (outcome : SendOutcome) :
    (s.sendBackgroundEvent id outcome).2 = s ∨
      (s.sendBackgroundEvent id outcome).2 =
        s.modifyJob id fun job => { job with deliveryFailed := true } := by
  unfold sendBackgroundEvent
  cases hjob : s.jobs.get? id with
  | none => exact Or.inl rfl
  | some job =>
      dsimp only
      split_ifs
      · exact Or.inl rfl
      · exact Or.inl (cancelBackgrounds_finished hnodup hmem job.client)
      · cases outcome with
        | sent => exact Or.inl rfl
        | osError => exact Or.inr (cancelBackgrounds_finished (s := s.modifyJob id fun job =>
            { job with deliveryFailed := true }) hnodup hmem job.client)
        | unicodeError => exact Or.inl rfl

/-- A message about the end of a job could not be sent. -/
theorem evolves_note (hmem : id ∉ s.backgrounds) :
    Evolves s (s.modifyJob id fun job => { job with deliveryFailed := true }) := by
  cases hjob : s.jobs.get? id with
  | none =>
      refine Evolves.of_eq (fun jobId => ?_) (List.Sublist.refl _)
      rw [life_modifyJob]
      split_ifs with hid
      · subst hid
        unfold life
        rw [hjob]
        rfl
      · rfl
  | some job =>
      refine Evolves.of_one id ?_ (fun jobId hid => ?_) (List.Sublist.refl _)
      · rw [life_modifyJob, if_pos rfl, hjob]
        exact Move.note (s.life id) job.task true (life_task hjob) (decide_eq_false hmem)
      · rw [life_modifyJob, if_neg hid]

/-- The message about the end of a job comes after the end. -/
theorem Evolves.terminate {t : NativeCore} {state : JobState} {result : PyStr}
    (hnodup : s.backgrounds.Nodup) (h : Evolves t (s.finishBackground id state result).done)
    (env : CoreEnv) : Evolves t (s.terminate env id state result).done := by
  have hnodup' : (s.finishBackground id state result).backgrounds.Nodup := hnodup.erase id
  have hmem : id ∉ (s.finishBackground id state result).backgrounds := hnodup.not_mem_erase
  unfold NativeCore.terminate
  rcases sendBackgroundEvent_finished hnodup' hmem env.terminal with hsend | hsend
  · rw [hsend]
    exact h
  · rw [hsend]
    exact h.trans (evolves_note (s := (s.finishBackground id state result).done) hmem)

/-- **A job is taken out of the active ones.** -/
theorem life_finishBackground (hnodup : s.backgrounds.Nodup) (id : PyStr) (state : JobState)
    (result jobId : PyStr) :
    ∃ e : JobEnd, e.state = state ∧ (s.finishBackground id state result).life jobId =
      if id = jobId then
        { s.life jobId with active := false, ends := e :: (s.life jobId).ends }
      else s.life jobId := by
  refine ⟨{ jobId := id, state, agentState := (s.jobs.get? id).bind fun job =>
    (s.agents.get? job.agentId).map fun r => r.agent.state }, rfl, ?_⟩
  have htask : ((s.finishBackground id state result).jobs.get? jobId).map BackgroundJob.task =
      (s.jobs.get? jobId).map BackgroundJob.task := by
    show ((s.jobs.modify id _).get? jobId).map BackgroundJob.task = _
    by_cases hid : id = jobId
    · subst hid
      rw [PyDict.get?_modify_self, Option.map_map]
      rfl
    · rw [PyDict.get?_modify_of_ne _ _ hid]
  by_cases hid : id = jobId
  · rw [if_pos hid]
    unfold life
    rw [htask]
    unfold finishBackground modifyJob
    dsimp only
    rw [List.filter_cons_of_pos (p := fun e : JobEnd => decide (e.jobId = jobId))
        (decide_eq_true hid),
      decide_eq_false (hid ▸ hnodup.not_mem_erase)]
    rfl
  · rw [if_neg hid]
    unfold life
    rw [htask]
    unfold finishBackground modifyJob
    dsimp only
    rw [List.filter_cons_of_neg (p := fun e : JobEnd => decide (e.jobId = jobId))
        (fun h => hid (of_decide_eq_true h)),
      decide_eq_decide.2 (List.mem_erase_of_ne (Ne.symm hid))]
    rfl

/-- The thread stands behind a step of the job, which is not cancelled. -/
structure Behind (s : NativeCore) (id : PyStr) (job : BackgroundJob) (final ok : Bool) : Prop where
  point : ∃ text, s.point = CorePoint.sliced id final ok text
  found : s.jobs.get? id = some job
  active : id ∈ s.backgrounds
  uncancelled : job.cancelled = false

/-- The step has been counted. -/
structure Counted (s s' : NativeCore) (id : PyStr) (job : BackgroundJob) (undelivered : Bool) :
    Prop where
  point : s'.point = s.point
  backgrounds : s'.backgrounds = s.backgrounds
  running : s'.scheduler.stopping = s.scheduler.stopping
  kept : ∃ job', s'.jobs.get? id = some job' ∧ job'.client = job.client ∧
    job'.task = { job.task with index := job.index + 1, undelivered }
  life : ∀ jobId, s'.life jobId =
    if id = jobId then
      { s.life jobId with task := some { job.task with index := job.index + 1, undelivered } }
    else s.life jobId

variable {job : BackgroundJob} {final ok undelivered : Bool}

theorem Behind.entered (h : s.Behind id job final ok) : s.point.entered? = none := by
  obtain ⟨text, hpoint⟩ := h.point
  rw [hpoint]
  rfl

theorem Behind.stage (h : s.Behind id job final ok) :
    (s.life id).stage = JobStage.after final ok := by
  obtain ⟨text, hpoint⟩ := h.point
  show s.point.stage id = _
  rw [hpoint]
  exact if_pos rfl

theorem Behind.stage_ne (h : s.Behind id job final ok) (hid : id ≠ jobId) :
    s.point.stage jobId = JobStage.resting := by
  obtain ⟨text, hpoint⟩ := h.point
  rw [hpoint]
  exact if_neg hid

theorem counted_modifyJob (h : s.jobs.get? id = some job) {f : BackgroundJob → BackgroundJob}
    (hf : (f job).task =
      { job.task with index := job.index + 1, undelivered := job.deliveryFailed })
    (hclient : (f job).client = job.client) :
    Counted s (s.modifyJob id f) id job job.deliveryFailed where
  point := rfl
  backgrounds := rfl
  running := rfl
  kept := by
    refine ⟨f job, ?_, hclient, hf⟩
    show (s.jobs.modify id f).get? id = _
    rw [PyDict.get?_modify_self, h]
    rfl
  life := by
    intro jobId
    rw [life_modifyJob]
    by_cases hid : id = jobId
    · subst hid
      rw [if_pos rfl, if_pos rfl, h, Option.map_some, hf]
    · rw [if_neg hid, if_neg hid]

theorem Counted.entered (h : Counted s s' id job undelivered) (hb : s.Behind id job final ok) :
    s'.point.entered? = none := by
  rw [h.point]
  exact hb.entered

theorem Counted.stage_ne (h : Counted s s' id job undelivered) (hb : s.Behind id job final ok)
    (hid : id ≠ jobId) : s'.point.stage jobId = JobStage.resting := by
  rw [h.point]
  exact hb.stage_ne hid

/-- A job that has been counted is changed again. -/
theorem Counted.modifyJob (h : Counted s s' id job undelivered) {undelivered' : Bool}
    {f : BackgroundJob → BackgroundJob}
    (hf : ∀ job, (f job).client = job.client ∧
      (f job).task = { job.task with undelivered := (f job).deliveryFailed })
    (hundelivered : ∀ job', job'.deliveryFailed = undelivered →
      (f job').deliveryFailed = undelivered') :
    Counted s (s'.modifyJob id f) id job undelivered' := by
  obtain ⟨job', hjob', hclient, htask⟩ := h.kept
  have hdelivered : job'.deliveryFailed = undelivered := congrArg JobTask.undelivered htask
  have htask' : (f job').task =
      { job.task with index := job.index + 1, undelivered := undelivered' } := by
    rw [(hf job').2, htask, hundelivered job' hdelivered]
  refine ⟨h.point, h.backgrounds, h.running, ⟨f job', ?_, (hf job').1.trans hclient, htask'⟩, ?_⟩
  · show (s'.jobs.modify id f).get? id = _
    rw [PyDict.get?_modify_self, hjob']
    rfl
  · intro jobId
    rw [life_modifyJob, h.life]
    by_cases hid : id = jobId
    · subst hid
      rw [if_pos rfl, if_pos rfl, if_pos rfl, hjob', Option.map_some, htask']
    · rw [if_neg hid, if_neg hid, if_neg hid]

/-- **The job is cancelled after a step.** -/
theorem Counted.retire (h : Counted s s' id job undelivered) (hb : s.Behind id job final ok)
    (hrunning : s.scheduler.stopping = false) (hoperation : Cleans id operation) :
    Evolves s (s'.mark id operation).done := by
  have hnone : (s'.mark id operation).point.entered? = none := h.entered hb
  have hrunning' := h.running.trans hrunning
  obtain ⟨job', hjob', -, htask⟩ := h.kept
  refine Evolves.of_one id ?_ ?_ (by rw [← h.backgrounds]; exact List.Sublist.refl _)
  · rw [life_done hnone, life_mark hrunning' hoperation, if_pos rfl, hjob', Option.map_some, htask,
      h.life, if_pos rfl]
    exact Move.retire (s.life id) job.task final ok undelivered hb.stage (life_task hb.found)
      hb.uncancelled
  · intro jobId hid
    rw [life_done_ne hnone (h.stage_ne hb hid), life_mark hrunning' hoperation, if_neg hid, h.life,
      if_neg hid]

/-- The message about a step could not be encoded. -/
theorem Counted.strand (h : Counted s s' id job job.deliveryFailed)
    (hb : s.Behind id job final ok) :
    Evolves s { s' with
      history := { s'.history with stranded := id :: s'.history.stranded } }.done := by
  have hlife : ∀ jobId, NativeCore.life { s' with
      history := { s'.history with stranded := id :: s'.history.stranded } }.done jobId =
        { s'.life jobId with
          stage := JobStage.resting
          stranded := (s'.life jobId).stranded + if id = jobId then 1 else 0 } := by
    intro jobId
    unfold NativeCore.life NativeCore.work NativeCore.done
    dsimp only
    rw [h.point, hb.entered, List.count_cons]
    by_cases hid : id = jobId
    · rw [if_pos hid, if_pos (beq_iff_eq.2 hid)]
      rfl
    · rw [if_neg hid, if_neg (fun h => hid (beq_iff_eq.1 h))]
      rfl
  refine Evolves.of_one id ?_ ?_ (by rw [← h.backgrounds]; exact List.Sublist.refl _)
  · rw [hlife, h.life, if_pos rfl, if_pos rfl]
    exact Move.strand (s.life id) job.task final ok hb.stage (life_task hb.found) hb.uncancelled
  · intro jobId hid
    rw [hlife, h.life, if_neg hid, if_neg hid]
    have hstage : (s.life jobId).stage = JobStage.resting := hb.stage_ne hid
    rw [← hstage]
    rfl

/-- **The next step is submitted.** -/
theorem Counted.proceed (h : Counted s s' id job job.deliveryFailed)
    (hb : s.Behind id job false true) (hrunning : s.scheduler.stopping = false) :
    Evolves s (s'.submit OperationKind.background (CoreOperation.backgroundStep id) true).done := by
  have hnone : (s'.submit OperationKind.background (CoreOperation.backgroundStep id)
      true).point.entered? = none := h.entered hb
  have hrunning' := h.running.trans hrunning
  refine Evolves.of_one id ?_ ?_ (by rw [← h.backgrounds]; exact List.Sublist.refl _)
  · rw [life_done hnone, life_submit hrunning' (Or.inr rfl), h.life, if_pos rfl,
      if_pos (show CoreOperation.stepsOf id (CoreOperation.backgroundStep id) = true from
        decide_eq_true rfl)]
    exact Move.proceed (s.life id) job.task hb.stage (life_task hb.found) hb.uncancelled
  · intro jobId hid
    rw [life_done_ne hnone (h.stage_ne hb hid), life_submit hrunning' (Or.inr rfl), h.life, if_neg hid,
      if_neg (show ¬CoreOperation.stepsOf jobId (CoreOperation.backgroundStep id) = true from
        fun h => hid (of_decide_eq_true h))]
    rfl

/-- **The job ends after a step.** -/
theorem Counted.finish (h : Counted s s' id job job.deliveryFailed)
    (hb : s.Behind id job final ok) (hover : (ok && !final) = false) {state : JobState}
    (hstate : state = JobState.completed → ok = true) (result : PyStr)
    (hnodup : s.backgrounds.Nodup) : Evolves s (s'.finishBackground id state result).done := by
  have hnone : (s'.finishBackground id state result).point.entered? = none := h.entered hb
  have hnodup' : s'.backgrounds.Nodup := by
    rw [h.backgrounds]
    exact hnodup
  refine Evolves.of_one id ?_ ?_ ?_
  · obtain ⟨e, he, hlife⟩ := life_finishBackground hnodup' id state result id
    rw [life_done hnone, hlife, if_pos rfl, h.life, if_pos rfl]
    exact Move.finish (s.life id) job.task final ok e hb.stage (life_task hb.found) hb.uncancelled
      hover fun hcompleted => hstate (he ▸ hcompleted)
  · intro jobId hid
    obtain ⟨e, -, hlife⟩ := life_finishBackground hnodup' id state result jobId
    rw [life_done_ne hnone (h.stage_ne hb hid), hlife, if_neg hid, h.life, if_neg hid]
  · show (s'.backgrounds.erase id).Sublist _
    rw [h.backgrounds]
    exact List.erase_sublist

/-- **The message about a step**: the job is cancelled when nobody reads it, it is stranded when the
message cannot be encoded, or the message is sent. -/
theorem Counted.send (h : Counted s s' id job job.deliveryFailed) (hb : s.Behind id job final ok)
    (hrunning : s.scheduler.stopping = false) (hnodup : s.backgrounds.Nodup)
    (hdelivered : job.deliveryFailed = false) (progress : SendOutcome) :
    (∃ s₂, s'.sendBackgroundEvent id progress = (Delivery.gone, s₂) ∧ Evolves s s₂.done) ∨
      s'.sendBackgroundEvent id progress = (Delivery.raised, s') ∨
      s'.sendBackgroundEvent id progress = (Delivery.sent, s') := by
  obtain ⟨job₁, hjob₁, hclient₁, htask₁⟩ := h.kept
  have hfailed₁ : job₁.deliveryFailed = false :=
    (congrArg JobTask.undelivered htask₁).trans hdelivered
  have hcancelled₁ : job₁.cancelled = false :=
    (congrArg JobTask.cancelled htask₁).trans hb.uncancelled
  have hnodup' : s'.backgrounds.Nodup := by
    rw [h.backgrounds]
    exact hnodup
  have hmem' : id ∈ s'.backgrounds := by
    rw [h.backgrounds]
    exact hb.active
  unfold sendBackgroundEvent
  rw [hjob₁]
  dsimp only
  rw [if_neg (by rw [hfailed₁]; decide)]
  by_cases howns : s'.owns ⟨job₁.client, job₁.epoch⟩ = false
  · -- the session has ended
    rw [if_pos howns, cancelBackgrounds_own hnodup' hmem' hjob₁ hcancelled₁]
    exact Or.inl ⟨_, rfl, h.retire hb hrunning (cleans_clearContext _ _)⟩
  rw [if_neg howns]
  cases progress with
  | unicodeError => exact Or.inr (Or.inl rfl)
  | osError =>
      -- the reader has vanished
      have hcounted : Counted s (s'.modifyJob id fun job =>
          { job with deliveryFailed := true }) id job true :=
        h.modifyJob (fun _ => ⟨rfl, rfl⟩) fun _ _ => rfl
      have hjob₂ : (s'.modifyJob id fun job =>
          { job with deliveryFailed := true }).jobs.get? id =
            some { job₁ with deliveryFailed := true } := by
        show (s'.jobs.modify id _).get? id = _
        rw [PyDict.get?_modify_self, hjob₁]
        rfl
      generalize (s'.modifyJob id fun job =>
        { job with deliveryFailed := true }) = s₂ at hcounted hjob₂ ⊢
      have hcancel := cancelBackgrounds_own (by rw [hcounted.backgrounds]; exact hnodup)
        (by rw [hcounted.backgrounds]; exact hb.active) hjob₂ hcancelled₁
      dsimp only at hcancel ⊢
      rw [hcancel]
      exact Or.inl ⟨_, rfl, hcounted.retire hb hrunning (cleans_clearContext _ _)⟩
  | sent => exact Or.inr (Or.inr rfl)

/-- **What follows the message about a step**: the deadline has passed, the next step is submitted,
or the job ends. -/
theorem Counted.sent (h : Counted s s' id job job.deliveryFailed) (hb : s.Behind id job final ok)
    (hrunning : s.scheduler.stopping = false) (hnodup : s.backgrounds.Nodup) (text : PyStr)
    (env : CoreEnv) :
    Evolves s (if (ok && !final) = true then
      if job.deadline ≤ env.now then
        (s'.mark id (CoreOperation.clearTimedOut job.agentId id)).done
      else
        ((s'.modifyJob id fun job => { job with state := JobState.waiting }).submit
          OperationKind.background (CoreOperation.backgroundStep id) true).done
    else
      (s'.terminate env id (if ok then JobState.completed else JobState.failed) text).done) := by
  by_cases hmore : (ok && !final) = true
  · rw [if_pos hmore]
    by_cases hlate : job.deadline ≤ env.now
    · rw [if_pos hlate]
      exact h.retire hb hrunning (cleans_clearTimedOut _ _)
    · rw [if_neg hlate]
      have hcounted : Counted s (s'.modifyJob id fun job =>
          { job with state := JobState.waiting }) id job job.deliveryFailed :=
        h.modifyJob (fun _ => ⟨rfl, rfl⟩) fun _ h => h
      obtain ⟨rfl, hfinal⟩ := Bool.and_eq_true_iff.1 hmore
      obtain rfl : final = false := by
        cases final with
        | false => rfl
        | true => cases hfinal
      exact hcounted.proceed hb hrunning
  · rw [if_neg hmore]
    have hcompleted : (if ok = true then JobState.completed else JobState.failed) =
        JobState.completed → ok = true := by
      cases ok with
      | true => exact fun _ => rfl
      | false => exact nofun
    have hnodup' : s'.backgrounds.Nodup := by
      rw [h.backgrounds]
      exact hnodup
    exact (h.finish hb (Bool.eq_false_of_not_eq_true hmore) hcompleted text
      hnodup).terminate hnodup' env

/-- **The rest of a step.** -/
theorem evolves_leaveSlice (hrunning : s.scheduler.stopping = false)
    (hnodup : s.backgrounds.Nodup) (hsound : (s.life id).Sound) {text : PyStr}
    (hpoint : s.point = CorePoint.sliced id final ok text) (env : CoreEnv) :
    Evolves s (s.leaveSlice env id final ok text) := by
  have hnone : s.point.entered? = none := by
    rw [hpoint]
    rfl
  have hstage : (s.life id).stage = JobStage.after final ok := by
    show s.point.stage id = _
    rw [hpoint]
    exact if_pos rfl
  unfold leaveSlice
  cases hjob : s.jobs.get? id with
  | none =>
      have hresting := (hsound.unborn (by
        show (s.jobs.get? id).map _ = none
        rw [hjob]
        rfl)).stage
      rw [hstage] at hresting
      cases hresting
  | some job =>
      have htask := life_task hjob
      have hactive := hsound.active htask (by rw [hstage]; exact nofun)
      have hmem : id ∈ s.backgrounds := of_decide_eq_true hactive
      dsimp only
      by_cases hcancelled : job.cancelled = true
      · -- cancelled while the agent was at work: the answer is dropped
        rw [if_pos hcancelled]
        refine Evolves.of_one id ?_ ?_ (List.Sublist.refl _)
        · rw [life_done hnone]
          exact Move.leave (s.life id) job.task final ok hstage htask hcancelled
        · intro jobId hid
          refine life_done_ne hnone ?_
          rw [hpoint]
          exact if_neg hid
      rw [if_neg hcancelled]
      have huncancelled := Bool.eq_false_of_not_eq_true hcancelled
      have hb : s.Behind id job final ok := ⟨⟨text, hpoint⟩, hjob, hmem, huncancelled⟩
      have hdelivered : job.deliveryFailed = false :=
        (hsound.live job.task htask hactive huncancelled).2.2.1
      have hcounted : Counted s (s.modifyJob id fun job =>
          { job with index := job.index + 1, lastResult := text }) id job job.deliveryFailed :=
        counted_modifyJob hjob rfl rfl
      rcases hcounted.send hb hrunning hnodup hdelivered env.progress with
        ⟨s₂, hsend, hevolves⟩ | hsend | hsend
      · rw [hsend]
        exact hevolves
      · rw [hsend]
        exact hcounted.strand hb
      · rw [hsend]
        exact hcounted.sent hb hrunning hnodup text env

/-! #### The end of a cancelled job -/

/-- The operation that cleans up has discarded the context. -/
theorem evolves_abort (h : Plain s s') (hpoint : s.point = CorePoint.entered operation)
    (hoperation : Cleans id operation) {timedOut : Bool} {error : Option PyStr} :
    Evolves s (s'.goto (CorePoint.aborted id timedOut error)) := by
  have hwork : (s'.goto (CorePoint.aborted id timedOut error)).work =
      s.scheduler.queue.map Operation.callback := by
    rw [work_of_off rfl]
    exact congrArg _ h.queue
  have hlife := fun jobId => (h.trans (plain_goto (CorePoint.aborted id timedOut error))).life jobId
  refine Evolves.of_one id ?_ ?_ (by
    show s'.backgrounds.Sublist _
    rw [h.backgrounds])
  · rw [hlife, hwork]
    have hclears : (s.life id).clears = (s.scheduler.queue.map Operation.callback).countP
        (CoreOperation.clearsOf id) + 1 := by
      unfold life
      rw [work_of_entered hpoint]
      exact List.countP_cons_of_pos ((hoperation id).2.trans (decide_eq_true rfl))
    have hsteps : (s.life id).steps = (s.scheduler.queue.map Operation.callback).countP
        (CoreOperation.stepsOf id) := by
      unfold life
      rw [work_of_entered hpoint]
      exact List.countP_cons_of_neg (by rw [(hoperation id).1]; decide)
    have hmove := Move.abort (s.life id) _ hclears (by
      show s.point.stage id = _
      rw [hpoint]
      rfl)
    have hstage : (s'.goto (CorePoint.aborted id timedOut error)).point.stage id =
        JobStage.aborting := if_pos rfl
    rw [hstage, ← hsteps]
    exact hmove
  · intro jobId hid
    have hclears : ¬operation.clearsOf jobId = true := by
      rw [(hoperation jobId).2, decide_eq_false hid]
      decide
    have hsteps : ¬operation.stepsOf jobId = true := by
      rw [(hoperation jobId).1]
      decide
    have hstage : (s'.goto (CorePoint.aborted id timedOut error)).point.stage jobId =
        JobStage.resting := if_neg hid
    rw [hlife, hwork, hstage]
    unfold life
    rw [work_of_entered hpoint, List.countP_cons_of_neg hsteps, List.countP_cons_of_neg hclears,
      hpoint]
    rfl

/-- **The operation that cleans up ends the job.** -/
theorem evolves_leaveClear (hnodup : s.backgrounds.Nodup) (hsound : (s.life id).Sound)
    {timedOut : Bool} {error : Option PyStr}
    (hpoint : s.point = CorePoint.aborted id timedOut error) (env : CoreEnv) :
    Evolves s (s.leaveClear env id timedOut error) := by
  have hnone : s.point.entered? = none := by
    rw [hpoint]
    rfl
  have hstage : (s.life id).stage = JobStage.aborting := by
    show s.point.stage id = _
    rw [hpoint]
    exact if_pos rfl
  have hne : (s.life id).stage ≠ JobStage.resting := by
    rw [hstage]
    exact nofun
  obtain ⟨job, hjob⟩ : ∃ job, s.jobs.get? id = some job := by
    cases hjob : s.jobs.get? id with
    | some job => exact ⟨job, rfl⟩
    | none =>
        refine absurd (hsound.unborn ?_).stage hne
        show (s.jobs.get? id).map _ = none
        rw [hjob]
        rfl
  have htask := life_task hjob
  have hactive := hsound.active htask hne
  have hmem : id ∈ s.backgrounds := of_decide_eq_true hactive
  have hcancelled : job.cancelled = true := by
    cases hcancelled : job.cancelled with
    | true => rfl
    | false =>
        have := (hsound.live job.task htask hactive hcancelled).1
        rw [hstage] at this
        exact absurd this (Nat.succ_ne_zero _)
  unfold leaveClear
  rw [activeJob_of_mem hmem, hjob]
  dsimp only
  rw [if_neg (by rw [hcancelled]; exact fun h => Bool.false_ne_true h.2.symm)]
  obtain ⟨state, hstate⟩ : ∃ state, state = (if error.isSome = true then JobState.failed
      else if timedOut = true then JobState.timedOut else JobState.cancelled) := ⟨_, rfl⟩
  have hstate' : state ≠ JobState.completed := by
    rw [hstate]
    split_ifs
    · exact nofun
    · exact nofun
    · exact nofun
  rw [← hstate]
  refine Evolves.terminate hnodup ?_ env
  have hnone' : ∀ result, (s.finishBackground id state result).point.entered? = none :=
    fun _ => hnone
  refine Evolves.of_one id ?_ ?_ List.erase_sublist
  · obtain ⟨e, he, hlife⟩ := life_finishBackground hnodup id state _ id
    rw [life_done (hnone' _), hlife, if_pos rfl]
    exact Move.clear (s.life id) e hstage (he ▸ hstate')
  · intro jobId hid
    obtain ⟨e, -, hlife⟩ := life_finishBackground hnodup id state _ jobId
    rw [life_done_ne (hnone' _) (by
      show s.point.stage jobId = _
      rw [hpoint]
      exact if_neg hid), hlife, if_neg hid]

/-! #### Everything else -/

/-- The operation has nothing to do with jobs. -/
def Alien (operation : CoreOperation) : Prop :=
  ∀ jobId, operation.stepsOf jobId = false ∧ operation.clearsOf jobId = false

theorem Plain.same (h : Plain s s') (hpoint : s'.point = s.point) (jobId : PyStr) :
    s'.life jobId = s.life jobId := by
  have hwork : s'.work = s.work := by
    unfold work
    rw [hpoint, h.queue]
  rw [h.life, hwork, hpoint]
  rfl

theorem Plain.evolves_same (h : Plain s s') (hpoint : s'.point = s.point) : Evolves s s' :=
  Evolves.of_eq (h.same hpoint) (by rw [h.backgrounds])

/-- An operation that has nothing to do with jobs is over, or goes on. -/
theorem Plain.left (h : Plain s s') (hpoint : s.point = CorePoint.entered operation)
    (halien : Alien operation) (hp' : s'.point.Off) : Evolves s s' := by
  refine Evolves.of_eq (fun jobId => ?_) (by rw [h.backgrounds])
  obtain ⟨hsteps, hclears⟩ := halien jobId
  rw [h.life, work_of_off hp'.entered, h.queue, hp'.stage jobId]
  unfold NativeCore.life
  rw [work_of_entered hpoint, List.countP_cons_of_neg (by rw [hsteps]; decide),
    List.countP_cons_of_neg (by rw [hclears]; decide), hpoint]
  rfl

/-- An operation that has nothing to do with jobs is submitted. -/
theorem evolves_submit (halien : Alien operation) (kind : OperationKind) (continuation : Bool) :
    Evolves s (s.submit kind operation continuation) := by
  refine Evolves.of_eq (fun jobId => ?_) (List.Sublist.refl _)
  obtain ⟨hsteps, hclears⟩ := halien jobId
  rcases PriorityScheduler.submit_cases s.scheduler kind operation continuation with
    ⟨e, hsubmit, -⟩ | ⟨-, -, hsubmit⟩
  · have hplain : Plain s (s.submit kind operation continuation) := by
      refine ⟨rfl, rfl, ?_, rfl, rfl, rfl⟩
      unfold submit
      rw [hsubmit]
    exact hplain.same rfl jobId
  · have hqueue : (s.submit kind operation continuation).scheduler.queue = s.scheduler.queue ++
        [{ sequence := s.scheduler.sequence + 1, kind, callback := operation }] := by
      unfold submit
      rw [hsubmit]
    unfold life
    rw [work_append hqueue rfl, List.countP_append, List.countP_append, List.countP_singleton,
      List.countP_singleton, hsteps, hclears]
    rfl

/-- The operation that is taken out of the queue is still one that has not begun. -/
theorem perm_work (hnumbered : s.scheduler.Numbered) (hidle : s.point = CorePoint.idle)
    {next : Operation CoreOperation} {scheduler : PriorityScheduler CoreOperation}
    (hpop : s.scheduler.pop = some (next, scheduler)) :
    (NativeCore.work { s with scheduler, point := CorePoint.entered next.callback }).Perm
      s.work := by
  obtain ⟨before, after, hqueue, -, -, rfl⟩ := PriorityScheduler.pop_cases hnumbered hpop
  unfold work
  rw [hidle, hqueue, List.map_append, List.map_append, List.map_cons]
  show List.Perm (next.callback ::
    (before.map Operation.callback ++ after.map Operation.callback)) _
  exact List.perm_middle.symm

/-- **The next operation is taken out of the queue.** -/
theorem evolves_pop (hnumbered : s.scheduler.Numbered) (hidle : s.point = CorePoint.idle)
    {next : Operation CoreOperation} {scheduler : PriorityScheduler CoreOperation}
    (hpop : s.scheduler.pop = some (next, scheduler)) :
    Evolves s { s with scheduler, point := CorePoint.entered next.callback } := by
  have hperm := perm_work hnumbered hidle hpop
  refine Evolves.of_eq (fun jobId => ?_) (List.Sublist.refl _)
  unfold life
  rw [hperm.countP_eq, hperm.countP_eq, hidle]
  rfl

/-- The turn of the manager goes on. -/
theorem evolves_manage {session : CoreSession} {requestId : PyStr}
    (hpoint : s.point = CorePoint.managing session requestId) (env : CoreEnv) :
    Evolves s (s.manage env session requestId) := by
  have hoff : s.point.Off := by
    rw [hpoint]
    exact ⟨rfl, fun _ => rfl⟩
  have hanswer : ∀ turn, (CorePoint.answer session requestId turn).Off :=
    fun _ => ⟨rfl, fun _ => rfl⟩
  unfold manage
  cases s.manager.point with
  | idle =>
      dsimp only
      cases s.manager.last with
      | none => exact (plain_goto _).evolves hoff (hanswer _)
      | some result =>
          cases result with
          | ok turn => exact (plain_goto _).evolves hoff (hanswer _)
          | error text =>
              have hplain : Plain s ((s.resetChat env).goto
                  (CorePoint.answer session requestId (ManagerTurn.error text))) :=
                ⟨rfl, rfl, rfl, rfl, rfl, rfl⟩
              exact hplain.evolves hoff (hanswer _)
  | running results item rest =>
      have hplain := plain_runAgent (s := s) env item.agentId item.task
      have hsame := point_runAgent (s := s) env item.agentId item.task
      exact (hplain.evolves_same hsame).trans
        (Plain.evolves_same ⟨rfl, rfl, rfl, rfl, rfl, rfl⟩ rfl)
  | _ => exact Plain.evolves_same ⟨rfl, rfl, rfl, rfl, rfl, rfl⟩ rfl

/-- **The callback of an operation.** -/
theorem evolves_enter (hrunning : s.scheduler.stopping = false)
    (hsound : ∀ jobId, (s.life jobId).Sound) (hpoint : s.point = CorePoint.entered operation)
    (env : CoreEnv) : Evolves s (s.enter env operation) := by
  cases operation with
  | releaseSession =>
      exact Plain.left ⟨rfl, rfl, rfl, rfl, rfl, rfl⟩ hpoint (fun _ => ⟨rfl, rfl⟩) off_idle
  | clearContext agentId jobId =>
      exact evolves_abort (plain_abortSlices env agentId) hpoint (cleans_clearContext agentId jobId)
  | clearTimedOut agentId jobId =>
      exact evolves_abort (plain_abortSlices env agentId) hpoint
        (cleans_clearTimedOut agentId jobId)
  | modelWorker session requestId text agentId =>
      unfold enter enterModelWorker
      dsimp only
      split_ifs
      · exact Plain.left plain_done hpoint (fun _ => ⟨rfl, rfl⟩) off_idle
      · cases agentId with
        | none =>
            exact Plain.left ⟨rfl, rfl, rfl, rfl, rfl, rfl⟩ hpoint (fun _ => ⟨rfl, rfl⟩)
              ⟨rfl, fun _ => rfl⟩
        | some agentId =>
            exact Plain.left ⟨rfl, rfl, rfl, rfl, rfl, rfl⟩ hpoint (fun _ => ⟨rfl, rfl⟩)
              ⟨rfl, fun _ => rfl⟩
  | hardwareProbe session eventId agentId task =>
      unfold enter
      dsimp only
      split_ifs
      · exact Plain.left (plain_goto _) hpoint (fun _ => ⟨rfl, rfl⟩) ⟨rfl, fun _ => rfl⟩
      · exact Plain.left plain_done hpoint (fun _ => ⟨rfl, rfl⟩) off_idle
  | backgroundStep jobId => exact evolves_enterBackgroundStep hrunning (hsound jobId) hpoint env
  | execute agentId task =>
      unfold enter enterExecute
      dsimp only
      split_ifs
      · exact Plain.left (plain_goto _) hpoint (fun _ => ⟨rfl, rfl⟩) ⟨rfl, fun _ => rfl⟩
      · exact Plain.left ⟨rfl, rfl, rfl, rfl, rfl, rfl⟩ hpoint (fun _ => ⟨rfl, rfl⟩) off_idle

/-- **The next step of the thread.** -/
theorem evolves_advance (hisolated : s.Isolated) (hnodup : s.backgrounds.Nodup)
    (hsound : ∀ jobId, (s.life jobId).Sound) (env : CoreEnv) : Evolves s (s.advance env) := by
  unfold advance
  cases hpoint : s.point with
  | idle =>
      dsimp only
      cases hpop : s.scheduler.pop with
      | none => exact Evolves.refl
      | some p =>
          obtain ⟨next, scheduler⟩ := p
          exact evolves_pop hisolated.numbered hpoint hpop
  | entered operation => exact evolves_enter hisolated.running hsound hpoint env
  | turn session requestId text =>
      have hoff : s.point.Off := by
        rw [hpoint]
        exact ⟨rfl, fun _ => rfl⟩
      unfold respond
      dsimp only
      split_ifs
      · exact Plain.evolves ⟨rfl, rfl, rfl, rfl, rfl, rfl⟩ hoff ⟨rfl, fun _ => rfl⟩
      · exact Plain.evolves ⟨rfl, rfl, rfl, rfl, rfl, rfl⟩ hoff ⟨rfl, fun _ => rfl⟩
  | managing session requestId => exact evolves_manage hpoint env
  | agentTask session requestId text agentId =>
      refine ((plain_runAgent env agentId text).trans (plain_goto _)).evolves ?_
        ⟨rfl, fun _ => rfl⟩
      rw [hpoint]
      exact ⟨rfl, fun _ => rfl⟩
  | answer session requestId turn =>
      have hoff : s.point.Off := by
        rw [hpoint]
        exact ⟨rfl, fun _ => rfl⟩
      dsimp only
      split_ifs
      · exact Plain.evolves ⟨rfl, rfl, rfl, rfl, rfl, rfl⟩ hoff off_idle
      · exact plain_done.evolves hoff off_idle
  | slice jobId agentId instruction final => exact evolves_callSlice hpoint env
  | sliced jobId final ok text =>
      exact evolves_leaveSlice hisolated.running hnodup (hsound jobId) hpoint env
  | aborted jobId timedOut error => exact evolves_leaveClear hnodup (hsound jobId) hpoint env
  | probe session eventId agentId task =>
      refine ((plain_runAgent env agentId task).trans (plain_goto _)).evolves ?_
        ⟨rfl, fun _ => rfl⟩
      rw [hpoint]
      exact ⟨rfl, fun _ => rfl⟩
  | probed session eventId =>
      have hoff : s.point.Off := by
        rw [hpoint]
        exact ⟨rfl, fun _ => rfl⟩
      dsimp only
      split_ifs
      · exact Plain.evolves ⟨rfl, rfl, rfl, rfl, rfl, rfl⟩ hoff off_idle
      · exact plain_done.evolves hoff off_idle
  | tasking agentId task =>
      have hplain := (plain_runAgent (s := s) env agentId task).trans plain_done
      refine Plain.evolves ⟨hplain.jobs, hplain.backgrounds, hplain.queue, hplain.slices,
        hplain.ended, hplain.stranded⟩ ?_ off_idle
      rw [hpoint]
      exact ⟨rfl, fun _ => rfl⟩

/-! #### The clients and the task service -/

theorem evolves_release (hrunning : s.scheduler.stopping = false) (client : ℕ) :
    Evolves s (s.release client) := by
  unfold release
  split_ifs
  · obtain ⟨s₁, hs₁⟩ : ∃ s₁ : NativeCore, s₁ = { s with
        human := none
        epoch := Function.update s.epoch client (s.epoch client + 1) } := ⟨_, rfl⟩
    have hplain : Plain s s₁ := by
      rw [hs₁]
      exact ⟨rfl, rfl, rfl, rfl, rfl, rfl⟩
    have hrunning₁ : s₁.scheduler.stopping = false := by
      rw [hs₁]
      exact hrunning
    rw [← hs₁]
    exact ((hplain.evolves_same (by rw [hs₁])).trans
      (evolves_cancelBackgrounds hrunning₁ client none)).trans
        (evolves_submit (fun _ => ⟨rfl, rfl⟩) _ _)
  · exact Evolves.refl

theorem evolves_user (client : ℕ) (requestId text : PyStr) (agentId : Option PyStr) :
    Evolves s (s.user client requestId text agentId) := by
  unfold user
  dsimp only
  split_ifs
  · exact Evolves.refl
  · exact (evolves_submit (fun _ => ⟨rfl, rfl⟩) _ _).trans
      (Plain.evolves_same ⟨rfl, rfl, rfl, rfl, rfl, rfl⟩ rfl)

theorem evolves_hardware (client : ℕ) (eventId agentId task : PyStr) :
    Evolves s (s.hardware client eventId agentId task) := by
  unfold hardware
  dsimp only
  split_ifs
  · exact Evolves.refl
  · exact evolves_submit (fun _ => ⟨rfl, rfl⟩) _ _

theorem evolves_offer (mqtt : Bool) (agentId task : PyStr) :
    Evolves s (s.offer mqtt agentId task) := by
  unfold offer
  dsimp only
  generalize (if mqtt = true then OperationKind.hardware else OperationKind.background) = kind
  by_cases hrefused : agentId ∈ s.reserved ∨
      s.admits kind (CoreOperation.execute agentId task) = false
  · rw [if_pos hrefused]
    exact Evolves.refl
  · rw [if_neg hrefused]
    exact (evolves_submit (fun _ => ⟨rfl, rfl⟩) _ _).trans
      (Plain.evolves_same ⟨rfl, rfl, rfl, rfl, rfl, rfl⟩ rfl)

theorem evolves_acquire (client : ℕ) : Evolves s (s.acquire client) := by
  unfold acquire
  cases s.human with
  | some owner => exact Evolves.refl
  | none => exact Plain.evolves_same ⟨rfl, rfl, rfl, rfl, rfl, rfl⟩ rfl

/-- The agent of a job. -/
def agentOf (s : NativeCore) (jobId : PyStr) : Option PyStr :=
  (s.jobs.get? jobId).map BackgroundJob.agentId

/-- The lives of the jobs when the job `jobId` has been entered, with its first step in the queue. -/
theorem life_enter {jobId : PyStr} {job : BackgroundJob} {s₁ : NativeCore}
    (hwork : s₁.work = s.work ++ [CoreOperation.backgroundStep jobId])
    (hbackgrounds : s₁.backgrounds = s.backgrounds ++ [jobId])
    (hjobs : s₁.jobs = s.jobs.set jobId job) (hpoint : s₁.point = s.point)
    (hhistory : s₁.history = s.history) (other : PyStr) :
    s₁.life other = { s.life other with
      task := if jobId = other then some job.task else (s.life other).task
      active := decide (other ∈ s.backgrounds ∨ other = jobId)
      steps := (s.life other).steps + if jobId = other then 1 else 0 } := by
  have htask : ((s.jobs.set jobId job).get? other).map BackgroundJob.task =
      if jobId = other then some job.task else (s.jobs.get? other).map BackgroundJob.task := by
    by_cases hid : jobId = other
    · subst hid
      rw [if_pos rfl, PyDict.get?_set_self]
      rfl
    · rw [if_neg hid, PyDict.get?_set_of_ne _ _ hid]
  have hactive : decide (other ∈ s.backgrounds ++ [jobId]) =
      decide (other ∈ s.backgrounds ∨ other = jobId) :=
    decide_eq_decide.2 (by rw [List.mem_append, List.mem_singleton])
  unfold life
  rw [hwork, hbackgrounds, hjobs, hpoint, hhistory, List.countP_append, List.countP_append,
    List.countP_singleton, List.countP_singleton]
  dsimp only
  rw [htask, hactive]
  by_cases hid : jobId = other
  · rw [if_pos hid, if_pos hid, if_pos (show CoreOperation.stepsOf other
      (CoreOperation.backgroundStep jobId) = true from decide_eq_true hid)]
    rfl
  · rw [if_neg hid, if_neg hid, if_neg (show ¬CoreOperation.stepsOf other
      (CoreOperation.backgroundStep jobId) = true from fun h => hid (of_decide_eq_true h))]
    rfl

/-- **A new job**: it is refused, or its agent has no other one. -/
theorem background_cases (client : ℕ) (jobId agentId : PyStr) (steps : List PyStr)
    (runtime now : ℚ) (hnew : jobId ∉ s.jobs.keys) :
    s.background client jobId agentId steps runtime now = s ∨
      ∃ s', s.background client jobId agentId steps runtime now = s' ∧
        s'.backgrounds = s.backgrounds ++ [jobId] ∧
        (∃ task : JobTask, task.New ∧ (s.life jobId).task = none ∧
          (s'.life jobId) = (s.life jobId).accept task) ∧
        s'.agentOf jobId = some agentId ∧
        (∀ other, jobId ≠ other → s'.life other = s.life other ∧
          s'.agentOf other = s.agentOf other) ∧
        ∀ other ∈ s.backgrounds, s.agentOf other ≠ some agentId := by
  unfold background
  dsimp only
  split_ifs with hrefused
  · exact Or.inl rfl
  push Not at hrefused
  obtain ⟨hlength, -, -, -, -, -, -, hblocked, -, hadmits⟩ := hrefused
  obtain ⟨job, hjob⟩ : ∃ job : BackgroundJob, job =
      { client, epoch := s.epoch client, agentId, steps := steps.map PyStr.strip, index := 0
        cancelled := false, state := JobState.queued, deadline := now + runtime
        lastResult := [], deliveryFailed := false } := ⟨_, rfl⟩
  rw [← hjob]
  -- The queue was asked before the job was made, so it does not refuse the first step.
  have hsubmit : (s.submit OperationKind.background (CoreOperation.backgroundStep jobId)
      false).scheduler.queue = s.scheduler.queue ++
        [{ sequence := s.scheduler.sequence + 1, kind := OperationKind.background
           callback := CoreOperation.backgroundStep jobId }] := by
    unfold admits at hadmits
    unfold submit
    rcases PriorityScheduler.submit_cases s.scheduler OperationKind.background
      (CoreOperation.backgroundStep jobId) false with ⟨e, h, -⟩ | ⟨-, -, h⟩
    · rw [h] at hadmits
      exact absurd rfl hadmits
    · rw [h]
  have hnone : s.jobs.get? jobId = none := PyDict.get?_eq_none_iff.2 hnew
  -- The life of every job after the step, of which the conjuncts are read off.
  have hlife : ∀ other, NativeCore.life
      { s.submit OperationKind.background (CoreOperation.backgroundStep jobId) false with
        backgrounds := s.backgrounds ++ [jobId]
        jobs := s.jobs.set jobId job } other = _ :=
    life_enter (work_append hsubmit rfl) rfl rfl rfl rfl
  refine Or.inr ⟨_, rfl, rfl, ⟨job.task, ?_, ?_, ?_⟩, ?_, ?_, ?_⟩
  · rw [hjob]
    refine ⟨rfl, rfl, rfl, ?_⟩
    show 0 < (steps.map PyStr.strip).length
    rw [List.length_map]
    omega
  · show (s.jobs.get? jobId).map _ = none
    rw [hnone]
    rfl
  · rw [hlife, if_pos rfl, if_pos rfl, decide_eq_true (Or.inr rfl)]
    rfl
  · show ((s.jobs.set jobId job).get? jobId).map BackgroundJob.agentId = _
    rw [PyDict.get?_set_self, hjob]
    rfl
  · intro other hother
    refine ⟨?_, ?_⟩
    · rw [hlife, if_neg hother, if_neg hother]
      have hsame : decide (other ∈ s.backgrounds ∨ other = jobId) = (s.life other).active :=
        decide_eq_decide.2 ⟨fun h => h.resolve_right (Ne.symm hother), Or.inl⟩
      rw [hsame]
      rfl
    · show ((s.jobs.set jobId job).get? other).map BackgroundJob.agentId = _
      rw [PyDict.get?_set_of_ne _ _ hother]
      rfl
  · intro other hother hagent
    refine hblocked ?_
    unfold blocked
    exact List.any_eq_true.2 ⟨other, hother, decide_eq_true hagent⟩

/-! ### All jobs -/

/-- **The invariant of all jobs.** -/
structure Tracked (s : NativeCore) : Prop where
  nodup : s.backgrounds.Nodup
  sound : ∀ jobId, (s.life jobId).Sound
  distinct : ∀ i ∈ s.backgrounds, ∀ j ∈ s.backgrounds, s.agentOf i = s.agentOf j → i = j

theorem agentOf_eq (s : NativeCore) (jobId : PyStr) :
    s.agentOf jobId = (s.life jobId).task.map JobTask.agentId := by
  unfold agentOf life
  rw [Option.map_map]
  rfl

theorem Tracked.evolves (hs : s.Tracked) (h : Evolves s s') : s'.Tracked where
  nodup := hs.nodup.sublist h.backgrounds
  sound := fun jobId => (h.moves jobId).sound (hs.sound jobId)
  distinct := by
    have hagent : ∀ jobId, s'.agentOf jobId = s.agentOf jobId := by
      intro jobId
      rw [agentOf_eq, agentOf_eq]
      exact (h.moves jobId).keeps.1
    intro i hi j hj
    rw [hagent, hagent]
    exact hs.distinct i (h.backgrounds.subset hi) j (h.backgrounds.subset hj)

theorem Tracked.background (hs : s.Tracked) (client : ℕ) (jobId agentId : PyStr)
    (steps : List PyStr) (runtime now : ℚ) (hnew : jobId ∉ s.jobs.keys) :
    (s.background client jobId agentId steps runtime now).Tracked := by
  rcases background_cases client jobId agentId steps runtime now hnew with
    h | ⟨s', h, hbackgrounds, ⟨task, htask, hnone, hlife⟩, hagent, hother, hfree⟩
  · rw [h]
    exact hs
  rw [h]
  have hnot : jobId ∉ s.backgrounds :=
    of_decide_eq_false ((hs.sound jobId).unborn hnone).active
  have hne : ∀ other ∈ s.backgrounds, jobId ≠ other := fun other hmem heq => hnot (heq ▸ hmem)
  refine ⟨?_, ?_, ?_⟩
  · rw [hbackgrounds]
    exact List.nodup_append.2 ⟨hs.nodup, List.nodup_singleton _, fun other hmem j hj heq =>
      hne other hmem ((List.mem_singleton.1 hj).symm.trans heq.symm)⟩
  · intro other
    by_cases hid : jobId = other
    · subst hid
      rw [hlife]
      exact (hs.sound jobId).accept hnone htask
    · rw [(hother other hid).1]
      exact hs.sound other
  · rw [hbackgrounds]
    intro i hi j hj hij
    -- the agent of the new job has no other one
    rcases List.mem_append.1 hi with hi | hi
    · rcases List.mem_append.1 hj with hj | hj
      · rw [(hother i (hne i hi)).2, (hother j (hne j hj)).2] at hij
        exact hs.distinct i hi j hj hij
      · rw [List.mem_singleton.1 hj, hagent, (hother i (hne i hi)).2] at hij
        exact absurd hij (hfree i hi)
    · rcases List.mem_append.1 hj with hj | hj
      · rw [List.mem_singleton.1 hi, hagent, (hother j (hne j hj)).2] at hij
        exact absurd hij.symm (hfree j hj)
      · rw [List.mem_singleton.1 hi, List.mem_singleton.1 hj]

/-- **The CORE refines the lives of the jobs.**  Every step but the acceptance of a new job is a
sequence of moves of each job. -/
theorem evolves_step (hisolated : s.Isolated) (hs : s.Tracked) (i : Input)
    (hi : ∀ client jobId agentId steps runtime now,
      i ≠ Input.background client jobId agentId steps runtime now) : Evolves s (s.step i) := by
  cases i with
  | acquire client => exact evolves_acquire client
  | release client => exact evolves_release hisolated.running client
  | user client requestId text agentId => exact evolves_user client requestId text agentId
  | background client jobId agentId steps runtime now => exact absurd rfl (hi _ _ _ _ _ _)
  | cancelBackground client jobId =>
      show Evolves s (s.cancelBackground client jobId)
      unfold cancelBackground
      split_ifs
      · exact evolves_cancelBackgrounds hisolated.running client (some jobId)
      · exact Evolves.refl
  | hardware client eventId agentId task => exact evolves_hardware client eventId agentId task
  | offer mqtt agentId task => exact evolves_offer mqtt agentId task
  | advance env => exact evolves_advance hisolated hs.nodup hs.sound env

/-- **Every step keeps the invariant**, if the name of a new job is a new one. -/
theorem tracked_step (hisolated : s.Isolated) (hs : s.Tracked) {i : Input} (hi : s.NewNames i) :
    (s.step i).Tracked := by
  cases i with
  | background client jobId agentId steps runtime now =>
      exact hs.background client jobId agentId steps runtime now hi
  | acquire client => exact hs.evolves (evolves_acquire client)
  | release client => exact hs.evolves (evolves_release hisolated.running client)
  | user client requestId text agentId =>
      exact hs.evolves (evolves_user client requestId text agentId)
  | cancelBackground client jobId =>
      refine hs.evolves (evolves_step hisolated hs _ ?_)
      intro client' jobId' agentId steps runtime now h
      cases h
  | hardware client eventId agentId task =>
      exact hs.evolves (evolves_hardware client eventId agentId task)
  | offer mqtt agentId task => exact hs.evolves (evolves_offer mqtt agentId task)
  | advance env => exact hs.evolves (evolves_advance hisolated hs.nodup hs.sound env)

theorem tracked_init (h : s.Initial) : s.Tracked := by
  have hlife : ∀ jobId, (s.life jobId).task = none ∧ (s.life jobId).Unborn := by
    intro jobId
    obtain ⟨maxPending, hscheduler⟩ := h.scheduler
    have hwork : s.work = [] := by
      unfold work
      rw [h.point, hscheduler]
      rfl
    refine ⟨?_, ?_, ?_, ?_, ?_, ?_, ?_, ?_⟩
    · show (s.jobs.get? jobId).map _ = none
      rw [h.jobs]
      rfl
    · show decide (jobId ∈ s.backgrounds) = false
      rw [h.backgrounds]
      rfl
    · show s.work.countP _ = 0
      rw [hwork]
      rfl
    · show s.work.countP _ = 0
      rw [hwork]
      rfl
    · show s.point.stage jobId = _
      rw [h.point]
      rfl
    · show s.history.stranded.count jobId = 0
      rw [h.history]
      rfl
    · show (s.history.slices.reverse.filter _).map _ = []
      rw [h.history]
      rfl
    · show s.history.ended.filter _ = []
      rw [h.history]
      rfl
  refine ⟨?_, fun jobId => (hlife jobId).2.sound (hlife jobId).1, ?_⟩
  · rw [h.backgrounds]
    exact List.nodup_nil
  · rw [h.backgrounds]
    exact nofun

theorem tracked_of_reach (h : machine.Reach NewNames s) : s.Tracked :=
  h.invariant (fun _ => tracked_init) fun _ _ hreach hs hi =>
    tracked_step (isolated_of_reachable hreach.reachable) hs hi

/-- **No job is lost, and no step is done twice.**  The instructions of a job are run in their
order, each at most once.  An active job that is not cancelled has exactly one step that waits or is
run, unless a message about it could not be encoded; one that is cancelled has exactly one operation
that will end it, or that is ending it.  A job that is not active any more has ended exactly once,
after all its instructions if it is completed, and nothing will be done for it; and no two active
jobs have one agent. -/
theorem jobs_tracked (h : machine.Reach NewNames s) :
    (∀ id job, s.jobs.get? id = some job →
      (s.life id).ran <+: job.steps ∧
      (id ∈ s.backgrounds → (s.life id).ends = [] ∧
        (job.cancelled = false →
          (s.life id).steps + (s.life id).stage.stepping + s.history.stranded.count id = 1 ∧
            (s.life id).clears + (s.life id).stage.clearing = 0) ∧
        (job.cancelled = true →
          (s.life id).clears + (s.life id).stage.clearing = 1)) ∧
      (id ∉ s.backgrounds → (s.life id).stage = JobStage.resting ∧ (s.life id).clears = 0 ∧
        ∃ e, (s.life id).ends = [e] ∧
          (e.state = JobState.completed → (s.life id).ran = job.steps))) ∧
    ∀ i ∈ s.backgrounds, ∀ j ∈ s.backgrounds, s.agentOf i = s.agentOf j → i = j := by
  have hs := tracked_of_reach h
  refine ⟨fun id job hjob => ?_, hs.distinct⟩
  have hsound := hs.sound id
  have htask := life_task hjob
  refine ⟨?_, fun hmem => ⟨hsound.fresh (decide_eq_true hmem), ?_, ?_⟩, fun hmem => ?_⟩
  · obtain ⟨n, hran, -⟩ := hsound.ran htask
    rw [hran]
    exact List.take_prefix n job.steps
  · intro hcancelled
    obtain ⟨hclears, hsteps, -, -⟩ := hsound.live job.task htask (decide_eq_true hmem) hcancelled
    exact ⟨hsteps, hclears⟩
  · exact fun hcancelled => (hsound.dying job.task htask (decide_eq_true hmem) hcancelled).1
  · obtain ⟨hclears, hstage, -, hends⟩ := hsound.gone job.task htask (decide_eq_false hmem)
    exact ⟨hstage, hclears, hends⟩

/-- An input that starts no job. -/
def Input.startsNoJob : Input → Bool
  | Input.background _ _ _ _ _ _ => false
  | _ => true

theorem guarded_of_startsNoJob {l : List Input} (hl : l.all Input.startsNoJob = true) :
    machine.Guarded NewNames s l := by
  induction l generalizing s with
  | nil => trivial
  | cons i l ih =>
      rw [List.all_cons, Bool.and_eq_true] at hl
      refine ⟨?_, ih hl.2⟩
      cases i with
      | background client jobId agentId steps runtime now => cases hl.1
      | _ => trivial

/-- A job of two steps is accepted, and its first step is run.  While the second one waits, the
manager delegates a task to the same agent, which refuses it; then the client leaves. -/
def leftJob : List Input :=
  [Input.acquire 0,
    Input.background 0 (PyStr.ofString "job") (PyStr.ofString "agent_1")
      [PyStr.ofString "eins", PyStr.ofString "zwei"] 60 0] ++
    advances 4 (Except.ok none) ++ message 0 (Except.ok none) [delegate] ++ [Input.release 0] ++
    advances 8 (Except.ok none)

theorem reach_leftJob : machine.Reach NewNames (machine.exec newCore leftJob) :=
  Machine.Reach.leads (Machine.Reach.of_init initial_newCore) (Machine.leads_of_guarded
    ⟨trivial, List.not_mem_nil, guarded_of_startsNoJob (by decide)⟩)

/-- The manager is asked twice, and the job ends once, after one step. -/
theorem jobs_tracked_left :
    (machine.exec newCore leftJob).history.asked.length = 2 ∧
      (machine.exec newCore leftJob).history.slices =
        [(PyStr.ofString "job", PyStr.ofString "eins")] ∧
      ((machine.exec newCore leftJob).life (PyStr.ofString "job")).ran <+:
        [PyStr.ofString "eins", PyStr.ofString "zwei"] ∧
      ∃ e, ((machine.exec newCore leftJob).life (PyStr.ofString "job")).ends = [e] := by
  refine ⟨by decide +kernel, by decide +kernel, ?_⟩
  have hsteps : ((machine.exec newCore leftJob).jobs.get? (PyStr.ofString "job")).map
      BackgroundJob.steps = some [PyStr.ofString "eins", PyStr.ofString "zwei"] := by
    decide +kernel
  obtain ⟨job, hjob, hjobSteps⟩ := Option.map_eq_some_iff.1 hsteps
  obtain ⟨hran, -, hgone⟩ := (jobs_tracked reach_leftJob).1 (PyStr.ofString "job") job hjob
  obtain ⟨-, -, e, hends, -⟩ := hgone (by decide +kernel)
  rw [← hjobSteps]
  exact ⟨hran, e, hends⟩

end NativeCore
