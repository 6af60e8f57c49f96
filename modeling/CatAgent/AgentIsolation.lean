/-
**The conversations of the agents.**

An agent of the CORE is called for a task, by the client, the manager, a hardware event or the task
service, and for the steps of a background job.  A task has a conversation of its own.  The steps of
a job share one, and in the meantime the agent waits for the next of them: no task can be given to
it, and the job that it waits for goes on or is cleaned up.

Main definitions:

* `NativeAgent.Renewed` — the agent has been given a fresh conversation, or it has failed;
* `NativeCore.Parted` — every conversation that was used belongs to one task or to one job;
* `NativeCore.Calm` — a change that calls no agent.

Main results:

* `NativeCore.Parted.called` — a call of an agent keeps the conversations apart;
* `NativeCore.separate_step` — so does every step of the CORE;
* `NativeCore.agents_isolated` — **a conversation of an agent serves one task or one job**.
-/

import CatAgent.BackgroundJobs
import CatAgent.TextLines

set_option relaxedAutoImplicit false
set_option autoImplicit false

/-! ### One agent -/

namespace NativeAgent

open NativeCore (refuses)

variable {a a' : NativeAgent} {env : AgentEnv} {chat : ConversationChat}

/-- The conversation of the agent. -/
def resident (a : NativeAgent) : Option ℕ := a.chat.working.map Dialogue.clone

/-- The agent has a conversation, and no call of it is running. -/
structure Open (a : NativeAgent) : Prop where
  closed : a.closed = false
  chat : a.chat.closed = false
  resident : ∃ c, a.resident = some c ∧ c < a.chat.clones
  state : a.state ≠ AgentState.running

/-- The agent has been given a fresh conversation, or it has failed. -/
structure Renewed (a a' : NativeAgent) : Prop where
  opened : a'.Open
  clones : a.chat.clones ≤ a'.chat.clones
  waits : a'.state ≠ AgentState.waiting
  fresh : a'.state = AgentState.free → a'.resident = some a.chat.clones

theorem Open.sameClone (h : a.Open) (hsame : a.chat.SameClone chat) {state : AgentState}
    (hstate : state ≠ AgentState.running) : Open { a with chat, state } := by
  obtain ⟨hclosed, -, hclones, hworking⟩ := hsame
  obtain ⟨c, hc, hlt⟩ := h.resident
  exact ⟨h.closed, hclosed.trans h.chat, ⟨c, hworking.trans hc, lt_of_lt_of_eq hlt hclones.symm⟩,
    hstate⟩

/-- **What a reset makes of an agent.** -/
theorem Open.reset (h : a.Open) (hsame : a.chat.SameClone chat) (hclosed : a'.closed = a.closed) :
    Renewed a (a'.reset env chat).2 := by
  obtain ⟨hchat, -, hclones, hworking⟩ := hsame
  have hopen : chat.closed = false := hchat.trans h.chat
  have hclosed' : a'.closed = false := hclosed.trans h.closed
  have hfresh : ∃ c, some chat.clones = some c ∧ c < chat.clones + 1 :=
    ⟨chat.clones, rfl, Nat.lt_succ_self _⟩
  have hle : a.chat.clones ≤ chat.clones + 1 := by omega
  rcases @reset_cases env a' chat hopen with hr | ⟨message, chat', hr, rfl | rfl⟩
  · rw [hr]
    refine ⟨⟨hclosed', hopen, hfresh, fun h => ?_⟩, hle, fun h => ?_,
      fun _ => congrArg some hclones⟩
    · cases h
    · cases h
  · rw [hr]
    obtain ⟨c, hc, hlt⟩ := h.resident
    have hlt' : c < chat.clones + 1 := by omega
    refine ⟨⟨hclosed', hopen, ⟨c, hworking.trans hc, hlt'⟩, fun h => ?_⟩, hle, fun h => ?_,
      fun h => ?_⟩
    · cases h
    · cases h
    · cases h
  · rw [hr]
    refine ⟨⟨hclosed', hopen, hfresh, fun h => ?_⟩, hle, fun h => ?_, fun h => ?_⟩
    · cases h
    · cases h
    · cases h

/-- **A task** is refused, or a free agent is renewed after it. -/
theorem Open.run (h : a.Open) (task : PyStr) :
    (∃ e, a.run env task = (Except.error e, a) ∧ refuses (Except.error e) = true) ∨
      a.state = AgentState.free ∧ Renewed a (a.run env task).2 := by
  unfold NativeAgent.run
  by_cases hfree : a.closed = true ∨ a.state ≠ AgentState.free
  · rw [if_pos hfree]
    exact Or.inl ⟨_, rfl, rfl⟩
  rw [if_neg hfree]
  push Not at hfree
  by_cases hempty : (PyStr.strip task).isEmpty = true
  · rw [if_pos hempty]
    exact Or.inl ⟨_, rfl, rfl⟩
  rw [if_neg hempty]
  refine Or.inr ⟨hfree.2, ?_⟩
  have hsame := @sameClone_inference env task { a with state := AgentState.running }
  dsimp only
  generalize ({ a with state := AgentState.running } : NativeAgent).inference env task = r
    at hsame ⊢
  have hrenewed := @Open.reset a { a with state := AgentState.running } env r.2 h hsame rfl
  generalize ({ a with state := AgentState.running } : NativeAgent).reset env r.2 = r' at hrenewed ⊢
  obtain ⟨result, a'⟩ := r'
  cases result with
  | error e => exact hrenewed
  | ok u => exact hrenewed

/-- **A step of a job** is refused, or the agent is renewed after it, or it waits for the next one
with the same conversation. -/
theorem Open.runSlice (h : a.Open) (instruction : PyStr) (final : Bool) :
    (∃ e, a.runSlice env instruction final = (Except.error e, a) ∧
        refuses (Except.error e) = true ∧
        (PyStr.strip instruction ≠ [] → a.state ≠ AgentState.waiting)) ∨
      (a.state = AgentState.free ∨ a.state = AgentState.waiting) ∧
        (Renewed a (a.runSlice env instruction final).2 ∨
          ∃ outcome chat, a.chat.SameClone chat ∧
            a.runSlice env instruction final =
              (Except.ok outcome, { a with chat, state := AgentState.waiting }) ∧
            outcome.state = AgentState.waiting ∧ final = false) := by
  unfold NativeAgent.runSlice
  by_cases havailable : a.closed = true ∨
      ¬ (a.state = AgentState.free ∨ a.state = AgentState.waiting)
  · rw [if_pos havailable]
    refine Or.inl ⟨_, rfl, rfl, fun _ hwaiting => ?_⟩
    rcases havailable with hclosed | hstate
    · rw [h.closed] at hclosed
      cases hclosed
    · exact hstate (Or.inr hwaiting)
  rw [if_neg havailable]
  push Not at havailable
  by_cases hempty : (PyStr.strip instruction).isEmpty = true
  · rw [if_pos hempty]
    exact Or.inl ⟨_, rfl, rfl, fun hne => absurd (List.isEmpty_iff.1 hempty) hne⟩
  rw [if_neg hempty]
  refine Or.inr ⟨havailable.2, ?_⟩
  have hsame := @sameClone_inference env instruction { a with state := AgentState.running }
  dsimp only
  generalize ({ a with state := AgentState.running } : NativeAgent).inference env instruction = r
    at hsame ⊢
  obtain ⟨text, chat⟩ := r
  dsimp only
  by_cases hreset : (!text.isOk || final) = true
  · rw [if_pos hreset]
    have hrenewed := @Open.reset a { a with state := AgentState.running } env chat h hsame rfl
    generalize ({ a with state := AgentState.running } : NativeAgent).reset env chat = r'
      at hrenewed ⊢
    obtain ⟨result, a'⟩ := r'
    cases result with
    | error e => exact Or.inl hrenewed
    | ok u => exact Or.inl hrenewed
  · rw [if_neg hreset]
    cases text with
    | error message => exact absurd rfl hreset
    | ok text =>
        cases final with
        | true => exact absurd rfl hreset
        | false => exact Or.inr ⟨_, chat, hsame, rfl, rfl, rfl⟩

/-- **The suspended steps are discarded**: the agent does not wait afterwards. -/
theorem Open.abortSlices (h : a.Open) :
    (a.abortSlices env).2 = a ∧ a.state ≠ AgentState.waiting ∨
      a.state = AgentState.waiting ∧ Renewed a (a.abortSlices env).2 := by
  unfold NativeAgent.abortSlices
  rw [if_neg (by rw [h.closed]; decide)]
  cases hstate : a.state with
  | running => exact absurd hstate h.state
  | waiting => exact Or.inr ⟨rfl, h.reset (ConversationChat.sameClone_refl _) rfl⟩
  | free => exact Or.inl ⟨rfl, by decide⟩
  | failed => exact Or.inl ⟨rfl, by decide⟩

end NativeAgent

/-! ### The CORE -/

namespace NativeCore

open NativeAgent (Open)

variable {s s' s'' : NativeCore} {env : CoreEnv} {agentId jobId id : PyStr}

theorem agentOf_congr (h : s'.jobs = s.jobs) (id : PyStr) : s'.agentOf id = s.agentOf id := by
  unfold agentOf
  rw [h]

/-- What is known of one agent and of the conversations that it was asked in. -/
structure Kept (s : NativeCore) (agentId : PyStr) (a : NativeAgent) : Prop where
  opened : a.Open
  below : ∀ u ∈ s.history.uses, u.agentId = agentId → ∃ c, u.clone = some c ∧ c < a.chat.clones
  /-- The conversation of a free agent is unused. -/
  free : a.state = AgentState.free →
    ∀ u ∈ s.history.uses, u.agentId = agentId → u.clone ≠ a.resident
  /-- An agent waits for an active job, which has used its conversation alone. -/
  waiting : a.state = AgentState.waiting →
    ∃ jobId ∈ s.backgrounds, s.agentOf jobId = some agentId ∧
      ∀ u ∈ s.history.uses, u.agentId = agentId → u.clone = a.resident →
        u.user = CloneUser.job jobId

/-- **The conversations are kept apart.** -/
structure Parted (s : NativeCore) : Prop where
  agents : ∀ id r, s.agents.get? id = some r → s.Kept id r.agent
  once : ∀ u ∈ s.history.uses, ∀ v ∈ s.history.uses, u.agentId = v.agentId →
    u.clone = v.clone → u.user = v.user
  ended : ∀ e ∈ s.history.ended, e.agentState ≠ some AgentState.waiting

/-- The agent of the job does not wait. -/
def Idle (s : NativeCore) (jobId : PyStr) : Prop :=
  ∃ agentId, s.agentOf jobId = some agentId ∧
    ∀ r, s.agents.get? agentId = some r → r.agent.state ≠ AgentState.waiting

/-- An operation that cleans up knows the agent of its job. -/
def Named (s : NativeCore) : CoreOperation → Prop
  | CoreOperation.clearContext agentId jobId => s.agentOf jobId = some agentId
  | CoreOperation.clearTimedOut agentId jobId => s.agentOf jobId = some agentId
  | _ => True

/-- What holds where the thread stands: a step is for the agent of the job and is not empty, and a
job is about to end only while its agent does not wait. -/
def Placed (s : NativeCore) : CorePoint → Prop
  | CorePoint.slice jobId agentId instruction _ =>
      s.agentOf jobId = some agentId ∧ PyStr.strip instruction ≠ []
  | CorePoint.sliced jobId final ok _ => (ok && !final) = false → s.Idle jobId
  | CorePoint.aborted jobId _ _ => s.Idle jobId
  | _ => True

/-- No instruction of a job is empty. -/
def Worded (s : NativeCore) : Prop :=
  ∀ id job, s.jobs.get? id = some job → ∀ text ∈ job.steps, PyStr.strip text ≠ []

/-- **A change that calls no agent.** -/
structure Calm (s s' : NativeCore) : Prop where
  agents : ∀ id r', s'.agents.get? id = some r' →
    ∃ r, s.agents.get? id = some r ∧ r'.agent = r.agent
  uses : s'.history.uses = s.history.uses
  agentOf : ∀ id agentId, s.agentOf id = some agentId → s'.agentOf id = some agentId
  backgrounds : ∀ id ∈ s.backgrounds, id ∈ s'.backgrounds ∨ s'.Idle id
  ended : ∀ e ∈ s'.history.ended, e ∈ s.history.ended ∨ e.agentState ≠ some AgentState.waiting
  work : ∀ operation ∈ s'.work, operation ∈ s.work ∨ s'.Named operation
  steps : ∀ id job', s'.jobs.get? id = some job' →
    (∃ job, s.jobs.get? id = some job ∧ job'.steps = job.steps) ∨
      ∀ text ∈ job'.steps, PyStr.strip text ≠ []

theorem Calm.idle (h : Calm s s') (hidle : s.Idle id) : s'.Idle id := by
  obtain ⟨agentId, hagent, hstate⟩ := hidle
  refine ⟨agentId, h.agentOf id agentId hagent, fun r' hr' => ?_⟩
  obtain ⟨r, hr, hsame⟩ := h.agents agentId r' hr'
  rw [hsame]
  exact hstate r hr

theorem Calm.named (h : Calm s s') {operation : CoreOperation} (hnamed : s.Named operation) :
    s'.Named operation := by
  cases operation with
  | clearContext agentId jobId => exact h.agentOf jobId agentId hnamed
  | clearTimedOut agentId jobId => exact h.agentOf jobId agentId hnamed
  | _ => trivial

theorem Calm.placed (h : Calm s s') {point : CorePoint} (hplaced : s.Placed point) :
    s'.Placed point := by
  cases point with
  | slice jobId agentId instruction final =>
      exact ⟨h.agentOf jobId agentId hplaced.1, hplaced.2⟩
  | sliced jobId final ok text => exact fun hover => h.idle (hplaced hover)
  | aborted jobId timedOut error => exact h.idle hplaced
  | _ => trivial

theorem Calm.refl : Calm s s where
  agents := fun _ r' hr' => ⟨r', hr', rfl⟩
  uses := rfl
  agentOf := fun _ _ => id
  backgrounds := fun _ hmem => Or.inl hmem
  ended := fun _ hmem => Or.inl hmem
  work := fun _ hmem => Or.inl hmem
  steps := fun _ job' hjob' => Or.inl ⟨job', hjob', rfl⟩

theorem Calm.trans (h : Calm s s') (h' : Calm s' s'') : Calm s s'' where
  agents := by
    intro id r'' hr''
    obtain ⟨r', hr', hsame'⟩ := h'.agents id r'' hr''
    obtain ⟨r, hr, hsame⟩ := h.agents id r' hr'
    exact ⟨r, hr, hsame'.trans hsame⟩
  uses := h'.uses.trans h.uses
  agentOf := fun id agentId hagent => h'.agentOf id agentId (h.agentOf id agentId hagent)
  backgrounds := by
    intro id hmem
    rcases h.backgrounds id hmem with hmem' | hidle
    · exact h'.backgrounds id hmem'
    · exact Or.inr (h'.idle hidle)
  ended := by
    intro e hmem
    rcases h'.ended e hmem with hmem' | hstate
    · exact h.ended e hmem'
    · exact Or.inr hstate
  work := by
    intro operation hmem
    rcases h'.work operation hmem with hmem' | hnamed
    · rcases h.work operation hmem' with hold | hnamed
      · exact Or.inl hold
      · exact Or.inr (h'.named hnamed)
    · exact Or.inr hnamed
  steps := by
    intro id job'' hjob''
    rcases h'.steps id job'' hjob'' with ⟨job', hjob', hsteps'⟩ | hworded
    · rcases h.steps id job' hjob' with ⟨job, hjob, hsteps⟩ | hworded
      · exact Or.inl ⟨job, hjob, hsteps'.trans hsteps⟩
      · refine Or.inr ?_
        rw [hsteps']
        exact hworded
    · exact Or.inr hworded

/-- **A calm change keeps the conversations apart.** -/
theorem Parted.calm (hs : s.Parted) (h : Calm s s') : s'.Parted where
  agents := by
    intro id r' hr'
    obtain ⟨r, hr, hsame⟩ := h.agents id r' hr'
    have hkept := hs.agents id r hr
    rw [hsame]
    refine ⟨hkept.opened, ?_, ?_, fun hwaiting => ?_⟩
    · rw [h.uses]
      exact hkept.below
    · rw [h.uses]
      exact hkept.free
    · obtain ⟨jobId, hmem, hagent, huser⟩ := hkept.waiting hwaiting
      rw [h.uses]
      rcases h.backgrounds jobId hmem with hmem' | ⟨agentId, hagent', hstate⟩
      · exact ⟨jobId, hmem', h.agentOf jobId id hagent, huser⟩
      · -- the agent of a job that has ended does not wait
        rw [h.agentOf jobId id hagent] at hagent'
        cases hagent'
        have := hstate r' hr'
        rw [hsame] at this
        exact absurd hwaiting this
  once := by
    rw [h.uses]
    exact hs.once
  ended := by
    intro e hmem
    rcases h.ended e hmem with hmem' | hstate
    · exact hs.ended e hmem'
    · exact hstate

theorem Worded.calm (hs : s.Worded) (h : Calm s s') : s'.Worded := by
  intro id job' hjob'
  rcases h.steps id job' hjob' with ⟨job, hjob, hsteps⟩ | hworded
  · rw [hsteps]
    exact hs id job hjob
  · exact hworded

/-- **A call of an agent** for a user, in a conversation that no other one has used. -/
structure Asks (s s' : NativeCore) (agentId : PyStr) (a : NativeAgent) (user : CloneUser) :
    Prop where
  uses : ∀ u ∈ s'.history.uses, u ∈ s.history.uses ∨ u = { agentId, clone := a.resident, user }
  mine : ∀ u ∈ s.history.uses, u.agentId = agentId → u.clone = a.resident → u.user = user
  backgrounds : s'.backgrounds = s.backgrounds
  jobs : s'.jobs = s.jobs
  ended : s'.history.ended = s.history.ended

variable {a a' : NativeAgent} {user : CloneUser}

/-- The new question is asked in the conversation that the agent has. -/
theorem Asks.below (h : Asks s s' agentId a user) (hkept : s.Kept agentId a) :
    ∀ u ∈ s'.history.uses, u.agentId = agentId → ∃ c, u.clone = some c ∧ c < a.chat.clones := by
  intro u hu hagent
  rcases h.uses u hu with hold | rfl
  · exact hkept.below u hold hagent
  · exact hkept.opened.resident

/-- The agent is renewed: its fresh conversation has a number that no question has seen. -/
theorem Asks.renewed (h : Asks s s' agentId a user) (hkept : s.Kept agentId a)
    (hrenewed : NativeAgent.Renewed a a') : s'.Kept agentId a' := by
  refine ⟨hrenewed.opened, fun u hu hagent => ?_, fun hfree u hu hagent => ?_,
    fun hwaiting => absurd hwaiting hrenewed.waits⟩
  · obtain ⟨c, hc, hlt⟩ := h.below hkept u hu hagent
    exact ⟨c, hc, lt_of_lt_of_le hlt hrenewed.clones⟩
  · obtain ⟨c, hc, hlt⟩ := h.below hkept u hu hagent
    rw [hc, hrenewed.fresh hfree]
    exact fun heq => absurd (Option.some.inj heq) (Nat.ne_of_lt hlt)

/-- The agent waits for the next step of the job, in the conversation that it was asked in. -/
theorem Asks.waits (h : Asks s s' agentId a (CloneUser.job jobId)) (hkept : s.Kept agentId a)
    {chat : ConversationChat} (hsame : a.chat.SameClone chat) (hmem : jobId ∈ s.backgrounds)
    (hagent : s.agentOf jobId = some agentId) :
    s'.Kept agentId { a with chat, state := AgentState.waiting } := by
  obtain ⟨-, -, hclones, hworking⟩ := id hsame
  refine ⟨hkept.opened.sameClone hsame (fun h => ?_), fun u hu hu' => ?_, fun h => ?_,
    fun _ => ⟨jobId, ?_, ?_, fun u hu hu' hclone => ?_⟩⟩
  · cases h
  · obtain ⟨c, hc, hlt⟩ := h.below hkept u hu hu'
    exact ⟨c, hc, lt_of_lt_of_eq hlt hclones.symm⟩
  · cases h
  · rw [h.backgrounds]
    exact hmem
  · exact (agentOf_congr h.jobs jobId).trans hagent
  · rcases h.uses u hu with hold | rfl
    · exact h.mine u hold hu' (hclone.trans hworking)
    · rfl

/-- The new question is not one of another agent. -/
theorem Asks.other (h : Asks s s' agentId a user) (hid : agentId ≠ id) (hkept : s.Kept id a') :
    s'.Kept id a' := by
  have hold : ∀ u ∈ s'.history.uses, u.agentId = id → u ∈ s.history.uses := by
    intro u hu hagent
    rcases h.uses u hu with hold | rfl
    · exact hold
    · exact absurd hagent hid
  refine ⟨hkept.opened, fun u hu hagent => hkept.below u (hold u hu hagent) hagent,
    fun hfree u hu hagent => hkept.free hfree u (hold u hu hagent) hagent, fun hwaiting => ?_⟩
  obtain ⟨jobId, hmem, hjob, huser⟩ := hkept.waiting hwaiting
  refine ⟨jobId, ?_, (agentOf_congr h.jobs jobId).trans hjob,
    fun u hu hagent => huser u (hold u hu hagent) hagent⟩
  rw [h.backgrounds]
  exact hmem

theorem Asks.once (h : Asks s s' agentId a user) (hs : s.Parted) : ∀ u ∈ s'.history.uses,
    ∀ v ∈ s'.history.uses, u.agentId = v.agentId → u.clone = v.clone → u.user = v.user := by
  intro u hu v hv hagent hclone
  rcases h.uses u hu with hu | rfl
  · rcases h.uses v hv with hv | rfl
    · exact hs.once u hu v hv hagent hclone
    · exact h.mine u hu hagent hclone
  · rcases h.uses v hv with hv | rfl
    · exact (h.mine v hv hagent.symm hclone.symm).symm
    · rfl

/-- **A call keeps the conversations apart**, if it leaves its own agent in order. -/
theorem Parted.called (hs : s.Parted) {r' : AgentRecord} (h : Asks s s' agentId a user)
    (hagents : s'.agents = s.agents.set agentId r') (hkept : s'.Kept agentId r'.agent) :
    s'.Parted := by
  refine ⟨fun id r'' hr'' => ?_, h.once hs, by rw [h.ended]; exact hs.ended⟩
  rw [hagents] at hr''
  by_cases hid : agentId = id
  · subst hid
    rw [PyDict.get?_set_self] at hr''
    cases hr''
    exact hkept
  · rw [PyDict.get?_set_of_ne _ _ hid] at hr''
    exact h.other hid (hs.agents id r'' hr'')

/-! ### What calls no agent -/

/-- The jobs, the agents and what is recorded of them stay; an operation may leave the thread. -/
theorem calm_of_eq (hagents : s'.agents = s.agents) (huses : s'.history.uses = s.history.uses)
    (hjobs : s'.jobs = s.jobs) (hbackgrounds : s'.backgrounds = s.backgrounds)
    (hended : s'.history.ended = s.history.ended)
    (hwork : ∀ operation ∈ s'.work, operation ∈ s.work) : Calm s s' where
  agents := by
    intro id r' hr'
    rw [hagents] at hr'
    exact ⟨r', hr', rfl⟩
  uses := huses
  agentOf := fun id _ hagent => (agentOf_congr hjobs id).trans hagent
  backgrounds := by
    intro id hmem
    rw [hbackgrounds]
    exact Or.inl hmem
  ended := by
    rw [hended]
    exact fun _ => Or.inl
  work := fun operation hmem => Or.inl (hwork operation hmem)
  steps := by
    intro id job' hjob'
    rw [hjobs] at hjob'
    exact Or.inl ⟨job', hjob', rfl⟩

/-- The thread goes on inside its operation, or leaves it. -/
theorem work_subset (hqueue : s'.scheduler.queue = s.scheduler.queue)
    (hpoint : s'.point.entered? = none) : ∀ operation ∈ s'.work, operation ∈ s.work := by
  intro operation hmem
  rw [work_of_off hpoint, hqueue] at hmem
  exact List.mem_append_right _ hmem

theorem calm_done : Calm s s.done :=
  calm_of_eq rfl rfl rfl rfl rfl (work_subset rfl rfl)

theorem calm_goto {point : CorePoint} (hpoint : point.entered? = none) : Calm s (s.goto point) :=
  calm_of_eq rfl rfl rfl rfl rfl (work_subset rfl hpoint)

theorem calm_submit {kind : OperationKind} {operation : CoreOperation} {continuation : Bool}
    (hnamed : s.Named operation) : Calm s (s.submit kind operation continuation) := by
  refine ⟨fun _ r' hr' => ⟨r', hr', rfl⟩, rfl, fun _ _ => id, fun _ => Or.inl, fun _ => Or.inl,
    fun operation' hmem => ?_, fun _ job' hjob' => Or.inl ⟨job', hjob', rfl⟩⟩
  rcases PriorityScheduler.submit_cases s.scheduler kind operation continuation with
    ⟨e, hsubmit, -⟩ | ⟨-, -, hsubmit⟩
  · have hqueue : (s.submit kind operation continuation).scheduler.queue = s.scheduler.queue := by
      unfold submit
      rw [hsubmit]
    unfold work at hmem
    rw [hqueue] at hmem
    exact Or.inl hmem
  · have hqueue : (s.submit kind operation continuation).scheduler.queue = s.scheduler.queue ++
        [{ sequence := s.scheduler.sequence + 1, kind, callback := operation }] := by
      unfold submit
      rw [hsubmit]
    rw [work_append hqueue rfl] at hmem
    rcases List.mem_append.1 hmem with hold | hnew
    · exact Or.inl hold
    · rw [List.mem_singleton.1 hnew]
      exact Or.inr hnamed

theorem agentOf_modifyJob {f : BackgroundJob → BackgroundJob}
    (hf : ∀ job, (f job).agentId = job.agentId) (jobId : PyStr) :
    (s.modifyJob id f).agentOf jobId = s.agentOf jobId := by
  unfold agentOf modifyJob
  by_cases hid : id = jobId
  · subst hid
    rw [PyDict.get?_modify_self, Option.map_map]
    refine Option.map_congr fun job _ => hf job
  · rw [PyDict.get?_modify_of_ne _ _ hid]

theorem steps_modifyJob {f : BackgroundJob → BackgroundJob}
    (hf : ∀ job, (f job).steps = job.steps) {jobId : PyStr} {job' : BackgroundJob}
    (h : (s.modifyJob id f).jobs.get? jobId = some job') :
    ∃ job, s.jobs.get? jobId = some job ∧ job'.steps = job.steps := by
  unfold modifyJob at h
  by_cases hid : id = jobId
  · subst hid
    rw [PyDict.get?_modify_self] at h
    obtain ⟨job, hjob, rfl⟩ := Option.map_eq_some_iff.1 h
    exact ⟨job, hjob, hf job⟩
  · rw [PyDict.get?_modify_of_ne _ _ hid] at h
    exact ⟨job', h, rfl⟩

theorem calm_modifyJob {f : BackgroundJob → BackgroundJob}
    (hagent : ∀ job, (f job).agentId = job.agentId) (hsteps : ∀ job, (f job).steps = job.steps) :
    Calm s (s.modifyJob id f) where
  agents := fun _ r' hr' => ⟨r', hr', rfl⟩
  uses := rfl
  agentOf := fun jobId _ h => (agentOf_modifyJob hagent jobId).trans h
  backgrounds := fun _ => Or.inl
  ended := fun _ => Or.inl
  work := fun _ => Or.inl
  steps := fun _ _ hjob' => Or.inl (steps_modifyJob hsteps hjob')

theorem calm_mark {operation : CoreOperation} (hnamed : s.Named operation) :
    Calm s (s.mark id operation) := by
  have hmodify : Calm s (s.modifyJob id fun job =>
      { job with cancelled := true, state := JobState.cancelling }) :=
    calm_modifyJob (fun _ => rfl) fun _ => rfl
  exact hmodify.trans (calm_submit (hmodify.named hnamed))

theorem agentOf_of_get? {job : BackgroundJob} (h : s.jobs.get? id = some job) :
    s.agentOf id = some job.agentId := by
  unfold agentOf
  rw [h]
  rfl

theorem calm_cancelOne (client : ℕ) (id : PyStr) : Calm s (s.cancelOne client id) := by
  unfold cancelOne
  cases hactive : s.activeJob id with
  | none => exact Calm.refl
  | some job =>
      dsimp only
      split_ifs
      · exact Calm.refl
      · exact calm_mark (agentOf_of_get? (activeJob_eq_some hactive).2)

theorem calm_cancelBackgrounds (client : ℕ) (jobId : Option PyStr) :
    Calm s (s.cancelBackgrounds client jobId) := by
  unfold cancelBackgrounds
  generalize s.backgrounds.filter _ = l
  induction l generalizing s with
  | nil => exact Calm.refl
  | cons id l ih => exact (calm_cancelOne client id).trans ih

theorem calm_sendBackgroundEvent (id : PyStr) (outcome : SendOutcome) :
    Calm s (s.sendBackgroundEvent id outcome).2 := by
  unfold sendBackgroundEvent
  cases s.jobs.get? id with
  | none => exact Calm.refl
  | some job =>
      dsimp only
      split_ifs
      · exact Calm.refl
      · exact calm_cancelBackgrounds _ _
      · cases outcome with
        | sent => exact Calm.refl
        | osError =>
            have hmodify : Calm s (s.modifyJob id fun job => { job with deliveryFailed := true }) :=
              calm_modifyJob (fun _ => rfl) fun _ => rfl
            exact hmodify.trans (calm_cancelBackgrounds _ _)
        | unicodeError => exact Calm.refl

/-- **A job ends only while its agent does not wait.** -/
theorem calm_finishBackground (hidle : s.Idle id) (state : JobState) (result : PyStr) :
    Calm s (s.finishBackground id state result) := by
  obtain ⟨agentId, hagent, hstate⟩ := hidle
  have hagentOf : ∀ jobId, (s.finishBackground id state result).agentOf jobId = s.agentOf jobId :=
    agentOf_modifyJob (s := s) (f := fun job =>
      { job with state, lastResult := result.take 2048 }) fun _ => rfl
  refine ⟨fun _ r' hr' => ⟨r', hr', rfl⟩, rfl, fun jobId _ h => (hagentOf jobId).trans h,
    fun jobId hmem => ?_, fun e hmem => ?_, fun _ => Or.inl, fun jobId job' hjob' => ?_⟩
  · by_cases hid : jobId = id
    · rw [hid]
      exact Or.inr ⟨agentId, (hagentOf id).trans hagent, hstate⟩
    · exact Or.inl ((List.mem_erase_of_ne hid).2 hmem)
  · rcases List.mem_cons.1 hmem with rfl | hold
    · refine Or.inr fun hwaiting => ?_
      dsimp only at hwaiting
      obtain ⟨job, hjob, hr⟩ := Option.bind_eq_some_iff.1 hwaiting
      obtain ⟨r, hr, hwaits⟩ := Option.map_eq_some_iff.1 hr
      rw [agentOf_of_get? hjob] at hagent
      cases hagent
      exact hstate r hr hwaits
    · exact Or.inl hold
  · exact Or.inl (steps_modifyJob (f := fun job =>
      { job with state, lastResult := result.take 2048 }) (fun _ => rfl) hjob')

theorem calm_terminate (hidle : s.Idle id) (env : CoreEnv) (state : JobState) (result : PyStr) :
    Calm s (s.terminate env id state result) :=
  (calm_finishBackground hidle state result).trans (calm_sendBackgroundEvent _ _)

/-- **A new job**: its steps are not empty. -/
theorem calm_background (client : ℕ) (jobId agentId : PyStr) (steps : List PyStr)
    (runtime now : ℚ) (hnew : jobId ∉ s.jobs.keys) :
    Calm s (s.background client jobId agentId steps runtime now) := by
  unfold background
  dsimp only
  split_ifs with hrefused
  · exact Calm.refl
  push Not at hrefused
  obtain ⟨-, -, hvalid, -⟩ := hrefused
  refine (@calm_submit s OperationKind.background
    (CoreOperation.backgroundStep jobId) false trivial).trans ?_
  have hnone : s.jobs.get? jobId = none := PyDict.get?_eq_none_iff.2 hnew
  refine ⟨fun _ r' hr' => ⟨r', hr', rfl⟩, rfl, fun id _ hagent => ?_,
    fun _ hmem => Or.inl (List.mem_append_left _ hmem), fun _ => Or.inl, fun _ => Or.inl,
    fun id job' hjob' => ?_⟩
  · by_cases hid : jobId = id
    · subst hid
      unfold agentOf at hagent
      rw [show (s.submit OperationKind.background (CoreOperation.backgroundStep jobId)
        false).jobs.get? jobId = none from hnone] at hagent
      cases hagent
    · unfold agentOf
      dsimp only
      rw [PyDict.get?_set_of_ne _ _ hid]
      exact hagent
  · by_cases hid : jobId = id
    · subst hid
      dsimp only at hjob'
      rw [PyDict.get?_set_self] at hjob'
      cases hjob'
      refine Or.inr fun text htext => ?_
      obtain ⟨text', htext', rfl⟩ := List.mem_map.1 htext
      have hall := List.all_eq_true.1 (Bool.eq_true_of_not_eq_false hvalid) text' htext'
      unfold validStep at hall
      rw [PyStr.strip_strip]
      exact of_decide_eq_true (Bool.and_eq_true_iff.1 (Bool.and_eq_true_iff.1 hall).1).1
    · dsimp only at hjob'
      rw [PyDict.get?_set_of_ne _ _ hid] at hjob'
      exact Or.inl ⟨job', hjob', rfl⟩

/-! ### The calls of the agents -/

/-- A call that the agent has refused. -/
theorem calm_refused {r r' : AgentRecord} (hr : s.agents.get? agentId = some r)
    (hsame : r'.agent = r.agent) :
    Calm s { s with agents := s.agents.set agentId r' } := by
  refine ⟨fun id r'' hr'' => ?_, rfl, fun _ _ => id, fun _ => Or.inl, fun _ => Or.inl,
    fun _ => Or.inl, fun _ job' hjob' => Or.inl ⟨job', hjob', rfl⟩⟩
  dsimp only at hr''
  by_cases hid : agentId = id
  · subst hid
    rw [PyDict.get?_set_self] at hr''
    cases hr''
    exact ⟨r, hr, hsame⟩
  · rw [PyDict.get?_set_of_ne _ _ hid] at hr''
    exact ⟨r'', hr'', rfl⟩

/-- The agent of the job has been called, and does not wait. -/
theorem idle_set {r' : AgentRecord} (hagents : s'.agents = s.agents.set agentId r')
    (hjobs : s'.jobs = s.jobs) (hagent : s.agentOf jobId = some agentId)
    (hstate : r'.agent.state ≠ AgentState.waiting) : s'.Idle jobId := by
  refine ⟨agentId, (agentOf_congr hjobs jobId).trans hagent, fun r'' hr'' => ?_⟩
  rw [hagents, PyDict.get?_set_self] at hr''
  cases hr''
  exact hstate

/-- The agent of the job does not exist. -/
theorem idle_of_none (hagent : s.agentOf jobId = some agentId)
    (hnone : s.agents.get? agentId = none) : s.Idle jobId := by
  refine ⟨agentId, hagent, fun r hr => ?_⟩
  rw [hnone] at hr
  cases hr

/-- The question is noted, or not. -/
theorem asks_noteUse {refused : Prop} [Decidable refused] {r : AgentRecord}
    {agents : PyDict PyStr AgentRecord}
    (hmine : ∀ u ∈ s.history.uses, u.agentId = agentId → u.clone = r.agent.resident →
      u.user = user) :
    Asks s { (if refused then s else s.noteUse agentId r user) with agents } agentId r.agent
      user := by
  split_ifs
  · exact ⟨fun _ => Or.inl, hmine, rfl, rfl, rfl⟩
  · exact ⟨fun _ hu => (List.mem_cons.1 hu).symm, hmine, rfl, rfl, rfl⟩

/-- **A task** is given to a free agent, in a conversation that nobody has used. -/
theorem parted_runAgent (hs : s.Parted) (env : CoreEnv) (agentId task : PyStr) :
    (s.runAgent env agentId task).2.Parted := by
  unfold runAgent
  cases hr : s.agents.get? agentId with
  | none => exact hs
  | some r =>
      dsimp only
      rcases (hs.agents agentId r hr).opened.run task with
        ⟨e, hrun, hrefuses⟩ | ⟨hfree, hrenewed⟩
      · have hagent : (r.step (NativeAgent.Call.run env.native task)).agent = r.agent :=
          congrArg Prod.snd hrun
        rw [hrun, if_pos hrefuses]
        exact hs.calm (calm_refused hr hagent)
      · have hmine : ∀ u ∈ s.history.uses, u.agentId = agentId → u.clone = r.agent.resident →
            u.user = CloneUser.task s.history.uses.length := fun u hu hagent hclone =>
          absurd hclone ((hs.agents agentId r hr).free hfree u hu hagent)
        refine hs.called (asks_noteUse hmine) rfl ?_
        exact (asks_noteUse hmine).renewed (hs.agents agentId r hr) hrenewed

/-- **A step of a job** is given to its agent, which is free, or waits for this job. -/
theorem parted_runSlice (hs : s.Parted)
    (hdistinct : ∀ i ∈ s.backgrounds, ∀ j ∈ s.backgrounds, s.agentOf i = s.agentOf j → i = j)
    (hmem : jobId ∈ s.backgrounds) (hagent : s.agentOf jobId = some agentId) {instruction : PyStr}
    (hne : PyStr.strip instruction ≠ []) (env : CoreEnv) (final : Bool) :
    (s.runSlice env jobId agentId instruction final).2.Parted ∧
      ((∃ outcome, (s.runSlice env jobId agentId instruction final).1 = Except.ok outcome ∧
          outcome.state = AgentState.waiting ∧ final = false) ∨
        (s.runSlice env jobId agentId instruction final).2.Idle jobId) := by
  unfold runSlice
  cases hr : s.agents.get? agentId with
  | none => exact ⟨hs, Or.inr (idle_of_none hagent hr)⟩
  | some r =>
      have hkept := hs.agents agentId r hr
      dsimp only
      rcases hkept.opened.runSlice instruction final with
        ⟨e, hrun, hrefuses, hwaits⟩ | ⟨hstate, hafter⟩
      · have hsame : (r.step (NativeAgent.Call.runSlice env.native instruction final)).agent =
            r.agent := congrArg Prod.snd hrun
        -- the step is not empty, so the agent was refused because it has failed
        rw [hrun, if_pos hrefuses]
        exact ⟨hs.calm (calm_refused hr hsame),
          Or.inr (idle_set rfl rfl hagent (by rw [hsame]; exact hwaits hne))⟩
      have hmine : ∀ u ∈ s.history.uses, u.agentId = agentId → u.clone = r.agent.resident →
          u.user = CloneUser.job jobId := by
        intro u hu hagent' hclone
        rcases hstate with hfree | hwaiting
        · exact absurd hclone (hkept.free hfree u hu hagent')
        · -- the agent waits for an active job, and this one is the only one of its agent
          obtain ⟨other, hother, hagentOther, huser⟩ := hkept.waiting hwaiting
          rw [hdistinct jobId hmem other hother (hagent.trans hagentOther.symm)]
          exact huser u hu hagent' hclone
      rcases hafter with hrenewed | ⟨outcome, chat, hsame, hrun, houtcome, hfinal⟩
      · refine ⟨hs.called (asks_noteUse hmine) rfl ?_, Or.inr ?_⟩
        · exact (asks_noteUse hmine).renewed hkept hrenewed
        · split_ifs
          · exact idle_set (s := s) rfl rfl hagent hrenewed.waits
          · exact idle_set (s := s) rfl rfl hagent hrenewed.waits
      · have hafter' : (r.step (NativeAgent.Call.runSlice env.native instruction final)).agent =
            { r.agent with chat, state := AgentState.waiting } := congrArg Prod.snd hrun
        refine ⟨hs.called (asks_noteUse hmine) rfl ?_,
          Or.inl ⟨outcome, by rw [hrun]; rfl, houtcome, hfinal⟩⟩
        rw [hafter']
        exact (asks_noteUse hmine).waits hkept hsame hmem hagent

/-- **The clean-up after a job.** -/
theorem parted_abortSlices (hs : s.Parted) (hagent : s.agentOf jobId = some agentId)
    (env : CoreEnv) :
    (s.abortSlices env agentId).2.Parted ∧ (s.abortSlices env agentId).2.Idle jobId := by
  unfold abortSlices
  cases hr : s.agents.get? agentId with
  | none => exact ⟨hs, idle_of_none hagent hr⟩
  | some r =>
      have hkept := hs.agents agentId r hr
      dsimp only
      rcases hkept.opened.abortSlices with ⟨hsame, hstate⟩ | ⟨hwaiting, hrenewed⟩
      · have hagent' : (r.step (NativeAgent.Call.abortSlices env.native)).agent = r.agent := hsame
        exact ⟨hs.calm (calm_refused hr hagent'),
          idle_set (s := s) rfl rfl hagent (by rw [hagent']; exact hstate)⟩
      · obtain ⟨other, -, -, huser⟩ := hkept.waiting hwaiting
        have hasks : ∀ agents, Asks s { s with agents } agentId r.agent (CloneUser.job other) :=
          fun _ => ⟨fun _ => Or.inl, huser, rfl, rfl, rfl⟩
        exact ⟨hs.called (hasks _) rfl ((hasks _).renewed hkept hrenewed),
          idle_set (s := s) rfl rfl hagent hrenewed.waits⟩

/-! ### The thread and its clients -/

/-- **The invariant of the agents**, with what it rests on. -/
structure Separate (s : NativeCore) : Prop where
  parted : s.Parted
  named : ∀ operation ∈ s.work, s.Named operation
  worded : s.Worded
  placed : s.Placed s.point

theorem Separate.calm (hs : s.Separate) (h : Calm s s') (hplaced : s'.Placed s'.point) :
    s'.Separate where
  parted := hs.parted.calm h
  named := by
    intro operation hmem
    rcases h.work operation hmem with hold | hnamed
    · exact h.named (hs.named operation hold)
    · exact hnamed
  worded := hs.worded.calm h
  placed := hplaced

/-- The thread stays where it is. -/
theorem Separate.aside (hs : s.Separate) (h : Calm s s') (hpoint : s'.point = s.point) :
    s'.Separate := by
  refine hs.calm h ?_
  rw [hpoint]
  exact h.placed hs.placed

/-- An agent has been called, and the thread has not gone on. -/
theorem Separate.called (hs : s.Separate) (hparted : s'.Parted) (hplain : Plain s s')
    (hpoint : s'.point = s.point) (hplaced : s'.Placed s.point) : s'.Separate := by
  have hagentOf := agentOf_congr hplain.jobs
  have hwork : s'.work = s.work := by
    unfold work
    rw [hpoint, hplain.queue]
  refine ⟨hparted, fun operation hmem => ?_, fun id job hjob => ?_, by rw [hpoint]; exact hplaced⟩
  · rw [hwork] at hmem
    have hnamed := hs.named operation hmem
    cases operation with
    | clearContext agentId jobId => exact (hagentOf jobId).trans hnamed
    | clearTimedOut agentId jobId => exact (hagentOf jobId).trans hnamed
    | _ => trivial
  · rw [hplain.jobs] at hjob
    exact hs.worded id job hjob

theorem point_runSlice (env : CoreEnv) (jobId agentId instruction : PyStr) (final : Bool) :
    (s.runSlice env jobId agentId instruction final).2.point = s.point := by
  unfold runSlice
  cases s.agents.get? agentId with
  | none => rfl
  | some r =>
      dsimp only
      split_ifs
      · rfl
      · rfl

theorem point_abortSlices (env : CoreEnv) (agentId : PyStr) :
    (s.abortSlices env agentId).2.point = s.point := by
  unfold abortSlices
  cases s.agents.get? agentId with
  | none => rfl
  | some r => rfl

/-- A task is done. -/
theorem separate_runAgent (hs : s.Separate) (hpoint : ∀ t : NativeCore, t.Placed s.point)
    (env : CoreEnv) (agentId task : PyStr) : (s.runAgent env agentId task).2.Separate :=
  hs.called (parted_runAgent hs.parted env agentId task) (plain_runAgent env agentId task)
    (point_runAgent env agentId task) (hpoint _)

/-- **The callback of an operation.** -/
theorem separate_enter (hs : s.Separate) {operation : CoreOperation}
    (hpoint : s.point = CorePoint.entered operation) (env : CoreEnv) :
    (s.enter env operation).Separate := by
  have hnamed : s.Named operation := by
    refine hs.named operation ?_
    rw [work_of_entered hpoint]
    exact List.mem_cons_self
  -- Both operations that clean up abort the slices of the agent and leave it idle.
  have hclear : ∀ agentId jobId timedOut, s.agentOf jobId = some agentId →
      ((s.abortSlices env agentId).2.goto
        (CorePoint.aborted jobId timedOut (s.abortSlices env agentId).1)).Separate := by
    intro agentId jobId timedOut hagent
    obtain ⟨hparted, hidle⟩ := parted_abortSlices hs.parted hagent env
    have hcalled : (s.abortSlices env agentId).2.Separate := by
      refine hs.called hparted (plain_abortSlices env agentId) (point_abortSlices env agentId) ?_
      rw [hpoint]
      trivial
    have hgoto : Calm (s.abortSlices env agentId).2 ((s.abortSlices env agentId).2.goto
        (CorePoint.aborted jobId timedOut (s.abortSlices env agentId).1)) := calm_goto rfl
    exact hcalled.calm hgoto (hgoto.idle hidle)
  cases operation with
  | releaseSession =>
      exact hs.calm (calm_of_eq rfl rfl rfl rfl rfl (work_subset rfl rfl)) trivial
  | clearContext agentId jobId => exact hclear agentId jobId false hnamed
  | clearTimedOut agentId jobId => exact hclear agentId jobId true hnamed
  | modelWorker session requestId text agentId =>
      unfold enter enterModelWorker
      dsimp only
      split_ifs
      · exact hs.calm calm_done trivial
      · cases agentId with
        | none => exact hs.calm (calm_of_eq rfl rfl rfl rfl rfl (work_subset rfl rfl)) trivial
        | some agentId =>
            exact hs.calm (calm_of_eq rfl rfl rfl rfl rfl (work_subset rfl rfl)) trivial
  | hardwareProbe session eventId agentId task =>
      unfold enter
      dsimp only
      split_ifs
      · exact hs.calm (calm_goto rfl) trivial
      · exact hs.calm calm_done trivial
  | execute agentId task =>
      unfold enter enterExecute
      dsimp only
      split_ifs
      · exact hs.calm (calm_goto rfl) trivial
      · exact hs.calm (calm_of_eq rfl rfl rfl rfl rfl (work_subset rfl rfl)) trivial
  | backgroundStep jobId =>
      unfold enter enterBackgroundStep
      dsimp only
      cases hactive : s.activeJob jobId with
      | none => exact hs.calm calm_done trivial
      | some job =>
          have hjob := (activeJob_eq_some hactive).2
          have hagent := agentOf_of_get? hjob
          dsimp only
          by_cases hcancelled : job.cancelled = true
          · rw [if_pos hcancelled]
            exact hs.calm calm_done trivial
          rw [if_neg hcancelled]
          cases hnext : job.steps[job.index]? with
          | none => exact hs.calm calm_done trivial
          | some instruction =>
              dsimp only
              -- Past its deadline a job is marked for cleaning instead of being run.
              by_cases hlate : job.deadline ≤ env.now
              · rw [if_pos hlate]
                have hnamed : s.Named (CoreOperation.clearTimedOut job.agentId jobId) := hagent
                exact hs.calm ((calm_mark hnamed).trans calm_done) trivial
              · rw [if_neg hlate]
                have hmodify : Calm s (s.modifyJob jobId fun job =>
                    { job with state := JobState.running }) :=
                  calm_modifyJob (fun _ => rfl) fun _ => rfl
                exact hs.calm (hmodify.trans (calm_goto rfl))
                  ⟨hmodify.agentOf jobId job.agentId hagent,
                    hs.worded jobId job hjob instruction (List.mem_of_getElem? hnext)⟩

/-- **The call of an agent for a step of a job.** -/
theorem separate_callSlice (hs : s.Separate) (htracked : s.Tracked) {instruction : PyStr}
    {final : Bool} (hpoint : s.point = CorePoint.slice id agentId instruction final)
    (env : CoreEnv) : (s.callSlice env id agentId instruction final).Separate := by
  obtain ⟨hagent, hne⟩ : s.agentOf id = some agentId ∧ PyStr.strip instruction ≠ [] := by
    have hplaced := hs.placed
    rw [hpoint] at hplaced
    exact hplaced
  have hmem : id ∈ s.backgrounds := by
    have hstage : (s.life id).stage ≠ JobStage.resting := by
      show s.point.stage id ≠ _
      rw [hpoint]
      show (if id = id then JobStage.before instruction final else JobStage.resting) ≠ _
      rw [if_pos rfl]
      intro h
      cases h
    obtain ⟨task, htask⟩ := (htracked.sound id).exists_task hstage
    exact of_decide_eq_true ((htracked.sound id).active htask hstage)
  obtain ⟨hparted, hafter⟩ :=
    parted_runSlice hs.parted htracked.distinct hmem hagent hne env final
  have hcalled : (s.runSlice env id agentId instruction final).2.Separate := by
    have hplain := plain_runSlice (s := s) env id agentId instruction final
    refine hs.called hparted hplain (point_runSlice env id agentId instruction final) ?_
    rw [hpoint]
    exact ⟨(agentOf_congr hplain.jobs id).trans hagent, hne⟩
  unfold callSlice
  dsimp only
  generalize s.runSlice env id agentId instruction final = r at hcalled hafter ⊢
  obtain ⟨result, s₁⟩ := r
  dsimp only at hcalled hafter ⊢
  have hcalm : ∀ point : CorePoint, point.entered? = none →
      Calm s₁ (NativeCore.goto { s₁ with
        history := { s₁.history with slices := (id, instruction) :: s₁.history.slices } } point) :=
    fun point h => calm_of_eq rfl rfl rfl rfl rfl (work_subset rfl h)
  cases result with
  | ok outcome =>
      refine hcalled.calm (hcalm _ rfl) fun hover => ?_
      rcases hafter with ⟨outcome', houtcome, hwaiting, rfl⟩ | hidle
      · -- the agent waits, so the step has succeeded and is not the last one
        cases houtcome
        rw [hwaiting] at hover
        cases hover
      · exact (hcalm _ rfl).idle hidle
  | error text =>
      refine hcalled.calm (hcalm _ rfl) fun _ => ?_
      rcases hafter with ⟨outcome', houtcome, -⟩ | hidle
      · cases houtcome
      · exact (hcalm _ rfl).idle hidle

/-- **The rest of a step of a job.** -/
theorem separate_leaveSlice (hs : s.Separate) {final ok : Bool} {text : PyStr}
    (hpoint : s.point = CorePoint.sliced id final ok text) (env : CoreEnv) :
    (s.leaveSlice env id final ok text).Separate := by
  have hidle : (ok && !final) = false → s.Idle id := by
    have hplaced := hs.placed
    rw [hpoint] at hplaced
    exact hplaced
  unfold leaveSlice
  cases hjob : s.jobs.get? id with
  | none => exact hs.calm calm_done trivial
  | some job =>
      have hagent := agentOf_of_get? hjob
      dsimp only
      by_cases hcancelled : job.cancelled = true
      · rw [if_pos hcancelled]
        exact hs.calm calm_done trivial
      rw [if_neg hcancelled]
      have hmodify : Calm s (s.modifyJob id fun job =>
          { job with index := job.index + 1, lastResult := text }) :=
        calm_modifyJob (fun _ => rfl) fun _ => rfl
      have hsend := hmodify.trans (calm_sendBackgroundEvent id env.progress)
      generalize (s.modifyJob id fun job =>
        { job with index := job.index + 1, lastResult := text }).sendBackgroundEvent id
          env.progress = r at hsend ⊢
      obtain ⟨delivery, s₁⟩ := r
      cases delivery with
      | gone => exact hs.calm (hsend.trans calm_done) trivial
      | raised =>
          -- the job is stranded, and its agent may wait for ever
          exact hs.calm (hsend.trans (calm_of_eq rfl rfl rfl rfl rfl (work_subset rfl rfl))) trivial
      | sent =>
          dsimp only at hsend ⊢
          by_cases hmore : (ok && !final) = true
          · rw [if_pos hmore]
            by_cases hlate : job.deadline ≤ env.now
            · rw [if_pos hlate]
              have hnamed : s₁.Named (CoreOperation.clearTimedOut job.agentId id) :=
                hsend.agentOf id job.agentId hagent
              exact hs.calm ((hsend.trans (calm_mark hnamed)).trans calm_done) trivial
            · rw [if_neg hlate]
              have hmodify' : Calm s₁ (s₁.modifyJob id fun job =>
                  { job with state := JobState.waiting }) :=
                calm_modifyJob (fun _ => rfl) fun _ => rfl
              have hsubmit := (hsend.trans hmodify').trans
                (@calm_submit _ OperationKind.background (CoreOperation.backgroundStep id) true trivial)
              exact hs.calm (hsubmit.trans calm_done) trivial
          · rw [if_neg hmore]
            have hover := hsend.idle (hidle (Bool.eq_false_of_not_eq_true hmore))
            exact hs.calm ((hsend.trans (calm_terminate hover env _ _)).trans calm_done) trivial

/-- **The end of a job after the clean-up.** -/
theorem separate_leaveClear (hs : s.Separate) {timedOut : Bool} {error : Option PyStr}
    (hpoint : s.point = CorePoint.aborted id timedOut error) (env : CoreEnv) :
    (s.leaveClear env id timedOut error).Separate := by
  have hidle : s.Idle id := by
    have hplaced := hs.placed
    rw [hpoint] at hplaced
    exact hplaced
  unfold leaveClear
  cases s.activeJob id with
  | none => exact hs.calm calm_done trivial
  | some job =>
      dsimp only
      by_cases hskip : timedOut = false ∧ job.cancelled = false
      · rw [if_pos hskip]
        exact hs.calm calm_done trivial
      · rw [if_neg hskip]
        exact hs.calm ((calm_terminate hidle env _ _).trans calm_done) trivial

/-- The turn of the manager goes on. -/
theorem separate_manage (hs : s.Separate) {session : CoreSession} {requestId : PyStr}
    (hpoint : s.point = CorePoint.managing session requestId) (env : CoreEnv) :
    (s.manage env session requestId).Separate := by
  have hplaced : ∀ t : NativeCore, t.Placed s.point := by
    intro t
    rw [hpoint]
    trivial
  unfold manage
  cases s.manager.point with
  | idle =>
      dsimp only
      cases s.manager.last with
      | none => exact hs.calm (calm_goto rfl) trivial
      | some result =>
          cases result with
          | ok turn => exact hs.calm (calm_goto rfl) trivial
          | error text =>
              exact hs.calm (calm_of_eq rfl rfl rfl rfl rfl (work_subset rfl rfl)) trivial
  | running results item rest =>
      exact (separate_runAgent hs hplaced env item.agentId item.task).aside
        (calm_of_eq rfl rfl rfl rfl rfl fun _ => id) rfl
  | _ => exact hs.aside (calm_of_eq rfl rfl rfl rfl rfl fun _ => id) rfl

/-- **The next step of the thread.** -/
theorem separate_advance (hs : s.Separate) (hisolated : s.Isolated) (htracked : s.Tracked)
    (env : CoreEnv) : (s.advance env).Separate := by
  unfold advance
  cases hpoint : s.point with
  | idle =>
      dsimp only
      cases hpop : s.scheduler.pop with
      | none => exact hs
      | some p =>
          obtain ⟨next, scheduler⟩ := p
          have hperm := perm_work hisolated.numbered hpoint hpop
          exact hs.calm (calm_of_eq rfl rfl rfl rfl rfl fun _ => hperm.mem_iff.1) trivial
  | entered operation => exact separate_enter hs hpoint env
  | turn session requestId text =>
      unfold respond
      dsimp only
      split_ifs
      · exact hs.calm (calm_of_eq rfl rfl rfl rfl rfl (work_subset rfl rfl)) trivial
      · exact hs.calm (calm_of_eq rfl rfl rfl rfl rfl (work_subset rfl rfl)) trivial
  | managing session requestId => exact separate_manage hs hpoint env
  | agentTask session requestId text agentId =>
      have hcalled := separate_runAgent hs (fun _ => by rw [hpoint]; trivial) env agentId text
      exact hcalled.calm (calm_goto rfl) trivial
  | answer session requestId turn =>
      dsimp only
      split_ifs
      · exact hs.calm (calm_of_eq rfl rfl rfl rfl rfl (work_subset rfl rfl)) trivial
      · exact hs.calm calm_done trivial
  | slice jobId agentId instruction final => exact separate_callSlice hs htracked hpoint env
  | sliced jobId final ok text => exact separate_leaveSlice hs hpoint env
  | aborted jobId timedOut error => exact separate_leaveClear hs hpoint env
  | probe session eventId agentId task =>
      have hcalled := separate_runAgent hs (fun _ => by rw [hpoint]; trivial) env agentId task
      exact hcalled.calm (calm_goto rfl) trivial
  | probed session eventId =>
      dsimp only
      split_ifs
      · exact hs.calm (calm_of_eq rfl rfl rfl rfl rfl (work_subset rfl rfl)) trivial
      · exact hs.calm calm_done trivial
  | tasking agentId task =>
      have hcalled := separate_runAgent hs (fun _ => by rw [hpoint]; trivial) env agentId task
      exact hcalled.calm (calm_of_eq rfl rfl rfl rfl rfl (work_subset rfl rfl)) trivial

/-- **Every step keeps the invariant**, if the name of a new job is a new one. -/
theorem separate_step (hs : s.Separate) (hisolated : s.Isolated) (htracked : s.Tracked)
    {i : Input} (hi : s.NewNames i) : (s.step i).Separate := by
  cases i with
  | acquire client =>
      show (s.acquire client).Separate
      unfold acquire
      cases s.human with
      | some owner => exact hs
      | none => exact hs.aside (calm_of_eq rfl rfl rfl rfl rfl fun _ => id) rfl
  | release client =>
      show (s.release client).Separate
      unfold release
      split_ifs
      -- The session is freed, its jobs are cancelled, and the release is submitted, one after the
      -- other.
      · have hfree : Calm s { s with
            human := none
            epoch := Function.update s.epoch client (s.epoch client + 1) } :=
          calm_of_eq rfl rfl rfl rfl rfl fun _ => id
        have hcancel := hfree.trans (calm_cancelBackgrounds client none)
        have hnamed : ∀ t : NativeCore, t.Named CoreOperation.releaseSession := fun _ => trivial
        exact hs.aside (hcancel.trans (calm_submit (hnamed _)))
          (point_cancelBackgrounds client none)
      · exact hs
  | user client requestId text agentId =>
      show (s.user client requestId text agentId).Separate
      unfold user
      dsimp only
      split_ifs
      · exact hs
      · exact hs.aside ((calm_submit (by trivial)).trans
          (calm_of_eq rfl rfl rfl rfl rfl fun _ => id)) rfl
  | background client jobId agentId steps runtime now =>
      exact hs.aside (calm_background client jobId agentId steps runtime now hi)
        (point_background client jobId agentId steps runtime now)
  | cancelBackground client jobId =>
      show (s.cancelBackground client jobId).Separate
      unfold cancelBackground
      split_ifs
      · exact hs.aside (calm_cancelBackgrounds client (some jobId))
          (point_cancelBackgrounds client (some jobId))
      · exact hs
  | hardware client eventId agentId task =>
      show (s.hardware client eventId agentId task).Separate
      unfold hardware
      dsimp only
      split_ifs
      · exact hs
      · exact hs.aside (calm_submit (by trivial)) rfl
  | offer mqtt agentId task =>
      show (s.offer mqtt agentId task).Separate
      unfold offer
      dsimp only
      -- The kind of the operation does not matter here.
      generalize (if mqtt = true then OperationKind.hardware else OperationKind.background) = kind
      by_cases hrefused : agentId ∈ s.reserved ∨
          s.admits kind (CoreOperation.execute agentId task) = false
      · rw [if_pos hrefused]
        exact hs
      · rw [if_neg hrefused]
        exact hs.aside ((calm_submit (by trivial)).trans
          (calm_of_eq rfl rfl rfl rfl rfl fun _ => id)) rfl
  | advance env => exact separate_advance hs hisolated htracked env

theorem separate_init (h : s.Initial) : s.Separate := by
  have huses : s.history.uses = [] := by rw [h.history]
  have hjobs : ∀ id, s.jobs.get? id = none := by
    intro id
    rw [h.jobs]
    rfl
  have hwork : s.work = [] := by
    obtain ⟨maxPending, hscheduler⟩ := h.scheduler
    unfold work
    rw [h.point, hscheduler]
    rfl
  refine ⟨⟨fun id r hr => ?_, fun u hu => ?_, fun e he => ?_⟩, fun operation hmem => ?_,
    fun id job hjob => ?_, ?_⟩
  · obtain ⟨agentId, kv, rfl⟩ := h.agents id r hr
    refine ⟨⟨rfl, rfl, ⟨0, rfl, Nat.zero_lt_one⟩, fun h => ?_⟩, fun u hu => ?_, fun _ u hu => ?_,
      fun h => ?_⟩
    · cases h
    · rw [huses] at hu
      cases hu
    · rw [huses] at hu
      cases hu
    · cases h
  · rw [huses] at hu
    cases hu
  · rw [h.history] at he
    cases he
  · rw [hwork] at hmem
    cases hmem
  · rw [hjobs] at hjob
    cases hjob
  · rw [h.point]
    trivial

theorem separate_of_reach (h : machine.Reach NewNames s) : s.Separate :=
  h.invariant (fun _ => separate_init) fun _ _ hreach hs hi =>
    separate_step hs (isolated_of_reachable hreach.reachable) (tracked_of_reach hreach) hi

/-- **A conversation of an agent serves one task or one job.**  Two questions to an agent in one
conversation were asked for the same user; an agent waits only for an active job, which alone has
used the conversation that it waits with; and when a job ends, its agent does not wait. -/
theorem agents_isolated (h : machine.Reach NewNames s) :
    (∀ u ∈ s.history.uses, ∀ v ∈ s.history.uses, u.agentId = v.agentId → u.clone = v.clone →
      u.user = v.user) ∧
    (∀ id r, s.agents.get? id = some r →
      (r.agent.state = AgentState.free →
        ∀ u ∈ s.history.uses, u.agentId = id → u.clone ≠ r.resident) ∧
      (r.agent.state = AgentState.waiting →
        ∃ jobId ∈ s.backgrounds, s.agentOf jobId = some id ∧
          ∀ u ∈ s.history.uses, u.agentId = id → u.clone = r.resident →
            u.user = CloneUser.job jobId)) ∧
    ∀ e ∈ s.history.ended, e.agentState ≠ some AgentState.waiting := by
  have hs := (separate_of_reach h).parted
  exact ⟨hs.once, fun id r hr => ⟨(hs.agents id r hr).free, (hs.agents id r hr).waiting⟩, hs.ended⟩

/-- After the job that was left, the manager delegates a task for another client. -/
def delegatedAfter : List Input := [Input.acquire 1] ++ message 1 (Except.ok none) [delegate]

/-- The agent runs the task in a fresh conversation. -/
theorem agents_isolated_left :
    (machine.exec (machine.exec newCore leftJob) delegatedAfter).history.uses =
        [{ agentId := PyStr.ofString "agent_1", clone := some 1, user := CloneUser.task 1 },
          { agentId := PyStr.ofString "agent_1", clone := some 0,
            user := CloneUser.job (PyStr.ofString "job") }] ∧
      ∀ e ∈ (machine.exec (machine.exec newCore leftJob) delegatedAfter).history.ended,
        e.agentState ≠ some AgentState.waiting := by
  refine ⟨by decide +kernel, ?_⟩
  have hreach : machine.Reach NewNames
      (machine.exec (machine.exec newCore leftJob) delegatedAfter) :=
    Machine.Reach.leads reach_leftJob
      (Machine.leads_of_guarded (guarded_of_startsNoJob (by decide)))
  exact (agents_isolated hreach).2.2

end NativeCore
