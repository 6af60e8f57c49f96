/-
**The dialogues of the manager.**

The chat template of the model wants user and assistant to take turns, and the manager checks before
every call that the user has spoken last.  A dialogue that is suspended at a `yield` may stand before
an answer of the user, or behind it; so the check is never in vain only because no two requests use
one dialogue at the same time.

Main definitions:

* `ManagerContext.Sound`, `ManagerContext.At` — the messages of a dialogue, and where it stands;
* `ManagerRuntime.Fits` — what a generator leaves behind;
* `ManagerSystem.Apart` — a dialogue is not taken up while another request is suspended in it.

Main results:

* `ManagerRuntime.fits_resume` — a suspended dialogue goes on, and fits again;
* `ManagerSystem.well_turned` — **every list of messages that the model is given is well turned**,
  no request asks more often than it may, and the check never fails;
* `ManagerSystem.not_well_turned` — without the condition it fails.
-/

import CatAgent.ManagerRuntime

set_option relaxedAutoImplicit false
set_option autoImplicit false

open AgentWorker (Alternating WellTurned)

/-! ### Where a dialogue stands -/

namespace ManagerContext

variable {maxSteps step parity : ℕ} {c d : ManagerContext}

/-- The messages of a dialogue, and what the model was given. -/
structure Sound (maxSteps : ℕ) (c : ManagerContext) : Prop where
  base : c.dialogue.base.role = ChatRole.system
  turns : Alternating c.dialogue.turns
  asked : ∀ l ∈ c.asked, WellTurned l
  count : c.asked.length ≤ maxSteps

/-- The user spoke last, or the model did: there is an odd or even number of turns. -/
def Parity (parity : ℕ) (c : ManagerContext) : Prop := c.dialogue.turns.length % 2 = parity

/-- A request in this dialogue has asked its model `step` times. -/
structure At (maxSteps step parity : ℕ) (c : ManagerContext) : Prop where
  sound : Sound maxSteps c
  step : c.asked.length = step
  parity : Parity parity c

/-- The same messages. -/
structure Same (c d : ManagerContext) : Prop where
  dialogue : d.dialogue = c.dialogue
  asked : d.asked = c.asked

theorem Same.refl : Same c c := ⟨rfl, rfl⟩

theorem Sound.of_same (h : Sound maxSteps c) (hsame : Same c d) : Sound maxSteps d where
  base := by
    rw [hsame.dialogue]
    exact h.base
  turns := by
    rw [hsame.dialogue]
    exact h.turns
  asked := by
    rw [hsame.asked]
    exact h.asked
  count := by
    rw [hsame.asked]
    exact h.count

theorem At.of_same (h : At maxSteps step parity c) (hsame : Same c d) :
    At maxSteps step parity d where
  sound := h.sound.of_same hsame
  step := by
    rw [hsame.asked]
    exact h.step
  parity := by
    unfold Parity
    rw [hsame.dialogue]
    exact h.parity

/-- The base alone. -/
theorem Sound.resetToBase (h : Sound maxSteps c) : Sound maxSteps c.resetToBase where
  base := h.base
  turns := by
    intro i m hm
    cases hm
  asked := h.asked
  count := h.count

theorem parity_resetToBase : Parity 0 c.resetToBase := rfl

theorem Sound.abortContext (h : Sound maxSteps c) : Sound maxSteps c.abortContext :=
  (h.of_same (d := { c with chatMode := false, closeChatAfterReply := false })
    ⟨rfl, rfl⟩).resetToBase

theorem parity_abortContext : Parity 0 c.abortContext := rfl

/-- The last turn is the model's. -/
theorem role_last (h : Sound maxSteps c) (heven : Parity 0 c) {m : ChatMessage}
    (hm : c.dialogue.turns.getLast? = some m) : m.role = ChatRole.assistant := by
  unfold Parity at heven
  have hne : c.dialogue.turns ≠ [] := by
    intro hnil
    rw [hnil] at hm
    cases hm
  have hrole := AgentWorker.last_of_alternating h.turns hne
  have hpos := List.length_pos_iff.2 hne
  rw [hm, Option.map_some, AgentWorker.turnRole, if_neg (by omega)] at hrole
  exact Option.some.inj hrole

/-- After the model the user gets a turn of its own. -/
theorem dialogue_appendUser (h : Sound maxSteps c) (heven : Parity 0 c) (content : ChatContent) :
    (c.appendUser content).dialogue = c.dialogue.append ChatRole.user (stripped content) := by
  unfold appendUser
  dsimp only
  cases hm : c.dialogue.turns.getLast? with
  | none => rfl
  | some m =>
      have hrole : m.role ≠ ChatRole.user := by
        rw [role_last h heven hm]
        decide
      dsimp only
      rw [if_neg hrole]

/-- **The user speaks after the model.** -/
theorem At.appendUser (h : At maxSteps step 0 c) (content : ChatContent) :
    At maxSteps step 1 (c.appendUser content) := by
  have hdialogue := dialogue_appendUser h.sound h.parity content
  have heven : c.dialogue.turns.length % 2 = 0 := h.parity
  refine ⟨⟨?_, ?_, h.sound.asked, h.sound.count⟩, h.step, ?_⟩
  · rw [hdialogue]
    exact h.sound.base
  · rw [hdialogue]
    refine AgentWorker.alternating_append h.sound.turns ?_
    rw [AgentWorker.turnRole, if_pos heven]
  · unfold Parity
    rw [hdialogue]
    exact AgentWorker.odd_append heven

/-- The check before a call of the model. -/
theorem last_of_odd (h : Sound maxSteps c) (hodd : Parity 1 c) : c.last.role = ChatRole.user := by
  unfold Parity at hodd
  have hne : c.dialogue.turns ≠ [] := by
    intro hnil
    rw [hnil] at hodd
    cases hodd
  have hrole := AgentWorker.last_of_alternating h.turns hne
  obtain ⟨m, hm⟩ := Option.isSome_iff_exists.1 (List.getLast?_isSome.2 hne)
  rw [hm, Option.map_some, AgentWorker.turnRole, if_pos (by omega)] at hrole
  unfold last
  rw [hm, Option.getD_some]
  exact Option.some.inj hrole

/-- The model is given the messages. -/
theorem At.ask (h : At maxSteps step 1 c) (hlt : step < maxSteps) :
    At maxSteps (step + 1) 1 { c with asked := c.asked ++ [c.dialogue.messages] } where
  sound :=
    { base := h.sound.base
      turns := h.sound.turns
      asked := by
        intro l hl
        rcases List.mem_append.1 hl with hl | hl
        · exact h.sound.asked l hl
        · rw [List.mem_singleton.1 hl]
          exact AgentWorker.wellTurned_of_odd h.sound.base h.sound.turns h.parity
      count := by
        rw [List.length_append, List.length_singleton, h.step]
        omega }
  step := by rw [List.length_append, List.length_singleton, h.step]
  parity := h.parity

/-- **The model answers.** -/
theorem At.answer (h : At maxSteps step 1 c) (content : ChatContent) :
    At maxSteps step 0 { c with dialogue := c.dialogue.append ChatRole.assistant content } where
  sound :=
    { base := h.sound.base
      turns := by
        have hodd : c.dialogue.turns.length % 2 = 1 := h.parity
        refine AgentWorker.alternating_append h.sound.turns ?_
        rw [AgentWorker.turnRole, if_neg (by omega)]
      asked := h.sound.asked
      count := h.sound.count }
  step := h.step
  parity := by
    have hodd : c.dialogue.turns.length % 2 = 1 := h.parity
    unfold Parity AgentWorker.Dialogue.append
    dsimp only
    rw [List.length_append, List.length_singleton]
    omega

/-- A new request begins to count. -/
theorem Sound.forget (h : Sound maxSteps c) (heven : Parity 0 c) :
    At maxSteps 0 0 { c with asked := [] } where
  sound :=
    { base := h.base
      turns := h.turns
      asked := fun _ hl => nomatch hl
      count := Nat.zero_le _ }
  step := rfl
  parity := heven

end ManagerContext

/-- The number of times that the model was asked when the generator stands here. -/
def ManagerPoint.step : ManagerPoint → ℕ
  | responded step _ => step
  | told step => step
  | waiting step _ _ => step
  | working step _ => step
  | partly step _ => step
  | script step _ => step

/-- Who spoke last: the model, unless it has been told something. -/
def ManagerPoint.parity : ManagerPoint → ℕ
  | told _ => 1
  | _ => 0

namespace ManagerRuntime

open ManagerContext (Sound At Parity Same)

variable {env : ManagerEnv} {maxSteps step : ℕ} {command : PyStr} {pool : AgentPool}
  {s : ManagerState}

/-! ### Commands -/

/-- A generator of a command that is suspended keeps the step, and tells the model nothing. -/
def Pauses (step : ℕ) (a : Answer) : Prop :=
  ∀ point, a = Progress.paused point → point.step = step ∧ point.parity = 0

theorem pauses_of (a : Said) : Pauses step (Progress.of a) := by
  intro point h
  cases a with
  | none => cases h
  | some a => cases h

theorem pauses_paused {point : ManagerPoint} (hstep : point.step = step)
    (hparity : point.parity = 0) : Pauses step (Progress.paused point) := by
  intro point' h
  cases h
  exact ⟨hstep, hparity⟩

theorem pauses_raised : Pauses step Progress.raised := by
  intro point h
  cases h

theorem pauses_returned (content : Option ChatContent) :
    Pauses step (Progress.returned content) := by
  intro point h
  cases h

theorem pauses_runScript : Pauses step (runScript env step command pool).1 := by
  unfold runScript
  rcases env.tools.script with (_ | _ | content) | _ | _
  · exact pauses_of _
  · exact pauses_returned _
  · exact pauses_returned _
  · exact pauses_paused rfl rfl
  · exact pauses_raised

theorem pauses_runPartly : Pauses step (runPartly env step command pool).1 := by
  unfold runPartly
  rcases env.tools.partly with (_ | text) | _ | _
  · exact pauses_runScript
  · exact pauses_of (say text)
  · exact pauses_paused rfl rfl
  · exact pauses_raised

theorem pauses_executeWorkCommand : Pauses step (executeWorkCommand env step command pool).1 := by
  unfold executeWorkCommand
  rcases env.tools.dispatch with _ | _ | text
  · exact pauses_raised
  · dsimp only
    rcases env.tools.picture with _ | _ | content
    · exact pauses_raised
    · exact pauses_runPartly
    · exact pauses_returned _
  · exact pauses_of (say text)

theorem pauses_stepWorker {id : PyStr} {w : AgentWorker} :
    Pauses step (stepWorker env step id w pool).1 := by
  unfold stepWorker
  rcases w.advance env.step with ⟨e | _ | outcome, w'⟩
  · exact pauses_of _
  · exact pauses_paused rfl rfl
  · exact pauses_of _

/-- What a command leaves of the dialogue `c`: all its messages. -/
structure Works (step : ℕ) (c : ManagerContext) (r : Answer × ManagerState) : Prop where
  same : Same c r.2.context
  pauses : Pauses step r.1

theorem works_startWork (text : PyStr) (skills : List PyStr) :
    Works step s.context (startWork env step text skills s) := by
  unfold startWork
  cases s.pool.acquire with
  | none => exact ⟨⟨rfl, rfl⟩, pauses_paused rfl rfl⟩
  | some e =>
      obtain ⟨id, w⟩ := e
      dsimp only
      rcases w.begin env.prep text skills (some "query") with ⟨e | _, w'⟩
      · exact ⟨⟨rfl, rfl⟩, pauses_of _⟩
      · exact ⟨⟨rfl, rfl⟩, pauses_stepWorker⟩

theorem works_executeWork : Works step s.context (executeWork env step command s) := by
  have hordinary : Works step s.context
      ((executeWorkCommand env step command s.pool).1,
        { s with pool := (executeWorkCommand env step command s.pool).2 }) :=
    ⟨Same.refl, pauses_executeWorkCommand⟩
  have hsaid : ∀ text, Works step s.context (Progress.of (say text), s) :=
    fun text => ⟨Same.refl, pauses_of (say text)⟩
  unfold executeWork
  dsimp only
  split_ifs
  · exact hordinary
  rcases ShellWords.split command with _ | _ | ⟨name, arguments⟩
  · exact hsaid _
  · exact hordinary
  dsimp only
  split_ifs
  · exact hordinary
  rcases arguments with _ | ⟨period, arguments⟩
  · exact hsaid _
  dsimp only
  cases env.float period with
  | none => exact hsaid _
  | some x =>
      dsimp only
      split_ifs
      · cases taskAtOnce env (name :: period :: arguments) with
        | error text => exact hsaid _
        | ok p => exact works_startWork _ _
      · exact hordinary

/-! ### The generator -/

/-- What a generator of a dialogue leaves behind: at a `yield` the dialogue stands where the
generator needs it, and at the end the model has spoken last. -/
def Fits (maxSteps : ℕ) (r : Turn × ManagerState) : Prop :=
  match r.1 with
  | Progress.paused point => At maxSteps point.step point.parity r.2.context
  | Progress.returned turn =>
      Sound maxSteps r.2.context ∧ Parity 0 r.2.context ∧ turn ≠ noFreshInput
  | Progress.raised => Sound maxSteps r.2.context

theorem error_ne_noFreshInput {before : PyStr} (text : PyStr) (hne : before ≠ [])
    (hhead : before.head? ≠ noFreshInput.text.head?) :
    ManagerTurn.error (before ++ text) ≠ noFreshInput := by
  intro h
  have htext : (before ++ text).head? = noFreshInput.text.head? :=
    congrArg (fun turn => turn.text.head?) h
  rw [List.head?_append_of_ne_nil _ hne] at htext
  exact hhead htext

/-- The end of a dialogue that is aborted. -/
theorem fits_abort {turn : ManagerTurn} {c : ManagerContext} (h : Sound maxSteps c)
    (hturn : turn ≠ noFreshInput) (pool : AgentPool) :
    Fits maxSteps (Progress.returned turn, ⟨pool, c.abortContext⟩) :=
  ⟨h.abortContext, ManagerContext.parity_abortContext, hturn⟩

/-- **The model is asked, after the user has spoken.** -/
theorem fits_driveStep (h : At maxSteps step 1 s.context) :
    Fits maxSteps (driveStep env maxSteps (step + 1) s) := by
  unfold driveStep
  by_cases hlimit : maxSteps < step + 1
  · rw [if_pos hlimit]
    refine fits_abort h.sound ?_ _
    rw [List.append_assoc]
    exact error_ne_noFreshInput _ (by decide) (by decide)
  have hlast := ManagerContext.last_of_odd h.sound h.parity
  rw [if_neg hlimit, if_neg (not_not_intro hlast)]
  have hask := h.ask (by omega)
  dsimp only
  cases env.tools.chat with
  | raised => exact hask.sound
  | modelError text =>
      refine fits_abort hask.sound ?_ _
      exact error_ne_noFreshInput text (by decide) (by decide)
  | reply content => exact hask.answer _

theorem fits_tell (text : PyStr) (h : At maxSteps step 0 s.context) :
    Fits maxSteps (tell step text s) := h.appendUser _

theorem fits_finishWork {r : Answer × ManagerState} (h : At maxSteps step 0 s.context)
    (hr : Works step s.context r) : Fits maxSteps (finishWork step r) := by
  obtain ⟨answer, s'⟩ := r
  have hat : At maxSteps step 0 s'.context := h.of_same hr.same
  cases answer with
  | paused point =>
      obtain ⟨hstep, hparity⟩ := hr.pauses point rfl
      unfold Fits finishWork
      dsimp only
      rw [hstep, hparity]
      exact hat
  | raised => exact hat.sound
  | returned content =>
      cases content with
      | some content => exact hat.appendUser content
      | none =>
          have hsilent : ManagerTurn.silent ≠ noFreshInput := by decide
          unfold Fits finishWork
          dsimp only
          cases s'.context.chatMode with
          | true => exact ⟨hat.sound, hat.parity, hsilent⟩
          | false => exact ⟨hat.sound.resetToBase, ManagerContext.parity_resetToBase, hsilent⟩

theorem fits_reply (body : PyStr) (h : At maxSteps step 0 s.context) :
    Fits maxSteps (reply body s) := by
  have hreply : (⟨"reply", body⟩ : ManagerTurn) ≠ noFreshInput := by
    intro heq
    have hkind : PyStr.ofString "reply" = PyStr.ofString "error" := congrArg ManagerTurn.kind heq
    revert hkind
    decide
  unfold Fits reply
  dsimp only
  cases s.context.closeChatAfterReply with
  | true =>
      have hopen := h.sound.of_same
        (d := { s.context with chatMode := false, closeChatAfterReply := false }) ⟨rfl, rfl⟩
      exact ⟨hopen.resetToBase, ManagerContext.parity_resetToBase, hreply⟩
  | false =>
      cases s.context.chatMode with
      | true => exact ⟨h.sound, h.parity, hreply⟩
      | false => exact ⟨h.sound.resetToBase, ManagerContext.parity_resetToBase, hreply⟩

theorem fits_respond (content : PyStr) (h : At maxSteps step 0 s.context) :
    Fits maxSteps (respond env maxSteps step content s) := by
  unfold respond
  rcases unwrapWorkCommand (PyStr.strip content) with text | _ | command
  · exact fits_tell _ h
  · dsimp only
    cases parseManagerOutput env content with
    | error text => exact fits_tell _ h
    | ask body =>
        refine ⟨h.sound, h.parity, fun heq => ?_⟩
        have hkind : PyStr.ofString "ask" = PyStr.ofString "error" := congrArg ManagerTurn.kind heq
        revert hkind
        decide
    | reply body => exact fits_reply body h
    | other => exact fits_driveStep (s := { s with context := s.context.told _ }) (h.appendUser _)
  · exact fits_finishWork h works_executeWork

/-- **A suspended dialogue goes on.** -/
theorem fits_resume (point : ManagerPoint) (h : At maxSteps point.step point.parity s.context) :
    Fits maxSteps (resume env maxSteps point s) := by
  cases point with
  | responded step content => exact fits_respond content h
  | told step => exact fits_driveStep h
  | waiting step text skills => exact fits_finishWork h (works_startWork text skills)
  | working step id =>
      unfold resume
      dsimp only
      cases s.pool.workers.get? id with
      | none => exact h.sound
      | some w => exact fits_finishWork h ⟨Same.refl, pauses_stepWorker⟩
  | partly step command => exact fits_finishWork h ⟨Same.refl, pauses_runPartly⟩
  | script step command => exact fits_finishWork h ⟨Same.refl, pauses_runScript⟩

/-- A dialogue that nobody suspends. -/
theorem fits_finishSteps (l : List ManagerEnv) {r r' : Turn × ManagerState}
    (hr : Fits maxSteps r) (h : finishSteps maxSteps l r = some r') :
    Fits maxSteps r' ∧ ∀ point, r'.1 ≠ Progress.paused point := by
  have hended : ∀ {r : Turn × ManagerState}, Fits maxSteps r → (∀ point, r.1 ≠ Progress.paused point) →
      some r = some r' → Fits maxSteps r' ∧ ∀ point, r'.1 ≠ Progress.paused point := by
    rintro r hr hne ⟨⟩
    exact ⟨hr, hne⟩
  induction l generalizing r with
  | nil =>
      rcases r with ⟨point | turn | _, s'⟩
      · cases h
      · exact hended hr nofun h
      · exact hended hr nofun h
  | cons env l ih =>
      rcases r with ⟨point | turn | _, s'⟩
      · exact ih (fits_resume point hr) h
      · exact hended hr nofun h
      · exact hended hr nofun h

theorem fits_userMessage (text : PyStr) (h : Sound maxSteps s.context)
    (heven : Parity 0 s.context) : Fits maxSteps (userMessage env maxSteps text s) := by
  unfold userMessage
  dsimp only
  refine fits_driveStep (s := { s with context := ManagerContext.told _ _ }) (At.appendUser ?_ _)
  refine (h.forget heven).of_same ?_
  split_ifs
  · exact ⟨rfl, rfl⟩
  · exact ⟨rfl, rfl⟩
  · exact ⟨rfl, rfl⟩

theorem fits_queryResult (taskId : ℤ) (result : PyStr) (h : Sound maxSteps s.context)
    (heven : Parity 0 s.context) : Fits maxSteps (queryResult env maxSteps taskId result s) :=
  fits_driveStep (s := { s with context := ManagerContext.told _ _ })
    ((h.forget heven).appendUser _)

theorem fits_systemEvent (l : List ManagerEnv) {r : Turn × ManagerState}
    (h : Sound maxSteps s.context) (heven : Parity 0 s.context)
    (hr : systemEvent env maxSteps l s = some r) :
    Fits maxSteps r ∧ ∀ point, r.1 ≠ Progress.paused point :=
  fits_finishSteps l
    (fits_driveStep (s := { s with context := ManagerContext.told _ _ })
      ((h.forget heven).appendUser _)) hr

end ManagerRuntime

/-! ### The requests -/

namespace ManagerSystem

open ManagerContext (Sound At Parity)
open ManagerRuntime (Fits noFreshInput fits_resume fits_userMessage fits_queryResult
  fits_systemEvent)

variable {κ ι : Type} {maxSteps : ℕ} {s s' : ManagerSystem κ ι}

/-- No request is suspended in the dialogue. -/
def Unused (s : ManagerSystem κ ι) (key : κ) : Prop :=
  ∀ i point, s.live i ≠ some (RequestPoint.dialogue key point)

/-- **A dialogue is not taken up while a request is suspended in it.** -/
def Apart (s : ManagerSystem κ ι) : Input κ ι → Prop
  | Input.startUser _ key _ _ => s.Unused key
  | Input.startResult _ key _ _ _ => s.Unused key
  | Input.systemEvent key _ _ => s.Unused key
  | Input.released key => s.Unused key
  | Input.resetForNewSession key => s.Unused key
  | _ => True

/-- The dialogues and the requests that are suspended in them. -/
structure Talks (maxSteps : ℕ) (s : ManagerSystem κ ι) : Prop where
  sound : ∀ key, Sound maxSteps (s.contexts key)
  /-- Where nobody is suspended, the model has spoken last. -/
  rests : ∀ key, s.Unused key → Parity 0 (s.contexts key)
  stands : ∀ i key point, s.live i = some (RequestPoint.dialogue key point) →
    At maxSteps point.step point.parity (s.contexts key)
  alone : ∀ i j key p q, s.live i = some (RequestPoint.dialogue key p) →
    s.live j = some (RequestPoint.dialogue key q) → j = i
  checked : noFreshInput ∉ s.turns

/-- Nothing has happened in the dialogues. -/
theorem Talks.of_live (h : Talks maxSteps s) (hcontexts : s'.contexts = s.contexts)
    (hturns : s'.turns = s.turns)
    (hlive : ∀ i key point, s'.live i = some (RequestPoint.dialogue key point) ↔
      s.live i = some (RequestPoint.dialogue key point)) : Talks maxSteps s' where
  sound := by
    rw [hcontexts]
    exact h.sound
  rests := by
    intro key hunused
    rw [hcontexts]
    exact h.rests key fun i point hi => hunused i point ((hlive i key point).2 hi)
  stands := by
    intro i key point hi
    rw [hcontexts]
    exact h.stands i key point ((hlive i key point).1 hi)
  alone := fun i j key p q hi hj => h.alone i j key p q ((hlive i key p).1 hi) ((hlive j key q).1 hj)
  checked := by
    rw [hturns]
    exact h.checked

theorem talks_afterTask [DecidableEq ι] {i : ι} {r : ManagerRuntime.TaskTurn × AgentPool} (h : Talks maxSteps s)
    (hi : ∀ key point, s.live i ≠ some (RequestPoint.dialogue key point)) :
    Talks maxSteps (s.afterTask i r) := by
  refine h.of_live rfl rfl fun j key point => ?_
  unfold afterTask
  dsimp only
  by_cases hj : j = i
  · rw [hj, Function.update_self]
    have hnot := hi key point
    rcases r.1 with point' | completion | _
    · exact ⟨fun heq => (by cases heq), fun heq => absurd heq hnot⟩
    · exact ⟨fun heq => (by cases heq), fun heq => absurd heq hnot⟩
    · exact ⟨fun heq => (by cases heq), fun heq => absurd heq hnot⟩
  · rw [Function.update_of_ne hj]

variable [DecidableEq κ]

/-- A dialogue in which nobody is suspended is changed. -/
theorem Talks.update (h : Talks maxSteps s) {key : κ} (hunused : s.Unused key)
    {c : ManagerContext} (hsound : Sound maxSteps c) (heven : Parity 0 c)
    {turns : List ManagerTurn} (hchecked : noFreshInput ∉ turns) {pool : AgentPool} :
    Talks maxSteps ⟨pool, Function.update s.contexts key c, s.live, turns⟩ where
  sound := by
    intro key'
    dsimp only
    by_cases hkey : key' = key
    · rw [hkey, Function.update_self]
      exact hsound
    · rw [Function.update_of_ne hkey]
      exact h.sound key'
  rests := by
    intro key' hunused'
    dsimp only
    by_cases hkey : key' = key
    · rw [hkey, Function.update_self]
      exact heven
    · rw [Function.update_of_ne hkey]
      exact h.rests key' hunused'
  stands := by
    intro i key' point hi
    have hkey : key' ≠ key := by
      rintro rfl
      exact hunused i point hi
    dsimp only
    rw [Function.update_of_ne hkey]
    exact h.stands i key' point hi
  alone := h.alone
  checked := hchecked

variable [DecidableEq ι]

/-- **The generator of a dialogue has been advanced**, and nobody else is suspended in it. -/
theorem talks_afterDialogue {i : ι} {key : κ} {r : ManagerRuntime.Turn × ManagerState}
    (h : Talks maxSteps s)
    (hi : ∀ key' point, s.live i = some (RequestPoint.dialogue key' point) → key' = key)
    (hothers : ∀ j point, s.live j = some (RequestPoint.dialogue key point) → j = i)
    (hr : Fits maxSteps r) : Talks maxSteps (s.afterDialogue i key r) := by
  obtain ⟨turn, s'⟩ := r
  -- What is suspended afterwards: this generator, or another one in another dialogue.
  have hlive : ∀ j key' point,
      (s.afterDialogue i key (turn, s')).live j = some (RequestPoint.dialogue key' point) →
        (j = i ∧ key' = key ∧ turn = Progress.paused point) ∨
          (j ≠ i ∧ key' ≠ key ∧ s.live j = some (RequestPoint.dialogue key' point)) := by
    intro j key' point hj
    unfold afterDialogue at hj
    by_cases hji : j = i
    · left
      simp only [hji, Function.update_self] at hj
      cases turn with
      | paused point' =>
          cases hj
          exact ⟨hji, rfl, rfl⟩
      | returned turn => cases hj
      | raised => cases hj
    · right
      simp only [Function.update_of_ne hji] at hj
      refine ⟨hji, ?_, hj⟩
      rintro rfl
      exact hji (hothers j point hj)
  have hcontext : ∀ key', key' ≠ key →
      (s.afterDialogue i key (turn, s')).contexts key' = s.contexts key' :=
    fun key' hkey => Function.update_of_ne hkey _ _
  refine ⟨fun key' => ?_, fun key' hunused => ?_, fun j key' point hj => ?_, ?_, ?_⟩
  · by_cases hkey : key' = key
    · unfold afterDialogue
      dsimp only
      rw [hkey, Function.update_self]
      cases turn with
      | paused point => exact At.sound hr
      | returned turn => exact And.left hr
      | raised => exact Sound.abortContext hr
    · rw [hcontext key' hkey]
      exact h.sound key'
  · by_cases hkey : key' = key
    · subst hkey
      have hturn : ∀ point, turn ≠ Progress.paused point := by
        rintro point rfl
        refine hunused i point ?_
        unfold afterDialogue
        dsimp only
        rw [Function.update_self]
      unfold afterDialogue
      dsimp only
      rw [Function.update_self]
      cases turn with
      | paused point => exact absurd rfl (hturn point)
      | returned turn => exact And.left (And.right hr)
      | raised => exact ManagerContext.parity_abortContext
    · rw [hcontext key' hkey]
      refine h.rests key' fun j point hj => hunused j point ?_
      have hji : j ≠ i := by
        rintro rfl
        exact hkey (hi key' point hj)
      unfold afterDialogue
      dsimp only
      rw [Function.update_of_ne hji]
      exact hj
  · rcases hlive j key' point hj with ⟨-, rfl, rfl⟩ | ⟨-, hkey, hj⟩
    · unfold afterDialogue
      dsimp only
      rw [Function.update_self]
      exact hr
    · rw [hcontext key' hkey]
      exact h.stands j key' point hj
  · intro j k key' p q hj hk
    rcases hlive j key' p hj with ⟨hji, hkey, -⟩ | ⟨-, hkey, hj⟩
    · rcases hlive k key' q hk with ⟨hki, -, -⟩ | ⟨-, hkey', -⟩
      · rw [hji, hki]
      · exact absurd hkey hkey'
    · rcases hlive k key' q hk with ⟨-, hkey', -⟩ | ⟨-, -, hk⟩
      · exact absurd hkey' hkey
      · exact h.alone j k key' p q hj hk
  · unfold afterDialogue
    dsimp only
    cases turn with
    | paused point => exact h.checked
    | returned turn =>
        rw [List.mem_cons, not_or]
        exact ⟨Ne.symm (And.right (And.right hr)), h.checked⟩
    | raised => exact h.checked

/-- A request that is not suspended begins in a dialogue in which nobody is. -/
theorem talks_start {i : ι} {key : κ} {r : ManagerRuntime.Turn × ManagerState}
    (h : Talks maxSteps s) (hlive : s.live i = none) (hunused : s.Unused key)
    (hr : Fits maxSteps r) : Talks maxSteps (s.afterDialogue i key r) := by
  refine talks_afterDialogue h (fun key' point hi => ?_) (fun j point hj => ?_) hr
  · rw [hlive] at hi
    cases hi
  · exact absurd hj (hunused j point)

/-- A generator is closed. -/
theorem talks_closed {i : ι} {point : RequestPoint κ} (env : ManagerEnv) (h : Talks maxSteps s)
    (hlive : s.live i = some point) : Talks maxSteps (s.closed env i point) := by
  cases point with
  | task point =>
      refine h.of_live rfl rfl fun j key point' => ?_
      unfold closed
      dsimp only
      by_cases hj : j = i
      · rw [hj, Function.update_self, hlive]
        exact ⟨fun heq => (by cases heq), fun heq => (by cases heq)⟩
      · rw [Function.update_of_ne hj]
  | dialogue key point =>
      -- The dialogue is aborted as if its generator had raised.
      have hraised : Fits maxSteps
          (Progress.raised,
            ⟨point.worker?.elim s.pool fun id => ManagerRuntime.closeWorker env id s.pool,
              s.contexts key⟩) := h.sound key
      refine talks_afterDialogue h (fun key' point' hi => ?_)
        (fun j point' hj => h.alone i j key point point' hlive hj) hraised
      rw [hlive] at hi
      cases hi
      rfl

/-- **Every step of the core.** -/
theorem talks_step (h : Talks maxSteps s) (input : Input κ ι) (hapart : s.Apart input) :
    Talks maxSteps (step maxSteps s input) := by
  cases input with
  | startTask i event env =>
      unfold step
      dsimp only
      cases hlive : s.live i with
      | some point => exact h
      | none =>
          refine talks_afterTask h fun key point hi => ?_
          rw [hlive] at hi
          cases hi
  | startUser i key text env =>
      unfold step
      dsimp only
      cases hlive : s.live i with
      | some point => exact h
      | none =>
          exact talks_start h hlive hapart
            (fits_userMessage (s := s.stateOf key) text (h.sound key) (h.rests key hapart))
  | startResult i key taskId result env =>
      unfold step
      dsimp only
      cases hlive : s.live i with
      | some point => exact h
      | none =>
          exact talks_start h hlive hapart
            (fits_queryResult (s := s.stateOf key) taskId result (h.sound key)
              (h.rests key hapart))
  -- An event is handled at once: its dialogue is at rest before and after.
  | systemEvent key env l =>
      unfold step
      dsimp only
      cases hevent : ManagerRuntime.systemEvent env maxSteps l (s.stateOf key) with
      | none => exact h
      | some r =>
          obtain ⟨hfits, hended⟩ :=
            fits_systemEvent (s := s.stateOf key) l (h.sound key) (h.rests key hapart) hevent
          obtain ⟨turn, s'⟩ := r
          cases turn with
          | paused point => exact absurd rfl (hended point)
          | returned turn =>
              obtain ⟨hsound, heven, hturn⟩ := hfits
              refine h.update hapart hsound heven ?_
              rw [List.mem_cons, not_or]
              exact ⟨hturn.symm, h.checked⟩
          | raised =>
              exact h.update hapart (Sound.abortContext hfits) ManagerContext.parity_abortContext
                h.checked
  | next i env =>
      unfold step
      dsimp only
      cases hlive : s.live i with
      | none => exact h
      | some point =>
          cases point with
          | task point =>
              refine talks_afterTask h fun key point' hi => ?_
              rw [hlive] at hi
              cases hi
          -- The dialogue goes on where it was suspended, and nobody else stands in it.
          | dialogue key point =>
              refine talks_afterDialogue h (fun key' point' hi => ?_)
                (fun j point' hj => h.alone i j key point point' hlive hj)
                (fits_resume (s := s.stateOf key) point (h.stands i key point hlive))
              rw [hlive] at hi
              cases hi
              rfl
  | discard i env =>
      unfold step
      dsimp only
      cases hlive : s.live i with
      | none => exact h
      | some point => exact talks_closed env h hlive
  | released key =>
      unfold step setContext
      dsimp only
      cases (s.contexts key).chatMode with
      | true => exact h.update hapart (h.sound key) (h.rests key hapart) h.checked
      | false =>
          exact h.update hapart (h.sound key).abortContext ManagerContext.parity_abortContext
            h.checked
  | resetForNewSession key =>
      exact h.update hapart
        ((h.sound key).abortContext.of_same (d := { ManagerContext.abortContext (s.contexts key) with
          waitingForWorker := false }) ⟨rfl, rfl⟩) ManagerContext.parity_abortContext h.checked

/-- **Every run.** -/
theorem talks_of_reach (h : (machine maxSteps).Reach Apart s) : Talks maxSteps s := by
  refine h.invariant ?_ fun s input _ hs hapart => talks_step hs input hapart
  rintro s ⟨-, hcontexts, hlive, hturns⟩
  refine ⟨fun key => ?_, fun key _ => ?_, fun i key point hi => ?_, fun i j key p q hi => ?_, ?_⟩
  · obtain ⟨hnil, hasked, hbase⟩ := hcontexts key
    refine ⟨hbase, ?_, ?_, ?_⟩
    · rw [hnil]
      intro i m hm
      cases hm
    · rw [hasked]
      exact fun l hl => nomatch hl
    · rw [hasked]
      exact Nat.zero_le _
  · unfold Parity
    rw [(hcontexts key).1]
    rfl
  · rw [hlive i] at hi
    cases hi
  · rw [hlive i] at hi
    cases hi
  · rw [hturns]
    exact List.not_mem_nil

/-- **The dialogues of the manager are well turned.**  Whatever the models, the tools and the workers
do, and in whatever order the generators are advanced and closed: if no dialogue is taken up while a
request is suspended in it, then the model is only given the system message and turns of user and
assistant that end with the user, at most `maxSteps` times for one request; no dialogue ends with the
error that a fresh input is missing; and where nobody is suspended, the next one finds that the model
has spoken last. -/
theorem well_turned (h : (machine maxSteps).Reach Apart s) :
    (∀ key, ∀ l ∈ (s.contexts key).asked, WellTurned l) ∧
      (∀ key, (s.contexts key).asked.length ≤ maxSteps) ∧
      noFreshInput ∉ s.turns ∧
      ∀ key, Alternating (s.contexts key).dialogue.turns ∧
        (s.Unused key → ∀ m, (s.contexts key).dialogue.turns.getLast? = some m →
          m.role = ChatRole.assistant) := by
  have htalks := talks_of_reach h
  refine ⟨fun key => (htalks.sound key).asked, fun key => (htalks.sound key).count, htalks.checked,
    fun key => ⟨(htalks.sound key).turns, fun hunused m hm => ?_⟩⟩
  exact ManagerContext.role_last (htalks.sound key) (htalks.rests key hunused) hm

/-- The manager's model answers `content`. -/
def answering (content : PyStr) : ManagerEnv :=
  { oneTaskEnv with tools := AgentWorker.answerEnv content }

/-- The result of a query is reported; the first answer of the model is empty. -/
def reported : List (Input Unit ℕ) :=
  [Input.startResult 0 () 7 "42" (answering []), Input.next 0 (answering [])]

/-- The request has asked once so far. -/
theorem well_turned_reported :
    (((machine 8).exec newSystem reported).contexts ()).asked.length ≤ 8 := by
  have hapart : (machine 8).Guarded Apart newSystem reported := by
    refine ⟨fun i point hi => ?_, trivial, trivial⟩
    cases hi
  exact (well_turned ⟨newSystem, init_newSystem 8, Machine.leads_of_guarded hapart⟩).2.1 ()

/-- An event in the same dialogue leaves the suspended request without the user's message. -/
theorem not_well_turned :
    noFreshInput ∈ ((machine 8).exec newSystem (reported ++
      [Input.systemEvent () (answering "REPLY\nyes") [answering "?"],
        Input.next 0 (answering "?")])).turns := by
  decide

end ManagerSystem
