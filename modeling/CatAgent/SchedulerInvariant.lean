/-
**The invariant of the core's scheduler.**

What the threads of the scheduler rely on is gathered here in one invariant.  It speaks of the
shared fields and of two notes: how far the loop, or the thread that closes the scheduler, has come
with the active request, and what the executor is doing.

A context of the manager belongs to exactly one of the dialogues, the list of free contexts, or a
thread that is about to move it; a thread says in its note which context it owns.

Main definitions:

* `DriverNote`, `ExecutorNote`, `SchedulerNote` — what the threads know;
* `CoreScheduler.dirt` — the dialogues that have used a context since it was reset;
* `CoreScheduler.Traffic` — which thread deals with the active request;
* `CoreScheduler.Queue` — the requests that are queued or active;
* `CoreScheduler.Ordered` — the order of the requests of a dialogue, and their completions;
* `CoreScheduler.Pool` — the contexts;
* `CoreScheduler.Valid` — the invariant.
-/

import CatAgent.SchedulerThreads

set_option relaxedAutoImplicit false
set_option autoImplicit false

namespace CoreScheduler

/-! ### Notes -/

/-- A context that a thread is about to move. -/
inductive Hold where
  | nothing
  /-- The context of a slot; `based` says that it has been reset. -/
  | pooled (context : ℕ) (slot : ManagerSlot) (based : Bool)
  /-- The context is new. -/
  | fresh (context : ℕ)
  /-- The context has no slot. -/
  | loose (context : ℕ)
deriving DecidableEq

/-- The context that a thread holds. -/
def Hold.context? : Hold → Option ℕ
  | pooled c _ _ | fresh c | loose c => some c
  | nothing => none

/-- The context that nobody else has. -/
def Hold.owned? : Hold → Option ℕ
  | pooled c _ _ | fresh c => some c
  | nothing | loose _ => none

theorem Hold.context?_of_owned? {h : Hold} {c : ℕ} (hc : h.owned? = some c) :
    h.context? = some c := by
  cases h <;> first | exact hc | cases hc

/-- How far the loop, or the closing thread, has come. -/
inductive DriverRole where
  | idle
  | running
  /-- The result of the active request is known. -/
  | finishing (u : ℕ) (result : Advanced)
  /-- The active request goes back to the queue. -/
  | requeueing (u : ℕ)
  /-- The active request has been completed. -/
  | recycling (u : ℕ)
  /-- The active request is completed or queued again. -/
  | settled (u : ℕ)
  /-- There is no active request any more. -/
  | quiet
  /-- These requests remain to be discarded; `waiting` says that the executor was called. -/
  | draining (remaining : List ℕ) (waiting : Bool)
deriving DecidableEq

/-- The active request that the driver deals with. -/
def DriverRole.request? : DriverRole → Option ℕ
  | finishing u _ | requeueing u | recycling u | settled u => some u
  | _ => none

/-- The requests that remain to be discarded. -/
def DriverRole.remaining : DriverRole → List ℕ
  | draining l _ => l
  | _ => []

/-- What the driver knows. -/
structure DriverNote where
  closing : Bool := false
  role : DriverRole := DriverRole.idle
  /-- There is no active request. -/
  free : Bool := false
  /-- The future of KV2, which is not there or done. -/
  kv2 : Option (Option (Except PyStr Unit)) := none
  /-- The dialogue of the request that has been completed. -/
  key : Option PyStr := none
  hold : Hold := Hold.nothing

/-- How far the executor has come with a request: it may ask for the grant, it may make the
iterator, or the iterator exists. -/
inductive AdvanceStage where
  | entered
  | permitted
  | started
deriving DecidableEq

/-- What the executor knows. -/
structure ExecutorNote where
  job : Option SchedulerJob := none
  stage : AdvanceStage := AdvanceStage.entered
  /-- The request at hand is none of a user's. -/
  system : Bool := false
  /-- The request at hand is the activation of a task. -/
  task : Bool := false
  /-- The request at hand is no activation of a task. -/
  talk : Bool := false
  /-- The dialogue of the request at hand. -/
  key : Option PyStr := none
  /-- The context of the request at hand. -/
  context : Option ℕ := none
  /-- A dialogue without a context. -/
  missing : Option PyStr := none
  /-- The dialogue that is being released. -/
  releasing : Option PyStr := none
  /-- KV2 is being made. -/
  warming : Bool := false
  /-- KV1 is being rebuilt; the flag says that it has been reset. -/
  recovering : Option Bool := none
  hold : Hold := Hold.nothing

/-- What a thread knows. -/
structure SchedulerNote where
  driver : DriverNote := {}
  executor : ExecutorNote := {}
  /-- The event that was admitted and is about to be accepted. -/
  accepting : Option SystemEvent := none

/-! ### Vocabulary -/

/-- The executor's operations that belong to a future which somebody waits for. -/
def isCore : SchedulerJob → Bool
  | SchedulerJob.releaseContext _ => false
  | _ => true

/-- The request that an operation of the executor is about. -/
def requestOf : SchedulerJob → Option ℕ
  | SchedulerJob.advance u | SchedulerJob.discard u => some u
  | _ => none

/-- The operations that the closing thread waits for. -/
def isShutdownJob : SchedulerJob → Bool
  | SchedulerJob.discard _ | SchedulerJob.closeAllContexts => true
  | _ => false

/-- What the executor is doing and has to do. -/
def work (s : CoreScheduler) (e : ExecutorNote) : List SchedulerJob := e.job.toList ++ s.jobs

/-- The request has been completed. -/
def Completed (s : CoreScheduler) (u : ℕ) : Prop :=
  ∃ turn, SchedulerEvent.completed u turn ∈ s.log

/-- Whether an event is the completion of a request. -/
def completes (u : ℕ) : SchedulerEvent → Bool
  | SchedulerEvent.completed v _ => decide (v = u)
  | _ => false

/-- How often a request has been completed. -/
def completions (s : CoreScheduler) (u : ℕ) : ℕ := s.log.countP (completes u)

/-- The dialogues that have used a context since it was last reset. -/
def dirt (c : ℕ) : List SchedulerEvent → List PyStr
  | [] => []
  | SchedulerEvent.used c' key :: log => if c' = c then key :: dirt c log else dirt c log
  | SchedulerEvent.based c' :: log => if c' = c then [] else dirt c log
  | _ :: log => dirt c log

/-- Two requests of one dialogue. -/
def SameDialogue (s : CoreScheduler) (u v : ℕ) : Prop :=
  contextKey (s.requests u) = contextKey (s.requests v)

/-- A user request. -/
def IsUser (s : CoreScheduler) (u : ℕ) : Prop := (s.requests u).kind = RequestKind.user

/-- A user request that has not been started. -/
def Waiting (s : CoreScheduler) (u : ℕ) : Prop := s.IsUser u ∧ (s.requests u).iterator = none

/-- Starting the request is no second start in its dialogue. -/
def Startable (s : CoreScheduler) (u : ℕ) : Prop :=
  (s.requests u).iterator ≠ none ∨ ¬ Dialogic (s.requests u) ∨
    ∀ v ∈ s.pending, v ≠ u → Dialogic (s.requests v) → s.SameDialogue v u →
      (s.requests v).iterator = none

/-- Everybody who came earlier in the dialogue of a user request is done or cancelled. -/
def First (s : CoreScheduler) (v : ℕ) : Prop :=
  ∀ u < v, s.IsUser u → s.SameDialogue u v → (s.requests u).cancelled = true ∨ s.Completed u

/-- A request that the executor has been given, or that goes back to the queue. -/
def Unfinished (s : CoreScheduler) (u : ℕ) : Prop :=
  u ∈ s.pending ∨ s.activeRequest = some u ∧
    (s.activeFuture = some none ∨ s.activeFuture = some (some (Except.ok Advanced.paused)))

/-! ### The invariant -/

/-- Which thread deals with the active request. -/
structure Traffic (s : CoreScheduler) (d : DriverNote) (e : ExecutorNote) : Prop where
  core : (s.work e).countP isCore ≤ 1
  advance : ∀ u, SchedulerJob.advance u ∈ s.work e →
    s.activeRequest = some u ∧ s.activeFuture = some none
  warm : SchedulerJob.warmManagerKv2 ∈ s.work e → s.kv2Future = some none
  shut : ∀ j ∈ s.work e, isShutdownJob j = true →
    s.shutdownFuture = some none ∧ ∃ l, d.role = DriverRole.draining l true ∧ l.head? = requestOf j
  known : ∀ j ∈ s.work e, ∀ u, requestOf j = some u → u < s.nextRequest
  active : s.activeRequest = none ↔ s.activeFuture = none
  exclusive : s.kv2Future ≠ none → s.activeFuture = none
  driver : ∀ u, d.role.request? = some u →
    s.activeRequest = some u ∧ ∃ f, s.activeFuture = some (some f)
  finishing : ∀ u r, d.role = DriverRole.finishing u r →
    ∃ f, s.activeFuture = some (some f) ∧ resultOf f = r
  requeueing : ∀ u, d.role = DriverRole.requeueing u ∨ d.role = DriverRole.recycling u →
    s.activeFuture ≠ some (some (Except.ok Advanced.paused))
  quiet : d.role = DriverRole.quiet → s.activeFuture = none
  draining : ∀ l b, d.role = DriverRole.draining l b → s.activeFuture = none ∧ s.kv2Future = none
  closing : d.closing = true → s.closed = true
  looping : d.closing = false → d.role ≠ DriverRole.idle → s.closed = false
  leaving : d.role = DriverRole.quiet ∨ (∃ l b, d.role = DriverRole.draining l b) →
    d.closing = true
  stopped : s.closed = true → s.stop = true
  free : d.free = true → s.activeFuture = none
  kv2 : ∀ f, d.kv2 = some f → s.kv2Future = f.map some
  holding : d.hold ≠ Hold.nothing → ∃ u, d.role = DriverRole.recycling u

/-- The request objects. -/
structure Requests (s : CoreScheduler) : Prop where
  old : ∀ u, (s.requests u).iterator ≠ none → u < s.nextRequest
  voice : ∀ u, (s.requests u).label = "voice" → s.IsUser u
  context : ∀ u, (s.requests u).context ≠ none → (s.requests u).iterator ≠ none
  task : ∀ u, (s.requests u).kind = RequestKind.system → (s.requests u).payload.taskId? ≠ none →
    (s.requests u).context = none
  iterator : ∀ u, (s.requests u).iterator = some StepsIterator.task →
    (s.requests u).kind = RequestKind.system ∧ (s.requests u).payload.taskId? ≠ none
  runs : ∀ u, s.IsUser u → (s.requests u).taskRun = none

/-- What the executor knows of the request at hand. -/
structure Knowledge (s : CoreScheduler) (e : ExecutorNote) : Prop where
  permitted : ∀ u, e.job = some (SchedulerJob.advance u) → e.stage = AdvanceStage.permitted →
    s.Startable u
  started : ∀ u, e.job.bind requestOf = some u → e.stage = AdvanceStage.started →
    (s.requests u).iterator ≠ none
  system : ∀ u, e.job = some (SchedulerJob.advance u) → e.system = true → ¬ s.IsUser u
  activation : ∀ u, e.job = some (SchedulerJob.advance u) → e.task = true →
    (s.requests u).kind = RequestKind.system ∧ (s.requests u).payload.taskId? ≠ none
  talk : ∀ u, e.job = some (SchedulerJob.advance u) → e.talk = true →
    (s.requests u).kind = RequestKind.system → (s.requests u).payload.taskId? = none

/-- What the driver knows of the requests. -/
structure Driven (s : CoreScheduler) (d : DriverNote) : Prop where
  apart : ∀ u, s.activeRequest = some u → u ∈ s.pending → d.role = DriverRole.settled u
  completion : ∀ u c, s.activeRequest = some u →
    s.activeFuture = some (some (Except.ok (Advanced.completion c))) →
    d.role ≠ DriverRole.requeueing u → d.role ≠ DriverRole.settled u →
    (s.requests u).kind = RequestKind.system ∧ (s.requests u).payload.taskId? ≠ none
  requeueing : ∀ u, d.role = DriverRole.requeueing u →
    ¬ s.IsUser u ∧ (s.requests u).iterator = none ∧ (s.requests u).context = none
  key : ∀ key, d.key = some key → ∃ u, d.role = DriverRole.recycling u ∧ s.IsUser u ∧
    contextKey (s.requests u) = key ∧ (s.requests u).context ≠ none
  drained : ∀ l b, d.role = DriverRole.draining l b → ∀ u ∈ s.pending,
    (s.requests u).context = none

/-- The requests that are queued or active. -/
structure Queue (config : SchedulerConfig) (s : CoreScheduler) (d : DriverNote)
    (e : ExecutorNote) : Prop extends Requests s, Knowledge s e, Driven s d where
  pending_lt : ∀ u ∈ s.pending, u < s.nextRequest
  active_lt : ∀ u, s.activeRequest = some u → u < s.nextRequest
  nodup : s.pending.Nodup
  /-- At most one request of a dialogue has been started. -/
  single : ∀ u ∈ s.live, ∀ v ∈ s.live, u ≠ v → Dialogic (s.requests u) → Dialogic (s.requests v) →
    s.SameDialogue u v → (s.requests u).iterator = none ∨ (s.requests v).iterator = none
  startable : ∀ u, s.activeRequest = some u → s.activeFuture = some none →
    (s.requests u).cancelled = true ∨ s.Startable u
  paused : ∀ u, s.activeRequest = some u →
    s.activeFuture = some (some (Except.ok Advanced.paused)) →
    s.IsUser u → (s.requests u).iterator ≠ none
  grants : ∀ u ∈ s.live, ∀ v ∈ s.live, u ≠ v → ∀ a b, (s.requests u).taskRun = some a →
    (s.requests v).taskRun = some b → (a.runId, a.offerId) ≠ (b.runId, b.offerId)
  capacity : s.liveCount ≤ config.maxPending
  reserve : ∀ u n, SchedulerEvent.admitted u n ∈ s.log → ¬ s.IsUser u →
    n < max 1 (config.maxPending - 8)
  admitted_lt : ∀ u n, SchedulerEvent.admitted u n ∈ s.log → u < s.nextRequest

/-- The order in which users have asked. -/
structure Stamped (s : CoreScheduler) : Prop where
  priority : ∀ u, s.IsUser u → (s.requests u).priority =
    if (s.requests u).label = "voice" then voicePriority else managerPriority
  clock : ∀ u < s.nextRequest, s.IsUser u → (s.requests u).queuedAt ≤ s.clock
  stamps : ∀ u v, u < v → v < s.nextRequest → s.IsUser u → s.IsUser v →
    (s.requests u).queuedAt ≤ (s.requests v).queuedAt

/-- Nobody in a dialogue is overtaken. -/
structure Turns (s : CoreScheduler) (e : ExecutorNote) : Prop where
  /-- The queue keeps the order of the requests that have not been started. -/
  waiting : s.pending.Pairwise fun u v => s.Waiting u → s.Waiting v → u < v
  ready : ∀ u, s.activeRequest = some u → s.activeFuture = some none → s.IsUser u →
    (s.requests u).cancelled = true ∨ s.First u
  permitted : ∀ u, e.job = some (SchedulerJob.advance u) → e.stage = AdvanceStage.permitted →
    s.IsUser u → s.First u
  begun : ∀ u, s.IsUser u → (s.requests u).iterator ≠ none → s.First u
  answered : ∀ u f, s.activeRequest = some u → s.activeFuture = some (some f) → s.IsUser u →
    (∀ t, resultOf f = Advanced.turn t → t.kind ≠ "cancelled" → (s.requests u).iterator ≠ none)
  /-- Whoever was completed with an answer had nobody before it. -/
  log : ∀ v t l, SchedulerEvent.completed v t :: l <:+ s.log → t.kind ≠ "cancelled" → s.IsUser v →
    ∀ u < v, s.IsUser u → s.SameDialogue u v →
      (s.requests u).cancelled = true ∨ ∃ t', SchedulerEvent.completed u t' ∈ l
  /-- At most one request of a dialogue has been started and not completed. -/
  alone : ∀ u v, u ≠ v → u < s.nextRequest → v < s.nextRequest → ¬ s.Completed u →
    ¬ s.Completed v → Dialogic (s.requests u) → Dialogic (s.requests v) → s.SameDialogue u v →
    (s.requests u).iterator = none ∨ (s.requests v).iterator = none

/-- What has become of the requests that were admitted. -/
structure Accounts (s : CoreScheduler) (d : DriverNote) : Prop where
  completed_lt : ∀ u, s.Completed u → u < s.nextRequest
  accounted : ∀ u < s.nextRequest, s.Completed u ∨ u ∈ s.live ∨ u ∈ d.role.remaining ∨
    ∃ v, SchedulerEvent.discardRaised v ∈ s.log
  remaining_lt : ∀ u ∈ d.role.remaining, u < s.nextRequest
  kept : ∀ u ∈ d.role.remaining, u ∈ s.remaining
  settled : ∀ u, d.role = DriverRole.settled u → s.Completed u ∨ u ∈ s.pending
  recycling : ∀ u, d.role = DriverRole.recycling u → s.Completed u
  raised : (∃ v, SchedulerEvent.discardRaised v ∈ s.log) → s.closed = true
  lost : (∃ v, SchedulerEvent.discardRaised v ∈ s.log) → s.activeFuture = none

/-- The order of the requests of a dialogue, and their completions. -/
structure Ordered (s : CoreScheduler) (d : DriverNote) (e : ExecutorNote) : Prop
    extends Stamped s, Turns s e, Accounts s d

/-- In a safe environment no request is completed twice, and none is forgotten at the shutdown. -/
structure Once (s : CoreScheduler) (d : DriverNote) : Prop where
  once : ∀ u, s.completions u ≤ 1
  pending : ∀ u ∈ s.pending, ¬ s.Completed u
  /-- If closing its context has raised in the closing thread, then nobody looks at it any more. -/
  active : ∀ u, s.activeRequest = some u → s.Completed u →
    d.role = DriverRole.recycling u ∨ d.role = DriverRole.settled u ∨
      d.role = DriverRole.idle ∧ s.closed = true
  nodup : d.role.remaining.Nodup
  apart : ∀ u ∈ d.role.remaining, u ∉ s.pending
  remaining : ∀ u ∈ d.role.remaining, ¬ s.Completed u
  discarded : ∀ u l, d.role = DriverRole.draining (u :: l) true →
    ∀ msg, s.shutdownFuture ≠ some (some (Except.error msg))
  undiscarded : ∀ u, SchedulerEvent.discardRaised u ∉ s.log

/-- What a thread knows of the context that it holds: no dialogue has it, and it is not free, unless
it has no slot. -/
def Hold.Valid (s : CoreScheduler) (h : Hold) : Prop :=
  (∀ c slot b, h = Hold.pooled c slot b → s.managerSlots slot = some c ∧
    s.managerSlotReady slot = true ∧ c ∉ s.managerAvailable ∧
    (∀ key, s.contexts.get? key ≠ some c) ∧ (b = true → dirt c s.log = [])) ∧
  (∀ c, h = Hold.fresh c → c < s.nextContext ∧ c ≠ runtime ∧
    (∀ key, s.contexts.get? key ≠ some c) ∧ (∀ slot, s.managerSlots slot ≠ some c) ∧
    dirt c s.log = []) ∧
  ∀ c, h = Hold.loose c → c < s.nextContext ∧ ∀ slot, s.managerSlots slot ≠ some c

/-- The contexts. -/
structure Pool (config : SchedulerConfig) (s : CoreScheduler) (p q : Hold) : Prop where
  sorted : s.managerAvailable.Pairwise fun a b => s.slotRank a < s.slotRank b
  available_ready : ∀ c ∈ s.managerAvailable,
    ∃ slot, s.managerSlots slot = some c ∧ s.managerSlotReady slot = true
  available_unassigned : ∀ c ∈ s.managerAvailable, ∀ key, s.contexts.get? key ≠ some c
  available_clean : ∀ c ∈ s.managerAvailable, dirt c s.log = []
  kv1 : s.managerSlots ManagerSlot.kv1 =
    if config.managerPoolEnabled = true then some runtime else none
  kv2_ne : s.managerSlots ManagerSlot.kv2 ≠ some runtime
  kv2 : s.managerSlotReady ManagerSlot.kv2 = false → s.managerSlots ManagerSlot.kv2 = none
  next : runtime < s.nextContext
  slots_old : ∀ slot c, s.managerSlots slot = some c → c < s.nextContext
  contexts_old : ∀ key c, s.contexts.get? key = some c → c < s.nextContext
  dirt_old : ∀ c, dirt c s.log ≠ [] → c < s.nextContext
  assigned_unique : ∀ slot c, s.managerSlots slot = some c → ∀ key key',
    s.contexts.get? key = some c → s.contexts.get? key' = some c → key = key'
  unshared : config.managerPoolEnabled = true → ∀ c key key',
    s.contexts.get? key = some c → s.contexts.get? key' = some c → key = key'
  assigned_ready : ∀ slot c, s.managerSlots slot = some c → ∀ key,
    s.contexts.get? key = some c → s.managerSlotReady slot = true
  assigned_clean : ∀ slot c, s.managerSlots slot = some c → ∀ key,
    s.contexts.get? key = some c → ∀ key' ∈ dirt c s.log, key' = key
  left : p.Valid s
  right : q.Valid s
  left_apart : ∀ c, p.owned? = some c → q.context? ≠ some c
  right_apart : ∀ c, q.owned? = some c → p.context? ≠ some c
  handed : ∀ c key ready l, SchedulerEvent.handed c key ready :: l <:+ s.log →
    ready = true ∧ ∀ key' ∈ dirt c l, key' = key

/-- The contexts of the requests, and what the executor knows of the contexts. -/
structure Dialogues (s : CoreScheduler) (e : ExecutorNote) : Prop where
  inUse : ∀ u c, s.Unfinished u → (s.requests u).context = some c →
    s.contexts.get? (contextKey (s.requests u)) = some c
  key : ∀ u key, e.job = some (SchedulerJob.advance u) → e.key = some key →
    contextKey (s.requests u) = key
  context : ∀ u c, e.job = some (SchedulerJob.advance u) → e.context = some c →
    (s.requests u).context = some c
  missing : ∀ key, e.missing = some key → s.contexts.get? key = none
  releasing : ∀ key, e.releasing = some key → ∀ u ∈ s.live, contextKey (s.requests u) = key →
    (s.requests u).context = none
  warming : e.warming = true → s.managerSlotReady ManagerSlot.kv2 = false
  recovering : ∀ b, e.recovering = some b → s.managerSlotReady ManagerSlot.kv1 = false ∧
    (b = true → ∀ c, s.managerSlots ManagerSlot.kv1 = some c → dirt c s.log = [])
  lost : ∀ msg, s.kv2Future = some (some (Except.error msg)) →
    s.managerSlotReady ManagerSlot.kv2 = false

/-- Events are accepted after they have been admitted. -/
structure Accepting (s : CoreScheduler) (events : SchedulerThread → Option SystemEvent) :
    Prop where
  accepting : ∀ i event, events i = some event →
    ∃ u n, SchedulerEvent.admitted u n ∈ s.log ∧ (s.requests u).taskRun = some event
  accepted : ∀ event l, SchedulerEvent.accepted event :: l <:+ s.log →
    ∃ u n, SchedulerEvent.admitted u n ∈ l ∧ (s.requests u).taskRun = some event

/-- The invariant, for given notes of the driver and the executor. -/
structure Valid (config : SchedulerConfig) (safe : Bool) (s : CoreScheduler) (d : DriverNote)
    (e : ExecutorNote) (events : SchedulerThread → Option SystemEvent) : Prop where
  traffic : Traffic s d e
  queue : Queue config s d e
  ordered : Ordered s d e
  once : safe = false ∨ Once s d
  pool : Pool config s d.hold e.hold
  dialogues : Dialogues s e
  accepting : Accepting s events

/-- The invariant. -/
def Invariant (config : SchedulerConfig) (safe : Bool) (s : CoreScheduler)
    (notes : SchedulerThread → SchedulerNote) : Prop :=
  Valid config safe s (notes SchedulerThread.driver).driver (notes SchedulerThread.executor).executor
    fun i => (notes i).accepting

end CoreScheduler
