/-
**The books of a worker.**

A worker keeps five tables: which agents are reserved, which offers are seen, what has been
submitted, which runs are to be finished and which results are to be published.  Two threads change
them in several places each, and there are many ways to leave early.  A reservation that is never
released makes an agent unusable, an offer that stays seen stops the worker from pulling, and one
that is forgotten too early is admitted twice.

Main definitions:

* `NativeTaskWorker.Books` — the tables belong together, given the calls that are not finished;
* `BookNote`, `BookNote.Knows` — what a thread knows about them;
* `Workers.Executing` — a worker is in the midst of executing a job.

Main results:

* `Books.submit`, `Books.record`, `Books.release`, `Books.settle`, `Books.finish` — what each
  change of the tables does to the books;
* `WorkerSystem.polling_pollOnce`, `WorkerSystem.working_executeBody` — the outlines of the threads;
* `Workers.bookkeeping` — **the tables belong together in every reachable state**.
-/

import CatAgent.WorkerSystem

set_option relaxedAutoImplicit false
set_option autoImplicit false

/-- What a thread of a worker knows about the tables. -/
inductive BookNote where
  | idle
  /-- It executes this job, and may have recorded a result. -/
  | executing (job : Job) (recorded : Bool)
  /-- These offers are to be finished. -/
  | finishing (tokens : List PyStr)
  /-- The same, and the result of the first one has been dealt with. -/
  | settled (token : PyStr) (tokens : List PyStr)
  /-- There is room for another offer. -/
  | room

namespace BookNote

/-- The job that is being executed. -/
def jobs : BookNote → List Job
  | executing job _ => [job]
  | _ => []

/-- The offer whose result has been recorded by the job that is being executed. -/
def recorded : BookNote → Option PyStr
  | executing job true => some job.event.offerId
  | _ => none

/-- What the note says is true. -/
def Knows (w : NativeTaskWorker) : BookNote → Prop
  | finishing tokens => tokens.Nodup ∧ ∀ t ∈ tokens, t ∈ w.pendingFinishes.keys
  | settled token tokens => (token :: tokens).Nodup ∧
      (∀ t ∈ token :: tokens, t ∈ w.pendingFinishes.keys) ∧ token ∉ w.pendingResults.keys
  | room => w.seen.length < NativeTaskWorker.maxUnacknowledged
  | _ => True

end BookNote

/-- The offer of a job. -/
def Job.token (job : Job) : PyStr := job.event.offerId

namespace NativeTaskWorker

/-- **The books**: given the calls of `_execute` that are not finished, and the offer whose result
one of them may have recorded. -/
structure Books (calls : List Job) (recorded : Option PyStr) (w : NativeTaskWorker) : Prop where
  /-- No agent is called twice. -/
  agents : (calls.map Job.agentId).Nodup
  reserved_nodup : w.reserved.Nodup
  reserved : ∀ a, a ∈ w.reserved ↔ a ∈ calls.map Job.agentId
  /-- No offer is admitted twice. -/
  tokens : (calls.map Job.token).Nodup
  /-- An offer that is to be finished is not being worked on. -/
  finished : ∀ t ∈ w.pendingFinishes.keys, t ∉ calls.map Job.token
  seen_nodup : w.seen.Nodup
  seen : ∀ t, t ∈ w.seen ↔ t ∈ calls.map Job.token ∨ t ∈ w.pendingFinishes.keys
  bound : w.seen.length ≤ maxUnacknowledged
  results : ∀ t ∈ w.pendingResults.keys, recorded = some t ∨ t ∈ w.pendingFinishes.keys

variable {calls calls' : List Job} {recorded : Option PyStr} {w w' : NativeTaskWorker} {job : Job}
  {token : PyStr}

theorem books_initial : Books [] none initial where
  agents := List.nodup_nil
  reserved_nodup := List.nodup_nil
  reserved := fun _ => Iff.rfl
  tokens := List.nodup_nil
  finished := fun _ _ => List.not_mem_nil
  seen_nodup := List.nodup_nil
  seen := fun _ => by simp [initial]
  bound := Nat.zero_le _
  results := fun t ht => by simp [initial] at ht

/-- The order of the calls does not matter. -/
theorem Books.perm (h : Books calls recorded w) (hp : calls.Perm calls') :
    Books calls' recorded w where
  agents := (hp.map _).nodup_iff.1 h.agents
  reserved_nodup := h.reserved_nodup
  reserved := fun a => (h.reserved a).trans (hp.map _).mem_iff
  tokens := (hp.map _).nodup_iff.1 h.tokens
  finished := fun t ht hmem => h.finished t ht ((hp.map _).mem_iff.2 hmem)
  seen_nodup := h.seen_nodup
  seen := fun t => (h.seen t).trans (or_congr (hp.map _).mem_iff Iff.rfl)
  bound := h.bound
  results := h.results

/-- The books only look at the tables. -/
theorem Books.same (h : Books calls recorded w) (hs : SameBooks w w') :
    Books calls recorded w' where
  agents := h.agents
  reserved_nodup := hs.reserved ▸ h.reserved_nodup
  reserved := hs.reserved ▸ h.reserved
  tokens := h.tokens
  finished := hs.pendingFinishes ▸ h.finished
  seen_nodup := hs.seen ▸ h.seen_nodup
  seen := by
    rw [hs.seen, hs.pendingFinishes]
    exact h.seen
  bound := hs.seen ▸ h.bound
  results := by
    rw [hs.pendingFinishes, hs.pendingResults]
    exact h.results

/-- A job is admitted. -/
theorem Books.submit (h : Books calls recorded w) (job : Job) (hagent : job.agentId ∉ w.reserved)
    (htoken : job.token ∉ w.seen) (hroom : w.seen.length < maxUnacknowledged) :
    Books (job :: calls) recorded
      { w with
        reserved := job.agentId :: w.reserved
        seen := job.token :: w.seen
        jobs := w.jobs ++ [job] } where
  agents := List.nodup_cons.2 ⟨fun hmem => hagent ((h.reserved _).2 hmem), h.agents⟩
  reserved_nodup := List.nodup_cons.2 ⟨hagent, h.reserved_nodup⟩
  reserved := fun a => by
    rw [List.map_cons, List.mem_cons, List.mem_cons, h.reserved a]
  tokens := List.nodup_cons.2 ⟨fun hmem => htoken ((h.seen _).2 (Or.inl hmem)), h.tokens⟩
  finished := by
    intro t ht hmem
    rcases List.mem_cons.1 hmem with rfl | hmem
    · exact htoken ((h.seen _).2 (Or.inr ht))
    · exact h.finished t ht hmem
  seen_nodup := List.nodup_cons.2 ⟨htoken, h.seen_nodup⟩
  seen := fun t => by
    rw [List.map_cons, List.mem_cons, List.mem_cons, h.seen t, or_assoc]
  bound := hroom
  results := h.results

/-- The result of a job is recorded. -/
theorem Books.record (h : Books (job :: calls) recorded w) (result : QueryPayload)
    (hrecorded : recorded = none ∨ recorded = some job.token) :
    Books (job :: calls) (some job.token)
      { w with pendingResults := w.pendingResults.set job.token result } where
  agents := h.agents
  reserved_nodup := h.reserved_nodup
  reserved := h.reserved
  tokens := h.tokens
  finished := h.finished
  seen_nodup := h.seen_nodup
  seen := h.seen
  bound := h.bound
  results := by
    intro t ht
    rcases PyDict.mem_keys_set.1 ht with rfl | ht
    · exact Or.inl rfl
    · rcases h.results t ht with hsome | hmem
      · rcases hrecorded with hnone | hold
        · rw [hnone] at hsome
          cases hsome
        · exact Or.inl (hold.symm.trans hsome)
      · exact Or.inr hmem

/-- A job is over.  Its run is to be finished if it may have begun, and only then it may have
recorded a result. -/
theorem Books.release (h : Books (job :: calls) recorded w) (e : Execution)
    (hrecorded : recorded = none ∨ recorded = some job.token ∧ e.started = true) :
    Books calls none (release job e w) := by
  obtain ⟨hagent, hagents⟩ := List.nodup_cons.1 h.agents
  obtain ⟨htoken, htokens⟩ := List.nodup_cons.1 h.tokens
  have hseen : job.token ∈ w.seen := (h.seen _).2 (Or.inl List.mem_cons_self)
  have hreserved : ∀ a, a ∈ w.reserved.filter (fun ident => decide (ident ≠ job.agentId)) ↔
      a ∈ calls.map Job.agentId := by
    intro a
    rw [List.mem_filter, h.reserved a, List.map_cons, List.mem_cons, decide_eq_true_eq]
    constructor
    · rintro ⟨rfl | hmem, hne⟩
      · exact absurd rfl hne
      · exact hmem
    · intro hmem
      refine ⟨Or.inr hmem, ?_⟩
      rintro rfl
      exact hagent hmem
  unfold NativeTaskWorker.release
  by_cases hstarted : e.started = true
  · rw [if_pos hstarted]
    refine ⟨hagents, h.reserved_nodup.filter _, hreserved, htokens, fun t ht => ?_, h.seen_nodup,
      fun t => ?_, h.bound, fun t ht => Or.inr ?_⟩
    · rcases PyDict.mem_keys_set.1 ht with rfl | ht
      · exact htoken
      · exact fun hmem => h.finished t ht (List.mem_cons_of_mem _ hmem)
    · rw [PyDict.mem_keys_set, h.seen t, List.map_cons, List.mem_cons]
      change _ ↔ _ ∨ t = job.token ∨ _
      rw [or_left_comm, or_assoc]
    · rcases h.results t ht with hsome | hmem
      · rcases hrecorded with hnone | ⟨hsame, _⟩
        · rw [hnone] at hsome
          cases hsome
        · rw [hsame, Option.some.injEq] at hsome
          exact PyDict.mem_keys_set.2 (Or.inl hsome.symm)
      · exact PyDict.mem_keys_set.2 (Or.inr hmem)
  · rw [if_neg hstarted]
    have hnone : recorded = none := hrecorded.resolve_right fun hboth => hstarted hboth.2
    refine ⟨hagents, h.reserved_nodup.filter _, hreserved, htokens, fun t ht hmem => ?_,
      h.seen_nodup.filter _, fun t => ?_, (List.length_filter_le _ _).trans h.bound,
      fun t ht => ?_⟩
    · exact h.finished t ht (List.mem_cons_of_mem _ hmem)
    · change t ∈ w.seen.filter (fun other => decide (other ≠ job.token)) ↔
        _ ∨ t ∈ w.pendingFinishes.keys
      rw [List.mem_filter, h.seen t, List.map_cons, List.mem_cons, decide_eq_true_eq]
      constructor
      · rintro ⟨(rfl | hmem) | hmem, hne⟩
        · exact absurd rfl hne
        · exact Or.inl hmem
        · exact Or.inr hmem
      · rintro (hmem | hmem)
        · refine ⟨Or.inl (Or.inr hmem), ?_⟩
          rintro rfl
          exact htoken hmem
        · refine ⟨Or.inr hmem, ?_⟩
          rintro rfl
          exact h.finished _ hmem List.mem_cons_self
    · exact h.results t ht |>.imp_left fun hsome => hnone ▸ hsome

/-- The result of a run that is to be finished has been dealt with. -/
theorem Books.settle (h : Books calls recorded w) (entry : PendingFinish)
    (ht : token ∈ w.pendingFinishes.keys) : Books calls recorded (settle token entry w) := by
  have hkeys : (w.pendingFinishes.set token entry).keys = w.pendingFinishes.keys :=
    PyDict.keys_set_of_mem entry ht
  refine ⟨h.agents, h.reserved_nodup, h.reserved, h.tokens, fun t hmem => ?_, h.seen_nodup,
    fun t => ?_, h.bound, fun t hmem => ?_⟩
  · exact h.finished t (hkeys ▸ hmem)
  · change t ∈ w.seen ↔ _ ∨ t ∈ (w.pendingFinishes.set token entry).keys
    rw [hkeys]
    exact h.seen t
  · change _ ∨ t ∈ (w.pendingFinishes.set token entry).keys
    rw [hkeys]
    exact h.results t (PyDict.mem_keys_erase.1 hmem).2

/-- A run has been finished. -/
theorem Books.finish (h : Books calls recorded w) (ht : token ∈ w.pendingFinishes.keys)
    (hresult : token ∉ w.pendingResults.keys) :
    Books calls recorded
      (unsee token { w with pendingFinishes := w.pendingFinishes.erase token }) := by
  refine ⟨h.agents, h.reserved_nodup, h.reserved, h.tokens, fun t hmem => ?_,
    h.seen_nodup.filter _, fun t => ?_, (List.length_filter_le _ _).trans h.bound,
    fun t hmem => ?_⟩
  · exact h.finished t (PyDict.mem_keys_erase.1 hmem).2
  · change t ∈ w.seen.filter (fun other => decide (other ≠ token)) ↔
      _ ∨ t ∈ (w.pendingFinishes.erase token).keys
    rw [List.mem_filter, h.seen t, PyDict.mem_keys_erase, decide_eq_true_eq]
    constructor
    · rintro ⟨hmem | hmem, hne⟩
      · exact Or.inl hmem
      · exact Or.inr ⟨hne, hmem⟩
    · rintro (hmem | ⟨hne, hmem⟩)
      · refine ⟨Or.inl hmem, ?_⟩
        rintro rfl
        exact h.finished _ ht hmem
      · exact ⟨Or.inr hmem, hne⟩
  · refine (h.results t hmem).imp_right fun hfinish => PyDict.mem_keys_erase.2 ⟨?_, hfinish⟩
    rintro rfl
    exact hresult hmem

end NativeTaskWorker

/-! ### The threads -/

namespace BookNote

variable {n : BookNote} {w w' : NativeTaskWorker}

/-- A note only looks at the tables. -/
theorem Knows.same (h : n.Knows w) (hs : NativeTaskWorker.SameBooks w w') : n.Knows w' := by
  cases n with
  | idle | executing => trivial
  | finishing tokens => exact ⟨h.1, fun t ht => hs.pendingFinishes ▸ h.2 t ht⟩
  | settled token tokens =>
      exact ⟨h.1, fun t ht => hs.pendingFinishes ▸ h.2.1 t ht, hs.pendingResults ▸ h.2.2⟩
  | room =>
      change w'.seen.length < _
      rw [hs.seen]
      exact h

end BookNote

namespace WorkerSystem

variable {ι : Type} [DecidableEq ι] {host : Host} {crew : Workers ι} {s s' : WorkerSystem ι}
  {notes : WorkerThread ι → BookNote} {j : WorkerThread ι} {i : ι} {n : BookNote} {α β : Type}

open NativeTaskWorker (Books Quiet SameBooks)

/-- The books of all workers are in order, and what their polling threads know is true. -/
def Booked (s : WorkerSystem ι) (notes : WorkerThread ι → BookNote) : Prop :=
  ∀ i, Books ((notes (WorkerThread.executing i)).jobs ++ (s.workers i).jobs)
      (notes (WorkerThread.executing i)).recorded (s.workers i) ∧
    (notes (WorkerThread.polling i)).Knows (s.workers i)

omit [DecidableEq ι] in
/-- The books only look at the workers. -/
theorem Booked.of_workers (h : Booked s notes) (hs : s'.workers = s.workers) :
    Booked s' notes := by
  intro i
  rw [hs]
  exact h i

/-- The tables of a worker stay what they are. -/
theorem Booked.same (h : Booked s notes) {w : NativeTaskWorker}
    (hs : s'.workers = Function.update s.workers i w) (hsame : SameBooks (s.workers i) w) :
    Booked s' notes := by
  intro k
  rw [hs]
  by_cases hk : k = i
  · subst hk
    rw [Function.update_self, hsame.jobs]
    exact ⟨(h k).1.same hsame, (h k).2.same hsame⟩
  · rw [Function.update_of_ne hk]
    exact h k

/-- The polling thread of a worker changes its tables. -/
theorem Booked.poll (h : Booked s notes) {w : NativeTaskWorker}
    (hs : s'.workers = Function.update s.workers i w)
    (hbooks : Books ((notes (WorkerThread.executing i)).jobs ++ w.jobs)
      (notes (WorkerThread.executing i)).recorded w)
    (hknows : n.Knows w) : Booked s' (Function.update notes (WorkerThread.polling i) n) := by
  intro k
  rw [hs, Function.update_of_ne (by simp)]
  by_cases hk : k = i
  · subst hk
    rw [Function.update_self, Function.update_self]
    exact ⟨hbooks, hknows⟩
  · rw [Function.update_of_ne hk, Function.update_of_ne (by simpa using hk)]
    exact h k

/-- The executing thread of a worker changes its tables. -/
theorem Booked.execute (h : Booked s notes) {w : NativeTaskWorker}
    (hs : s'.workers = Function.update s.workers i w)
    (hbooks : Books (n.jobs ++ w.jobs) n.recorded w)
    (hknows : (notes (WorkerThread.polling i)).Knows w) :
    Booked s' (Function.update notes (WorkerThread.executing i) n) := by
  intro k
  rw [hs, @Function.update_of_ne _ _ _ (WorkerThread.polling k) _ (by simp)]
  by_cases hk : k = i
  · subst hk
    rw [Function.update_self, Function.update_self]
    exact ⟨hbooks, hknows⟩
  · rw [Function.update_of_ne hk, Function.update_of_ne (by simpa using hk)]
    exact h k

variable (host crew) in
/-- An outline of a program of the thread `j`, as long as the notes satisfy `N`. -/
abbrev Booking (N : (WorkerThread ι → BookNote) → Prop) (j : WorkerThread ι) (p : WorkerM α)
    (n : BookNote) (Q : α → BookNote → Prop) : Prop :=
  (crew.threads host).Outline (fun s notes => Booked s notes ∧ N notes) j p n Q

variable (host crew) in
/-- An outline of a program of the polling thread. -/
abbrev Polling (i : ι) (p : WorkerM α) (n : BookNote) (Q : α → BookNote → Prop) : Prop :=
  Booking host crew (fun _ => True) (WorkerThread.polling i) p n Q

variable (host crew) in
/-- An outline of a program of the executing thread, which executes this job all the time. -/
abbrev Working (i : ι) (job : Job) (p : WorkerM α) (n : BookNote) (Q : α → BookNote → Prop) :
    Prop :=
  Booking host crew
    (fun notes => ∃ recorded, notes (WorkerThread.executing i) = BookNote.executing job recorded)
    (WorkerThread.executing i) p n Q

variable {N : (WorkerThread ι → BookNote) → Prop} {job : Job}

/-- An operation that leaves the workers alone. -/
theorem booking_asks {e : WorkerEffect} (hj : Of i j) (he : ∀ β f, e ≠ WorkerEffect.locked β f) :
    Booking host crew N j (Program.operation e) n fun _ l => l = n := by
  intro s notes o x s' hs hl hx
  rw [handle_of hj] at hx
  refine ⟨n, ?_, rfl⟩
  rw [← hl, Function.update_eq_self]
  exact ⟨hs.1.of_workers (workers_of_perform he hx), hs.2⟩

/-- **A quiet program** leaves the books and the note alone. -/
theorem booking_quiet {p : WorkerM α} (hj : Of i j) (hp : p.All Quiet) (n : BookNote) :
    Booking host crew N j p n fun _ l => l = n := by
  induction p with
  | done a => exact rfl
  | perform e next ih =>
      intro s notes o x s' hs hl hx
      rw [handle_of hj] at hx
      refine ⟨n, ?_, ih x (hp.2 x)⟩
      rw [← hl, Function.update_eq_self]
      refine ⟨?_, hs.2⟩
      cases e with
      | locked β f =>
          cases hx
          have hsame : SameBooks (s.workers i) (f (s.workers i)).2 := hp.1 (s.workers i)
          exact hs.1.same rfl hsame
      | runAgent event agentId instruction => exact absurd hp.1 id
      | rpc | clock | canRun | agentStatus | agentBlocked | admits | onQueryResult =>
          exact hs.1.of_workers (workers_of_perform (fun _ _ h => by cases h) hx)

/-- A block under the lock that the polling thread executes. -/
theorem polling_locked {f : NativeTaskWorker → β × NativeTaskWorker} {Q : β → BookNote → Prop}
    (h : ∀ calls recorded w, Books (calls ++ w.jobs) recorded w → n.Knows w →
      ∃ l, Books (calls ++ (f w).2.jobs) recorded (f w).2 ∧ l.Knows (f w).2 ∧ Q (f w).1 l) :
    Polling host crew i (NativeTaskWorker.locked f) n Q := by
  intro s notes o x s' hs hl hx
  rw [handle_of (Or.inl rfl)] at hx
  cases hx
  obtain ⟨hbooks, hknows⟩ := hs.1 i
  rw [hl] at hknows
  obtain ⟨l, hbooks', hknows', hQ⟩ := h _ _ _ hbooks hknows
  exact ⟨l, ⟨hs.1.poll rfl hbooks' hknows', trivial⟩, hQ⟩

/-- A block under the lock that the executing thread executes. -/
theorem working_locked {f : NativeTaskWorker → β × NativeTaskWorker} (recorded : Bool)
    (h : ∀ w, Books (n.jobs ++ w.jobs) n.recorded w →
      Books (job :: (f w).2.jobs) (BookNote.executing job recorded).recorded (f w).2 ∧
        ∀ k : BookNote, k.Knows w → k.Knows (f w).2) :
    Working host crew i job (NativeTaskWorker.locked f) n
      fun _ l => l = BookNote.executing job recorded := by
  intro s notes o x s' hs hl hx
  rw [handle_of (Or.inr rfl)] at hx
  cases hx
  obtain ⟨hbooks, hknows⟩ := hs.1 i
  rw [hl] at hbooks
  obtain ⟨hbooks', hknows'⟩ := h _ hbooks
  refine ⟨BookNote.executing job recorded, ⟨hs.1.execute rfl hbooks' (hknows' _ hknows), ?_⟩, rfl⟩
  exact ⟨recorded, Function.update_self _ _ _⟩

/-! ### The polling thread -/

open NativeTaskWorker

/-- After the first half of a round the result of the first offer has been dealt with. -/
theorem polling_publishEntry (token : PyStr) (entry : PendingFinish) (tokens : List PyStr) :
    Polling host crew i (publishEntry token entry)
      (BookNote.finishing (token :: tokens)) fun found l =>
        ∀ entry', found = some entry' → l = BookNote.settled token tokens := by
  have hsettle : ∀ entry', Polling host crew i (update (settle token entry') >>= fun _ => pure (some entry'))
      (BookNote.finishing (token :: tokens)) fun found l =>
        ∀ entry'', found = some entry'' → l = BookNote.settled token tokens := by
    intro entry'
    refine Threads.outline_bind (polling_locked (Q := fun _ l => l = BookNote.settled token tokens)
      fun calls recorded w hbooks hknows => ?_) fun _ l hl => Threads.outline_pure fun _ _ => hl
    obtain ⟨hnodup, hmem⟩ := hknows
    have htoken := hmem token List.mem_cons_self
    have hkeys : (w.pendingFinishes.set token entry').keys = w.pendingFinishes.keys :=
      PyDict.keys_set_of_mem entry' htoken
    refine ⟨BookNote.settled token tokens, hbooks.settle entry' htoken,
      ⟨hnodup, fun t ht => ?_, fun hresult => ?_⟩, rfl⟩
    · change t ∈ (w.pendingFinishes.set token entry').keys
      rw [hkeys]
      exact hmem t ht
    · exact (PyDict.mem_keys_erase.1 hresult).1 rfl
  refine Threads.outline_bind (polling_locked (Q := fun found l =>
    (found = none → l = BookNote.settled token tokens) ∧
      ∀ result, found = some result → l = BookNote.finishing (token :: tokens))
    fun calls recorded w hbooks hknows => ?_) ?_
  · cases hresult : w.pendingResults.get? token with
    | none =>
        refine ⟨BookNote.settled token tokens, hbooks, ⟨hknows.1, hknows.2, ?_⟩, fun _ => rfl,
          fun result h => ?_⟩
        · exact PyDict.get?_eq_none_iff.1 hresult
        · cases hresult.symm.trans h
    | some result =>
        refine ⟨BookNote.finishing (token :: tokens), hbooks, hknows, fun h => ?_, fun _ _ => rfl⟩
        cases hresult.symm.trans h
  rintro found l ⟨hnone, hsome⟩
  cases found with
  | none => exact Threads.outline_pure fun _ _ => hnone rfl
  | some result =>
      obtain rfl := hsome result rfl
      refine Threads.outline_bind (booking_quiet (Or.inl rfl) (quiet_rpc _) _) ?_
      rintro answer _ rfl
      cases answer with
      | error e => exact Threads.outline_pure fun _ h => by cases h
      | ok persisted =>
          dsimp only
          split_ifs
          · refine Threads.outline_bind
              (booking_quiet (Or.inl rfl) (quiet_onQueryResult token result) _) ?_
            rintro _ _ rfl
            exact hsettle entry
          · exact hsettle { entry with outcome := "cancelled", statusCode := 1 }

/-- A run that has been finished is forgotten. -/
theorem polling_finishEntry (token : PyStr) (entry : PendingFinish) (tokens : List PyStr) :
    Polling host crew i (finishEntry token entry)
      (BookNote.settled token tokens) fun finished l =>
        finished = true → l = BookNote.finishing tokens := by
  refine Threads.outline_bind (booking_quiet (Or.inl rfl) (quiet_rpc _) _) ?_
  rintro answer _ rfl
  cases answer with
  | error e => exact Threads.outline_pure fun h => by cases h
  | ok reply =>
      refine Threads.outline_bind (polling_locked (Q := fun _ l => l = BookNote.finishing tokens)
        fun calls recorded w hbooks hknows => ?_) fun _ l hl => Threads.outline_pure fun _ => hl
      obtain ⟨hnodup, hmem, hresult⟩ := hknows
      obtain ⟨hnotin, hnodup'⟩ := List.nodup_cons.1 hnodup
      refine ⟨BookNote.finishing tokens, hbooks.finish (hmem token List.mem_cons_self) hresult,
        ⟨hnodup', fun t ht => ?_⟩, rfl⟩
      refine PyDict.mem_keys_erase.2 ⟨?_, hmem t (List.mem_cons_of_mem _ ht)⟩
      rintro rfl
      exact hnotin ht

theorem polling_finishEntries (entries : List (PyStr × PendingFinish)) :
    Polling host crew i (finishEntries entries)
      (BookNote.finishing (entries.map Prod.fst)) fun _ _ => True := by
  induction entries with
  | nil => exact Threads.outline_pure trivial
  | cons e rest ih =>
      obtain ⟨token, entry⟩ := e
      refine Threads.outline_bind (polling_publishEntry token entry (rest.map Prod.fst)) ?_
      intro found l hfound
      cases found with
      | none => exact Threads.outline_pure trivial
      | some entry' =>
          obtain rfl := hfound entry' rfl
          refine Threads.outline_bind (polling_finishEntry token entry' (rest.map Prod.fst)) ?_
          intro finished l hfinished
          cases finished with
          | true =>
              obtain rfl := hfinished rfl
              exact ih
          | false => exact Threads.outline_pure trivial

theorem polling_finishPending (n : BookNote) :
    Polling host crew i finishPending n fun _ _ => True := by
  refine Threads.outline_bind (polling_locked (Q := fun entries l =>
    l = BookNote.finishing (entries.map Prod.fst)) fun calls recorded w hbooks _ => ?_) ?_
  · exact ⟨BookNote.finishing w.pendingFinishes.keys, hbooks,
      ⟨w.pendingFinishes.keys_nodup, fun t ht => ht⟩, rfl⟩
  · rintro entries _ rfl
    exact polling_finishEntries entries

/-- An offer is submitted only while there is room. -/
theorem polling_submitOffer (config : WorkerConfig) (event : SystemEvent)
    (task : Option TaskRecord) :
    Polling host crew i (submitOffer config event task) BookNote.room
      fun _ _ => True := by
  have hdefer : ∀ seconds, Polling host crew i (deferOffer event seconds >>= fun _ => pure false) BookNote.room fun _ _ => True :=
    fun seconds => Threads.outline_bind
      (booking_quiet (Or.inl rfl) (quiet_deferOffer event seconds) _)
      fun _ _ _ => Threads.outline_pure trivial
  cases task with
  | none => exact hdefer 30
  | some task =>
      simp only [submitOffer]
      split_ifs
      · refine Threads.outline_bind (booking_quiet (Or.inl rfl) (quiet_selectAgent config task) _) ?_
        rintro found _ rfl
        cases found with
        | none => exact hdefer 2
        | some agentId =>
            refine Threads.outline_bind (booking_quiet (Or.inl rfl) quiet_admits _) ?_
            rintro admitted _ rfl
            refine polling_locked fun calls recorded w hbooks hknows => ?_
            refine ⟨BookNote.idle, ?_, trivial, trivial⟩
            unfold submit
            split_ifs with hrefused
            · exact hbooks
            · rw [not_or, not_or] at hrefused
              have hnew := hbooks.submit { event, task, agentId } hrefused.1
                hrefused.2.1 hknows
              refine hnew.perm ?_
              rw [← List.append_assoc]
              exact @List.perm_append_comm _ [_] _
      · exact hdefer 30

/-- **The polling thread keeps the books.** -/
theorem polling_pollOnce (config : WorkerConfig) (n : BookNote) :
    Polling host crew i (pollOnce config) n fun _ _ => True := by
  have hfalse : ∀ n, Polling host crew i (pure false : WorkerM Bool) n
      fun _ _ => True := fun _ => Threads.outline_pure trivial
  refine Threads.outline_bind (booking_quiet (Or.inl rfl) quiet_heartbeat n) ?_
  rintro ready _ rfl
  cases ready with
  | false => exact hfalse _
  | true =>
  refine Threads.outline_bind (booking_quiet (Or.inl rfl) quiet_canRun _) ?_
  rintro may _ rfl
  cases may with
  | false => exact hfalse _
  | true =>
  refine Threads.outline_bind (polling_finishPending _) ?_
  rintro finished n' -
  cases finished with
  | false => exact hfalse _
  | true =>
  refine Threads.outline_bind (booking_quiet (Or.inl rfl) quiet_flushDefers _) ?_
  rintro flushed _ rfl
  cases flushed with
  | false => exact hfalse _
  | true =>
  refine Threads.outline_bind (booking_quiet (Or.inl rfl) quiet_clock _) ?_
  rintro now _ rfl
  refine Threads.outline_bind (polling_locked (Q := fun args l =>
    ∀ p, args = some p → l = BookNote.room) fun calls recorded w hbooks _ => ?_) ?_
  · unfold pullArgs
    split_ifs with hfull
    · exact ⟨BookNote.idle, hbooks, trivial, fun p h => by cases h⟩
    · exact ⟨BookNote.room, hbooks.same ⟨rfl, rfl, rfl, rfl, rfl⟩, not_le.1 hfull, fun _ _ => rfl⟩
  intro args l hargs
  cases args with
  | none => exact hfalse _
  | some p =>
  obtain rfl := hargs p rfl
  obtain ⟨seen, skipRunIds⟩ := p
  refine Threads.outline_bind (booking_quiet (Or.inl rfl) (quiet_rpc _) _) ?_
  rintro answer _ rfl
  split
  · rename_i event
    split_ifs
    · exact hfalse _
    · refine Threads.outline_bind (booking_quiet (Or.inl rfl) (quiet_rpc _) _) ?_
      rintro answer _ rfl
      split
      · exact polling_submitOffer config event _
      · exact hfalse _
  · exact hfalse _

theorem polling_close (n : BookNote) :
    Polling host crew i close n fun _ _ => True := by
  have hready : (update fun w => { w with ready := false }).All Quiet :=
    quiet_update fun _ => ⟨rfl, rfl, rfl, rfl, rfl⟩
  refine Threads.outline_bind (polling_finishPending n) ?_
  rintro _ n' -
  refine Threads.outline_bind (booking_quiet (Or.inl rfl) quiet_flushDefers _) ?_
  rintro _ _ rfl
  refine Threads.outline_bind (booking_quiet (Or.inl rfl) (quiet_rpc _) _) ?_
  rintro _ _ rfl
  refine Threads.outline_bind (booking_quiet (Or.inl rfl) hready _) ?_
  rintro _ _ rfl
  exact Threads.outline_pure trivial

/-! ### The executing thread -/

/-- What the body of an execution leaves: a result was recorded only if the run has begun. -/
def Worked (job : Job) (e : Execution) (l : BookNote) : Prop :=
  ∃ recorded, l = BookNote.executing job recorded ∧ (recorded = true → e.started = true)

theorem worked_unrecorded (job : Job) (e : Execution) :
    Worked job e (BookNote.executing job false) := ⟨false, rfl, fun h => by cases h⟩

theorem working_runModel (job : Job) (instruction : PyStr) :
    Working host crew i job (runModel job instruction)
      (BookNote.executing job false) (Worked job) := by
  refine Threads.outline_bind (booking_asks (Or.inr rfl) fun _ _ h => by cases h) ?_
  rintro outcome _ rfl
  cases outcome with
  | raised => exact Threads.outline_pure (worked_unrecorded job _)
  | returned free statusCode text =>
      dsimp only
      by_cases hrecords : Records job (statusOf free statusCode) text
      · rw [if_pos hrecords]
        refine Threads.outline_bind (working_locked true
          fun w hbooks => ⟨?_, fun k hk => ?_⟩) ?_
        · exact hbooks.record _ (Or.inl rfl)
        · cases k with
          | settled token tokens =>
              obtain ⟨hnodup, hmem, hresult⟩ := hk
              refine ⟨hnodup, hmem, fun hnew => ?_⟩
              rcases PyDict.mem_keys_set.1 hnew with rfl | hold
              · exact hbooks.finished _ (hmem _ List.mem_cons_self) List.mem_cons_self
              · exact hresult hold
          | _ => exact hk
        · rintro _ _ rfl
          exact Threads.outline_pure ⟨true, rfl, fun _ => rfl⟩
      · rw [if_neg hrecords]
        exact Threads.outline_pure (worked_unrecorded job _)

theorem working_runBegun (config : WorkerConfig) (job : Job) :
    Working host crew i job (runBegun config host job)
      (BookNote.executing job false) (Worked job) := by
  unfold runBegun
  split_ifs
  · refine Threads.outline_bind (booking_quiet (Or.inr rfl) (quiet_rpc _) _) ?_
    rintro answer _ rfl
    split
    · split
      · exact Threads.outline_pure (worked_unrecorded job _)
      · exact Threads.outline_pure (worked_unrecorded job _)
      · exact working_runModel job _
    · exact Threads.outline_pure (worked_unrecorded job _)
  · exact working_runModel job _

/-- **The body of an execution** changes the books only by recording its result. -/
theorem working_executeBody (config : WorkerConfig) (job : Job) :
    Working host crew i job (executeBody config host job)
      (BookNote.executing job false) (Worked job) := by
  have hdone : ∀ e, Working host crew i job (pure e : WorkerM Execution)
      (BookNote.executing job false) (Worked job) :=
    fun e => Threads.outline_pure (worked_unrecorded job e)
  refine Threads.outline_bind (booking_quiet (Or.inr rfl) quiet_canRun _) ?_
  rintro may _ rfl
  cases may with
  | false => exact hdone _
  | true =>
  refine Threads.outline_bind (booking_quiet (Or.inr rfl) quiet_agentStatus _) ?_
  rintro agents _ rfl
  refine Threads.outline_bind (booking_quiet (Or.inr rfl) (quiet_agentBlocked job.agentId) _) ?_
  rintro blocked _ rfl
  split_ifs
  · refine Threads.outline_bind (booking_quiet (Or.inr rfl) (quiet_rpc _) _) ?_
    rintro answer _ rfl
    cases answer with
    | error e =>
        refine Threads.outline_bind (booking_quiet (Or.inr rfl) quiet_clock _) ?_
        rintro now _ rfl
        have hdefer : (update fun w =>
            { w with deferred := w.deferred.set job.event.runId (now + 2) }).All Quiet :=
          quiet_update fun _ => ⟨rfl, rfl, rfl, rfl, rfl⟩
        refine Threads.outline_bind (booking_quiet (Or.inr rfl) hdefer _) ?_
        rintro _ _ rfl
        exact hdone _
    | ok allowed =>
        dsimp only
        split_ifs
        · refine Threads.outline_bind (booking_quiet (Or.inr rfl) (quiet_rpc _) _) ?_
          rintro answer _ rfl
          cases answer with
          | error e => exact hdone _
          | ok valid =>
              dsimp only
              split_ifs
              · exact working_runBegun config job
              · exact hdone _
        · exact hdone _
  · exact hdone _

/-- **The end of an execution** closes the books on its job. -/
theorem Booked.release (h : Booked s notes) {e : Execution}
    (hw : Worked job e (notes (WorkerThread.executing i)))
    (hs : s'.workers = Function.update s.workers i (NativeTaskWorker.release job e (s.workers i))) :
    Booked s' (Function.update notes (WorkerThread.executing i) BookNote.idle) := by
  obtain ⟨recorded, hnote, hstarted⟩ := hw
  obtain ⟨hbooks, hknows⟩ := h i
  rw [hnote] at hbooks
  refine h.execute hs ?_ ?_
  · have hjobs : (NativeTaskWorker.release job e (s.workers i)).jobs = (s.workers i).jobs := by
      unfold NativeTaskWorker.release
      split_ifs <;> rfl
    rw [hjobs]
    refine Books.release hbooks e ?_
    cases recorded with
    | false => exact Or.inl rfl
    | true => exact Or.inr ⟨rfl, hstarted rfl⟩
  · unfold NativeTaskWorker.release
    cases hn : notes (WorkerThread.polling i) with
    | idle | executing => trivial
    | finishing tokens =>
        rw [hn] at hknows
        split_ifs
        · exact ⟨hknows.1, fun t ht => PyDict.mem_keys_set.2 (Or.inr (hknows.2 t ht))⟩
        · exact hknows
    | settled token tokens =>
        rw [hn] at hknows
        split_ifs
        · exact ⟨hknows.1, fun t ht => PyDict.mem_keys_set.2 (Or.inr (hknows.2.1 t ht)),
            hknows.2.2⟩
        · exact hknows
    | room =>
        rw [hn] at hknows
        split_ifs
        · exact hknows
        · exact (List.length_filter_le _ _).trans_lt hknows

end WorkerSystem

/-! ### The system -/

namespace Workers

variable {ι : Type} [DecidableEq ι] {host : Host} {crew : Workers ι} {s s' : WorkerSystem ι}
  {notes : WorkerThread ι → BookNote} {i : ι}

open NativeTaskWorker (Books executeBody release update)
open WorkerSystem (Booked Polling Working Worked)

variable (host crew) in
/-- What is left of the program of a thread, and its note. -/
def InStep : WorkerThread ι → WorkerM Unit → BookNote → Prop
  | WorkerThread.outside, p, _ => p = Program.done ()
  | WorkerThread.polling i, p, n => Polling host crew i p n fun _ _ => True
  | WorkerThread.executing i, p, n => (p = Program.done () ∧ n = BookNote.idle) ∨
      ∃ job q recorded, n = BookNote.executing job recorded ∧
        Program.Rest (executeBody (crew.config i) host job) q ∧
        p = (q >>= fun e => update (release job e)) ∧ Working host crew i job q n (Worked job)

omit [DecidableEq ι] in
theorem booked_of_init (h : Initial host s) : Booked s fun _ => BookNote.idle := by
  intro i
  rw [h.2.1 i]
  exact ⟨NativeTaskWorker.books_initial, trivial⟩

theorem inStep_idle (j : WorkerThread ι) :
    InStep host crew j (Program.done ()) BookNote.idle := by
  cases j with
  | outside => exact rfl
  | polling i =>
      change True
      trivial
  | executing i => exact Or.inl ⟨rfl, rfl⟩

/-- A thread that has nothing left to do has the note of an idle thread. -/
theorem inStep_done {a : Unit} {n : BookNote}
    (h : InStep host crew (WorkerThread.executing i) (Program.done a) n) : n = BookNote.idle := by
  rcases h with ⟨_, hn⟩ | ⟨job, q, _, _, _, hp, _⟩
  · exact hn
  · cases q <;> cases hp

/-- What a thread takes up. -/
theorem booked_starts {j : WorkerThread ι} {o : WorkerChoice} {a : Unit} {p : WorkerM Unit}
    (h : Booked s notes) (hj : InStep host crew j (Program.done a) (notes j))
    (hstart : (crew.threads host).starts j o s = some (p, s')) :
    ∃ n, Booked s' (Function.update notes j n) ∧ InStep host crew j p n := by
  have hkeep : ∀ s', s'.workers = s.workers → Booked s' (Function.update notes j (notes j)) := by
    intro s' hs
    rw [Function.update_eq_self]
    exact h.of_workers hs
  cases j with
  | outside =>
      refine ⟨notes WorkerThread.outside, ?_⟩
      cases o with
      | input inp =>
          cases hstart
          exact ⟨hkeep _ rfl, rfl⟩
      | deliver n env =>
          simp only [threads, starts] at hstart
          split at hstart
          · cases hstart
          · split_ifs at hstart
            · cases hstart
              exact ⟨hkeep _ rfl, rfl⟩
            · cases hstart
              exact ⟨hkeep _ rfl, rfl⟩
      | _ => cases hstart
  | polling i =>
      refine ⟨notes (WorkerThread.polling i), ?_⟩
      cases o with
      | poll =>
          cases hstart
          exact ⟨hkeep _ rfl, Threads.outline_bind (WorkerSystem.polling_pollOnce _ _)
            fun _ _ _ => Threads.outline_pure trivial⟩
      | close =>
          cases hstart
          exact ⟨hkeep _ rfl, Threads.outline_bind (WorkerSystem.polling_close _)
            fun _ _ _ => Threads.outline_pure trivial⟩
      | _ => cases hstart
  | executing i =>
      have hidle := inStep_done hj
      cases o with
      | execute n =>
          simp only [threads, starts] at hstart
          split at hstart
          · cases hstart
          · rename_i job hjob
            cases hstart
            obtain ⟨hbooks, hknows⟩ := h i
            rw [hidle] at hbooks
            refine ⟨BookNote.executing job false, h.execute rfl ?_ ?_, Or.inr
              ⟨job, _, false, rfl, Program.Rest.start, rfl, WorkerSystem.working_executeBody _ job⟩⟩
            · -- The job moves from the queue to the thread.
              obtain ⟨hn, hget⟩ := List.getElem?_eq_some_iff.1 hjob
              have hperm := List.getElem_cons_eraseIdx_perm hn
              rw [hget] at hperm
              have hmoved := hbooks.perm hperm.symm
              exact ⟨hmoved.agents, hmoved.reserved_nodup, hmoved.reserved, hmoved.tokens,
                hmoved.finished, hmoved.seen_nodup, hmoved.seen, hmoved.bound, hmoved.results⟩
            · cases hn : notes (WorkerThread.polling i) with
              | idle | executing => trivial
              | finishing | settled | room =>
                  rw [hn] at hknows
                  exact hknows
      | _ => cases hstart

/-- An operation of a thread. -/
theorem booked_handle {j : WorkerThread ι} {e : WorkerEffect} {next : e.Answer → WorkerM Unit}
    {o : WorkerChoice} {x : e.Answer} (h : Booked s notes)
    (hj : InStep host crew j (Program.perform e next) (notes j))
    (hx : (crew.threads host).handle j e o s = some (x, s')) :
    ∃ n, Booked s' (Function.update notes j n) ∧ InStep host crew j (next x) n := by
  cases j with
  | outside => cases hj
  | polling i =>
      obtain ⟨n, ⟨hs', _⟩, hnext⟩ := hj s notes o x s' ⟨h, trivial⟩ rfl hx
      exact ⟨n, hs', hnext⟩
  | executing i =>
      rcases hj with ⟨hp, _⟩ | ⟨job, q, recorded, hn, hrest, hp, hwork⟩
      · cases hp
      · cases q with
        | done result =>
            cases hp
            rw [WorkerSystem.handle_of (Or.inr rfl)] at hx
            cases hx
            exact ⟨BookNote.idle, h.release hwork rfl, Or.inl ⟨rfl, rfl⟩⟩
        | perform e' next' =>
            cases hp
            obtain ⟨n, ⟨hs', recorded', hn'⟩, hnext⟩ :=
              hwork s notes o x s' ⟨h, recorded, hn⟩ rfl hx
            rw [Function.update_self] at hn'
            exact ⟨n, hs', Or.inr ⟨job, next' x, recorded', hn', hrest.step x, rfl, hnext⟩⟩

variable (host crew) in
/-- The worker `i` is in the midst of executing a job: something of the body of `_execute` is left,
and its `finally`. -/
def Executing (c : Threads.Config (WorkerThread ι) WorkerEffect WorkerEffect.Answer (WorkerSystem ι))
    (i : ι) (job : Job) : Prop :=
  ∃ q, Program.Rest (executeBody (crew.config i) host job) q ∧
    c.threads (WorkerThread.executing i) = (q >>= fun e => update (release job e))

/-- **The books are in order in every reachable state**, whatever becomes of the calls, of the
agents and of the submissions.  The calls of `_execute` that are not finished are the job that the
worker is executing, if there is one, and those that wait in the scheduler. -/
theorem bookkeeping {c : Threads.Config (WorkerThread ι) WorkerEffect WorkerEffect.Answer
    (WorkerSystem ι)} (h : (crew.threads host).machine.Reachable c) (i : ι) :
    ∃ current : List Job,
      (c.threads (WorkerThread.executing i) = Program.done () ∧ current = [] ∨
        ∃ job, Executing host crew c i job ∧ current = [job]) ∧
      ∃ w calls, w = c.state.workers i ∧ calls = current ++ w.jobs ∧
        -- The reserved agents are those of the calls, with one call each.
        (calls.map Job.agentId).Nodup ∧ w.reserved.Nodup ∧
        (∀ a, a ∈ w.reserved ↔ ∃ job ∈ calls, job.agentId = a) ∧
        -- The offers that are seen are being worked on, or wait to be finished.
        (calls.map Job.token).Nodup ∧ w.seen.Nodup ∧
        (∀ t, t ∈ w.seen ↔ (∃ job ∈ calls, job.token = t) ∨ t ∈ w.pendingFinishes.keys) ∧
        w.seen.length ≤ 32 ∧
        -- No result is orphaned.
        ∀ t ∈ w.pendingResults.keys, (∃ job ∈ calls, job.token = t) ∨
          t ∈ w.pendingFinishes.keys := by
  obtain ⟨notes, hbooked, hthreads⟩ : ∃ notes, Booked c.state notes ∧
      ∀ j, InStep host crew j (c.threads j) (notes j) :=
    Threads.invariant_of_step (fun _ _ => True) (InStep host crew) BookNote.idle inStep_idle
    (fun s hs => booked_of_init hs)
    (fun j o s notes a p s' hs hj _ hstart => booked_starts hs hj hstart)
    (fun j e next o s notes x s' hs hj hx => booked_handle hs hj hx) h
  obtain ⟨hbooks, _⟩ := hbooked i
  have htokens : ∀ {calls : List Job} {t : PyStr}, t ∈ calls.map Job.token ↔
      ∃ job ∈ calls, job.token = t := List.mem_map
  have hresult : ∀ t ∈ (c.state.workers i).pendingResults.keys,
      (∃ job ∈ (notes (WorkerThread.executing i)).jobs ++ (c.state.workers i).jobs,
        job.token = t) ∨ t ∈ (c.state.workers i).pendingFinishes.keys := by
    intro t ht
    refine (hbooks.results t ht).imp_left fun hrecorded => ?_
    cases hn : notes (WorkerThread.executing i) with
    | executing job recorded =>
        rw [hn] at hrecorded
        cases recorded with
        | true => exact ⟨job, List.mem_cons_self, Option.some.inj hrecorded⟩
        | false => cases hrecorded
    | idle | finishing | settled | room =>
        rw [hn] at hrecorded
        cases hrecorded
  refine ⟨(notes (WorkerThread.executing i)).jobs, ?_, _, _, rfl, rfl, hbooks.agents,
    hbooks.reserved_nodup, fun a => (hbooks.reserved a).trans List.mem_map, hbooks.tokens,
    hbooks.seen_nodup, fun t => (hbooks.seen t).trans (or_congr htokens Iff.rfl), hbooks.bound, hresult⟩
  rcases hthreads (WorkerThread.executing i) with ⟨hp, hn⟩ | ⟨job, q, recorded, hn, hrest, hp, _⟩
  · rw [hn]
    exact Or.inl ⟨hp, rfl⟩
  · rw [hn]
    exact Or.inr ⟨job, ⟨q, hrest, hp⟩, rfl⟩

/-- The worker has executed a run, which is not finished yet. -/
def worked : Threads.Config (WorkerThread Unit) WorkerEffect WorkerEffect.Answer
    (WorkerSystem Unit) :=
  ((TaskEngine.oneTask ++ [Input.call Env.quiet (Op.runTask 1) []]).map outer ++
    pollAndExecute).foldl ((single.threads Host.ascii).turn 100) start

theorem reachable_worked : (single.threads Host.ascii).machine.Reachable worked :=
  Threads.reachable_turns (Machine.Reach.of_init (start_init Host.ascii)) 100 _

/-- Its offer is seen, and its agent is free again. -/
theorem bookkeeping_worked : (worked.state.workers ()).seen.length = 1 ∧
    (worked.state.workers ()).reserved.length = 0 ∧
    (worked.state.workers ()).seen.length ≤ 32 := by
  obtain ⟨current, _, w, calls, hw, _, _, _, _, _, _, _, hbound, _⟩ :=
    bookkeeping reachable_worked ()
  rw [hw] at hbound
  exact ⟨by decide +kernel, by decide +kernel, hbound⟩

end Workers
