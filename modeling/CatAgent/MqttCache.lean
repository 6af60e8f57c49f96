/-
**The cache of a persistent MQTT subscription.**

An `MqttCache` keeps the last payload of each of its topics while a client of the broker is
connected.  The client's network thread calls back into it when the connection is accepted or
refused, when it is lost and when a message arrives; any number of threads read it, each with a
timeout of its own, and some thread closes it.  Every one of them takes the one lock of the cache,
so a run is a sequence of locked blocks: a callback, the first pass of a `read`, or another pass
after a wait, which may end at any moment.  What a reader computes before it takes the lock, its
deadline, is a step of its own.

The cache is compared with what the network thread has told it.  `Link` is that story: whether the
connection stands, whether the cache was closed, and the last message of every topic since the
latest successful connect, whatever its size.

Main definitions:

* `MqttCache`, `MqttCache.onConnect`, `MqttCache.onDisconnect`, `MqttCache.onMessage`,
  `MqttCache.look`, `MqttCache.enter`, `MqttCache.close`, `MqttCache.machine` — the code;
* `MqttCache.Link`, `MqttCache.link` — what the network thread has told;
* `MqttCache.Tracks` — **the invariant**: the cache holds exactly the last messages that are small
  enough, of its own topics, while the connection stands.

Main results:

* `MqttCache.last_iff` — where the last message of a topic stands in the record;
* `MqttCache.sound_of_reachable` — the invariant holds in every run;
* `MqttCache.read_fresh` — **every payload that a read returns is the last one, small and young**.
-/

import CatAgent.Machine
import CatAgent.PyDict
import CatAgent.PyStr
import Mathlib.Algebra.Order.Ring.Rat
import Mathlib.Logic.Function.Basic

set_option relaxedAutoImplicit false
set_option autoImplicit false

namespace MqttCache

/-- The largest payload that is kept. -/
def payloadLimit : ℕ := 65536

/-- A payload held for a topic: `(payload, received_at, retained)`. -/
structure Held where
  payload : List UInt8
  receivedAt : ℚ
  retained : Bool
  deriving DecidableEq

/-- A message, as the network thread delivers it at the time `time`. -/
structure Message where
  topic : PyStr
  payload : List UInt8
  retain : Bool
  time : ℚ
  deriving DecidableEq

/-- What is kept of a message. -/
def Message.held (message : Message) : Held := ⟨message.payload, message.time, message.retain⟩

/-- What a read returns: `(payload, age, retained)`. -/
structure Reading where
  payload : List UInt8
  age : ℚ
  retained : Bool
  deriving DecidableEq

/-- Where a reading thread stands. -/
inductive Reader
  /-- Outside `read`. -/
  | idle
  /-- The deadline is computed, the lock not yet taken. -/
  | entering (topic : PyStr) (deadline : ℚ)
  /-- Inside `_cv.wait`. -/
  | waiting (topic : PyStr) (deadline : ℚ)
  deriving DecidableEq

/-- What is recorded of a run; `ι` names the reading threads. -/
inductive Note (ι : Type*)
  | connect (reasonCode : ℤ)
  | disconnect
  | message (message : Message)
  | close
  | subscribed (topics : List PyStr)
  | returned (reader : ι) (topic : PyStr) (time : ℚ) (reading : Reading)
  | raised (reader : ι) (topic : PyStr) (error : PyStr)
  deriving DecidableEq

end MqttCache

/-- The fields of a cache, the clock, the threads that read it, and the record of the run, latest
note first.  `client` says whether there is a client. -/
structure MqttCache (ι : Type*) where
  now : ℚ
  client : Bool
  connected : Bool
  closed : Bool
  values : PyDict PyStr MqttCache.Held
  readers : ι → MqttCache.Reader
  log : List (MqttCache.Note ι)

namespace MqttCache

variable {ι : Type*}

/-- A new cache at the time `now`. -/
def new (now : ℚ) : MqttCache ι :=
  ⟨now, false, false, false, PyDict.empty, fun _ => .idle, []⟩

/-- Record something. -/
def note (n : Note ι) (cache : MqttCache ι) : MqttCache ι := { cache with log := n :: cache.log }

/-! ### The callbacks of the network thread -/

/-- `_on_connect`. -/
def onConnect (topics : List PyStr) (reasonCode : ℤ) (cache : MqttCache ι) : MqttCache ι :=
  if cache.closed then cache.note (.connect reasonCode)
  else if reasonCode = 0 then
    ({ cache with values := PyDict.empty, connected := true }.note (.connect reasonCode)).note
      (.subscribed topics)
  else { cache with values := PyDict.empty, connected := false }.note (.connect reasonCode)

/-- `_on_disconnect`. -/
def onDisconnect (cache : MqttCache ι) : MqttCache ι :=
  { cache with values := PyDict.empty, connected := false }.note .disconnect

/-- `_on_message`. -/
def onMessage (topics : List PyStr) (topic : PyStr) (payload : List UInt8) (retain : Bool)
    (cache : MqttCache ι) : MqttCache ι :=
  let message : Message := ⟨topic, payload, retain, cache.now⟩
  if cache.closed = true ∨ cache.connected = false ∨ topic ∉ topics then
    cache.note (.message message)
  else if payloadLimit < payload.length then
    { cache with values := cache.values.erase topic }.note (.message message)
  else { cache with values := cache.values.set topic message.held }.note (.message message)

/-- `close`.  What it does to the client after it has given up the lock calls nothing of the
cache. -/
def close (cache : MqttCache ι) : MqttCache ι :=
  { cache with closed := true, connected := false, values := PyDict.empty, client := false }.note
    .close

/-! ### Reading -/

/-- What the library does with a client that `_start` makes. -/
inductive Started
  | running
  | failed (error : PyStr)
  deriving DecidableEq

/-- `_start`: a client is made when there is none, and dropped again when it cannot be started. -/
def start (outcome : Started) (cache : MqttCache ι) : Except PyStr (MqttCache ι) :=
  if cache.client then .ok cache
  else
    match outcome with
    | .running => .ok { cache with client := true }
    | .failed error => .error error

section Readers

variable [DecidableEq ι]

/-- The reader `i` moves to `reader`. -/
def move (i : ι) (reader : Reader) (cache : MqttCache ι) : MqttCache ι :=
  { cache with readers := Function.update cache.readers i reader }

/-- `read` returns. -/
def answer (i : ι) (topic : PyStr) (reading : Reading) (cache : MqttCache ι) : MqttCache ι :=
  (cache.move i .idle).note (.returned i topic cache.now reading)

/-- `read` raises. -/
def refuse (i : ι) (topic : PyStr) (error : PyStr) (cache : MqttCache ι) : MqttCache ι :=
  (cache.move i .idle).note (.raised i topic error)

/-- One pass of the loop of `read`, and what follows the loop when the cache is closed. -/
def look (maxAge : ℚ) (i : ι) (topic : PyStr) (deadline : ℚ) (cache : MqttCache ι) :
    MqttCache ι :=
  if cache.closed then cache.refuse i topic "MQTT cache is closed"
  else
    match (if cache.connected then cache.values.get? topic else none) with
    | some held =>
        let age := cache.now - held.receivedAt
        if age ≤ maxAge then cache.answer i topic ⟨held.payload, age, held.retained⟩
        else cache.refuse i topic "MQTT cached message expired"
    | none =>
        if deadline - cache.now ≤ 0 then
          cache.refuse i topic "MQTT cache has no connected, fresh message"
        else cache.move i (.waiting topic deadline)

/-- The locked part of `read` up to its first wait. -/
def enter (maxAge : ℚ) (i : ι) (topic : PyStr) (deadline : ℚ) (outcome : Started)
    (cache : MqttCache ι) : MqttCache ι :=
  if cache.closed then cache.refuse i topic "MQTT cache is closed"
  else
    match cache.start outcome with
    | .error error => cache.refuse i topic error
    | .ok cache => cache.look maxAge i topic deadline

/-- What happens next. -/
inductive Input (ι : Type*)
  /-- The clock advances by `|elapsed|`. -/
  | pass (elapsed : ℚ)
  | connect (reasonCode : ℤ)
  | disconnect
  | message (topic : PyStr) (payload : List UInt8) (retain : Bool)
  | close
  /-- An idle thread calls `read`. -/
  | read (i : ι) (topic : PyStr) (timeout : ℚ)
  /-- It takes the lock. -/
  | enter (i : ι) (outcome : Started)
  /-- Its wait ends: it was notified, its time is over, or neither. -/
  | wake (i : ι)

/-- One step of a run. -/
def step (topics : List PyStr) (maxAge : ℚ) (cache : MqttCache ι) : Input ι → MqttCache ι
  | .pass elapsed => { cache with now := cache.now + |elapsed| }
  | .connect reasonCode => cache.onConnect topics reasonCode
  | .disconnect => cache.onDisconnect
  | .message topic payload retain => cache.onMessage topics topic payload retain
  | .close => cache.close
  | .read i topic timeout =>
      match cache.readers i with
      | .idle => cache.move i (.entering topic (cache.now + timeout))
      | .entering _ _ | .waiting _ _ => cache
  | .enter i outcome =>
      match cache.readers i with
      | .entering topic deadline => cache.enter maxAge i topic deadline outcome
      | .idle | .waiting _ _ => cache
  | .wake i =>
      match cache.readers i with
      | .waiting topic deadline => cache.look maxAge i topic deadline
      | .idle | .entering _ _ => cache

/-- A cache of `topics` with the age limit `maxAge`, in use.  Of the topics only membership
counts, and their order, in which `dict.fromkeys` keeps their first occurrences. -/
def machine (ι : Type*) [DecidableEq ι] (topics : List PyStr) (maxAge : ℚ) :
    Machine (MqttCache ι) (Input ι) where
  init := fun cache => ∃ now, cache = new now
  step := step (PyDict.ofList (topics.map fun topic => (topic, ()))).keys maxAge

end Readers

/-! ### What the network thread has told -/

/-- The story of the connection: whether it stands, whether the cache was closed, and the last
message of every topic since the latest successful connect. -/
structure Link where
  connected : Bool
  closed : Bool
  last : PyStr → Option Message

/-- The story after one more note. -/
def Link.after (l : Link) : Note ι → Link
  | .connect reasonCode =>
      if reasonCode = 0 then { l with connected := true, last := fun _ => none }
      else { l with connected := false }
  | .disconnect => { l with connected := false }
  | .message message => { l with last := Function.update l.last message.topic (some message) }
  | .close => { l with closed := true }
  | .subscribed _ | .returned _ _ _ _ | .raised _ _ _ => l

/-- The story that a record tells. -/
def link : List (Note ι) → Link
  | [] => ⟨false, false, fun _ => none⟩
  | n :: log => (link log).after n

@[simp] theorem link_nil : link ([] : List (Note ι)) = ⟨false, false, fun _ => none⟩ := rfl

@[simp] theorem link_cons (n : Note ι) (log : List (Note ι)) :
    link (n :: log) = (link log).after n := rfl

/-- A note after which the last message of `topic` is another one, or none. -/
def Note.Replaces (topic : PyStr) : Note ι → Prop
  | .connect reasonCode => reasonCode = 0
  | .message m => m.topic = topic
  | _ => False

theorem Link.last_after {topic : PyStr} {n : Note ι} (h : ¬n.Replaces topic) (l : Link) :
    (l.after n).last topic = l.last topic := by
  cases n with
  | connect reasonCode => simp [Link.after, if_neg (show ¬reasonCode = 0 from h)]
  | message message =>
      exact Function.update_of_ne (fun heq => h heq.symm) _ _
  | disconnect => rfl
  | close => rfl
  | subscribed topics => rfl
  | returned i topic time reading => rfl
  | raised i topic error => rfl

/-- **Where the last message of a topic stands**: after it came neither another message of the
topic nor a successful connect. -/
theorem last_iff {topic : PyStr} {message : Message} {log : List (Note ι)} :
    (link log).last topic = some message ↔ message.topic = topic ∧ ∃ newer older,
      log = newer ++ .message message :: older ∧ ∀ n ∈ newer, ¬n.Replaces topic := by
  induction log with
  | nil => simp
  | cons n log ih =>
      by_cases hn : n.Replaces topic
      · constructor
        · intro h
          cases n with
          | connect reasonCode =>
              obtain rfl : reasonCode = 0 := hn
              simp [Link.after] at h
          | message m =>
              obtain rfl : m.topic = topic := hn
              obtain rfl : m = message := by simpa [Link.after] using h
              exact ⟨rfl, [], log, rfl, by simp⟩
          | disconnect | close | subscribed topics | returned i t time reading
          | raised i t error => exact False.elim hn
        · rintro ⟨htopic, newer, older, hlog, hnewer⟩
          cases newer with
          | nil =>
              obtain ⟨rfl, rfl⟩ := List.cons.inj hlog
              simp [Link.after, ← htopic]
          | cons n' newer =>
              obtain ⟨rfl, -⟩ := List.cons.inj hlog
              exact absurd hn (hnewer n (List.mem_cons_self ..))
      · rw [link_cons, Link.last_after hn, ih]
        refine and_congr_right fun htopic => ⟨?_, ?_⟩
        · rintro ⟨newer, older, rfl, hnewer⟩
          exact ⟨n :: newer, older, rfl, by simpa [hn] using hnewer⟩
        · rintro ⟨newer, older, hlog, hnewer⟩
          cases newer with
          | nil =>
              obtain ⟨rfl, -⟩ := List.cons.inj hlog
              exact absurd htopic hn
          | cons n' newer =>
              obtain ⟨rfl, rfl⟩ := List.cons.inj hlog
              exact ⟨newer, older, rfl, fun k hk => hnewer k (List.mem_cons_of_mem _ hk)⟩

/-! ### The cache holds what the story serves -/

/-- A payload that is small enough to be kept. -/
def Message.Small (message : Message) : Prop := message.payload.length ≤ payloadLimit

instance (message : Message) : Decidable message.Small :=
  inferInstanceAs (Decidable (message.payload.length ≤ payloadLimit))

/-- What a cache of `topics` should hold for a topic. -/
def Link.serves (topics : List PyStr) (l : Link) (topic : PyStr) : Option Held :=
  if l.connected = true ∧ l.closed = false ∧ topic ∈ topics then
    ((l.last topic).filter fun message => decide message.Small).map Message.held
  else none

/-- **The cache holds what the story serves.** -/
structure Tracks (topics : List PyStr) (cache : MqttCache ι) : Prop where
  closed_eq : cache.closed = (link cache.log).closed
  connected_eq : cache.connected = ((link cache.log).connected && !(link cache.log).closed)
  values_eq : ∀ topic, cache.values.get? topic = (link cache.log).serves topics topic

variable {topics : List PyStr} {maxAge : ℚ} {cache : MqttCache ι}

/-- Nothing is served when the connection is down or the cache closed, nor of a topic that is not
one of the cache's. -/
theorem Link.serves_eq_none {l : Link} {topic : PyStr}
    (h : l.closed = true ∨ (l.connected && !l.closed) = false ∨ topic ∉ topics) :
    l.serves topics topic = none := by
  refine if_neg fun hl => ?_
  rcases h with h | h | h
  · simp [h] at hl
  · simp [hl.1, hl.2.1] at h
  · exact h hl.2.2

theorem Link.closed_after_connect (l : Link) (reasonCode : ℤ) :
    (l.after (.connect reasonCode : Note ι)).closed = l.closed := by
  by_cases hcode : reasonCode = 0 <;> simp [Link.after, hcode]

theorem tracks_new (now : ℚ) : (new now : MqttCache ι).Tracks topics :=
  ⟨rfl, rfl, fun _ => rfl⟩

theorem Tracks.onConnect (h : cache.Tracks topics) (reasonCode : ℤ) :
    (cache.onConnect topics reasonCode).Tracks topics := by
  by_cases hclosed : cache.closed = true
  · simp only [MqttCache.onConnect, note, if_pos hclosed]
    have hstory : (link cache.log).closed = true := h.closed_eq ▸ hclosed
    have hstays : ((link cache.log).after (.connect reasonCode : Note ι)).closed = true :=
      (Link.closed_after_connect _ _).trans hstory
    refine ⟨hclosed.trans hstays.symm, ?_, fun topic => ?_⟩
    · rw [link_cons, hstays, h.connected_eq, hstory]
      simp
    · rw [link_cons, h.values_eq, Link.serves_eq_none (Or.inl hstory),
        Link.serves_eq_none (Or.inl hstays)]
  · simp only [MqttCache.onConnect, note, if_neg hclosed]
    have hopen : (link cache.log).closed = false :=
      h.closed_eq ▸ Bool.eq_false_iff.2 hclosed
    by_cases hcode : reasonCode = 0
    · simp only [if_pos hcode]
      refine ⟨?_, ?_, fun topic => ?_⟩
      · simpa [Link.after, hcode] using h.closed_eq
      · simp [Link.after, hcode, hopen]
      · simp [Link.after, hcode, Link.serves]
    · simp only [if_neg hcode]
      refine ⟨?_, ?_, fun topic => ?_⟩
      · simpa [Link.after, hcode] using h.closed_eq
      · simp [Link.after, hcode]
      · simp [Link.after, hcode, Link.serves]

theorem Tracks.onDisconnect (h : cache.Tracks topics) : cache.onDisconnect.Tracks topics :=
  ⟨h.closed_eq, rfl, fun _ => rfl⟩

theorem tracks_close (cache : MqttCache ι) : cache.close.Tracks topics :=
  ⟨rfl, (Bool.and_false _).symm, fun _ => (Link.serves_eq_none (Or.inl rfl)).symm⟩

/-- A message leaves what is served for the other topics. -/
theorem Link.serves_message_of_ne {l : Link} {message : Message} {topic : PyStr}
    (h : topic ≠ message.topic) :
    (l.after (.message message : Note ι)).serves topics topic = l.serves topics topic := by
  have hlast : (l.after (.message message : Note ι)).last topic = l.last topic :=
    Function.update_of_ne h _ _
  simp only [Link.serves, hlast]
  rfl

/-- A message is served from now on, unless it is too large. -/
theorem Link.serves_message_self {l : Link} {message : Message} (hconnected : l.connected = true)
    (hclosed : l.closed = false) (htopic : message.topic ∈ topics) :
    (l.after (.message message : Note ι)).serves topics message.topic =
      if message.Small then some message.held else none := by
  have hlast : (l.after (.message message : Note ι)).last message.topic = some message :=
    Function.update_self ..
  rw [Link.serves, if_pos ⟨hconnected, hclosed, htopic⟩, hlast]
  by_cases hsmall : message.Small
  · simp [Option.filter, hsmall]
  · simp [Option.filter, hsmall]

theorem Tracks.onMessage (h : cache.Tracks topics) (topic : PyStr) (payload : List UInt8)
    (retain : Bool) : (cache.onMessage topics topic payload retain).Tracks topics := by
  by_cases hignored : cache.closed = true ∨ cache.connected = false ∨ topic ∉ topics
  · simp only [MqttCache.onMessage, note, if_pos hignored]
    refine ⟨h.closed_eq, h.connected_eq, fun topic' => (h.values_eq topic').trans ?_⟩
    rw [h.closed_eq, h.connected_eq] at hignored
    by_cases hne : topic' = topic
    · subst hne
      rw [Link.serves_eq_none hignored]
      exact (Link.serves_eq_none (l := (link cache.log).after (.message _ : Note ι)) hignored).symm
    · exact (Link.serves_message_of_ne hne).symm
  · simp only [MqttCache.onMessage, note, if_neg hignored]
    rw [not_or, not_or, Bool.not_eq_true, Bool.not_eq_false, not_not, h.closed_eq] at hignored
    obtain ⟨hclosed, hconnected, htopic⟩ := hignored
    have hlive : (link cache.log).connected = true := by
      simpa [h.connected_eq, hclosed] using hconnected
    have hserves : ((link cache.log).after (.message ⟨topic, payload, retain, cache.now⟩ :
        Note ι)).serves topics topic = _ := Link.serves_message_self hlive hclosed htopic
    by_cases hbig : payloadLimit < payload.length
    · have hsmall : ¬Message.Small ⟨topic, payload, retain, cache.now⟩ := Nat.not_le.2 hbig
      rw [if_pos hbig]
      refine ⟨h.closed_eq, h.connected_eq, fun topic' => ?_⟩
      by_cases hne : topic' = topic
      · subst hne
        rw [link_cons, hserves, if_neg hsmall]
        exact PyDict.get?_erase_self ..
      · rw [link_cons, Link.serves_message_of_ne hne, ← h.values_eq topic']
        exact PyDict.get?_erase_of_ne _ (Ne.symm hne)
    · have hsmall : Message.Small ⟨topic, payload, retain, cache.now⟩ := Nat.not_lt.1 hbig
      rw [if_neg hbig]
      refine ⟨h.closed_eq, h.connected_eq, fun topic' => ?_⟩
      by_cases hne : topic' = topic
      · subst hne
        rw [link_cons, hserves, if_pos hsmall]
        exact PyDict.get?_set_self ..
      · rw [link_cons, Link.serves_message_of_ne hne, ← h.values_eq topic']
        exact PyDict.get?_set_of_ne _ _ (Ne.symm hne)

/-! ### What the readers leave and return -/

/-- A reader may be given `reading` while the story is `l`. -/
def Link.Gives (maxAge : ℚ) (l : Link) (topic : PyStr) (time : ℚ) (reading : Reading) : Prop :=
  l.connected = true ∧ l.closed = false ∧ ∃ message, l.last topic = some message ∧
    message.Small ∧ reading = ⟨message.payload, time - message.time, message.retain⟩ ∧
    time - message.time ≤ maxAge

/-- Every payload in the record was given as it may be. -/
def Honest (maxAge : ℚ) : List (Note ι) → Prop
  | [] => True
  | .returned _ topic time reading :: log =>
      (link log).Gives maxAge topic time reading ∧ Honest maxAge log
  | .connect _ :: log | .disconnect :: log | .message _ :: log | .close :: log
  | .subscribed _ :: log | .raised _ _ _ :: log => Honest maxAge log

theorem Honest.gives {later earlier : List (Note ι)} {i : ι} {topic : PyStr} {time : ℚ}
    {reading : Reading} (h : Honest maxAge (later ++ .returned i topic time reading :: earlier)) :
    (link earlier).Gives maxAge topic time reading := by
  induction later with
  | nil => exact h.1
  | cons n later ih =>
      cases n with
      | returned i' topic' time' reading' => exact ih h.2
      | connect _ | disconnect | message _ | close | subscribed _ | raised _ _ _ => exact ih h

/-- Before and after a step of a reader: the cache is the same but for the reader and the client,
and the record has at most one note more, of what the reader got. -/
structure Reads (maxAge : ℚ) (cache cache' : MqttCache ι) : Prop where
  connected_eq : cache'.connected = cache.connected
  closed_eq : cache'.closed = cache.closed
  values_eq : cache'.values = cache.values
  story_eq : link cache'.log = link cache.log
  honest : Honest maxAge cache.log → Honest maxAge cache'.log

theorem Reads.tracks {cache' : MqttCache ι} (h : Reads maxAge cache cache')
    (ht : cache.Tracks topics) : cache'.Tracks topics := by
  refine ⟨?_, ?_, fun topic => ?_⟩
  · rw [h.closed_eq, h.story_eq, ht.closed_eq]
  · rw [h.connected_eq, h.story_eq, ht.connected_eq]
  · rw [h.values_eq, h.story_eq, ht.values_eq]

/-- What is held for a topic may be given while it is young. -/
theorem Tracks.gives (h : cache.Tracks topics) {topic : PyStr} {held : Held}
    (hheld : cache.values.get? topic = some held) (hage : cache.now - held.receivedAt ≤ maxAge) :
    (link cache.log).Gives maxAge topic cache.now
      ⟨held.payload, cache.now - held.receivedAt, held.retained⟩ := by
  rw [h.values_eq, Link.serves] at hheld
  split_ifs at hheld with hserved
  obtain ⟨message, hmessage, rfl⟩ := Option.map_eq_some_iff.1 hheld
  obtain ⟨hlast, hsmall⟩ := Option.filter_eq_some_iff.1 hmessage
  exact ⟨hserved.1, hserved.2.1, message, hlast, of_decide_eq_true hsmall, rfl, hage⟩

/-- The record after a message of the network thread stays honest. -/
theorem honest_onConnect (reasonCode : ℤ) (h : Honest maxAge cache.log) :
    Honest maxAge (cache.onConnect topics reasonCode).log := by
  unfold onConnect
  split_ifs <;> exact h

theorem honest_onMessage (topic : PyStr) (payload : List UInt8) (retain : Bool)
    (h : Honest maxAge cache.log) :
    Honest maxAge (cache.onMessage topics topic payload retain).log := by
  unfold onMessage
  dsimp only
  split_ifs <;> exact h

/-- The invariant of a run. -/
structure Sound (topics : List PyStr) (maxAge : ℚ) (cache : MqttCache ι) : Prop where
  tracks : cache.Tracks topics
  honest : Honest maxAge cache.log

theorem Sound.reads {cache' : MqttCache ι} (h : cache.Sound topics maxAge)
    (hreads : Reads maxAge cache cache') : cache'.Sound topics maxAge :=
  ⟨hreads.tracks h.tracks, hreads.honest h.honest⟩

section Readers

variable [DecidableEq ι]

theorem reads_move (i : ι) (reader : Reader) (cache : MqttCache ι) :
    Reads maxAge cache (cache.move i reader) := ⟨rfl, rfl, rfl, rfl, id⟩

theorem reads_refuse (i : ι) (topic error : PyStr) (cache : MqttCache ι) :
    Reads maxAge cache (cache.refuse i topic error) := ⟨rfl, rfl, rfl, rfl, id⟩

theorem Tracks.reads_look (h : cache.Tracks topics) (i : ι) (topic : PyStr) (deadline : ℚ) :
    Reads maxAge cache (cache.look maxAge i topic deadline) := by
  unfold look
  by_cases hclosed : cache.closed = true
  · rw [if_pos hclosed]
    exact reads_refuse _ _ _ _
  rw [if_neg hclosed]
  cases hitem : (if cache.connected then cache.values.get? topic else none) with
  | none =>
      dsimp only
      split_ifs
      · exact reads_refuse _ _ _ _
      · exact reads_move _ _ _
  | some held =>
      dsimp only
      split_ifs with hage
      · have hconnected : cache.connected = true := by
          by_contra hoff
          simp [hoff] at hitem
        rw [if_pos hconnected] at hitem
        exact ⟨rfl, rfl, rfl, rfl, fun hlog => ⟨h.gives hitem hage, hlog⟩⟩
      · exact reads_refuse _ _ _ _

theorem Tracks.reads_enter (h : cache.Tracks topics) (i : ι) (topic : PyStr) (deadline : ℚ)
    (outcome : Started) : Reads maxAge cache (cache.enter maxAge i topic deadline outcome) := by
  unfold enter
  by_cases hclosed : cache.closed = true
  · rw [if_pos hclosed]
    exact reads_refuse _ _ _ _
  rw [if_neg hclosed]
  unfold start
  by_cases hclient : cache.client = true
  · rw [if_pos hclient]
    exact h.reads_look i topic deadline
  · rw [if_neg hclient]
    cases outcome with
    | failed error => exact reads_refuse _ _ _ _
    | running =>
        -- The new client changes nothing that a reader looks at.
        have ht : ({ cache with client := true } : MqttCache ι).Tracks topics :=
          ⟨h.closed_eq, h.connected_eq, h.values_eq⟩
        have hlook : Reads maxAge _ (look maxAge i topic deadline _) :=
          ht.reads_look i topic deadline
        exact ⟨hlook.connected_eq, hlook.closed_eq, hlook.values_eq, hlook.story_eq, hlook.honest⟩

/-! ### Every run -/

theorem Sound.step (h : cache.Sound topics maxAge) (input : Input ι) :
    (cache.step topics maxAge input).Sound topics maxAge := by
  cases input with
  | pass elapsed =>
      exact ⟨⟨h.tracks.closed_eq, h.tracks.connected_eq, h.tracks.values_eq⟩, h.honest⟩
  | connect reasonCode => exact ⟨h.tracks.onConnect reasonCode, honest_onConnect _ h.honest⟩
  | disconnect => exact ⟨h.tracks.onDisconnect, h.honest⟩
  | message topic payload retain =>
      exact ⟨h.tracks.onMessage topic payload retain, honest_onMessage _ _ _ h.honest⟩
  | close => exact ⟨tracks_close cache, h.honest⟩
  | read i topic timeout =>
      dsimp only [MqttCache.step]
      cases cache.readers i with
      | idle => exact h.reads (reads_move _ _ _)
      | entering topic' deadline => exact h
      | waiting topic' deadline => exact h
  | enter i outcome =>
      dsimp only [MqttCache.step]
      cases cache.readers i with
      | idle => exact h
      | entering topic deadline => exact h.reads (h.tracks.reads_enter i topic deadline outcome)
      | waiting topic deadline => exact h
  | wake i =>
      dsimp only [MqttCache.step]
      cases cache.readers i with
      | idle => exact h
      | entering topic deadline => exact h
      | waiting topic deadline => exact h.reads (h.tracks.reads_look i topic deadline)

theorem init_new (now : ℚ) : (machine ι topics maxAge).init (new now) := ⟨now, rfl⟩

/-- **The invariant holds in every run.** -/
theorem sound_of_reachable (h : (machine ι topics maxAge).Reachable cache) :
    cache.Sound (PyDict.ofList (topics.map fun topic => (topic, ()))).keys maxAge := by
  refine h.invariant ?_ fun cache input _ hcache => hcache.step input
  rintro cache ⟨now, rfl⟩
  exact ⟨tracks_new now, trivial⟩

/-- **Every payload that a read returns is the last one of its topic, small and young**: the
connection stands and the cache is open, the payload is that of the last message of the topic
since the latest successful connect, it is within the limits of size and age, and a message that is
too large hides what came before it until another one arrives. -/
theorem read_fresh (h : (machine ι topics maxAge).Reachable cache) {later earlier : List (Note ι)}
    {i : ι} {topic : PyStr} {time : ℚ} {reading : Reading}
    (hlog : cache.log = later ++ .returned i topic time reading :: earlier) :
    ((link earlier).connected = true ∧ (link earlier).closed = false ∧
      ∃ message, (link earlier).last topic = some message ∧
        message.payload.length ≤ payloadLimit ∧
        reading = ⟨message.payload, time - message.time, message.retain⟩ ∧
        reading.age ≤ maxAge) ∧
    ∀ (newer older : List (Note ι)) (oversize : Message),
      earlier = newer ++ .message oversize :: older → oversize.topic = topic →
      payloadLimit < oversize.payload.length → ∃ n ∈ newer, n.Replaces topic := by
  have hhonest := (sound_of_reachable h).honest
  rw [hlog] at hhonest
  obtain ⟨hconnected, hclosed, message, hlast, hsmall, rfl, hage⟩ := hhonest.gives
  refine ⟨⟨hconnected, hclosed, message, hlast, hsmall, rfl, hage⟩, ?_⟩
  intro newer older oversize hearlier htopic hbig
  by_contra hnone
  have hlast' : (link earlier).last topic = some oversize :=
    last_iff.2 ⟨htopic, newer, older, hearlier, fun n hn hr => hnone ⟨n, hn, hr⟩⟩
  obtain rfl : message = oversize := Option.some.inj (hlast.symm.trans hlast')
  exact absurd hsmall (Nat.not_le.2 hbig)

/-- A reader waits, the connection is accepted, two messages arrive, and the reader looks two seconds
later. -/
def waited : MqttCache Unit :=
  (machine Unit ["t"] 5).exec (new 0)
    [.read () "t" 4, .enter () .running, .connect 0, .message "t" [6] true, .message "t" [7] false,
      .pass 2, .wake ()]

/-- It gets the second message, with its age. -/
theorem read_fresh_waited :
    waited.log.head? = some (.returned () "t" 2 ⟨[7], 2, false⟩) ∧
      (link waited.log.tail).connected = true ∧ (link waited.log.tail).closed = false ∧
      ∃ message, (link waited.log.tail).last "t" = some message ∧ message.payload = [7] ∧
        message.payload.length ≤ payloadLimit ∧ 2 - message.time ≤ 5 := by
  have hlog : waited.log = .returned () "t" 2 ⟨[7], 2, false⟩ :: waited.log.tail := by
    decide +kernel
  have hreach : (machine Unit ["t"] 5).Reachable waited :=
    Machine.Reachable.exec (Machine.Reach.of_init (init_new 0)) _
  obtain ⟨⟨hconnected, hclosed, message, hlast, hsmall, hreading, hage⟩, -⟩ :=
    @read_fresh _ _ _ _ _ hreach [] _ _ _ _ _ hlog
  have hpayload : ([7] : List UInt8) = message.payload := congrArg Reading.payload hreading
  have hdelay : 2 = 2 - message.time := congrArg Reading.age hreading
  refine ⟨by rw [hlog]; rfl, hconnected, hclosed, message, hlast, hpayload.symm, hsmall, ?_⟩
  rw [← hdelay]
  decide +kernel

end Readers

end MqttCache
