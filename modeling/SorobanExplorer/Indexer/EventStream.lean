import SorobanExplorer.Indexer.EventFeed
import SorobanExplorer.Library.Run

/-!
Owns one connection of `/api/events/stream` from its first line on, while events are
persisted and published: the replay with its pages, the queue of events that are published
meanwhile, and live delivery. The client stays connected.

`streams_in_order` says when the client gets every event once, in order.
-/

namespace SorobanExplorer.Indexer

open Library

namespace EventStream

def maxReplayEvents : ℕ := 1000

def maxPendingEvents : ℕ := 500

def maxBufferedBytes : ℕ := 1024 * 1024

/-- A request that passed the checks; `cursor` is `none` for `undefined`. -/
structure StreamRequest where
  network : Network
  cursor : Option ℕ

/-- Whether the module binds the name `db`. -/
structure Scope where
  db : Bool

/-- `wsEvents.js` uses `db` without an import. -/
def wsEvents : Scope := ⟨false⟩

/-- What the response says around a write: how much it holds before and after, and whether
`res.write` returns true. -/
structure Write where
  writableLength : ℕ
  ok : Bool
  after : ℕ
deriving DecidableEq, Repr

inductive Phase where
  | querying
  | fetched (page : EventsSince)
  | live
  | ended
deriving DecidableEq, Repr

/-- The connection, and the feed that it reads. `delivered` are the events that were
written to the response. -/
structure StreamState where
  feed : EventFeed
  phase : Phase
  cursor : ℕ
  replayed : ℕ
  liveQueue : List StreamEvent
  delivered : List StreamEvent

namespace StreamState

/-- `replaying` -/
def replaying (state : StreamState) : Bool :=
  match state.phase with
  | .querying | .fetched _ => true
  | .live | .ended => false

/-- `res.end()` -/
def finish (state : StreamState) : StreamState := { state with phase := .ended }

def send (state : StreamState) (write : Write) (event : StreamEvent) : StreamState × Bool :=
  if maxBufferedBytes < write.writableLength then (state, false)
  else if maxSafeInteger < event.seq ∨ event.seq ≤ state.cursor then (state, true)
  else
    ({ state with delivered := state.delivered ++ [event], cursor := event.seq },
      write.ok && write.after ≤ maxBufferedBytes)

def sendAll (writes : StreamEvent → Write) : List StreamEvent → StreamState → StreamState × Bool
  | [], state => (state, true)
  | event :: events, state =>
    let sent := state.send (writes event) event
    if sent.2 then sendAll writes events sent.1 else sent

def listener (state : StreamState) (write : Write) (event : StreamEvent) : StreamState :=
  match state.phase with
  | .querying | .fetched _ =>
    if maxPendingEvents ≤ state.liveQueue.length then state.finish
    else { state with liveQueue := state.liveQueue ++ [event] }
  | .live =>
    let sent := state.send write event
    if sent.2 then sent.1 else sent.1.finish
  | .ended => state

def goLive (state : StreamState) (writes : StreamEvent → Write) : StreamState :=
  let sent := sendAll writes (state.liveQueue.mergeSort fun first second =>
    first.seq ≤ second.seq) state
  if sent.2 then { sent.1 with liveQueue := [], phase := .live } else sent.1.finish

/-- What follows the `await` of a page. -/
def replay (state : StreamState) (page : EventsSince) (writes : StreamEvent → Write) :
    StreamState :=
  let sent := sendAll writes page.data state
  if !sent.2 then sent.1.finish
  else
    let state := { sent.1 with replayed := sent.1.replayed + page.data.length }
    if maxReplayEvents ≤ state.replayed ∧ page.hasMore then state.finish
    else if page.hasMore then { state with phase := .querying }
    else state.goLive writes

end StreamState

/-- The connection is made: without a cursor the replay is left at once, and without `db` the
first query is an error. -/
def connect (scope : Scope) (request : StreamRequest) (feed : EventFeed) : StreamState :=
  match request.cursor with
  | none => ⟨feed, .live, 0, 0, [], []⟩
  | some cursor => ⟨feed, if scope.db then .querying else .ended, cursor, 0, [], []⟩

inductive Action where
  | persist (event : StreamEvent)
  | publish (reaches : Bool) (write : Write)
  | query
  | queryFails
  | replay (writes : StreamEvent → Write)
  | heartbeat (writableLength : ℕ)

/-- A published event reaches the connection unless a listener that was added to the
channel before throws. -/
inductive Step (request : StreamRequest) : StreamState → Action → StreamState → Prop
  | persist {state : StreamState} (event : StreamEvent)
      (last : state.feed.Last event) :
      Step request state (.persist event) { state with feed := state.feed.persist event last }
  | publish {state : StreamState} {event : StreamEvent} (reaches : Bool) (write : Write)
      (next : state.feed.next? = some event) :
      Step request state (.publish reaches write)
        (if event.network = request.network ∧ reaches then
          { state with feed := state.feed.publish next }.listener write event
        else { state with feed := state.feed.publish next })
  | query {state : StreamState} (waits : state.phase = .querying) :
      Step request state .query { state with
        phase := .fetched (state.feed.getEventsSince state.cursor
          (min 500 (maxReplayEvents - state.replayed)) request.network) }
  | queryFails {state : StreamState} (waits : state.phase = .querying) :
      Step request state .queryFails state.finish
  | replay {state : StreamState} {page : EventsSince} (writes : StreamEvent → Write)
      (fetched : state.phase = .fetched page) :
      Step request state (.replay writes) (state.replay page writes)
  | heartbeat {state : StreamState} (writableLength : ℕ) :
      Step request state (.heartbeat writableLength)
        (if maxBufferedBytes < writableLength then state.finish else state)

/-! ### What is promised -/

/-- The events that the client is to get: those above its cursor, or those that have been
published since it connected. -/
def owed (request : StreamRequest) (start feed : EventFeed) : List StreamEvent :=
  match request.cursor with
  | some cursor => above StreamEvent.seq cursor (feed.ofNetwork request.network)
  | none => (feed.publishedOf request.network).drop (start.publishedOf request.network).length

/-- The client has the first of them, and all of them once everything that was persisted has
been published and the connection does not replay. -/
structure InOrder (request : StreamRequest) (start : EventFeed) (state : StreamState) : Prop where
  rises : StrictlyRises StreamEvent.seq state.delivered
  first : state.delivered <+: owed request start state.feed
  all : state.feed.published = state.feed.rows.length → state.replaying = false →
    state.delivered = owed request start state.feed

def Write.Within (write : Write) : Prop :=
  write.writableLength ≤ maxBufferedBytes ∧ write.after ≤ maxBufferedBytes

instance (write : Write) : Decidable write.Within := inferInstanceAs (Decidable (_ ∧ _))

def Undisturbed (state : StreamState) : Action → Prop
  | .persist _ | .query => True
  | .publish _ write =>
    write.Within ∧ (state.replaying = true → state.liveQueue.length < maxPendingEvents)
  | .queryFails => False
  | .replay writes =>
    (∀ event, (writes event).Within) ∧
      ∀ page, state.phase = .fetched page → page.hasMore = true →
        state.replayed + page.data.length < maxReplayEvents
  | .heartbeat writableLength => writableLength ≤ maxBufferedBytes

/-- Every `res.write` returns true, no other listener throws before, and numbers hold the
`seq` exactly. -/
def Unimpeded : Action → Prop
  | .persist event => event.seq ≤ maxSafeInteger
  | .publish reaches write => reaches = true ∧ write.ok = true
  | .replay writes => ∀ event, (writes event).ok = true
  | .query | .queryFails | .heartbeat _ => True

def ServedStep (request : StreamRequest) (before : StreamState) (action : Action)
    (after : StreamState) : Prop :=
  Step request before action after ∧ Undisturbed before action ∧ Unimpeded action

/-! ### Sending -/

section Sending

variable {state : StreamState} {event : StreamEvent} {write : Write}

theorem send_of_within (within : write.Within) (ok : write.ok = true)
    (safe : event.seq ≤ maxSafeInteger) :
    state.send write event =
      if event.seq ≤ state.cursor then (state, true)
      else ({ state with delivered := state.delivered ++ [event], cursor := event.seq }, true) := by
  rw [StreamState.send, if_neg (not_lt.mpr within.1)]
  simp only [not_lt.mpr safe, false_or, ok, within.2, decide_true, Bool.and_self]

theorem sendAll_of_within {writes : StreamEvent → Write} {events : List StreamEvent}
    (within : ∀ event, (writes event).Within) (ok : ∀ event, (writes event).ok = true)
    (safe : ∀ event ∈ events, event.seq ≤ maxSafeInteger) :
    StreamState.sendAll writes events state =
      ({ state with
        delivered := state.delivered ++ (advance StreamEvent.seq state.cursor events).1
        cursor := (advance StreamEvent.seq state.cursor events).2 }, true) := by
  induction events generalizing state with
  | nil => rw [StreamState.sendAll, advance, List.append_nil]
  | cons event events ih =>
    obtain ⟨first, rest⟩ := List.forall_mem_cons.mp safe
    rw [StreamState.sendAll, send_of_within (within event) (ok event) first]
    by_cases skipped : event.seq ≤ state.cursor
    · rw [if_pos skipped, advance, if_pos skipped]
      exact ih rest
    · rw [if_neg skipped, advance, if_neg skipped]
      refine (ih rest).trans ?_
      rw [List.append_assoc, List.singleton_append]

theorem listener_of_replaying (replaying : state.replaying = true)
    (fits : state.liveQueue.length < maxPendingEvents) :
    state.listener write event = { state with liveQueue := state.liveQueue ++ [event] } := by
  unfold StreamState.listener
  unfold StreamState.replaying at replaying
  split
  · exact if_neg (not_le.mpr fits)
  · exact if_neg (not_le.mpr fits)
  · simp_all
  · simp_all

theorem listener_of_live (live : state.phase = .live) (within : write.Within)
    (ok : write.ok = true) (safe : event.seq ≤ maxSafeInteger) :
    state.listener write event =
      if event.seq ≤ state.cursor then state
      else { state with delivered := state.delivered ++ [event], cursor := event.seq } := by
  have sends : state.listener write event =
      if (state.send write event).2 then (state.send write event).1
      else (state.send write event).1.finish := by
    unfold StreamState.listener
    rw [live]
  rw [sends, send_of_within within ok safe]
  by_cases skipped : event.seq ≤ state.cursor
  · simp only [if_pos skipped, if_true]
  · simp only [if_neg skipped, if_true]

theorem goLive_of_within {writes : StreamEvent → Write}
    (within : ∀ event, (writes event).Within) (ok : ∀ event, (writes event).ok = true)
    (safe : ∀ event ∈ state.liveQueue, event.seq ≤ maxSafeInteger)
    (rises : StrictlyRises StreamEvent.seq state.liveQueue) :
    state.goLive writes = { state with
      delivered := state.delivered ++ (advance StreamEvent.seq state.cursor state.liveQueue).1
      cursor := (advance StreamEvent.seq state.cursor state.liveQueue).2
      liveQueue := []
      phase := .live } := by
  have sorted : (state.liveQueue.mergeSort fun first second => first.seq ≤ second.seq) =
      state.liveQueue := by
    apply List.mergeSort_of_pairwise
    exact rises.imp fun below => decide_eq_true below.le
  rw [StreamState.goLive, sorted, sendAll_of_within within ok safe]
  rfl

theorem replay_of_within {page : EventsSince} {writes : StreamEvent → Write}
    (within : ∀ event, (writes event).Within) (ok : ∀ event, (writes event).ok = true)
    (safe : ∀ event ∈ page.data, event.seq ≤ maxSafeInteger)
    (fits : page.hasMore = true → state.replayed + page.data.length < maxReplayEvents) :
    state.replay page writes =
      let read := { state with
        delivered := state.delivered ++ (advance StreamEvent.seq state.cursor page.data).1
        cursor := (advance StreamEvent.seq state.cursor page.data).2
        replayed := state.replayed + page.data.length }
      if page.hasMore then { read with phase := .querying } else read.goLive writes := by
  rw [StreamState.replay, sendAll_of_within within ok safe]
  have stays : ¬ (maxReplayEvents ≤ state.replayed + page.data.length ∧ page.hasMore = true) :=
    fun both => absurd (fits both.2) (not_lt.mpr both.1)
  simp only [Bool.not_true, Bool.false_eq_true, if_false, if_neg stays]

end Sending

/-! ### Without a cursor -/

section Unresumed

variable {request : StreamRequest} {start : EventFeed} {before after : StreamState} {action : Action}

structure Listens (request : StreamRequest) (start : EventFeed) (state : StreamState) : Prop where
  live : state.phase = .live
  safe : ∀ row ∈ state.feed.rows, row.seq ≤ maxSafeInteger
  some : (start.publishedOf request.network).length ≤
    (state.feed.publishedOf request.network).length
  delivered : state.delivered = (state.feed.publishedOf request.network).drop
    (start.publishedOf request.network).length
  reached : state.cursor = 0 ∨
    ∃ row ∈ state.feed.rows.take state.feed.published, row.seq = state.cursor

theorem Listens.step (listens : Listens request start before)
    (taken : ServedStep request before action after) : Listens request start after := by
  obtain ⟨taken, undisturbed, unimpeded⟩ := taken
  cases taken with
  | persist event last =>
    have published := EventFeed.publishedOf_persist request.network last
    constructor
    · exact listens.live
    · exact List.forall_mem_append.mpr ⟨listens.safe, List.forall_mem_singleton.mpr unimpeded⟩
    · exact listens.some.trans_eq (congrArg List.length published).symm
    · rw [listens.delivered, published]
    · refine listens.reached.imp_right fun ⟨row, listed, same⟩ => ⟨row, ?_, same⟩
      show row ∈ (before.feed.rows ++ [event]).take before.feed.published
      rwa [List.take_append_of_le_length before.feed.bounded]
  | @publish event reaches write next =>
    obtain ⟨within, -⟩ := undisturbed
    obtain ⟨rfl, ok⟩ := unimpeded
    have published := EventFeed.publishedOf_publish request.network next
    have listed := EventFeed.mem_of_next next
    have safe := listens.safe event listed
    have kept : ∀ row ∈ before.feed.rows.take before.feed.published,
        row ∈ before.feed.rows.take (before.feed.published + 1) := by
      intro row member
      rw [EventFeed.take_next next]
      exact List.mem_append_left _ member
    by_cases same : event.network = request.network
    · have beyond : before.cursor < event.seq := by
        rcases listens.reached with zero | ⟨row, earlier, reached⟩
        · rw [zero]
          exact before.feed.positive event listed
        · rw [← reached]
          exact EventFeed.lt_of_unpublished earlier (EventFeed.mem_drop_of_next next)
      rw [if_pos ⟨same, rfl⟩]
      rw [if_pos same] at published
      have sent : StreamState.listener { before with feed := before.feed.publish next } write event =
          { before with
            feed := before.feed.publish next
            delivered := before.delivered ++ [event]
            cursor := event.seq } := by
        have sends := @listener_of_live { before with feed := before.feed.publish next } event
          write listens.live within ok safe
        exact sends.trans (if_neg (not_le.mpr beyond))
      rw [sent]
      constructor
      · exact listens.live
      · exact listens.safe
      · rw [published, List.length_append]
        exact Nat.le_add_right_of_le listens.some
      · rw [published, List.drop_append_of_le_length listens.some, listens.delivered]
      · refine Or.inr ⟨event, ?_, rfl⟩
        show event ∈ before.feed.rows.take (before.feed.published + 1)
        rw [EventFeed.take_next next]
        simp
    · rw [if_neg (fun both => same both.1)]
      rw [if_neg same, List.append_nil] at published
      constructor
      · exact listens.live
      · exact listens.safe
      · exact listens.some.trans_eq (congrArg List.length published).symm
      · rw [published]
        exact listens.delivered
      · exact listens.reached.imp_right fun ⟨row, earlier, reached⟩ =>
          ⟨row, kept row earlier, reached⟩
  | query waits => exact absurd (listens.live.symm.trans waits) (by simp)
  | queryFails => exact undisturbed.elim
  | replay writes fetched => exact absurd (listens.live.symm.trans fetched) (by simp)
  | heartbeat writableLength =>
    rw [if_neg (not_lt.mpr undisturbed)]
    exact listens

end Unresumed

/-! ### With a cursor -/

section Resumed

variable {request : StreamRequest} {low : ℕ} {before after : StreamState} {action : Action}

/-- What a page has for a reader that has come to `cursor`: rows of the network without a
gap, and if there are no more, all that are above and not in the queue. -/
structure Page (network : Network) (feed : EventFeed) (cursor : ℕ) (queue : List StreamEvent)
    (page : EventsSince) : Prop where
  rises : StrictlyRises StreamEvent.seq page.data
  listed : ∀ event ∈ page.data, event ∈ feed.ofNetwork network
  closed : ∀ row ∈ feed.ofNetwork network, cursor < row.seq → ∀ entry ∈ page.data,
    row.seq ≤ entry.seq → row ∈ page.data
  complete : page.hasMore = false → ∀ row ∈ feed.publishedOf network, cursor < row.seq →
    row ∈ page.data ∨ row ∈ queue

/-- What holds of a connection that began with the cursor `low`. -/
structure Resumes (request : StreamRequest) (low : ℕ) (state : StreamState) : Prop where
  safe : ∀ row ∈ state.feed.rows, row.seq ≤ maxSafeInteger
  stays : state.phase ≠ .ended
  started : low ≤ state.cursor
  reached : state.cursor = low ∨ ∃ row ∈ state.feed.rows, row.seq = state.cursor
  delivered : state.delivered =
    between StreamEvent.seq low state.cursor (state.feed.ofNetwork request.network)
  queueRises : StrictlyRises StreamEvent.seq state.liveQueue
  queued : ∀ event ∈ state.liveQueue, event ∈ state.feed.publishedOf request.network
  page : ∀ page, state.phase = .fetched page →
    Page request.network state.feed state.cursor state.liveQueue page
  live : state.phase = .live → ∀ row ∈ state.feed.publishedOf request.network,
    low < row.seq → row.seq ≤ state.cursor

theorem page_of_query (feed : EventFeed) (cursor limit : ℕ) (network : Network)
    (queue : List StreamEvent) :
    Page network feed cursor queue (feed.getEventsSince cursor limit network) := by
  have rises : StrictlyRises StreamEvent.seq
      (above StreamEvent.seq cursor (feed.ofNetwork network)) := EventFeed.ofNetwork_rises.filter _
  have data := EventFeed.getEventsSince_data feed cursor limit network
  constructor
  · rw [data]
    exact rises.sublist (List.take_sublist _ _)
  · intro event member
    rw [data] at member
    exact (mem_above.mp (List.mem_of_mem_take member)).1
  · intro row present beyond entry first upTo
    rw [data] at first ⊢
    exact rises.mem_take_of_le (mem_above.mpr ⟨present, beyond⟩) first upTo
  · intro last row published beyond
    rw [EventFeed.getEventsSince_last last]
    exact Or.inl (mem_above.mpr ⟨EventFeed.publishedOf_sublist.subset published, beyond⟩)

theorem Resumes.persist (resumes : Resumes request low before) {event : StreamEvent}
    (last : before.feed.Last event) (safe : event.seq ≤ maxSafeInteger) :
    Resumes request low { before with feed := before.feed.persist event last } := by
  have rows := EventFeed.ofNetwork_persist request.network last
  have published := EventFeed.publishedOf_persist request.network last
  have later : ∀ row ∈ if event.network = request.network then [event] else [],
      row = event := by
    intro row member
    split_ifs at member
    · exact List.mem_singleton.mp member
    · cases member
  constructor
  · exact List.forall_mem_append.mpr ⟨resumes.safe, List.forall_mem_singleton.mpr safe⟩
  · exact resumes.stays
  · exact resumes.started
  · exact resumes.reached.imp_right fun ⟨row, listed, same⟩ =>
      ⟨row, List.mem_append_left _ listed, same⟩
  · rw [rows, between_append]
    · exact resumes.delivered
    · intro row member beyond
      rw [later row member] at beyond ⊢
      rcases resumes.reached with same | ⟨earlier, listed, same⟩
      · exact same ▸ beyond
      · exact same ▸ last.2 earlier listed
  · exact resumes.queueRises
  · rw [published]
    exact resumes.queued
  · intro page fetched
    have kept := resumes.page page fetched
    refine ⟨kept.rises, ?_, ?_, ?_⟩
    · intro entry member
      rw [rows]
      exact List.mem_append_left _ (kept.listed entry member)
    · intro row present beyond entry member upTo
      rw [rows] at present
      rcases List.mem_append.mp present with earlier | new
      · exact kept.closed row earlier beyond entry member upTo
      · have below := last.2 entry (EventFeed.mem_ofNetwork.mp (kept.listed entry member)).1
        rw [later row new] at upTo
        exact absurd below (not_lt.mpr upTo)
    · rw [published]
      exact kept.complete
  · rw [published]
    exact resumes.live

section Publish

variable {event : StreamEvent} (next : before.feed.next? = some event)

include next in
theorem Resumes.publish_other (resumes : Resumes request low before)
    (other : event.network ≠ request.network) :
    Resumes request low { before with feed := before.feed.publish next } := by
  have published := EventFeed.publishedOf_publish request.network next
  rw [if_neg other, List.append_nil] at published
  exact { resumes with
    queued := by
      rw [published]
      exact resumes.queued
    page := by
      intro page fetched
      have kept := resumes.page page fetched
      exact { kept with
        complete := by
          rw [published]
          exact kept.complete }
    live := by
      rw [published]
      exact resumes.live }

theorem Resumes.publish_queued (resumes : Resumes request low before)
    (same : event.network = request.network) (waits : before.phase ≠ .live) :
    Resumes request low { before with
      feed := before.feed.publish next
      liveQueue := before.liveQueue ++ [event] } := by
  have published := EventFeed.publishedOf_publish request.network next
  rw [if_pos same] at published
  constructor
  · exact resumes.safe
  · exact resumes.stays
  · exact resumes.started
  · exact resumes.reached
  · exact resumes.delivered
  · apply resumes.queueRises.concat
    intro earlier member
    have taken := (EventFeed.mem_publishedOf.mp (resumes.queued earlier member)).1
    exact EventFeed.lt_of_unpublished taken (EventFeed.mem_drop_of_next next)
  · rw [published]
    intro entry member
    rcases List.mem_append.mp member with earlier | new
    · exact List.mem_append_left _ (resumes.queued entry earlier)
    · exact List.mem_append_right _ new
  · intro page fetched
    have kept := resumes.page page fetched
    refine ⟨kept.rises, kept.listed, kept.closed, ?_⟩
    rw [published]
    intro last row member beyond
    rcases List.mem_append.mp member with earlier | new
    · exact (kept.complete last row earlier beyond).imp_right (List.mem_append_left _)
    · exact Or.inr (List.mem_append_right _ new)
  · exact fun live => absurd live waits

theorem Resumes.publish_live (resumes : Resumes request low before)
    (same : event.network = request.network) (live : before.phase = .live) :
    Resumes request low (if event.seq ≤ before.cursor then
        { before with feed := before.feed.publish next }
      else { before with
        feed := before.feed.publish next
        delivered := before.delivered ++ [event]
        cursor := event.seq }) := by
  have published := EventFeed.publishedOf_publish request.network next
  rw [if_pos same] at published
  have listed := EventFeed.mem_of_next next
  have noPage : ∀ page, before.phase ≠ .fetched page := by
    intro page fetched
    rw [live] at fetched
    cases fetched
  have earlierRead := resumes.live live
  split_ifs with skipped
  · exact { resumes with
      queued := by
        rw [published]
        exact fun earlier member => List.mem_append_left _ (resumes.queued earlier member)
      page := fun page fetched => absurd fetched (noPage page)
      live := by
        rw [published]
        exact fun _ => List.forall_mem_append.mpr
          ⟨earlierRead, List.forall_mem_singleton.mpr fun _ => skipped⟩ }
  · have beyond := not_le.mp skipped
    have nextRow : ∀ other ∈ before.feed.ofNetwork request.network, before.cursor < other.seq →
        other.seq ≤ event.seq → other = event := by
      intro other present unread upTo
      rcases upTo.lt_or_eq with less | sameSeq
      · have found := EventFeed.mem_publishedOf_of_lt_next next present less
        have read := earlierRead other found (resumes.started.trans_lt unread)
        exact absurd unread (not_lt.mpr read)
      · exact before.feed.rises.eq_of_key_eq (EventFeed.mem_ofNetwork.mp present).1 listed sameSeq
    constructor
    · exact resumes.safe
    · exact resumes.stays
    · exact resumes.started.trans beyond.le
    · exact Or.inr ⟨event, listed, rfl⟩
    · show before.delivered ++ [event] = _
      rw [resumes.delivered]
      exact (between_next EventFeed.ofNetwork_rises resumes.started
        (EventFeed.mem_ofNetwork.mpr ⟨listed, same⟩) beyond nextRow).symm
    · exact resumes.queueRises
    · rw [published]
      exact fun earlier member => List.mem_append_left _ (resumes.queued earlier member)
    · exact fun page fetched => absurd fetched (noPage page)
    · rw [published]
      exact fun _ => List.forall_mem_append.mpr
        ⟨fun row member above => (earlierRead row member above).trans beyond.le,
          List.forall_mem_singleton.mpr fun _ => le_refl _⟩

end Publish

section Replay

variable {page : EventsSince} {writes : StreamEvent → Write}

theorem reached_advance (resumes : Resumes request low before) {entries : List StreamEvent}
    (listed : ∀ event ∈ entries, event ∈ before.feed.ofNetwork request.network) {last : ℕ}
    (reached : last = before.cursor ∨ ∃ row ∈ entries, row.seq = last) :
    last = low ∨ ∃ row ∈ before.feed.rows, row.seq = last := by
  rcases reached with stays | ⟨row, member, same⟩
  · rw [stays]
    exact resumes.reached
  · exact Or.inr ⟨row, (EventFeed.mem_ofNetwork.mp (listed row member)).1, same⟩

theorem Resumes.replay_more (resumes : Resumes request low before)
    (kept : Page request.network before.feed before.cursor before.liveQueue page) :
    Resumes request low { before with
      phase := .querying
      delivered := before.delivered ++ (advance StreamEvent.seq before.cursor page.data).1
      cursor := (advance StreamEvent.seq before.cursor page.data).2
      replayed := before.replayed + page.data.length } := by
  have advanced := between_advance EventFeed.ofNetwork_rises kept.rises resumes.started kept.listed
    kept.closed
  exact { resumes with
    stays := by simp
    started := resumes.started.trans advanced.least
    reached := reached_advance resumes kept.listed advanced.reached
    delivered := by rw [advanced.read, ← resumes.delivered]
    page := by simp
    live := by simp }

theorem Resumes.replay_last (resumes : Resumes request low before)
    (kept : Page request.network before.feed before.cursor before.liveQueue page)
    (last : page.hasMore = false) :
    Resumes request low { before with
      phase := .live
      delivered := before.delivered ++ (advance StreamEvent.seq before.cursor page.data).1 ++
        (advance StreamEvent.seq (advance StreamEvent.seq before.cursor page.data).2
          before.liveQueue).1
      cursor := (advance StreamEvent.seq (advance StreamEvent.seq before.cursor page.data).2
        before.liveQueue).2
      replayed := before.replayed + page.data.length
      liveQueue := [] } := by
  have advanced := between_advance EventFeed.ofNetwork_rises kept.rises resumes.started kept.listed
    kept.closed
  have queueListed : ∀ event ∈ before.liveQueue, event ∈ before.feed.ofNetwork request.network :=
    fun event member => EventFeed.publishedOf_sublist.subset (resumes.queued event member)
  have complete : ∀ row ∈ before.feed.publishedOf request.network,
      (advance StreamEvent.seq before.cursor page.data).2 < row.seq → row ∈ before.liveQueue := by
    intro row published beyond
    rcases kept.complete last row published (advanced.least.trans_lt beyond) with read | queued
    · exact absurd beyond (not_lt.mpr (advanced.upTo row read))
    · exact queued
  have queueClosed : ∀ row ∈ before.feed.ofNetwork request.network,
      (advance StreamEvent.seq before.cursor page.data).2 < row.seq →
        ∀ entry ∈ before.liveQueue, row.seq ≤ entry.seq → row ∈ before.liveQueue := by
    intro row present beyond entry queued upTo
    have taken := (EventFeed.mem_publishedOf.mp (resumes.queued entry queued)).1
    exact complete row (EventFeed.mem_publishedOf_of_le present taken upTo) beyond
  have again := between_advance EventFeed.ofNetwork_rises resumes.queueRises
    (resumes.started.trans advanced.least) queueListed queueClosed
  constructor
  · exact resumes.safe
  · simp
  · exact (resumes.started.trans advanced.least).trans again.least
  · rcases again.reached with stays | ⟨row, member, same⟩
    · rw [stays]
      exact reached_advance resumes kept.listed advanced.reached
    · exact Or.inr ⟨row, (EventFeed.mem_ofNetwork.mp (queueListed row member)).1, same⟩
  · rw [again.read, advanced.read, ← resumes.delivered]
  · exact List.Pairwise.nil
  · exact List.forall_mem_nil _
  · simp
  · intro _ row published _
    rcases le_or_gt row.seq (advance StreamEvent.seq before.cursor page.data).2 with read | beyond
    · exact read.trans again.least
    · exact again.upTo row (complete row published beyond)

theorem Resumes.replay (resumes : Resumes request low before)
    (fetched : before.phase = .fetched page) (within : ∀ event, (writes event).Within)
    (ok : ∀ event, (writes event).ok = true)
    (fits : page.hasMore = true → before.replayed + page.data.length < maxReplayEvents) :
    Resumes request low (before.replay page writes) := by
  have kept := resumes.page page fetched
  have safe : ∀ event ∈ before.feed.ofNetwork request.network, event.seq ≤ maxSafeInteger :=
    fun event member => resumes.safe event (EventFeed.mem_ofNetwork.mp member).1
  rw [replay_of_within within ok (fun event member => safe event (kept.listed event member)) fits]
  cases more : page.hasMore with
  | true => exact resumes.replay_more kept
  | false =>
    have queueSafe : ∀ event ∈ before.liveQueue, event.seq ≤ maxSafeInteger := fun event member =>
      safe event (EventFeed.publishedOf_sublist.subset (resumes.queued event member))
    have goes := @goLive_of_within { before with
      delivered := before.delivered ++ (advance StreamEvent.seq before.cursor page.data).1
      cursor := (advance StreamEvent.seq before.cursor page.data).2
      replayed := before.replayed + page.data.length } writes within ok queueSafe
      resumes.queueRises
    simp only [Bool.false_eq_true, if_false]
    rw [goes]
    exact resumes.replay_last kept more

end Replay

theorem ne_live_of_replaying {state : StreamState} (replaying : state.replaying = true) :
    state.phase ≠ .live := by
  intro live
  rw [StreamState.replaying, live] at replaying
  cases replaying

theorem live_of_open {state : StreamState} (stays : state.phase ≠ .ended)
    (done : state.replaying = false) : state.phase = .live := by
  unfold StreamState.replaying at done
  cases phase : state.phase with
  | live => rfl
  | ended => exact absurd phase stays
  | querying => simp [phase] at done
  | fetched page => simp [phase] at done

theorem Resumes.step (resumes : Resumes request low before)
    (taken : ServedStep request before action after) : Resumes request low after := by
  obtain ⟨taken, undisturbed, unimpeded⟩ := taken
  cases taken with
  | persist event last => exact resumes.persist last unimpeded
  | @publish event reaches write next =>
    obtain ⟨within, fits⟩ := undisturbed
    obtain ⟨rfl, ok⟩ := unimpeded
    by_cases same : event.network = request.network
    · rw [if_pos ⟨same, rfl⟩]
      cases replaying : before.replaying with
      | true =>
        have queues := @listener_of_replaying
          { before with feed := before.feed.publish next } event write replaying (fits replaying)
        rw [queues]
        exact resumes.publish_queued next same (ne_live_of_replaying replaying)
      | false =>
        have live := live_of_open resumes.stays replaying
        have sends := @listener_of_live { before with feed := before.feed.publish next } event
          write live within ok (resumes.safe event (EventFeed.mem_of_next next))
        rw [sends]
        exact resumes.publish_live next same live
    · rw [if_neg (fun both => same both.1)]
      exact resumes.publish_other next same
  | query waits =>
    exact { resumes with
      stays := by simp
      page := by
        rintro page ⟨⟩
        exact page_of_query _ _ _ _ _
      live := by simp }
  | queryFails => exact undisturbed.elim
  | @replay page writes fetched =>
    obtain ⟨within, fits⟩ := undisturbed
    exact resumes.replay fetched within unimpeded (fits page fetched)
  | heartbeat writableLength =>
    rw [if_neg (not_lt.mpr undisturbed)]
    exact resumes

theorem Resumes.inOrder {start : EventFeed} {cursor : ℕ} (resumes : Resumes request cursor after)
    (requested : request.cursor = some cursor) : InOrder request start after := by
  have owes : owed request start after.feed =
      above StreamEvent.seq cursor (after.feed.ofNetwork request.network) := by
    rw [owed, requested]
  constructor
  · rw [resumes.delivered]
    exact EventFeed.ofNetwork_rises.filter _
  · rw [owes, resumes.delivered]
    exact between_prefix EventFeed.ofNetwork_rises _ _
  · intro all done
    rw [owes, resumes.delivered]
    apply between_eq_above
    rw [← EventFeed.publishedOf_all all]
    exact resumes.live (live_of_open resumes.stays done)

end Resumed

/-! ### Runs -/

section Runs

variable {request : StreamRequest} {scope : Scope} {start : EventFeed} {actions : List Action}
  {final : StreamState}

theorem Listens.inOrder {state : StreamState} (listens : Listens request start state)
    (requested : request.cursor = none) : InOrder request start state := by
  have owes : owed request start state.feed = state.delivered := by
    rw [owed, requested, listens.delivered]
  constructor
  · rw [listens.delivered]
    exact (EventFeed.ofNetwork_rises.sublist EventFeed.publishedOf_sublist).sublist (List.drop_sublist _ _)
  · rw [owes]
  · exact fun _ _ => owes.symm

/-- In every run without disturbances and impediments, of a connection without a cursor or
with `db` in scope, the client gets the events of its network above the cursor, or those that
are published after it connected, in order and once each. -/
theorem streams_in_order (inScope : request.cursor = none ∨ scope.db = true)
    (safe : ∀ row ∈ start.rows, row.seq ≤ maxSafeInteger)
    (run : Run (ServedStep request) (connect scope request start) actions final) :
    InOrder request start final := by
  cases requested : request.cursor with
  | none =>
    have initial : Listens request start (connect scope request start) := by
      rw [connect, requested]
      exact ⟨rfl, safe, le_refl _, (List.drop_length).symm, Or.inl rfl⟩
    have listens : Listens request start final := run.invariant initial
      fun _ _ _ listens taken => listens.step taken
    exact listens.inOrder requested
  | some cursor =>
    have bound : scope.db = true := inScope.resolve_left (by simp [requested])
    have initial : Resumes request cursor (connect scope request start) := by
      rw [connect, requested, bound]
      exact {
        safe := safe
        stays := by simp
        started := le_refl _
        reached := Or.inl rfl
        delivered := (between_self _ _).symm
        queueRises := List.Pairwise.nil
        queued := List.forall_mem_nil _
        page := by simp
        live := by simp }
    have resumes : Resumes request cursor final := run.invariant initial
      fun _ _ _ resumes taken => resumes.step taken
    exact resumes.inOrder requested

end Runs

/-! ### Runs of one event -/

def emptyFeed : EventFeed where
  rows := []
  published := 0
  positive := List.forall_mem_nil _
  rises := List.Pairwise.nil
  bounded := le_refl _

def mintEvent : StreamEvent := ⟨1, .testnet, 100, "mint"⟩

def burnEvent : StreamEvent := ⟨2, .testnet, 101, "burn"⟩

theorem emptyFeed_last : emptyFeed.Last mintEvent := ⟨by decide, List.forall_mem_nil _⟩

def mintFeed : EventFeed := emptyFeed.persist mintEvent emptyFeed_last

theorem mintFeed_last : mintFeed.Last burnEvent := ⟨by decide, by decide⟩

def unresumed : StreamRequest := ⟨.testnet, none⟩

def fromStart : StreamRequest := ⟨.testnet, some 0⟩

def quickWrite : Write := ⟨0, true, 0⟩

def slowWrite : Write := ⟨0, false, 20000⟩

theorem mintEvent_streamed : ∃ final,
    Run (ServedStep unresumed) (connect wsEvents unresumed emptyFeed)
      [.persist mintEvent, .publish true quickWrite] final ∧
    InOrder unresumed emptyFeed final ∧ final.delivered = [mintEvent] := by
  have safe : Unimpeded (.persist mintEvent) := show 1 ≤ maxSafeInteger by decide
  have persisted : Run (ServedStep unresumed) (connect wsEvents unresumed emptyFeed)
      [.persist mintEvent] _ :=
    Run.one ⟨.persist mintEvent emptyFeed_last, trivial, safe⟩
  have published := persisted.snoc
    ⟨@Step.publish unresumed _ mintEvent true quickWrite rfl, ⟨by decide, by decide⟩, rfl, rfl⟩
  exact ⟨_, published, streams_in_order (Or.inl rfl) (List.forall_mem_nil _) published, rfl⟩

def UndisturbedStep (request : StreamRequest) (before : StreamState) (action : Action)
    (after : StreamState) : Prop :=
  Step request before action after ∧ Undisturbed before action

/-- A client with a cursor gets nothing, and one without loses the events after a write that
returns false. -/
theorem undisturbedStreams_lose :
    (¬ ∀ (start : EventFeed) (actions : List Action) (final : StreamState),
      Run (UndisturbedStep fromStart) (connect wsEvents fromStart start) actions final →
        InOrder fromStart start final) ∧
    ¬ ∀ (start : EventFeed) (actions : List Action) (final : StreamState),
      Run (UndisturbedStep unresumed) (connect wsEvents unresumed start) actions final →
        InOrder unresumed start final := by
  constructor
  · intro inOrder
    have persisted : Run (UndisturbedStep fromStart) (connect wsEvents fromStart emptyFeed)
        [.persist mintEvent] _ := Run.one ⟨.persist mintEvent emptyFeed_last, trivial⟩
    have published := persisted.snoc
      ⟨@Step.publish fromStart _ mintEvent true quickWrite rfl, by decide, by decide⟩
    exact absurd ((inOrder _ _ _ published).all rfl rfl) (by decide)
  · intro inOrder
    have persisted : Run (UndisturbedStep unresumed) (connect wsEvents unresumed emptyFeed)
        [.persist mintEvent] _ := Run.one ⟨.persist mintEvent emptyFeed_last, trivial⟩
    have both := persisted.snoc ⟨.persist burnEvent mintFeed_last, trivial⟩
    have slow := both.snoc
      ⟨@Step.publish unresumed _ mintEvent true slowWrite rfl, by decide, by decide⟩
    have lost := slow.snoc
      ⟨@Step.publish unresumed _ burnEvent true quickWrite rfl, by decide, by decide⟩
    exact absurd ((inOrder _ _ _ lost).all rfl rfl) (by decide)

end EventStream

end SorobanExplorer.Indexer
