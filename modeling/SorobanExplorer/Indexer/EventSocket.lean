import SorobanExplorer.Indexer.EventStream
import SorobanExplorer.Library.Run

/-!
Owns the WebSocket connections of the event stream: the replay with its pages, the handler
of published events, the batches that a timer flushes, and `publish`, which calls the
handlers one after another until one throws. Numbers are exact here.

`promised_iff_spared` says for which runs all clients get what they are promised.
-/

namespace SorobanExplorer.Indexer

open Library

namespace EventSocket

open EventStream (emptyFeed emptyFeed_last mintEvent)

def maxReplayEvents : ℕ := 1000

def maxPendingEvents : ℕ := 500

structure Scope where
  db : Bool
  pendingEventsByLedger : Bool

/-- `wsEvents.js` neither imports `db` nor declares `pendingEventsByLedger`. -/
def wsEvents : Scope := ⟨false, false⟩

/-- `matches`: a predicate, or null. -/
abbrev Filter := Option (StreamEvent → Bool)

/-- `!(matches && !matches(event))` -/
def Filter.admits (filter : Filter) (event : StreamEvent) : Bool :=
  filter.all fun passes => passes event

structure SocketRequest where
  network : Network
  afterSeq : Option ℕ

inductive CloseReason where
  | cannotKeepUp
  | replayFailed
  | disconnected
deriving DecidableEq, Repr

inductive Phase where
  | querying
  | fetched (page : EventsSince)
  | complete
deriving DecidableEq, Repr

/-- A connection. `closed` is `none` while the socket is open. What is promised depends on
the past: `since` is the number of events of the network that had been published when it
connected, `filters` are the filters it has had. -/
structure Client where
  request : SocketRequest
  closed : Option CloseReason
  phase : Phase
  cursor : ℕ
  replayed : ℕ
  filter : Filter
  pendingEvents : List StreamEvent
  flushScheduled : Bool
  delivered : List StreamEvent
  since : ℕ
  filters : List Filter

namespace Client

/-- `ws.close(…)` -/
def close (client : Client) (reason : CloseReason) : Client :=
  if client.closed.isNone then { client with closed := some reason } else client

def send (client : Client) (fits : Bool) (events : List StreamEvent) : Client × Bool :=
  if client.closed.isSome then (client, false)
  else if !fits then (client.close .cannotKeepUp, false)
  else ({ client with delivered := client.delivered ++ events }, true)

/-- `handler(event)`; `none` is a `ReferenceError`. -/
def handler (scope : Scope) (client : Client) (event : StreamEvent) : Option Client :=
  if client.closed.isSome then some client
  else if !client.filter.admits event then some client
  else if !scope.pendingEventsByLedger then none
  else if event.seq ≤ client.cursor then some client
  else if maxPendingEvents ≤ client.pendingEvents.length then some (client.close .cannotKeepUp)
  else some { client with
    pendingEvents := client.pendingEvents ++ [event]
    flushScheduled := true }

/-- `flushBatch()` -/
def flushBatch (client : Client) (fits : Bool) : Client :=
  if client.pendingEvents.isEmpty then { client with flushScheduled := false }
  else
    let batch := client.pendingEvents.mergeSort fun first second => first.seq ≤ second.seq
    (({ client with pendingEvents := [], flushScheduled := false } : Client).send fits batch).1

def sendPage (fits : StreamEvent → Bool) : List StreamEvent → Client → Client × Bool
  | [], client => (client, true)
  | event :: events, client =>
    let sent := client.send (fits event) [event]
    if sent.2 then
      sendPage fits events { sent.1 with cursor := event.seq, replayed := sent.1.replayed + 1 }
    else sent

/-- What follows the `await` of a page; `replayQueue` is empty. -/
def replay (client : Client) (page : EventsSince) (fits : StreamEvent → Bool) : Client :=
  let sent := sendPage fits page.data client
  if !sent.2 then sent.1
  else if maxReplayEvents ≤ sent.1.replayed ∧ page.hasMore then sent.1.close .cannotKeepUp
  else { sent.1 with phase := if page.hasMore then .querying else .complete }

/-- A new connection: without a cursor the replay is complete at once, and without `db` the
first query is an error. -/
def connect (scope : Scope) (feed : EventFeed) (request : SocketRequest) (filter : Filter) :
    Client where
  request := request
  closed := if request.afterSeq.isSome && !scope.db then some .replayFailed else none
  phase := if request.afterSeq.isSome then .querying else .complete
  cursor := request.afterSeq.getD 0
  replayed := 0
  filter := filter
  pendingEvents := []
  flushScheduled := false
  delivered := []
  since := (feed.publishedOf request.network).length
  filters := [filter]

end Client

/-- The connections in the order in which they were made. `thrown` is set once a call of
`publish` has thrown: what is promised is broken then, whatever the outbox does with the row. -/
structure Server where
  feed : EventFeed
  clients : List Client
  thrown : Bool

/-- `bus.emit`: the handlers of the network's channel, until one throws. -/
def emit (scope : Scope) (event : StreamEvent) : List Client → List Client × Bool
  | [] => ([], false)
  | client :: clients =>
    if client.request.network = event.network then
      match client.handler scope event with
      | none => (client :: clients, true)
      | some handled => (handled :: (emit scope event clients).1, (emit scope event clients).2)
    else (client :: (emit scope event clients).1, (emit scope event clients).2)

namespace Server

def start (feed : EventFeed) : Server := ⟨feed, [], false⟩

def setClient (server : Server) (index : ℕ) (client : Client) : Server :=
  { server with clients := server.clients.set index client }

def publish (scope : Scope) (server : Server) {event : StreamEvent}
    (next : server.feed.next? = some event) : Server where
  feed := server.feed.publish next
  clients := (emit scope event server.clients).1
  thrown := server.thrown || (emit scope event server.clients).2

end Server

inductive Action where
  | persist (event : StreamEvent)
  | publish
  | connect (request : SocketRequest) (filter : Filter)
  | subscribe (index : ℕ) (filter : Filter)
  | flush (index : ℕ) (fits : Bool)
  | query (index : ℕ)
  | queryFails (index : ℕ)
  | replay (index : ℕ) (fits : StreamEvent → Bool)
  | disconnect (index : ℕ)

inductive Step (scope : Scope) : Server → Action → Server → Prop
  | persist {server : Server} (event : StreamEvent) (last : server.feed.Last event) :
      Step scope server (.persist event) { server with feed := server.feed.persist event last }
  | publish {server : Server} {event : StreamEvent} (next : server.feed.next? = some event) :
      Step scope server .publish (server.publish scope next)
  | connect {server : Server} (request : SocketRequest) (filter : Filter) :
      Step scope server (.connect request filter) { server with
        clients := server.clients ++ [Client.connect scope server.feed request filter] }
  | subscribe {server : Server} {client : Client} (index : ℕ) (filter : Filter)
      (current : server.clients[index]? = some client) :
      Step scope server (.subscribe index filter) (server.setClient index
        { client with filter := filter, filters := client.filters ++ [filter] })
  | flush {server : Server} {client : Client} (index : ℕ) (fits : Bool)
      (current : server.clients[index]? = some client) (scheduled : client.flushScheduled = true) :
      Step scope server (.flush index fits) (server.setClient index (client.flushBatch fits))
  | query {server : Server} {client : Client} (index : ℕ)
      (bound : scope.db = true) (current : server.clients[index]? = some client)
      (waits : client.phase = .querying) : Step scope server (.query index) (server.setClient index { client with
        phase := .fetched (server.feed.getEventsSince client.cursor
          (min 500 (maxReplayEvents - client.replayed)) client.request.network) })
  | queryFails {server : Server} {client : Client} (index : ℕ)
      (bound : scope.db = true) (current : server.clients[index]? = some client)
      (waits : client.phase = .querying) : Step scope server (.queryFails index) (server.setClient index (client.close .replayFailed))
  | replay {server : Server} {client : Client} {page : EventsSince} (index : ℕ)
      (fits : StreamEvent → Bool) (current : server.clients[index]? = some client)
      (fetched : client.phase = .fetched page) :
      Step scope server (.replay index fits) (server.setClient index (client.replay page fits))
  | disconnect {server : Server} {client : Client} (index : ℕ)
      (current : server.clients[index]? = some client) :
      Step scope server (.disconnect index) (server.setClient index
        { client.close .disconnected with flushScheduled := false })

/-! ### What is promised -/

def owed (feed : EventFeed) (client : Client) : List StreamEvent :=
  match client.request.afterSeq with
  | some cursor => above StreamEvent.seq cursor (feed.ofNetwork client.request.network)
  | none => (feed.publishedOf client.request.network).drop client.since

def Settled (feed : EventFeed) (client : Client) : Prop :=
  feed.published = feed.rows.length ∧ client.phase = .complete ∧ client.pendingEvents = []

/-- What an open client is promised: events in increasing order, each owed to it and admitted
by a filter that it had, and all of them that all its filters admit once nothing is left to
do. -/
structure Served (feed : EventFeed) (client : Client) : Prop where
  rises : StrictlyRises StreamEvent.seq client.delivered
  sound : ∀ event ∈ client.delivered, event ∈ owed feed client ∧
    ∃ filter ∈ client.filters, filter.admits event = true
  all : Settled feed client → ∀ event ∈ owed feed client,
    (∀ filter ∈ client.filters, filter.admits event = true) → event ∈ client.delivered

/-- No client made `publish` throw, none was closed because its replay failed, and the open
ones are served. -/
structure Promised (server : Server) : Prop where
  quiet : server.thrown = false
  replays : ∀ client ∈ server.clients, client.closed ≠ some .replayFailed
  served : ∀ client ∈ server.clients, client.closed = none → Served server.feed client

/-- No client resumes, and no event is published that an open client of its network admits,
unless the module has the names for it. -/
def Spared (scope : Scope) (server : Server) : Action → Prop
  | .connect request _ => request.afterSeq = none
  | .publish => scope.pendingEventsByLedger = true ∨
      ∀ event, server.feed.next? = some event → ∀ client ∈ server.clients,
        client.closed = none → client.request.network = event.network →
          client.filter.admits event = false
  | _ => True

theorem deterministic (scope : Scope) : Deterministic (Step scope) := by
  intro before action first second left right
  cases left with
  | persist => cases right; rfl
  | connect => cases right; rfl
  | @publish _ next =>
    cases right with
    | @publish _ again =>
      cases next.symm.trans again
      rfl
  | subscribe index filter current =>
    cases right with
    | subscribe _ _ again => cases current.symm.trans again; rfl
  | flush index fits current =>
    cases right with
    | flush _ _ again => cases current.symm.trans again; rfl
  | query index bound current =>
    cases right with
    | query _ _ again => cases current.symm.trans again; rfl
  | queryFails index bound current =>
    cases right with
    | queryFails _ _ again => cases current.symm.trans again; rfl
  | replay index fits current fetched =>
    cases right with
    | replay _ _ again fetchedAgain =>
      cases current.symm.trans again
      cases fetched.symm.trans fetchedAgain
      rfl
  | disconnect index current =>
    cases right with
    | disconnect _ again => cases current.symm.trans again; rfl

/-! ### One client -/

section OneClient

variable {scope : Scope} {feed : EventFeed} {client : Client} {event : StreamEvent}

structure Batches (feed : EventFeed) (client : Client) : Prop where
  rises : StrictlyRises StreamEvent.seq (client.delivered ++ client.pendingEvents)
  sound : ∀ event ∈ client.delivered ++ client.pendingEvents,
    event ∈ (feed.publishedOf client.request.network).drop client.since ∧
      ∃ filter ∈ client.filters, filter.admits event = true
  all : ∀ event ∈ (feed.publishedOf client.request.network).drop client.since,
    (∀ filter ∈ client.filters, filter.admits event = true) →
      event ∈ client.delivered ++ client.pendingEvents

theorem Batches.of_same {other : Client} (batches : Batches feed client)
    (request : other.request = client.request) (since : other.since = client.since)
    (filters : other.filters = client.filters)
    (taken : other.delivered ++ other.pendingEvents = client.delivered ++ client.pendingEvents) :
    Batches feed other := by
  constructor
  · rw [taken]
    exact batches.rises
  · rw [taken, request, since, filters]
    exact batches.sound
  · rw [taken, request, since, filters]
    exact batches.all

structure Kept (feed : EventFeed) (client : Client) : Prop where
  unresumed : client.request.afterSeq = none
  closed : client.closed ≠ some .replayFailed
  phase : client.phase = .complete
  cursor : client.cursor = 0
  current : client.filter ∈ client.filters
  since : client.since ≤ (feed.publishedOf client.request.network).length
  batches : client.closed = none → Batches feed client

theorem Kept.served (kept : Kept feed client) (opened : client.closed = none) :
    Served feed client := by
  have batches := kept.batches opened
  have owes : owed feed client = (feed.publishedOf client.request.network).drop client.since := by
    rw [owed, kept.unresumed]
  constructor
  · exact batches.rises.sublist (List.sublist_append_left _ _)
  · intro event delivered
    rw [owes]
    exact batches.sound event (List.mem_append_left _ delivered)
  · rintro ⟨-, -, empty⟩ event promised admitted
    rw [owes] at promised
    have found := batches.all event promised admitted
    rwa [empty, List.append_nil] at found

theorem kept_connect (request : SocketRequest) (filter : Filter)
    (unresumed : request.afterSeq = none) :
    Kept feed (Client.connect scope feed request filter) where
  unresumed := unresumed
  closed := by simp [Client.connect, unresumed]
  phase := by simp [Client.connect, unresumed]
  cursor := by simp [Client.connect, unresumed]
  current := List.mem_singleton_self filter
  since := le_refl _
  batches := by
    intro _
    have none : (feed.publishedOf (Client.connect scope feed request filter).request.network).drop
        (Client.connect scope feed request filter).since = [] := List.drop_length
    constructor
    · exact List.Pairwise.nil
    · exact List.forall_mem_nil _
    · rw [none]
      exact List.forall_mem_nil _

theorem Kept.close (kept : Kept feed client) {reason : CloseReason}
    (other : reason ≠ .replayFailed) : Kept feed (client.close reason) := by
  rw [Client.close]
  split_ifs with opened
  · exact { kept with
      closed := fun same => other (Option.some.inj same)
      batches := fun again => absurd again (by simp) }
  · exact kept

theorem Kept.persist (kept : Kept feed client) (last : feed.Last event) :
    Kept (feed.persist event last) client := by
  have published := EventFeed.publishedOf_persist client.request.network last
  exact { kept with
    since := by
      rw [published]
      exact kept.since
    batches := by
      intro opened
      have batches := kept.batches opened
      exact { batches with
        sound := by
          rw [published]
          exact batches.sound
        all := by
          rw [published]
          exact batches.all } }

theorem Kept.subscribe (kept : Kept feed client) (filter : Filter) :
    Kept feed { client with filter := filter, filters := client.filters ++ [filter] } :=
  { kept with
    current := by simp
    batches := by
      intro opened
      have batches := kept.batches opened
      exact {
        rises := batches.rises
        sound := by
          intro event taken
          obtain ⟨promised, earlier, listed, admitted⟩ := batches.sound event taken
          exact ⟨promised, earlier, List.mem_append_left _ listed, admitted⟩
        all := by
          intro event promised admitted
          exact batches.all event promised fun earlier listed =>
            admitted earlier (List.mem_append_left _ listed) } }

theorem Kept.flush (kept : Kept feed client) (fits : Bool) :
    Kept feed (client.flushBatch fits) := by
  unfold Client.flushBatch Client.send
  split_ifs with empty closed unfit
  · exact { kept with
      batches := fun opened => (kept.batches opened).of_same rfl rfl rfl rfl }
  · have stays : client.closed ≠ none := Option.isSome_iff_ne_none.mp closed
    exact { kept with batches := fun opened => absurd opened stays }
  · have opened : client.closed.isNone = true := by
      rw [Option.not_isSome_iff_eq_none.mp closed]
      rfl
    simp only [Client.close, opened, if_true]
    exact { kept with
      closed := by simp
      batches := fun again => absurd again (by simp) }
  · have opened : client.closed = none := Option.not_isSome_iff_eq_none.mp closed
    have batches := kept.batches opened
    have rises : StrictlyRises StreamEvent.seq client.pendingEvents :=
      batches.rises.sublist (List.sublist_append_right _ _)
    have sorted : (client.pendingEvents.mergeSort fun first second => first.seq ≤ second.seq) =
        client.pendingEvents :=
      List.mergeSort_of_pairwise (rises.imp fun below => decide_eq_true below.le)
    rw [sorted]
    exact { kept with batches := fun _ => batches.of_same rfl rfl rfl (List.append_nil _) }

theorem Kept.disconnect (kept : Kept feed client) :
    Kept feed { client.close .disconnected with flushScheduled := false } := by
  have closes := kept.close (by decide : CloseReason.disconnected ≠ .replayFailed)
  exact { closes with
    batches := fun opened => (closes.batches opened).of_same rfl rfl rfl rfl }

/-! ### Publishing -/

section Publishing

variable (next : feed.next? = some event)

theorem handler_eq_none : client.handler scope event = none ↔
    client.closed = none ∧ client.filter.admits event = true ∧
      scope.pendingEventsByLedger = false := by
  unfold Client.handler
  cases closed : client.closed with
  | some reason => simp
  | none => split_ifs <;> simp_all

include next in
theorem Kept.publish_other (kept : Kept feed client)
    (other : client.closed = none → client.request.network = event.network →
      client.filter.admits event = false) : Kept (feed.publish next) client := by
  have published := EventFeed.publishedOf_publish client.request.network next
  have grows := EventFeed.length_publishedOf_le client.request.network next
  refine { kept with since := kept.since.trans grows, batches := ?_ }
  intro opened
  have batches := kept.batches opened
  refine { batches with sound := ?_, all := ?_ }
  · intro earlier taken
    obtain ⟨promised, admitted⟩ := batches.sound earlier taken
    rw [published, List.drop_append_of_le_length kept.since]
    exact ⟨List.mem_append_left _ promised, admitted⟩
  · intro later promised admitted
    rw [published, List.drop_append_of_le_length kept.since] at promised
    rcases List.mem_append.mp promised with earlier | new
    · exact batches.all later earlier admitted
    · split_ifs at new with same
      · rw [List.mem_singleton.mp new] at admitted
        have rejected := other opened same.symm
        rw [admitted _ kept.current] at rejected
        cases rejected
      · cases new

include next in
theorem Kept.publish_batched (kept : Kept feed client)
    (same : client.request.network = event.network)
    (admitted : client.filter.admits event = true) :
    Kept (feed.publish next) { client with
      pendingEvents := client.pendingEvents ++ [event]
      flushScheduled := true } := by
  have published := EventFeed.publishedOf_publish client.request.network next
  rw [if_pos same.symm] at published
  have promised : ((feed.publish next).publishedOf client.request.network).drop client.since =
      (feed.publishedOf client.request.network).drop client.since ++ [event] := by
    rw [published, List.drop_append_of_le_length kept.since]
  have grows := EventFeed.length_publishedOf_le client.request.network next
  refine { kept with since := kept.since.trans grows, batches := ?_ }
  intro opened
  have batches := kept.batches opened
  have taken : client.delivered ++ (client.pendingEvents ++ [event]) =
      (client.delivered ++ client.pendingEvents) ++ [event] := (List.append_assoc _ _ _).symm
  constructor
  · show StrictlyRises _ (client.delivered ++ (client.pendingEvents ++ [event]))
    rw [taken]
    apply batches.rises.concat
    intro earlier member
    have listed := List.mem_of_mem_drop (batches.sound earlier member).1
    exact EventFeed.lt_of_unpublished (EventFeed.mem_publishedOf.mp listed).1
      (EventFeed.mem_drop_of_next next)
  · intro other member
    rw [promised]
    rw [taken] at member
    rcases List.mem_append.mp member with earlier | new
    · obtain ⟨listed, admits⟩ := batches.sound other earlier
      exact ⟨List.mem_append_left _ listed, admits⟩
    · rw [List.mem_singleton.mp new]
      exact ⟨List.mem_append_right _ (List.mem_singleton_self event), client.filter, kept.current,
        admitted⟩
  · intro other member admits
    rw [promised] at member
    show other ∈ client.delivered ++ (client.pendingEvents ++ [event])
    rw [taken]
    rcases List.mem_append.mp member with earlier | new
    · exact List.mem_append_left _ (batches.all other earlier admits)
    · exact List.mem_append_right _ new

theorem Kept.handled (kept : Kept feed client) (same : client.request.network = event.network)
    {handled : Client} (handles : client.handler scope event = some handled) :
    Kept (feed.publish next) handled := by
  unfold Client.handler at handles
  split_ifs at handles with closed rejected unbound read full
  · cases handles
    exact kept.publish_other next fun opened _ =>
      absurd opened (Option.isSome_iff_ne_none.mp closed)
  · cases handles
    exact kept.publish_other next fun _ _ => (Bool.not_eq_true' _).mp rejected
  · rw [kept.cursor] at read
    exact absurd read (not_le.mpr (feed.positive event (EventFeed.mem_of_next next)))
  · cases handles
    have grows := EventFeed.length_publishedOf_le client.request.network next
    have opened : client.closed.isNone = true := by
      rw [Option.not_isSome_iff_eq_none.mp closed]
      rfl
    rw [Client.close, if_pos opened]
    exact { kept with
      closed := by simp
      since := kept.since.trans grows
      batches := fun again => absurd again (by simp) }
  · cases handles
    exact kept.publish_batched next same (by simpa using rejected)

end Publishing

end OneClient

/-! ### All clients -/

section Clients

variable {scope : Scope} {feed : EventFeed} {event : StreamEvent} {clients : List Client}
  {before after : Server} {action : Action}

theorem thrown_iff : (emit scope event clients).2 = true ↔ ∃ client ∈ clients,
    client.request.network = event.network ∧ client.handler scope event = none := by
  induction clients with
  | nil => simp [emit]
  | cons client clients ih =>
    rw [emit]
    split_ifs with same
    · split
      next throws => simp [same, throws]
      next handled handles => simp [ih, handles]
    · simp [ih, same]

theorem kept_emit (next : feed.next? = some event)
    (quiet : (emit scope event clients).2 = false) (kept : ∀ client ∈ clients, Kept feed client) :
    ∀ client ∈ (emit scope event clients).1, Kept (feed.publish next) client := by
  induction clients with
  | nil => exact List.forall_mem_nil _
  | cons client clients ih =>
    obtain ⟨first, rest⟩ := List.forall_mem_cons.mp kept
    rw [emit] at quiet ⊢
    split_ifs at quiet ⊢ with same
    · split at quiet
      next => cases quiet
      next handled handles =>
        exact List.forall_mem_cons.mpr
          ⟨first.handled next same handles, ih quiet rest⟩
    · refine List.forall_mem_cons.mpr ⟨?_, ih quiet rest⟩
      exact first.publish_other next fun _ network => absurd network same

structure KeptAll (server : Server) : Prop where
  quiet : server.thrown = false
  clients : ∀ client ∈ server.clients, Kept server.feed client

theorem KeptAll.promised (kept : KeptAll after) : Promised after where
  quiet := kept.quiet
  replays := fun client listed => (kept.clients client listed).closed
  served := fun client listed opened => (kept.clients client listed).served opened

theorem KeptAll.setClient (kept : KeptAll before) {index : ℕ} {client changed : Client}
    (current : before.clients[index]? = some client)
    (keeps : Kept before.feed client → Kept before.feed changed) :
    KeptAll (before.setClient index changed) where
  quiet := kept.quiet
  clients := by
    intro other listed
    rcases List.mem_or_eq_of_mem_set listed with earlier | same
    · exact kept.clients other earlier
    · rw [same]
      exact keeps (kept.clients client (List.mem_of_getElem? current))

theorem quiet_of_spared (next : before.feed.next? = some event)
    (spared : Spared scope before .publish) : (emit scope event before.clients).2 = false := by
  by_contra thrown
  rw [Bool.not_eq_false, thrown_iff] at thrown
  obtain ⟨client, listed, same, throws⟩ := thrown
  obtain ⟨opened, admitted, unbound⟩ := handler_eq_none.mp throws
  rcases spared with bound | rejected
  · rw [unbound] at bound
    cases bound
  · rw [rejected event next client listed opened same] at admitted
    cases admitted

theorem KeptAll.step (kept : KeptAll before) (spared : Spared scope before action)
    (taken : Step scope before action after) : KeptAll after := by
  cases taken with
  | persist event last =>
    exact ⟨kept.quiet, fun client listed => (kept.clients client listed).persist last⟩
  | @publish event next =>
    have quiet := quiet_of_spared next spared
    refine ⟨?_, kept_emit next quiet kept.clients⟩
    show (before.thrown || (emit scope event before.clients).2) = false
    rw [kept.quiet, quiet]
    rfl
  | connect request filter =>
    refine ⟨kept.quiet, List.forall_mem_append.mpr ⟨kept.clients, ?_⟩⟩
    exact List.forall_mem_singleton.mpr (kept_connect request filter spared)
  | subscribe index filter current =>
    exact kept.setClient current fun client => client.subscribe filter
  | flush index fits current => exact kept.setClient current fun client => client.flush fits
  | @query client index bound current waits =>
    have complete := (kept.clients client (List.mem_of_getElem? current)).phase
    rw [waits] at complete
    cases complete
  | @queryFails client index bound current waits =>
    have complete := (kept.clients client (List.mem_of_getElem? current)).phase
    rw [waits] at complete
    cases complete
  | @replay client page index fits current fetched =>
    have complete := (kept.clients client (List.mem_of_getElem? current)).phase
    rw [fetched] at complete
    cases complete
  | disconnect index current => exact kept.setClient current fun client => client.disconnect

theorem spared_of_promised (taken : Step wsEvents before action after)
    (promised : Promised after) : Spared wsEvents before action := by
  cases taken with
  | @publish event next =>
    refine Or.inr fun other again client listed opened same => ?_
    cases next.symm.trans again
    by_contra admitted
    have throws : client.handler wsEvents event = none :=
      handler_eq_none.mpr ⟨opened, by simpa using admitted, rfl⟩
    have thrown := (@thrown_iff wsEvents _ _).mpr ⟨client, listed, same, throws⟩
    have quiet : (before.thrown || (emit wsEvents event before.clients).2) = false :=
      promised.quiet
    rw [thrown, Bool.or_true] at quiet
    cases quiet
  | connect request filter =>
    show request.afterSeq = none
    have replays := promised.replays (Client.connect wsEvents before.feed request filter)
      (by simp)
    cases resumes : request.afterSeq with
    | none => rfl
    | some cursor => exact absurd (by simp [Client.connect, resumes, wsEvents]) replays
  | persist => trivial
  | subscribe => trivial
  | flush => trivial
  | query => trivial
  | queryFails => trivial
  | replay => trivial
  | disconnect => trivial

end Clients

/-! ### Runs -/

section Runs

variable {scope : Scope} {feed : EventFeed} {actions : List Action} {final : Server}

theorem keptAll_start (feed : EventFeed) : KeptAll (Server.start feed) :=
  ⟨rfl, List.forall_mem_nil _⟩

/-- In whatever scope, what is promised holds along runs that are spared. -/
theorem promised_of_spared
    (spared : EachStep (Step scope) (Server.start feed) actions (Spared scope)) :
    Along (Step scope) (Server.start feed) actions fun _ server => Promised server := by
  have kept := spared.along (P := fun _ server => KeptAll server) (keptAll_start feed)
    fun _ _ _ _ _ kept spared taken => kept.step spared taken
  exact fun history isPrefix server run => (kept history isPrefix server run).promised

/-- What is promised holds along a run if and only if no client resumes and no event is
published that an open client of its network admits. -/
theorem promised_iff_spared
    (run : Run (Step wsEvents) (Server.start feed) actions final) :
    Along (Step wsEvents) (Server.start feed) actions (fun _ server => Promised server) ↔
      EachStep (Step wsEvents) (Server.start feed) actions (Spared wsEvents) :=
  run.along_iff_eachStep (I := fun _ server => KeptAll server) (deterministic wsEvents)
    (keptAll_start feed) (fun _ _ _ kept => kept.promised)
    (fun _ _ _ _ _ kept spared taken => kept.step spared taken)
    (fun _ _ _ _ _ _ taken promised => spared_of_promised taken promised)

end Runs

/-! ### Runs of one event -/

def openClient : List Action :=
  [.connect ⟨.testnet, none⟩ none, .persist mintEvent, .publish]

def otherClient : List Action :=
  [.connect ⟨.mainnet, none⟩ none, .persist mintEvent, .publish]

theorem otherClient_promised :
    Along (Step wsEvents) (Server.start emptyFeed) otherClient
      (fun _ server => Promised server) := by
  have unique := deterministic wsEvents
  have none : Run (Step wsEvents) (Server.start emptyFeed) [] (Server.start emptyFeed) ∧
      EachStep (Step wsEvents) (Server.start emptyFeed) [] (Spared wsEvents) :=
    ⟨Run.nil, EachStep.nil⟩
  have connected := EachStep.extend unique none
    (show Spared wsEvents _ (.connect ⟨.mainnet, Option.none⟩ Option.none) from rfl)
    (Step.connect ⟨.mainnet, Option.none⟩ Option.none)
  have persisted := EachStep.extend unique connected
    (show Spared wsEvents _ (.persist mintEvent) from trivial)
    (Step.persist mintEvent emptyFeed_last)
  have published := EachStep.extend unique persisted
    (show Spared wsEvents _ .publish from by
      refine Or.inr fun event next client listed opened same => ?_
      cases next
      rw [List.mem_singleton.mp listed] at same
      cases same)
    (@Step.publish wsEvents _ mintEvent rfl)
  exact (promised_iff_spared published.1).mpr published.2

/-- Publishing throws because of an open client, and a client that resumes is closed. -/
theorem openClient_throws :
    (∃ final, Run (Step wsEvents) (Server.start emptyFeed) openClient final ∧
      final.thrown = true ∧ ¬ Promised final) ∧
    ∃ final, Run (Step wsEvents) (Server.start emptyFeed) [.connect ⟨.testnet, some 0⟩ none] final ∧
      (∃ client ∈ final.clients, client.closed = some .replayFailed) ∧ ¬ Promised final := by
  constructor
  · have connected : Run (Step wsEvents) (Server.start emptyFeed)
        [.connect ⟨.testnet, none⟩ none] _ := Run.one (Step.connect _ _)
    have persisted := connected.snoc (Step.persist mintEvent emptyFeed_last)
    have published := persisted.snoc (@Step.publish wsEvents _ mintEvent rfl)
    refine ⟨_, published, rfl, fun promised => ?_⟩
    exact absurd promised.quiet (by decide)
  · refine ⟨_, Run.one (Step.connect _ _), ?_, fun promised => ?_⟩
    · exact ⟨_, List.mem_singleton_self _, rfl⟩
    · exact promised.replays _ (List.mem_singleton_self _) rfl

end EventSocket

end SorobanExplorer.Indexer
