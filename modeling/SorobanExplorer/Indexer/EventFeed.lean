import Mathlib.Algebra.Group.Nat.Defs
import SorobanExplorer.Library.OrderedLog

/-!
Owns the events that streams deliver: the rows of `events` in the order of `seq`, of which
the first have been published, and `getEventsSince`. An event is persisted with a greater
`seq` than all before it, and published after that, in the same order.
-/

namespace SorobanExplorer.Indexer

open Library

inductive Network where
  | testnet
  | mainnet
  | futurenet
deriving DecidableEq, Repr

/-- An event; `payload` stands for its other fields. The row has the network that the event
is published on. -/
structure StreamEvent where
  seq : ℕ
  network : Network
  ledger : ℕ
  payload : String
deriving DecidableEq, Repr

/-- `Number.MAX_SAFE_INTEGER` -/
def maxSafeInteger : ℕ := 2 ^ 53 - 1

/-- The table, and how many of its rows have been published. `seq` comes from a sequence,
which starts at one. -/
structure EventFeed where
  rows : List StreamEvent
  published : ℕ
  positive : ∀ row ∈ rows, 0 < row.seq
  rises : StrictlyRises StreamEvent.seq rows
  bounded : published ≤ rows.length

/-- What `getEventsSince` returns. -/
structure EventsSince where
  data : List StreamEvent
  hasMore : Bool
deriving DecidableEq, Repr

namespace EventFeed

def ofNetwork (feed : EventFeed) (network : Network) : List StreamEvent :=
  feed.rows.filter fun event => event.network = network

/-- The event's `seq` is greater than all before it. -/
def Last (feed : EventFeed) (event : StreamEvent) : Prop :=
  0 < event.seq ∧ ∀ row ∈ feed.rows, row.seq < event.seq

def persist (feed : EventFeed) (event : StreamEvent) (last : feed.Last event) : EventFeed where
  rows := feed.rows ++ [event]
  published := feed.published
  positive := List.forall_mem_append.mpr
    ⟨feed.positive, List.forall_mem_singleton.mpr last.1⟩
  rises := feed.rises.concat last.2
  bounded := by
    rw [List.length_append]
    exact Nat.le_add_right_of_le feed.bounded

def next? (feed : EventFeed) : Option StreamEvent := feed.rows[feed.published]?

def publish (feed : EventFeed) {event : StreamEvent} (next : feed.next? = some event) : EventFeed where
  rows := feed.rows
  published := feed.published + 1
  positive := feed.positive
  rises := feed.rises
  bounded := (List.getElem?_eq_some_iff.mp next).1

/-- `WHERE network = $1 AND seq > $2 ORDER BY seq ASC LIMIT $3`, of one more than the limit. -/
def getEventsSince (feed : EventFeed) (afterSeq limit : ℕ) (network : Network) : EventsSince :=
  let rows := (above StreamEvent.seq afterSeq (feed.ofNetwork network)).take (limit + 1)
  { data := if limit < rows.length then rows.take limit else rows
    hasMore := limit < rows.length }

def publishedOf (feed : EventFeed) (network : Network) : List StreamEvent :=
  (feed.rows.take feed.published).filter fun event => event.network = network

section Lemmas

variable {feed : EventFeed} {network : Network} {event : StreamEvent}

theorem ofNetwork_rises : StrictlyRises StreamEvent.seq (feed.ofNetwork network) :=
  feed.rises.filter _

theorem mem_ofNetwork : event ∈ feed.ofNetwork network ↔
    event ∈ feed.rows ∧ event.network = network := by
  rw [ofNetwork, List.mem_filter, decide_eq_true_eq]

theorem mem_publishedOf : event ∈ feed.publishedOf network ↔
    event ∈ feed.rows.take feed.published ∧ event.network = network := by
  rw [publishedOf, List.mem_filter, decide_eq_true_eq]

theorem publishedOf_sublist : (feed.publishedOf network).Sublist (feed.ofNetwork network) :=
  (List.take_sublist _ _).filter _

theorem lt_of_unpublished {later : StreamEvent} (published : event ∈ feed.rows.take feed.published)
    (waits : later ∈ feed.rows.drop feed.published) : event.seq < later.seq := by
  have rises := feed.rises
  rw [← List.take_append_drop feed.published feed.rows] at rises
  exact (List.pairwise_append.mp rises).2.2 event published later waits

theorem mem_publishedOf_of_le {later : StreamEvent} (present : event ∈ feed.ofNetwork network)
    (published : later ∈ feed.rows.take feed.published) (upTo : event.seq ≤ later.seq) :
    event ∈ feed.publishedOf network := by
  obtain ⟨listed, same⟩ := mem_ofNetwork.mp present
  exact mem_publishedOf.mpr ⟨feed.rises.mem_take_of_le listed published upTo, same⟩

theorem filter_singleton (network : Network) (event : StreamEvent) :
    [event].filter (fun event => decide (event.network = network)) =
      if event.network = network then [event] else [] := by
  rw [List.filter_singleton]
  split_ifs <;> simp_all

theorem ofNetwork_persist (network : Network) (last : feed.Last event) :
    (feed.persist event last).ofNetwork network =
      feed.ofNetwork network ++ if event.network = network then [event] else [] := by
  rw [← filter_singleton]
  exact List.filter_append _ _

theorem publishedOf_persist (network : Network) (last : feed.Last event) :
    (feed.persist event last).publishedOf network = feed.publishedOf network := by
  show ((feed.rows ++ [event]).take feed.published).filter _ = _
  rw [List.take_append_of_le_length feed.bounded, publishedOf]

theorem take_next (next : feed.next? = some event) :
    feed.rows.take (feed.published + 1) = feed.rows.take feed.published ++ [event] := by
  obtain ⟨bound, same⟩ := List.getElem?_eq_some_iff.mp next
  rw [List.take_succ_eq_append_getElem bound, same]

theorem publishedOf_publish (network : Network) (next : feed.next? = some event) :
    (feed.publish next).publishedOf network =
      feed.publishedOf network ++ if event.network = network then [event] else [] := by
  show (feed.rows.take (feed.published + 1)).filter _ = _
  rw [take_next next, List.filter_append, filter_singleton, publishedOf]

theorem length_publishedOf_le (network : Network) (next : feed.next? = some event) :
    (feed.publishedOf network).length ≤ ((feed.publish next).publishedOf network).length := by
  rw [publishedOf_publish, List.length_append]
  exact Nat.le_add_right _ _

theorem mem_of_next (next : feed.next? = some event) : event ∈ feed.rows :=
  List.mem_of_getElem? next

theorem mem_drop_of_next (next : feed.next? = some event) :
    event ∈ feed.rows.drop feed.published := by
  obtain ⟨bound, rfl⟩ := List.getElem?_eq_some_iff.mp next
  rw [List.drop_eq_getElem_cons bound]
  exact List.mem_cons_self

theorem mem_publishedOf_of_lt_next (next : feed.next? = some event) {earlier : StreamEvent}
    (present : earlier ∈ feed.ofNetwork network) (before : earlier.seq < event.seq) :
    earlier ∈ feed.publishedOf network := by
  have published : event ∈ (feed.publish next).rows.take (feed.publish next).published := by
    show event ∈ feed.rows.take (feed.published + 1)
    rw [take_next next]
    simp
  have found := (feed.publish next).mem_publishedOf_of_le present published before.le
  rw [publishedOf_publish, List.mem_append] at found
  rcases found with found | same
  · exact found
  · split_ifs at same
    · rw [List.mem_singleton.mp same] at before
      exact absurd before (lt_irrefl _)
    · cases same

theorem publishedOf_all (all : feed.published = feed.rows.length) :
    feed.publishedOf network = feed.ofNetwork network := by
  rw [publishedOf, all, List.take_length, ofNetwork]

theorem getEventsSince_data (feed : EventFeed) (afterSeq limit : ℕ) (network : Network) :
    (feed.getEventsSince afterSeq limit network).data =
      (above StreamEvent.seq afterSeq (feed.ofNetwork network)).take limit := by
  simp only [getEventsSince]
  split_ifs with more
  · rw [List.take_take, Nat.min_eq_left (Nat.le_succ limit)]
  · rw [List.take_eq_take_iff]
    rw [List.length_take] at more
    omega

theorem getEventsSince_last {afterSeq limit : ℕ}
    (last : (feed.getEventsSince afterSeq limit network).hasMore = false) :
    (feed.getEventsSince afterSeq limit network).data =
      above StreamEvent.seq afterSeq (feed.ofNetwork network) := by
  rw [getEventsSince_data]
  simp only [getEventsSince, decide_eq_false_iff_not, List.length_take] at last
  exact List.take_of_length_le (by omega)

end Lemmas

end EventFeed

end SorobanExplorer.Indexer
