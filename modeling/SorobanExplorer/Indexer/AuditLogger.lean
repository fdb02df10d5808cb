import SorobanExplorer.Library.BatchQueue
import SorobanExplorer.Library.Run
import Mathlib.Data.List.Nodup

/-!
Owns the queue of the audit log: entries that wait, batches whose INSERT is under way, several at a
time, and the attempts after which an entry is dropped.
-/

namespace SorobanExplorer.Indexer.AuditLogger

open Library

def maxBatchSize : ℕ := 100

def maxFlushAttempts : ℕ := 20

/-! ### Entries -/

inductive Cell where
  | null
  | text (value : String)
  | number (value : ℤ)
  | date (time : ℤ)
deriving DecidableEq

/-- What the middleware records; `none` is `undefined`. -/
structure Fields where
  timestamp : Option Cell
  apiKeyId : Option Cell
  keyName : Option Cell
  tier : Option Cell
  ip : Option Cell
  method : Option Cell
  endpoint : Option Cell
  statusCode : Option Cell
  responseTimeMs : Option Cell
  rateLimitRemaining : Option Cell
  userAgent : Option Cell
  requestBodyHash : Option Cell
deriving DecidableEq

/-- An entry in memory: `number` is its place among the calls that made one, `flushAttempts` is
`_flushAttempts`. -/
structure Entry where
  number : ℕ
  fields : Fields
  flushAttempts : ℕ
deriving DecidableEq

/-- `cell ?? fallback` -/
def coalesce (cell : Option Cell) (fallback : Cell) : Cell :=
  match cell with
  | none | some .null => fallback
  | some cell => cell

def row (now : ℤ) (fields : Fields) : List Cell :=
  [coalesce fields.timestamp (.date now),
    coalesce fields.apiKeyId .null,
    coalesce fields.keyName .null,
    coalesce fields.tier (.text "unauthenticated"),
    coalesce fields.ip (.text "0.0.0.0"),
    coalesce fields.method (.text "GET"),
    coalesce fields.endpoint (.text "/"),
    coalesce fields.statusCode (.number 200),
    coalesce fields.responseTimeMs (.number 0),
    coalesce fields.rateLimitRemaining .null,
    coalesce fields.userAgent .null,
    coalesce fields.requestBodyHash .null]

def params (now : ℤ) (batch : List Entry) : List Cell :=
  batch.flatMap fun entry => row now entry.fields

def valuePlaceholders (index : ℕ) : List ℕ :=
  let base := index * 12
  [base + 1, base + 2, base + 3, base + 4, base + 5, base + 6, base + 7, base + 8, base + 9,
    base + 10, base + 11, base + 12]

/-- The placeholders of an entry stand for its own parameters. -/
theorem params_valuePlaceholders (now : ℤ) {batch : List Entry} {index : ℕ} {entry : Entry}
    (found : batch[index]? = some entry) :
    (valuePlaceholders index).map (fun place => (params now batch)[place - 1]?) =
      (row now entry.fields).map some := by
  induction batch generalizing index with
  | nil => cases found
  | cons first batch ih =>
    have split : params now (first :: batch) = row now first.fields ++ params now batch := rfl
    cases index with
    | zero =>
      cases found
      rw [split]
      rfl
    | succ index =>
      have shifted : valuePlaceholders (index + 1) = (valuePlaceholders index).map (· + 12) := by
        simp only [valuePlaceholders, List.map_cons, List.map_nil, Nat.add_mul, Nat.one_mul]
      have first_le : ∀ place ∈ valuePlaceholders index, 1 ≤ place := by
        simp [valuePlaceholders]
      rw [← ih found, split, shifted, List.map_map]
      refine List.map_congr_left fun place listed => ?_
      have positive := first_le place listed
      have after : (row now first.fields).length ≤ place + 12 - 1 := by
        show 12 ≤ place + 12 - 1
        omega
      exact (List.getElem?_append_right after).trans
        (congrArg (fun place => (params now batch)[place]?) (by
          show place + 12 - 1 - 12 = place - 1
          omega))

/-! ### The queue -/

def retry (entry : Entry) : Option Entry :=
  let attempts := entry.flushAttempts + 1
  if attempts > maxFlushAttempts then none else some { entry with flushAttempts := attempts }

/-- The queue and the batches in flight; `store.done` are the batches inserted, `failed` the
numbers of the batches whose INSERT failed. -/
structure State where
  store : BatchQueue Entry
  created : ℕ
  failed : List (List ℕ)

def State.initial : State := ⟨.empty, 0, []⟩

inductive Action where
  | createAuditLogEntry (fields : Fields)
  | flushQueue
  | settle (flight : ℕ) (inserted : Bool)

def next (state : State) : Action → Option State
  | .createAuditLogEntry fields =>
    some { state with
      store := state.store.push ⟨state.created, fields, 0⟩
      created := state.created + 1 }
  | .flushQueue =>
    if state.store.queue = [] then some state
    else some { state with store := state.store.takeBatch maxBatchSize }
  | .settle flight true =>
    (state.store.succeed? flight).map fun store => { state with store := store }
  | .settle flight false => do
      let batch ← state.store.flights[flight]?
      let store ← state.store.fail? retry flight
      some { state with store := store, failed := state.failed ++ [batch.map Entry.number] }

def Step (before : State) (action : Action) (after : State) : Prop := next before action = some after

/-! ### Conservation -/

def State.failures (state : State) (number : ℕ) : ℕ := state.failed.flatten.count number

def numbered (number : ℕ) (entry : Entry) : Bool := entry.number = number

/-- Every entry is in one place, its attempts are its own, and a dropped one had too many. -/
structure Kept (state : State) : Prop where
  once : ∀ number, state.store.copies (numbered number) = if number < state.created then 1 else 0
  queued : ∀ entry ∈ state.store.queue,
    entry.flushAttempts = state.failures entry.number ∧ entry.flushAttempts ≤ maxFlushAttempts
  flying : ∀ entry ∈ state.store.flights.flatten,
    entry.flushAttempts = state.failures entry.number ∧ entry.flushAttempts ≤ maxFlushAttempts
  dropped : ∀ entry ∈ state.store.lost, maxFlushAttempts < state.failures entry.number
  known : ∀ batch ∈ state.failed, ∀ number ∈ batch, number < state.created

theorem retry_number {entry later : Entry} (again : retry entry = some later) :
    later.number = entry.number := by
  unfold retry at again
  simp only at again
  split_ifs at again
  cases again
  rfl

theorem numbered_retry (number : ℕ) (entry later : Entry) (again : retry entry = some later) :
    numbered number later = numbered number entry := by
  rw [numbered, numbered, retry_number again]

theorem retry_none {entry : Entry} (stays : entry.flushAttempts ≤ maxFlushAttempts)
    (lost : (retry entry).isNone = true) : entry.flushAttempts = maxFlushAttempts := by
  unfold retry at lost
  simp only at lost
  split_ifs at lost with many
  · omega
  · cases lost

theorem retry_some {entry later : Entry} (again : retry entry = some later) :
    later.flushAttempts = entry.flushAttempts + 1 ∧ later.flushAttempts ≤ maxFlushAttempts := by
  unfold retry at again
  simp only at again
  split_ifs at again with many
  cases again
  exact ⟨rfl, not_lt.mp many⟩

theorem countP_numbered (batch : List Entry) (number : ℕ) :
    batch.countP (numbered number) = (batch.map Entry.number).count number := by
  rw [List.count, List.countP_map]
  congr 1

theorem one_le_countP {batch : List Entry} {entry : Entry} (listed : entry ∈ batch) :
    1 ≤ batch.countP (numbered entry.number) :=
  List.countP_pos_iff.mpr ⟨entry, listed, decide_eq_true rfl⟩

theorem kept_initial : Kept .initial where
  once _ := rfl
  queued _ listed := absurd listed List.not_mem_nil
  flying _ listed := absurd listed List.not_mem_nil
  dropped _ listed := absurd listed List.not_mem_nil
  known _ listed := absurd listed List.not_mem_nil

namespace Kept

variable {before after : State}

theorem number_lt (kept : Kept before) {entry : Entry}
    (placed : 1 ≤ before.store.copies (numbered entry.number)) : entry.number < before.created := by
  rw [kept.once] at placed
  split_ifs at placed with created
  · exact created
  · omega

theorem failures_created (kept : Kept before) : before.failures before.created = 0 := by
  apply List.count_eq_zero.mpr
  intro listed
  obtain ⟨batch, failed, named⟩ := List.mem_flatten.mp listed
  exact lt_irrefl _ (kept.known batch failed _ named)

theorem create (kept : Kept before) (fields : Fields) :
    Kept { before with
      store := before.store.push ⟨before.created, fields, 0⟩
      created := before.created + 1 } where
  once number := by
    rw [BatchQueue.copies_push, kept.once, numbered]
    simp only [decide_eq_true_eq]
    split_ifs <;> omega
  queued entry listed := by
    rcases List.mem_append.mp listed with old | new
    · exact kept.queued entry old
    · cases List.mem_singleton.mp new
      exact ⟨kept.failures_created.symm, Nat.zero_le _⟩
  flying := kept.flying
  dropped := kept.dropped
  known batch failed number named := Nat.lt_succ_of_lt (kept.known batch failed number named)

theorem flush (kept : Kept before) :
    Kept { before with store := before.store.takeBatch maxBatchSize } where
  once number := by
    rw [BatchQueue.copies_takeBatch, kept.once]
  queued entry listed := kept.queued entry (List.mem_of_mem_drop listed)
  flying entry listed := by
    have split : (before.store.takeBatch maxBatchSize).flights.flatten =
        before.store.flights.flatten ++ before.store.queue.take maxBatchSize := by
      simp [BatchQueue.takeBatch]
    rw [split] at listed
    rcases List.mem_append.mp listed with old | taken
    · exact kept.flying entry old
    · exact kept.queued entry (List.mem_of_mem_take taken)
  dropped := kept.dropped
  known := kept.known

theorem mem_of_eraseIdx {flights : List (List Entry)} {flight : ℕ} {entry : Entry}
    (listed : entry ∈ (flights.eraseIdx flight).flatten) : entry ∈ flights.flatten := by
  obtain ⟨batch, left, named⟩ := List.mem_flatten.mp listed
  exact List.mem_flatten.mpr ⟨batch, List.mem_of_mem_eraseIdx left, named⟩

theorem insert (kept : Kept before) {flight : ℕ} {store : BatchQueue Entry}
    (succeeds : before.store.succeed? flight = some store) :
    Kept { before with store := store } where
  once number := by
    rw [BatchQueue.copies_succeed succeeds, kept.once]
  queued entry listed := by
    obtain ⟨batch, -, rfl⟩ := Option.map_eq_some_iff.mp succeeds
    exact kept.queued entry listed
  flying entry listed := by
    obtain ⟨batch, -, rfl⟩ := Option.map_eq_some_iff.mp succeeds
    exact kept.flying entry (mem_of_eraseIdx listed)
  dropped entry listed := by
    obtain ⟨batch, -, rfl⟩ := Option.map_eq_some_iff.mp succeeds
    exact kept.dropped entry listed
  known := kept.known

theorem requeue (kept : Kept before) {flight : ℕ} {batch : List Entry} {store : BatchQueue Entry}
    (found : before.store.flights[flight]? = some batch)
    (fails : before.store.fail? retry flight = some store) :
    Kept { before with store := store, failed := before.failed ++ [batch.map Entry.number] } := by
  have spelled := fails
  rw [BatchQueue.fail?, found, Option.map_some] at spelled
  cases spelled
  have inFlight : ∀ entry ∈ batch, entry ∈ before.store.flights.flatten := fun entry listed =>
    List.mem_flatten.mpr ⟨batch, List.mem_of_getElem? found, listed⟩
  have failures (store : BatchQueue Entry) (number : ℕ) :
      State.failures ⟨store, before.created, before.failed ++ [batch.map Entry.number]⟩ number =
        before.failures number + batch.countP (numbered number) := by
    rw [countP_numbered]
    show (before.failed ++ [batch.map Entry.number]).flatten.count number = _
    rw [List.flatten_append, List.count_append, List.flatten_singleton]
    rfl
  have total (number : ℕ) : before.store.copies (numbered number) ≤ 1 := by
    rw [kept.once]
    split_ifs <;> omega
  have parts (number : ℕ) := BatchQueue.countP_eraseIdx (numbered number) found
  have within (entry : Entry) (listed : entry ∈ batch) :
      batch.countP (numbered entry.number) = 1 := by
    have most := total entry.number
    have one := one_le_countP listed
    have part := parts entry.number
    unfold BatchQueue.copies at most
    omega
  have outside (entry : Entry) (other : 1 ≤ before.store.queue.countP (numbered entry.number) +
      (before.store.flights.eraseIdx flight).flatten.countP (numbered entry.number) +
      before.store.lost.countP (numbered entry.number)) :
      batch.countP (numbered entry.number) = 0 := by
    have most := total entry.number
    have part := parts entry.number
    unfold BatchQueue.copies at most
    omega
  refine ⟨?_, ?_, ?_, ?_, ?_⟩
  · intro number
    rw [BatchQueue.copies_fail (numbered_retry number) fails, kept.once]
  · intro entry listed
    rw [failures]
    rcases List.mem_append.mp listed with back | old
    · obtain ⟨tried, named, again⟩ := List.mem_filterMap.mp back
      have grows := retry_some again
      have attempts := kept.flying tried (inFlight tried named)
      have once := within tried named
      rw [← retry_number again] at attempts once
      exact ⟨by rw [grows.1, attempts.1, once], grows.2⟩
    · have attempts := kept.queued entry old
      have one := one_le_countP old
      have none := outside entry (by omega)
      rwa [none]
  · intro entry listed
    have attempts := kept.flying entry (mem_of_eraseIdx listed)
    have one := one_le_countP listed
    have none := outside entry (by
      change 1 ≤ (before.store.flights.eraseIdx flight).flatten.countP _ at one
      omega)
    rw [failures, none]
    exact attempts
  · intro entry listed
    rw [failures]
    rcases List.mem_append.mp listed with old | new
    · exact Nat.lt_add_right _ (kept.dropped entry old)
    · obtain ⟨named, lost⟩ := List.mem_filter.mp new
      have attempts := kept.flying entry (inFlight entry named)
      have last := retry_none attempts.2 lost
      have once := within entry named
      omega
  · intro failed listed number named
    rcases List.mem_append.mp listed with old | new
    · exact kept.known failed old number named
    · cases List.mem_singleton.mp new
      obtain ⟨entry, member, rfl⟩ := List.mem_map.mp named
      apply kept.number_lt
      have one := one_le_countP member
      have part := parts entry.number
      unfold BatchQueue.copies
      omega

theorem step {action : Action} (kept : Kept before) (steps : Step before action after) :
    Kept after := by
  cases action with
  | createAuditLogEntry fields =>
    cases steps
    exact kept.create fields
  | flushQueue =>
    unfold Step next at steps
    split_ifs at steps
    · cases steps
      exact kept
    · cases steps
      exact kept.flush
  | settle flight inserted =>
    cases inserted with
    | true =>
      obtain ⟨store, succeeds, rfl⟩ := Option.map_eq_some_iff.mp steps
      exact kept.insert succeeds
    | false =>
      obtain ⟨batch, found, rest⟩ := Option.bind_eq_some_iff.mp steps
      obtain ⟨store, fails, same⟩ := Option.bind_eq_some_iff.mp rest
      cases same
      exact kept.requeue found fails

theorem run {actions : List Action} (taken : Run Step .initial actions after) : Kept after :=
  taken.invariant kept_initial fun _ _ _ kept steps => kept.step steps

end Kept

/-! ### Conservation and order -/

/-- An entry that was created is in one place: the queue, one batch in flight, the rows inserted,
or the entries dropped, each after too many failed attempts of its own. -/
structure Conserved (state : State) : Prop where
  onePlace : ∀ number < state.created,
    (state.store.queue.map Entry.number).count number +
      (state.store.flights.flatten.map Entry.number).count number +
      (state.store.done.flatten.map Entry.number).count number +
      (state.store.lost.map Entry.number).count number = 1
  insertedOnce : (state.store.done.flatten.map Entry.number).Nodup
  dropped : ∀ entry ∈ state.store.lost, maxFlushAttempts < state.failures entry.number

/-- The front of the queue is a batch in its order, its rows are inserted in this order, and what
comes back of it is before the queue in this order. -/
structure Ordered (state : State) : Prop where
  taken : ∀ after, Step state .flushQueue after → state.store.queue ≠ [] →
    ∃ batch, batch.length ≤ maxBatchSize ∧ batch ++ after.store.queue = state.store.queue ∧
      after.store.flights = state.store.flights ++ [batch]
  inserted : ∀ flight after, Step state (.settle flight true) after →
    ∃ batch, state.store.flights[flight]? = some batch ∧
      after.store.done = state.store.done ++ [batch]
  back : ∀ flight after, Step state (.settle flight false) after →
    ∃ batch again, state.store.flights[flight]? = some batch ∧
      after.store.queue = again ++ state.store.queue ∧
      (again.map Entry.number).Sublist (batch.map Entry.number)

theorem Kept.conserved {state : State} (kept : Kept state) : Conserved state where
  onePlace number created := by
    have once := kept.once number
    rw [if_pos created] at once
    unfold BatchQueue.copies at once
    simp only [countP_numbered] at once
    exact once
  insertedOnce := by
    rw [List.nodup_iff_count_le_one]
    intro number
    have once := kept.once number
    unfold BatchQueue.copies at once
    simp only [countP_numbered] at once
    split_ifs at once <;> omega
  dropped := kept.dropped

theorem ordered (state : State) : Ordered state where
  taken after steps nonempty := by
    unfold Step next at steps
    rw [if_neg nonempty] at steps
    cases steps
    exact ⟨state.store.queue.take maxBatchSize, List.length_take_le _ _,
      List.take_append_drop _ _, rfl⟩
  inserted flight after steps := by
    obtain ⟨store, succeeds, rfl⟩ := Option.map_eq_some_iff.mp steps
    obtain ⟨batch, found, rfl⟩ := Option.map_eq_some_iff.mp succeeds
    exact ⟨batch, found, rfl⟩
  back flight after steps := by
    obtain ⟨batch, found, rest⟩ := Option.bind_eq_some_iff.mp steps
    obtain ⟨store, fails, same⟩ := Option.bind_eq_some_iff.mp rest
    cases same
    rw [BatchQueue.fail?, found, Option.map_some] at fails
    cases fails
    exact ⟨batch, _, found, rfl,
      BatchQueue.map_filterMap_sublist (fun _ _ again => retry_number again) batch⟩

end SorobanExplorer.Indexer.AuditLogger
