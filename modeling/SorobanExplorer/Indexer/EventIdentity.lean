import SorobanExplorer.Indexer.Losses

/-!
Owns the identity of an event in the `events` table. Both insert statements, of
`upsertEvent` for one event and of `upsertEventsValidatedBatch` for many, name the
columns `contract_id, ledger, tx_hash` as their conflict target, and neither
writes `ingestion_id`. `oneRowEach_iff` says for which events every way of
ingesting them leaves one row each.
-/

namespace SorobanExplorer.Indexer

open Library

def upsertEvent (index : DedupIndex) (rows : List ContractEvent) (event : ContractEvent) :
    Except String (List ContractEvent) :=
  match index with
  | .eventsDedup => .ok (insertIgnore ContractEvent.conflictKey rows event)
  | .eventsDedupLegacy =>
    .error "there is no unique or exclusion constraint matching the ON CONFLICT specification"

/-- What both unique indexes keep of the rows, none of which has an
`ingestion_id`: no two rows share a key. -/
def UniqueKeys (rows : List ContractEvent) : Prop :=
  rows.Pairwise fun earlier later =>
    ∀ key, earlier.conflictKey = some key → later.conflictKey ≠ some key

inductive InsertStatement where
  | single (event : ContractEvent)
  | batch (events : List ContractEvent)
deriving DecidableEq, Repr

def InsertStatement.events : InsertStatement → List ContractEvent
  | .single event => [event]
  | .batch events => events

def InsertStatement.run (index : DedupIndex) (rows : List ContractEvent) :
    InsertStatement → Except String (List ContractEvent)
  | .single event => upsertEvent index rows event
  | .batch events => upsertEventsValidatedBatch index rows events

def ingest (index : DedupIndex) (rows : List ContractEvent) (statements : List InsertStatement) :
    List ContractEvent :=
  statements.foldl (fun table statement => (statement.run index table).toOption.getD table) rows

def Ingests (statements : List InsertStatement) (events : List ContractEvent) : Prop :=
  ∀ event, event ∈ statements.flatMap InsertStatement.events ↔ event ∈ events

def OneRowEach (index : DedupIndex) (rows events : List ContractEvent) : Prop :=
  ∀ statements, Ingests statements events → ∀ event ∈ events,
    (ingest index rows statements).count event = 1 ∧
      upsertEvent index (ingest index rows statements) event =
        .ok (ingest index rows statements) ∧
      upsertEventsValidatedBatch index (ingest index rows statements) [event] =
        .ok (ingest index rows statements)

/-- With the index over every row, the conflict target tells the events apart:
each has a transaction hash, and no other event, stored or ingested, has its
contract, ledger and transaction. With the index that replaces it, there is nothing
to ingest. -/
def ToldApart (index : DedupIndex) (rows events : List ContractEvent) : Prop :=
  match index with
  | .eventsDedup =>
    ∀ event ∈ events, event.conflictKey.isSome ∧
      ∀ other ∈ rows ++ events, other.conflictKey = event.conflictKey → other = event
  | .eventsDedupLegacy => events = []

/-! ### One table of unique keys -/

theorem insertAll_append (rows first second : List ContractEvent) :
    insertAll ContractEvent.conflictKey rows (first ++ second) =
      insertAll ContractEvent.conflictKey (insertAll ContractEvent.conflictKey rows first)
        second := by
  simp [insertAll]

theorem InsertStatement.run_eventsDedup (rows : List ContractEvent)
    (statement : InsertStatement) :
    statement.run .eventsDedup rows =
      .ok (insertAll ContractEvent.conflictKey rows statement.events) := by
  cases statement with
  | single event => rfl
  | batch events =>
    simp only [InsertStatement.run, upsertEventsValidatedBatch, InsertStatement.events]
    split
    · next empty => simp [List.length_eq_zero_iff.mp empty]
    · rfl

theorem ingest_eventsDedup (rows : List ContractEvent) (statements : List InsertStatement) :
    ingest .eventsDedup rows statements =
      insertAll ContractEvent.conflictKey rows (statements.flatMap InsertStatement.events) := by
  induction statements generalizing rows with
  | nil => rfl
  | cons statement rest ih =>
    rw [List.flatMap_cons, insertAll_append, ← ih]
    simp only [ingest, List.foldl_cons, InsertStatement.run_eventsDedup]
    rfl

theorem uniqueKeys_insertIgnore {rows : List ContractEvent} (unique : UniqueKeys rows)
    (event : ContractEvent) :
    UniqueKeys (insertIgnore ContractEvent.conflictKey rows event) := by
  obtain ⟨taken, carries, present, skipped⟩ | ⟨free, added⟩ :=
    insertIgnore_cases ContractEvent.conflictKey rows event
  · rw [skipped]
    exact unique
  · rw [added, UniqueKeys, List.pairwise_append]
    refine ⟨unique, List.pairwise_singleton _ _, ?_⟩
    intro earlier member later same key carries clash
    cases List.mem_singleton.mp same
    have present := firstWithKey_isSome member carries
    simp [free key clash] at present

theorem uniqueKeys_insertAll {rows : List ContractEvent} (unique : UniqueKeys rows)
    (events : List ContractEvent) :
    UniqueKeys (insertAll ContractEvent.conflictKey rows events) := by
  induction events generalizing rows with
  | nil => exact unique
  | cons event rest ih =>
    exact ih (uniqueKeys_insertIgnore unique event)

theorem UniqueKeys.count_le_one {rows : List ContractEvent} (unique : UniqueKeys rows)
    {event : ContractEvent} (identified : event.conflictKey.isSome) : rows.count event ≤ 1 := by
  obtain ⟨key, carries⟩ := Option.isSome_iff_exists.mp identified
  induction rows with
  | nil => simp
  | cons row rest ih =>
    obtain ⟨apart, unique⟩ := List.pairwise_cons.mp unique
    by_cases same : row = event
    · subst same
      have absent : row ∉ rest := fun member => apart row member key carries carries
      simp [List.count_eq_zero_of_not_mem absent]
    · rw [List.count_cons_of_ne same]
      exact ih unique

theorem UniqueKeys.eq_of_key {rows : List ContractEvent} (unique : UniqueKeys rows)
    {first second : ContractEvent} {key : String × Nat × String} (firstMem : first ∈ rows)
    (secondMem : second ∈ rows) (firstCarries : first.conflictKey = some key)
    (secondCarries : second.conflictKey = some key) : first = second := by
  induction rows with
  | nil => cases firstMem
  | cons row rest ih =>
    obtain ⟨apart, unique⟩ := List.pairwise_cons.mp unique
    obtain rfl | firstLater := List.mem_cons.mp firstMem
    · obtain rfl | secondLater := List.mem_cons.mp secondMem
      · rfl
      · exact absurd secondCarries (apart second secondLater key firstCarries)
    · obtain rfl | secondLater := List.mem_cons.mp secondMem
      · exact absurd firstCarries (apart first firstLater key secondCarries)
      · exact ih unique firstLater secondLater

theorem insertIgnore_of_mem {rows : List ContractEvent} {event : ContractEvent}
    (identified : event.conflictKey.isSome) (member : event ∈ rows) :
    insertIgnore ContractEvent.conflictKey rows event = rows := by
  obtain ⟨key, carries⟩ := Option.isSome_iff_exists.mp identified
  simp [insertIgnore, carries, firstWithKey_isSome member carries]

/-! ### When each event has its row -/

section Ingesting

variable {rows events : List ContractEvent} {statements : List InsertStatement}

theorem oneRowEach_of_toldApart (unique : UniqueKeys rows)
    (apart : ToldApart .eventsDedup rows events) : OneRowEach .eventsDedup rows events := by
  intro statements ingests event member
  obtain ⟨identified, alone⟩ := apart event member
  have stored : event ∈ ingest .eventsDedup rows statements := by
    rw [ingest_eventsDedup, mem_insertAll_iff]
    refine Or.inr ⟨(ingests event).mpr member, fun key carries => ?_⟩
    -- Whatever row is first for the key can only be the event's own.
    have present : (firstWithKey ContractEvent.conflictKey
        (rows ++ statements.flatMap InsertStatement.events) key).isSome :=
      firstWithKey_isSome (List.mem_append_right _ ((ingests event).mpr member)) carries
    obtain ⟨first, found⟩ := Option.isSome_iff_exists.mp present
    have same : first = event := by
      apply alone first
      · have among := firstWithKey_mem found
        simp only [List.mem_append] at among ⊢
        exact among.imp_right (ingests first).mp
      · rw [firstWithKey_key found, carries]
    rw [found, same]
  have once : (ingest .eventsDedup rows statements).count event = 1 := by
    have atMost : (ingest .eventsDedup rows statements).count event ≤ 1 := by
      rw [ingest_eventsDedup]
      exact (uniqueKeys_insertAll unique _).count_le_one identified
    have atLeast := List.count_pos_iff.mpr stored
    omega
  refine ⟨once, ?_, ?_⟩
  · exact congrArg Except.ok (insertIgnore_of_mem identified stored)
  · exact congrArg Except.ok (insertIgnore_of_mem identified stored)

theorem toldApart_of_oneRowEach (unique : UniqueKeys rows)
    (each : OneRowEach .eventsDedup rows events) : ToldApart .eventsDedup rows events := by
  have ingests : Ingests [.batch events] events := by simp [Ingests, InsertStatement.events]
  intro event member
  have identified : event.conflictKey.isSome := by
    -- An event without a key gets a second row when it is ingested again.
    by_contra unkeyed
    have absent : event.conflictKey = none := by simpa using unkeyed
    have again := (each _ ingests event member).2.1
    simp only [upsertEvent, insertIgnore, absent, Except.ok.injEq] at again
    simpa using congrArg List.length again
  have stored : ∀ other ∈ events, other ∈ ingest .eventsDedup rows [.batch events] := by
    intro other among
    have once := (each _ ingests other among).1
    exact List.count_pos_iff.mp (by omega)
  refine ⟨identified, fun other among same => ?_⟩
  have otherStored : other ∈ ingest .eventsDedup rows [.batch events] := by
    obtain old | ingested := List.mem_append.mp among
    · rw [ingest_eventsDedup]
      exact mem_insertAll_of_mem old
    · exact stored other ingested
  have keys : UniqueKeys (ingest .eventsDedup rows [.batch events]) := by
    rw [ingest_eventsDedup]
    exact uniqueKeys_insertAll unique _
  obtain ⟨key, carries⟩ := Option.isSome_iff_exists.mp identified
  exact keys.eq_of_key otherStored (stored event member) (same.trans carries) carries

/-- Every way of ingesting the events leaves one row each, and ingests none twice,
if and only if the conflict target tells them apart. -/
theorem oneRowEach_iff (index : DedupIndex) (unique : UniqueKeys rows) :
    OneRowEach index rows events ↔ ToldApart index rows events := by
  cases index with
  | eventsDedup => exact ⟨toldApart_of_oneRowEach unique, oneRowEach_of_toldApart unique⟩
  | eventsDedupLegacy =>
    constructor
    · intro each
      have ingests : Ingests [.batch events] events := by simp [Ingests, InsertStatement.events]
      by_contra nonempty
      obtain ⟨event, member⟩ := List.exists_mem_of_ne_nil events nonempty
      have again := (each _ ingests event member).2.1
      cases again
    · rintro rfl statements _ event member
      cases member

/-- Two transfers of one token in two transactions. -/
theorem separatePayments_stored :
    OneRowEach .eventsDedup []
      [⟨"0000000030064775168-0000000001", "CPAYMENT", 7, some "9f3a"⟩,
        ⟨"0000000030064779264-0000000001", "CPAYMENT", 7, some "b21c"⟩] :=
  (oneRowEach_iff .eventsDedup List.Pairwise.nil).mpr (by unfold ToldApart; decide)

/-- Two transfers of one token in one transaction share their key, of which the
second has no row; with the later index even one transfer has none. -/
theorem batchedPayments_merged :
    ¬ OneRowEach .eventsDedup []
        [⟨"0000000030064775168-0000000001", "CPAYMENT", 7, some "9f3a"⟩,
          ⟨"0000000030064775168-0000000002", "CPAYMENT", 7, some "9f3a"⟩] ∧
      ¬ OneRowEach .eventsDedupLegacy []
        [⟨"0000000030064775168-0000000001", "CPAYMENT", 7, some "9f3a"⟩] := by
  constructor
  · intro each
    have once := (each [.batch
      [⟨"0000000030064775168-0000000001", "CPAYMENT", 7, some "9f3a"⟩,
        ⟨"0000000030064775168-0000000002", "CPAYMENT", 7, some "9f3a"⟩]]
      (by simp [Ingests, InsertStatement.events])
      ⟨"0000000030064775168-0000000002", "CPAYMENT", 7, some "9f3a"⟩ (by simp)).1
    exact absurd once (by decide)
  · intro each
    have once := (each [.batch [⟨"0000000030064775168-0000000001", "CPAYMENT", 7, some "9f3a"⟩]]
      (by simp [Ingests, InsertStatement.events])
      ⟨"0000000030064775168-0000000001", "CPAYMENT", 7, some "9f3a"⟩ (by simp)).1
    exact absurd once (by decide)

end Ingesting

end SorobanExplorer.Indexer
