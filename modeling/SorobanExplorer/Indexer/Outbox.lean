import SorobanExplorer.Indexer.Processing
import SorobanExplorer.Library.Run

/-!
Owns what runs of `processSingleEvent` leave in the outbox. No stage puts the number
of the stored row into the record, so that no row of the outbox carries one, and its
`event_id` is the contract, ledger and transaction of the event.

`call_feed` gives one call as a function of its record; `outbox_follows_iff` is about
runs of calls.
-/

namespace SorobanExplorer.Indexer

open Library
open Filters (JsString js JsValue)

/-! ### The feed -/

/-- The parts of the tables that consumers see: the rows by number and event, and the
outbox by id and record. -/
structure Feed where
  rows : List (Nat × ContractEvent)
  nextSeq : Nat
  outbox : List (String × ProcessedEvent)

def Tables.feed (tables : Tables) : Feed where
  rows := tables.events.map fun row => (row.seq, row.event)
  nextSeq := tables.nextSeq
  outbox := tables.outbox.map fun row => (row.eventId, row.payload)

namespace Feed

def taken (feed : Feed) (event : ContractEvent) : Bool :=
  event.conflictKey.any fun key =>
    (firstWithKey ContractEvent.conflictKey (feed.rows.map Prod.snd) key).isSome

def queued (feed : Feed) (eventId : String) : Bool :=
  feed.outbox.any fun row => row.1 == eventId

def insert (feed : Feed) (processed : ProcessedEvent) : Feed :=
  { feed with
    rows :=
      if feed.taken processed.event then feed.rows
      else feed.rows ++ [(feed.nextSeq, processed.event)]
    nextSeq := feed.nextSeq + 1 }

def enqueue (feed : Feed) (refused : Bool) (processed : ProcessedEvent) : Feed :=
  if refused || feed.queued (outboxEventId processed) then feed
  else { feed with outbox := feed.outbox ++ [(outboxEventId processed, processed)] }

theorem insert_rows (feed : Feed) (processed : ProcessedEvent) :
    (feed.insert processed).rows =
      feed.rows ++ if feed.taken processed.event then [] else [(feed.nextSeq, processed.event)] := by
  unfold insert
  cases feed.taken processed.event <;> simp

theorem enqueue_rows (feed : Feed) (refused : Bool) (processed : ProcessedEvent) :
    (feed.enqueue refused processed).rows = feed.rows := by
  unfold enqueue
  split <;> rfl

theorem enqueue_outbox (feed : Feed) (refused : Bool) (processed : ProcessedEvent) :
    (feed.enqueue refused processed).outbox =
      feed.outbox ++
        if refused || feed.queued (outboxEventId processed) then []
        else [(outboxEventId processed, processed)] := by
  unfold enqueue
  cases refused || feed.queued (outboxEventId processed) <;> simp

end Feed

theorem feed_taken (tables : Tables) (event : ContractEvent) :
    tables.feed.taken event = tables.taken event := by
  simp [Feed.taken, Tables.taken, Tables.feed, Tables.stored, Function.comp_def]

theorem feed_queued (tables : Tables) (eventId : String) :
    tables.feed.queued eventId = tables.queued eventId := by
  simp [Feed.queued, Tables.queued, Tables.feed, Function.comp_def]

theorem feed_insertEvent (columns : DecodedEvent → Column → SqlParam)
    (processed : ProcessedEvent) (tables : Tables) :
    (insertEvent columns processed tables).feed = tables.feed.insert processed := by
  unfold Feed.insert insertEvent
  rw [feed_taken]
  by_cases taken : tables.taken processed.event <;> simp [Tables.feed, taken]

theorem feed_enqueueOutbox (fails : Bool) (processed : ProcessedEvent) (tables : Tables) :
    (finalState (enqueueOutbox fails processed tables)).feed =
      tables.feed.enqueue fails processed := by
  unfold Feed.enqueue enqueueOutbox
  rw [feed_queued]
  cases fails <;> by_cases queued : tables.queued (outboxEventId processed) <;>
    simp [finalState, Tables.feed, queued]

namespace Processing

/-! ### One call -/

/-- One call of `processSingleEvent`. What is known of contracts and which operations
fail differs from call to call. -/
structure Call where
  analysis : Analysis
  faults : Faults
  raw : ContractEvent
  context : TransactionContext
  lineageBatchId : JsValue

def Call.run (index : DedupIndex) (call : Call) (tables : Tables) : Tables :=
  finalState (processSingleEvent call.analysis index call.faults call.raw call.context
    call.lineageBatchId tables)

def Call.marks (call : Call) : Except JsError Unit :=
  if (call.analysis.detectUpgrade call.raw).isSome ∧
      0 < (call.analysis.contractAbiVersion call.raw).getD 0 ∧ call.faults.markNeedsRedecode then
    .error (.error "database operation failed")
  else .ok ⟨⟩

def Call.record (call : Call) : Except JsError ProcessedEvent := do
  let (event, decoded) ← decodeOrDefer call.analysis call.raw
  call.marks
  indexTransaction call.analysis call.raw call.context
  pure ⟨event, enrich call.analysis call.raw call.context call.lineageBatchId decoded,
    (call.analysis.contractAbiVersion call.raw).getD 0, none⟩

def Call.inserted (index : DedupIndex) (call : Call) : Option ProcessedEvent :=
  match index with
  | .eventsDedup => if call.faults.insertEvents then none else call.record.toOption
  | .eventsDedupLegacy => none

def Call.feed (index : DedupIndex) (call : Call) (feed : Feed) : Feed :=
  match call.inserted index with
  | none => feed
  | some processed =>
    (feed.insert processed).enqueue (call.faults.connect || call.faults.outbox) processed

/-! ### What a call does -/

theorem yields_markUpgrade (call : Call) :
    Yields (markUpgrade call.analysis call.faults call.raw) call.marks := by
  intro tables
  by_cases upgrades : (call.analysis.detectUpgrade call.raw).isSome ∧
      0 < (call.analysis.contractAbiVersion call.raw).getD 0
  · cases fails : call.faults.markNeedsRedecode <;>
      simp only [markUpgrade, Call.marks, upgrades, fails, and_self, and_false, if_true, if_false,
        Bool.false_eq_true] <;> rfl
  · have quiet : ¬ ((call.analysis.detectUpgrade call.raw).isSome ∧
        0 < (call.analysis.contractAbiVersion call.raw).getD 0 ∧
          call.faults.markNeedsRedecode) := fun all => upgrades ⟨all.1, all.2.1⟩
    simp only [markUpgrade, Call.marks, upgrades, quiet, if_false]
    rfl

theorem yields_prepareSingle (call : Call) :
    Yields (prepareSingle call.analysis call.faults call.raw call.context call.lineageBatchId)
      call.record := by
  apply Yields.bind (yields_ofExcept _)
  intro decoded
  apply Yields.bind (yields_markUpgrade call)
  intro _
  apply Yields.bind (yields_ofExcept _)
  intro _
  exact yields_pure _

theorem frames_prepareSingle (call : Call) :
    Frames Tables.feed
      (prepareSingle call.analysis call.faults call.raw call.context call.lineageBatchId) := by
  have marked : ∀ contractId version tables,
      (markNeedsRedecode contractId version tables).feed = tables.feed := by
    intro contractId version tables
    simp only [Tables.feed, markNeedsRedecode, List.map_map, Feed.mk.injEq, and_self, and_true]
    apply List.map_congr_left
    intro row _
    dsimp only [Function.comp_apply]
    split <;> rfl
  apply Frames.bind (frames_inScope (frames_ofExcept _))
  intro decoded
  apply (frames_markUpgrade call.analysis marked call.faults call.raw).bind
  intro _
  apply Frames.bind (frames_inScope (frames_ofExcept _))
  intro _
  exact frames_pure _

theorem frames_finishSingle (call : Call) :
    Frames Tables.feed (finishSingle call.analysis call.faults call.raw) := by
  apply (frames_notify _).bind
  intro _
  apply (frames_persistStateDiffs call.analysis (fun _ _ => rfl) call.faults call.raw).bind
  intro _
  apply (frames_persistStateVersions call.analysis (fun _ _ => rfl) call.raw).bind
  intro _
  apply (frames_persistEvictions call.analysis (fun _ _ => rfl) call.raw).bind
  intro _
  apply (frames_notify _).bind
  intro _
  exact frames_notify _

theorem feed_enqueued (call : Call) (processed : ProcessedEvent) (tables : Tables) :
    (finalState ((do
      databaseOperation call.faults.connect id
      attempt (inScope "enqueueOutbox" (enqueueOutbox call.faults.outbox processed))
      finishSingle call.analysis call.faults call.raw
      pure processed : Effect ProcessedEvent) tables)).feed =
      tables.feed.enqueue (call.faults.connect || call.faults.outbox) processed := by
  cases connects : call.faults.connect with
  | true => rfl
  | false =>
    have rest : Frames Tables.feed (do
        finishSingle call.analysis call.faults call.raw
        pure processed : Effect ProcessedEvent) :=
      (frames_finishSingle call).bind fun _ => frames_pure _
    have queued : (finalState
        (attempt (inScope "enqueueOutbox" (enqueueOutbox call.faults.outbox processed))
          tables)).feed = tables.feed.enqueue call.faults.outbox processed :=
      feed_enqueueOutbox call.faults.outbox processed tables
    exact (view_bind (fun _ => rest) tables).trans queued

theorem call_feed (index : DedupIndex) (call : Call) (tables : Tables) :
    (call.run index tables).feed = call.feed index tables.feed := by
  have yields := yields_prepareSingle call tables
  have frames := frames_prepareSingle call tables
  unfold Call.run processSingleEvent Call.feed Call.inserted
  rw [bind_apply]
  cases prepared : prepareSingle call.analysis call.faults call.raw call.context
      call.lineageBatchId tables with
  | error reason after =>
    rw [prepared] at yields frames
    have unrecorded : call.record = .error reason := yields.symm
    rw [unrecorded]
    cases index with
    | eventsDedup => cases call.faults.insertEvents <;> exact frames
    | eventsDedupLegacy => exact frames
  | ok processed after =>
    rw [prepared] at yields frames
    have recorded : call.record = .ok processed := yields.symm
    have same : after.feed = tables.feed := frames
    rw [recorded, ← same]
    cases index with
    | eventsDedup =>
      cases fails : call.faults.insertEvents with
      | true => rfl
      | false =>
        have inserted := feed_insertEvent upsertEventValidatedRow processed after
        have enqueued := feed_enqueued call processed
          (insertEvent upsertEventValidatedRow processed after)
        rw [inserted] at enqueued
        exact enqueued
    | eventsDedupLegacy => rfl

/-! ### Runs of calls -/

def Step (index : DedupIndex) (before : Tables) (call : Call) (after : Tables) : Prop :=
  after = call.run index before

/-- The rows of `events` that are new since the start, and the new rows of the outbox. -/
def newRows (start tables : Tables) : List (Nat × ContractEvent) :=
  tables.feed.rows.drop start.events.length

def newOutbox (start tables : Tables) : List (String × ProcessedEvent) :=
  tables.feed.outbox.drop start.outbox.length

/-- The outbox follows the table: every new row has exactly one row of the outbox that
carries its number, every new row of the outbox carries the number of a new row, and its
id is that of no other. -/
structure OutboxFollows (start tables : Tables) : Prop where
  queued_once : ∀ row ∈ newRows start tables,
    ((newOutbox start tables).filter fun queued => queued.2.seq = some row.1).length = 1
  stored : ∀ queued ∈ newOutbox start tables,
    ∃ row ∈ newRows start tables, queued.2.seq = some row.1
  distinct : (newOutbox start tables).Pairwise fun earlier later => earlier.1 ≠ later.1
  fresh : ∀ queued ∈ newOutbox start tables, ∀ old ∈ start.outbox, old.eventId ≠ queued.1

def Call.refused (call : Call) (tables : Tables) (processed : ProcessedEvent) : Bool :=
  call.faults.connect || call.faults.outbox || tables.queued (outboxEventId processed)

/-- The call stores nothing and queues nothing: it throws before its insert ends, or its
contract, ledger and transaction have a row and the outbox refuses it. -/
def Quiet (index : DedupIndex) (tables : Tables) (call : Call) : Prop :=
  match call.inserted index with
  | none => True
  | some processed => tables.taken processed.event ∧ call.refused tables processed

theorem newRows_eq {start tables : Tables} {added : List (Nat × ContractEvent)}
    (same : tables.feed.rows = start.feed.rows ++ added) : newRows start tables = added := by
  rw [newRows, same]
  exact List.drop_left' (by simp [Tables.feed])

theorem newOutbox_eq {start tables : Tables} {added : List (String × ProcessedEvent)}
    (same : tables.feed.outbox = start.feed.outbox ++ added) :
    newOutbox start tables = added := by
  rw [newOutbox, same]
  exact List.drop_left' (by simp [Tables.feed])

theorem seq_of_record {call : Call} {processed : ProcessedEvent}
    (recorded : call.record = .ok processed) : processed.seq = none := by
  unfold Call.record at recorded
  cases decoded : decodeOrDefer call.analysis call.raw with
  | error reason =>
    rw [decoded] at recorded
    cases recorded
  | ok decodedEvent =>
    cases marked : call.marks with
    | error reason =>
      rw [decoded, marked] at recorded
      cases recorded
    | ok =>
      cases indexed : indexTransaction call.analysis call.raw call.context with
      | error reason =>
        rw [decoded, marked, indexed] at recorded
        cases recorded
      | ok =>
        rw [decoded, marked, indexed] at recorded
        cases recorded
        rfl

theorem record_of_inserted {index : DedupIndex} {call : Call} {processed : ProcessedEvent}
    (inserted : call.inserted index = some processed) : call.record = .ok processed := by
  unfold Call.inserted at inserted
  cases index with
  | eventsDedup =>
    cases recorded : call.record <;> cases fails : call.faults.insertEvents <;>
      simp_all [Except.toOption]
  | eventsDedupLegacy => cases inserted

theorem call_adds (index : DedupIndex) (call : Call) (tables : Tables) :
    ∃ rows queued,
      (call.run index tables).feed.rows = tables.feed.rows ++ rows ∧
      (call.run index tables).feed.outbox = tables.feed.outbox ++ queued ∧
      (∀ row ∈ queued, row.2.seq = none) ∧
      (Quiet index tables call ↔ rows = [] ∧ queued = []) := by
  rw [call_feed]
  unfold Quiet Call.feed
  cases inserted : call.inserted index with
  | none => exact ⟨[], [], by simp, by simp, by simp, by simp⟩
  | some processed =>
    have unnumbered := seq_of_record (record_of_inserted inserted)
    have taken := feed_taken tables processed.event
    have queued : (tables.feed.insert processed).queued (outboxEventId processed) =
        tables.queued (outboxEventId processed) := feed_queued tables _
    refine ⟨_, _, (Feed.enqueue_rows _ _ _).trans (Feed.insert_rows _ _),
      Feed.enqueue_outbox _ _ _, ?_, ?_⟩
    · intro row member
      split at member
      · cases member
      · cases List.mem_singleton.mp member
        exact unnumbered
    · rw [taken, queued, ← Call.refused]
      simp

theorem deterministic_step (index : DedupIndex) : Deterministic (Step index) := by
  intro before call first second left right
  exact left.trans right.symm

/-- Along a run the outbox follows the table if and only if no call stores or queues
anything. -/
theorem outbox_follows_iff {index : DedupIndex} {start final : Tables} {calls : List Call}
    (run : Run (Step index) start calls final) :
    Along (Step index) start calls (fun _ tables => OutboxFollows start tables) ↔
      EachStep (Step index) start calls (Quiet index) := by
  apply run.along_iff_eachStep (I := fun _ tables =>
    tables.feed.rows = start.feed.rows ∧ tables.feed.outbox = start.feed.outbox)
    (deterministic_step index)
  · exact ⟨rfl, rfl⟩
  · intro history tables _ same
    have rows := newRows_eq (same.1.trans (List.append_nil _).symm)
    have outbox := newOutbox_eq (same.2.trans (List.append_nil _).symm)
    constructor <;> simp [rows, outbox]
  · intro history call before after _ same quiet taken
    cases taken
    obtain ⟨added, queued, stored, enqueued, -, exact⟩ := call_adds index call before
    obtain ⟨rfl, rfl⟩ := exact.mp quiet
    exact ⟨by simpa [same.1] using stored, by simpa [same.2] using enqueued⟩
  · intro history call before after _ same taken follows
    cases taken
    obtain ⟨added, queued, stored, enqueued, unnumbered, exact⟩ := call_adds index call before
    rw [same.1] at stored
    rw [same.2] at enqueued
    have rows := newRows_eq stored
    have outbox := newOutbox_eq enqueued
    have unqueued : queued = [] := by
      apply List.eq_nil_iff_forall_not_mem.mpr
      intro row member
      obtain ⟨stored, _, carries⟩ := follows.stored row (outbox ▸ member)
      rw [unnumbered row member] at carries
      cases carries
    have unstored : added = [] := by
      apply List.eq_nil_iff_forall_not_mem.mpr
      intro row member
      have once := follows.queued_once row (rows ▸ member)
      rw [outbox, unqueued] at once
      cases once
    exact exact.mpr ⟨unstored, unqueued⟩

def transferCall : Call where
  analysis := transferAnalysis
  faults := .none
  raw := ⟨"0000000030064775168-0000000001", "CPAYMENT", 7, some "9f3a"⟩
  context := noContext
  lineageBatchId := .null

/-- The transfer again, once it has its row in both tables. -/
theorem repeatedTransfer_quiet :
    Along (Step .eventsDedup) (transferCall.run .eventsDedup emptyTables) [transferCall]
      fun _ tables => OutboxFollows (transferCall.run .eventsDedup emptyTables) tables :=
  (outbox_follows_iff (Run.one rfl)).mpr
    (EachStep.snoc (deterministic_step _) Run.nil EachStep.nil ⟨rfl, rfl⟩)

/-- The outbox row of the transfer does not carry the number of its row. -/
theorem firstTransfer_unnumbered :
    ¬ ∀ calls final, Run (Step .eventsDedup) emptyTables calls final →
      OutboxFollows emptyTables final := by
  intro follows
  have stored := follows [transferCall] _ (Run.one rfl)
  have once : 0 = 1 := stored.queued_once (1, transferCall.raw) (List.mem_singleton.mpr rfl)
  cases once

end Processing

end SorobanExplorer.Indexer
