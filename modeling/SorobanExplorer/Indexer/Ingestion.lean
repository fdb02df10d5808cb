import SorobanExplorer.Indexer.IngestPipeline
import SorobanExplorer.Library.InsertIgnore
import SorobanExplorer.Library.Run

/-!
Owns the ingestion daemon as a transition system: `indexLedger` with its page
loop, the workers that run `processEventBatch`, the `events` and
`dead_letter_queue` tables they write, and the loop of `runIngest` that calls
`indexLedger` and moves the cursor.

A step is one answer of the outside world or one turn of the event loop. Workers
run side by side, so that their inserts and settlements come in any order; a
worker may be rejected at any point, before its insert or after it. In fact a
worker is never fulfilled, since `processEventBatch` calls functions after its
insert that its module does not import; the results here do not rest on that.
-/

namespace SorobanExplorer.Indexer

open Library

/-! ### Events and their table -/

/-- A contract event as `rpc.getEvents` returns it. -/
structure ContractEvent where
  id : String
  contractId : String
  ledger : Nat
  txHash : Option String
deriving DecidableEq, Repr

/-- The columns `contract_id, ledger, tx_hash` of the row decoded from an event,
which decoding copies. A null hash conflicts with nothing. -/
def ContractEvent.conflictKey (event : ContractEvent) : Option (String × Nat × String) :=
  event.txHash.map fun hash => (event.contractId, event.ledger, hash)

/-- The unique index on those columns: `idx_events_dedup` covers every row, and
the migration that drops it creates `idx_events_dedup_legacy` over the rows
without an `ingestion_id`. -/
inductive DedupIndex where
  | eventsDedup
  | eventsDedupLegacy
deriving DecidableEq, Repr

/-- The insert of a whole batch. Its conflict target names no predicate, so that
it can only rest on an index over every row. A row stands for the event it was
decoded from. -/
def upsertEventsValidatedBatch (index : DedupIndex) (rows events : List ContractEvent) :
    Except String (List ContractEvent) :=
  if events.length = 0 then .ok rows
  else
    match index with
    | .eventsDedup => .ok (insertAll ContractEvent.conflictKey rows events)
    | .eventsDedupLegacy =>
      .error "there is no unique or exclusion constraint matching the ON CONFLICT specification"

/-- A call of `processEventBatch` that has not settled, and whether its insert is
done. -/
structure BatchRun where
  batch : List ContractEvent
  inserted : Bool
deriving DecidableEq, Repr

def processEventBatch (batch : List ContractEvent) : BatchRun := ⟨batch, false⟩

def BatchRun.pending (run : BatchRun) : List ContractEvent :=
  if run.inserted then [] else run.batch

@[simp]
theorem pending_processEventBatch (batch : List ContractEvent) :
    (processEventBatch batch).pending = batch := rfl

/-! ### Pages -/

/-- An answer of `rpc.getEvents`. -/
structure Page where
  events : List ContractEvent
  latestLedger : Option Nat
  cursor : Option String
deriving DecidableEq, Repr

def pageLimit : Nat := 200

def ingestOptions : PipelineOptions where
  concurrency := 4
  batchSize := 64
  maxQueue := 2000

def beyondEndLedger (endLedger : Option Nat) (page : Page) : Bool :=
  match endLedger with
  | none => false
  | some last => page.events.any fun event => decide (last < event.ledger)

def nextPageCursor (endLedger : Option Nat) (page : Page) : Option String :=
  if !beyondEndLedger endLedger page && page.events.length == pageLimit then
    page.cursor.filter fun cursor => cursor != ""
  else none

/-! ### The daemon -/

/-- Where the daemon stands: between two calls of `indexLedger`, before the next
`rpc.getEvents` of one, waiting for the pool to drain a page, or with a call that
has returned. -/
inductive Phase where
  | idle
  | polling (pageCursor : Option String)
  | draining (page : Page)
  | returned
deriving DecidableEq, Repr

/-- The state of the daemon. `polled` lists the events of the pages of the current
call, and `passed` those of the calls that have returned and been acted upon. -/
structure Daemon where
  cursor : Nat
  savedCursor : Nat
  phase : Phase
  ledger : Nat
  endLedger : Option Nat
  latestLedger : Nat
  pipeline : IngestPipeline ContractEvent BatchRun
  events : List ContractEvent
  deadLetters : List ContractEvent
  polled : List ContractEvent
  passed : List ContractEvent

namespace Daemon

def start (cursor : Nat) (events deadLetters : List ContractEvent) : Daemon where
  cursor := cursor
  savedCursor := cursor
  phase := .idle
  ledger := cursor
  endLedger := none
  latestLedger := cursor
  pipeline := .create
  events := events
  deadLetters := deadLetters
  polled := []
  passed := []

/-- `indexLedger` is called. -/
def call (ledger : Nat) (endLedger : Option Nat) (daemon : Daemon) : Daemon :=
  { daemon with
    phase := .polling none
    ledger := ledger
    endLedger := endLedger
    latestLedger := ledger }

/-- A page arrives: a new pool is given all of its events, and then awaited. What
`enqueue` drops is logged. -/
def receivePage (page : Page) (daemon : Daemon) : Daemon :=
  { daemon with
    phase := .draining page
    latestLedger := page.latestLedger.getD daemon.latestLedger
    pipeline :=
      (IngestPipeline.enqueue ingestOptions processEventBatch page.events .create).2.drain
    polled := daemon.polled ++ page.events }

def recordInsert (worker : Nat) (run : BatchRun) (rows : List ContractEvent)
    (daemon : Daemon) : Daemon :=
  { daemon with
    events := rows
    pipeline :=
      { daemon.pipeline with
        active := daemon.pipeline.active.set worker { run with inserted := true } } }

def settle (worker : Nat) (daemon : Daemon) : Daemon :=
  { daemon with
    pipeline := daemon.pipeline.settle ingestOptions processEventBatch worker }

/-- The pool has drained: `indexLedger` asks for the next page, or returns. -/
def finishPage (page : Page) (daemon : Daemon) : Daemon :=
  { daemon with
    phase :=
      match nextPageCursor daemon.endLedger page with
      | some pageCursor => .polling (some pageCursor)
      | none => .returned }

/-- `indexLedger` throws, or its caller does; the loop goes on where it was. -/
def fail (daemon : Daemon) : Daemon :=
  { daemon with phase := .idle, polled := [] }

def finishCall (daemon : Daemon) : Daemon :=
  { daemon with
    phase := .idle
    polled := []
    passed := daemon.passed ++ daemon.polled }

def saveCursor (daemon : Daemon) : Daemon :=
  { daemon.finishCall with
    cursor := daemon.latestLedger + 1
    savedCursor := daemon.latestLedger + 1 }

def rollbackFromLedger (forkLedger : Nat) (daemon : Daemon) : Daemon :=
  { daemon with
    phase := .idle
    cursor := forkLedger
    savedCursor := forkLedger
    events := daemon.events.filter fun event => decide (event.ledger < forkLedger)
    polled := []
    passed := daemon.passed.filter fun event => decide (event.ledger < forkLedger) }

/-- `enqueue` of the dead letter queue. On the way of an event only the decoder
calls it, when a decoder plugin breaks its contract. -/
def deadLetter (event : ContractEvent) (daemon : Daemon) : Daemon :=
  { daemon with deadLetters := daemon.deadLetters ++ [event] }

end Daemon

/-! ### Steps -/

inductive Action where
  | call (ledger : Nat) (endLedger : Option Nat)
  | page (page : Page)
  | insert (worker : Nat)
  | fulfil (worker : Nat)
  | reject (worker : Nat)
  | resume
  | fail
  | closeGap
  | saveCursor
  | rollback (forkLedger : Nat)
  | deadLetter (event : ContractEvent)
deriving DecidableEq, Repr

inductive Daemon.Step (index : DedupIndex) : Daemon → Action → Daemon → Prop
  | call {daemon : Daemon} {ledger : Nat} {endLedger : Option Nat}
      (idle : daemon.phase = .idle) :
      Step index daemon (.call ledger endLedger) (daemon.call ledger endLedger)
  | page {daemon : Daemon} {pageCursor : Option String} {page : Page}
      (polling : daemon.phase = .polling pageCursor) :
      Step index daemon (.page page) (daemon.receivePage page)
  | insert {daemon : Daemon} {worker : Nat} {run : BatchRun} {rows : List ContractEvent}
      (running : daemon.pipeline.active[worker]? = some run) (fresh : run.inserted = false)
      (accepted : upsertEventsValidatedBatch index daemon.events run.batch = .ok rows) :
      Step index daemon (.insert worker) (daemon.recordInsert worker run rows)
  | fulfil {daemon : Daemon} {worker : Nat} {run : BatchRun}
      (running : daemon.pipeline.active[worker]? = some run) (inserted : run.inserted = true) :
      Step index daemon (.fulfil worker) (daemon.settle worker)
  /-- Decoding, the database or anything after the insert throws. -/
  | reject {daemon : Daemon} {worker : Nat} {run : BatchRun}
      (running : daemon.pipeline.active[worker]? = some run) :
      Step index daemon (.reject worker) (daemon.settle worker)
  | resume {daemon : Daemon} {page : Page} (draining : daemon.phase = .draining page)
      (resolved : 0 < daemon.pipeline.resolvedDrains) :
      Step index daemon .resume (daemon.finishPage page)
  /-- The RPC fails or leadership is lost before a page, or after the return. -/
  | fail {daemon : Daemon}
      (calm : (∃ pageCursor, daemon.phase = .polling pageCursor) ∨ daemon.phase = .returned) :
      Step index daemon .fail daemon.fail
  | closeGap {daemon : Daemon} (returned : daemon.phase = .returned) :
      Step index daemon .closeGap daemon.finishCall
  | saveCursor {daemon : Daemon} (returned : daemon.phase = .returned)
      (forward : daemon.ledger = daemon.cursor ∧ daemon.endLedger = none) :
      Step index daemon .saveCursor daemon.saveCursor
  | rollback {daemon : Daemon} {forkLedger : Nat} (returned : daemon.phase = .returned) :
      Step index daemon (.rollback forkLedger) (daemon.rollbackFromLedger forkLedger)
  | deadLetter {daemon : Daemon} {event : ContractEvent} :
      Step index daemon (.deadLetter event) (daemon.deadLetter event)

theorem Daemon.Step.deterministic (index : DedupIndex) :
    Deterministic (Daemon.Step index) := by
  intro before label first second left right
  cases left with
  | insert running fresh accepted =>
    cases right with
    | insert running' fresh' accepted' =>
      cases Option.some.inj (running.symm.trans running')
      cases Except.ok.inj (accepted.symm.trans accepted')
      rfl
  | resume draining resolved =>
    cases right with
    | resume draining' resolved' =>
      cases Phase.draining.inj (draining.symm.trans draining')
      rfl
  | _ => cases right; rfl

end SorobanExplorer.Indexer
