import SorobanExplorer.Indexer.EventColumns
import SorobanExplorer.Indexer.Ingestion
import SorobanExplorer.Library.Effect

/-!
Owns the two paths of an event through the indexer: `processSingleEvent`, and
`processEventBatch`, its copy for many events. Each is a computation over the
tables it writes; one that throws keeps the writes it made before.

Names that a function uses are looked up in the scope of its module, and methods of
`db` in the object: one that is not there makes the call throw.

The analysis of an event and of its transaction metadata is a parameter, which both
paths call alike, and so is the database where it fails.

Then the two are compared. After its insert the batch path calls
`deliverWebhooksForEvent` and `publish`, which the module does not import, so that it
throws for every batch that is not empty; `batchAgrees_iff` draws the conclusion.
`processEventBatch_frames` says what else the batch path never writes.
-/

namespace SorobanExplorer.Indexer

open Library
open Filters (JsString js JsValue)

/-! ### Errors and tables -/

inductive JsError where
  | referenceError (name : String)
  | typeError (text : String)
  | error (text : String)
deriving DecidableEq, Repr

def JsError.message : JsError → String
  | .referenceError name => name ++ " is not defined"
  | .typeError text | .error text => text

/-- A row of `events`. It stands for the event it was decoded from, as the decoded
record names it. -/
structure StoredEvent where
  seq : Nat
  event : ContractEvent
  columns : Column → SqlParam
  abiVersion : Nat
  needsRedecode : Bool

/-- The record that goes through the pipeline. No stage sets `seq`. -/
structure ProcessedEvent where
  event : ContractEvent
  decoded : DecodedEvent
  abiVersion : Nat
  seq : Option Nat

/-- A row of `indexer_outbox`, whose payload is the record as JSON. -/
structure OutboxRow where
  id : Nat
  eventId : String
  payload : ProcessedEvent

structure Tables where
  events : List StoredEvent
  nextSeq : Nat
  outbox : List OutboxRow
  nextOutboxId : Nat
  stateDiffs : List JsValue
  stateVersions : List JsValue
  archivalEvictions : List JsValue

/-- A computation over the tables; `attempt` is its `.catch(() => …)`. -/
abbrev Effect (α : Type) : Type := EStateM JsError Tables α

/-! ### Scopes -/

/-- The names that `index.js` imports and the functions it declares. -/
def moduleScope : List String :=
  ["invalidateContractSpec", "initRuntimeConfig", "pathToFileURL", "SorobanRpc", "initSentry",
    "startProfiling", "config", "startApi", "tryAcquireLock", "isLeader", "startLeaderElection",
    "stopLeaderElection", "db", "pool", "startLineageBatch", "decode", "getDecodeStats",
    "startAbiSync", "seedBuiltinAbis", "startContractVerifier", "recordOnChainHash",
    "startQueryJobMaintenance", "withRetry", "isHighBloatRisk", "detectUpgrade",
    "classifyStorageWrites", "startBurnDetector", "multiNodeRpc", "startNodeRecoveryPoll",
    "startMetricsCollector", "startPruner", "extractStateDiffs", "extractStateVersions",
    "observeProtocolVersion", "protocolVersionFromLedger", "isProtocolDegraded", "parseFeeBump",
    "extractTransactionRecord", "detectEvictions", "parseAndDescribeRestore",
    "publishTransactionStatus", "enqueueOutbox", "startOutboxRelay", "extractBuildMetadata",
    "scanFootprintContention", "handleVaultEvent", "refreshAllVaults",
    "processCircuitBreakerEvent", "startGasGuzzlersWorker", "checkForReorg", "recordLedgerHash",
    "startReDecodeWorker", "warmCache", "cacheInvalidate", "enqueuePurge", "eventsIngested",
    "decodeLatency", "rpcErrors", "updateDbPoolMetrics", "dlqDepth", "indexerLagLedgers",
    "startUsageFlushCron", "startRetentionCleanupCron", "startAuditPartitionCron",
    "startAuditFlush", "startUptimeRecorder", "updateIndexerStatus", "updateDlqDepth",
    "setDraining", "logger", "alertManager", "dlqProcessRetries", "dlqEnqueue", "getDlqDepth",
    "refreshDlqHealth", "gapRecordLedger", "retryWebhookDelivery", "runIntegrityChecks",
    "createIngestPipeline", "indexWasmUploads", "loadTransactionContext", "processSingleEvent",
    "processEventBatch", "dlqRetryDispatch", "indexLedger", "assertLeadership", "run",
    "runIngest", "drainAndExit"]

/-- The methods of `db` among those that the two paths call. -/
def dbMethods : List String :=
  ["getContractMeta", "markNeedsRedecode", "upsertTransaction", "upsertEventValidated",
    "upsertEventsValidatedBatch", "insertStateDiffs"]

def inScope {α : Type} (name : String) (operation : Effect α) : Effect α :=
  if moduleScope.contains name then operation else throw (.referenceError name)

/-- A call of a method of `db`. -/
def callDb {α : Type} (method : String) (operation : Effect α) : Effect α :=
  if dbMethods.contains method then operation
  else throw (.typeError ("db." ++ method ++ " is not a function"))

/-! ### What the paths call -/

structure TransactionContext where
  feeBump : JsValue
  archivalInfo : JsValue
  transaction : Option JsValue

structure Analysis where
  decode : ContractEvent → Except JsError DecodedEvent
  rawTopics : ContractEvent → JsValue
  rawData : ContractEvent → JsValue
  contractAbiVersion : ContractEvent → Option Nat
  isHighBloatRisk : ContractEvent → Bool
  footprintContention : ContractEvent → JsValue
  detectUpgrade : ContractEvent → Option JsValue
  classifyStorageWrites : ContractEvent → JsValue
  extractTransactionRecord : ContractEvent → JsValue → Except JsError Unit
  extractStateDiffs : ContractEvent → List JsValue
  extractStateVersions : ContractEvent → List JsValue
  detectEvictions : ContractEvent → List JsValue

structure Faults where
  markNeedsRedecode : Bool
  insertEvents : Bool
  connect : Bool
  outbox : Bool
  stateDiffs : Bool
deriving DecidableEq, Repr

def Faults.none : Faults := ⟨false, false, false, false, false⟩

def databaseOperation (fails : Bool) (write : Tables → Tables) : Effect PUnit :=
  if fails then throw (.error "database operation failed") else modify write

/-- `/unknown|arm|union|xdr/i.test(message)` -/
def isProtocolError (message : String) : Bool :=
  ["unknown", "arm", "union", "xdr"].any fun word =>
    (message.toList.map Char.toLower).tails.any fun tail => word.toList.isPrefixOf tail

def markNeedsRedecode (contractId : String) (newAbiVersion : Nat) (tables : Tables) : Tables :=
  { tables with
    events := tables.events.map fun row =>
      if row.event.contractId = contractId ∧ row.abiVersion < newAbiVersion then
        { row with needsRedecode := true }
      else row }

/-- The rows of `events`, each by its event. -/
def Tables.stored (tables : Tables) : List ContractEvent := tables.events.map StoredEvent.event

def Tables.taken (tables : Tables) (event : ContractEvent) : Bool :=
  event.conflictKey.any fun key =>
    (firstWithKey ContractEvent.conflictKey tables.stored key).isSome

def insertEvent (columns : DecodedEvent → Column → SqlParam) (processed : ProcessedEvent)
    (tables : Tables) : Tables :=
  let row : StoredEvent :=
    ⟨tables.nextSeq, processed.event, columns processed.decoded, processed.abiVersion, false⟩
  { tables with
    events := if tables.taken processed.event then tables.events else tables.events ++ [row]
    nextSeq := tables.nextSeq + 1 }

/-- The insert of one path: of some rows in one statement, with the columns that the
path names. Its conflict target needs the index over every row. -/
def insertEvents (index : DedupIndex) (fails : Bool) (columns : DecodedEvent → Column → SqlParam)
    (batch : List ProcessedEvent) : Effect PUnit :=
  match index with
  | .eventsDedup =>
    databaseOperation fails fun tables =>
      batch.foldl (fun state processed => insertEvent columns processed state) tables
  | .eventsDedupLegacy =>
    throw (.error
      "there is no unique or exclusion constraint matching the ON CONFLICT specification")

/-- `decoded.seq ?? contract:ledger:transaction` -/
def outboxEventId (processed : ProcessedEvent) : String :=
  match processed.seq with
  | some seq => toString seq
  | none =>
    processed.event.contractId ++ ":" ++ toString processed.event.ledger ++ ":" ++
      processed.event.txHash.getD "undefined"

def Tables.queued (tables : Tables) (eventId : String) : Bool :=
  tables.outbox.any fun row => row.eventId == eventId

/-- The insert into the outbox, where `event_id` is unique, in a transaction of its
own. -/
def enqueueOutbox (fails : Bool) (processed : ProcessedEvent) : Effect PUnit :=
  fun tables =>
    if fails then .error (.error "outbox enqueue failed") tables
    else if tables.queued (outboxEventId processed) then
      .error (.error "duplicate key value violates unique constraint")
        { tables with nextOutboxId := tables.nextOutboxId + 1 }
    else
      .ok ⟨⟩
        { tables with
          outbox :=
            tables.outbox ++ [⟨tables.nextOutboxId, outboxEventId processed, processed⟩]
          nextOutboxId := tables.nextOutboxId + 1 }

/-! ### What the calls leave alone -/

theorem frames_inScope {α γ : Type} {view : Tables → γ} {name : String} {operation : Effect α}
    (frames : Frames view operation) : Frames view (inScope name operation) := by
  unfold inScope
  split
  · exact frames
  · exact frames_throw _

theorem frames_callDb {α γ : Type} {view : Tables → γ} {method : String} {operation : Effect α}
    (frames : Frames view operation) : Frames view (callDb method operation) := by
  unfold callDb
  split
  · exact frames
  · exact frames_throw _

theorem frames_databaseOperation {γ : Type} {view : Tables → γ} {fails : Bool}
    {write : Tables → Tables} (keeps : ∀ tables, view (write tables) = view tables) :
    Frames view (databaseOperation fails write) := by
  unfold databaseOperation
  split
  · exact frames_throw _
  · exact frames_modify keeps

theorem frames_insertEvents {γ : Type} {view : Tables → γ} {fails : Bool}
    {columns : DecodedEvent → Column → SqlParam} {batch : List ProcessedEvent}
    (index : DedupIndex)
    (keeps : ∀ processed tables, view (insertEvent columns processed tables) = view tables) :
    Frames view (insertEvents index fails columns batch) := by
  unfold insertEvents
  cases index with
  | eventsDedup =>
    apply frames_databaseOperation
    intro tables
    induction batch generalizing tables with
    | nil => rfl
    | cons processed rest ih =>
      exact (ih _).trans (keeps processed tables)
  | eventsDedupLegacy => exact frames_throw _

/-! ### The single path -/

namespace Processing

section Paths

variable (analysis : Analysis) (index : DedupIndex)

def deferredRecord (raw : ContractEvent) : DecodedEvent where
  contractId := .string (js raw.contractId)
  function := .string (js "unknown")
  ledger := .number (.ofRat raw.ledger)
  txHash := .string (js (raw.txHash.getD "unknown"))
  description := js "Deferred: unsupported protocol XDR"
  rawTopics := analysis.rawTopics raw
  rawData := analysis.rawData raw
  cpuInstructions := .undefined
  memBytes := .undefined
  feeCharged := .undefined
  isHighBloatRisk := .undefined
  upgrade := .undefined
  storageTiers := .undefined
  isClawback := .undefined
  footprintContention := .undefined
  ttlExtension := .undefined
  feeBump := .undefined
  archivalInfo := .undefined
  zkHostCalls := .undefined
  abiVersion := .undefined
  slippageBps := .undefined
  topicHashes := none
  topicCount := .undefined
  lineageBatchId := .undefined

def decodeOrDefer (raw : ContractEvent) : Except JsError (ContractEvent × DecodedEvent) :=
  match analysis.decode raw with
  | .ok decoded => .ok (raw, decoded)
  | .error reason =>
    if isProtocolError reason.message then
      .ok ({ raw with txHash := some (raw.txHash.getD "unknown") }, deferredRecord analysis raw)
    else .error reason

def enrich (raw : ContractEvent) (context : TransactionContext) (lineageBatchId : JsValue)
    (decoded : DecodedEvent) : DecodedEvent :=
  { decoded with
    abiVersion := .number (.ofRat ((analysis.contractAbiVersion raw).getD 0))
    isHighBloatRisk := .boolean (analysis.isHighBloatRisk raw)
    footprintContention := orElse (analysis.footprintContention raw) (.boolean false)
    upgrade := (analysis.detectUpgrade raw).getD decoded.upgrade
    storageTiers := analysis.classifyStorageWrites raw
    feeBump := context.feeBump
    archivalInfo := context.archivalInfo
    lineageBatchId := lineageBatchId }

def markUpgrade (faults : Faults) (raw : ContractEvent) : Effect PUnit :=
  let abiVersion := (analysis.contractAbiVersion raw).getD 0
  if (analysis.detectUpgrade raw).isSome ∧ 0 < abiVersion then
    callDb "markNeedsRedecode"
      (databaseOperation faults.markNeedsRedecode (markNeedsRedecode raw.contractId abiVersion))
  else pure ⟨⟩

theorem frames_markUpgrade {γ : Type} {view : Tables → γ}
    (keeps : ∀ contractId version tables,
      view (markNeedsRedecode contractId version tables) = view tables)
    (faults : Faults) (raw : ContractEvent) : Frames view (markUpgrade analysis faults raw) := by
  simp only [markUpgrade]
  split
  · apply frames_callDb
    exact frames_databaseOperation (keeps _ _)
  · exact frames_pure _

def indexTransaction (raw : ContractEvent) (context : TransactionContext) :
    Except JsError Unit :=
  match context.transaction with
  | some transaction =>
    if raw.txHash.isSome then analysis.extractTransactionRecord raw transaction else .ok ⟨⟩
  | none => .ok ⟨⟩

def prepareSingle (faults : Faults) (raw : ContractEvent) (context : TransactionContext)
    (lineageBatchId : JsValue) : Effect ProcessedEvent := do
  let (event, decoded) ← inScope "decode" (ofExcept (decodeOrDefer analysis raw))
  markUpgrade analysis faults raw
  inScope "extractTransactionRecord" (ofExcept (indexTransaction analysis raw context))
  pure ⟨event, enrich analysis raw context lineageBatchId decoded,
    (analysis.contractAbiVersion raw).getD 0, none⟩

def persistStateDiffs (faults : Faults) (raw : ContractEvent) : Effect PUnit :=
  if analysis.extractStateDiffs raw ≠ [] then
    callDb "insertStateDiffs"
      (attempt (databaseOperation faults.stateDiffs fun tables =>
        { tables with stateDiffs := tables.stateDiffs ++ analysis.extractStateDiffs raw }))
  else pure ⟨⟩

def persistStateVersions (raw : ContractEvent) : Effect PUnit :=
  if analysis.extractStateVersions raw ≠ [] then
    callDb "upsertStateVersions"
      (modify fun tables =>
        { tables with stateVersions := tables.stateVersions ++ analysis.extractStateVersions raw })
  else pure ⟨⟩

def persistEvictions (raw : ContractEvent) : Effect PUnit :=
  if analysis.detectEvictions raw ≠ [] then
    callDb "insertArchivalEvictions"
      (modify fun tables =>
        { tables with
          archivalEvictions := tables.archivalEvictions ++ analysis.detectEvictions raw })
  else pure ⟨⟩

theorem frames_persistStateDiffs {γ : Type} {view : Tables → γ}
    (keeps : ∀ stateDiffs tables, view { tables with stateDiffs } = view tables)
    (faults : Faults) (raw : ContractEvent) :
    Frames view (persistStateDiffs analysis faults raw) := by
  unfold persistStateDiffs
  split
  · apply frames_callDb
    apply Frames.attempt
    exact frames_databaseOperation fun tables => keeps _ tables
  · exact frames_pure _

theorem frames_persistStateVersions {γ : Type} {view : Tables → γ}
    (keeps : ∀ stateVersions tables, view { tables with stateVersions } = view tables)
    (raw : ContractEvent) : Frames view (persistStateVersions analysis raw) := by
  unfold persistStateVersions
  split
  · apply frames_callDb
    exact frames_modify fun tables => keeps _ tables
  · exact frames_pure _

theorem frames_persistEvictions {γ : Type} {view : Tables → γ}
    (keeps : ∀ archivalEvictions tables, view { tables with archivalEvictions } = view tables)
    (raw : ContractEvent) : Frames view (persistEvictions analysis raw) := by
  unfold persistEvictions
  split
  · apply frames_callDb
    exact frames_modify fun tables => keeps _ tables
  · exact frames_pure _

def notify (name : String) : Effect PUnit := inScope name (pure ⟨⟩)

theorem frames_notify {γ : Type} {view : Tables → γ} (name : String) :
    Frames view (notify name) :=
  frames_inScope (frames_pure _)

def finishSingle (faults : Faults) (raw : ContractEvent) : Effect PUnit := do
  notify "cacheInvalidate"
  persistStateDiffs analysis faults raw
  persistStateVersions analysis raw
  persistEvictions analysis raw
  notify "handleVaultEvent"
  notify "processCircuitBreakerEvent"

def processSingleEvent (faults : Faults) (raw : ContractEvent) (context : TransactionContext)
    (lineageBatchId : JsValue) : Effect ProcessedEvent := do
  let processed ← prepareSingle analysis faults raw context lineageBatchId
  callDb "upsertEventValidated"
    (insertEvents index faults.insertEvents upsertEventValidatedRow [processed])
  databaseOperation faults.connect id
  attempt (inScope "enqueueOutbox" (enqueueOutbox faults.outbox processed))
  finishSingle analysis faults raw
  pure processed

/-! ### The batch path -/

def prepareBatched (faults : Faults) (context : ContractEvent → TransactionContext)
    (lineageBatchId : JsValue) (raw : ContractEvent) : Effect ProcessedEvent := do
  let decoded ← inScope "decode" (ofExcept (analysis.decode raw))
  attempt (markUpgrade analysis faults raw)
  pure ⟨raw, enrich analysis raw (context raw) lineageBatchId decoded,
    (analysis.contractAbiVersion raw).getD 0, none⟩

def finishBatched (faults : Faults) (processed : ProcessedEvent) : Effect PUnit := do
  notify "cacheInvalidate"
  notify "deliverWebhooksForEvent"
  persistStateDiffs analysis faults processed.event
  persistEvictions analysis processed.event
  notify "publish"
  notify "handleVaultEvent"
  notify "processCircuitBreakerEvent"

def processEventBatch (faults : Faults) (context : ContractEvent → TransactionContext)
    (lineageBatchId : JsValue) (batch : List ContractEvent) : Effect (List ProcessedEvent) :=
  if batch.length = 0 then pure []
  else do
    let outcomes ← batch.mapM fun raw =>
      settled (prepareBatched analysis faults context lineageBatchId raw)
    let resolved ← ofExcept (outcomes.mapM id)
    callDb "upsertEventsValidatedBatch"
      (insertEvents index faults.insertEvents upsertEventsValidatedBatchRow resolved)
    resolved.forM (finishBatched analysis faults)
    pure resolved

/-- `processSingleEvent` on the events one by one, in order. -/
def processOneByOne (context : ContractEvent → TransactionContext) (lineageBatchId : JsValue)
    (batch : List ContractEvent) : Effect PUnit :=
  batch.forM fun raw =>
    attempt (do
      let _ ← processSingleEvent analysis index .none raw (context raw) lineageBatchId
      pure ⟨⟩)

end Paths

/-! ### One transfer -/

def transferAnalysis : Analysis where
  decode _ := .ok transferEvent
  rawTopics _ := .array [.string (js "transfer")]
  rawData _ := .string (js "1")
  contractAbiVersion _ := none
  isHighBloatRisk _ := false
  footprintContention _ := .undefined
  detectUpgrade _ := none
  classifyStorageWrites _ := .undefined
  extractTransactionRecord _ _ := .ok ⟨⟩
  extractStateDiffs _ := []
  extractStateVersions _ := []
  detectEvictions _ := []

def noContext : TransactionContext := ⟨.null, .null, none⟩

def emptyTables : Tables := ⟨[], 1, [], 1, [], [], []⟩

end Processing

namespace Processing

section Paths

variable (analysis : Analysis) (index : DedupIndex) (context : ContractEvent → TransactionContext)
  (lineageBatchId : JsValue)

def SameTables (left right : Tables) : Prop :=
  left.events = right.events ∧ left.outbox = right.outbox ∧ left.stateDiffs = right.stateDiffs ∧
    left.stateVersions = right.stateVersions ∧
    left.archivalEvictions = right.archivalEvictions

def BatchAgrees (batch : List ContractEvent) (tables : Tables) : Prop :=
  ∃ results after,
    processEventBatch analysis index .none context lineageBatchId batch tables =
      .ok results after ∧
    SameTables after
      (finalState (processOneByOne analysis index context lineageBatchId batch tables))

/-! ### The batch path throws -/

theorem throws_inScope {α : Type} {name : String} (missing : moduleScope.contains name = false)
    (operation : Effect α) : Throws (inScope name operation) := by
  simp only [inScope, missing, Bool.false_eq_true, if_false]
  exact throws_throw _

theorem throws_finishBatched (faults : Faults) (processed : ProcessedEvent) :
    Throws (finishBatched analysis faults processed) := by
  apply throws_bind
  intro _
  exact (throws_inScope (by decide) _).bind _

theorem throws_processEventBatch (faults : Faults) (raw : ContractEvent)
    (rest : List ContractEvent) :
    Throws (processEventBatch analysis index faults context lineageBatchId (raw :: rest)) := by
  simp only [processEventBatch, List.length_cons, Nat.succ_ne_zero, if_false]
  rw [List.mapM_cons, bind_assoc]
  apply throws_bind
  intro first
  rw [bind_assoc]
  apply throws_bind
  intro others
  rw [pure_bind, List.mapM_cons]
  cases first with
  | error reason => exact (throws_throw reason).bind _
  | ok processed =>
    cases others.mapM id with
    | error reason => exact (throws_throw reason).bind _
    | ok prepared =>
      -- Every event is prepared: the insert comes next, and then the first event.
      change Throws (do
        callDb "upsertEventsValidatedBatch"
          (insertEvents index faults.insertEvents upsertEventsValidatedBatchRow
            (processed :: prepared))
        (processed :: prepared).forM (finishBatched analysis faults)
        pure (processed :: prepared))
      apply throws_bind
      intro _
      apply Throws.bind
      exact (throws_finishBatched analysis faults processed).bind _

/-- The batch path returns normally and leaves what the single path leaves only for
the empty batch. -/
theorem batchAgrees_iff (batch : List ContractEvent) (tables : Tables) :
    BatchAgrees analysis index context lineageBatchId batch tables ↔ batch = [] := by
  constructor
  · rintro ⟨results, after, returned, _⟩
    cases batch with
    | nil => rfl
    | cons raw rest =>
      obtain ⟨reason, thrown, throws⟩ :=
        throws_processEventBatch analysis index context lineageBatchId .none raw rest tables
      rw [throws] at returned
      cases returned
  · rintro rfl
    exact ⟨[], tables, rfl, rfl, rfl, rfl, rfl, rfl⟩

/-- A batch of one transfer is stored, and then the batch path throws. -/
theorem transferBatch_throws :
    ¬ ∀ batch tables,
      BatchAgrees transferAnalysis .eventsDedup (fun _ => noContext) .null batch tables := by
  intro agrees
  obtain ⟨results, after, returned, _⟩ :=
    agrees [⟨"0000000030064775168-0000000001", "CPAYMENT", 7, some "9f3a"⟩] emptyTables
  cases returned

/-! ### What the batch path never writes -/

def unwritten (tables : Tables) : List OutboxRow × List JsValue :=
  (tables.outbox, tables.stateVersions)

theorem frames_prepareBatched (faults : Faults) (raw : ContractEvent) :
    Frames unwritten (prepareBatched analysis faults context lineageBatchId raw) := by
  apply Frames.bind (frames_inScope (frames_ofExcept _))
  intro decoded
  apply (frames_markUpgrade analysis (fun _ _ _ => rfl) faults raw).attempt.bind
  intro _
  exact frames_pure _

theorem frames_finishBatched (faults : Faults) (processed : ProcessedEvent) :
    Frames unwritten (finishBatched analysis faults processed) := by
  apply (frames_notify _).bind
  intro _
  apply (frames_notify _).bind
  intro _
  apply (frames_persistStateDiffs analysis (fun _ _ => rfl) faults processed.event).bind
  intro _
  apply (frames_persistEvictions analysis (fun _ _ => rfl) processed.event).bind
  intro _
  apply (frames_notify _).bind
  intro _
  apply (frames_notify _).bind
  intro _
  exact frames_notify _

/-- The batch path adds nothing to the outbox and no state versions, whatever fails. -/
theorem processEventBatch_frames (faults : Faults) (batch : List ContractEvent) :
    Frames unwritten (processEventBatch analysis index faults context lineageBatchId batch) := by
  have prepared : ∀ raw, Frames unwritten
      (settled (prepareBatched analysis faults context lineageBatchId raw)) :=
    fun raw => (frames_prepareBatched analysis context lineageBatchId faults raw).settled
  unfold processEventBatch
  split
  · exact frames_pure _
  · apply (frames_mapM prepared batch).bind
    intro outcomes
    apply (frames_ofExcept _).bind
    intro resolved
    apply Frames.bind
    · apply frames_callDb
      exact frames_insertEvents index fun _ _ => rfl
    · intro _
      apply (frames_forM (frames_finishBatched analysis faults) resolved).bind
      intro _
      exact frames_pure _

end Paths

end Processing

end SorobanExplorer.Indexer
