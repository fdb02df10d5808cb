import SorobanExplorer.Filters.JsValue
import SorobanExplorer.Library.JsonReading
import Mathlib.Tactic.IntervalCases

/-!
Owns the columns that the two insert paths write for a decoded event. Each path
keeps a list of columns and a list of values by hand; a column that a path does not
name takes its default, which is null for every column here.

`sameRow_iff` says for which events both write the same row.
-/

namespace SorobanExplorer.Indexer

open Library
open Filters (JsString js JsValue)

/-! ### Values -/

def truthy : JsValue → Bool
  | .undefined | .null => false
  | .boolean value => value
  | .number value => value.value != 0
  | .string units => !units.isEmpty
  | _ => true

/-- `JSON.stringify(value)`, or `undefined`. -/
def stringify : JsValue → Option JsString
  | .undefined | .function _ => none
  | .null => some (Json.stringify .null)
  | .boolean value => some (Json.stringify (.boolean value))
  | .number value =>
    some (if value.isFinite then Utf16.encode value.text else Json.stringify .null)
  | .string units => some (Json.stringify (.string units))
  | .array items => some (Json.stringify (.array items))
  | .object members => some (Json.stringify (.object members))
  | .objectPrototype => some (Json.stringify (.object []))
  | .arrayPrototype => some (Json.stringify (.array []))

inductive SqlParam where
  | null
  | value (value : JsValue)
  | text (units : JsString)
  | bytes (bytes : List UInt8)

/-- The driver sends `undefined` and `null` as null. -/
def SqlParam.ofValue : JsValue → SqlParam
  | .undefined | .null => .null
  | other => .value other

def SqlParam.ofText : Option JsString → SqlParam
  | none => .null
  | some units => .text units

/-- `value ?? default` -/
def orElse (value default : JsValue) : JsValue :=
  match value with
  | .undefined | .null => default
  | _ => value

def isNullish : JsValue → Bool
  | .undefined | .null => true
  | _ => false

/-! ### Events -/

/-- The fields of a decoded event that the inserts read. The hashes of topics are
absent, or hexadecimal texts. -/
structure DecodedEvent where
  contractId : JsValue
  function : JsValue
  ledger : JsValue
  txHash : JsValue
  description : JsString
  rawTopics : JsValue
  rawData : JsValue
  cpuInstructions : JsValue
  memBytes : JsValue
  feeCharged : JsValue
  isHighBloatRisk : JsValue
  upgrade : JsValue
  storageTiers : JsValue
  isClawback : JsValue
  footprintContention : JsValue
  ttlExtension : JsValue
  feeBump : JsValue
  archivalInfo : JsValue
  zkHostCalls : JsValue
  abiVersion : JsValue
  slippageBps : JsValue
  topicHashes : Option (List JsString)
  topicCount : JsValue
  lineageBatchId : JsValue

/-- Removes `<`, what follows it and the next `>`, wherever there is one. -/
def stripTags : Nat → JsString → JsString
  | 0, units => units
  | _ + 1, [] => []
  | fuel + 1, unit :: rest =>
    if unit = 0x3C && rest.contains 0x3E then
      stripTags fuel ((rest.dropWhile fun other => other != 0x3E).drop 1)
    else unit :: stripTags fuel rest

def isControl (unit : UInt16) : Bool :=
  unit.toNat ≤ 0x1F || (0x7F ≤ unit.toNat && unit.toNat ≤ 0x9F)

/-- What `trim` removes. -/
def isWhite (unit : UInt16) : Bool :=
  [0x09, 0x0A, 0x0B, 0x0C, 0x0D, 0x20, 0xA0, 0x1680, 0x2028, 0x2029, 0x202F, 0x205F, 0x3000,
    0xFEFF].contains unit || (0x2000 ≤ unit.toNat && unit.toNat ≤ 0x200A)

def sanitizeDecodedText (text : JsString) : JsString :=
  let cleaned := ((stripTags text.length text).filter fun unit => !isControl unit).take 2048
  if cleaned.all isWhite then js "<invalid decoded text>" else cleaned

def validateAndSanitizeDecodedEvent (ev : DecodedEvent) : DecodedEvent :=
  if ev.description.isEmpty then ev
  else { ev with description := sanitizeDecodedText ev.description }

/-! ### The two inserts -/

/-- The columns of `events` that an insert names. -/
inductive Column where
  | contractId
  | function
  | ledger
  | txHash
  | description
  | rawTopics
  | rawData
  | cpuInstructions
  | memBytes
  | feeCharged
  | isHighBloatRisk
  | upgradeInfo
  | storageTiers
  | isClawback
  | footprintContention
  | ttlExtension
  | feeBump
  | archivalInfo
  | zkHostCalls
  | abiVersion
  | slippageBps
  | topic0
  | topic1
  | topic2
  | topic3
  | topicCount
  | lineageBatchId
deriving DecidableEq, Repr

/-- `value ? JSON.stringify(value) : null` -/
def jsonIfTruthy (value : JsValue) : SqlParam :=
  if truthy value then .ofText (stringify value) else .null

/-- `ev.topic_hashes?.[index] ? Buffer.from(ev.topic_hashes[index], "hex") : null` -/
def topicParam (ev : DecodedEvent) (index : Nat) : SqlParam :=
  match ev.topicHashes.bind fun hashes => hashes[index]? with
  | none => .null
  | some hash => if hash.isEmpty then .null else .bytes (Hex.decode (Utf16.decode hash))

namespace Upsert

/-- The columns that `upsertEvent` names. -/
def columns : List Column :=
  [.contractId, .function, .ledger, .txHash, .description, .rawTopics, .rawData,
    .cpuInstructions, .memBytes, .feeCharged, .isHighBloatRisk, .upgradeInfo, .storageTiers,
    .isClawback, .footprintContention, .ttlExtension, .feeBump, .archivalInfo, .zkHostCalls,
    .abiVersion, .slippageBps, .topic0, .topic1, .topic2, .topic3, .topicCount, .lineageBatchId]

/-- The values that `upsertEvent` binds. -/
def values (ev : DecodedEvent) : List SqlParam :=
  [.ofValue ev.contractId, .ofValue ev.function, .ofValue ev.ledger, .ofValue ev.txHash,
    .text ev.description, .ofText (stringify ev.rawTopics), .ofValue ev.rawData,
    .ofValue (orElse ev.cpuInstructions .null), .ofValue (orElse ev.memBytes .null),
    .ofValue (orElse ev.feeCharged .null),
    .ofValue (orElse ev.isHighBloatRisk (.boolean false)), jsonIfTruthy ev.upgrade,
    jsonIfTruthy ev.storageTiers, .ofValue (orElse ev.isClawback (.boolean false)),
    .ofValue (orElse ev.footprintContention (.boolean false)), jsonIfTruthy ev.ttlExtension,
    jsonIfTruthy ev.feeBump, jsonIfTruthy ev.archivalInfo, jsonIfTruthy ev.zkHostCalls,
    .ofValue (orElse ev.abiVersion (.number (.ofRat 0))),
    .ofValue (orElse ev.slippageBps .null), topicParam ev 0, topicParam ev 1, topicParam ev 2,
    topicParam ev 3, .ofValue (orElse ev.topicCount .null),
    .ofValue (orElse ev.lineageBatchId .null)]

end Upsert

namespace BatchUpsert

/-- The columns that `upsertEventsValidatedBatch` names. -/
def columns : List Column :=
  [.contractId, .function, .ledger, .txHash, .description, .rawTopics, .rawData,
    .cpuInstructions, .memBytes, .feeCharged, .isHighBloatRisk, .upgradeInfo, .storageTiers,
    .isClawback, .footprintContention, .ttlExtension, .feeBump, .archivalInfo, .zkHostCalls,
    .abiVersion, .slippageBps]

/-- The values that `upsertEventsValidatedBatch` binds for one row. -/
def values (ev : DecodedEvent) : List SqlParam :=
  [.ofValue ev.contractId, .ofValue ev.function, .ofValue ev.ledger, .ofValue ev.txHash,
    .text ev.description, .ofText (stringify (orElse ev.rawTopics (.array []))),
    .ofValue ev.rawData, .ofValue (orElse ev.cpuInstructions .null),
    .ofValue (orElse ev.memBytes .null), .ofValue (orElse ev.feeCharged .null),
    .ofValue (orElse ev.isHighBloatRisk (.boolean false)), jsonIfTruthy ev.upgrade,
    jsonIfTruthy ev.storageTiers, .ofValue (orElse ev.isClawback (.boolean false)),
    .ofValue (orElse ev.footprintContention (.boolean false)), jsonIfTruthy ev.ttlExtension,
    jsonIfTruthy ev.feeBump, jsonIfTruthy ev.archivalInfo, jsonIfTruthy ev.zkHostCalls,
    .ofValue (orElse ev.abiVersion (.number (.ofRat 0))),
    .ofValue (orElse ev.slippageBps .null)]

end BatchUpsert

/-- What an insert puts into a column: the value in the place of the column, or the
default of a column that it does not name. -/
def insertedValue (columns : List Column) (values : List SqlParam) (column : Column) : SqlParam :=
  ((columns.zip values).lookup column).getD .null

/-- The row of `upsertEventValidated`. -/
def upsertEventValidatedRow (ev : DecodedEvent) : Column → SqlParam :=
  insertedValue Upsert.columns (Upsert.values (validateAndSanitizeDecodedEvent ev))

/-- The row of `upsertEventsValidatedBatch`. -/
def upsertEventsValidatedBatchRow (ev : DecodedEvent) : Column → SqlParam :=
  insertedValue BatchUpsert.columns (BatchUpsert.values (validateAndSanitizeDecodedEvent ev))

/-! ### Where they agree -/

/-- The event carries nothing for the columns that the batch leaves out, and has
its topics: no topic has a hash, and there is no topic count and no lineage batch. -/
def CarriesNoMore (ev : DecodedEvent) : Prop :=
  (∀ index < 4, ∀ hashes, ev.topicHashes = some hashes → hashes.getD index [] = []) ∧
    isNullish ev.topicCount ∧ isNullish ev.lineageBatchId ∧ ¬ isNullish ev.rawTopics

theorem ofValue_orElse_null (value : JsValue) :
    SqlParam.ofValue (orElse value .null) = .null ↔ isNullish value := by
  cases value <;> simp [orElse, SqlParam.ofValue, isNullish]

theorem topicParam_eq_null (ev : DecodedEvent) (index : Nat) :
    topicParam ev index = .null ↔
      ∀ hashes, ev.topicHashes = some hashes → hashes.getD index [] = [] := by
  unfold topicParam
  cases ev.topicHashes with
  | none => simp
  | some hashes =>
    cases present : hashes[index]? with
    | none => simp [present]
    | some hash =>
      cases hash with
      | nil => simp [present]
      | cons unit units => simp [present]

theorem stringify_orElse_iff (value : JsValue) :
    SqlParam.ofText (stringify (orElse value (.array []))) = .ofText (stringify value) ↔
      ¬ isNullish value := by
  cases value with
  | undefined => simp [orElse, stringify, SqlParam.ofText, isNullish]
  | null => simp [orElse, stringify, SqlParam.ofText, isNullish]; decide
  | _ => simp [orElse, isNullish]

theorem carriesNoMore_validate (ev : DecodedEvent) :
    CarriesNoMore (validateAndSanitizeDecodedEvent ev) ↔ CarriesNoMore ev := by
  unfold validateAndSanitizeDecodedEvent
  split <;> rfl

/-- The two paths insert the same row if and only if the event carries nothing for
the columns that the batch leaves out, and has its topics. -/
theorem sameRow_iff (ev : DecodedEvent) :
    (∀ column, upsertEventsValidatedBatchRow ev column = upsertEventValidatedRow ev column) ↔
      CarriesNoMore ev := by
  rw [← carriesNoMore_validate]
  unfold upsertEventsValidatedBatchRow upsertEventValidatedRow
  generalize validateAndSanitizeDecodedEvent ev = validated
  constructor
  · intro same
    refine ⟨fun index below => (topicParam_eq_null validated index).mp ?_, ?_, ?_, ?_⟩
    · interval_cases index
      · exact (same .topic0).symm
      · exact (same .topic1).symm
      · exact (same .topic2).symm
      · exact (same .topic3).symm
    · exact (ofValue_orElse_null _).mp (same .topicCount).symm
    · exact (ofValue_orElse_null _).mp (same .lineageBatchId).symm
    · exact (stringify_orElse_iff _).mp (same .rawTopics)
  · rintro ⟨hashless, uncounted, unbatched, topics⟩ column
    have topic : ∀ index < 4, topicParam validated index = .null :=
      fun index below => (topicParam_eq_null validated index).mpr (hashless index below)
    cases column with
    | rawTopics => exact (stringify_orElse_iff _).mpr topics
    | topic0 => exact (topic 0 (by decide)).symm
    | topic1 => exact (topic 1 (by decide)).symm
    | topic2 => exact (topic 2 (by decide)).symm
    | topic3 => exact (topic 3 (by decide)).symm
    | topicCount => exact ((ofValue_orElse_null _).mpr uncounted).symm
    | lineageBatchId => exact ((ofValue_orElse_null _).mpr unbatched).symm
    | _ => rfl

def transferEvent : DecodedEvent where
  contractId := .string (js "CPAYMENT")
  function := .string (js "transfer")
  ledger := .number (.ofRat 7)
  txHash := .string (js "9f3a")
  description := js "transfer on CPAYMENT"
  rawTopics := .array [.string (js "transfer")]
  rawData := .string (js "1")
  cpuInstructions := .undefined
  memBytes := .undefined
  feeCharged := .undefined
  isHighBloatRisk := .boolean false
  upgrade := .undefined
  storageTiers := .undefined
  isClawback := .boolean false
  footprintContention := .boolean false
  ttlExtension := .undefined
  feeBump := .null
  archivalInfo := .null
  zkHostCalls := .undefined
  abiVersion := .number (.ofRat 0)
  slippageBps := .undefined
  topicHashes := some [js "a1b2"]
  topicCount := .number (.ofRat 1)
  lineageBatchId := .number (.ofRat 3)

/-- The batch writes no topic hash for it. -/
theorem transferEvent_differs :
    ¬ ∀ ev column, upsertEventsValidatedBatchRow ev column = upsertEventValidatedRow ev column := by
  intro same
  have nullHash := same transferEvent .topic0
  cases nullHash

end SorobanExplorer.Indexer
