import Mathlib.Data.List.Sort
import SorobanExplorer.Library.Json

/-!
Owns `runReDecodeBatch`: marking the events that a newer ABI has superseded, the window of
marked events, and the `UPDATE` that writes what was decoded again. The decoder is a
parameter, and the ABIs do not change.

`redecodes_iff` says of which databases the runs decode again what they can.
-/

namespace SorobanExplorer.Indexer

open Library

namespace ReDecode

/-! ### Statements -/

inductive SqlValue where
  | integer (value : ℤ)
  | text (value : Option String)
  | json (value : Json)

def highestPlaceholder : List Char → Option ℕ → ℕ → ℕ
  | [], reading, highest => max highest (reading.getD 0)
  | '$' :: rest, reading, highest =>
    highestPlaceholder rest (some 0) (max highest (reading.getD 0))
  | char :: rest, some number, highest =>
    if char.isDigit then highestPlaceholder rest (some (10 * number + (char.toNat - 48))) highest
    else highestPlaceholder rest none (max highest number)
  | _ :: rest, none, highest => highestPlaceholder rest none highest

def binds (text : String) (values : List SqlValue) : Bool :=
  values.length = highestPlaceholder text.toList none 0

def updateRedecodedText : String :=
  "UPDATE events
       SET function = $2,
           description = $3,
           raw_topics = $4,
           raw_data = $5,
           abi_version = $6,
           decode_status = $7,
           decode_warnings = $8,
           needs_redecode = FALSE
       WHERE seq = $1 AND needs_redecode = TRUE"

/-! ### Events -/

/-- A row of `events`. -/
structure EventRow where
  seq : ℕ
  contractId : String
  function : String
  ledger : ℕ
  txHash : Option String
  description : String
  rawTopics : Option Json
  rawData : Option String
  abiVersion : ℤ
  needsRedecode : Bool
  decodeStatus : String
  decodeWarnings : Option String

/-- The events with distinct `seq`, and the ABI versions of the contracts. -/
structure Database where
  events : List EventRow
  contracts : String → Option ℤ
  distinct : (events.map fun row => row.seq).Nodup

structure Decoded where
  function : String
  description : String
  rawTopics : Json
  rawData : Option String

structure RawEvent where
  contractId : String
  topic : List Json
  value : Json
  ledger : ℕ
  txHash : Option String

def parseJson (value : Option Json) (fallback : Json) : Json :=
  match value with
  | none => fallback
  | some .null => fallback
  | some (.string units) => (Json.parse? (Utf16.decode units)).getD fallback
  | some value => value

/-- `none` is an error: the topics are not an array. -/
def rawEventFromRow (row : EventRow) : Option RawEvent :=
  let data := row.rawData.map fun text => Json.string (Utf16.encode text.toList)
  match parseJson row.rawTopics (.array []) with
  | .array topics =>
    some ⟨row.contractId, topics, parseJson data .null, row.ledger, row.txHash⟩
  | _ => none

/-- `decodeFn(…, { currentAbi: true })`; `none` if it throws. -/
abbrev Decoder := RawEvent → Option Decoded

def decodeRow (decode : Decoder) (row : EventRow) : Option Decoded :=
  (rawEventFromRow row).bind decode

namespace Database

/-- Rewrite the rows; none gets another `seq`. -/
def mapEvents (database : Database) (write : EventRow → EventRow)
    (keeps : ∀ row, (write row).seq = row.seq) : Database where
  events := database.events.map write
  contracts := database.contracts
  distinct := by
    rw [List.map_map]
    exact (List.map_congr_left fun row _ => keeps row) ▸ database.distinct

end Database

def Stale (database : Database) (row : EventRow) : Prop :=
  ∃ version, database.contracts row.contractId = some version ∧ row.abiVersion < version

instance (database : Database) (row : EventRow) : Decidable (Stale database row) :=
  decidable_of_iff ((database.contracts row.contractId).any (row.abiVersion < ·) = true)
    (by unfold Stale; cases database.contracts row.contractId <;> simp)

/-! ### A run -/

/-- What the call sends for `decode_status` and `decode_warnings`, if it does. -/
structure Scope where
  trust : Decoded → Option (String × Option String)

/-- `updateRedecodedEvent` sends six values only. -/
def db : Scope := ⟨fun _ => none⟩

def redecodedValues (scope : Scope) (seq : ℕ) (decoded : Decoded) (abiVersion : ℤ) :
    List SqlValue :=
  [.integer seq, .text decoded.function, .text decoded.description, .json decoded.rawTopics,
      .text decoded.rawData, .integer abiVersion] ++
    match scope.trust decoded with
    | none => []
    | some (status, warnings) => [.text status, .text warnings]

def EventRow.redecoded (row : EventRow) (decoded : Decoded) (abiVersion : ℤ)
    (trust : String × Option String) : EventRow :=
  { row with
    function := decoded.function
    description := decoded.description
    rawTopics := some decoded.rawTopics
    rawData := decoded.rawData
    abiVersion := abiVersion
    decodeStatus := trust.1
    decodeWarnings := trust.2
    needsRedecode := false }

def markStaleAbiEvents (database : Database) : Database :=
  database.mapEvents
    (fun row => if Stale database row then { row with needsRedecode := true } else row)
    (fun _ => by split_ifs <;> rfl)

/-- `ORDER BY seq ASC LIMIT $1` -/
def getEventsNeedingRedecode (database : Database) (limit : ℕ) : List EventRow :=
  ((database.events.filter fun row => row.needsRedecode).mergeSort
    fun first second => first.seq ≤ second.seq).take limit

/-- `none` is an error: the values do not fit the placeholders. -/
def updateRedecodedEvent (scope : Scope) (database : Database) (seq : ℕ) (decoded : Decoded)
    (abiVersion : ℤ) : Option Database :=
  if binds updateRedecodedText (redecodedValues scope seq decoded abiVersion) then
    (scope.trust decoded).map fun trust => database.mapEvents
      (fun row => if row.seq = seq ∧ row.needsRedecode = true then
        row.redecoded decoded abiVersion trust else row)
      (fun _ => by split_ifs <;> rfl)
  else none

/-- One row of the window; `none` if it is skipped or fails. -/
def redecodeRow (scope : Scope) (decode : Decoder) (database : Database) (row : EventRow) :
    Option Database := do
  let version ← database.contracts row.contractId
  if version ≤ row.abiVersion then none
  else
    let decoded ← decodeRow decode row
    updateRedecodedEvent scope database row.seq decoded version

def redecodeRows (scope : Scope) (decode : Decoder) :
    List EventRow → Database → Database × ℕ
  | [], database => (database, 0)
  | row :: rows, database =>
    match redecodeRow scope decode database row with
    | some written =>
      ((redecodeRows scope decode rows written).1,
        (redecodeRows scope decode rows written).2 + 1)
    | none => redecodeRows scope decode rows database

def runReDecodeBatch (scope : Scope) (decode : Decoder) (batchSize : ℕ) (database : Database) :
    Database × ℕ :=
  let marked := markStaleAbiEvents database
  redecodeRows scope decode (getEventsNeedingRedecode marked batchSize) marked

def runs (scope : Scope) (decode : Decoder) (batchSize count : ℕ) (database : Database) :
    Database :=
  (fun database => (runReDecodeBatch scope decode batchSize database).1)^[count] database

/-! ### What is promised -/

def Redecodable (decode : Decoder) (database : Database) (row : EventRow) : Prop :=
  Stale database row ∧ (decodeRow decode row).isSome = true

instance (decode : Decoder) (database : Database) (row : EventRow) :
    Decidable (Redecodable decode database row) :=
  inferInstanceAs (Decidable (_ ∧ _))

structure Settled (database : Database) (row : EventRow) (decoded : Decoded)
    (after : EventRow) : Prop where
  seq : after.seq = row.seq
  version : database.contracts row.contractId = some after.abiVersion
  function : after.function = decoded.function
  description : after.description = decoded.description
  unmarked : after.needsRedecode = false

/-- Each run makes progress if it can, some number of runs settles all events, and no run
changes an event that is current. -/
structure Promised (scope : Scope) (decode : Decoder) (batchSize : ℕ) (database : Database) :
    Prop where
  progress : ∀ count, (∃ row ∈ (runs scope decode batchSize count database).events,
    Redecodable decode (runs scope decode batchSize count database) row) →
      0 < (runReDecodeBatch scope decode batchSize (runs scope decode batchSize count database)).2
  settles : ∃ count, ∀ row ∈ database.events, Stale database row →
    ∀ decoded, decodeRow decode row = some decoded →
      ∃ after ∈ (runs scope decode batchSize count database).events,
        Settled database row decoded after
  frame : ∀ count, ∀ row ∈ (runs scope decode batchSize count database).events,
    database.contracts row.contractId = some row.abiVersion →
      row ∈ (runs scope decode batchSize (count + 1) database).events

section Runs

variable {scope : Scope} {decode : Decoder} {batchSize : ℕ} {database written : Database}
  {row current : EventRow} {rows : List EventRow}

theorem redecodeRow_eq_some (done : redecodeRow scope decode database row = some written) :
    ∃ version decoded, database.contracts row.contractId = some version ∧
      row.abiVersion < version ∧ decodeRow decode row = some decoded ∧
        updateRedecodedEvent scope database row.seq decoded version = some written := by
  unfold redecodeRow at done
  obtain ⟨version, found, rest⟩ := Option.bind_eq_some_iff.mp done
  split_ifs at rest with old
  obtain ⟨decoded, decodes, updated⟩ := Option.bind_eq_some_iff.mp rest
  exact ⟨version, decoded, found, not_le.mp old, decodes, updated⟩

theorem contracts_of_update {seq : ℕ} {decoded : Decoded} {version : ℤ}
    (updated : updateRedecodedEvent scope database seq decoded version = some written) :
    written.contracts = database.contracts := by
  unfold updateRedecodedEvent at updated
  split_ifs at updated
  obtain ⟨trust, -, rfl⟩ := Option.map_eq_some_iff.mp updated
  rfl

theorem mem_of_update {seq : ℕ} {decoded : Decoded} {version : ℤ}
    (updated : updateRedecodedEvent scope database seq decoded version = some written)
    (listed : current ∈ database.events) (other : current.seq ≠ seq) :
    current ∈ written.events := by
  unfold updateRedecodedEvent at updated
  split_ifs at updated
  obtain ⟨trust, -, rfl⟩ := Option.map_eq_some_iff.mp updated
  exact List.mem_map.mpr ⟨current, listed, if_neg fun both => other both.1⟩

theorem contracts_of_redecodeRows :
    (redecodeRows scope decode rows database).1.contracts = database.contracts := by
  induction rows generalizing database with
  | nil => rfl
  | cons row rows ih =>
    rw [redecodeRows]
    split
    next written done =>
      obtain ⟨version, decoded, -, -, -, updated⟩ := redecodeRow_eq_some done
      exact ih.trans (contracts_of_update updated)
    next => exact ih

theorem mem_of_redecodeRows (listed : current ∈ database.events)
    (others : ∀ row ∈ rows, Stale database row → current.seq ≠ row.seq) :
    current ∈ (redecodeRows scope decode rows database).1.events := by
  induction rows generalizing database with
  | nil => exact listed
  | cons row rows ih =>
    obtain ⟨first, rest⟩ := List.forall_mem_cons.mp others
    rw [redecodeRows]
    split
    next written done =>
      obtain ⟨version, decoded, found, old, -, updated⟩ := redecodeRow_eq_some done
      have kept := mem_of_update updated listed (first ⟨version, found, old⟩)
      apply ih kept
      intro later among stale
      apply rest later among
      unfold Stale at stale ⊢
      rwa [contracts_of_update updated] at stale
    next => exact ih listed rest

theorem mem_marked (listed : row ∈ (markStaleAbiEvents database).events) :
    ∃ earlier ∈ database.events, earlier.seq = row.seq ∧ decodeRow decode row =
      decodeRow decode earlier ∧ (Stale database row ↔ Stale database earlier) := by
  obtain ⟨earlier, among, rfl⟩ := List.mem_map.mp listed
  refine ⟨earlier, among, ?_⟩
  split_ifs
  · exact ⟨rfl, rfl, Iff.rfl⟩
  · exact ⟨rfl, rfl, Iff.rfl⟩

theorem mem_run_of_not_stale (listed : row ∈ database.events) (fresh : ¬ Stale database row) :
    row ∈ (runReDecodeBatch scope decode batchSize database).1.events := by
  have marked : row ∈ (markStaleAbiEvents database).events :=
    List.mem_map.mpr ⟨row, listed, if_neg fresh⟩
  apply mem_of_redecodeRows marked
  intro other among stale same
  have window := List.mem_of_mem_take among
  have listedOther := (List.mem_filter.mp (List.mem_mergeSort.mp window)).1
  have equal := List.inj_on_of_nodup_map (markStaleAbiEvents database).distinct listedOther marked
    same.symm
  exact fresh (equal ▸ stale)

theorem contracts_of_runs (count : ℕ) :
    (runs scope decode batchSize count database).contracts = database.contracts := by
  induction count with
  | zero => rfl
  | succ count ih =>
    rw [runs, Function.iterate_succ_apply']
    exact contracts_of_redecodeRows.trans ih

theorem redecodable_congr {other : Database} (same : other.contracts = database.contracts) :
    Redecodable decode other row ↔ Redecodable decode database row := by
  unfold Redecodable Stale
  rw [same]

set_option maxRecDepth 4000 in
theorem highestPlaceholder_eq : highestPlaceholder updateRedecodedText.toList none 0 = 8 := by
  have chars : updateRedecodedText.toList = _ := String.toList_ofList
  rw [chars]
  decide +kernel

theorem redecodeRow_found {version : ℤ}
    (found : database.contracts row.contractId = some version) :
    redecodeRow scope decode database row = if version ≤ row.abiVersion then none
      else (decodeRow decode row).bind fun decoded =>
        updateRedecodedEvent scope database row.seq decoded version := by
  rw [redecodeRow, found]
  rfl

theorem redecodable_found {version : ℤ}
    (found : database.contracts row.contractId = some version) :
    Redecodable decode database row ↔
      row.abiVersion < version ∧ (decodeRow decode row).isSome = true := by
  simp [Redecodable, Stale, found]

theorem isSome_redecodeRow (trusts : ∀ decoded, (scope.trust decoded).isSome = true) :
    (redecodeRow scope decode database row).isSome = true ↔ Redecodable decode database row := by
  have sends : ∀ seq decoded version,
      (updateRedecodedEvent scope database seq decoded version).isSome = true := by
    intro seq decoded version
    obtain ⟨trust, sent⟩ := Option.isSome_iff_exists.mp (trusts decoded)
    have bound : binds updateRedecodedText (redecodedValues scope seq decoded version) = true := by
      rw [binds, highestPlaceholder_eq, redecodedValues, sent]
      rfl
    rw [updateRedecodedEvent, if_pos bound, sent]
    rfl
  cases found : database.contracts row.contractId with
  | none => simp [redecodeRow, Redecodable, Stale, found]
  | some version =>
    rw [redecodeRow_found found, redecodable_found found]
    by_cases old : version ≤ row.abiVersion
    · rw [if_pos old]
      simp [not_lt.mpr old]
    · rw [if_neg old]
      cases decodes : decodeRow decode row with
      | none => simp
      | some decoded =>
        rw [Option.bind_some, sends]
        simp [not_le.mp old]

/-- Were all values sent, a run would process what is redecodable in its window. -/
theorem processed_of_bound (trusts : ∀ decoded, (scope.trust decoded).isSome = true) :
    (redecodeRows scope decode rows database).2 =
      (rows.filter fun row => Redecodable decode database row).length := by
  induction rows generalizing database with
  | nil => rfl
  | cons row rows ih =>
    have done := @isSome_redecodeRow scope decode database row trusts
    rw [redecodeRows]
    split
    next written wrote =>
      obtain ⟨_, _, -, -, -, updated⟩ := redecodeRow_eq_some wrote
      have same : ∀ row, Redecodable decode written row ↔ Redecodable decode database row :=
        fun row => redecodable_congr (contracts_of_update updated)
      rw [wrote] at done
      simp [ih, same, done.mp rfl]
    next skipped =>
      rw [skipped] at done
      have left : ¬ Redecodable decode database row := fun redecodable =>
        Bool.false_ne_true (done.mpr redecodable)
      simp [ih, left]

/-- Were all values sent, a run would make progress if and only if its window has an event
that is redecodable: rows that fail keep their mark and their place in it. -/
theorem progress_of_bound (trusts : ∀ decoded, (scope.trust decoded).isSome = true) :
    0 < (runReDecodeBatch scope decode batchSize database).2 ↔
      ∃ row ∈ getEventsNeedingRedecode (markStaleAbiEvents database) batchSize,
        Redecodable decode database row := by
  have same : ∀ row, Redecodable decode (markStaleAbiEvents database) row ↔
      Redecodable decode database row := fun row => redecodable_congr rfl
  rw [runReDecodeBatch, processed_of_bound trusts, List.length_pos_iff_exists_mem]
  simp only [List.mem_filter, decide_eq_true_eq, same]

end Runs

/-! ### The runs of the source -/

section Source

variable {decode : Decoder} {batchSize : ℕ} {database : Database}

theorem updateRedecodedEvent_db (seq : ℕ) (decoded : Decoded) (version : ℤ) :
    updateRedecodedEvent db database seq decoded version = none := by
  apply if_neg
  rw [binds, highestPlaceholder_eq]
  exact Bool.false_ne_true

theorem redecodeRows_db (rows : List EventRow) :
    redecodeRows db decode rows database = (database, 0) := by
  induction rows with
  | nil => rfl
  | cons row rows ih =>
    rw [redecodeRows]
    split
    next written done =>
      obtain ⟨_, decoded, -, -, -, updated⟩ := redecodeRow_eq_some done
      rw [updateRedecodedEvent_db] at updated
      cases updated
    next => exact ih

theorem runReDecodeBatch_db :
    runReDecodeBatch db decode batchSize database = (markStaleAbiEvents database, 0) :=
  redecodeRows_db _

theorem redecodable_marked {row : EventRow}
    (listed : row ∈ (markStaleAbiEvents database).events)
    (redecodable : Redecodable decode (markStaleAbiEvents database) row) :
    ∃ earlier ∈ database.events, Redecodable decode database earlier := by
  obtain ⟨earlier, among, -, decodes, stale⟩ := mem_marked listed
  refine ⟨earlier, among, stale.mp redecodable.1, ?_⟩
  rw [← decodes]
  exact redecodable.2

theorem redecodable_runs (count : ℕ) {row : EventRow}
    (listed : row ∈ (runs db decode batchSize count database).events)
    (redecodable : Redecodable decode (runs db decode batchSize count database) row) :
    ∃ earlier ∈ database.events, Redecodable decode database earlier := by
  induction count generalizing row with
  | zero => exact ⟨row, listed, redecodable⟩
  | succ count ih =>
    rw [runs, Function.iterate_succ_apply', runReDecodeBatch_db] at listed redecodable
    obtain ⟨earlier, among, before⟩ := redecodable_marked listed redecodable
    exact ih among before

/-- The runs do what is promised if and only if no event of an older ABI is decoded by the
current one: nothing is ever written. -/
theorem redecodes_iff (decode : Decoder) (batchSize : ℕ) (database : Database) :
    Promised db decode batchSize database ↔
      ∀ row ∈ database.events, Stale database row → decodeRow decode row = none := by
  constructor
  · intro promised row listed stale
    by_contra decodes
    have redecodable : Redecodable decode database row :=
      ⟨stale, Option.isSome_iff_ne_none.mpr decodes⟩
    have processed := promised.progress 0 ⟨row, listed, redecodable⟩
    rw [runReDecodeBatch_db] at processed
    exact absurd processed (lt_irrefl 0)
  · intro none
    refine ⟨fun count work => ?_, ⟨0, fun row listed stale decoded decodes => ?_⟩,
      fun count row listed current => ?_⟩
    · obtain ⟨row, listed, redecodable⟩ := work
      obtain ⟨earlier, among, stale, decodes⟩ := redecodable_runs count listed redecodable
      rw [none earlier among stale] at decodes
      cases decodes
    · rw [none row listed stale] at decodes
      cases decodes
    · rw [runs, Function.iterate_succ_apply']
      apply mem_run_of_not_stale listed
      intro stale
      obtain ⟨version, found, old⟩ := stale
      have contracts : (runs db decode batchSize count database).contracts row.contractId = _ :=
        congrFun (contracts_of_runs count) row.contractId
      rw [current] at contracts
      cases found.symm.trans contracts
      exact lt_irrefl _ old

end Source

/-! ### One event -/

def staleEvent : EventRow :=
  ⟨7, "C1", "transfer", 12, some "t", "old", some (.array []), some "1", 1, false, "unverified", none⟩

def staleDatabase : Database := ⟨[staleEvent], fun _ => some 2, by decide⟩

def everyDecoder : Decoder := fun raw => some ⟨"transfer_v2", "new", .array raw.topic, none⟩

theorem staleDatabase_stays : ¬ ∀ decode batchSize database,
    Promised db decode batchSize database := by
  intro promised
  have stale : Stale staleDatabase staleEvent := ⟨2, rfl, by decide⟩
  have processed := (promised everyDecoder 100 staleDatabase).progress 0
    ⟨staleEvent, List.mem_singleton_self _, stale, rfl⟩
  rw [runReDecodeBatch_db] at processed
  exact absurd processed (lt_irrefl 0)

end ReDecode

end SorobanExplorer.Indexer
