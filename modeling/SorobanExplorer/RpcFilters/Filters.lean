import SorobanExplorer.Filters.Ast
import SorobanExplorer.Library.Hex
import SorobanExplorer.Library.Parsing
import SorobanExplorer.Library.Postgres

/-!
Owns the Soroban RPC filters: the topic columns of an event and its row, the
validation of a `filters` array with its messages.

The XDR codec and SHA-256 are parameters.
-/

namespace SorobanExplorer.RpcFilters

open Library
open Library.Postgres (SqlError Truth)
open Filters (JsString js JsValue stringOf)

/-! ### Topics -/

/-- `xdr.ScVal`: what is encoded is decoded again. -/
structure ScValXdr (ScVal : Type) where
  base64 : JsString → List UInt8
  fromXdr : List UInt8 → Option ScVal
  toXdr : ScVal → List UInt8
  fromXdr_toXdr : ∀ value, fromXdr (toXdr value) = some value

theorem ScValXdr.toXdr_injective {ScVal : Type} (codec : ScValXdr ScVal) :
    Function.Injective codec.toXdr := by
  intro first second same
  have decoded := codec.fromXdr_toXdr first
  rw [same, codec.fromXdr_toXdr second] at decoded
  exact (Option.some.inj decoded).symm

/-- `xdr.ScVal.fromXDR(text, "base64")`, or nothing where it throws. -/
def ScValXdr.fromBase64 {ScVal : Type} (codec : ScValXdr ScVal) (text : JsString) : Option ScVal :=
  codec.fromXdr (codec.base64 text)

structure Digest where
  bytes : List UInt8
  length_bytes : bytes.length = 32
deriving DecidableEq

/-- `digest.toString("hex")` -/
def Digest.hex (digest : Digest) : Hex := Hex.encode digest.bytes

inductive TopicValue (ScVal : Type) where
  | base64 (text : JsString)
  | scVal (value : ScVal)

structure TopicColumns where
  topicHashes : List Hex
  topicCount : Nat

section Topics

variable {ScVal : Type} (codec : ScValXdr ScVal) (sha256 : List UInt8 → Digest)

def topicHash : TopicValue ScVal → Option Digest
  | .base64 text => (codec.fromBase64 text).map fun value => sha256 (codec.toXdr value)
  | .scVal value => some (sha256 (codec.toXdr value))

def topicColumns (topics : List (TopicValue ScVal)) : Option TopicColumns := do
  let hashes ← (topics.take 4).mapM (topicHash codec sha256)
  pure ⟨hashes.map Digest.hex, topics.length⟩

end Topics

/-! ### Rows -/

structure IndexedEvent where
  contractId : JsString
  columns : Option TopicColumns

/-- The columns of a row that the filters read: `contract_id`, `topic0` to `topic3` and
`topic_count`. -/
structure EventRow where
  contractId : JsString
  topics : List (Option (List UInt8))
  topicCount : Option Nat

/-- `ev.topic_hashes?.[i] ? Buffer.from(ev.topic_hashes[i], "hex") : null` -/
def topicColumn (columns : Option TopicColumns) (index : Nat) : Option (List UInt8) :=
  match columns.bind fun columns => columns.topicHashes[index]? with
  | some (char :: hash) => some (Hex.decode (char :: hash))
  | _ => none

/-- `smallint` input. -/
def smallintIn (count : Nat) : Except SqlError Nat :=
  if count < 2 ^ 15 then pure count else throw .numericValueOutOfRange

/-- `ev.topic_count ?? null` -/
def countColumn : Option TopicColumns → Except SqlError (Option Nat)
  | some columns => (smallintIn columns.topicCount).map some
  | none => pure none

/-- `upsertEvent` -/
def upsertEvent (event : IndexedEvent) : Except SqlError EventRow := do
  let topicCount ← countColumn event.columns
  pure ⟨event.contractId, [0, 1, 2, 3].map (topicColumn event.columns), topicCount⟩

/-! ### Limits and messages -/

def maxFilters : Nat := 5
def maxContractIds : Nat := 5
def maxTopicPatterns : Nat := 5
def maxSegments : Nat := 4

inductive Failure where
  | rpcFilterError (message : JsString)
  | typeError
deriving DecidableEq

def decimal (number : Nat) : JsString := Utf16.encode (Nat.toDigits 10 number)

/-- `filters[i]` -/
def filterPath (index : Nat) : JsString := js "filters[" ++ decimal index ++ js "]"

/-! ### Validation -/

structure Pattern where
  trailing : Bool
  /-- `null` is a segment that any topic matches. -/
  segments : List (Option Digest)

structure RpcFilter where
  type : Option JsString
  contractIds : List JsString
  patterns : List Pattern

/-- `Object.keys`: array indices in their order, then the other keys in theirs. -/
def ownKeys (members : List (JsString × Json)) : List JsString :=
  let keys := (members.map Prod.fst).reverse.dedup.reverse
  let isIndex (key : JsString) : Bool := (JsValue.index? key).any (· < 2 ^ 32 - 1)
  (keys.filter isIndex).insertionSort (fun first second =>
      (JsValue.index? first).getD 0 ≤ (JsValue.index? second).getD 0) ++
    keys.filter fun key => !isIndex key

def knownKeys : List JsString := [js "type", js "contractIds", js "topics"]

def checkKeys (index : Nat) (members : List (JsString × Json)) : Except Failure Unit :=
  let unknown := (ownKeys members).filter fun key => !knownKeys.contains key
  if unknown.isEmpty then pure ()
  else throw (.rpcFilterError (filterPath index ++ js " has unknown field(s): " ++
    (js ", ").intercalate unknown))

def eventTypes : List JsString := [js "contract", js "system", js "diagnostic"]

def validateType (index : Nat) (type : Option Json) : Except Failure (Option JsString) :=
  match type with
  | none => pure none
  | some (.string name) =>
    if eventTypes.contains name then pure (some name)
    else throw (.rpcFilterError
      (filterPath index ++ js ".type must be contract, system or diagnostic"))
  | some _ => throw (.rpcFilterError
      (filterPath index ++ js ".type must be contract, system or diagnostic"))

/-- `value ?? []`, where it is an array of at most `limit` items. -/
def list? (limit : Nat) (value : Option Json) : Option (List Json) :=
  match value with
  | none | some .null => some []
  | some (.array items) => if items.length ≤ limit then some items else none
  | some _ => none

/-- `CONTRACT_ID_RE` -/
def isContractId (id : JsString) : Bool :=
  id.length = 56 && id.head? = some 0x43 && id.tail.all fun unit =>
    (0x41 ≤ unit.toNat && unit.toNat ≤ 0x5A) || (0x32 ≤ unit.toNat && unit.toNat ≤ 0x37)

def invalidContractId (id : Json) : Except Failure JsString :=
  match stringOf id with
  | .ok text => throw (.rpcFilterError (js "invalid contract ID: " ++ text.take 64))
  | .error _ => throw .typeError

def validateContractId (id : Json) : Except Failure JsString :=
  match id with
  | .string text => if isContractId text then pure text else invalidContractId id
  | _ => invalidContractId id

def validateContractIds (index : Nat) (contractIds : Option Json) :
    Except Failure (List JsString) :=
  match list? maxContractIds contractIds with
  | some ids => ids.mapM validateContractId
  | none => throw (.rpcFilterError (filterPath index ++
      js ".contractIds allows at most " ++ decimal maxContractIds ++ js " IDs"))

/-- `value === text` -/
def isText (text : JsString) : Json → Bool
  | .string units => units = text
  | _ => false

section Validation

variable {ScVal : Type} (codec : ScValXdr ScVal) (sha256 : List UInt8 → Digest)

def validateSegment (segment : Json) : Except Failure (Option Digest) :=
  match segment with
  | .string text =>
    if text = js "*" then pure none
    else if text = js "**" then
      throw (.rpcFilterError (js "\"**\" is only allowed as the last segment"))
    else
      match topicHash codec sha256 (.base64 text) with
      | some hash => pure (some hash)
      | none => throw (.rpcFilterError
          (js "topic segment is not a base64 XDR ScVal: " ++ text.take 64))
  | _ => throw (.rpcFilterError (js "topic segments must be strings"))

/-- `filters[i].topics[j]` -/
def patternPath (index position : Nat) : JsString :=
  filterPath index ++ js ".topics[" ++ decimal position ++ js "]"

/-- A last segment `**`, and the segments before it. -/
def splitTrailing (segments : List Json) : Bool × List Json :=
  if segments.getLast?.any (isText (js "**")) then (true, segments.dropLast)
  else (false, segments)

def validatePattern (index position : Nat) (pattern : Json) : Except Failure Pattern :=
  match pattern with
  | .array (first :: others) => do
      let (trailing, fixed) := splitTrailing (first :: others)
      if fixed.length > maxSegments then
        throw (.rpcFilterError (patternPath index position ++ js " has more than " ++
          decimal maxSegments ++ js " segments"))
      let segments ← fixed.mapM (validateSegment codec sha256)
      pure ⟨trailing, segments⟩
  | _ => throw (.rpcFilterError (patternPath index position ++ js " must be a non-empty array"))

def validatePatterns (index : Nat) : List Json → Nat → Except Failure (List Pattern)
  | [], _ => pure []
  | pattern :: patterns, position => do
      let first ← validatePattern codec sha256 index position pattern
      let others ← validatePatterns index patterns (position + 1)
      pure (first :: others)

def validateTopics (index : Nat) (topics : Option Json) : Except Failure (List Pattern) :=
  match list? maxTopicPatterns topics with
  | some patterns => validatePatterns codec sha256 index patterns 0
  | none => throw (.rpcFilterError (filterPath index ++
      js ".topics allows at most " ++ decimal maxTopicPatterns ++ js " patterns"))

def validateRpcFilter (index : Nat) (filter : Json) : Except Failure RpcFilter :=
  match filter with
  | .object members => do
      checkKeys index members
      let type ← validateType index (Json.lookup members (js "type"))
      let contractIds ← validateContractIds index (Json.lookup members (js "contractIds"))
      let patterns ← validateTopics codec sha256 index (Json.lookup members (js "topics"))
      pure ⟨type, contractIds, patterns⟩
  | _ => throw (.rpcFilterError (filterPath index ++ js " must be an object"))

def validateEach : List Json → Nat → Except Failure (List RpcFilter)
  | [], _ => pure []
  | filter :: filters, index => do
      let first ← validateRpcFilter codec sha256 index filter
      let others ← validateEach filters (index + 1)
      pure (first :: others)

def noFilters : Failure :=
  .rpcFilterError (js "filters must be an array of 1.." ++ decimal maxFilters ++ js " filters")

def validateRpcFilters (filters : Json) : Except Failure (List RpcFilter) :=
  match filters with
  | .array items =>
    if items.length = 0 ∨ items.length > maxFilters then throw noFilters
    else validateEach codec sha256 items 0
  | _ => throw noFilters

end Validation

end SorobanExplorer.RpcFilters
