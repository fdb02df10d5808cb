import SorobanExplorer.RpcFilters.Filters

/-!
Owns the two ways a validated RPC filter is applied: the SQL fragment of
`compileRpcFilters` with what PostgreSQL makes of it on a row, and
`matchRpcFilters` on an event.

A fragment is kept as a tree; the placeholder `$n` is the number `n`.
-/

namespace SorobanExplorer.RpcFilters

open Library
open Library.Postgres (SqlError Truth)
open Filters (JsString js)

/-! ### Fragments -/

inductive Param where
  | texts (items : List JsString)
  | bytes (bytes : List UInt8)
deriving DecidableEq

inductive Sql where
  | constant (value : Bool)
  | contractAny (list : Nat)
  | topicEquals (index : Nat) (hash : Nat)
  | countAtLeast (count : Nat)
  | countEquals (count : Nat)
  | and (parts : List Sql)
  | or (parts : List Sql)

mutual

def Sql.text : Sql → JsString
  | .constant value => if value then js "TRUE" else js "FALSE"
  | .contractAny list => js "contract_id = ANY($" ++ decimal list ++ js "::text[])"
  | .topicEquals index hash =>
    js "topic" ++ decimal index ++ js " = $" ++ decimal hash ++ js "::bytea"
  | .countAtLeast count => js "topic_count >= " ++ decimal count
  | .countEquals count => js "topic_count = " ++ decimal count
  | .and parts => js "(" ++ (js " AND ").intercalate (Sql.texts parts) ++ js ")"
  | .or parts => js "(" ++ (js " OR ").intercalate (Sql.texts parts) ++ js ")"

def Sql.texts : List Sql → List JsString
  | [] => []
  | part :: parts => part.text :: Sql.texts parts

end

/-! ### Compilation -/

/-- `map`, where every item binds its parameters after those before it. -/
def compileEach {α : Type} (compile : α → List Param → Sql × List Param) :
    List α → List Param → List Sql × List Param
  | [], params => ([], params)
  | item :: items, params =>
    let (first, params) := compile item params
    let (others, params) := compileEach compile items params
    (first :: others, params)

/-- The conditions on the topics from `index` on. -/
def segmentConditions : List (Option Digest) → Nat → List Param → List Sql × List Param
  | [], _, params => ([], params)
  | none :: segments, index, params => segmentConditions segments (index + 1) params
  | some hash :: segments, index, params =>
    let bound := params ++ [.bytes hash.bytes]
    let (conditions, params) := segmentConditions segments (index + 1) bound
    (.topicEquals index bound.length :: conditions, params)

def Pattern.countCondition (pattern : Pattern) : Sql :=
  if pattern.trailing then .countAtLeast pattern.segments.length
  else .countEquals pattern.segments.length

def compilePattern (pattern : Pattern) (params : List Param) : Sql × List Param :=
  let (conditions, params) := segmentConditions pattern.segments 0 params
  (.and (conditions ++ [pattern.countCondition]), params)

/-- `f.type && f.type !== "contract"` -/
def RpcFilter.excluded (filter : RpcFilter) : Bool :=
  match filter.type with
  | some type => type ≠ [] && type ≠ js "contract"
  | none => false

def contractParts (contractIds : List JsString) (params : List Param) : List Sql × List Param :=
  if contractIds.isEmpty then ([], params)
  else ([.contractAny (params.length + 1)], params ++ [.texts contractIds])

def patternParts (patterns : List Pattern) (params : List Param) : List Sql × List Param :=
  if patterns.isEmpty then ([], params)
  else
    let (alternatives, params) := compileEach compilePattern patterns params
    ([.or alternatives], params)

def compileFilter (filter : RpcFilter) (params : List Param) : Sql × List Param :=
  if filter.excluded then (.constant false, params)
  else
    let (contracts, params) := contractParts filter.contractIds params
    let (patterns, params) := patternParts filter.patterns params
    let parts := contracts ++ patterns
    (if parts.isEmpty then .constant true else .and parts, params)

def compileRpcFilters (filters : List RpcFilter) (params : List Param) : Sql × List Param :=
  let (clauses, params) := compileEach compileFilter filters params
  (.or clauses, params)

example : (compileRpcFilters
    [⟨none, [[]], [⟨true, [some ⟨List.replicate 32 0, rfl⟩, none]⟩]⟩] []).1.text =
      js "((contract_id = ANY($1::text[]) AND ((topic0 = $2::bytea AND topic_count >= 2))))" := by
  decide

/-! ### Truth on a row -/

section Truth

variable (params : List Param) (row : EventRow)

def contractTruth (list : Nat) : Truth :=
  match params[list - 1]? with
  | some (.texts items) => some (items.contains row.contractId)
  -- A list of another type fails the statement: no row is selected.
  | _ => none

def topicTruth (index hash : Nat) : Truth :=
  match params[hash - 1]? with
  | some (.bytes bytes) => Postgres.strict row.topics[index]?.join fun topic => topic = bytes
  | _ => none

mutual

def Sql.truth : Sql → Truth
  | .constant value => some value
  | .contractAny list => contractTruth params row list
  | .topicEquals index hash => topicTruth params row index hash
  | .countAtLeast count => Postgres.strict row.topicCount fun topicCount => count ≤ topicCount
  | .countEquals count => Postgres.strict row.topicCount fun topicCount => topicCount = count
  | .and parts => Sql.allTruth parts
  | .or parts => Sql.anyTruth parts

def Sql.allTruth : List Sql → Truth
  | [] => some true
  | part :: parts => Truth.and part.truth (Sql.allTruth parts)

def Sql.anyTruth : List Sql → Truth
  | [] => some false
  | part :: parts => Truth.or part.truth (Sql.anyTruth parts)

end

end Truth

/-! ### Matching -/

/-- `hash === null || hashes[index] === hash.toString("hex")`, for the segments from
`index` on. -/
def segmentsMatch (hashes : List Hex) : List (Option Digest) → Nat → Bool
  | [], _ => true
  | none :: segments, index => segmentsMatch hashes segments (index + 1)
  | some hash :: segments, index =>
    hashes[index]? = some hash.hex && segmentsMatch hashes segments (index + 1)

def patternMatches (pattern : Pattern) (columns : TopicColumns) : Bool :=
  (if pattern.trailing then pattern.segments.length ≤ columns.topicCount
    else columns.topicCount = pattern.segments.length) &&
    segmentsMatch columns.topicHashes pattern.segments 0

def filterMatches (filter : RpcFilter) (event : IndexedEvent) : Bool :=
  if filter.excluded then false
  else if !filter.contractIds.isEmpty && !filter.contractIds.contains event.contractId then false
  else if filter.patterns.isEmpty then true
  else
    match event.columns with
    | some columns => filter.patterns.any fun pattern => patternMatches pattern columns
    | none => false

def matchRpcFilters (filters : List RpcFilter) (event : IndexedEvent) : Bool :=
  filters.any fun filter => filterMatches filter event

end SorobanExplorer.RpcFilters
