import SorobanExplorer.RpcFilters.Rule

/-!
Owns the agreement of the matcher, the SQL fragment and the rule on the events that
are stored with their topic columns.
-/

namespace SorobanExplorer.RpcFilters

open Library
open Library.Postgres (SqlError Truth)
open Filters (JsString js)

/-! ### Columns and rows -/

section Columns

variable {ScVal : Type} {codec : ScValXdr ScVal} {sha256 : List UInt8 → Digest}

structure TopicColumns.Carries (columns : TopicColumns) (hash : ScVal → Digest)
    (topics : List ScVal) : Prop where
  count : columns.topicCount = topics.length
  hashes : ∀ index < 4, columns.topicHashes[index]? = topics[index]?.map fun topic =>
    (hash topic).hex

structure EventRow.Carries (row : EventRow) (hash : ScVal → Digest) (contract : JsString)
    (topics : List ScVal) : Prop where
  contract : row.contractId = contract
  count : row.topicCount = some topics.length
  topics : ∀ index < 4, row.topics[index]?.join = topics[index]?.map fun topic =>
    (hash topic).bytes

theorem mapM_topicHash (topics : List ScVal) :
    (topics.map TopicValue.scVal).mapM (topicHash codec sha256) =
      some (topics.map (hashOf codec sha256)) := by
  induction topics with
  | nil => rfl
  | cons topic topics ih =>
    rw [List.map_cons, List.mapM_cons, ih]
    rfl

theorem carries_of_topicColumns {topics : List ScVal} {columns : TopicColumns}
    (known : topicColumns codec sha256 (topics.map .scVal) = some columns) :
    columns.Carries (hashOf codec sha256) topics := by
  rw [topicColumns, ← List.map_take, mapM_topicHash] at known
  cases known
  refine ⟨List.length_map _, fun index small => ?_⟩
  rw [List.map_map, List.getElem?_map, List.getElem?_take_of_lt small]
  rfl

theorem topicColumn_of_carries {columns : TopicColumns} {hash : ScVal → Digest}
    {topics : List ScVal} (carries : columns.Carries hash topics) {index : Nat}
    (small : index < 4) :
    topicColumn (some columns) index = topics[index]?.map fun topic => (hash topic).bytes := by
  rw [topicColumn, Option.bind_some, carries.hashes index small]
  cases topics[index]? with
  | none => rfl
  | some topic =>
    have decoded : Hex.decode (hash topic).hex = (hash topic).bytes := Hex.decode_encode _
    cases written : (hash topic).hex with
    | nil =>
      have length := (hash topic).length_bytes
      rw [Hex.encode_eq_nil.mp written] at length
      cases length
    | cons char rest =>
      rw [Option.map_some, Option.map_some, ← decoded, written]

theorem carries_of_upsertEvent {columns : TopicColumns} {hash : ScVal → Digest}
    {contract : JsString} {topics : List ScVal} (carries : columns.Carries hash topics)
    {row : EventRow} (stored : upsertEvent ⟨contract, some columns⟩ = .ok row) :
    row.Carries hash contract topics := by
  rw [upsertEvent, Parser.bind_eq_ok_iff] at stored
  obtain ⟨count, counted, same⟩ := stored
  cases same
  refine ⟨rfl, ?_, ?_⟩
  · rw [countColumn, smallintIn, carries.count] at counted
    split_ifs at counted
    · cases counted
      rfl
    · cases counted
  · intro index small
    rw [← topicColumn_of_carries carries small]
    interval_cases index <;> rfl

end Columns

/-! ### The matcher -/

section Matcher

variable {ScVal : Type} {hash : ScVal → Digest} {contract : JsString} {topics : List ScVal}

theorem Digest.hex_injective : Function.Injective Digest.hex := by
  rintro ⟨bytes, length⟩ ⟨others, otherLength⟩ same
  obtain rfl := Hex.encode_injective same
  rfl

theorem Digest.bytes_injective : Function.Injective Digest.bytes := by
  rintro ⟨bytes, length⟩ ⟨others, otherLength⟩ same
  obtain rfl : bytes = others := same
  rfl

theorem segmentsMatch_iff (hashes : List Hex) (segments : List (Option Digest)) (start : Nat) :
    segmentsMatch hashes segments start = true ↔
      ∀ (index : Nat) (expected : Digest), segments[index]? = some (some expected) →
        hashes[start + index]? = some expected.hex := by
  induction segments generalizing start with
  | nil => simp [segmentsMatch]
  | cons segment segments ih =>
    rw [positions_cons_iff]
    have later := ih (start + 1)
    simp only [Nat.add_assoc, Nat.add_comm 1] at later
    cases segment with
    | none => simp [segmentsMatch, later]
    | some expected => simp [segmentsMatch, later]

theorem patternMatches_iff_holds {columns : TopicColumns} (carries : columns.Carries hash topics)
    {pattern : Pattern} (short : pattern.segments.length ≤ 4) :
    patternMatches pattern columns = true ↔
      SegmentsHold hash pattern.trailing pattern.segments topics := by
  have hashes : segmentsMatch columns.topicHashes pattern.segments 0 = true ↔
      ∀ (index : Nat) (expected : Digest), pattern.segments[index]? = some (some expected) →
        topics[index]?.map hash = some expected := by
    rw [segmentsMatch_iff]
    refine forall₂_congr fun index expected => imp_congr_right fun known => ?_
    have small : index < 4 := Nat.lt_of_lt_of_le (List.getElem?_eq_some_iff.mp known).1 short
    rw [Nat.zero_add, carries.hashes index small]
    cases topics[index]? with
    | none => simp
    | some topic => simp [Digest.hex_injective.eq_iff]
  rw [segmentsHold_iff, patternMatches, Bool.and_eq_true, hashes, carries.count]
  cases pattern.trailing <;> simp

theorem filterMatches_eq (filter : RpcFilter) (columns : TopicColumns) :
    filterMatches filter ⟨contract, some columns⟩ =
      (!filter.excluded && (filter.contractIds.isEmpty || filter.contractIds.contains contract) &&
        (filter.patterns.isEmpty ||
          filter.patterns.any fun pattern => patternMatches pattern columns)) := by
  simp only [filterMatches]
  cases filter.excluded <;> cases filter.contractIds.isEmpty <;>
    cases filter.contractIds.contains contract <;> cases filter.patterns.isEmpty <;> simp

theorem filterMatches_iff_holds {columns : TopicColumns} (carries : columns.Carries hash topics)
    {filter : RpcFilter} (short : ∀ pattern ∈ filter.patterns, pattern.segments.length ≤ 4) :
    filterMatches filter ⟨contract, some columns⟩ = true ↔ filter.Holds hash contract topics := by
  have patterns : (filter.patterns.any fun pattern => patternMatches pattern columns) = true ↔
      ∃ pattern ∈ filter.patterns, SegmentsHold hash pattern.trailing pattern.segments topics := by
    rw [List.any_eq_true]
    exact exists_congr fun pattern => and_congr_right fun member =>
      patternMatches_iff_holds carries (short pattern member)
  rw [filterMatches_eq, Bool.and_eq_true, Bool.and_eq_true, Bool.or_eq_true, Bool.or_eq_true,
    patterns, Bool.not_eq_true', List.isEmpty_iff, List.isEmpty_iff, List.contains_iff_mem]
  constructor
  · rintro ⟨⟨included, contracts⟩, holds⟩
    exact ⟨included, contracts, holds⟩
  · intro holds
    exact ⟨⟨holds.included, holds.contractIds⟩, holds.patterns⟩

theorem matchRpcFilters_iff {columns : TopicColumns} (carries : columns.Carries hash topics)
    {filters : List RpcFilter}
    (short : ∀ filter ∈ filters, ∀ pattern ∈ filter.patterns, pattern.segments.length ≤ 4) :
    matchRpcFilters filters ⟨contract, some columns⟩ = true ↔
      ∃ filter ∈ filters, filter.Holds hash contract topics := by
  rw [matchRpcFilters, List.any_eq_true]
  exact exists_congr fun filter => and_congr_right fun member =>
    filterMatches_iff_holds carries (short filter member)

end Matcher

/-! ### The fragment -/

section Fragment

variable {ScVal : Type} {hash : ScVal → Digest} {contract : JsString} {topics : List ScVal}
  {row : EventRow}

/-- What is compiled after some parameters keeps them, and is true on the row exactly
when `holds`, whatever is bound later. -/
def Decides (row : EventRow) (params : List Param) (compiled : Sql × List Param) (holds : Prop) :
    Prop :=
  ∃ extra, compiled.2 = params ++ extra ∧
    ∀ later, compiled.1.truth (compiled.2 ++ later) row = some true ↔ holds

theorem strict_eq_iff {α : Type} [DecidableEq α] {operand : Option α} {expected : α} :
    Postgres.strict operand (fun value => value = expected) = some true ↔
      operand = some expected := by
  rw [Postgres.strict_eq_true]
  simp

theorem topicTruth_bound (params later : List Param) (index : Nat) (expected : Digest) :
    topicTruth (params ++ .bytes expected.bytes :: later) row index (params.length + 1) =
        some true ↔ row.topics[index]?.join = some expected.bytes := by
  have bound : (params ++ Param.bytes expected.bytes :: later)[params.length + 1 - 1]? =
      some (.bytes expected.bytes) := by simp
  rw [topicTruth, bound, strict_eq_iff]

theorem segmentConditions_decides (segments : List (Option Digest)) (start : Nat)
    (params : List Param) :
    ∃ extra, (segmentConditions segments start params).2 = params ++ extra ∧
      ∀ later, Sql.allTruth ((segmentConditions segments start params).2 ++ later) row
          (segmentConditions segments start params).1 = some true ↔
        ∀ (index : Nat) (expected : Digest), segments[index]? = some (some expected) →
          row.topics[start + index]?.join = some expected.bytes := by
  induction segments generalizing start params with
  | nil => exact ⟨[], (List.append_nil _).symm, fun later => by simp [segmentConditions, Sql.allTruth]⟩
  | cons segment segments ih =>
    cases segment with
    | none =>
      obtain ⟨extra, kept, decides⟩ := ih (start + 1) params
      refine ⟨extra, kept, fun later => ?_⟩
      rw [segmentConditions, decides, positions_cons_iff]
      simp [Nat.add_assoc, Nat.add_comm 1]
    | some expected =>
      obtain ⟨extra, kept, decides⟩ :=
        ih (start + 1) (params ++ [.bytes expected.bytes])
      refine ⟨.bytes expected.bytes :: extra, by simp [segmentConditions, kept], fun later => ?_⟩
      have bound : (segmentConditions segments (start + 1)
          (params ++ [.bytes expected.bytes])).2 ++ later =
            params ++ .bytes expected.bytes :: (extra ++ later) := by simp [kept]
      rw [positions_cons_iff]
      simp only [segmentConditions, Sql.allTruth, Sql.truth]
      rw [Postgres.Truth.and_eq_true, decides, bound, List.length_append, List.length_singleton,
        topicTruth_bound]
      simp [Nat.add_assoc, Nat.add_comm 1]

theorem countCondition_iff (carries : row.Carries hash contract topics) (params : List Param)
    (pattern : Pattern) : pattern.countCondition.truth params row = some true ↔
      if pattern.trailing then pattern.segments.length ≤ topics.length
      else topics.length = pattern.segments.length := by
  rw [Pattern.countCondition]
  cases pattern.trailing with
  | true => simp [Sql.truth, carries.count, Postgres.strict]
  | false => simp [Sql.truth, carries.count, Postgres.strict]

theorem allTruth_append (params : List Param) (parts others : List Sql) :
    Sql.allTruth params row (parts ++ others) = some true ↔
      Sql.allTruth params row parts = some true ∧ Sql.allTruth params row others = some true := by
  induction parts with
  | nil => simp [Sql.allTruth]
  | cons part parts ih =>
    rw [List.cons_append, Sql.allTruth, Sql.allTruth, Postgres.Truth.and_eq_true,
      Postgres.Truth.and_eq_true, ih, and_assoc]

theorem allTruth_singleton (params : List Param) (part : Sql) :
    Sql.allTruth params row [part] = some true ↔ part.truth params row = some true := by
  rw [Sql.allTruth, Sql.allTruth, Postgres.Truth.and_eq_true, and_iff_left rfl]

theorem compilePattern_decides (carries : row.Carries hash contract topics) {pattern : Pattern}
    (short : pattern.segments.length ≤ 4) (params : List Param) :
    Decides row params (compilePattern pattern params)
      (SegmentsHold hash pattern.trailing pattern.segments topics) := by
  obtain ⟨extra, kept, decides⟩ := @segmentConditions_decides row pattern.segments 0 params
  refine ⟨extra, kept, fun later => ?_⟩
  have hashes : (∀ (index : Nat) (expected : Digest),
      pattern.segments[index]? = some (some expected) →
        row.topics[0 + index]?.join = some expected.bytes) ↔
      ∀ (index : Nat) (expected : Digest), pattern.segments[index]? = some (some expected) →
        topics[index]?.map hash = some expected := by
    refine forall₂_congr fun index expected => imp_congr_right fun known => ?_
    have small : index < 4 := Nat.lt_of_lt_of_le (List.getElem?_eq_some_iff.mp known).1 short
    rw [Nat.zero_add, carries.topics index small]
    cases topics[index]? with
    | none => simp
    | some topic => simp [Digest.bytes_injective.eq_iff]
  rw [segmentsHold_iff, ← hashes, ← decides later, compilePattern, Sql.truth, allTruth_append,
    allTruth_singleton, countCondition_iff carries, and_comm]

theorem compileEach_decides {α : Type} {compile : α → List Param → Sql × List Param}
    {holds : α → Prop} {items : List α}
    (each : ∀ item ∈ items, ∀ params, Decides row params (compile item params) (holds item))
    (params : List Param) :
    ∃ extra, (compileEach compile items params).2 = params ++ extra ∧
      ∀ later, Sql.anyTruth ((compileEach compile items params).2 ++ later) row
        (compileEach compile items params).1 = some true ↔ ∃ item ∈ items, holds item := by
  induction items generalizing params with
  | nil => exact ⟨[], (List.append_nil _).symm, fun later => by simp [compileEach, Sql.anyTruth]⟩
  | cons item items ih =>
    obtain ⟨extra, kept, decides⟩ := each item List.mem_cons_self params
    obtain ⟨more, keptMore, decidesMore⟩ := ih
      (fun other member => each other (List.mem_cons_of_mem _ member)) (compile item params).2
    refine ⟨extra ++ more, ?_, fun later => ?_⟩
    · simp only [compileEach]
      rw [keptMore, kept, List.append_assoc]
    · have first := decides (more ++ later)
      rw [← List.append_assoc, ← keptMore] at first
      simp only [compileEach, Sql.anyTruth]
      rw [Postgres.Truth.or_eq_true, first, decidesMore, List.exists_mem_cons_iff]

/-- Parts that are joined with `AND`. -/
def AllDecide (row : EventRow) (params : List Param) (compiled : List Sql × List Param)
    (holds : Prop) : Prop :=
  ∃ extra, compiled.2 = params ++ extra ∧
    ∀ later, Sql.allTruth (compiled.2 ++ later) row compiled.1 = some true ↔ holds

theorem contractParts_decide (carries : row.Carries hash contract topics)
    (contractIds : List JsString) (params : List Param) :
    AllDecide row params (contractParts contractIds params)
      (contractIds = [] ∨ contract ∈ contractIds) := by
  rw [contractParts]
  split_ifs with empty
  · exact ⟨[], (List.append_nil _).symm,
      fun later => iff_of_true rfl (Or.inl (List.isEmpty_iff.mp empty))⟩
  · refine ⟨[.texts contractIds], rfl, fun later => ?_⟩
    have bound : (params ++ [Param.texts contractIds] ++ later)[params.length + 1 - 1]? =
        some (.texts contractIds) := by simp
    rw [allTruth_singleton, Sql.truth, contractTruth, bound, carries.contract]
    simp [List.isEmpty_iff.not.mp empty]

theorem patternParts_decide (carries : row.Carries hash contract topics)
    {patterns : List Pattern} (short : ∀ pattern ∈ patterns, pattern.segments.length ≤ 4)
    (params : List Param) :
    AllDecide row params (patternParts patterns params)
      (patterns = [] ∨
        ∃ pattern ∈ patterns, SegmentsHold hash pattern.trailing pattern.segments topics) := by
  rw [patternParts]
  split_ifs with empty
  · exact ⟨[], (List.append_nil _).symm,
      fun later => iff_of_true rfl (Or.inl (List.isEmpty_iff.mp empty))⟩
  · obtain ⟨extra, kept, decides⟩ := compileEach_decides
      (fun pattern member => compilePattern_decides carries (short pattern member)) params
    refine ⟨extra, kept, fun later => ?_⟩
    rw [allTruth_singleton, Sql.truth, decides,
      or_iff_right (fun none => empty (List.isEmpty_iff.mpr none))]

theorem joined_truth (params : List Param) (parts : List Sql) :
    (if parts.isEmpty then Sql.constant true else .and parts).truth params row = some true ↔
      Sql.allTruth params row parts = some true := by
  cases parts with
  | nil => exact iff_of_true rfl rfl
  | cons part parts => exact Iff.rfl

theorem compileFilter_decides (carries : row.Carries hash contract topics) {filter : RpcFilter}
    (short : ∀ pattern ∈ filter.patterns, pattern.segments.length ≤ 4) (params : List Param) :
    Decides row params (compileFilter filter params) (filter.Holds hash contract topics) := by
  rw [compileFilter]
  split_ifs with excluded
  · exact ⟨[], (List.append_nil _).symm, fun later => iff_of_false (by simp [Sql.truth])
      fun holds => by simp [holds.included] at excluded⟩
  · obtain ⟨extra, kept, contracts⟩ := contractParts_decide carries filter.contractIds params
    obtain ⟨more, keptMore, patterns⟩ :=
      patternParts_decide carries short (contractParts filter.contractIds params).2
    refine ⟨extra ++ more, by rw [← List.append_assoc, ← kept]; exact keptMore, fun later => ?_⟩
    have first := contracts (more ++ later)
    rw [← List.append_assoc, ← keptMore] at first
    rw [joined_truth, allTruth_append, first, patterns]
    constructor
    · rintro ⟨contractIds, holds⟩
      exact ⟨Bool.eq_false_of_not_eq_true excluded, contractIds, holds⟩
    · intro holds
      exact ⟨holds.contractIds, holds.patterns⟩

theorem compileRpcFilters_decides (carries : row.Carries hash contract topics)
    {filters : List RpcFilter}
    (short : ∀ filter ∈ filters, ∀ pattern ∈ filter.patterns, pattern.segments.length ≤ 4)
    (params : List Param) :
    Decides row params (compileRpcFilters filters params)
      (∃ filter ∈ filters, filter.Holds hash contract topics) := by
  obtain ⟨extra, kept, decides⟩ := compileEach_decides
    (fun filter member => compileFilter_decides carries (short filter member)) params
  exact ⟨extra, kept, decides⟩

end Fragment

/-! ### Agreement -/

section Agreement

variable {ScVal : Type} {codec : ScValXdr ScVal} {sha256 : List UInt8 → Digest}

theorem short_of_accepted {input : Json} {filters : List RpcFilter}
    (accepted : validateRpcFilters codec sha256 input = .ok filters) :
    ∀ filter ∈ filters, ∀ pattern ∈ filter.patterns, pattern.segments.length ≤ 4 := by
  intro filter member pattern inside
  obtain ⟨json, valid⟩ := exists_left_of_forall₂ (validFilters_of_accepted accepted) member
  obtain ⟨written, own⟩ := exists_left_of_forall₂ valid.patterns inside
  exact own.short

/-- On an event that is stored with its topic columns, the matcher, the fragment and the
rule agree. -/
theorem rpcFilters_agree {input : Json} {filters : List RpcFilter}
    (accepted : validateRpcFilters codec sha256 input = .ok filters) {contract : JsString}
    {topics : List ScVal} (distinct : Distinct codec sha256 input topics) {columns : TopicColumns}
    (hashed : topicColumns codec sha256 (topics.map .scVal) = some columns) {row : EventRow}
    (stored : upsertEvent ⟨contract, some columns⟩ = .ok row) (params : List Param) :
    (matchRpcFilters filters ⟨contract, some columns⟩ = true ↔
        Matches codec input contract topics) ∧
      ((compileRpcFilters filters params).1.truth (compileRpcFilters filters params).2 row =
          some true ↔ Matches codec input contract topics) := by
  have short := short_of_accepted accepted
  have carries := carries_of_topicColumns hashed
  have rowCarries := carries_of_upsertEvent carries stored
  rw [matches_iff accepted distinct]
  obtain ⟨extra, -, decides⟩ := compileRpcFilters_decides rowCarries short params
  have now := decides []
  rw [List.append_nil] at now
  exact ⟨matchRpcFilters_iff carries short, now⟩

/-! ### An event with two boolean topics -/

/-- `scvBool` -/
def booleanXdr (value : Bool) : List UInt8 := [0, 0, 0, 0, 0, 0, 0, if value then 1 else 0]

def booleanCodec : ScValXdr Bool where
  base64 text := booleanXdr (text = js "AAAAAAAAAAE=")
  fromXdr bytes :=
    if bytes = booleanXdr true then some true
    else if bytes = booleanXdr false then some false
    else none
  toXdr := booleanXdr
  fromXdr_toXdr := by decide

def booleanSha256 (bytes : List UInt8) : Digest where
  bytes :=
    if bytes = booleanXdr true then
      [205, 38, 98, 21, 78, 109, 118, 178, 178, 185, 46, 112, 192, 202, 195, 204, 245, 52, 249, 183,
        78, 181, 184, 152, 25, 236, 80, 144, 131, 208, 10, 80]
    else
      [175, 85, 112, 245, 161, 129, 11, 122, 247, 140, 175, 75, 199, 10, 102, 15, 13, 245, 30, 66,
        186, 249, 29, 77, 229, 178, 50, 141, 224, 232, 61, 252]
  length_bytes := by split_ifs <;> rfl

def contractA : JsString := js "CAAAAAAAAAAAAAAAAAAAAAAAAAAAAAAAAAAAAAAAAAAAAAAAAAAAAAAA"

/-- The events of a contract whose first topic is `true`, and have at least one more. -/
def trueTopicFilter : Json :=
  .array [.object [(js "contractIds", .array [.string contractA]),
    (js "topics", .array [.array [.string (js "AAAAAAAAAAE="), .string (js "*"),
      .string (js "**")]])]]

theorem trueTopicFilter_agrees : ∃ filters columns row,
    validateRpcFilters booleanCodec booleanSha256 trueTopicFilter = .ok filters ∧
      topicColumns booleanCodec booleanSha256 ([true, false].map .scVal) = some columns ∧
        upsertEvent ⟨contractA, some columns⟩ = .ok row ∧
          (matchRpcFilters filters ⟨contractA, some columns⟩ = true ↔
            Matches booleanCodec trueTopicFilter contractA [true, false]) ∧
              ((compileRpcFilters filters []).1.truth (compileRpcFilters filters []).2 row =
                some true ↔ Matches booleanCodec trueTopicFilter contractA [true, false]) := by
  have told : ∀ value topic, booleanSha256 (booleanXdr value) = booleanSha256 (booleanXdr topic) →
      booleanXdr value = booleanXdr topic := by decide
  have distinct : Distinct booleanCodec booleanSha256 trueTopicFilter [true, false] :=
    fun text member value encodes topic inside => told value topic
  have accepted : validateRpcFilters booleanCodec booleanSha256 trueTopicFilter =
      .ok [⟨none, [contractA], [⟨true, [some (booleanSha256 (booleanXdr true)), none]⟩]⟩] := rfl
  exact ⟨_, _, _, accepted, rfl, rfl, rpcFilters_agree accepted distinct rfl rfl []⟩

end Agreement

end SorobanExplorer.RpcFilters
