import SorobanExplorer.RpcFilters.Matching

/-!
Owns the rule of Soroban RPC for a `filters` array as a client sends it, and what a
validated array keeps of the rule: the hashes at the positions of a topic list.
-/

namespace SorobanExplorer.RpcFilters

open Library
open Library.Postgres (SqlError Truth)
open Filters (JsString js)

/-! ### The rule -/

def property? (key : JsString) : Json → Option Json
  | .object members => Json.lookup members key
  | _ => none

def elements : Option Json → List Json
  | some (.array items) => items
  | _ => []

def string? : Json → Option JsString
  | .string text => some text
  | _ => none

/-- The topic segments of a `filters` array. -/
def segmentTexts (input : Json) : List JsString :=
  (elements (some input)).flatMap fun filter =>
    (elements (property? (js "topics") filter)).flatMap fun pattern =>
      (elements (some pattern)).filterMap string?

section Rule

variable {ScVal : Type} (codec : ScValXdr ScVal)

/-- `"*"` matches one topic, a final `"**"` any number of them, and any other segment
the topic it encodes. -/
inductive PatternMatches : List Json → List ScVal → Prop where
  | done : PatternMatches [] []
  | rest (topics : List ScVal) : PatternMatches [.string (js "**")] topics
  | any {segments : List Json} {topics : List ScVal} (topic : ScVal)
      (later : PatternMatches segments topics) :
      PatternMatches (.string (js "*") :: segments) (topic :: topics)
  | exact {segments : List Json} {topics : List ScVal} {text : JsString} {topic : ScVal}
      (single : text ≠ js "*") (rest : text ≠ js "**") (encodes : codec.fromBase64 text = some topic)
      (later : PatternMatches segments topics) :
      PatternMatches (.string text :: segments) (topic :: topics)

structure FilterMatches (filter : Json) (contract : JsString) (topics : List ScVal) : Prop where
  type : property? (js "type") filter = none ∨
    property? (js "type") filter = some (.string (js "contract"))
  contractIds : elements (property? (js "contractIds") filter) = [] ∨
    .string contract ∈ elements (property? (js "contractIds") filter)
  topics : elements (property? (js "topics") filter) = [] ∨
    ∃ pattern ∈ elements (property? (js "topics") filter),
      PatternMatches codec (elements (some pattern)) topics

def Matches (input : Json) (contract : JsString) (topics : List ScVal) : Prop :=
  ∃ filter ∈ elements (some input), FilterMatches codec filter contract topics

variable (sha256 : List UInt8 → Digest)

def Distinct (input : Json) (topics : List ScVal) : Prop :=
  ∀ text ∈ segmentTexts input, ∀ value, codec.fromBase64 text = some value →
    ∀ topic ∈ topics, sha256 (codec.toXdr value) = sha256 (codec.toXdr topic) →
      codec.toXdr value = codec.toXdr topic

end Rule

/-! ### Validated filters -/

section Holds

variable {ScVal : Type} (hash : ScVal → Digest)

def SegmentsHold (trailing : Bool) : List (Option Digest) → List ScVal → Prop
  | [], topics => trailing = true ∨ topics = []
  | _ :: _, [] => False
  | segment :: segments, topic :: topics =>
    (∀ expected, segment = some expected → hash topic = expected) ∧
      SegmentsHold trailing segments topics

structure RpcFilter.Holds (filter : RpcFilter) (contract : JsString) (topics : List ScVal) :
    Prop where
  included : filter.excluded = false
  contractIds : filter.contractIds = [] ∨ contract ∈ filter.contractIds
  patterns : filter.patterns = [] ∨
    ∃ pattern ∈ filter.patterns, SegmentsHold hash pattern.trailing pattern.segments topics

theorem positions_cons_iff {segment : Option Digest} {segments : List (Option Digest)}
    {holds : Nat → Digest → Prop} :
    (∀ (index : Nat) (expected : Digest),
        (segment :: segments)[index]? = some (some expected) → holds index expected) ↔
      (∀ expected, segment = some expected → holds 0 expected) ∧
        ∀ (index : Nat) (expected : Digest), segments[index]? = some (some expected) →
          holds (index + 1) expected := by
  constructor
  · intro all
    constructor
    · intro expected known
      exact all 0 expected (by rw [known]; rfl)
    · intro index expected known
      exact all (index + 1) expected (by rwa [List.getElem?_cons_succ])
  · rintro ⟨first, later⟩ index expected known
    cases index with
    | zero => exact first expected (by simpa using known)
    | succ index => exact later index expected (by simpa using known)

theorem segmentsHold_iff (trailing : Bool) (segments : List (Option Digest))
    (topics : List ScVal) : SegmentsHold hash trailing segments topics ↔
      (if trailing then segments.length ≤ topics.length else topics.length = segments.length) ∧
        ∀ (index : Nat) (expected : Digest), segments[index]? = some (some expected) →
          topics[index]?.map hash = some expected := by
  induction segments generalizing topics with
  | nil => cases trailing <;> simp [SegmentsHold]
  | cons segment segments ih =>
    cases topics with
    | nil => cases trailing <;> simp [SegmentsHold]
    | cons topic topics =>
      rw [SegmentsHold, ih, positions_cons_iff]
      cases trailing <;> simp [and_left_comm]

end Holds

/-! ### The rule of a validated filter -/

section Validated

variable {ScVal : Type} {codec : ScValXdr ScVal} {sha256 : List UInt8 → Digest}

def hashOf (codec : ScValXdr ScVal) (sha256 : List UInt8 → Digest) (value : ScVal) : Digest :=
  sha256 (codec.toXdr value)

inductive Segment (codec : ScValXdr ScVal) (sha256 : List UInt8 → Digest) :
    Json → Option Digest → Prop where
  | any : Segment codec sha256 (.string (js "*")) none
  | exact {text : JsString} {value : ScVal} (single : text ≠ js "*") (rest : text ≠ js "**")
      (encodes : codec.fromBase64 text = some value) :
      Segment codec sha256 (.string text) (some (hashOf codec sha256 value))

theorem segment_of_valid {segment : Json} {hash : Option Digest}
    (valid : validateSegment codec sha256 segment = .ok hash) :
    Segment codec sha256 segment hash := by
  cases segment with
  | null | boolean value | number numeral | array items | object members => cases valid
  | string text =>
    simp only [validateSegment, topicHash] at valid
    split_ifs at valid with single rest
    · cases valid
      exact single ▸ .any
    · cases decoded : codec.fromBase64 text with
      | none =>
        rw [decoded] at valid
        cases valid
      | some value =>
        rw [decoded] at valid
        cases valid
        exact .exact single rest decoded

theorem segments_of_valid {fixed : List Json} {segments : List (Option Digest)}
    (valid : fixed.mapM (validateSegment codec sha256) = .ok segments) :
    List.Forall₂ (Segment codec sha256) fixed segments := by
  induction fixed generalizing segments with
  | nil =>
    cases valid
    exact .nil
  | cons segment fixed ih =>
    rw [List.mapM_cons, Parser.bind_eq_ok_iff] at valid
    obtain ⟨first, firstValid, rest⟩ := valid
    obtain ⟨others, othersValid, same⟩ := Parser.bind_eq_ok_iff.mp rest
    cases same
    exact .cons (segment_of_valid firstValid) (ih othersValid)

def ending (trailing : Bool) : List Json := if trailing then [.string (js "**")] else []

theorem patternMatches_cons_iff {segment : Json} (notRest : segment ≠ .string (js "**"))
    {segments : List Json} {topics : List ScVal} :
    PatternMatches codec (segment :: segments) topics ↔
      ∃ topic later, topics = topic :: later ∧ PatternMatches codec segments later ∧
        (segment = .string (js "*") ∨ ∃ text, segment = .string text ∧ text ≠ js "*" ∧
          codec.fromBase64 text = some topic) := by
  constructor
  · intro matched
    cases matched with
    | rest => exact absurd rfl notRest
    | any topic later => exact ⟨topic, _, rfl, later, Or.inl rfl⟩
    | exact single _ encodes later =>
      exact ⟨_, _, rfl, later, Or.inr ⟨_, rfl, single, encodes⟩⟩
  · rintro ⟨topic, later, rfl, matched, rfl | ⟨text, rfl, single, encodes⟩⟩
    · exact .any topic matched
    · exact .exact single (fun same => notRest (congrArg Json.string same)) encodes matched

theorem Segment.matches_iff {segment : Json} {hash : Option Digest}
    (valid : Segment codec sha256 segment hash) {topic : ScVal}
    (distinct : ∀ text, Json.string text = segment → ∀ value, codec.fromBase64 text = some value →
      hashOf codec sha256 value = hashOf codec sha256 topic → value = topic) :
    (segment = .string (js "*") ∨ ∃ text, segment = .string text ∧ text ≠ js "*" ∧
      codec.fromBase64 text = some topic) ↔
        ∀ expected, hash = some expected → hashOf codec sha256 topic = expected := by
  cases valid with
  | any => exact iff_of_true (Or.inl rfl) nofun
  | @exact text value single rest encodes =>
    constructor
    · rintro (same | ⟨other, same, -, found⟩) expected known
      · exact absurd (Json.string.inj same) single
      · cases same
        rw [encodes] at found
        cases found
        exact Option.some.inj known
    · intro all
      have equal := distinct text rfl value encodes (all _ rfl).symm
      exact Or.inr ⟨text, rfl, single, equal ▸ encodes⟩

theorem Segment.ne_rest {segment : Json} {hash : Option Digest}
    (valid : Segment codec sha256 segment hash) : segment ≠ .string (js "**") := by
  cases valid with
  | any => exact fun same => absurd (Json.string.inj same) (by decide)
  | exact single rest encodes => exact fun same => rest (Json.string.inj same)

theorem patternMatches_iff {fixed : List Json} {segments : List (Option Digest)}
    (valid : List.Forall₂ (Segment codec sha256) fixed segments) (trailing : Bool)
    {topics : List ScVal}
    (distinct : ∀ text, Json.string text ∈ fixed → ∀ value, codec.fromBase64 text = some value →
      ∀ topic ∈ topics, hashOf codec sha256 value = hashOf codec sha256 topic → value = topic) :
    PatternMatches codec (fixed ++ ending trailing) topics ↔
      SegmentsHold (hashOf codec sha256) trailing segments topics := by
  induction valid generalizing topics with
  | nil =>
    cases trailing with
    | true => exact iff_of_true (.rest topics) (Or.inl rfl)
    | false =>
      rw [SegmentsHold, or_iff_right Bool.false_ne_true]
      constructor
      · intro matched
        cases matched
        rfl
      · rintro rfl
        exact .done
  | @cons segment hash fixed segments own others ih =>
    rw [List.cons_append, patternMatches_cons_iff own.ne_rest]
    cases topics with
    | nil =>
      refine iff_of_false ?_ id
      rintro ⟨topic, later, split, -⟩
      cases split
    | cons topic topics =>
      have later := @ih topics fun text member value encodes other inside =>
        distinct text (List.mem_cons_of_mem _ member) value encodes other
          (List.mem_cons_of_mem _ inside)
      have first := @Segment.matches_iff _ _ _ _ _ own topic fun text same value encodes =>
        distinct text (same ▸ List.mem_cons_self) value encodes topic List.mem_cons_self
      rw [SegmentsHold, ← later, ← first]
      constructor
      · rintro ⟨_, _, split, matched, known⟩
        cases split
        exact ⟨known, matched⟩
      · rintro ⟨known, matched⟩
        exact ⟨topic, topics, rfl, matched, known⟩

theorem isText_iff {text : JsString} {value : Json} :
    isText text value = true ↔ value = .string text := by
  cases value with
  | string units => simp [isText]
  | null | boolean _ | number _ | array _ | object _ => simp [isText]

theorem splitTrailing_eq (segments : List Json) :
    segments = (splitTrailing segments).2 ++ ending (splitTrailing segments).1 := by
  rw [splitTrailing]
  split_ifs with last
  · obtain ⟨segment, known, isRest⟩ := (Option.any_eq_true _ _).mp last
    obtain rfl := isText_iff.mp isRest
    exact (List.dropLast_append_getLast? _ known).symm
  · exact (List.append_nil segments).symm

structure ValidPattern (codec : ScValXdr ScVal) (sha256 : List UInt8 → Digest) (json : Json)
    (pattern : Pattern) : Prop where
  written : ∃ fixed, elements (some json) = fixed ++ ending pattern.trailing ∧
    List.Forall₂ (Segment codec sha256) fixed pattern.segments
  short : pattern.segments.length ≤ 4

theorem validPattern_of_valid {index position : Nat} {json : Json} {pattern : Pattern}
    (valid : validatePattern codec sha256 index position json = .ok pattern) :
    ValidPattern codec sha256 json pattern := by
  match json with
  | .null | .boolean _ | .number _ | .string _ | .object _ | .array [] => cases valid
  | .array (first :: others) =>
    simp only [validatePattern] at valid
    split_ifs at valid with long
    · cases valid
    · obtain ⟨segments, segmentsValid, same⟩ := Parser.bind_eq_ok_iff.mp valid
      cases same
      have written := segments_of_valid segmentsValid
      refine ⟨⟨_, splitTrailing_eq _, written⟩, ?_⟩
      rw [← written.length_eq]
      exact Nat.le_of_not_lt long

theorem validPatterns_of_valid {index : Nat} {patterns : List Json} {position : Nat}
    {result : List Pattern}
    (valid : validatePatterns codec sha256 index patterns position = .ok result) :
    List.Forall₂ (ValidPattern codec sha256) patterns result := by
  induction patterns generalizing position result with
  | nil =>
    cases valid
    exact .nil
  | cons json patterns ih =>
    rw [validatePatterns, Parser.bind_eq_ok_iff] at valid
    obtain ⟨first, firstValid, rest⟩ := valid
    obtain ⟨others, othersValid, same⟩ := Parser.bind_eq_ok_iff.mp rest
    cases same
    exact .cons (validPattern_of_valid firstValid) (ih othersValid)

structure ValidFilter (codec : ScValXdr ScVal) (sha256 : List UInt8 → Digest) (json : Json)
    (filter : RpcFilter) : Prop where
  type : (property? (js "type") json = none ∨
    property? (js "type") json = some (.string (js "contract"))) ↔ filter.excluded = false
  contractIds : elements (property? (js "contractIds") json) = filter.contractIds.map .string
  patterns : List.Forall₂ (ValidPattern codec sha256) (elements (property? (js "topics") json))
    filter.patterns

theorem elements_of_list? {limit : Nat} {value : Option Json} {items : List Json}
    (known : list? limit value = some items) : elements value = items := by
  match value with
  | none | some .null =>
    cases known
    rfl
  | some (.array given) =>
    rw [list?] at known
    split_ifs at known
    exact Option.some.inj known
  | some (.boolean _) | some (.number _) | some (.string _) | some (.object _) => cases known

theorem excluded_of_valid {index : Nat} {type : Option Json} {result : Option JsString}
    (valid : validateType index type = .ok result) (contractIds : List JsString)
    (patterns : List Pattern) : (type = none ∨ type = some (.string (js "contract"))) ↔
      RpcFilter.excluded ⟨result, contractIds, patterns⟩ = false := by
  match type with
  | none =>
    cases valid
    exact iff_of_true (Or.inl rfl) rfl
  | some (.string name) =>
    rw [validateType] at valid
    split_ifs at valid with known
    cases valid
    have nonempty : name ≠ [] := by
      rintro rfl
      exact absurd known (by decide)
    simp [RpcFilter.excluded, nonempty]
  | some .null | some (.boolean _) | some (.number _) | some (.array _) | some (.object _) =>
    cases valid

theorem contractIds_of_valid {ids : List Json} {result : List JsString}
    (valid : ids.mapM validateContractId = .ok result) : ids = result.map .string := by
  induction ids generalizing result with
  | nil =>
    cases valid
    rfl
  | cons id ids ih =>
    rw [List.mapM_cons, Parser.bind_eq_ok_iff] at valid
    obtain ⟨first, firstValid, rest⟩ := valid
    obtain ⟨others, othersValid, same⟩ := Parser.bind_eq_ok_iff.mp rest
    cases same
    rw [List.map_cons, ih othersValid]
    congr 1
    have noValid : invalidContractId id ≠ .ok first := by
      rw [invalidContractId]
      cases Filters.stringOf id with
      | ok text => nofun
      | error thrown => nofun
    cases id with
    | string text =>
      rw [validateContractId] at firstValid
      split_ifs at firstValid
      · cases firstValid
        rfl
      · exact absurd firstValid noValid
    | null | boolean _ | number _ | array _ | object _ => exact absurd firstValid noValid

theorem validFilter_of_valid {index : Nat} {json : Json} {filter : RpcFilter}
    (valid : validateRpcFilter codec sha256 index json = .ok filter) :
    ValidFilter codec sha256 json filter := by
  match json with
  | .null | .boolean _ | .number _ | .string _ | .array _ => cases valid
  | .object members =>
    rw [validateRpcFilter, Parser.bind_eq_ok_iff] at valid
    obtain ⟨-, -, afterKeys⟩ := valid
    obtain ⟨type, typeValid, afterType⟩ := Parser.bind_eq_ok_iff.mp afterKeys
    obtain ⟨ids, idsValid, afterIds⟩ := Parser.bind_eq_ok_iff.mp afterType
    obtain ⟨patterns, patternsValid, same⟩ := Parser.bind_eq_ok_iff.mp afterIds
    cases same
    refine ⟨excluded_of_valid typeValid ids patterns, ?_, ?_⟩
    · rw [validateContractIds] at idsValid
      cases listed : list? maxContractIds (Json.lookup members (js "contractIds")) with
      | none =>
        rw [listed] at idsValid
        cases idsValid
      | some items =>
        rw [listed] at idsValid
        exact (elements_of_list? listed).trans (contractIds_of_valid idsValid)
    · rw [validateTopics] at patternsValid
      cases listed : list? maxTopicPatterns (Json.lookup members (js "topics")) with
      | none =>
        rw [listed] at patternsValid
        cases patternsValid
      | some items =>
        rw [listed] at patternsValid
        rw [property?, elements_of_list? listed]
        exact validPatterns_of_valid patternsValid

theorem validFilters_of_valid {items : List Json} {index : Nat} {filters : List RpcFilter}
    (valid : validateEach codec sha256 items index = .ok filters) :
    List.Forall₂ (ValidFilter codec sha256) items filters := by
  induction items generalizing index filters with
  | nil =>
    cases valid
    exact .nil
  | cons json items ih =>
    rw [validateEach, Parser.bind_eq_ok_iff] at valid
    obtain ⟨first, firstValid, rest⟩ := valid
    obtain ⟨others, othersValid, same⟩ := Parser.bind_eq_ok_iff.mp rest
    cases same
    exact .cons (validFilter_of_valid firstValid) (ih othersValid)

theorem validFilters_of_accepted {input : Json} {filters : List RpcFilter}
    (accepted : validateRpcFilters codec sha256 input = .ok filters) :
    List.Forall₂ (ValidFilter codec sha256) (elements (some input)) filters := by
  match input with
  | .null | .boolean _ | .number _ | .string _ | .object _ => cases accepted
  | .array items =>
    rw [validateRpcFilters] at accepted
    split_ifs at accepted
    exact validFilters_of_valid accepted

/-! ### Lists of validated items -/

theorem exists_iff_of_forall₂ {α β : Type} {relation : α → β → Prop} {left : α → Prop}
    {right : β → Prop} {items : List α} {others : List β}
    (related : List.Forall₂ relation items others)
    (same : ∀ item ∈ items, ∀ other, relation item other → (left item ↔ right other)) :
    (∃ item ∈ items, left item) ↔ ∃ other ∈ others, right other := by
  induction related with
  | nil => simp
  | @cons item other items others own later ih =>
    have first := same item List.mem_cons_self other own
    have rest := ih fun item member => same item (List.mem_cons_of_mem _ member)
    simp only [List.mem_cons, exists_eq_or_imp, first, rest]

theorem exists_left_of_forall₂ {α β : Type} {relation : α → β → Prop} {items : List α}
    {others : List β} (related : List.Forall₂ relation items others) {other : β}
    (member : other ∈ others) : ∃ item, relation item other := by
  induction related with
  | nil => cases member
  | cons own later ih =>
    rcases List.mem_cons.mp member with rfl | member
    · exact ⟨_, own⟩
    · exact ih member

theorem eq_nil_iff_of_forall₂ {α β : Type} {relation : α → β → Prop} {items : List α}
    {others : List β} (related : List.Forall₂ relation items others) :
    items = [] ↔ others = [] := by
  cases related with
  | nil => exact iff_of_true rfl rfl
  | cons => exact iff_of_false nofun nofun

/-! ### The rule of a filter -/

theorem filterMatches_iff {json : Json} {filter : RpcFilter}
    (valid : ValidFilter codec sha256 json filter) {contract : JsString} {topics : List ScVal}
    (distinct : ∀ pattern ∈ elements (property? (js "topics") json),
      ∀ text, Json.string text ∈ elements (some pattern) → ∀ value,
        codec.fromBase64 text = some value → ∀ topic ∈ topics,
          hashOf codec sha256 value = hashOf codec sha256 topic → value = topic) :
    FilterMatches codec json contract topics ↔
      filter.Holds (hashOf codec sha256) contract topics := by
  have contracts : (elements (property? (js "contractIds") json) = [] ∨
      .string contract ∈ elements (property? (js "contractIds") json)) ↔
        (filter.contractIds = [] ∨ contract ∈ filter.contractIds) := by
    rw [valid.contractIds]
    simp
  have patterns : (∃ pattern ∈ elements (property? (js "topics") json),
      PatternMatches codec (elements (some pattern)) topics) ↔
        ∃ pattern ∈ filter.patterns, SegmentsHold (hashOf codec sha256) pattern.trailing
          pattern.segments topics := by
    apply exists_iff_of_forall₂ valid.patterns
    intro json member pattern own
    obtain ⟨fixed, written, segments⟩ := own.written
    rw [written]
    apply patternMatches_iff segments
    intro text inside
    exact distinct json member text (written ▸ List.mem_append_left _ inside)
  have empty := eq_nil_iff_of_forall₂ valid.patterns
  constructor
  · intro matched
    exact ⟨valid.type.mp matched.type, contracts.mp matched.contractIds,
      matched.topics.imp empty.mp patterns.mp⟩
  · intro holds
    exact ⟨valid.type.mpr holds.included, contracts.mpr holds.contractIds,
      holds.patterns.imp empty.mpr patterns.mpr⟩

theorem matches_iff {input : Json} {filters : List RpcFilter}
    (accepted : validateRpcFilters codec sha256 input = .ok filters) {contract : JsString}
    {topics : List ScVal} (distinct : Distinct codec sha256 input topics) :
    Matches codec input contract topics ↔
      ∃ filter ∈ filters, filter.Holds (hashOf codec sha256) contract topics := by
  apply exists_iff_of_forall₂ (validFilters_of_accepted accepted)
  intro json member filter own
  apply filterMatches_iff own
  intro pattern patternMember text inside value encodes topic topicMember same
  apply codec.toXdr_injective
  refine distinct text ?_ value encodes topic topicMember same
  exact List.mem_flatMap.mpr ⟨json, member, List.mem_flatMap.mpr ⟨pattern, patternMember,
    List.mem_filterMap.mpr ⟨.string text, inside, rfl⟩⟩⟩

end Validated

end SorobanExplorer.RpcFilters
