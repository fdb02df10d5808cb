import SorobanExplorer.Filters.Meaning
import SorobanExplorer.Filters.Planner

/-!
Owns what a plan guarantees: every event a planned filter accepts meets a
condition on an indexed field, and a disjunct that reads an args path or
`topic[1..3]` is fenced in by contract ids and ledgers. The planner reads a tree
on its own, so this holds for trees it reads as the walks do.
-/

namespace SorobanExplorer.Filters

open Library
open Library.Postgres

/-! ### What a plan guarantees -/

def contractField : Field := .column (js "contract_id") .text

def ledgerField : Field := .column (js "ledger") .number

/-- `contract_id`, `function`, `tx_hash`, `ledger`, `seq` or `topic[0]`. -/
def Field.HasIndex : Field → Prop
  | .column name _ => name ∈ columnNames
  | .topic index => index = 0
  | .args _ => False

instance : DecidablePred Field.HasIndex
  | .column name _ => inferInstanceAs (Decidable (name ∈ columnNames))
  | .topic index => inferInstanceAs (Decidable (index = 0))
  | .args _ => inferInstanceAs (Decidable False)

/-- An args path or `topic[1..3]`. -/
def Field.NoIndex : Field → Prop
  | .column _ _ => False
  | .topic index => index ≠ 0
  | .args _ => True

def Op.Selective : Op → Prop
  | .compare comparison => comparison ≠ .ne
  | .isIn | .between => True
  | .exist => False

def Node.disjuncts : Node → List Node
  | .object .absent (.list nodes) _ _ _ _ | .object .null (.list nodes) _ _ _ _ => nodes
  | node => [node]

def Scalar.Reads (scalar : Scalar) (integer : Int) : Prop :=
  ∃ numeral, Numeral.recognize (Utf16.decode scalar.text) = some numeral ∧
    numeral.integral = true ∧ numeral.integer = integer

def Node.WritesLedger (node : Node) (ledger : Int) : Prop :=
  ∃ predicate ∈ node.predicates, predicate.field = ledgerField ∧
    ∃ value ∈ predicate.values, value.Reads ledger

def EventRecord.Addressed (event : EventRecord) : Prop :=
  Numeral.recognize event.contract_id.chars = none

def Fenced (accepts : EventRecord → Prop) (disjunct : Node) : Prop :=
  ∃ contract ∈ disjunct.predicates, contract.field = contractField ∧
    ∃ low high : Int, disjunct.WritesLedger low ∧ disjunct.WritesLedger high ∧
      high - low ≤ maxUnindexedLedgerSpan ∧ ∀ event : EventRecord, event.Addressed →
        accepts event →
          (∃ value ∈ contract.values, event.contract_id.chars = Utf16.decode value.text) ∧
            low ≤ event.ledger.stored ∧ event.ledger.stored ≤ high

/-- What the planner promises of a filter, with the events that an interpreter
accepts for a node and for a leaf. -/
structure Guarded (accepts : Node → EventRecord → Prop) (meets : Predicate → EventRecord → Prop)
    (ast : Node) : Prop where
  selective : ∀ event, accepts ast event → ∃ predicate ∈ ast.predicates,
    predicate.field.HasIndex ∧ predicate.op.Selective ∧ meets predicate event
  fenced : ∀ disjunct ∈ ast.disjuncts,
    (∃ predicate ∈ disjunct.predicates, predicate.field.NoIndex) →
      Fenced (accepts disjunct) disjunct

/-! ### Trees the planner reads as the walks do -/

def Node.IsLeaf : Node → Prop
  | .object .absent .absent none _ _ _ => True
  | _ => False

/-- An object with `and` and `or`. -/
def Node.Doubled : Node → Prop
  | .object (.list _) (.list _) _ _ _ _ => True
  | _ => False

def Node.leaf? : Node → Option Predicate
  | .object .absent .absent none field op value => predicate? field op value
  | _ => none

/-- `Number(value)`, of a scalar. -/
def Scalar.toNumber : Scalar → Number
  | .string units => stringToNumber units
  | .number value _ => some value
  | .boolean value => some (.ofRat (if value then 1 else 0))

/-- `Number(value)` is the integer that the value is compared as. -/
def Scalar.Exact (scalar : Scalar) : Prop :=
  scalar.isInteger = true ∧ ∃ integer number, scalar.Reads integer ∧
    scalar.toNumber = some number ∧ number.value = integer

/-- The conditions that `ledgerSpan` looks at. -/
def Predicate.BoundsLedger (predicate : Predicate) : Prop :=
  predicate.field = ledgerField ∧ predicate.op ≠ .isIn ∧ predicate.op.Selective

/-- A conjunct that the planner counts has no connective; and in a branch that
needs a fence, the bounds are exact. -/
structure ReadAlike (branch : Node) (parts : List Node) : Prop where
  leaves : ∀ part ∈ parts, indexed part.field = true → selective part.op = true → part.IsLeaf
  bounds : hasUnindexed branch = some true → ∀ part ∈ parts, ∀ predicate,
    part.leaf? = some predicate → predicate.BoundsLedger → ∀ value ∈ predicate.values, value.Exact

structure PlannedAlike (ast : Node) : Prop where
  single : ¬ ast.Doubled
  branches : ∀ branch ∈ ast.disjuncts, ∀ parts, conjuncts branch = some parts →
    ReadAlike branch parts

/-! ### Parsing -/

theorem isText_eq {text : String} {property : Option Json} (same : isText text property = true) :
    property = some (.string (js text)) := by
  unfold isText at same
  split at same
  · rw [decide_eq_true_iff.mp same]
  · cases same

theorem indexed_eq {source : Option Json} (known : indexed source = true) :
    ∃ name ∈ ["contract_id", "function", "tx_hash", "ledger", "seq", "topic[0]"],
      source = some (.string (js name)) := by
  simp only [indexed, Bool.or_eq_true] at known
  rcases known with ((((contract | function) | hash) | ledger) | seq) | topic
  · exact ⟨_, by simp, isText_eq contract⟩
  · exact ⟨_, by simp, isText_eq function⟩
  · exact ⟨_, by simp, isText_eq hash⟩
  · exact ⟨_, by simp, isText_eq ledger⟩
  · exact ⟨_, by simp, isText_eq seq⟩
  · exact ⟨_, by simp, isText_eq topic⟩

theorem hasIndex_of_indexed {source : Option Json} {field : Field} (known : indexed source = true)
    (parsed : parseField source = some field) : field.HasIndex := by
  obtain ⟨name, member, rfl⟩ := indexed_eq known
  simp only [List.mem_cons, List.not_mem_nil, or_false] at member
  rcases member with rfl | rfl | rfl | rfl | rfl | rfl <;> cases parsed <;> decide

theorem not_indexed_of_noIndex {source : Option Json} {field : Field}
    (parsed : parseField source = some field) (noIndex : field.NoIndex) :
    indexed source = false := by
  apply Bool.eq_false_of_not_eq_true
  intro known
  have index := hasIndex_of_indexed known parsed
  cases field with
  | column name type => exact noIndex
  | topic place => exact noIndex index
  | args path => exact index

/-! ### Conjuncts -/

/-- The parts of a node are accepted, hold predicates of it, and are all meant by it. -/
structure Splits (node : Node) (parts : List Node) : Prop where
  accepted : ∀ part ∈ parts, Accepted part
  predicates : ∀ part ∈ parts, ∀ predicate ∈ part.predicates, predicate ∈ node.predicates
  means : ∀ holds, node.Means holds → ∀ part ∈ parts, part.Means holds

theorem splits_self {node : Node} (accepted : Accepted node) : Splits node [node] where
  accepted := List.forall_mem_singleton.mpr accepted
  predicates := List.forall_mem_singleton.mpr fun _ => id
  means := fun _ means => List.forall_mem_singleton.mpr means

theorem conjunctsAll_split {nodes parts : List Node} (split : conjunctsAll nodes = some parts)
    (each : ∀ node ∈ nodes, ∀ parts, conjuncts node = some parts → Splits node parts) :
    ∀ part ∈ parts, ∃ node ∈ nodes, ∃ own, conjuncts node = some own ∧ part ∈ own := by
  induction nodes generalizing parts with
  | nil =>
    cases split
    exact fun part member => nomatch member
  | cons node nodes ih =>
    simp only [conjunctsAll, Option.bind_eq_bind, Option.bind_eq_some_iff, Option.pure_def,
      Option.some.injEq] at split
    obtain ⟨own, first, rest, later, rfl⟩ := split
    intro part member
    rcases List.mem_append.mp member with here | there
    · exact ⟨node, List.mem_cons_self, own, first, here⟩
    · obtain ⟨other, inside, found⟩ := ih later
        (fun node member => each node (List.mem_cons_of_mem _ member)) part there
      exact ⟨other, List.mem_cons_of_mem _ inside, found⟩

theorem conjuncts_split {node : Node} (accepted : Accepted node) :
    ∀ parts, conjuncts node = some parts → Splits node parts := by
  induction accepted with
  | @every nodes orKey notKey field op value all ih =>
    intro parts split
    rw [conjuncts] at split
    have found := conjunctsAll_split split ih
    refine ⟨fun part member => ?_, fun part member predicate own => ?_,
      fun holds means part member => ?_⟩ <;>
      obtain ⟨node, inside, own', single, here⟩ := found part member
    · exact (ih node inside own' single).accepted part here
    · have up := (ih node inside own' single).predicates part here predicate own
      simpa [Node.predicates] using mem_allPredicates inside up
    · exact (ih node inside own' single).means holds
        (means_and.mp means node inside) part here
  | @any andKey nodes notKey field op value absent all ih =>
    intro parts split
    have single : conjuncts (.object andKey (.list nodes) notKey field op value) =
        some [.object andKey (.list nodes) notKey field op value] := by
      rcases absent with rfl | rfl <;> rfl
    obtain rfl := Option.some.inj (single.symm.trans split)
    exact splits_self (.any absent all)
  | not inner =>
    intro parts split
    obtain rfl := Option.some.inj split
    exact splits_self (.not inner)
  | predicate parsed opParsed found =>
    intro parts split
    obtain rfl := Option.some.inj split
    exact splits_self (.predicate parsed opParsed found)

structure LeafOf (part : Node) (predicate : Predicate) : Prop where
  leaf : part.leaf? = some predicate
  own : predicate ∈ part.predicates
  field : parseField part.field = some predicate.field
  op : parseOp part.op = some predicate.op
  values : operands predicate.op part.value = some predicate.values
  means : ∀ holds : Predicate → Prop, part.Means holds → holds predicate

theorem leafOf_of_isLeaf {part : Node} (accepted : Accepted part) (isLeaf : part.IsLeaf) :
    ∃ predicate, LeafOf part predicate := by
  cases accepted with
  | every | not => cases isLeaf
  | any absent => rcases absent with rfl | rfl <;> cases isLeaf
  | @predicate source op value field parsedOp values parsed opParsed found =>
    have leaf : predicate? source op value = some ⟨field, parsedOp, values⟩ := by
      simp [predicate?, parsed, opParsed, found]
    exact ⟨⟨field, parsedOp, values⟩, leaf, by simp [Node.predicates, leaf], parsed, opParsed, found,
      fun holds => (means_leaf leaf).mp⟩

/-! ### Unindexed fields -/

theorem hasUnindexed_of_accepted {node : Node} (accepted : Accepted node) :
    ∃ result, hasUnindexed node = some result ∧
      ((∃ predicate ∈ node.predicates, predicate.field.NoIndex) → result = true) := by
  have ofAll {nodes : List Node} (each : ∀ node ∈ nodes, ∃ result,
      hasUnindexed node = some result ∧
        ((∃ predicate ∈ node.predicates, predicate.field.NoIndex) → result = true)) :
      ∃ result, someUnindexed nodes = some result ∧
        ((∃ predicate ∈ allPredicates nodes, predicate.field.NoIndex) → result = true) := by
    induction nodes with
    | nil => exact ⟨false, rfl, by simp [allPredicates]⟩
    | cons node nodes ih =>
      obtain ⟨⟨first, found, firstTrue⟩, others⟩ := List.forall_mem_cons.mp each
      obtain ⟨rest, restFound, restTrue⟩ := ih others
      cases first with
      | true => exact ⟨true, by simp [someUnindexed, found], fun _ => rfl⟩
      | false =>
        refine ⟨rest, by simp [someUnindexed, found, restFound], ?_⟩
        rintro ⟨predicate, member, noIndex⟩
        rcases List.mem_append.mp member with here | there
        · cases firstTrue ⟨predicate, here, noIndex⟩
        · exact restTrue ⟨predicate, there, noIndex⟩
  induction accepted with
  | every all ih =>
    obtain ⟨result, found, isTrue⟩ := ofAll ih
    exact ⟨result, by rw [hasUnindexed, found], by simpa [Node.predicates] using isTrue⟩
  | any absent all ih =>
    obtain ⟨result, found, isTrue⟩ := ofAll ih
    refine ⟨result, ?_, by rwa [predicates_or absent]⟩
    rcases absent with rfl | rfl <;> rw [hasUnindexed, found]
  | not inner ih =>
    obtain ⟨result, found, isTrue⟩ := ih
    refine ⟨result, ?_, by simpa [Node.predicates] using isTrue⟩
    simp [hasUnindexed, truthy_of_accepted inner, found]
  | @predicate source op value field parsedOp values parsed opParsed found =>
    refine ⟨!indexed source, by simp [hasUnindexed], ?_⟩
    rintro ⟨predicate, member, noIndex⟩
    have leaf : predicate? source op value = some ⟨field, parsedOp, values⟩ := by
      simp [predicate?, parsed, opParsed, found]
    simp only [Node.predicates, leaf, Option.toList_some, List.mem_singleton] at member
    subst member
    rw [not_indexed_of_noIndex parsed noIndex]
    rfl

/-! ### Readings of a leaf -/

structure ReadsLeaves (event : EventRecord) (holds : Predicate → Prop) : Prop where
  ledgerCompare : ∀ comparison value integer, value.Reads integer →
    holds ⟨ledgerField, .compare comparison, [value]⟩ →
      comparison.holds (Ord.compare event.ledger.stored integer) = true
  ledgerBetween : ∀ low high, holds ⟨ledgerField, .between, [low, high]⟩ →
    (∀ integer, low.Reads integer → integer ≤ event.ledger.stored) ∧
      ∀ integer, high.Reads integer → event.ledger.stored ≤ integer
  contractEquals : ∀ value, event.Addressed → holds ⟨contractField, .compare .eq, [value]⟩ →
    event.contract_id.chars = Utf16.decode value.text
  contractIn : ∀ values, event.Addressed → holds ⟨contractField, .isIn, values⟩ →
    ∃ value ∈ values, event.contract_id.chars = Utf16.decode value.text

theorem Scalar.Reads.unique {scalar : Scalar} {first second : Int} (reads : scalar.Reads first)
    (reads' : scalar.Reads second) : first = second := by
  obtain ⟨numeral, read, -, rfl⟩ := reads
  obtain ⟨numeral', read', -, rfl⟩ := reads'
  rw [Option.some.inj (read.symm.trans read')]

theorem compare_spelled {chars : List Char} {value : Scalar}
    (noNumeral : Numeral.recognize chars = none)
    (equal : compare .eq (.string (Utf16.encode chars)) value = true) :
    chars = Utf16.decode value.text := by
  cases found : value.numeral? with
  | some numeral =>
    rw [compare_numeric (by simp) rfl found] at equal
    simp [numeric, noNumeral] at equal
  | none =>
    rw [compare_text (by simp) rfl found, Comparison.holds, Ordering.isEq_iff_eq_eq,
      Std.compare_eq_iff_eq] at equal
    rw [← equal]
    exact (Utf16.decode_encode chars).symm

theorem mem_inList {values : List Scalar} {member : Scalar} (inside : member ∈ inList values) :
    ∃ value ∈ values, member.text = value.text := by
  unfold inList at inside
  split at inside
  · exact ⟨member, inside, rfl⟩
  · obtain ⟨value, known, rfl⟩ := List.mem_map.mp inside
    exact ⟨value, known, rfl⟩

theorem evaluates_reads (event : EventRecord) : ReadsLeaves event (Predicate.Evaluates event) where
  ledgerCompare := by
    rintro comparison value integer ⟨numeral, read, integral, rfl⟩ holds
    rwa [← compare_integer event.ledger read integral]
  ledgerBetween := by
    intro low high holds
    obtain ⟨above, below⟩ := Bool.and_eq_true_iff.mp
      (show (compare .gte event.ledger.recorded.value low &&
        compare .lte event.ledger.recorded.value high) = true from holds)
    constructor
    · rintro integer ⟨numeral, read, integral, rfl⟩
      rwa [compare_integer event.ledger read integral, holds_gte_iff] at above
    · rintro integer ⟨numeral, read, integral, rfl⟩
      rwa [compare_integer event.ledger read integral, holds_lte_iff] at below
  contractEquals := fun value address holds => compare_spelled address holds
  contractIn := by
    intro values address holds
    obtain ⟨member, inside, equal⟩ := List.any_eq_true.mp
      (show (inList values).any (compare .eq (textValue event.contract_id)) = true from holds)
    obtain ⟨value, known, sameText⟩ := mem_inList inside
    have spelled := compare_spelled address equal
    exact ⟨value, known, sameText ▸ spelled⟩

theorem paramInt8_eq_ok {units : JsString} {params : List Param} {placeholder : Nat}
    (bound : params[placeholder - 1]? = some (.string units)) {result : Int}
    (converted : paramInt8 params placeholder = .ok result) :
    int8In (Utf16.decode units) = .ok result := by
  simp only [paramInt8, paramText, bound] at converted
  obtain ⟨text, sent, converted⟩ := bind_eq_ok converted
  unfold sentText textIn at sent
  split_ifs at sent
  cases sent
  exact converted

theorem paramText_eq_ok {units : JsString} {params : List Param} {placeholder : Nat}
    (bound : params[placeholder - 1]? = some (.string units)) {result : List Char}
    (converted : paramText params placeholder = .ok result) : result = Utf16.decode units := by
  simp only [paramText, bound] at converted
  unfold sentText textIn at converted
  split_ifs at converted
  cases converted
  rfl

theorem mapM_sentText {items : List JsString} {result : List (List Char)}
    (converted : items.mapM sentText = .ok result) : result = items.map Utf16.decode := by
  induction items generalizing result with
  | nil =>
    cases converted
    rfl
  | cons item items ih =>
    rw [List.mapM_cons] at converted
    obtain ⟨first, sent, converted⟩ := bind_eq_ok converted
    obtain ⟨rest, others, converted⟩ := bind_eq_ok converted
    unfold sentText textIn at sent
    split_ifs at sent
    cases sent
    cases converted
    rw [ih others, List.map_cons]

theorem reads_of_int8In {scalar : Scalar} {result : Int}
    (converted : int8In (Utf16.decode scalar.text) = .ok result) : scalar.Reads result := by
  obtain ⟨numeral, read, integral, value⟩ := int8In_eq_ok converted
  exact ⟨numeral, read, integral, value⟩

theorem contract_notNumeric {event : EventRecord} (address : event.Addressed) {params : List Param}
    {test : ℚ → Bool} : (do
      let value ← explorer_numeric
        (← TextExpr.value (.column (js "contract_id")) params event.row)
      pure (strict value test) : Except SqlError Truth) = .ok none := by
  have read : TextExpr.value (.column (js "contract_id")) params event.row =
      .ok (some event.contract_id.chars) := rfl
  have none : explorer_numeric (some event.contract_id.chars) = .ok none := by
    rw [explorer_numeric, show Numeral.recognize event.contract_id.chars = .none from address]
    rfl
  rw [read]
  show (explorer_numeric (some event.contract_id.chars) >>= fun value => pure (strict value test)) = _
  rw [none]
  rfl

theorem selects_reads (event : EventRecord) :
    ReadsLeaves event (Predicate.Selects event.row) where
  ledgerCompare := by
    intro comparison value integer reads holds
    have compiled : Predicate.truth event.row ⟨ledgerField, .compare comparison, [value]⟩ =
        some ((Condition.bigintCompare (js "ledger") comparison 1).value [.string value.text]
          event.row) := rfl
    rw [Predicate.Selects, compiled, Option.some.injEq, Condition.value] at holds
    obtain ⟨bound, converted, holds⟩ := bind_eq_ok holds
    have same := (reads_of_int8In (paramInt8_eq_ok rfl converted)).unique reads
    subst same
    exact Option.some.inj (Except.ok.inj holds)
  ledgerBetween := by
    intro low high holds
    have compiled : Predicate.truth event.row ⟨ledgerField, .between, [low, high]⟩ =
        some ((Condition.bigintBetween (js "ledger") 1 2).value
          [.string low.text, .string high.text] event.row) := rfl
    rw [Predicate.Selects, compiled, Option.some.injEq, Condition.value] at holds
    obtain ⟨lowest, lowConverted, holds⟩ := bind_eq_ok holds
    obtain ⟨highest, highConverted, holds⟩ := bind_eq_ok holds
    have inside : (decide (lowest ≤ event.ledger.stored) && decide (event.ledger.stored ≤ highest)) =
        true := Option.some.inj (Except.ok.inj holds)
    simp only [Bool.and_eq_true, decide_eq_true_eq] at inside
    constructor
    · intro integer reads
      rw [reads.unique (reads_of_int8In (paramInt8_eq_ok rfl lowConverted))]
      exact inside.1
    · intro integer reads
      rw [reads.unique (reads_of_int8In (paramInt8_eq_ok rfl highConverted))]
      exact inside.2
  contractEquals := by
    intro value address holds
    have compiled : Predicate.truth event.row ⟨contractField, .compare .eq, [value]⟩ =
        some ((if isNumericValue value then Condition.numericCompare (.column (js "contract_id")) .eq 1
          else .textCompare (.column (js "contract_id")) .eq 1).value [.string value.text]
          event.row) := rfl
    rw [Predicate.Selects, compiled, Option.some.injEq] at holds
    split at holds
    · obtain ⟨bound, converted, holds⟩ := bind_eq_ok holds
      rw [contract_notNumeric address] at holds
      cases holds
    · obtain ⟨bound, converted, holds⟩ := bind_eq_ok holds
      have same := paramText_eq_ok rfl converted
      have equal : Comparison.eq.holds (Ord.compare event.contract_id.chars bound) = true :=
        Option.some.inj (Except.ok.inj holds)
      rw [← same]
      rwa [Comparison.holds, Ordering.isEq_iff_eq_eq, Std.compare_eq_iff_eq] at equal
  contractIn := by
    intro values address holds
    have compiled : Predicate.truth event.row ⟨contractField, .isIn, values⟩ =
        some ((if (inList values).all isNumericValue then
            Condition.numericAny (.column (js "contract_id")) 1
          else .textAny (.column (js "contract_id")) 1).value [.list ((inList values).map Scalar.text)]
          event.row) := rfl
    rw [Predicate.Selects, compiled, Option.some.injEq] at holds
    split at holds
    · obtain ⟨texts, sent, holds⟩ := bind_eq_ok holds
      obtain ⟨bounds, converted, holds⟩ := bind_eq_ok holds
      rw [contract_notNumeric address] at holds
      cases holds
    · obtain ⟨texts, sent, holds⟩ := bind_eq_ok holds
      have same := mapM_sentText sent
      have listed : texts.contains event.contract_id.chars = true :=
        Option.some.inj (Except.ok.inj holds)
      rw [List.contains_iff_mem, same, List.map_map] at listed
      obtain ⟨member, inside, spelled⟩ := List.mem_map.mp listed
      obtain ⟨value, known, sameText⟩ := mem_inList inside
      refine ⟨value, known, ?_⟩
      rw [← spelled, ← sameText]
      rfl

end SorobanExplorer.Filters
