import SorobanExplorer.Filters.Planning

/-!
Owns the proof of the planner's promise: what one conjunct does to the ledger
range, what the whole range means once it fits, and from it what a branch and a
filter guarantee.
-/

namespace SorobanExplorer.Filters

open Library
open Library.Postgres

/-! ### Ends of a range -/

def Edge (start : ℚ) (keeps : Int → Prop) (bound : Number) : Prop :=
  ∃ number, bound = some number ∧ (number.value = start ∨
    ∃ integer : Int, number.value = integer ∧ |integer| < 10 ^ 19 ∧ keeps integer)

section Edge

variable {start : ℚ} {keeps : Int → Prop} {first second : Number}

theorem Edge.maximum (edge : Edge start keeps first) (other : Edge start keeps second) :
    Edge start keeps (maximum first second) := by
  obtain ⟨left, rfl, leftKept⟩ := edge
  obtain ⟨right, rfl, rightKept⟩ := other
  refine ⟨if left.value ≤ right.value then right else left, rfl, ?_⟩
  split_ifs
  · exact rightKept
  · exact leftKept

theorem Edge.minimum (edge : Edge start keeps first) (other : Edge start keeps second) :
    Edge start keeps (minimum first second) := by
  obtain ⟨left, rfl, leftKept⟩ := edge
  obtain ⟨right, rfl, rightKept⟩ := other
  refine ⟨if left.value ≤ right.value then left else right, rfl, ?_⟩
  split_ifs
  · exact leftKept
  · exact rightKept

end Edge

theorem round_widest : Binary64.round 120001 = 120001 := by decide +kernel

theorem size_lt_infinity : (10 ^ 19 + 120001 : ℚ) < Binary64.infinity := by
  calc (10 ^ 19 + 120001 : ℚ) < 2 ^ (64 : ℤ) := by norm_num
    _ ≤ Binary64.infinity := zpow_le_zpow_right₀ (by norm_num) (by norm_num)

theorem lt_of_fits {low high : JsNumber} (fit : fits (difference (some high) (some low)) = true) :
    high.value - low.value < 120001 := by
  simp only [difference] at fit
  split_ifs at fit with infinite
  · cases fit
  · by_contra wide
    have rounded := Binary64.round_mono (not_lt.mp wide)
    rw [round_widest] at rounded
    have small : Binary64.round (high.value - low.value) ≤ (maxUnindexedLedgerSpan : ℚ) :=
      of_decide_eq_true fit
    rw [maxUnindexedLedgerSpan] at small
    push_cast at small
    linarith

theorem range_of_fits {keepsLow keepsHigh : Int → Prop} {lo hi : Number}
    (lowEdge : Edge (-Binary64.infinity) keepsLow lo) (highEdge : Edge Binary64.infinity keepsHigh hi)
    (fit : fits (difference hi lo) = true) :
    ∃ low high, keepsLow low ∧ keepsHigh high ∧ high - low ≤ maxUnindexedLedgerSpan := by
  obtain ⟨lowNumber, rfl, lowKept⟩ := lowEdge
  obtain ⟨highNumber, rfl, highKept⟩ := highEdge
  have narrowed := lt_of_fits fit
  have size := size_lt_infinity
  have castSize {integer : Int} (bounded : |integer| < 10 ^ 19) :
      -(10 ^ 19 : ℚ) < integer ∧ (integer : ℚ) < 10 ^ 19 := by
    exact_mod_cast abs_lt.mp bounded
  rcases lowKept with lowStart | ⟨low, lowSame, lowBounded, lowKept⟩
  · exfalso
    rcases highKept with highStart | ⟨high, highSame, highBounded, -⟩
    · rw [lowStart, highStart] at narrowed
      linarith
    · have bounds := castSize highBounded
      rw [lowStart, highSame] at narrowed
      linarith [bounds.1]
  · rcases highKept with highStart | ⟨high, highSame, -, highKept⟩
    · exfalso
      have bounds := castSize lowBounded
      rw [lowSame, highStart] at narrowed
      linarith [bounds.2]
    · refine ⟨low, high, lowKept, highKept, ?_⟩
      rw [lowSame, highSame] at narrowed
      have integers : high - low < 120001 := by exact_mod_cast narrowed
      rw [maxUnindexedLedgerSpan]
      omega

/-! ### Values -/

theorem Scalar.Exact.edge {scalar : Scalar} (exact : scalar.Exact) {start : ℚ} {keeps : Int → Prop}
    (kept : ∀ integer, scalar.Reads integer → keeps integer) : Edge start keeps scalar.toNumber := by
  obtain ⟨isInteger, integer, number, reads, read, same⟩ := exact
  refine ⟨number, read, Or.inr ⟨integer, same, ?_, kept integer reads⟩⟩
  obtain ⟨numeral, recognized, integral, rfl⟩ := reads
  have short : numeral.whole.list.length ≤ 19 := by
    cases scalar with
    | boolean value => cases isInteger
    | string units | number value =>
      simp only [Scalar.isInteger] at isInteger
      rw [Scalar.text] at recognized
      simp only [recognized, Bool.and_eq_true, decide_eq_true_eq] at isInteger
      exact isInteger.2
  have noFraction : numeral.fractionDigits = [] := by
    simp only [Numeral.integral, Bool.and_eq_true, Option.isNone_iff_eq_none] at integral
    rw [Numeral.fractionDigits, integral.1]
    rfl
  have small : numeral.coefficient < 10 ^ 19 := by
    rw [Numeral.coefficient, noFraction, List.append_nil]
    calc Digit.number numeral.whole.list < 10 ^ numeral.whole.list.length := Digit.number_lt _
      _ ≤ 10 ^ 19 := Nat.pow_le_pow_right (by omega) short
  have signed : |numeral.integer| = numeral.coefficient := by
    rw [Numeral.integer, Numeral.sign, Numeral.signOf]
    split <;> simp
  rw [signed]
  exact_mod_cast small

theorem toNumber?_of_scalar {json : Json} {scalar : Scalar} (found : scalar? json = some scalar) :
    toNumber? (some json) = .ok scalar.toNumber := by
  unfold scalar? at found
  split at found
  · split_ifs at found
    cases found
    rfl
  · split_ifs at found
    cases found
    rfl
  · cases found
    rfl
  · cases found

theorem bound?_compare {value : Option Json} {comparison : Comparison} {values : List Scalar}
    (found : operands (.compare comparison) value = some values) :
    ∃ scalar, values = [scalar] ∧ bound? value = .ok (.one scalar.toNumber) := by
  obtain ⟨scalar, single, rfl⟩ := Option.map_eq_some_iff.mp found
  obtain ⟨json, rfl, isScalar⟩ := Option.bind_eq_some_iff.mp single
  refine ⟨scalar, rfl, ?_⟩
  have noArray : bound? (some json) = (do pure (.one (← toNumber? (some json)))) := by
    cases json with
    | array items => cases isScalar
    | null | boolean | number | string | object => rfl
  rw [noArray, toNumber?_of_scalar isScalar]
  rfl

theorem bound?_between {value : Option Json} {values : List Scalar}
    (found : operands .between value = some values) :
    ∃ low high, values = [low, high] ∧
      bound? value = .ok (.many [low.toNumber, high.toNumber]) := by
  obtain ⟨low, high, listed, rfl⟩ : ∃ low high, scalars? value = some [low, high] ∧
      values = [low, high] := by
    simp only [operands] at found
    split at found
    next low high listed =>
      cases found
      exact ⟨low, high, listed, rfl⟩
    next => cases found
  refine ⟨low, high, rfl, ?_⟩
  unfold scalars? at listed
  split at listed
  next items =>
    obtain ⟨first, second, rfl, firstScalar, secondScalar⟩ : ∃ first second, items = [first, second] ∧
        scalar? first = some low ∧ scalar? second = some high := by
      rcases items with _ | ⟨first, _ | ⟨second, _ | ⟨third, rest⟩⟩⟩ <;>
        simp [List.mapM_cons, Option.bind_eq_some_iff] at listed
      exact ⟨first, second, rfl, listed⟩
    simp only [bound?, List.mapM_cons, List.mapM_nil, toNumber?_of_scalar firstScalar,
      toNumber?_of_scalar secondScalar]
    rfl
  next => cases listed

/-! ### One conjunct -/

section Fence

variable {node : Node} {accepts : EventRecord → Prop} {holds : EventRecord → Predicate → Prop}

def FirstLedger (node : Node) (accepts : EventRecord → Prop) (ledger : Int) : Prop :=
  node.WritesLedger ledger ∧ ∀ event, accepts event → ledger ≤ event.ledger.stored

def LastLedger (node : Node) (accepts : EventRecord → Prop) (ledger : Int) : Prop :=
  node.WritesLedger ledger ∧ ∀ event, accepts event → event.ledger.stored ≤ ledger

/-- What `ledgerSpan` knows of a node after some of its conjuncts. -/
structure Ranged (node : Node) (accepts : EventRecord → Prop) (span : Number × Number) : Prop where
  low : Edge (-Binary64.infinity) (FirstLedger node accepts) span.1
  high : Edge Binary64.infinity (LastLedger node accepts) span.2

/-- A conjunct that the planner counts: a leaf of the node that accepted events meet. -/
structure Counts (node : Node) (accepts : EventRecord → Prop)
    (holds : EventRecord → Predicate → Prop) (part : Node) (predicate : Predicate) : Prop
    extends LeafOf part predicate where
  inside : predicate ∈ node.predicates
  met : ∀ event, accepts event → holds event predicate
  exact : predicate.BoundsLedger → ∀ value ∈ predicate.values, value.Exact

theorem le_of_holds {comparison : Comparison} (lower : comparison ∈ [.eq, .gt, .gte])
    {stored ledger : Int} (held : comparison.holds (Ord.compare stored ledger) = true) :
    ledger ≤ stored := by
  simp only [List.mem_cons, List.not_mem_nil, or_false] at lower
  rcases lower with rfl | rfl | rfl
  · exact ((holds_eq_iff _ _).mp held).ge
  · exact (compare_gt_iff_gt.mp (Ordering.isGT_iff_eq_gt.mp held)).le
  · exact (holds_gte_iff _ _).mp held

theorem ge_of_holds {comparison : Comparison} (upper : comparison ∈ [.eq, .lt, .lte])
    {stored ledger : Int} (held : comparison.holds (Ord.compare stored ledger) = true) :
    stored ≤ ledger := by
  simp only [List.mem_cons, List.not_mem_nil, or_false] at upper
  rcases upper with rfl | rfl | rfl
  · exact ((holds_eq_iff _ _).mp held).le
  · exact (compare_lt_iff_lt.mp (Ordering.isLT_iff_eq_lt.mp held)).le
  · exact (holds_lte_iff _ _).mp held

theorem selective_of_mem {comparison : Comparison}
    (ordered : comparison ∈ [.eq, .gt, .gte] ∨ comparison ∈ [.eq, .lt, .lte]) :
    comparison ≠ .ne := by
  rintro rfl
  revert ordered
  decide

section Leaf

variable {part : Node} {values : List Scalar} {comparison : Comparison} {bound : Bound}
  (reads : ∀ event, ReadsLeaves event (holds event))

include reads

theorem lowEdge_of_compare
    (counts : Counts node accepts holds part ⟨ledgerField, .compare comparison, values⟩)
    (lower : comparison ∈ [.eq, .gt, .gte]) (found : bound? part.value = .ok bound) :
    Edge (-Binary64.infinity) (FirstLedger node accepts) bound.number := by
  obtain ⟨scalar, rfl, read⟩ := bound?_compare counts.values
  obtain rfl := Except.ok.inj (read.symm.trans found)
  have exact := counts.exact ⟨rfl, nofun, selective_of_mem (Or.inl lower)⟩ scalar
    (List.mem_singleton_self scalar)
  refine exact.edge fun ledger reading =>
    ⟨⟨_, counts.inside, rfl, scalar, List.mem_singleton_self scalar, reading⟩, ?_⟩
  intro event accepted
  exact le_of_holds lower
    ((reads event).ledgerCompare comparison scalar ledger reading (counts.met event accepted))

theorem highEdge_of_compare
    (counts : Counts node accepts holds part ⟨ledgerField, .compare comparison, values⟩)
    (upper : comparison ∈ [.eq, .lt, .lte]) (found : bound? part.value = .ok bound) :
    Edge Binary64.infinity (LastLedger node accepts) bound.number := by
  obtain ⟨scalar, rfl, read⟩ := bound?_compare counts.values
  obtain rfl := Except.ok.inj (read.symm.trans found)
  have exact := counts.exact ⟨rfl, nofun, selective_of_mem (Or.inr upper)⟩ scalar
    (List.mem_singleton_self scalar)
  refine exact.edge fun ledger reading =>
    ⟨⟨_, counts.inside, rfl, scalar, List.mem_singleton_self scalar, reading⟩, ?_⟩
  intro event accepted
  exact ge_of_holds upper
    ((reads event).ledgerCompare comparison scalar ledger reading (counts.met event accepted))

theorem edges_of_between
    (counts : Counts node accepts holds part ⟨ledgerField, .between, values⟩)
    (found : bound? part.value = .ok bound) :
    Edge (-Binary64.infinity) (FirstLedger node accepts) (bound.item 0) ∧
      Edge Binary64.infinity (LastLedger node accepts) (bound.item 1) := by
  obtain ⟨low, high, rfl, read⟩ := bound?_between counts.values
  obtain rfl := Except.ok.inj (read.symm.trans found)
  have exact := counts.exact ⟨rfl, nofun, trivial⟩
  constructor
  · refine (exact low (by simp)).edge fun ledger reading =>
      ⟨⟨_, counts.inside, rfl, low, by simp, reading⟩, fun event accepted => ?_⟩
    exact ((reads event).ledgerBetween low high (counts.met event accepted)).1 ledger reading
  · refine (exact high (by simp)).edge fun ledger reading =>
      ⟨⟨_, counts.inside, rfl, high, by simp, reading⟩, fun event accepted => ?_⟩
    exact ((reads event).ledgerBetween low high (counts.met event accepted)).2 ledger reading

end Leaf

theorem counted_leaf {part : Node} {predicate : Predicate}
    (counts : Counts node accepts holds part predicate)
    (field : isText "ledger" part.field = true) {text : String} {op : Op}
    (written : isText text part.op = true) (known : parseOp (some (.string (js text))) = some op) :
    Counts node accepts holds part ⟨ledgerField, op, predicate.values⟩ := by
  obtain ⟨parsedField, parsedOp, values⟩ := predicate
  have sameField : some ledgerField = some parsedField := by
    rw [← counts.field, isText_eq field]
    rfl
  have sameOp : some op = some parsedOp := by
    rw [← counts.op, isText_eq written, known]
  cases sameField
  cases sameOp
  exact counts

theorem narrow_ranged (reads : ∀ event, ReadsLeaves event (holds event)) {part : Node}
    (counted : isText "ledger" part.field = true → selective part.op = true →
      ∃ predicate, Counts node accepts holds part predicate)
    {span after : Number × Number} (ranged : Ranged node accepts span)
    (narrowed : narrow span part = .ok after) : Ranged node accepts after := by
  unfold narrow at narrowed
  by_cases field : isText "ledger" part.field = true
  · rw [if_pos field] at narrowed
    obtain ⟨bound, found, narrowed⟩ := bind_eq_ok narrowed
    split_ifs at narrowed with equal between above below
    · obtain ⟨predicate, counts⟩ := counted field (by simp [selective, equal])
      have leaf := counted_leaf counts field equal rfl
      cases narrowed
      exact ⟨ranged.low.maximum (lowEdge_of_compare reads leaf (by simp) found),
        ranged.high.minimum (highEdge_of_compare reads leaf (by simp) found)⟩
    · obtain ⟨predicate, counts⟩ := counted field (by simp [selective, between])
      have edges := edges_of_between reads (counted_leaf counts field between rfl) found
      cases narrowed
      exact ⟨ranged.low.maximum edges.1, ranged.high.minimum edges.2⟩
    · have lowEdge : Edge (-Binary64.infinity) (FirstLedger node accepts) bound.number := by
        rcases Bool.or_eq_true_iff.mp above with strictly | weakly
        · obtain ⟨predicate, counts⟩ := counted field (by simp [selective, strictly])
          exact lowEdge_of_compare reads (counted_leaf counts field strictly rfl) (by simp) found
        · obtain ⟨predicate, counts⟩ := counted field (by simp [selective, weakly])
          exact lowEdge_of_compare reads (counted_leaf counts field weakly rfl) (by simp) found
      cases narrowed
      exact ⟨ranged.low.maximum lowEdge, ranged.high⟩
    · have highEdge : Edge Binary64.infinity (LastLedger node accepts) bound.number := by
        rcases Bool.or_eq_true_iff.mp below with strictly | weakly
        · obtain ⟨predicate, counts⟩ := counted field (by simp [selective, strictly])
          exact highEdge_of_compare reads (counted_leaf counts field strictly rfl) (by simp) found
        · obtain ⟨predicate, counts⟩ := counted field (by simp [selective, weakly])
          exact highEdge_of_compare reads (counted_leaf counts field weakly rfl) (by simp) found
      cases narrowed
      exact ⟨ranged.low, ranged.high.minimum highEdge⟩
    · cases narrowed
      exact ranged
  · rw [if_neg field] at narrowed
    cases narrowed
    exact ranged

theorem foldlM_ranged (reads : ∀ event, ReadsLeaves event (holds event)) {parts : List Node}
    (counted : ∀ part ∈ parts, isText "ledger" part.field = true → selective part.op = true →
      ∃ predicate, Counts node accepts holds part predicate)
    {span after : Number × Number} (ranged : Ranged node accepts span)
    (narrowed : parts.foldlM narrow span = .ok after) : Ranged node accepts after := by
  induction parts generalizing span with
  | nil =>
    cases narrowed
    exact ranged
  | cons part parts ih =>
    rw [List.foldlM_cons] at narrowed
    obtain ⟨middle, first, later⟩ := bind_eq_ok narrowed
    obtain ⟨own, others⟩ := List.forall_mem_cons.mp counted
    exact ih others (narrow_ranged reads own ranged first) later

theorem ledgerSpan_ranged (reads : ∀ event, ReadsLeaves event (holds event)) {parts : List Node}
    (counted : ∀ part ∈ parts, isText "ledger" part.field = true → selective part.op = true →
      ∃ predicate, Counts node accepts holds part predicate)
    {span : Number} (measured : ledgerSpan parts = .ok span) (fit : fits span = true) :
    ∃ low high, FirstLedger node accepts low ∧ LastLedger node accepts high ∧
      high - low ≤ maxUnindexedLedgerSpan := by
  obtain ⟨⟨lo, hi⟩, folded, same⟩ := bind_eq_ok measured
  cases same
  have rounded (value : ℚ) : (JsNumber.ofRat value).value = Binary64.round value := rfl
  have start : Ranged node accepts
      (some (.ofRat (-Binary64.infinity)), some (.ofRat Binary64.infinity)) := by
    constructor
    · exact ⟨_, rfl, Or.inl (by rw [rounded, Binary64.round_neg, Binary64.round_infinity])⟩
    · exact ⟨_, rfl, Or.inl (by rw [rounded, Binary64.round_infinity])⟩
  have ranged := foldlM_ranged reads counted start folded
  exact range_of_fits ranged.low ranged.high fit

end Fence

/-! ### Branches -/

theorem selective_op {op : Option Json} {parsed : Op} (known : selective op = true)
    (opParsed : parseOp op = some parsed) : parsed.Selective := by
  have written : ∃ text ∈ ["eq", "in", "between", "gt", "gte", "lt", "lte"],
      isText text op = true := by
    simpa [selective, or_assoc] using known
  obtain ⟨text, member, same⟩ := written
  rw [isText_eq same] at opParsed
  simp only [List.mem_cons, List.not_mem_nil, or_false] at member
  rcases member with rfl | rfl | rfl | rfl | rfl | rfl | rfl <;> cases opParsed <;>
    first | trivial | exact nofun

structure Passes (branch : Node) (parts : List Node) (unindexed : Bool) : Prop where
  split : conjuncts branch = some parts
  scanned : hasUnindexed branch = some unindexed
  selective : ∃ part ∈ parts, indexed part.field = true ∧ selective part.op = true
  contract : unindexed = true → ∃ part ∈ parts, isText "contract_id" part.field = true ∧
    (isText "eq" part.op = true ∨ isText "in" part.op = true)
  span : unindexed = true → ∃ span, ledgerSpan parts = .ok span ∧ fits span = true

theorem planBranch_passes {branch : Node} (planned : planBranch branch = some .ok) :
    ∃ parts unindexed, Passes branch parts unindexed := by
  unfold planBranch at planned
  obtain ⟨parts, split, planned⟩ := Option.bind_eq_some_iff.mp planned
  split_ifs at planned with found
  · obtain ⟨unindexed, scanned, planned⟩ := Option.bind_eq_some_iff.mp planned
    have selective : ∃ part ∈ parts, indexed part.field = true ∧ selective part.op = true := by
      simpa using found
    cases unindexed with
    | false => exact ⟨parts, false, split, scanned, selective, nofun, nofun⟩
    | true =>
      obtain ⟨span, measured, planned⟩ := Option.bind_eq_some_iff.mp planned
      split_ifs at planned with both
      · obtain ⟨contract, fit⟩ := Bool.and_eq_true_iff.mp both
        refine ⟨parts, true, split, scanned, selective, fun _ => by simpa using contract,
          fun _ => ⟨span, ?_, fit⟩⟩
        cases result : ledgerSpan parts with
        | error thrown => rw [result] at measured; cases measured
        | ok value =>
          rw [result] at measured
          cases measured
          rfl
      · cases planned
  · cases planned

section Branch

variable {branch : Node} {parts : List Node} {unindexed : Bool} (accepted : Accepted branch)
  (passes : Passes branch parts unindexed) (alike : ReadAlike branch parts)

include accepted passes alike

theorem leafOf_counted {part : Node} (member : part ∈ parts) (known : indexed part.field = true)
    (picked : selective part.op = true) : ∃ predicate, LeafOf part predicate ∧
      predicate ∈ branch.predicates ∧ ∀ holds, branch.Means holds → holds predicate := by
  have splits := conjuncts_split accepted parts passes.split
  obtain ⟨predicate, leaf⟩ := leafOf_of_isLeaf (splits.accepted part member)
    (alike.leaves part member known picked)
  exact ⟨predicate, leaf, splits.predicates part member predicate leaf.own,
    fun holds means => leaf.means holds (splits.means holds means part member)⟩

theorem branch_selective : ∃ predicate ∈ branch.predicates, predicate.field.HasIndex ∧
    predicate.op.Selective ∧ ∀ holds, branch.Means holds → holds predicate := by
  obtain ⟨part, member, known, picked⟩ := passes.selective
  obtain ⟨predicate, leaf, inside, means⟩ := leafOf_counted accepted passes alike member known picked
  exact ⟨predicate, inside, hasIndex_of_indexed known leaf.field, selective_op picked leaf.op, means⟩

theorem branch_contract (fenced : unindexed = true) : ∃ contract ∈ branch.predicates,
    contract.field = contractField ∧ ∀ event (holds : Predicate → Prop), event.Addressed →
      ReadsLeaves event holds → branch.Means holds →
        ∃ value ∈ contract.values, event.contract_id.chars = Utf16.decode value.text := by
  obtain ⟨part, member, field, op⟩ := passes.contract fenced
  have known : indexed part.field = true := by simp [indexed, field]
  have picked : selective part.op = true := by rcases op with equal | isIn <;> simp [selective, *]
  obtain ⟨⟨parsedField, parsedOp, values⟩, leaf, inside, means⟩ :=
    leafOf_counted accepted passes alike member known picked
  have sameField : some contractField = some parsedField := by
    rw [← leaf.field, isText_eq field]
    rfl
  cases sameField
  refine ⟨_, inside, rfl, fun event holds address reads meant => ?_⟩
  have held := means holds meant
  rcases op with equal | isIn
  · have sameOp : some (Op.compare .eq) = some parsedOp := by
      rw [← leaf.op, isText_eq equal]
      rfl
    cases sameOp
    obtain ⟨scalar, rfl, -⟩ := bound?_compare leaf.values
    exact ⟨scalar, List.mem_singleton_self scalar, reads.contractEquals scalar address held⟩
  · have sameOp : some Op.isIn = some parsedOp := by
      rw [← leaf.op, isText_eq isIn]
      rfl
    cases sameOp
    exact reads.contractIn values address held

theorem branch_fenced (fenced : unindexed = true) {accepts : EventRecord → Prop}
    {holds : EventRecord → Predicate → Prop} (reads : ∀ event, ReadsLeaves event (holds event))
    (means : ∀ event, accepts event → branch.Means (holds event)) : Fenced accepts branch := by
  have counted : ∀ part ∈ parts, isText "ledger" part.field = true → selective part.op = true →
      ∃ predicate, Counts branch accepts holds part predicate := by
    intro part member field picked
    have known : indexed part.field = true := by simp [indexed, field]
    obtain ⟨predicate, leaf, inside, own⟩ :=
      leafOf_counted accepted passes alike member known picked
    have scanned : hasUnindexed branch = some true := fenced ▸ passes.scanned
    exact ⟨predicate, leaf, inside, fun event met => own _ (means event met),
      alike.bounds scanned part member predicate leaf.leaf⟩
  obtain ⟨span, measured, fit⟩ := passes.span fenced
  obtain ⟨low, high, first, last, narrow⟩ := ledgerSpan_ranged reads counted measured fit
  obtain ⟨contract, inside, field, listed⟩ := branch_contract accepted passes alike fenced
  refine ⟨contract, inside, field, low, high, first.1, last.1, narrow, ?_⟩
  intro event address met
  exact ⟨listed event _ address (reads event) (means event met), first.2 event met, last.2 event met⟩

end Branch

/-! ### The filter -/

theorem planBranches_eq_ok {branches : List Node} (planned : planBranches branches = some .ok) :
    ∀ branch ∈ branches, planBranch branch = some .ok := by
  induction branches with
  | nil => exact fun branch member => nomatch member
  | cons first branches ih =>
    simp only [planBranches] at planned
    obtain ⟨verdict, own, planned⟩ := Option.bind_eq_some_iff.mp planned
    cases verdict with
    | ok => exact List.forall_mem_cons.mpr ⟨own, ih planned⟩
    | refused reason => cases planned

theorem disjuncts_planned {ast : Node} (accepted : Accepted ast) (single : ¬ ast.Doubled)
    (planned : planFilter ast = some .ok) :
    ∀ branch ∈ ast.disjuncts, Accepted branch ∧ planBranch branch = some .ok := by
  cases accepted with
  | @every nodes orKey notKey field op value all =>
    have alone : planBranches [Node.object (.list nodes) orKey notKey field op value] =
        some .ok := by
      cases orKey with
      | list branches => exact absurd trivial single
      | other truthy =>
        cases truthy with
        | true => cases planned
        | false => exact planned
      | absent | null => exact planned
    exact List.forall_mem_singleton.mpr ⟨.every all,
      planBranches_eq_ok alone _ (List.mem_singleton_self _)⟩
  | @any andKey nodes notKey field op value absent all =>
    have branches : (Node.object andKey (.list nodes) notKey field op value).disjuncts = nodes := by
      rcases absent with rfl | rfl <;> rfl
    rw [branches]
    exact fun branch member => ⟨all branch member, planBranches_eq_ok planned branch member⟩
  | not inner =>
    exact List.forall_mem_singleton.mpr ⟨.not inner,
      planBranches_eq_ok planned _ (List.mem_singleton_self _)⟩
  | predicate parsed opParsed found =>
    exact List.forall_mem_singleton.mpr ⟨.predicate parsed opParsed found,
      planBranches_eq_ok planned _ (List.mem_singleton_self _)⟩

theorem disjuncts_mean {ast : Node} (accepted : Accepted ast) {holds : Predicate → Prop}
    (means : ast.Means holds) : ∃ branch ∈ ast.disjuncts, branch.Means holds ∧
      ∀ predicate ∈ branch.predicates, predicate ∈ ast.predicates := by
  cases accepted with
  | @any andKey nodes notKey field op value absent all =>
    have branches : (Node.object andKey (.list nodes) notKey field op value).disjuncts = nodes := by
      rcases absent with rfl | rfl <;> rfl
    rw [branches, predicates_or absent]
    obtain ⟨branch, member, meant⟩ := (means_or absent).mp means
    exact ⟨branch, member, meant, fun predicate => mem_allPredicates member⟩
  | every | not | predicate => exact ⟨_, List.mem_singleton_self _, means, fun _ => id⟩

theorem guarded_of_means {ast : Node} (accepted : Accepted ast) (planned : planFilter ast = some .ok)
    (alike : PlannedAlike ast) {accepts : Node → EventRecord → Prop}
    {meets : Predicate → EventRecord → Prop}
    (reads : ∀ event, ReadsLeaves event fun predicate => meets predicate event)
    (means : ∀ node event, Accepted node → accepts node event →
      node.Means fun predicate => meets predicate event) : Guarded accepts meets ast := by
  have branches := disjuncts_planned accepted alike.single planned
  constructor
  · intro event met
    obtain ⟨branch, member, meant, known⟩ := disjuncts_mean accepted (means ast event accepted met)
    obtain ⟨own, branchPlanned⟩ := branches branch member
    obtain ⟨parts, unindexed, passes⟩ := planBranch_passes branchPlanned
    obtain ⟨predicate, inside, index, selective, held⟩ :=
      branch_selective own passes (alike.branches branch member parts passes.split)
    exact ⟨predicate, known predicate inside, index, selective, held _ meant⟩
  · intro branch member reads_unindexed
    obtain ⟨own, branchPlanned⟩ := branches branch member
    obtain ⟨parts, unindexed, passes⟩ := planBranch_passes branchPlanned
    obtain ⟨result, scanned, isTrue⟩ := hasUnindexed_of_accepted own
    have fenced : unindexed = true := by
      rw [← isTrue reads_unindexed]
      exact Option.some.inj (passes.scanned.symm.trans scanned)
    exact branch_fenced own passes (alike.branches branch member parts passes.split) fenced reads
      fun event => means branch event own

theorem planFilter_guarded {ast : Node} (valid : validateFilter ast = .ok ast)
    (planned : planFilter ast = some .ok) (alike : PlannedAlike ast) :
    Guarded (fun node event => evaluateFilter event node = some true)
        (fun predicate event => predicate.Evaluates event) ast ∧
      Guarded (fun node event => selects node event.row)
        (fun predicate event => predicate.Selects event.row) ast := by
  have accepted := accepted_of_validateFilter valid
  constructor
  · exact guarded_of_means accepted planned alike evaluates_reads
      fun node event own => (evaluateFilter_eq_true own).mp
  · exact guarded_of_means accepted planned alike selects_reads
      fun node event own => means_of_selects own

/-! ### Two filters -/

/-- `contract_id = "CA" and ledger between 5 and 9 and args.n > 7` -/
def fencedBranch : Node :=
  .object (.list [leaf "contract_id" "eq" (.string (js "CA")),
    leaf "ledger" "between" (.array [.string (js "5"), .string (js "9")]),
    leaf "args.n" "gt" (.string (js "7"))]) .absent none none none none

/-- `fencedBranch or seq = 7` -/
def fencedFilter : Node :=
  .object .absent (.list [fencedBranch, leaf "seq" "eq" (.string (js "7"))]) none none none none

theorem fencedFilter_alike : PlannedAlike fencedFilter := by
  have five : (Scalar.string (js "5")).Exact :=
    ⟨by decide, 5, .ofRat 5, ⟨.plain false 5 0, rfl, rfl, rfl⟩, by decide +kernel, by decide +kernel⟩
  have nine : (Scalar.string (js "9")).Exact :=
    ⟨by decide, 9, .ofRat 9, ⟨.plain false 9 0, rfl, rfl, rfl⟩, by decide +kernel, by decide +kernel⟩
  refine ⟨id, List.forall_mem_cons.mpr ⟨?_, List.forall_mem_singleton.mpr ?_⟩⟩
  · rintro parts ⟨⟩
    constructor
    · intro part member _ _
      simp only [List.mem_append, List.mem_singleton, List.not_mem_nil, or_false] at member
      rcases member with rfl | rfl | rfl <;> trivial
    · intro _ part member predicate own bounds
      simp only [List.mem_append, List.mem_singleton, List.not_mem_nil, or_false] at member
      rcases member with rfl | rfl | rfl
      · cases own
        cases bounds.1
      · cases own
        simpa using ⟨five, nine⟩
      · cases own
        cases bounds.1
  · rintro parts ⟨⟩
    refine ⟨List.forall_mem_singleton.mpr fun _ _ => trivial, fun scanned => ?_⟩
    cases scanned

theorem fencedBranch_fenced : Fenced (fun event => selects fencedBranch event.row) fencedBranch :=
  (@planFilter_guarded fencedFilter rfl (by decide +kernel) fencedFilter_alike).2.fenced
    fencedBranch List.mem_cons_self ⟨⟨.args [['n']], .compare .gt, [.string (js "7")]⟩, by decide,
      trivial⟩

/-- The walks read the `and` of this object, the planner the `or`. -/
def twoConnectives : Node :=
  .object (.list [leaf "args.n" "exists" .null]) (.list []) none none none none

theorem twoConnectives_unguarded : ¬ ∀ ast : Node, validateFilter ast = .ok ast →
    planFilter ast = some .ok →
      Guarded (fun node event => evaluateFilter event node = some true)
          (fun predicate event => predicate.Evaluates event) ast ∧
        Guarded (fun node event => selects node event.row)
          (fun predicate event => predicate.Selects event.row) ast := by
  intro claim
  obtain ⟨predicate, member, index, -⟩ :=
    (claim twoConnectives rfl rfl).1.selective transferEvent (by decide +kernel)
  have only : twoConnectives.predicates = [⟨.args [['n']], .exist, []⟩] := rfl
  rw [only, List.mem_singleton] at member
  subst member
  exact index

end SorobanExplorer.Filters
