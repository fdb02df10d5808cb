import SorobanExplorer.Library.JsNumber
import SorobanExplorer.Library.Binary64

/-!
Owns the arithmetic of ECMAScript's numbers, NaN included: sums, products, quotients, whole
parts and comparisons.

Zero has no sign, and as a divisor it is the positive one.
-/

namespace SorobanExplorer.Library

namespace JsNumber

def infinity : JsNumber := ⟨Binary64.infinity, Binary64.round_infinity⟩

def neg (number : JsNumber) : JsNumber :=
  ⟨-number.value, by rw [Binary64.round_neg, number.rounded]⟩

/-- The infinity with the sign of `value`. -/
def unbounded (value : ℚ) : JsNumber := if value < 0 then infinity.neg else infinity

def ofNat (value : ℕ) : JsNumber := ofRat value

theorem ext {left right : JsNumber} (same : left.value = right.value) : left = right := by
  cases left
  cases right
  cases same
  rfl

theorem infinity_value : infinity.value = Binary64.infinity := rfl

theorem ofRat_value (value : ℚ) : (ofRat value).value = Binary64.round value := rfl

theorem ofNat_value {value : ℕ} (small : value ≤ 2 ^ 53) : (ofNat value).value = value :=
  Binary64.round_natCast small

theorem ofRat_self (number : JsNumber) : ofRat number.value = number :=
  ext number.rounded

theorem isFinite_iff {number : JsNumber} :
    number.isFinite = true ↔ |number.value| < Binary64.infinity := decide_eq_true_iff

theorem isFinite_of_nonneg {number : JsNumber} (nonneg : 0 ≤ number.value)
    (lt : number.value < Binary64.infinity) : number.isFinite = true := by
  rwa [isFinite_iff, abs_of_nonneg nonneg]

theorem isFinite_ofNat {value : ℕ} (small : value ≤ 2 ^ 53) : (ofNat value).isFinite = true := by
  refine isFinite_of_nonneg ?_ ?_
  · rw [ofNat_value small]
    exact Nat.cast_nonneg _
  · rw [ofNat_value small]
    exact Binary64.natCast_lt_infinity small

theorem isFinite_infinity : infinity.isFinite = false := by
  rw [isFinite, infinity_value, abs_of_pos Binary64.infinity_pos]
  exact decide_eq_false (lt_irrefl _)

end JsNumber

/-- `none` is NaN. -/
abbrev JsNumeric := Option JsNumber

namespace JsNumeric

open JsNumber (infinity ofRat unbounded)

def ofNat (value : ℕ) : JsNumeric := some (.ofNat value)

def neg (number : JsNumeric) : JsNumeric := number.map .neg

/-- `left + right`: opposite infinities have no sum. -/
def add : JsNumeric → JsNumeric → JsNumeric
  | some left, some right =>
    if left.isFinite && right.isFinite then some (ofRat (left.value + right.value))
    else if left.isFinite then some right
    else if right.isFinite then some left
    else if left = right then some left else none
  | _, _ => none

/-- `left - right` -/
def sub (left right : JsNumeric) : JsNumeric := add left right.neg

/-- `left * right`: an infinity times zero is no number. -/
def mul : JsNumeric → JsNumeric → JsNumeric
  | some left, some right =>
    if left.isFinite && right.isFinite then some (ofRat (left.value * right.value))
    else if left.value = 0 ∨ right.value = 0 then none
    else some (unbounded (left.value * right.value))
  | _, _ => none

/-- `left / right`: zero by zero is no number, nor is an infinity by an infinity. -/
def div : JsNumeric → JsNumeric → JsNumeric
  | some left, some right =>
    if left.isFinite && right.isFinite then
      if right.value ≠ 0 then some (ofRat (left.value / right.value))
      else if left.value = 0 then none
      else some (unbounded left.value)
    else if left.isFinite then some (ofRat 0)
    else if right.isFinite then
      some (unbounded (if right.value < 0 then -left.value else left.value))
    else none
  | _, _ => none

/-- `Math.floor` -/
def floor (number : JsNumeric) : JsNumeric := number.map fun number => ofRat ⌊number.value⌋

/-- `Math.ceil` -/
def ceil (number : JsNumeric) : JsNumeric := number.map fun number => ofRat ⌈number.value⌉

/-- `Math.min(left, right)` -/
def minimum : JsNumeric → JsNumeric → JsNumeric
  | some left, some right => some (if left.value ≤ right.value then left else right)
  | _, _ => none

/-- `Math.max(left, right)` -/
def maximum : JsNumeric → JsNumeric → JsNumeric
  | some left, some right => some (if left.value ≤ right.value then right else left)
  | _, _ => none

/-- `left > right`, false of NaN. -/
def gt : JsNumeric → JsNumeric → Bool
  | some left, some right => right.value < left.value
  | _, _ => false

/-- `left >= right`, false of NaN. -/
def ge : JsNumeric → JsNumeric → Bool
  | some left, some right => right.value ≤ left.value
  | _, _ => false

/-! ### NaN -/

theorem add_nan (left : JsNumeric) : add left none = none := by cases left <;> rfl

theorem sub_nan (left : JsNumeric) : sub left none = none := add_nan left

theorem nan_add (right : JsNumeric) : add none right = none := rfl

theorem nan_sub (right : JsNumeric) : sub none right = none := rfl

theorem nan_div (right : JsNumeric) : div none right = none := rfl

theorem floor_nan : floor none = none := rfl

theorem nan_gt (right : JsNumeric) : gt none right = false := rfl

/-! ### Finite operands -/

section Finite

variable {left right : JsNumber}

theorem add_finite (leftFinite : left.isFinite = true) (rightFinite : right.isFinite = true) :
    add (some left) (some right) = some (ofRat (left.value + right.value)) := by
  simp only [add, leftFinite, rightFinite, Bool.and_self, if_true]

theorem add_not_finite (leftFinite : left.isFinite = true) (rightInfinite : right.isFinite = false) :
    add (some left) (some right) = some right := by
  simp only [add, leftFinite, rightInfinite, Bool.and_false, Bool.false_eq_true, if_false, if_true]

theorem isFinite_neg : right.neg.isFinite = right.isFinite := by
  simp only [JsNumber.isFinite, JsNumber.neg, abs_neg]

theorem sub_finite (leftFinite : left.isFinite = true) (rightFinite : right.isFinite = true) :
    sub (some left) (some right) = some (ofRat (left.value - right.value)) := by
  rw [sub, sub_eq_add_neg]
  exact add_finite leftFinite (isFinite_neg.trans rightFinite)

theorem mul_finite (leftFinite : left.isFinite = true) (rightFinite : right.isFinite = true) :
    mul (some left) (some right) = some (ofRat (left.value * right.value)) := by
  simp only [mul, leftFinite, rightFinite, Bool.and_self, if_true]

theorem div_finite (leftFinite : left.isFinite = true) (rightFinite : right.isFinite = true)
    (nonzero : right.value ≠ 0) :
    div (some left) (some right) = some (ofRat (left.value / right.value)) := by
  simp only [div, leftFinite, rightFinite, Bool.and_self, if_true, if_pos nonzero]

end Finite

/-! ### Whole numbers -/

section Whole

theorem ofNat_eq {number : JsNumber} {count : ℕ} (value : number.value = count)
    (small : count ≤ 2 ^ 53) : some number = ofNat count :=
  congrArg some (JsNumber.ext (value.trans (JsNumber.ofNat_value small).symm))

theorem ofRat_natCast (count : ℕ) : some (ofRat (count : ℚ)) = ofNat count := rfl

theorem sub_ofNat {left right : ℕ} (le : right ≤ left) (small : left ≤ 2 ^ 53) :
    sub (ofNat left) (ofNat right) = ofNat (left - right) := by
  have rightSmall := le.trans small
  rw [ofNat, ofNat, sub_finite (JsNumber.isFinite_ofNat small) (JsNumber.isFinite_ofNat rightSmall),
    JsNumber.ofNat_value small, JsNumber.ofNat_value rightSmall, ← Nat.cast_sub le, ofRat_natCast]

theorem ge_ofNat_iff {left right : ℕ} (leftSmall : left ≤ 2 ^ 53) (rightSmall : right ≤ 2 ^ 53) :
    ge (ofNat left) (ofNat right) = true ↔ right ≤ left := by
  rw [ofNat, ofNat, ge, decide_eq_true_iff, JsNumber.ofNat_value leftSmall,
    JsNumber.ofNat_value rightSmall, Nat.cast_le]

theorem natCast_le_round {count : ℕ} {value : ℚ} (small : count ≤ 2 ^ 53) (le : count ≤ value) :
    (count : ℚ) ≤ Binary64.round value := by
  rw [← Binary64.round_natCast small]
  exact Binary64.round_mono le

theorem round_floor_ge_one_iff (value : ℚ) :
    0 < Binary64.round ((⌊value⌋ : ℤ) : ℚ) ↔ 1 ≤ value := by
  constructor
  · intro positive
    by_contra below
    have whole : ((⌊value⌋ : ℤ) : ℚ) ≤ 0 := by
      have floor : ⌊value⌋ < 1 := Int.floor_lt.mpr (by exact_mod_cast not_le.mp below)
      exact_mod_cast Int.lt_add_one_iff.mp floor
    have rounded := Binary64.round_mono whole
    have zero : Binary64.round 0 = 0 := by exact_mod_cast Binary64.round_natCast (Nat.zero_le _)
    linarith
  · intro le
    have floor : (1 : ℤ) ≤ ⌊value⌋ := Int.le_floor.mpr (by exact_mod_cast le)
    have whole : ((1 : ℕ) : ℚ) ≤ ((⌊value⌋ : ℤ) : ℚ) := by exact_mod_cast floor
    have rounded := natCast_le_round (by norm_num) whole
    rw [Nat.cast_one] at rounded
    linarith

theorem gt_floor_zero_iff (number : JsNumber) :
    gt (floor (some number)) (ofNat 0) = true ↔ 1 ≤ number.value := by
  have zero : (JsNumber.ofNat 0).value = 0 := by
    rw [JsNumber.ofNat_value (Nat.zero_le _), Nat.cast_zero]
  rw [← round_floor_ge_one_iff, floor, Option.map_some, ofNat, gt, decide_eq_true_iff, zero,
    JsNumber.ofRat_value]

theorem minimum_add_ofNat {bound count : ℕ} {whole : ℤ} (small : bound ≤ 2 ^ 52)
    (le : count ≤ bound) (nonneg : 0 ≤ whole) :
    minimum (ofNat bound) (add (ofNat count) (some (ofRat whole))) =
      ofNat (min bound (count + whole.toNat)) := by
  have countFinite : (JsNumber.ofNat count).isFinite = true := JsNumber.isFinite_ofNat (by omega)
  have countValue : (JsNumber.ofNat count).value = count := JsNumber.ofNat_value (by omega)
  have boundValue : (JsNumber.ofNat bound).value = bound := JsNumber.ofNat_value (by omega)
  obtain ⟨extra, rfl⟩ := Int.eq_ofNat_of_zero_le nonneg
  rw [Int.toNat_natCast, Int.cast_natCast]
  rcases Nat.lt_or_ge bound extra with above | within
  · -- The sum may round or be infinite, and is above the bound all the same.
    have large : (bound : ℚ) ≤ (ofRat (extra : ℚ)).value :=
      natCast_le_round (by omega) (by exact_mod_cast above.le)
    have most : ∃ sum, add (ofNat count) (some (ofRat (extra : ℚ))) = some sum ∧
        (bound : ℚ) ≤ sum.value := by
      cases finite : (ofRat (extra : ℚ)).isFinite with
      | true =>
        refine ⟨_, add_finite countFinite finite, natCast_le_round (by omega) ?_⟩
        rw [countValue]
        have positive : (0 : ℚ) ≤ count := Nat.cast_nonneg _
        linarith
      | false => exact ⟨_, add_not_finite countFinite finite, large⟩
    obtain ⟨sum, added, le_sum⟩ := most
    rw [added, ofNat, minimum, boundValue, if_pos le_sum, Nat.min_eq_left (by omega), ofNat]
  · have extraSmall : extra ≤ 2 ^ 53 := by omega
    have added : add (ofNat count) (some (ofRat (extra : ℚ))) = ofNat (count + extra) := by
      have extraFinite : (ofRat (extra : ℚ)).isFinite = true := JsNumber.isFinite_ofNat extraSmall
      rw [ofNat, add_finite countFinite extraFinite, countValue]
      refine ofNat_eq ?_ (by omega)
      rw [JsNumber.ofRat_value, JsNumber.ofRat_value, Binary64.round_natCast extraSmall,
        ← Nat.cast_add, Binary64.round_natCast (by omega)]
    rw [added, ofNat, ofNat, minimum, boundValue, JsNumber.ofNat_value (by omega)]
    split_ifs with full
    · rw [Nat.min_eq_left (by exact_mod_cast full), ofNat]
    · rw [Nat.min_eq_right (by
        have below : count + extra < bound := by exact_mod_cast not_le.mp full
        omega), ofNat]

end Whole

/-! ### Lower bounds -/

section Lower

variable {left right : JsNumber}

theorem value_of_not_finite {number : JsNumber} (unbounded : number.isFinite = false)
    (above : -Binary64.infinity < number.value) : number.value = Binary64.infinity := by
  have large : ¬ |number.value| < Binary64.infinity := of_decide_eq_false unbounded
  have upper : number.value ≤ Binary64.infinity := by
    rw [← number.rounded]
    exact Binary64.round_le_infinity _
  rcases le_abs.mp (not_lt.mp large) with positive | negative
  · exact le_antisymm upper positive
  · exfalso
    linarith

theorem add_ge (finite : left.isFinite = true) {low : ℚ} (bounded : -Binary64.infinity < low)
    (le : low ≤ right.value) :
    ∃ sum : JsNumber, add (some left) (some right) = some sum ∧
      Binary64.round (left.value + low) ≤ sum.value := by
  cases rightFinite : right.isFinite with
  | true => exact ⟨_, add_finite finite rightFinite, Binary64.round_mono (by linarith)⟩
  | false =>
    refine ⟨right, add_not_finite finite rightFinite, ?_⟩
    rw [value_of_not_finite rightFinite (bounded.trans_le le)]
    exact Binary64.round_le_infinity _

theorem add_swap (left right : JsNumeric) : add left right = add right left := by
  cases left with
  | none => exact (add_nan right).symm
  | some left =>
    cases right with
    | none => rfl
    | some right =>
      simp only [add]
      cases leftFinite : left.isFinite <;> cases rightFinite : right.isFinite
      · simp only [Bool.and_self, Bool.false_eq_true, if_false]
        split_ifs with same other other
        · rw [same]
        · exact absurd same.symm other
        · exact absurd other.symm same
        · rfl
      · rfl
      · rfl
      · simp only [Bool.and_self, if_true]
        rw [show left.value + right.value = right.value + left.value by ring]

theorem mul_of_pos (leftNonneg : 0 < left.value) (rightFinite : right.isFinite = true)
    (rightPositive : 0 < right.value) :
    ∃ product : JsNumber, mul (some left) (some right) = some product ∧ 0 ≤ product.value := by
  have positive : 0 < left.value * right.value := mul_pos leftNonneg rightPositive
  cases finite : left.isFinite with
  | true =>
    refine ⟨_, mul_finite finite rightFinite, ?_⟩
    have least := @natCast_le_round 0 _ (Nat.zero_le _) (by exact_mod_cast positive.le)
    exact_mod_cast least
  | false =>
    refine ⟨JsNumber.infinity, ?_, Binary64.infinity_pos.le⟩
    simp only [mul, finite, Bool.false_and, Bool.false_eq_true, if_false]
    rw [if_neg (not_or.mpr ⟨leftNonneg.ne', rightPositive.ne'⟩), unbounded,
      if_neg (not_lt.mpr positive.le)]

end Lower

/-! ### Zero and the infinities -/

theorem add_infinity {left : JsNumber} (finite : left.isFinite = true) :
    add (some left) (some infinity) = some infinity :=
  add_not_finite finite JsNumber.isFinite_infinity

theorem infinity_mul_zero : mul (some infinity) (ofNat 0) = none := by
  have zero : (JsNumber.ofNat 0).value = 0 := by
    rw [JsNumber.ofNat_value (Nat.zero_le _), Nat.cast_zero]
  simp only [mul, ofNat, JsNumber.isFinite_infinity, Bool.false_and, Bool.false_eq_true, if_false,
    zero, or_true, if_true]

theorem div_zero_of_pos {left : JsNumber} (finite : left.isFinite = true)
    (positive : 0 < left.value) :
    div (some left) (ofNat 0) = some infinity := by
  have zero : (JsNumber.ofNat 0).value = 0 := by
    rw [JsNumber.ofNat_value (Nat.zero_le _), Nat.cast_zero]
  have zeroFinite : (JsNumber.ofNat 0).isFinite = true := JsNumber.isFinite_ofNat (Nat.zero_le _)
  simp only [div, ofNat, finite, zeroFinite, zero, ne_eq, not_true_eq_false, if_false,
    Bool.and_self, if_true, if_neg positive.ne', unbounded, if_neg (not_lt.mpr positive.le)]

theorem gt_infinity {right : JsNumber} (finite : right.isFinite = true) :
    gt (some infinity) (some right) = true :=
  decide_eq_true ((le_abs_self _).trans_lt (JsNumber.isFinite_iff.mp finite))

theorem minimum_infinity {left : JsNumber} (finite : left.isFinite = true) :
    minimum (some left) (some infinity) = some left :=
  congrArg some (if_pos ((le_abs_self _).trans (JsNumber.isFinite_iff.mp finite).le))

theorem div_infinity {left : JsNumber} (finite : left.isFinite = true) :
    div (some left) (some infinity) = ofNat 0 := by
  simp only [div, finite, JsNumber.isFinite_infinity, ofNat, JsNumber.ofNat, Nat.cast_zero,
    Bool.and_false, Bool.false_eq_true, if_false, if_true]

theorem two_zpow_eq_cast (power : ℕ) : (2 : ℚ) ^ (power : ℤ) = ((2 ^ power : ℤ) : ℚ) := by
  rw [zpow_natCast]
  push_cast
  rfl

theorem floor_infinity : floor (some infinity) = some infinity := by
  have whole : ((⌊Binary64.infinity⌋ : ℤ) : ℚ) = Binary64.infinity := by
    rw [show Binary64.infinity = _ from two_zpow_eq_cast 1024, Int.floor_intCast]
  refine congrArg some (JsNumber.ext ?_)
  rw [JsNumber.ofRat_value, JsNumber.infinity_value, whole, Binary64.round_infinity]

theorem ceil_infinity : ceil (some infinity) = some infinity := by
  have whole : ((⌈Binary64.infinity⌉ : ℤ) : ℚ) = Binary64.infinity := by
    rw [show Binary64.infinity = _ from two_zpow_eq_cast 1024, Int.ceil_intCast]
  refine congrArg some (JsNumber.ext ?_)
  rw [JsNumber.ofRat_value, JsNumber.infinity_value, whole, Binary64.round_infinity]

theorem infinity_div {right : JsNumber} (finite : right.isFinite = true)
    (positive : 0 < right.value) : div (some infinity) (some right) = some infinity := by
  have sign : unbounded infinity.value = infinity := by
    rw [unbounded, if_neg (not_lt.mpr (JsNumber.infinity_value ▸ Binary64.infinity_pos.le))]
  simp only [div, finite, JsNumber.isFinite_infinity, if_neg (not_lt.mpr positive.le), sign,
    Bool.false_and, Bool.false_eq_true, if_false, if_true]

theorem round_ceil_le {value : ℚ} {power : ℕ} (le : value ≤ 2 ^ (power : ℤ)) (few : power ≤ 1024) :
    Binary64.round ((⌈value⌉ : ℤ) : ℚ) ≤ 2 ^ (power : ℤ) := by
  rw [← Binary64.round_two_zpow (by omega) (by omega)]
  apply Binary64.round_mono
  rw [two_zpow_eq_cast] at le ⊢
  exact_mod_cast Int.ceil_le.mpr le

theorem zero_div_not_gt (right : JsNumber) :
    gt (floor (div (ofNat 0) (some right))) (ofNat 0) = false := by
  have zero : (JsNumber.ofNat 0).value = 0 := by
    rw [JsNumber.ofNat_value (Nat.zero_le _), Nat.cast_zero]
  have finite : (JsNumber.ofNat 0).isFinite = true := JsNumber.isFinite_ofNat (Nat.zero_le _)
  have none_above : gt (floor (some (ofRat 0))) (ofNat 0) = false := by
    refine Bool.eq_false_iff.mpr fun above => ?_
    have one := (gt_floor_zero_iff _).mp above
    have round : Binary64.round 0 = 0 := by exact_mod_cast Binary64.round_natCast (Nat.zero_le _)
    rw [JsNumber.ofRat_value, round] at one
    linarith
  unfold ofNat at none_above ⊢
  simp only [div, finite, zero, Bool.true_and, if_true]
  split_ifs with rightFinite nonzero
  · rw [zero_div]
    exact none_above
  · rfl
  · exact none_above

end JsNumeric

end SorobanExplorer.Library
