import SorobanExplorer.Library.Binary64
import SorobanExplorer.Library.Numeral

/-!
Owns the numbers of ECMAScript, except NaN: reading a numeral as the nearest
binary64 value and writing a value with the fewest digits that read back as it.
-/

namespace SorobanExplorer.Library

/-- A number: `±2 ^ 1024` stand for the infinities, and zero has no sign. -/
structure JsNumber where
  value : ℚ
  rounded : Binary64.round value = value
deriving DecidableEq

namespace JsNumber

def ofRat (value : ℚ) : JsNumber := ⟨Binary64.round value, Binary64.round_idem value⟩

/-- `Number(text)` for a text that is a numeral. -/
def ofNumeral (numeral : Numeral) : JsNumber := ofRat numeral.value

@[simp] theorem ofNumeral_value (numeral : Numeral) :
    (ofNumeral numeral).value = Binary64.round numeral.value := rfl

def isFinite (number : JsNumber) : Bool := |number.value| < Binary64.infinity

/-! ### The fewest digits -/

/-- `count` digits, the last of them weighing `10 ^ (point - count)`: the value
is `0.d₁d₂… * 10 ^ point`. -/
structure Shortest where
  digits : Nat
  count : Nat
  point : Int

namespace Shortest

def value (shortest : Shortest) : ℚ :=
  shortest.digits * 10 ^ (shortest.point - shortest.count)

end Shortest

/-- A multiple of `unit` that reads back as `magnitude`: the nearer one if both
neighbours do. -/
def candidate? (magnitude unit : ℚ) : Option Nat :=
  let near := (Binary64.roundHalfEven (magnitude / unit)).toNat
  let far := if near ≤ magnitude / unit then near + 1 else near - 1
  if Binary64.round (near * unit) = magnitude then some near
  else if Binary64.round (far * unit) = magnitude then some far
  else none

/-- The first of `tries` digit counts from `count` on with a candidate. -/
def search? (magnitude : ℚ) (point : Int) : Nat → Nat → Option Shortest
  | 0, _ => none
  | tries + 1, count =>
    match candidate? magnitude (10 ^ (point - count)) with
    | some digits => some ⟨digits, count, point⟩
    | none => search? magnitude point tries (count + 1)

/-- All digits of a magnitude that has `places` places after the point. -/
def expansion (places : Nat) (magnitude : ℚ) : Shortest :=
  let digits := ⌊magnitude * 10 ^ places⌋₊
  ⟨digits, Nat.log 10 digits + 1, (Nat.log 10 digits + 1 : Nat) - places⟩

/-- `10` as one digit is `1` one place higher. -/
def carry (shortest : Shortest) : Shortest :=
  if shortest.digits = 10 ^ shortest.count ∧ 0 < shortest.count then
    ⟨10 ^ (shortest.count - 1), shortest.count, shortest.point + 1⟩
  else shortest

/-- The `s`, `k` and `n` of `Number::toString`. Seventeen digits always do, so
the expansion is never used. -/
def shortest (magnitude : ℚ) : Shortest :=
  ((search? magnitude (Int.log 10 magnitude + 1) 17 1).map carry).getD (expansion 1074 magnitude)

/-- How `Number::toString` places the point. -/
def layout (negative : Bool) (shortest : Shortest) : Numeral :=
  let ⟨digits, count, point⟩ := shortest
  if count ≤ point ∧ point ≤ 21 then
    .plain negative (digits * 10 ^ (point - count).toNat) 0
  else if -6 < point ∧ point ≤ 21 then
    .plain negative digits (count - point).toNat
  else
    (Numeral.plain negative digits (count - 1)).scaled (point - 1)

/-- The numeral `Number::toString` writes for a finite number. -/
def numeral (number : JsNumber) : Numeral :=
  if number.value = 0 then .plain false 0 0
  else layout (number.value < 0) (shortest |number.value|)

/-- `String(number)` -/
def text (number : JsNumber) : List Char :=
  if number.isFinite then number.numeral.text
  else if number.value < 0 then ['-', 'I', 'n', 'f', 'i', 'n', 'i', 't', 'y']
  else ['I', 'n', 'f', 'i', 'n', 'i', 't', 'y']

/-! ### What is written reads back -/

theorem candidate?_round {magnitude unit : ℚ} {digits : Nat}
    (found : candidate? magnitude unit = some digits) :
    Binary64.round (digits * unit) = magnitude := by
  unfold candidate? at found
  simp only at found
  split_ifs at found with near far far
  all_goals
    cases found
    assumption

theorem search?_round {magnitude : ℚ} {point : Int} {tries count : Nat} {found : Shortest}
    (search : search? magnitude point tries count = some found) :
    Binary64.round found.value = magnitude ∧ count ≤ found.count := by
  induction tries generalizing count with
  | zero => cases search
  | succ tries ih =>
    unfold search? at search
    split at search
    next digits candidate =>
      cases search
      exact ⟨candidate?_round candidate, le_rfl⟩
    next =>
      have later := ih search
      exact ⟨later.1, by omega⟩

@[simp] theorem carry_value (shortest : Shortest) : (carry shortest).value = shortest.value := by
  unfold carry
  split_ifs with full
  · obtain ⟨tens, positive⟩ := full
    simp only [Shortest.value, tens]
    push_cast
    rw [← zpow_natCast, ← zpow_natCast, ← zpow_add₀ (by norm_num), ← zpow_add₀ (by norm_num)]
    congr 1
    omega
  · rfl

@[simp] theorem carry_count (shortest : Shortest) : (carry shortest).count = shortest.count := by
  unfold carry
  split_ifs <;> rfl

theorem multiple_mul_ten_pow (multiplier : ℤ) (count : Nat) :
    (multiplier * 2 ^ (-(count : ℤ)) : ℚ) * 10 ^ count = ((multiplier * 5 ^ count : ℤ) : ℚ) := by
  have tens : (10 : ℚ) ^ count = 2 ^ (count : ℤ) * 5 ^ count := by
    rw [zpow_natCast, ← mul_pow]
    norm_num
  rw [tens, mul_assoc, ← mul_assoc (2 ^ (-(count : ℤ)) : ℚ), ← zpow_add₀ (by norm_num),
    neg_add_cancel, zpow_zero, one_mul]
  push_cast
  rfl

theorem expansion_value {magnitude : ℚ} {places : Nat} {digits : ℤ} (nonneg : 0 ≤ magnitude)
    (whole : magnitude * 10 ^ places = digits) : (expansion places magnitude).value = magnitude := by
  have floor : ((⌊magnitude * 10 ^ places⌋₊ : Nat) : ℚ) = magnitude * 10 ^ places := by
    have scaled : 0 ≤ magnitude * 10 ^ places := by positivity
    rw [whole] at scaled ⊢
    rw [← Int.floor_toNat, Int.floor_intCast]
    exact_mod_cast Int.toNat_of_nonneg (by exact_mod_cast scaled)
  have cancel : ∀ count : ℤ, (places : ℤ) + (count - places - count) = 0 := by
    intro count
    omega
  simp only [expansion, Shortest.value, floor]
  rw [mul_assoc, ← zpow_natCast, ← zpow_add₀ (by norm_num), cancel, zpow_zero, mul_one]

theorem shortest_round {magnitude : ℚ} (nonneg : 0 ≤ magnitude)
    (finite : magnitude < Binary64.infinity) (rounded : Binary64.round magnitude = magnitude) :
    Binary64.round (shortest magnitude).value = magnitude ∧ 0 < (shortest magnitude).count := by
  unfold shortest
  cases search : search? magnitude (Int.log 10 magnitude + 1) 17 1 with
  | some found =>
    have spec := search?_round search
    rw [Option.map_some, Option.getD_some, carry_value, carry_count]
    exact spec
  | none =>
    obtain ⟨multiplier, multiple⟩ := Binary64.multiple_of_round_eq nonneg finite rounded
    have whole : magnitude * 10 ^ 1074 = ((multiplier * 5 ^ 1074 : ℤ) : ℚ) := by
      rw [multiple]
      exact multiple_mul_ten_pow multiplier 1074
    rw [Option.map_none, Option.getD_none, expansion_value nonneg whole]
    exact ⟨rounded, Nat.succ_pos _⟩

theorem layout_value (negative : Bool) {shortest : Shortest} (positive : 0 < shortest.count) :
    (layout negative shortest).value = Numeral.signOf negative * shortest.value := by
  obtain ⟨digits, count, point⟩ := shortest
  simp only at positive
  unfold layout Shortest.value
  simp only
  split_ifs with whole fraction
  · have scale : (((digits * 10 ^ (point - count).toNat : Nat) : ℤ) : ℚ) =
        digits * 10 ^ (point - count) := by
      push_cast
      rw [← zpow_natCast, Int.toNat_of_nonneg (by omega)]
    rw [Numeral.value_plain, Int.cast_mul, scale, Nat.cast_zero, neg_zero, zpow_zero, mul_one]
  · have scale : -(((count - point).toNat : Nat) : ℤ) = point - count := by omega
    rw [Numeral.value_plain, Int.cast_mul, Int.cast_natCast, scale, mul_assoc]
  · have scale : -((count - 1 : Nat) : ℤ) + (point - 1) = point - count := by omega
    rw [Numeral.value_scaled rfl, Numeral.value_plain, Int.cast_mul, Int.cast_natCast, mul_assoc,
      ← zpow_add₀ (by norm_num), scale, mul_assoc]

theorem round_numeral {number : JsNumber} (finite : number.isFinite = true) :
    Binary64.round number.numeral.value = number.value := by
  unfold numeral
  split_ifs with zero
  · rw [Numeral.value_plain, zero]
    simp [Binary64.round, Binary64.roundMagnitude, Binary64.infinity_pos.le]
  have magnitude : Binary64.round |number.value| = |number.value| := by
    rcases abs_choice number.value with choice | choice
    · rw [choice, number.rounded]
    · rw [choice, Binary64.round_neg, number.rounded]
  have bounded : |number.value| < Binary64.infinity := by simpa [isFinite] using finite
  obtain ⟨reads, positive⟩ := shortest_round (abs_nonneg _) bounded magnitude
  rw [layout_value _ positive]
  by_cases negative : number.value < 0
  · have sign : ((Numeral.signOf (decide (number.value < 0)) : ℤ) : ℚ) = -1 := by
      simp [negative, Numeral.signOf]
    rw [sign, neg_one_mul, Binary64.round_neg, reads, abs_of_neg negative, neg_neg]
  · have sign : ((Numeral.signOf (decide (number.value < 0)) : ℤ) : ℚ) = 1 := by
      simp [negative, Numeral.signOf]
    rw [sign, one_mul, reads, abs_of_nonneg (not_lt.mp negative)]

theorem recognize_text {number : JsNumber} (finite : number.isFinite = true) :
    Numeral.recognize number.text = some number.numeral := by
  rw [text, if_pos finite, Numeral.recognize_text]

end JsNumber

end SorobanExplorer.Library
