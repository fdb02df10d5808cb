import Mathlib.Data.Int.Log
import Mathlib.Data.Rat.Floor
import Mathlib.Algebra.Order.Ring.Abs
import Mathlib.Tactic.Linarith
import Mathlib.Tactic.Ring
import Mathlib.Tactic.NormNum

/-!
Owns IEEE 754 binary64 as a set of rationals: rounding to nearest, ties to even,
with gradual underflow and with `2 ^ 1024` standing for infinity. Rounding is
monotone and leaves what is already rounded alone. Two values differ by more than half a unit in
the last place, a rounded value is off by at most that, and so a quotient keeps what is strictly
above on its side.

Signed zeros and NaN are not represented.
-/

namespace SorobanExplorer.Library.Binary64

/-! ### Nearest integer -/

def roundHalfEven (value : ℚ) : ℤ :=
  if value - ⌊value⌋ < 1 / 2 then ⌊value⌋
  else if 1 / 2 < value - ⌊value⌋ then ⌊value⌋ + 1
  else if ⌊value⌋ % 2 = 0 then ⌊value⌋ else ⌊value⌋ + 1

theorem roundHalfEven_bounds (value : ℚ) :
    ⌊value⌋ ≤ roundHalfEven value ∧ roundHalfEven value ≤ ⌊value⌋ + 1 := by
  unfold roundHalfEven
  split_ifs <;> omega

@[simp] theorem roundHalfEven_intCast (value : ℤ) : roundHalfEven value = value := by
  unfold roundHalfEven
  rw [Int.floor_intCast, if_pos (by norm_num)]

theorem roundHalfEven_mono {left right : ℚ} (le : left ≤ right) :
    roundHalfEven left ≤ roundHalfEven right := by
  rcases (Int.floor_mono le).lt_or_eq with apart | together
  · have upper := (roundHalfEven_bounds left).2
    have lower := (roundHalfEven_bounds right).1
    omega
  · -- In one unit interval only the fraction decides, and it grows.
    unfold roundHalfEven
    rw [← together]
    split_ifs <;> first | omega | (exfalso; linarith)

/-! ### Rounding to a grid -/

/-- The nearest multiple of `2 ^ exponent`. -/
def snap (exponent : ℤ) (value : ℚ) : ℚ :=
  roundHalfEven (value / 2 ^ exponent) * 2 ^ exponent

theorem two_zpow_pos (exponent : ℤ) : (0 : ℚ) < 2 ^ exponent := zpow_pos (by norm_num) _

theorem snap_mono (exponent : ℤ) {left right : ℚ} (le : left ≤ right) :
    snap exponent left ≤ snap exponent right := by
  have positive := two_zpow_pos exponent
  apply mul_le_mul_of_nonneg_right _ positive.le
  exact_mod_cast roundHalfEven_mono (div_le_div_of_nonneg_right le positive.le)

theorem snap_multiple (exponent multiplier : ℤ) :
    snap exponent (multiplier * 2 ^ exponent) = multiplier * 2 ^ exponent := by
  unfold snap
  rw [mul_div_cancel_right₀ _ (two_zpow_pos exponent).ne', roundHalfEven_intCast]

theorem snap_two_zpow {exponent power : ℤ} (le : exponent ≤ power) :
    snap exponent (2 ^ power) = 2 ^ power := by
  have onGrid : (2 : ℚ) ^ power = ((2 ^ (power - exponent).toNat : ℤ) : ℚ) * 2 ^ exponent := by
    push_cast
    rw [← zpow_natCast, Int.toNat_of_nonneg (by omega), ← zpow_add₀ (by norm_num)]
    congr 1
    omega
  rw [onGrid, snap_multiple]

theorem snap_nonneg (exponent : ℤ) {value : ℚ} (nonneg : 0 ≤ value) : 0 ≤ snap exponent value := by
  have zero : snap exponent 0 = 0 := by simpa using snap_multiple exponent 0
  rw [← zero]
  exact snap_mono exponent nonneg

/-! ### The binary64 grid -/

/-- The exponent of the last place of a positive value: 53 significant bits, and
no place below `2 ^ -1074`. -/
def lastPlace (value : ℚ) : ℤ := max (Int.log 2 value - 52) (-1074)

theorem lastPlace_mono {left right : ℚ} (positive : 0 < left) (le : left ≤ right) :
    lastPlace left ≤ lastPlace right := by
  have logs := Int.log_mono_right (b := 2) positive le
  unfold lastPlace
  omega

theorem two_zpow_log_le {value : ℚ} (positive : 0 < value) : 2 ^ Int.log 2 value ≤ value := by
  have le := Int.zpow_log_le_self (b := 2) (by norm_num) positive
  exact_mod_cast le

theorem lt_two_zpow_log (value : ℚ) : value < 2 ^ (Int.log 2 value + 1) := by
  have lt := Int.lt_zpow_succ_log_self (b := 2) (by norm_num) value
  exact_mod_cast lt

def nearest (value : ℚ) : ℚ := snap (lastPlace value) value

theorem nearest_nonneg {value : ℚ} (nonneg : 0 ≤ value) : 0 ≤ nearest value :=
  snap_nonneg _ nonneg

@[simp] theorem nearest_zero : nearest 0 = 0 := by
  simpa [nearest] using snap_multiple (lastPlace 0) 0

theorem nearest_mono {left right : ℚ} (nonneg : 0 ≤ left) (le : left ≤ right) :
    nearest left ≤ nearest right := by
  rcases nonneg.eq_or_lt with rfl | positive
  · rw [nearest_zero]
    exact nearest_nonneg le
  rcases (lastPlace_mono positive le).eq_or_lt with same | finer
  · unfold nearest
    rw [same]
    exact snap_mono _ le
  · -- A coarser grid starts at a power of two, which lies between the two values.
    have power_le : lastPlace left ≤ Int.log 2 right := by
      unfold lastPlace at finer ⊢
      omega
    have logs : Int.log 2 left + 1 ≤ Int.log 2 right := by
      unfold lastPlace at finer
      omega
    have below : left ≤ 2 ^ Int.log 2 right :=
      (lt_two_zpow_log left).le.trans (zpow_le_zpow_right₀ (by norm_num) logs)
    have above := two_zpow_log_le (positive.trans_le le)
    have place : lastPlace right ≤ Int.log 2 right := by
      unfold lastPlace at finer ⊢
      omega
    calc nearest left ≤ snap (lastPlace left) (2 ^ Int.log 2 right) := snap_mono _ below
      _ = 2 ^ Int.log 2 right := snap_two_zpow power_le
      _ = snap (lastPlace right) (2 ^ Int.log 2 right) := (snap_two_zpow place).symm
      _ ≤ nearest right := snap_mono _ above

theorem nearest_of_multiple {value : ℚ} (multiplier : ℤ)
    (onGrid : value = multiplier * 2 ^ lastPlace value) : nearest value = value := by
  unfold nearest
  generalize lastPlace value = exponent at onGrid
  rw [onGrid]
  exact snap_multiple exponent multiplier

theorem nearest_of_coarser {value : ℚ} (multiplier exponent : ℤ)
    (coarser : lastPlace value ≤ exponent) (onGrid : value = multiplier * 2 ^ exponent) :
    nearest value = value := by
  apply nearest_of_multiple (multiplier * 2 ^ (exponent - lastPlace value).toNat)
  push_cast
  rw [← zpow_natCast, Int.toNat_of_nonneg (by omega), mul_assoc, ← zpow_add₀ (by norm_num),
    sub_add_cancel]
  exact onGrid

theorem nearest_le_two_zpow (value : ℚ) : nearest value ≤ 2 ^ (lastPlace value + 53) := by
  have binade : Int.log 2 value + 1 ≤ lastPlace value + 53 := by
    unfold lastPlace
    omega
  have below : value ≤ 2 ^ (lastPlace value + 53) :=
    (lt_two_zpow_log value).le.trans (zpow_le_zpow_right₀ (by norm_num) binade)
  calc nearest value ≤ snap (lastPlace value) (2 ^ (lastPlace value + 53)) := snap_mono _ below
    _ = 2 ^ (lastPlace value + 53) := snap_two_zpow (by omega)

theorem nearest_idem {value : ℚ} (nonneg : 0 ≤ value) :
    nearest (nearest value) = nearest value := by
  rcases (nearest_nonneg nonneg).eq_or_lt with zero | positive
  · rw [← zero, nearest_zero]
  by_cases coarser : lastPlace (nearest value) ≤ lastPlace value
  · exact nearest_of_coarser _ _ coarser rfl
  · -- The carry reached the next power of two, which is on every grid of its binade.
    have carried : (2 : ℚ) ^ (lastPlace value + 53) ≤ nearest value := by
      have logs : lastPlace value + 53 ≤ Int.log 2 (nearest value) := by
        have floor : -1074 ≤ lastPlace value := le_max_right _ _
        unfold lastPlace at coarser floor ⊢
        omega
      exact (zpow_le_zpow_right₀ (by norm_num) logs).trans (two_zpow_log_le positive)
    have power : nearest value = 2 ^ (lastPlace value + 53) :=
      le_antisymm (nearest_le_two_zpow value) carried
    have log_eq : Int.log 2 (nearest value) = lastPlace value + 53 := by
      rw [power]
      exact_mod_cast Int.log_zpow (R := ℚ) (b := 2) (by norm_num) (lastPlace value + 53)
    apply nearest_of_coarser 1 (lastPlace value + 53)
    · have floor : -1074 ≤ lastPlace value := le_max_right _ _
      have place : lastPlace (nearest value) = max (lastPlace value + 53 - 52) (-1074) := by
        rw [← log_eq]
        rfl
      omega
    · rw [power, Int.cast_one, one_mul]

/-! ### Rounding -/

def infinity : ℚ := 2 ^ (1024 : ℤ)

def roundMagnitude (value : ℚ) : ℚ := min (nearest value) infinity

def round (value : ℚ) : ℚ :=
  if value < 0 then -roundMagnitude (-value) else roundMagnitude value

theorem infinity_pos : 0 < infinity := two_zpow_pos 1024

theorem roundMagnitude_nonneg {value : ℚ} (nonneg : 0 ≤ value) : 0 ≤ roundMagnitude value :=
  le_min (nearest_nonneg nonneg) infinity_pos.le

theorem roundMagnitude_mono {left right : ℚ} (nonneg : 0 ≤ left) (le : left ≤ right) :
    roundMagnitude left ≤ roundMagnitude right :=
  min_le_min_right _ (nearest_mono nonneg le)

theorem nearest_infinity : nearest infinity = infinity := by
  have log_eq : Int.log 2 infinity = 1024 :=
    Int.log_zpow (R := ℚ) (b := 2) (by norm_num) 1024
  apply nearest_of_coarser 1 1024
  · unfold lastPlace
    omega
  · rw [Int.cast_one, one_mul, infinity]

theorem roundMagnitude_idem {value : ℚ} (nonneg : 0 ≤ value) :
    roundMagnitude (roundMagnitude value) = roundMagnitude value := by
  unfold roundMagnitude
  rcases le_total (nearest value) infinity with finite | overflow
  · rw [min_eq_left finite, nearest_idem nonneg, min_eq_left finite]
  · rw [min_eq_right overflow, nearest_infinity, min_self]

theorem round_infinity : round infinity = infinity := by
  rw [round, if_neg (not_lt.mpr infinity_pos.le), roundMagnitude, nearest_infinity, min_self]

theorem round_mono {left right : ℚ} (le : left ≤ right) : round left ≤ round right := by
  unfold round
  split_ifs with leftNegative rightNegative rightNegative
  · exact neg_le_neg (roundMagnitude_mono (by linarith) (by linarith))
  · have below : 0 ≤ roundMagnitude (-left) := roundMagnitude_nonneg (by linarith)
    have above : 0 ≤ roundMagnitude right := roundMagnitude_nonneg (by linarith)
    linarith
  · exfalso
    linarith
  · exact roundMagnitude_mono (by linarith) le

@[simp] theorem round_idem (value : ℚ) : round (round value) = round value := by
  unfold round
  split_ifs with negative again again
  · rw [neg_neg, roundMagnitude_idem (by linarith)]
  · -- A negative value may round to zero.
    have nonneg : 0 ≤ roundMagnitude (-value) := roundMagnitude_nonneg (by linarith)
    have zero : roundMagnitude (-value) = 0 := by linarith
    rw [zero, neg_zero]
    simp [roundMagnitude, infinity_pos.le]
  · exfalso
    have nonneg : 0 ≤ roundMagnitude value := roundMagnitude_nonneg (by linarith)
    linarith
  · exact roundMagnitude_idem (by linarith)

theorem round_neg (value : ℚ) : round (-value) = -round value := by
  unfold round
  split_ifs with negated negative negative
  · exfalso
    linarith
  · rw [neg_neg]
  · rw [neg_neg]
  · have zero : value = 0 := by linarith
    simp [zero, roundMagnitude, infinity_pos.le]

theorem multiple_of_round_eq {value : ℚ} (nonneg : 0 ≤ value) (finite : value < infinity)
    (rounded : round value = value) : ∃ multiplier : ℤ, value = multiplier * 2 ^ (-1074 : ℤ) := by
  have fixed : nearest value = value := by
    have magnitude : roundMagnitude value = value := by
      simpa [round, not_lt.mpr nonneg] using rounded
    unfold roundMagnitude at magnitude
    rcases min_choice (nearest value) infinity with choice | choice
    · rw [← choice, magnitude]
    · rw [choice] at magnitude
      exact absurd magnitude finite.ne'
  have floor : -1074 ≤ lastPlace value := le_max_right _ _
  refine ⟨roundHalfEven (value / 2 ^ lastPlace value) * 2 ^ (lastPlace value + 1074).toNat, ?_⟩
  push_cast
  rw [← zpow_natCast, Int.toNat_of_nonneg (by omega), mul_assoc, ← zpow_add₀ (by norm_num),
    add_neg_cancel_right]
  exact fixed.symm

theorem natCast_lt_infinity {value : Nat} (small : value ≤ 2 ^ 53) : (value : ℚ) < infinity := by
  calc (value : ℚ) ≤ 2 ^ 53 := by exact_mod_cast small
    _ = 2 ^ (53 : ℤ) := by norm_cast
    _ < infinity := zpow_lt_zpow_right₀ (by norm_num) (by norm_num)

theorem round_natCast {value : Nat} (small : value ≤ 2 ^ 53) : round (value : ℚ) = value := by
  have nonneg : (0 : ℚ) ≤ value := Nat.cast_nonneg _
  have finite : (value : ℚ) ≤ infinity := (natCast_lt_infinity small).le
  have fixed : nearest (value : ℚ) = value := by
    rcases small.eq_or_lt with rfl | below
    · have log_eq : Int.log 2 ((2 ^ 53 : Nat) : ℚ) = 53 := by
        have log := Int.log_zpow (R := ℚ) (b := 2) (by norm_num) 53
        exact_mod_cast log
      apply nearest_of_coarser 1 53
      · unfold lastPlace
        omega
      · norm_cast
    · have log_lt : Int.log 2 (value : ℚ) ≤ 52 := by
        rw [Int.log_natCast]
        rcases Nat.eq_zero_or_pos value with rfl | positive
        · simp
        · have log := Nat.log_lt_of_lt_pow positive.ne' below
          omega
      apply nearest_of_coarser value 0
      · unfold lastPlace
        omega
      · simp
  rw [round, if_neg (not_lt.mpr nonneg), roundMagnitude, fixed, min_eq_left finite]

theorem lt_iff_of_round_ne {left right : ℚ} (apart : round left ≠ round right) :
    left < right ↔ round left < round right := by
  constructor
  · intro lt
    exact lt_of_le_of_ne (round_mono lt.le) apart
  · intro lt
    by_contra ge
    exact absurd (round_mono (not_lt.mp ge)) (not_le.mpr lt)

def halfUnit : ℚ := 2 ^ (-53 : ℤ)

theorem halfUnit_pos : 0 < halfUnit := two_zpow_pos _

theorem two_zpow_lastPlace_half (power : ℤ) :
    (2 : ℚ) ^ (power - 52) / 2 = 2 ^ power * halfUnit := by
  rw [halfUnit, ← zpow_add₀ (by norm_num), div_eq_mul_inv, ← zpow_neg_one,
    ← zpow_add₀ (by norm_num)]
  congr 1
  omega

/-! ### How far rounding goes -/

theorem sub_half_le_roundHalfEven (value : ℚ) : value - 1 / 2 ≤ roundHalfEven value := by
  have floor := Int.lt_floor_add_one value
  unfold roundHalfEven
  split_ifs with below above even
  all_goals
    push_cast
    linarith

theorem sub_half_le_snap (exponent : ℤ) (value : ℚ) :
    value - 2 ^ exponent / 2 ≤ snap exponent value := by
  have positive := two_zpow_pos exponent
  have scaled := mul_le_mul_of_nonneg_right (sub_half_le_roundHalfEven (value / 2 ^ exponent))
    positive.le
  calc value - 2 ^ exponent / 2 = (value / 2 ^ exponent - 1 / 2) * 2 ^ exponent := by
        field_simp
    _ ≤ snap exponent value := scaled

theorem two_zpow_log_le_nearest {value : ℚ} (positive : 0 < value)
    (normal : -1022 ≤ Int.log 2 value) : 2 ^ Int.log 2 value ≤ nearest value := by
  have place : lastPlace value ≤ Int.log 2 value := by
    unfold lastPlace
    omega
  calc (2 : ℚ) ^ Int.log 2 value = snap (lastPlace value) (2 ^ Int.log 2 value) :=
        (snap_two_zpow place).symm
    _ ≤ nearest value := snap_mono _ (two_zpow_log_le positive)

theorem le_log_of_two_zpow_le {value : ℚ} {power : ℤ} (le : 2 ^ power ≤ value) :
    power ≤ Int.log 2 value := by
  have positive : 0 < value := (two_zpow_pos power).trans_le le
  have power_le := Int.log_mono_right (b := 2) (two_zpow_pos power) le
  have log_eq : Int.log 2 ((2 : ℚ) ^ power) = power := by
    exact_mod_cast Int.log_zpow (R := ℚ) (b := 2) (by norm_num) power
  omega

theorem le_nearest_mul {value : ℚ} (normal : 2 ^ (-1022 : ℤ) ≤ value) :
    value ≤ nearest value * (1 + halfUnit) := by
  have positive : 0 < value := (two_zpow_pos _).trans_le normal
  have log := le_log_of_two_zpow_le normal
  have place : lastPlace value = Int.log 2 value - 52 := by
    unfold lastPlace
    omega
  have off := sub_half_le_snap (lastPlace value) value
  rw [place, two_zpow_lastPlace_half, ← place] at off
  have part := mul_le_mul_of_nonneg_right (two_zpow_log_le_nearest positive log) halfUnit_pos.le
  have moved : value - 2 ^ Int.log 2 value * halfUnit ≤ nearest value := off
  linarith

/-! ### How far apart values are -/

theorem round_two_zpow {power : ℤ} (normal : -1022 ≤ power) (finite : power ≤ 1024) :
    round (2 ^ power) = 2 ^ power := by
  have positive := two_zpow_pos power
  have log_eq : Int.log 2 ((2 : ℚ) ^ power) = power := by
    exact_mod_cast Int.log_zpow (R := ℚ) (b := 2) (by norm_num) power
  have fixed : nearest (2 ^ power) = 2 ^ power := by
    apply snap_two_zpow
    unfold lastPlace
    omega
  rw [round, if_neg (not_lt.mpr positive.le), roundMagnitude, fixed]
  exact min_eq_left (zpow_le_zpow_right₀ (by norm_num) finite)

theorem round_le_infinity (value : ℚ) : round value ≤ infinity := by
  unfold round
  split_ifs with negative
  · have nonneg : 0 ≤ roundMagnitude (-value) := roundMagnitude_nonneg (by linarith)
    exact (neg_nonpos.mpr nonneg).trans infinity_pos.le
  · exact min_le_right _ _

theorem nearest_of_rounded {value : ℚ} (nonneg : 0 ≤ value) (rounded : round value = value) :
    nearest value = value := by
  have magnitude : min (nearest value) infinity = value := by
    simpa [round, not_lt.mpr nonneg, roundMagnitude] using rounded
  rcases le_total (nearest value) infinity with finite | overflow
  · rw [min_eq_left finite] at magnitude
    exact magnitude
  · rw [min_eq_right overflow] at magnitude
    rw [← magnitude, nearest_infinity]

theorem exists_multiple {value : ℚ} (fixed : nearest value = value) {exponent : ℤ}
    (finer : exponent ≤ lastPlace value) : ∃ multiplier : ℤ, value = multiplier * 2 ^ exponent := by
  refine ⟨roundHalfEven (value / 2 ^ lastPlace value) * 2 ^ (lastPlace value - exponent).toNat, ?_⟩
  push_cast
  rw [← zpow_natCast, Int.toNat_of_nonneg (by omega), mul_assoc, ← zpow_add₀ (by norm_num),
    sub_add_cancel]
  exact fixed.symm

theorem spacing {low high : ℚ} (positive : 0 < low) (lt : low < high)
    (lowFixed : nearest low = low) (highFixed : nearest high = high) :
    low * (1 + halfUnit) < high := by
  obtain ⟨lower, lowMultiple⟩ := exists_multiple lowFixed le_rfl
  obtain ⟨upper, highMultiple⟩ := exists_multiple highFixed (lastPlace_mono positive lt.le)
  have place := two_zpow_pos (lastPlace low)
  have apart : low + 2 ^ lastPlace low ≤ high := by
    have order : lower < upper := by
      have scaled : (lower : ℚ) * 2 ^ lastPlace low < upper * 2 ^ lastPlace low := by
        rw [← lowMultiple, ← highMultiple]
        exact lt
      exact_mod_cast lt_of_mul_lt_mul_right scaled place.le
    have next : ((lower + 1 : ℤ) : ℚ) ≤ upper := by exact_mod_cast order
    have scaled := mul_le_mul_of_nonneg_right next place.le
    rw [← highMultiple] at scaled
    push_cast at scaled
    linarith [lowMultiple]
  have half : low * halfUnit < 2 ^ lastPlace low := by
    have binade := mul_lt_mul_of_pos_right (lt_two_zpow_log low) halfUnit_pos
    have coarser : (2 : ℚ) ^ (Int.log 2 low - 52) ≤ 2 ^ lastPlace low :=
      zpow_le_zpow_right₀ (by norm_num) (le_max_left _ _)
    have unit : (2 : ℚ) ^ (Int.log 2 low + 1) * halfUnit = 2 ^ (Int.log 2 low - 52) := by
      rw [halfUnit, ← zpow_add₀ (by norm_num)]
      congr 1
      omega
    linarith
  linarith

theorem lt_round_div {low scale high : ℚ} (large : 1 ≤ scale) (nonneg : 0 ≤ low)
    (lowRounded : round (low * scale) = low * scale) (highRounded : round high = high)
    (lt : low * scale < high) (normal : 2 ^ (-1022 : ℤ) ≤ high / scale) :
    low < round (high / scale) := by
  have scalePositive : 0 < scale := by linarith
  have product : 0 ≤ low * scale := mul_nonneg nonneg scalePositive.le
  have highPositive : 0 < high := product.trans_lt lt
  have spaced : low * scale * (1 + halfUnit) < high := by
    rcases product.eq_or_lt with zero | positive
    · rwa [← zero, zero_mul]
    · exact spacing positive lt (nearest_of_rounded product lowRounded)
        (nearest_of_rounded highPositive.le highRounded)
  have quotient : low * (1 + halfUnit) < high / scale := by
    rw [lt_div_iff₀ scalePositive]
    linarith
  have above : low < nearest (high / scale) := by
    have scaled := quotient.trans_le (le_nearest_mul normal)
    exact lt_of_mul_lt_mul_right scaled (by linarith [halfUnit_pos])
  have finite : low < infinity := by
    have part : low ≤ low * scale := le_mul_of_one_le_right nonneg large
    have bound := round_le_infinity high
    rw [highRounded] at bound
    linarith
  rw [round, if_neg (not_lt.mpr (div_nonneg highPositive.le scalePositive.le)), roundMagnitude]
  exact lt_min above finite

end SorobanExplorer.Library.Binary64
