import SorobanExplorer.Library.JsArithmetic
import SorobanExplorer.Library.Utf16
import Mathlib.Data.Nat.Digits.Defs
import Mathlib.Data.Nat.Digits.Lemmas
import Mathlib.Tactic.Common
import Mathlib.Data.List.DropRight

/-!
Owns numerals as texts. Those of one length are ordered as their numbers, and a longer one is of a
larger number whatever the texts say. Decimal texts are code units: digits padded to a width, the
order of texts of one width against the order of the numbers, and `String(number)` for whole
numbers.
-/

namespace SorobanExplorer.Library

namespace DigitOrder

universe u

/-! ### Numerals -/

def numeral (base value : ℕ) : List ℕ :=
  if value = 0 then [0] else (Nat.digits base value).reverse

variable {base : ℕ}

theorem lt_of_mem_numeral (large : 1 < base) {value digit : ℕ}
    (listed : digit ∈ numeral base value) :
    digit < base := by
  unfold numeral at listed
  split_ifs at listed
  · rw [List.mem_singleton.mp listed]
    omega
  · exact Nat.digits_lt_base large (List.mem_reverse.mp listed)

theorem ofDigits_numeral (base value : ℕ) :
    Nat.ofDigits base (numeral base value).reverse = value := by
  unfold numeral
  split_ifs with zero
  · rw [zero]
    rfl
  · rw [List.reverse_reverse, Nat.ofDigits_digits]

theorem length_numeral_pos (base value : ℕ) : 0 < (numeral base value).length := by
  unfold numeral
  split_ifs with zero
  · exact Nat.zero_lt_one
  · rw [List.length_reverse]
    exact List.length_pos_of_ne_nil (Nat.digits_ne_nil_iff_ne_zero.mpr zero)

theorem length_numeral_mono {left right : ℕ} (le : left ≤ right) :
    (numeral base left).length ≤ (numeral base right).length := by
  by_cases zero : left = 0
  · have one : (numeral base left).length = 1 := by rw [numeral, if_pos zero, List.length_singleton]
    have positive := length_numeral_pos base right
    omega
  · have rightPositive : right ≠ 0 := by omega
    rw [numeral, numeral, if_neg zero, if_neg rightPositive, List.length_reverse,
      List.length_reverse]
    exact Nat.le_length_digits_le base left right le

theorem lt_of_length_lt {left right : ℕ}
    (shorter : (numeral base left).length < (numeral base right).length) : left < right := by
  by_contra notLess
  have longer := @length_numeral_mono base _ _ (not_lt.mp notLess)
  omega

theorem numeral_injective {left right : ℕ} (same : numeral base left = numeral base right) :
    left = right := by
  rw [← ofDigits_numeral base left, same, ofDigits_numeral]

/-! ### Texts -/

section Texts

variable {υ : Type u} [LT υ] {unit : ℕ → υ}

theorem ofDigits_reverse_cons (digit : ℕ) (digits : List ℕ) :
    Nat.ofDigits base (digit :: digits).reverse =
      Nat.ofDigits base digits.reverse + base ^ digits.length * digit := by
  rw [List.reverse_cons, Nat.ofDigits_append, List.length_reverse, Nat.ofDigits_singleton]

theorem append_lt_append_iff (large : 1 < base)
    (asymm : ∀ low high : υ, low < high → ¬ high < low)
    (mono : ∀ low high, low < high → high < base → unit low < unit high)
    {left right : List ℕ} (same : left.length = right.length)
    (leftDigits : ∀ digit ∈ left, digit < base) (rightDigits : ∀ digit ∈ right, digit < base)
    (leftRest rightRest : List υ) :
    left.map unit ++ leftRest < right.map unit ++ rightRest ↔
      Nat.ofDigits base left.reverse < Nat.ofDigits base right.reverse ∨
        left = right ∧ leftRest < rightRest := by
  induction left generalizing right with
  | nil =>
    cases List.length_eq_zero_iff.mp same.symm
    simp
  | cons first left ih =>
    cases right with
    | nil => cases same
    | cons second right =>
      have lengths : left.length = right.length := Nat.succ.inj same
      rw [List.forall_mem_cons] at leftDigits rightDigits
      have tails := ih lengths leftDigits.2 rightDigits.2
      have leftBound : Nat.ofDigits base left.reverse < base ^ left.reverse.length :=
        Nat.ofDigits_lt_base_pow_length large fun digit listed =>
          leftDigits.2 digit (List.mem_reverse.mp listed)
      have rightBound : Nat.ofDigits base right.reverse < base ^ right.reverse.length :=
        Nat.ofDigits_lt_base_pow_length large fun digit listed =>
          rightDigits.2 digit (List.mem_reverse.mp listed)
      rw [List.length_reverse] at leftBound rightBound
      rw [List.map_cons, List.map_cons, List.cons_append, List.cons_append,
        List.cons_lt_cons_iff, ofDigits_reverse_cons, ofDigits_reverse_cons, ← lengths]
      rw [← lengths] at rightBound
      rcases Nat.lt_trichotomy first second with less | equal | greater
      · have units := mono first second less rightDigits.1
        have step := Nat.mul_le_mul_left (base ^ left.length) (Nat.succ_le_of_lt less)
        rw [Nat.mul_succ] at step
        constructor
        · exact fun _ => .inl (by omega)
        · exact fun _ => .inl units
      · subst equal
        have irrefl : ¬ unit first < unit first := fun less => asymm _ _ less less
        rw [tails]
        simp [irrefl]
      · have units := mono second first greater leftDigits.1
        have step := Nat.mul_le_mul_left (base ^ left.length) (Nat.succ_le_of_lt greater)
        rw [Nat.mul_succ] at step
        constructor
        · rintro (less | ⟨equal, -⟩)
          · exact absurd units (asymm _ _ less)
          · rw [equal] at units
            exact absurd units (asymm _ _ units)
        · rintro (less | ⟨equal, -⟩)
          · omega
          · cases equal
            omega

end Texts

end DigitOrder

namespace Digit

/-! ### One width -/

theorem number_cons (digit : Digit) (digits : List Digit) :
    number (digit :: digits) = digit.val * 10 ^ digits.length + number digits := by
  have first : number [digit] = digit.val := by simp [number]
  rw [← List.singleton_append, number_append, first]

theorem lastDigits_number (digits : List Digit) :
    lastDigits digits.length (number digits) = digits := by
  induction digits using List.reverseRecOn with
  | nil => rfl
  | append_singleton digits digit ih =>
    have value : number (digits ++ [digit]) = 10 * number digits + digit.val := by
      rw [number_append]
      simp [number, Nat.mul_comm]
    have below := digit.isLt
    have quotient : number (digits ++ [digit]) / 10 = number digits := by omega
    have remainder : number (digits ++ [digit]) % 10 = digit.val := by omega
    rw [List.length_append, List.length_singleton, lastDigits, quotient, ih]
    simp only [remainder]

theorem number_injective {left right : List Digit} (lengths : left.length = right.length)
    (same : number left = number right) : left = right := by
  rw [← lastDigits_number left, ← lastDigits_number right, lengths, same]

theorem number_replicate_zero (count : ℕ) : number (List.replicate count 0) = 0 := by
  induction count with
  | zero => rfl
  | succ count ih =>
    rw [List.replicate_succ, number_cons, ih]
    simp

theorem length_ofNat_le {value width : ℕ} (positive : 0 < width) (small : value < 10 ^ width) :
    (ofNat value).length ≤ width := by
  have digits := Nat.log_lt_of_lt_pow' positive.ne' small
  rw [ofNat_length]
  omega

theorem leftpad_ofNat {value width : ℕ} (positive : 0 < width) (small : value < 10 ^ width) :
    List.leftpad width 0 (ofNat value) = lastDigits width value := by
  have short := length_ofNat_le positive small
  apply number_injective
  · rw [List.leftpad, List.length_append, List.length_replicate, lastDigits_length]
    omega
  · rw [List.leftpad, number_append, number_replicate_zero, number_ofNat, number_lastDigits,
      Nat.mod_eq_of_lt small]
    omega

/-! ### Fractions -/

/-- `String(value).padStart(places, "0")` -/
def leftpadZeros (places value : ℕ) : List Digit := List.leftpad places 0 (ofNat value)

def fraction (digits : List Digit) : ℚ := number digits / 10 ^ digits.length

theorem fraction_concat (digits : List Digit) (digit : Digit) :
    fraction (digits ++ [digit]) = fraction digits + digit.val / 10 ^ (digits.length + 1) := by
  have last : number [digit] = digit.val := by simp [number]
  unfold fraction
  rw [number_append, last, List.length_append, List.length_singleton, pow_one]
  push_cast
  field_simp
  ring

theorem fraction_nonneg (digits : List Digit) : 0 ≤ fraction digits := by
  unfold fraction
  positivity

theorem fraction_lt_one (digits : List Digit) : fraction digits < 1 := by
  rw [fraction, div_lt_one (by positivity)]
  exact_mod_cast number_lt digits

def dropZeros (digits : List Digit) : List Digit := digits.rdropWhile (· = 0)

theorem fraction_dropZeros (digits : List Digit) : fraction (dropZeros digits) = fraction digits := by
  unfold dropZeros
  induction digits using List.reverseRecOn with
  | nil => rfl
  | append_singleton digits digit ih =>
    by_cases zero : digit = 0
    · rw [List.rdropWhile_concat_pos _ _ _ (by simpa using zero), ih,
        fraction_concat, zero]
      simp
    · rw [List.rdropWhile_concat_neg _ _ _ (by simpa using zero)]

theorem fraction_leftpad {value places : ℕ} (small : value < 10 ^ places) :
    fraction (leftpadZeros places value) = value / 10 ^ places := by
  rcases Nat.eq_zero_or_pos places with rfl | positive
  · have zero : value = 0 := by simpa using small
    have none : number (leftpadZeros 0 0) = 0 := by decide
    rw [zero, fraction, none, Nat.cast_zero, zero_div, zero_div]
  · rw [leftpadZeros, leftpad_ofNat positive small, fraction, number_lastDigits,
      Nat.mod_eq_of_lt small, lastDigits_length]

/-! ### Code units -/

def unit (digit : Digit) : UInt16 := UInt16.ofNat (48 + digit.val)

/-- The digit a code unit stands for: `\d` without flags. -/
def ofUnit? (unit : UInt16) : Option Digit :=
  if h : 48 ≤ unit.toNat ∧ unit.toNat - 48 < 10 then some ⟨unit.toNat - 48, h.2⟩ else none

@[simp] theorem ofUnit?_unit (digit : Digit) : ofUnit? digit.unit = some digit := by
  revert digit
  decide

theorem unit_of_ofUnit? {unit : UInt16} {digit : Digit} (read : ofUnit? unit = some digit) :
    digit.unit = unit := by
  unfold ofUnit? at read
  split_ifs at read with range
  cases read
  apply UInt16.toNat_inj.mp
  simp only [Digit.unit]
  rw [UInt16.toNat_ofNat_of_lt']
  · omega
  · show 48 + (unit.toNat - 48) < 2 ^ 16
    omega

def units (digits : List Digit) : List UInt16 := digits.map unit

theorem notMem_units {mark : UInt16} (apart : ∀ digit : Digit, digit.unit ≠ mark)
    (digits : List Digit) : mark ∉ units digits := by
  intro listed
  obtain ⟨digit, -, same⟩ := List.mem_map.mp listed
  exact apart digit same

theorem units_length (digits : List Digit) : (units digits).length = digits.length :=
  List.length_map _

theorem encode_chars (digits : List Digit) :
    Utf16.encode (digits.map char) = units digits := by
  have one : ∀ digit : Digit, Utf16.encodeChar digit.char = [digit.unit] := by decide
  induction digits with
  | nil => rfl
  | cons digit digits ih =>
    rw [List.map_cons, Utf16.encode_cons, one, ih]
    rfl

theorem filterMap_units (digits : List Digit) : (units digits).filterMap ofUnit? = digits := by
  unfold units
  rw [List.filterMap_map]
  have reads : ofUnit? ∘ unit = some := funext ofUnit?_unit
  rw [reads, List.filterMap_some]

theorem units_filterMap {text : List UInt16}
    (all : ∀ unit ∈ text, (ofUnit? unit).isSome = true) :
    units (text.filterMap ofUnit?) = text := by
  induction text with
  | nil => rfl
  | cons first rest ih =>
    have others := ih fun unit listed => all unit (List.mem_cons_of_mem _ listed)
    obtain ⟨digit, read⟩ := Option.isSome_iff_exists.mp (all first List.mem_cons_self)
    rw [List.filterMap_cons_some read]
    show digit.unit :: units _ = first :: rest
    rw [others, unit_of_ofUnit? read]

theorem units_leftpad (width : ℕ) (digits : List Digit) :
    List.leftpad width (unit 0) (units digits) = units (List.leftpad width 0 digits) := by
  unfold List.leftpad units
  rw [List.map_append, List.map_replicate, List.length_map]

theorem unit_injective {left right : Digit} (same : left.unit = right.unit) : left = right := by
  have read := ofUnit?_unit left
  rw [same, ofUnit?_unit] at read
  exact (Option.some.inj read).symm

theorem units_dropZeros (digits : List Digit) :
    (units digits).rdropWhile (· = unit 0) = units (dropZeros digits) := by
  unfold units dropZeros
  induction digits using List.reverseRecOn with
  | nil => rfl
  | append_singleton digits digit ih =>
    rw [List.map_append, List.map_singleton]
    by_cases zero : digit = 0
    · rw [List.rdropWhile_concat_pos _ _ _ (by simp [zero]),
        List.rdropWhile_concat_pos _ _ _ (by simpa using zero), ih]
    · have apart : digit.unit ≠ unit 0 := fun same => zero (unit_injective same)
      rw [List.rdropWhile_concat_neg _ _ _ (by simpa using apart),
        List.rdropWhile_concat_neg _ _ _ (by simpa using zero), List.map_append,
        List.map_singleton]

/-! ### Order -/

theorem ofDigits_reverse (digits : List Digit) :
    Nat.ofDigits 10 (digits.map Fin.val).reverse = number digits := by
  induction digits with
  | nil => rfl
  | cons digit digits ih =>
    rw [List.map_cons, DigitOrder.ofDigits_reverse_cons, ih, number_cons,
      List.length_map]
    ring

theorem units_append_lt_iff {left right : List Digit} (lengths : left.length = right.length)
    (leftRest rightRest : List UInt16) :
    units left ++ leftRest < units right ++ rightRest ↔
      number left < number right ∨ left = right ∧ leftRest < rightRest := by
  have spelled (digits : List Digit) :
      units digits = (digits.map Fin.val).map fun value => UInt16.ofNat (48 + value) := by
    rw [List.map_map]
    rfl
  have below (digits : List Digit) : ∀ value ∈ digits.map Fin.val, value < 10 := by
    intro value listed
    obtain ⟨digit, -, rfl⟩ := List.mem_map.mp listed
    exact digit.isLt
  have mono (low high : ℕ) (less : low < high) (bound : high < 10) :
      UInt16.ofNat (48 + low) < UInt16.ofNat (48 + high) := by
    have wide : UInt16.size = 65536 := rfl
    rw [UInt16.lt_iff_toNat_lt, UInt16.toNat_ofNat_of_lt' (by omega),
      UInt16.toNat_ofNat_of_lt' (by omega)]
    omega
  have decided := @DigitOrder.append_lt_append_iff 10 _ _ (fun value => UInt16.ofNat (48 + value))
    (by decide) (fun _ _ => UInt16.lt_asymm) mono _ _ (by simpa using lengths) (below left)
    (below right) leftRest rightRest
  rwa [ofDigits_reverse, ofDigits_reverse, ← spelled, ← spelled,
    (List.map_injective_iff.mpr Fin.val_injective).eq_iff] at decided

end Digit

/-! ### Whole numbers -/

namespace JsNumber

theorem search?_some {magnitude : ℚ} {point : ℤ} {tries start count : ℕ} (low : start ≤ count)
    (high : count < start + tries)
    (candidate : (candidate? magnitude (10 ^ (point - count))).isSome = true) :
    ∃ found, search? magnitude point tries start = some found ∧ found.count ≤ count ∧
      found.point = point := by
  induction tries generalizing start with
  | zero => omega
  | succ tries ih =>
    unfold search?
    split
    next digits here => exact ⟨_, rfl, low, rfl⟩
    next missing =>
      have later : start ≠ count := by
        rintro rfl
        rw [missing] at candidate
        cases candidate
      exact ih (by omega) (by omega)

theorem carry_fits (shortest : Shortest) (fits : shortest.count ≤ shortest.point) :
    ((carry shortest).count : ℤ) ≤ (carry shortest).point ∧
      (carry shortest).point ≤ shortest.point + 1 := by
  unfold carry
  split_ifs
  · exact ⟨by simp only; omega, le_rfl⟩
  · exact ⟨fits, by omega⟩

theorem eq_of_round_natCast {wide value : ℕ} (small : value < 2 ^ 53)
    (rounded : Binary64.round (wide : ℚ) = value) : wide = value := by
  by_cases fits : wide ≤ 2 ^ 53
  · rw [Binary64.round_natCast fits] at rounded
    exact_mod_cast rounded
  · have above := @Binary64.round_mono ((2 ^ 53 : ℕ) : ℚ) (wide : ℚ) (by
      exact_mod_cast (not_le.mp fits).le)
    rw [rounded, Binary64.round_natCast le_rfl] at above
    have bounded : (2 ^ 53 : ℕ) ≤ value := by exact_mod_cast above
    omega

theorem candidate?_whole {value : ℕ} (small : value < 2 ^ 53) :
    (candidate? (value : ℚ) 1).isSome = true := by
  have near : Binary64.roundHalfEven ((value : ℚ) / 1) = value := by
    rw [div_one]
    exact_mod_cast Binary64.roundHalfEven_intCast value
  unfold candidate?
  simp only [near, Int.toNat_natCast, mul_one, Binary64.round_natCast small.le, if_true,
    Option.isSome_some]

theorem shortest_whole {value : ℕ} (positive : 0 < value) (small : value < 2 ^ 53) :
    let found := shortest (value : ℚ)
    (found.count : ℤ) ≤ found.point ∧ found.point ≤ 21 ∧
      found.digits * 10 ^ (found.point - found.count).toNat = value := by
  intro found
  have digits : Nat.log 10 value < 16 :=
    Nat.log_lt_of_lt_pow positive.ne' (lt_trans small (by decide))
  have point : Int.log 10 (value : ℚ) + 1 = (Nat.log 10 value + 1 : ℕ) := by
    rw [Int.log_natCast]
    push_cast
    rfl
  have candidate : (candidate? (value : ℚ)
      (10 ^ (Int.log 10 (value : ℚ) + 1 - (Nat.log 10 value + 1 : ℕ)))).isSome = true := by
    rw [point, sub_self, zpow_zero]
    exact candidate?_whole small
  obtain ⟨first, search, count, place⟩ :=
    @search?_some _ _ 17 1 _ (by omega) (by omega) candidate
  have spec : found = carry first := by
    show shortest _ = _
    rw [shortest, search, Option.map_some, Option.getD_some]
  have placed := carry_fits first (by omega)
  have rounded := (search?_round search).1
  rw [← carry_value, ← spec] at rounded
  rw [← spec] at placed
  refine ⟨placed.1, by omega, ?_⟩
  apply eq_of_round_natCast small
  rw [← rounded, Shortest.value]
  push_cast
  rw [← zpow_natCast, Int.toNat_of_nonneg (by omega)]

theorem text_ofNat {value : ℕ} (small : value < 2 ^ 53) :
    (ofNat value).text = (Digit.ofNat value).map Digit.char := by
  have plain (value : ℕ) :
      (Numeral.plain false value 0).text = (Digit.ofNat value).map Digit.char := by
    rw [Numeral.text, Numeral.plain]
    simp [Digit.lastDigits, Numeral.digits?, Numeral.fractionText, Numeral.exponentText]
  rw [text, if_pos (isFinite_ofNat small.le), numeral, ofNat_value small.le]
  by_cases zero : value = 0
  · rw [if_pos (by exact_mod_cast zero), zero]
    exact plain 0
  · have nonneg : ¬ (value : ℚ) < 0 := not_lt.mpr (Nat.cast_nonneg value)
    obtain ⟨fits, placed, whole⟩ := shortest_whole (Nat.pos_of_ne_zero zero) small
    rw [if_neg (by exact_mod_cast zero), abs_of_nonneg (Nat.cast_nonneg value), layout,
      if_pos ⟨fits, placed⟩, whole, decide_eq_false nonneg]
    exact plain value

end JsNumber

end SorobanExplorer.Library
