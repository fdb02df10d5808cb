import SorobanExplorer.Library.JsBigInt

/-!
Owns the integers of 32 bits of ECMAScript: `parseInt(text, 10)`, the conversion of a number, and
the masks that keep leading bits.
-/

namespace SorobanExplorer.Library

namespace JsInt32

/-! ### Numbers -/

/-- `parseInt(text, 10)` after the sign. -/
def parseDigits (factor : ℤ) (text : List UInt16) : JsNumeric :=
  let digits := (text.takeWhile fun unit => (Digit.ofUnit? unit).isSome).filterMap Digit.ofUnit?
  if digits = [] then none else some (.ofRat (factor * Digit.number digits : ℤ))

/-- `parseInt(text, 10)` -/
def parseInt (text : List UInt16) : JsNumeric :=
  match text.dropWhile JsBigInt.isWhitespace with
  | [] => none
  | sign :: rest =>
    if sign = 45 then parseDigits (-1) rest
    else if sign = 43 then parseDigits 1 rest
    else parseDigits 1 (sign :: rest)

def toInt32 : JsNumeric → BitVec 32
  | none => 0
  | some number =>
    if number.isFinite then BitVec.ofInt 32 (number.value.num.tdiv number.value.den) else 0

def shiftCount (count : JsNumeric) : ℕ := (toInt32 count).toNat % 32

/-! ### Digits -/

theorem parseInt_units {digits : List Digit} (nonempty : digits ≠ [])
    {rest : List UInt16} (ends : ∀ unit ∈ rest.head?, Digit.ofUnit? unit = none) :
    parseInt (Digit.units digits ++ rest) = JsNumeric.ofNat (Digit.number digits) := by
  have taken : (Digit.units digits ++ rest).takeWhile (fun unit => (Digit.ofUnit? unit).isSome) =
      Digit.units digits := by
    have all : ∀ unit ∈ Digit.units digits, (Digit.ofUnit? unit).isSome = true := by
      intro unit listed
      obtain ⟨digit, -, rfl⟩ := List.mem_map.mp listed
      rw [Digit.ofUnit?_unit]
      rfl
    rw [List.takeWhile_append_of_pos all]
    cases rest with
    | nil => rw [List.takeWhile_nil, List.append_nil]
    | cons unit rest =>
      rw [List.takeWhile_cons_of_neg (by rw [ends unit rfl]; exact Bool.false_ne_true),
        List.append_nil]
  have read : parseDigits 1 (Digit.units digits ++ rest) = JsNumeric.ofNat (Digit.number digits) := by
    rw [parseDigits, taken, Digit.filterMap_units, if_neg nonempty, one_mul]
    rfl
  cases digits with
  | nil => exact absurd rfl nonempty
  | cons digit digits =>
    have marks : ∀ digit : Digit, digit.unit ≠ 45 ∧ digit.unit ≠ 43 := by decide
    have begin : (Digit.units (digit :: digits) ++ rest).dropWhile JsBigInt.isWhitespace =
        digit.unit :: (Digit.units digits ++ rest) :=
      List.dropWhile_cons_of_neg (by simp [JsBigInt.isWhitespace_unit])
    unfold parseInt
    rw [begin]
    simp only [(marks digit).1, (marks digit).2, if_false]
    exact read

theorem toInt32_ofNat {value : ℕ} (small : value ≤ 2 ^ 53) :
    toInt32 (JsNumeric.ofNat value) = BitVec.ofNat 32 value := by
  rw [JsNumeric.ofNat, toInt32, if_pos (JsNumber.isFinite_ofNat small), JsNumber.ofNat_value small]
  show BitVec.ofInt 32 ((value : ℤ).tdiv ((1 : ℕ) : ℤ)) = _
  rw [Nat.cast_one, Int.tdiv_one, BitVec.ofInt_natCast]

/-! ### Leading bits -/

theorem shiftLeft_or_ofNat {value byte : ℕ} (small : byte < 256) :
    BitVec.ofNat 32 value <<< 8 ||| BitVec.ofNat 32 byte = BitVec.ofNat 32 (256 * value + byte) := by
  apply BitVec.eq_of_toNat_eq
  have byteSmall : byte % 2 ^ 32 = byte := Nat.mod_eq_of_lt (by omega)
  have high : (value % 2 ^ 32) <<< 8 % 2 ^ 32 = (value % 2 ^ 24) <<< 8 := by
    simp only [Nat.shiftLeft_eq]
    omega
  rw [BitVec.toNat_or, BitVec.toNat_shiftLeft, BitVec.toNat_ofNat, BitVec.toNat_ofNat,
    BitVec.toNat_ofNat, byteSmall, high, ← Nat.shiftLeft_add_eq_or_of_lt (by omega),
    Nat.shiftLeft_eq]
  omega

/-- `~((1 << count) - 1)` -/
def leadingMask (count : ℕ) : BitVec 32 := ~~~((1#32 <<< count) - 1#32)

theorem getLsbD_leadingMask {count : ℕ} (small : count < 32) {place : ℕ} (bit : place < 32) :
    (leadingMask count).getLsbD place = decide (count ≤ place) := by
  have power : ((1#32 <<< count) - 1#32).toNat = 2 ^ count - 1 := by
    have bounded : 2 ^ count < 2 ^ 32 := Nat.pow_lt_pow_right (by decide) small
    have positive : 0 < 2 ^ count := Nat.two_pow_pos count
    rw [BitVec.toNat_sub, BitVec.toNat_shiftLeft]
    simp only [BitVec.toNat_ofNat, Nat.shiftLeft_eq]
    omega
  rw [leadingMask, BitVec.getLsbD_not, BitVec.getLsbD, power, Nat.testBit_two_pow_sub_one]
  by_cases low : place < count
  · simp [low, not_le.mpr low]
  · simp [bit, not_lt.mp low]

theorem and_leadingMask_eq_iff {count : ℕ} (small : count < 32) (left right : BitVec 32) :
    left &&& leadingMask count = right &&& leadingMask count ↔
      left.toNat / 2 ^ count = right.toNat / 2 ^ count := by
  rw [← Nat.shiftRight_eq_div_pow, ← Nat.shiftRight_eq_div_pow]
  constructor
  · intro same
    apply Nat.eq_of_testBit_eq
    intro place
    rw [Nat.testBit_shiftRight, Nat.testBit_shiftRight]
    by_cases bit : count + place < 32
    · have here := congrArg (fun bits => bits.getLsbD (count + place)) same
      simp only [BitVec.getLsbD_and, getLsbD_leadingMask small bit, Nat.le_add_right, decide_true,
        Bool.and_true] at here
      exact here
    · have leftZero := BitVec.getLsbD_of_ge left (count + place) (by omega)
      have rightZero := BitVec.getLsbD_of_ge right (count + place) (by omega)
      exact leftZero.trans rightZero.symm
  · intro same
    apply BitVec.eq_of_getLsbD_eq
    intro place bit
    rw [BitVec.getLsbD_and, BitVec.getLsbD_and, getLsbD_leadingMask small bit]
    by_cases kept : count ≤ place
    · have here := congrArg (fun number => number.testBit (place - count)) same
      simp only [Nat.testBit_shiftRight, Nat.add_sub_cancel' kept] at here
      rw [decide_eq_true kept, Bool.and_true, Bool.and_true]
      exact here
    · rw [decide_eq_false kept, Bool.and_false, Bool.and_false]

end JsInt32

end SorobanExplorer.Library
