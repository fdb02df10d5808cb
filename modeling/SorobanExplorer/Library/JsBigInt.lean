import SorobanExplorer.Library.DecimalText
import Mathlib.Data.Int.Bitwise
import Mathlib.Tactic.Ring

/-!
Owns BigInts of ECMAScript: `BigInt(text)` with the white space, signs and bases it
allows, `String(value)`, and the bits of a value.
-/

namespace SorobanExplorer.Library

namespace JsBigInt

/-! ### Reading -/

def isWhitespace (unit : UInt16) : Bool :=
  (9 ≤ unit.toNat && unit.toNat ≤ 13) || unit.toNat = 32 || unit.toNat = 0xA0 ||
    unit.toNat = 0x1680 || (0x2000 ≤ unit.toNat && unit.toNat ≤ 0x200A) || unit.toNat = 0x2028 ||
    unit.toNat = 0x2029 || unit.toNat = 0x202F || unit.toNat = 0x205F || unit.toNat = 0x3000 ||
    unit.toNat = 0xFEFF

def trim (text : List UInt16) : List UInt16 := (text.dropWhile isWhitespace).rdropWhile isWhitespace

def digitIn? (base : ℕ) (unit : UInt16) : Option ℕ :=
  let value := unit.toNat
  let digit :=
    if 48 ≤ value ∧ value ≤ 57 then value - 48
    else if 65 ≤ value ∧ value ≤ 70 then value - 55
    else if 97 ≤ value ∧ value ≤ 102 then value - 87
    else 16
  if digit < base then some digit else none

def radixInteger? (base : ℕ) (text : List UInt16) : Option ℤ :=
  if text = [] then none
  else (text.mapM (digitIn? base)).map fun digits =>
    digits.foldl (fun value digit => base * value + digit) (0 : ℕ)

def decimalInteger? (text : List UInt16) : Option ℤ :=
  if text = [] then none
  else (text.mapM Digit.ofUnit?).map fun digits => (Digit.number digits : ℤ)

/-- The base of `0x`, `0o` and `0b`. -/
def base? (mark : UInt16) : Option ℕ :=
  if mark = 120 ∨ mark = 88 then some 16
  else if mark = 111 ∨ mark = 79 then some 8
  else if mark = 98 ∨ mark = 66 then some 2
  else none

def signedInteger? : List UInt16 → Option ℤ
  | [] => none
  | sign :: rest =>
    if sign = 45 then (decimalInteger? rest).map (-·)
    else if sign = 43 then decimalInteger? rest
    else decimalInteger? (sign :: rest)

/-- `BigInt(text)`; `none` is a `SyntaxError`. -/
def ofText? (text : List UInt16) : Option ℤ :=
  match trim text with
  | [] => some 0
  | [unit] => signedInteger? [unit]
  | zero :: mark :: rest =>
    match (base? mark).filter fun _ => zero = 48 with
    | some base => radixInteger? base rest
    | none => signedInteger? (zero :: mark :: rest)

/-! ### Writing -/

inductive Sign where
  | absent
  | plus
  | minus
deriving DecidableEq

namespace Sign

def units : Sign → List UInt16
  | absent => []
  | plus => [43]
  | minus => [45]

def factor : Sign → ℤ
  | minus => -1
  | _ => 1

def ofNegative (negative : Bool) : Sign := if negative then minus else absent

end Sign

/-- `String(value)` -/
def text (value : ℤ) : List UInt16 :=
  (Sign.ofNegative (value < 0)).units ++ Digit.units (Digit.ofNat value.natAbs)

/-! ### Signed digits read back -/

theorem isWhitespace_unit (digit : Digit) : isWhitespace digit.unit = false := by
  revert digit
  decide

theorem base?_unit (digit : Digit) : base? digit.unit = none := by
  revert digit
  decide

theorem decimalInteger?_units {digits : List Digit} (nonempty : digits ≠ []) :
    decimalInteger? (Digit.units digits) = some (Digit.number digits : ℤ) := by
  have read : (Digit.units digits).mapM Digit.ofUnit? = some digits := by
    clear nonempty
    induction digits with
    | nil => rfl
    | cons digit digits ih =>
      show (digit.unit :: Digit.units digits).mapM Digit.ofUnit? = _
      rw [List.mapM_cons, Digit.ofUnit?_unit, ih]
      rfl
  rw [decimalInteger?, if_neg (by simpa [Digit.units] using nonempty), read]
  rfl

theorem signedInteger?_units (sign : Sign) {digits : List Digit} (nonempty : digits ≠ []) :
    signedInteger? (sign.units ++ Digit.units digits) =
      some (sign.factor * Digit.number digits) := by
  have read := decimalInteger?_units nonempty
  cases sign with
  | plus => simpa [Sign.units, Sign.factor, signedInteger?] using read
  | minus => simp [Sign.units, Sign.factor, signedInteger?, read]
  | absent =>
    cases digits with
    | nil => exact absurd rfl nonempty
    | cons digit digits =>
      have marks : ∀ digit : Digit, digit.unit ≠ 45 ∧ digit.unit ≠ 43 := by decide
      show signedInteger? (digit.unit :: Digit.units digits) = _
      rw [signedInteger?, if_neg (marks digit).1, if_neg (marks digit).2]
      have factor : Sign.absent.factor = 1 := rfl
      rw [factor, one_mul]
      exact read

theorem trim_signed (sign : Sign) {digits : List Digit} (nonempty : digits ≠ []) :
    trim (sign.units ++ Digit.units digits) = sign.units ++ Digit.units digits := by
  have begin : (sign.units ++ Digit.units digits).dropWhile isWhitespace =
      sign.units ++ Digit.units digits := by
    cases sign with
    | plus => exact List.dropWhile_cons_of_neg (by decide)
    | minus => exact List.dropWhile_cons_of_neg (by decide)
    | absent =>
      cases digits with
      | nil => exact absurd rfl nonempty
      | cons digit digits =>
        exact List.dropWhile_cons_of_neg (by simp [isWhitespace_unit])
  rw [trim, begin, List.rdropWhile_eq_self_iff]
  intro _
  have last : Digit.units digits ≠ [] := by simpa [Digit.units] using nonempty
  rw [List.getLast_append_of_ne_nil _ last]
  obtain ⟨digit, -, same⟩ := List.mem_map.mp (List.getLast_mem last)
  rw [← same, isWhitespace_unit]
  exact Bool.false_ne_true

theorem ofText?_signed (sign : Sign) {digits : List Digit} (nonempty : digits ≠ []) :
    ofText? (sign.units ++ Digit.units digits) = some (sign.factor * Digit.number digits) := by
  have read := signedInteger?_units sign nonempty
  unfold ofText?
  rw [trim_signed sign nonempty]
  split
  next empty =>
    rw [empty] at read
    cases read
  next unit single => rw [← single, read]
  next zero mark rest spelled =>
    have decimal : (base? mark).filter (fun _ => decide (zero = 48)) = none := by
      cases sign with
      | plus =>
        cases List.head_eq_of_cons_eq spelled
        cases base? mark <;> rfl
      | minus =>
        cases List.head_eq_of_cons_eq spelled
        cases base? mark <;> rfl
      | absent =>
        have listed : mark ∈ Digit.units digits := by
          have whole : Digit.units digits = zero :: mark :: rest := spelled
          rw [whole]
          simp
        obtain ⟨digit, -, rfl⟩ := List.mem_map.mp listed
        rw [base?_unit]
        rfl
    rw [decimal, ← spelled, read]

theorem factor_mul_natAbs (value : ℤ) :
    (Sign.ofNegative (value < 0)).factor * (value.natAbs : ℤ) = value := by
  by_cases negative : value < 0
  · rw [Sign.ofNegative, if_pos (decide_eq_true negative), Sign.factor,
      Int.ofNat_natAbs_of_nonpos negative.le]
    ring
  · have factor : Sign.absent.factor = 1 := rfl
    rw [Sign.ofNegative, if_neg (by simpa using negative), factor,
      Int.natAbs_of_nonneg (not_lt.mp negative), one_mul]

theorem ofText?_text (value : ℤ) : ofText? (text value) = some value := by
  rw [text, ofText?_signed _ (Digit.ofNat_ne_nil _), Digit.number_ofNat, factor_mul_natAbs]

/-! ### Bits -/

/-- `value << places` -/
def shiftLeft (value : ℤ) (places : ℕ) : ℤ := value * 2 ^ places

/-- `left | right`, in two's complement with endless signs -/
def or (left right : ℤ) : ℤ := Int.lor left right

theorem ldiff_of_lt (high : ℕ) {low width : ℕ} (small : low < 2 ^ width) :
    Nat.ldiff (2 ^ width * high + (2 ^ width - 1)) low =
      2 ^ width * high + (2 ^ width - (low + 1)) := by
  have positive : 0 < 2 ^ width := Nat.two_pow_pos width
  apply Nat.eq_of_testBit_eq
  intro place
  rw [Nat.testBit_ldiff, Nat.testBit_two_pow_mul_add _ (Nat.sub_lt positive Nat.one_pos),
    Nat.testBit_two_pow_mul_add _ (Nat.sub_lt positive (Nat.succ_pos low))]
  by_cases inside : place < width
  · rw [if_pos inside, if_pos inside, Nat.testBit_two_pow_sub_one,
      Nat.testBit_two_pow_sub_succ small]
  · have above : low < 2 ^ place :=
      small.trans_le (Nat.pow_le_pow_right Nat.two_pos (Nat.le_of_not_lt inside))
    rw [if_neg inside, if_neg inside, Nat.testBit_lt_two_pow above, Bool.not_false, Bool.and_true]

theorem or_shiftLeft (high : ℤ) {low width : ℕ} (small : low < 2 ^ width) :
    or (shiftLeft high width) low = high * 2 ^ width + low := by
  rw [or, shiftLeft]
  have positive : 0 < 2 ^ width := Nat.two_pow_pos width
  cases high with
  | ofNat high =>
    have shifted : Int.ofNat high * 2 ^ width = ((2 ^ width * high : ℕ) : ℤ) := by
      rw [Nat.mul_comm, Nat.cast_mul, Nat.cast_pow]
      rfl
    rw [shifted]
    show ((2 ^ width * high ||| low : ℕ) : ℤ) = _
    rw [← Nat.two_pow_add_eq_or_of_lt small, Nat.cast_add]
  | negSucc high =>
    have shifted : Int.negSucc high * 2 ^ width =
        Int.negSucc (2 ^ width * high + (2 ^ width - 1)) := by
      rw [Int.negSucc_eq, Int.negSucc_eq, Nat.cast_add, Nat.cast_mul, Nat.cast_sub positive]
      push_cast
      ring
    rw [shifted]
    show Int.negSucc (Nat.ldiff (2 ^ width * high + (2 ^ width - 1)) low) = _
    rw [ldiff_of_lt high small, Int.negSucc_eq, Int.negSucc_eq, Nat.cast_add, Nat.cast_add,
      Nat.cast_sub positive, Nat.cast_sub small]
    push_cast
    ring

end JsBigInt

end SorobanExplorer.Library
