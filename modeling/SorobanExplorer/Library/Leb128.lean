import SorobanExplorer.Library.JsInt32

/-!
Owns unsigned LEB128: the byte strings that encode a number, padded ones included, and the loop
that reads one into 32 bits.
-/

namespace SorobanExplorer.Library

namespace Leb128

/-- Seven bits in a byte, the low ones first; all bytes but the last have the high bit. -/
inductive Encodes : List UInt8 → ℕ → Prop
  | last {byte : UInt8} (final : byte.toNat < 128) : Encodes [byte] byte.toNat
  | more {byte : UInt8} (more : 128 ≤ byte.toNat) {rest : List UInt8} {value : ℕ}
      (tail : Encodes rest value) : Encodes (byte :: rest) (byte.toNat - 128 + 128 * value)

structure U32 (bytes : List UInt8) (value : ℕ) : Prop where
  encodes : Encodes bytes value
  short : bytes.length ≤ 5
  small : value < 2 ^ 32

/-- The bits from `shift` on that the bytes add to a result, and how many bytes are read. A byte
past the end counts as read, and ends the loop. -/
def readBits : List UInt8 → ℕ → BitVec 32 → BitVec 32 × ℕ
  | [], _, result => (result, 1)
  | byte :: rest, shift, result =>
    let next := result ||| BitVec.ofNat 32 (byte.toNat &&& 0x7f) <<< (shift % 32)
    if byte.toNat &&& 0x80 ≠ 0 then
      let later := readBits rest (shift + 7) next
      (later.1, later.2 + 1)
    else (next, 1)

theorem readBits_count (bytes : List UInt8) (shift : ℕ) (result : BitVec 32) :
    1 ≤ (readBits bytes shift result).2 := by
  cases bytes with
  | nil => exact le_rfl
  | cons byte rest =>
    unfold readBits
    simp only
    split_ifs
    · exact Nat.le_add_left 1 _
    · exact Nat.le_refl 1

theorem and_highBit (byte : UInt8) : byte.toNat &&& 0x80 ≠ 0 ↔ 128 ≤ byte.toNat := by
  have all : ∀ value : Fin 256, value.val &&& 0x80 ≠ 0 ↔ 128 ≤ value.val := by
    decide +kernel
  exact all ⟨byte.toNat, byte.toNat_lt⟩

theorem or_shiftLeft_ofNat {low value shift : ℕ} (below : low < 2 ^ shift)
    (fits : low + value * 2 ^ shift < 2 ^ 32) :
    BitVec.ofNat 32 low ||| BitVec.ofNat 32 value <<< shift =
      BitVec.ofNat 32 (low + value * 2 ^ shift) := by
  have positive : 0 < 2 ^ shift := Nat.two_pow_pos shift
  have valueSmall : value ≤ value * 2 ^ shift := Nat.le_mul_of_pos_right value positive
  apply BitVec.eq_of_toNat_eq
  rw [BitVec.toNat_or, BitVec.toNat_shiftLeft, BitVec.toNat_ofNat, BitVec.toNat_ofNat,
    BitVec.toNat_ofNat, Nat.mod_eq_of_lt (show low < 2 ^ 32 by omega),
    Nat.mod_eq_of_lt (show value < 2 ^ 32 by omega), Nat.shiftLeft_eq,
    Nat.mod_eq_of_lt (show value * 2 ^ shift < 2 ^ 32 by omega), Nat.mod_eq_of_lt fits,
    Nat.or_comm, ← Nat.shiftLeft_eq, ← Nat.shiftLeft_add_eq_or_of_lt below, Nat.shiftLeft_eq,
    Nat.add_comm]

theorem readBits_append {bytes : List UInt8} {value : ℕ} (encodes : Encodes bytes value)
    (tail : List UInt8) {shift low : ℕ} (short : shift + 7 * bytes.length ≤ 35)
    (below : low < 2 ^ shift) (fits : low + value * 2 ^ shift < 2 ^ 32) :
    readBits (bytes ++ tail) shift (BitVec.ofNat 32 low) =
      (BitVec.ofNat 32 (low + value * 2 ^ shift), bytes.length) := by
  induction encodes generalizing shift low with
  | @last byte final =>
    have lowBits : byte.toNat &&& 0x7f = byte.toNat := by
      rw [show 0x7f = 2 ^ 7 - 1 from rfl, Nat.and_two_pow_sub_one_eq_mod]
      exact Nat.mod_eq_of_lt final
    have noMore : ¬ (byte.toNat &&& 0x80 ≠ 0) := by
      rw [and_highBit]
      omega
    have count : shift % 32 = shift := by
      simp only [List.length_singleton] at short
      omega
    rw [List.singleton_append, readBits]
    simp only [noMore, if_false, lowBits, count, or_shiftLeft_ofNat below fits,
      List.length_singleton]
  | @more byte goesOn rest value encodes ih =>
    have highest := byte.toNat_lt
    have lowBits : byte.toNat &&& 0x7f = byte.toNat - 128 := by
      rw [show 0x7f = 2 ^ 7 - 1 from rfl, Nat.and_two_pow_sub_one_eq_mod]
      omega
    have isMore : byte.toNat &&& 0x80 ≠ 0 := (and_highBit byte).mpr goesOn
    rw [List.length_cons] at short
    have count : shift % 32 = shift := by omega
    have total : low + (byte.toNat - 128 + 128 * value) * 2 ^ shift =
        low + (byte.toNat - 128) * 2 ^ shift + value * 2 ^ (shift + 7) := by
      rw [pow_add]
      ring
    have partFits : low + (byte.toNat - 128) * 2 ^ shift < 2 ^ 32 := by omega
    have partBelow : low + (byte.toNat - 128) * 2 ^ shift < 2 ^ (shift + 7) := by
      have most : (byte.toNat - 128) * 2 ^ shift ≤ 127 * 2 ^ shift :=
        Nat.mul_le_mul_right _ (by omega)
      rw [pow_add]
      omega
    rw [total] at fits ⊢
    rw [List.cons_append, readBits]
    simp only [isMore, if_true, lowBits, count, or_shiftLeft_ofNat below partFits, ne_eq,
      not_false_eq_true]
    rw [ih (by omega) partBelow fits, List.length_cons]

theorem readBits_u32 {bytes : List UInt8} {value : ℕ} (encoding : U32 bytes value)
    (tail : List UInt8) :
    readBits (bytes ++ tail) 0 0 = (BitVec.ofNat 32 value, bytes.length) := by
  have short := encoding.short
  have small := encoding.small
  have read := @readBits_append _ _ encoding.encodes tail 0 0 (by omega) (by decide) (by omega)
  rw [pow_zero, mul_one, Nat.zero_add] at read
  exact read

theorem toInt_ofNat {value : ℕ} (small : value < 2 ^ 31) :
    (BitVec.ofNat 32 value).toInt = value := by
  rw [BitVec.toInt_eq_toNat_cond, BitVec.toNat_ofNat, Nat.mod_eq_of_lt (by omega),
    if_pos (by omega)]

end Leb128

end SorobanExplorer.Library
