import Mathlib.Data.Nat.Bitwise
import Mathlib.Data.List.Basic
import Mathlib.Tactic.Ring

/-!
Owns base32 without padding: the bits of a number from the highest to the lowest,
and the bytes that a text denotes.
-/

namespace SorobanExplorer.Library.Base32

/-! ### Bits -/

def bits : (width : Nat) → Nat → List Bool
  | 0, _ => []
  | width + 1, value => value.testBit width :: bits width value

def ofBits (bits : List Bool) : Nat := bits.foldl (fun value bit => 2 * value + bit.toNat) 0

@[simp] theorem length_bits (width value : Nat) : (bits width value).length = width := by
  induction width with
  | zero => rfl
  | succ width ih => rw [bits, List.length_cons, ih]

theorem bits_congr {width left right : Nat}
    (same : ∀ place < width, left.testBit place = right.testBit place) :
    bits width left = bits width right := by
  induction width with
  | zero => rfl
  | succ width ih =>
    rw [bits, bits, same width (Nat.lt_succ_self width),
      ih fun place below => same place (Nat.lt_succ_of_lt below)]

theorem bits_add (high low value : Nat) :
    bits (high + low) value = bits high (value >>> low) ++ bits low value := by
  induction high with
  | zero => simp [bits]
  | succ high ih =>
    rw [show high + 1 + low = high + low + 1 by omega, bits, bits, ih,
      List.cons_append, Nat.testBit_shiftRight, Nat.add_comm low high]

def bytes? : List Bool → Option (List UInt8)
  | [] => some []
  | a :: b :: c :: d :: e :: f :: g :: h :: rest =>
    (bytes? rest).map (UInt8.ofNat (ofBits [a, b, c, d, e, f, g, h]) :: ·)
  | _ => none

theorem foldl_bits (width value start : Nat) :
    (bits width value).foldl (fun number bit => 2 * number + bit.toNat) start =
      start * 2 ^ width + value % 2 ^ width := by
  induction width generalizing start with
  | zero => simp [bits, Nat.mod_one]
  | succ width ih =>
    rw [bits, List.foldl_cons, ih, Nat.mod_pow_succ, Nat.toNat_testBit, Nat.pow_succ]
    ring

theorem ofBits_bits (width value : Nat) : ofBits (bits width value) = value % 2 ^ width := by
  rw [ofBits, foldl_bits, Nat.zero_mul, Nat.zero_add]

theorem bytes?_flatMap (bytes : List UInt8) :
    bytes? (bytes.flatMap fun byte => bits 8 byte.toNat) = some bytes := by
  induction bytes with
  | nil => rfl
  | cons byte rest ih =>
    have unfolded : bytes? (bits 8 byte.toNat ++ rest.flatMap fun byte => bits 8 byte.toNat) =
        (bytes? (rest.flatMap fun byte => bits 8 byte.toNat)).map
          (UInt8.ofNat (ofBits (bits 8 byte.toNat)) :: ·) := rfl
    rw [List.flatMap_cons, unfolded, ih, ofBits_bits,
      Nat.mod_eq_of_lt byte.toNat_lt, UInt8.ofNat_toNat]
    rfl

/-! ### Texts -/

/-- `ABCDEFGHIJKLMNOPQRSTUVWXYZ234567`, as bytes. -/
def digit? (char : UInt8) : Option Nat :=
  if 65 ≤ char.toNat ∧ char.toNat ≤ 90 then some (char.toNat - 65)
  else if 50 ≤ char.toNat ∧ char.toNat ≤ 55 then some (char.toNat - 24)
  else none

def decode? (text : List UInt8) : Option (List UInt8) :=
  (text.mapM digit?).bind fun digits => bytes? (digits.flatMap (bits 5))

end SorobanExplorer.Library.Base32
