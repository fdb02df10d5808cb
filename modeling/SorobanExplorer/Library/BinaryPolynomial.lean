import Mathlib.Algebra.Field.ZMod
import Mathlib.Algebra.Polynomial.Div
import Mathlib.Data.ZMod.Basic
import Mathlib.Data.Nat.Bitwise

/-!
Owns the polynomials over two elements that machine words stand for: exclusive or
adds them, and a shift multiplies by the variable.
-/

namespace SorobanExplorer.Library.BinaryPolynomial

open Polynomial

noncomputable def term (bit : Bool) (place : Nat) : (ZMod 2)[X] := if bit then X ^ place else 0

noncomputable def ofBits (width value : Nat) : (ZMod 2)[X] :=
  ∑ place ∈ Finset.range width, term (value.testBit place) place

noncomputable def message (bytes : List UInt8) : (ZMod 2)[X] :=
  bytes.foldl (fun sum byte => sum * X ^ 8 + ofBits 8 byte.toNat) 0

theorem add_self (polynomial : (ZMod 2)[X]) : polynomial + polynomial = 0 :=
  CharTwo.add_self_eq_zero polynomial

theorem term_xor (left right : Bool) (place : Nat) :
    term (left ^^ right) place = term left place + term right place := by
  cases left <;> cases right <;> simp [term, add_self]

theorem term_succ (bit : Bool) (place : Nat) : term bit (place + 1) = X * term bit place := by
  cases bit
  · simp [term]
  · simp [term, pow_succ']

theorem ofBits_xor (width left right : Nat) :
    ofBits width (left ^^^ right) = ofBits width left + ofBits width right := by
  simp only [ofBits, Nat.testBit_xor, term_xor, Finset.sum_add_distrib]

theorem ofBits_congr {width left right : Nat}
    (same : ∀ place < width, left.testBit place = right.testBit place) :
    ofBits width left = ofBits width right := by
  apply Finset.sum_congr rfl
  intro place inside
  rw [same place (Finset.mem_range.mp inside)]

theorem ofBits_shiftLeft (width value : Nat) :
    ofBits (width + 1) (value <<< 1) + term (value.testBit width) (width + 1) =
      X * ofBits (width + 1) value := by
  have low : (value <<< 1).testBit 0 = false := by simp
  have high (place : Nat) : (value <<< 1).testBit (place + 1) = value.testBit place := by
    rw [Nat.testBit_shiftLeft]
    simp
  simp only [ofBits]
  rw [Finset.sum_range_succ', Finset.sum_range_succ (n := width), low]
  simp only [high, term_succ]
  rw [← Finset.mul_sum, mul_add]
  simp [term]

theorem ofBits_shiftLeft_eq {width value : Nat} (count : Nat) (small : value < 2 ^ width) :
    ofBits (width + count) (value <<< count) = X ^ count * ofBits width value := by
  induction count with
  | zero => simp
  | succ count ih =>
    have fits : value <<< count < 2 ^ (width + count) := by
      rw [Nat.shiftLeft_eq, pow_add]
      exact Nat.mul_lt_mul_of_pos_right small (by positivity)
    have step := ofBits_shiftLeft (width + count) (value <<< count)
    have inside : ofBits (width + count + 1) (value <<< count) =
        ofBits (width + count) (value <<< count) := by
      rw [ofBits, Finset.sum_range_succ, Nat.testBit_lt_two_pow fits]
      simp [ofBits, term]
    rw [Nat.testBit_lt_two_pow fits, inside, ih] at step
    rw [Nat.shiftLeft_add]
    simpa [term, pow_succ', mul_assoc, add_assoc] using step

theorem degree_term_lt {bit : Bool} {place width : Nat} (inside : place < width) :
    (term bit place).degree < width := by
  cases bit
  · simp [term]
  · simpa [term] using inside

theorem degree_ofBits_lt (width value : Nat) : (ofBits width value).degree < width := by
  induction width with
  | zero => simp [ofBits]
  | succ width ih =>
    rw [ofBits, Finset.sum_range_succ]
    have wider : (width : WithBot ℕ) < (width + 1 : ℕ) := by exact_mod_cast Nat.lt_succ_self width
    exact lt_of_le_of_lt (degree_add_le _ _)
      (max_lt (ih.trans wider) (degree_term_lt (Nat.lt_succ_self width)))

end SorobanExplorer.Library.BinaryPolynomial
