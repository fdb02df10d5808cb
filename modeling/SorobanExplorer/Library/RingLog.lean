import Mathlib.Logic.Function.Basic
import Mathlib.Order.Basic

/-!
Owns ring buffers that keep the end of an append-only log: entry `t` of the log
lives in slot `t mod capacity` until entry `t + capacity` takes the slot over.
`Holds` is the invariant; appending keeps it, and a change of capacity keeps it
before the buffer has wrapped, as long as the entries still fit.
-/

namespace SorobanExplorer.Library.RingLog

universe u

variable {α : Type u}

/-- The slots hold the last `capacity` entries of the log, and no slot from its
length on is in use. -/
structure Holds (slots : Nat → Option α) (capacity : Nat) (log : List α) : Prop where
  capacity_pos : 0 < capacity
  resident : ∀ index (below : index < log.length), log.length ≤ index + capacity →
    slots (index % capacity) = some log[index]
  vacant : ∀ slot, log.length ≤ slot → slots slot = none

namespace Holds

variable {slots : Nat → Option α} {capacity : Nat} {log : List α}

theorem empty (unused : ∀ slot, slots slot = none) (capacity_pos : 0 < capacity) :
    Holds slots capacity [] where
  capacity_pos := capacity_pos
  resident := fun _ below => absurd below (Nat.not_lt_zero _)
  vacant := fun slot _ => unused slot

theorem slot_cases (holds : Holds slots capacity log) (index : Nat) :
    (slots (index % capacity) = none ∧ log.length ≤ index) ∨
      ∃ resident, ∃ below : resident < log.length, log.length ≤ resident + capacity ∧
        resident % capacity = index % capacity ∧
          slots (index % capacity) = some log[resident] := by
  have positive := holds.capacity_pos
  have slotBelow : index % capacity < capacity := Nat.mod_lt _ positive
  by_cases free : log.length ≤ index % capacity
  · exact Or.inl ⟨holds.vacant _ free, Nat.le_trans free (Nat.mod_le _ _)⟩
  · -- The resident entry of the slot is the last index below the length congruent to it.
    right
    let resident := log.length - 1 - (log.length - 1 - index % capacity) % capacity
    have offset : (log.length - 1 - index % capacity) % capacity < capacity :=
      Nat.mod_lt _ positive
    have below : (log.length - 1 - index % capacity) % capacity ≤
        log.length - 1 - index % capacity := Nat.mod_le _ _
    have congruent : resident % capacity = index % capacity := by
      have split := Nat.div_add_mod (log.length - 1 - index % capacity) capacity
      have shape : resident =
          index % capacity + capacity * ((log.length - 1 - index % capacity) / capacity) := by
        simp only [resident]
        omega
      rw [shape, Nat.add_mul_mod_self_left, Nat.mod_mod]
    have lower : log.length ≤ resident + capacity := by simp only [resident]; omega
    have upper : resident < log.length := by simp only [resident]; omega
    exact ⟨resident, upper, lower, congruent, congruent ▸ holds.resident resident upper lower⟩

theorem append (holds : Holds slots capacity log) (entry : α) :
    Holds (Function.update slots (log.length % capacity) (some entry)) capacity
      (log ++ [entry]) where
  capacity_pos := holds.capacity_pos
  resident := by
    intro index upper lower
    simp only [List.length_append, List.length_singleton] at upper lower
    rcases Nat.lt_succ_iff_lt_or_eq.mp upper with older | rfl
    · have different : index % capacity ≠ log.length % capacity := by
        intro congruent
        have split := Nat.div_add_mod index capacity
        have split' := Nat.div_add_mod log.length capacity
        rw [congruent] at split
        have quotient : index / capacity < log.length / capacity := by
          by_contra notLess
          have := Nat.mul_le_mul_left capacity (Nat.le_of_not_lt notLess)
          omega
        have := Nat.mul_le_mul_left capacity (Nat.succ_le_of_lt quotient)
        rw [Nat.mul_succ] at this
        omega
      rw [Function.update_of_ne different, List.getElem_append_left older]
      exact holds.resident index older (by omega)
    · rw [Function.update_self, List.getElem_concat_length rfl]
  vacant := by
    intro slot free
    simp only [List.length_append, List.length_singleton] at free
    have different : slot ≠ log.length % capacity := by
      have := Nat.mod_le log.length capacity
      omega
    rw [Function.update_of_ne different]
    exact holds.vacant slot (by omega)

theorem unwrapped (holds : Holds slots capacity log) (unwrapped : log.length ≤ capacity)
    {index : Nat} (below : index < log.length) : slots index = some log[index] := by
  have := holds.resident index below (by omega)
  rwa [Nat.mod_eq_of_lt (by omega)] at this

theorem resize (holds : Holds slots capacity log) {capacity' : Nat}
    (unwrapped : log.length ≤ capacity) (fits : log.length ≤ capacity')
    (positive : 0 < capacity') : Holds slots capacity' log where
  capacity_pos := positive
  resident := by
    intro index below _
    rw [Nat.mod_eq_of_lt (by omega)]
    exact holds.unwrapped unwrapped below
  vacant := holds.vacant

theorem shrink_misses (holds : Holds slots capacity log) {capacity' : Nat}
    (unwrapped : log.length ≤ capacity) (short : capacity' < log.length)
    (positive : 0 < capacity') :
    ∃ index, ∃ below : index < log.length, index ≠ log.length - 1 ∧
      slots ((log.length - 1) % capacity') = some log[index] := by
  have slotBelow : (log.length - 1) % capacity' < capacity' := Nat.mod_lt _ positive
  exact ⟨(log.length - 1) % capacity', by omega, by omega, holds.unwrapped unwrapped (by omega)⟩

end Holds

end SorobanExplorer.Library.RingLog
