import Mathlib.Algebra.BigOperators.Group.List.Lemmas
import Mathlib.Algebra.Order.BigOperators.Group.List
import Mathlib.Data.List.Nodup
import Mathlib.Tactic.Ring

/-!
Owns named templates that refer to each other: how often an expansion uses each of them, the size
of an expansion as the sum of its uses, and the depth that is enough where no template refers back
to itself.
-/

namespace SorobanExplorer.Library

namespace Templates

universe u v

variable {ν : Type u} {names : List ν} {own : ν → ℕ} {refs : ν → List ν}

/-! ### Depth -/

def Falls (names : List ν) (refs : ν → List ν) (rank : ν → ℕ) : Prop :=
  ∀ name ∈ names, ∀ reference ∈ refs name, rank reference < rank name

theorem Falls.compress {rank : ν → ℕ} (falls : Falls names refs rank)
    (closed : ∀ name ∈ names, ∀ reference ∈ refs name, reference ∈ names) :
    ∃ depth : ν → ℕ, Falls names refs depth ∧ ∀ name ∈ names, depth name < names.length := by
  refine ⟨fun name => names.countP fun other => rank other < rank name, ?_, ?_⟩
  · intro name listed reference referred
    have lower := falls name listed reference referred
    have member := closed name listed reference referred
    have one : 1 ≤ names.countP fun other => decide (rank other = rank reference) :=
      List.countP_pos_iff.mpr ⟨reference, member, decide_eq_true rfl⟩
    have apart : names.countP (fun other => decide (rank other < rank reference)) +
        names.countP (fun other => decide (rank other = rank reference)) ≤
          names.countP fun other => decide (rank other < rank name) := by
      clear one member listed falls closed
      induction names with
      | nil => exact le_rfl
      | cons first rest ih =>
        simp only [List.countP_cons, decide_eq_true_eq]
        split_ifs <;> omega
    show names.countP _ < names.countP _
    omega
  · intro name listed
    have self : names.countP (fun other => decide (rank other < rank name)) ≠ names.length := by
      intro all
      have below := List.countP_eq_length.mp all name listed
      exact lt_irrefl _ (of_decide_eq_true below)
    exact lt_of_le_of_ne List.countP_le_length self

theorem Falls.stable {rank : ν → ℕ} (falls : Falls names refs rank)
    (closed : ∀ name ∈ names, ∀ reference ∈ refs name, reference ∈ names)
    {β : Type v} {value : ℕ → ν → β}
    (depends : ∀ name left right, (∀ reference ∈ refs name, value left reference =
      value right reference) → value (left + 1) name = value (right + 1) name) :
    ∀ bound, ∀ name ∈ names, rank name < bound → ∀ left right, rank name < left →
      rank name < right → value left name = value right name := by
  intro bound
  induction bound with
  | zero =>
    intro name _ impossible
    omega
  | succ bound ih =>
    intro name listed within left right leftDeep rightDeep
    obtain ⟨left, rfl⟩ := Nat.exists_eq_succ_of_ne_zero (show left ≠ 0 by omega)
    obtain ⟨right, rfl⟩ := Nat.exists_eq_succ_of_ne_zero (show right ≠ 0 by omega)
    apply depends
    intro reference referred
    have lower := falls name listed reference referred
    exact ih reference (closed name listed reference referred) (by omega) left
      right (by omega) (by omega)

/-! ### Sizes and uses -/

theorem sum_swap (count : ν → ν → ℕ) (weight : ν → ℕ)
    (references : List ν) :
    (references.map fun reference =>
      (names.map fun target => count target reference * weight target).sum).sum =
      (names.map fun target => (references.map (count target)).sum * weight target).sum := by
  induction references with
  | nil => simp
  | cons reference references ih =>
    rw [List.map_cons, List.sum_cons, ih, ← List.sum_map_add]
    congr 1
    apply List.map_congr_left
    intro target _
    rw [List.map_cons, List.sum_cons, Nat.add_mul]

variable [DecidableEq ν]

def size (own : ν → ℕ) (refs : ν → List ν) : ℕ → ν → ℕ
  | 0, _ => 0
  | depth + 1, name => own name + ((refs name).map (size own refs depth)).sum

/-- How often an expansion uses `target`. -/
def uses (refs : ν → List ν) (target : ν) : ℕ → ν → ℕ
  | 0, _ => 0
  | depth + 1, name =>
    (if name = target then 1 else 0) + ((refs name).map (uses refs target depth)).sum

theorem sum_indicator (distinct : names.Nodup) {name : ν} (listed : name ∈ names) :
    (names.map fun target => (if name = target then 1 else 0) * own target).sum = own name := by
  induction names with
  | nil => cases listed
  | cons first rest ih =>
    obtain ⟨fresh, restDistinct⟩ := List.nodup_cons.mp distinct
    rw [List.map_cons, List.sum_cons]
    rcases List.mem_cons.mp listed with rfl | later
    · have none : (rest.map fun target => (if name = target then 1 else 0) * own target).sum = 0 := by
        apply List.sum_eq_zero
        intro term member
        obtain ⟨target, inRest, rfl⟩ := List.mem_map.mp member
        have apart : name ≠ target := fun same => fresh (same ▸ inRest)
        rw [if_neg apart, Nat.zero_mul]
      rw [if_pos rfl, none, Nat.one_mul, Nat.add_zero]
    · have apart : name ≠ first := fun same => fresh (same ▸ later)
      rw [if_neg apart, Nat.zero_mul, Nat.zero_add, ih restDistinct later]

theorem size_eq_sum_uses (distinct : names.Nodup)
    (closed : ∀ name ∈ names, ∀ reference ∈ refs name, reference ∈ names) (depth : ℕ) :
    ∀ name ∈ names, size own refs depth name =
      (names.map fun target => uses refs target depth name * own target).sum := by
  induction depth with
  | zero =>
    intro name _
    simp [size, uses]
  | succ depth ih =>
    intro name listed
    have inner : (refs name).map (size own refs depth) = (refs name).map fun reference =>
        (names.map fun target => uses refs target depth reference * own target).sum := by
      apply List.map_congr_left
      intro reference referred
      exact ih reference (closed name listed reference referred)
    calc size own refs (depth + 1) name
        = own name + ((refs name).map (size own refs depth)).sum := rfl
      _ = (names.map fun target => (if name = target then 1 else 0) * own target).sum +
            (names.map fun target =>
              ((refs name).map (uses refs target depth)).sum * own target).sum := by
          rw [sum_indicator distinct listed, inner, sum_swap]
      _ = (names.map fun target => uses refs target (depth + 1) name * own target).sum := by
          rw [← List.sum_map_add]
          congr 1
          apply List.map_congr_left
          intro target _
          rw [uses, Nat.add_mul]

end Templates

end SorobanExplorer.Library
