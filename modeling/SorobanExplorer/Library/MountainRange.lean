import Mathlib.Data.Nat.Bitwise
import Mathlib.Data.List.Basic
import Mathlib.Data.List.Induction
import Mathlib.Tactic.Ring

/-!
Owns Merkle mountain ranges over any pair function: the perfect trees over the
leaves, the peaks a number of leaves has, bagging the peaks into a root, and the
binary counter that keeps the peaks while leaves are appended.
-/

namespace SorobanExplorer.Library.MountainRange

variable {α : Type} (pair : α → α → α)

/-! ### Specification -/

def perfect : Nat → List α → Option α
  | 0, leaves => leaves.head?
  | height + 1, leaves =>
    match perfect height leaves, perfect height (leaves.drop (2 ^ height)) with
    | some left, some right => some (pair left right)
    | _, _ => none

def offset (count level : Nat) : Nat := count / 2 ^ (level + 1) * 2 ^ (level + 1)

def peakAt (leaves : List α) (level : Nat) : Option α :=
  if leaves.length.testBit level then perfect pair level (leaves.drop (offset leaves.length level))
  else none

def bagPeak (acc : Option α) (peak : Option α) : Option α :=
  match peak, acc with
  | some peak, some right => some (pair peak right)
  | some peak, none => some peak
  | none, acc => acc

def bag (peaks : List (Option α)) : Option α := peaks.foldl (bagPeak pair) none

def root (leaves : List α) : Option α :=
  bag pair ((List.range leaves.length).map (peakAt pair leaves))

/-! ### The counter -/

def push : List (Option α) → α → List (Option α)
  | [], carry => [some carry]
  | none :: peaks, carry => some carry :: peaks
  | some peak :: peaks, carry => none :: push peaks (pair peak carry)

def counter (leaves : List α) : List (Option α) := leaves.foldl (push pair) []

@[simp] theorem counter_snoc (leaves : List α) (leaf : α) :
    counter pair (leaves ++ [leaf]) = push pair (counter pair leaves) leaf := by
  simp [counter]

/-! ### Leaves in pairs -/

def pairUp : List α → List α
  | first :: second :: leaves => pair first second :: pairUp leaves
  | _ => []

@[simp] theorem pairUp_length (leaves : List α) :
    (pairUp pair leaves).length = leaves.length / 2 := by
  induction leaves using pairUp.induct with
  | case1 first second leaves ih =>
    simp only [pairUp, List.length_cons, ih]
    omega
  | case2 leaves short =>
    match leaves, short with
    | [], _ => simp [pairUp]
    | [_], _ => simp [pairUp]
    | first :: second :: leaves, short => exact absurd rfl (short first second leaves)

theorem pairUp_drop (count : Nat) (leaves : List α) :
    pairUp pair (leaves.drop (2 * count)) = (pairUp pair leaves).drop count := by
  induction count generalizing leaves with
  | zero => rfl
  | succ count ih =>
    have twice : 2 * (count + 1) = 2 * count + 1 + 1 := by ring
    rw [twice]
    match leaves with
    | [] => simp [pairUp]
    | [_] => simp [pairUp]
    | first :: second :: leaves =>
      rw [List.drop_succ_cons, List.drop_succ_cons, ih]
      rfl

theorem pairUp_append_of_even (leaves later : List α) (even : leaves.length % 2 = 0) :
    pairUp pair (leaves ++ later) = pairUp pair leaves ++ pairUp pair later := by
  induction leaves using pairUp.induct with
  | case1 first second leaves ih =>
    have shorter : leaves.length % 2 = 0 := by
      simp only [List.length_cons] at even
      omega
    simp [pairUp, ih shorter]
  | case2 leaves short =>
    match leaves, short with
    | [], _ => rfl
    | [_], _ => simp at even
    | first :: second :: leaves, short => exact absurd rfl (short first second leaves)

theorem perfect_succ (height : Nat) (leaves : List α) :
    perfect pair (height + 1) leaves = perfect pair height (pairUp pair leaves) := by
  induction height generalizing leaves with
  | zero =>
    match leaves with
    | [] => rfl
    | [_] => rfl
    | _ :: _ :: _ => rfl
  | succ height ih =>
    rw [perfect, ih, ih, pow_succ', pairUp_drop]
    rfl

theorem peakAt_zero (leaves : List α) :
    peakAt pair leaves 0 = if leaves.length % 2 = 1 then leaves.getLast? else none := by
  have start : offset leaves.length 0 = leaves.length / 2 * 2 := by simp [offset]
  unfold peakAt
  rw [Nat.testBit_zero, start]
  by_cases odd : leaves.length % 2 = 1
  · have last : leaves.length / 2 * 2 = leaves.length - 1 := by omega
    simp [odd, perfect, last, List.head?_drop, List.getLast?_eq_getElem?]
  · simp [odd]

theorem peakAt_succ (leaves : List α) (level : Nat) :
    peakAt pair leaves (level + 1) = peakAt pair (pairUp pair leaves) level := by
  have start : offset leaves.length (level + 1) = 2 * offset (leaves.length / 2) level := by
    unfold offset
    rw [Nat.div_div_eq_div_mul, ← pow_succ']
    ring
  unfold peakAt
  rw [Nat.testBit_succ, pairUp_length, perfect_succ, start, pairUp_drop]

/-! ### The counter keeps the peaks -/

theorem counter_eq (leaves : List α) (nonempty : leaves ≠ []) :
    counter pair leaves = peakAt pair leaves 0 :: counter pair (pairUp pair leaves) := by
  induction leaves using List.reverseRecOn with
  | nil => exact absurd rfl nonempty
  | append_singleton leaves leaf ih =>
    rw [counter_snoc, peakAt_zero, List.length_append, List.length_singleton]
    by_cases empty : leaves = []
    · subst empty
      rfl
    rw [ih empty, peakAt_zero]
    by_cases odd : leaves.length % 2 = 1
    · obtain ⟨start, last, rfl⟩ := (List.eq_nil_or_concat' leaves).resolve_left empty
      have evenStart : start.length % 2 = 0 := by
        simp only [List.length_append, List.length_singleton] at odd
        omega
      have next : ((start ++ [last]).length + 1) % 2 ≠ 1 := by omega
      rw [if_pos odd, if_neg next, List.getLast?_concat, push, List.append_assoc,
        pairUp_append_of_even pair _ _ evenStart, pairUp_append_of_even pair _ _ evenStart]
      simp [pairUp]
    · have even : leaves.length % 2 = 0 := by omega
      have next : (leaves.length + 1) % 2 = 1 := by omega
      rw [if_neg odd, if_pos next, push, pairUp_append_of_even pair _ _ even]
      simp [pairUp]

theorem counter_getElem? (leaves : List α) (level : Nat) :
    (counter pair leaves)[level]?.join = peakAt pair leaves level := by
  induction level generalizing leaves with
  | zero =>
    by_cases empty : leaves = []
    · subst empty
      simp [counter, peakAt]
    · rw [counter_eq pair leaves empty]
      rfl
  | succ level ih =>
    by_cases empty : leaves = []
    · subst empty
      simp [counter, peakAt]
    · rw [counter_eq pair leaves empty, List.getElem?_cons_succ, ih, peakAt_succ]

/-! ### Bagging -/

def bagBelow (peak : Nat → Option α) (levels : Nat) : Option α :=
  (List.range levels).foldl (fun acc level => bagPeak pair acc (peak level)) none

theorem root_eq_bagBelow (leaves : List α) :
    root pair leaves = bagBelow pair (peakAt pair leaves) leaves.length := by
  rw [root, bag, List.foldl_map, bagBelow]

theorem bagBelow_le {peak : Nat → Option α} {low high : Nat} (le : low ≤ high)
    (none_above : ∀ level, low ≤ level → peak level = none) :
    bagBelow pair peak high = bagBelow pair peak low := by
  induction high, le using Nat.le_induction with
  | base => rfl
  | succ high le ih =>
    rw [← ih, bagBelow, List.range_succ, List.foldl_append, List.foldl_cons,
      List.foldl_nil, none_above high le]
    rfl

theorem bagBelow_eq {peak : Nat → Option α} {left right : Nat}
    (none_left : ∀ level, left ≤ level → peak level = none)
    (none_right : ∀ level, right ≤ level → peak level = none) :
    bagBelow pair peak left = bagBelow pair peak right := by
  rcases Nat.le_total left right with le | le
  · exact (bagBelow_le pair le none_left).symm
  · exact bagBelow_le pair le none_right

theorem peakAt_none {leaves : List α} {bound level : Nat} (small : leaves.length < 2 ^ bound)
    (le : bound ≤ level) : peakAt pair leaves level = none := by
  have below : leaves.length < 2 ^ level := small.trans_le (Nat.pow_le_pow_right (by norm_num) le)
  rw [peakAt, Nat.testBit_lt_two_pow below]
  rfl

theorem bagBelow_root {leaves : List α} {levels : Nat} (small : leaves.length < 2 ^ levels) :
    bagBelow pair (peakAt pair leaves) levels = root pair leaves := by
  rw [root_eq_bagBelow]
  apply bagBelow_eq
  · exact fun level le => peakAt_none pair small le
  · exact fun level le => peakAt_none pair Nat.lt_two_pow_self le

theorem foldl_bagPeak (peaks : List (Option α)) (acc : Option α) :
    peaks.foldl (bagPeak pair) acc =
      (List.range peaks.length).foldl (fun acc level => bagPeak pair acc peaks[level]?.join) acc := by
  induction peaks generalizing acc with
  | nil => rfl
  | cons peak peaks ih =>
    rw [List.length_cons, List.range_succ_eq_map, List.foldl_cons, List.foldl_cons,
      ih, List.foldl_map]
    rfl

theorem bag_counter (leaves : List α) : bag pair (counter pair leaves) = root pair leaves := by
  have peaks : bag pair (counter pair leaves) =
      bagBelow pair (peakAt pair leaves) (counter pair leaves).length := by
    rw [bag, foldl_bagPeak, bagBelow]
    simp only [counter_getElem?]
  rw [peaks, root_eq_bagBelow]
  apply bagBelow_eq
  · intro level above
    rw [← counter_getElem?, List.getElem?_eq_none above]
    rfl
  · exact fun level above => peakAt_none pair Nat.lt_two_pow_self above

/-! ### Which peaks there are -/

theorem peakAt_isSome (leaves : List α) (level : Nat) :
    (peakAt pair leaves level).isSome = leaves.length.testBit level := by
  induction level generalizing leaves with
  | zero =>
    rw [peakAt_zero, Nat.testBit_zero]
    by_cases odd : leaves.length % 2 = 1
    · have nonempty : leaves ≠ [] := by
        rintro rfl
        simp at odd
      simp [odd, nonempty]
    · simp [odd]
  | succ level ih =>
    rw [peakAt_succ, ih, pairUp_length, Nat.testBit_succ]

theorem exists_unset_bit {count levels : Nat} (room : count + 1 < 2 ^ levels) :
    ∃ level < levels, count.testBit level = false := by
  by_contra all
  push Not at all
  have full : count = 2 ^ levels - 1 := by
    apply Nat.eq_of_testBit_eq
    intro level
    rw [Nat.testBit_two_pow_sub_one]
    by_cases below : level < levels
    · simpa [below] using all level below
    · have small : count < 2 ^ level :=
        (by omega : count < 2 ^ levels).trans_le (Nat.pow_le_pow_right (by norm_num) (by omega))
      simp [below, Nat.testBit_lt_two_pow small]
  omega

theorem bagPeak_isSome (acc peak : Option α) :
    (bagPeak pair acc peak).isSome = (peak.isSome || acc.isSome) := by
  cases peak <;> cases acc <;> rfl

theorem foldl_bagPeak_isSome {peaks : List (Option α)} {acc : Option α} :
    (peaks.foldl (bagPeak pair) acc).isSome = (acc.isSome || peaks.any Option.isSome) := by
  induction peaks generalizing acc with
  | nil => simp
  | cons peak peaks ih =>
    rw [List.foldl_cons, ih, bagPeak_isSome, List.any_cons, ← Bool.or_assoc,
      Bool.or_comm peak.isSome]

theorem push_any (peaks : List (Option α)) (carry : α) :
    (push pair peaks carry).any Option.isSome = true := by
  induction peaks generalizing carry with
  | nil => rfl
  | cons peak peaks ih =>
    cases peak with
    | none => simp [push]
    | some left => simp [push, ih]

theorem root_isSome {leaves : List α} (nonempty : leaves ≠ []) :
    (root pair leaves).isSome = true := by
  obtain ⟨start, last, rfl⟩ := (List.eq_nil_or_concat' leaves).resolve_left nonempty
  rw [← bag_counter, counter_snoc, bag, foldl_bagPeak_isSome, push_any, Bool.or_true]

/-! ### Blocks of leaves -/

inductive IsPerfect : Nat → List α → α → Prop
  | leaf (value : α) : IsPerfect 0 [value] value
  | node {height : Nat} {left right : List α} {leftRoot rightRoot : α} :
      IsPerfect height left leftRoot → IsPerfect height right rightRoot →
        IsPerfect (height + 1) (left ++ right) (pair leftRoot rightRoot)

def block (leaves : List α) (level : Nat) : List α :=
  if leaves.length.testBit level then
    (leaves.drop (offset leaves.length level)).take (2 ^ level)
  else []

theorem perfect_isPerfect {height : Nat} {leaves : List α} (enough : 2 ^ height ≤ leaves.length) :
    ∃ root, perfect pair height leaves = some root ∧
      IsPerfect pair height (leaves.take (2 ^ height)) root := by
  induction height generalizing leaves with
  | zero =>
    match leaves with
    | [] => simp at enough
    | first :: rest => exact ⟨first, rfl, .leaf first⟩
  | succ height ih =>
    rw [pow_succ, Nat.mul_two] at enough
    obtain ⟨left, leftFound, leftPerfect⟩ := @ih leaves (by omega)
    obtain ⟨right, rightFound, rightPerfect⟩ :=
      @ih (leaves.drop (2 ^ height)) (by rw [List.length_drop]; omega)
    refine ⟨pair left right, ?_, ?_⟩
    · rw [perfect, leftFound, rightFound]
    · rw [pow_succ, Nat.mul_two, List.take_add]
      exact .node leftPerfect rightPerfect

theorem offset_add (count level : Nat) :
    offset count level + (if count.testBit level then 2 ^ level else 0) =
      count / 2 ^ level * 2 ^ level := by
  have halves : count / 2 ^ (level + 1) = count / 2 ^ level / 2 := by
    rw [pow_succ, Nat.div_div_eq_div_mul]
  have bit : count.testBit level = decide (count / 2 ^ level % 2 = 1) := Nat.testBit_eq_decide_div_mod_eq
  have parts := Nat.div_add_mod (count / 2 ^ level) 2
  unfold offset
  rw [halves, pow_succ, bit]
  generalize count / 2 ^ level = quotient at parts
  generalize 2 ^ level = size
  by_cases odd : quotient % 2 = 1
  · rw [odd] at parts
    rw [if_pos (by simpa using odd)]
    calc quotient / 2 * (size * 2) + size = (2 * (quotient / 2) + 1) * size := by ring
      _ = quotient * size := by rw [parts]
  · rw [if_neg (by simpa using odd)]
    have even : quotient % 2 = 0 := by omega
    rw [even] at parts
    calc quotient / 2 * (size * 2) + 0 = (2 * (quotient / 2) + 0) * size := by ring
      _ = quotient * size := by rw [parts]

theorem peakAt_isPerfect {leaves : List α} {level : Nat} {peak : α}
    (found : peakAt pair leaves level = some peak) :
    IsPerfect pair level (block leaves level) peak := by
  unfold peakAt at found
  split at found
  · next bit =>
      have start := offset_add leaves.length level
      rw [if_pos bit] at start
      have inside := Nat.div_mul_le_self leaves.length (2 ^ level)
      obtain ⟨root, same, isPerfect⟩ := @perfect_isPerfect α pair level
        (leaves.drop (offset leaves.length level)) (by rw [List.length_drop]; omega)
      cases found.symm.trans same
      rw [block, if_pos bit]
      exact isPerfect
  · cases found

theorem flatMap_block (leaves : List α) (levels : Nat) :
    (List.range levels).reverse.flatMap (block leaves) =
      leaves.drop (leaves.length / 2 ^ levels * 2 ^ levels) := by
  induction levels with
  | zero => simp
  | succ level ih =>
    have start := offset_add leaves.length level
    rw [List.range_succ, List.reverse_append, List.reverse_singleton, List.singleton_append,
      List.flatMap_cons, ih, ← start, block]
    change _ = leaves.drop (offset leaves.length level)
    split
    · rw [← List.drop_drop, List.take_append_drop]
    · rw [List.nil_append, Nat.add_zero]

theorem flatMap_block_eq {leaves : List α} {levels : Nat} (small : leaves.length < 2 ^ levels) :
    (List.range levels).reverse.flatMap (block leaves) = leaves := by
  rw [flatMap_block, Nat.div_eq_of_lt small, Nat.zero_mul, List.drop_zero]

def bagRight (peaks : List α) : Option α :=
  peaks.foldr (fun peak right => some (right.elim peak (pair peak))) none

theorem bagBelow_eq_bagRight (peak : Nat → Option α) (levels : Nat) :
    bagBelow pair peak levels = bagRight pair ((List.range levels).reverse.filterMap peak) := by
  induction levels with
  | zero => rfl
  | succ level ih =>
    rw [bagBelow] at ih
    rw [bagBelow, List.range_succ, List.foldl_append, List.foldl_cons, List.foldl_nil,
      ih, List.reverse_append, List.reverse_singleton, List.singleton_append,
      List.filterMap_cons]
    cases peak level with
    | none => rfl
    | some value => cases found : bagRight pair ((List.range level).reverse.filterMap peak) <;>
        simp_all [bagRight, bagPeak]

end SorobanExplorer.Library.MountainRange
