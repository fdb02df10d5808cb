import Mathlib.Data.List.Induction
import Mathlib.Data.List.Sort

/-!
Owns histories of versions, each with the time from which it is valid and, if it is closed,
the time up to which. Adding a version closes the first open one of its key. A version may
come closed; `atTime_push_all` says which versions of a key a history shows at a time.
-/

namespace SorobanExplorer.Library

universe u v w

structure Validity (ρ : Type u) (κ : Type v) where
  key : ρ → κ
  start : ρ → ℤ
  stop : ρ → Option ℤ
  close : ρ → ℤ → ρ
  key_close : ∀ row time, key (close row time) = key row
  start_close : ∀ row time, start (close row time) = start row
  stop_close : ∀ row time, stop (close row time) = some time

namespace Validity

variable {ρ : Type u} {κ : Type v} [DecidableEq κ] (validity : Validity ρ κ)

def Opens (version row : ρ) : Prop :=
  validity.key row = validity.key version ∧ validity.stop row = none

instance (version row : ρ) : Decidable (validity.Opens version row) :=
  inferInstanceAs (Decidable (_ ∧ _))

def closeBefore (version row : ρ) : ρ :=
  if validity.start row ≤ validity.start version then
    validity.close row (validity.start version - 1)
  else row

def closeOpen (version : ρ) : List ρ → List ρ
  | [] => []
  | row :: rows =>
    if validity.Opens version row then validity.closeBefore version row :: rows
    else row :: closeOpen version rows

def push (history : List ρ) (version : ρ) : List ρ :=
  validity.closeOpen version history ++ [version]

def Shows (time : ℤ) (row : ρ) : Prop :=
  validity.start row ≤ time ∧ ∀ stop, validity.stop row = some stop → time ≤ stop

instance (time : ℤ) (row : ρ) : Decidable (validity.Shows time row) :=
  decidable_of_iff (validity.start row ≤ time ∧ (validity.stop row).all (time ≤ ·) = true)
    (and_congr_right fun _ => by cases validity.stop row <;> simp)

def ofKey (key : κ) (rows : List ρ) : List ρ := rows.filter fun row => validity.key row = key

def until? (row : ρ) (time : ℤ) : ρ :=
  if validity.stop row = none then validity.close row (time - 1) else row

def chain : List ρ → List ρ
  | [] => []
  | [row] => [row]
  | row :: next :: rows => validity.until? row (validity.start next) :: chain (next :: rows)

def Overhangs (time : ℤ) (row : ρ) : Prop :=
  ∃ stop, validity.stop row = some stop ∧ time ≤ stop

instance (time : ℤ) (row : ρ) : Decidable (validity.Overhangs time row) :=
  decidable_of_iff ((validity.stop row).any (time ≤ ·) = true)
    (by unfold Overhangs; cases validity.stop row <;> simp)

def leftBy (row : ρ) : List ρ → ρ
  | [] => row
  | next :: _ => validity.until? row (validity.start next)

variable {validity}

/-! ### One key -/

section OneKey

variable {key : κ} {version row : ρ} {rows history versions : List ρ}

omit [DecidableEq κ] in
theorem key_closeBefore : validity.key (validity.closeBefore version row) = validity.key row := by
  unfold closeBefore
  split_ifs
  · exact validity.key_close _ _
  · rfl

theorem ofKey_cons_self (mine : validity.key row = key) :
    validity.ofKey key (row :: rows) = row :: validity.ofKey key rows :=
  List.filter_cons_of_pos (by simpa using mine)

theorem ofKey_cons_other (other : validity.key row ≠ key) :
    validity.ofKey key (row :: rows) = validity.ofKey key rows :=
  List.filter_cons_of_neg (by simpa using other)

theorem ofKey_closeOpen_other (other : validity.key version ≠ key) :
    validity.ofKey key (validity.closeOpen version history) = validity.ofKey key history := by
  induction history with
  | nil => rfl
  | cons row rows ih =>
    rw [closeOpen]
    split_ifs with opens
    · have before : validity.key row ≠ key := opens.1 ▸ other
      have after : validity.key (validity.closeBefore version row) ≠ key :=
        key_closeBefore.trans_ne before
      rw [ofKey_cons_other before, ofKey_cons_other after]
    · by_cases mine : validity.key row = key
      · rw [ofKey_cons_self mine, ofKey_cons_self mine, ih]
      · rw [ofKey_cons_other mine, ofKey_cons_other mine, ih]

theorem ofKey_closeOpen_self (mine : validity.key version = key) :
    validity.ofKey key (validity.closeOpen version history) =
      validity.closeOpen version (validity.ofKey key history) := by
  induction history with
  | nil => rfl
  | cons row rows ih =>
    by_cases same : validity.key row = key
    · rw [ofKey_cons_self same, closeOpen, closeOpen]
      split_ifs with opens
      · exact ofKey_cons_self (key_closeBefore.trans same)
      · rw [ofKey_cons_self same, ih]
    · have closed : ¬ validity.Opens version row := fun opens => same (opens.1.trans mine)
      rw [closeOpen, if_neg closed, ofKey_cons_other same, ofKey_cons_other same,
        ih]

theorem ofKey_push : validity.ofKey key (validity.push history version) =
    if validity.key version = key then validity.push (validity.ofKey key history) version
    else validity.ofKey key history := by
  have splits : validity.ofKey key (validity.push history version) =
      validity.ofKey key (validity.closeOpen version history) ++ validity.ofKey key [version] :=
    List.filter_append _ _
  rw [splits]
  split_ifs with mine
  · rw [ofKey_closeOpen_self mine, ofKey_cons_self mine]
    rfl
  · rw [ofKey_closeOpen_other mine, ofKey_cons_other mine]
    exact List.append_nil _

end OneKey

/-! ### The chain of a key -/

section Chain

variable {key : κ} {version row next : ρ} {rows versions : List ρ}

omit [DecidableEq κ] in
theorem stop_until (time : ℤ) : validity.stop (validity.until? row time) ≠ none := by
  unfold until?
  split_ifs with opens
  · rw [validity.stop_close]
    exact Option.some_ne_none _
  · exact opens

theorem push_chain (mine : ∀ row ∈ versions, validity.key row = validity.key version)
    (later : ∀ row ∈ versions, validity.start row ≤ validity.start version) :
    validity.push (validity.chain versions) version = validity.chain (versions ++ [version]) := by
  induction versions with
  | nil => rfl
  | cons row rows ih =>
    cases rows with
    | nil =>
      have mineRow := mine row (List.mem_singleton_self _)
      have laterRow := later row (List.mem_singleton_self _)
      show validity.closeOpen version [row] ++ [version] =
        [validity.until? row (validity.start version), version]
      rw [closeOpen, until?, closeBefore, if_pos laterRow]
      by_cases opens : validity.stop row = none
      · rw [if_pos ⟨mineRow, opens⟩, if_pos opens]
        rfl
      · rw [if_neg fun both => opens both.2, if_neg opens]
        rfl
    | cons next rest =>
      have closed : ¬ validity.Opens version (validity.until? row (validity.start next)) :=
        fun opens => stop_until _ opens.2
      have tail := ih (fun row listed => mine row (List.mem_cons_of_mem _ listed))
        fun row listed => later row (List.mem_cons_of_mem _ listed)
      show validity.closeOpen version (validity.until? row (validity.start next) ::
        validity.chain (next :: rest)) ++ [version] = _
      rw [closeOpen, if_neg closed, List.cons_append]
      exact congrArg _ tail

theorem ofKey_foldl_push (key : κ)
    (rises : versions.Pairwise fun first second => validity.start first ≤ validity.start second) :
    validity.ofKey key (versions.foldl validity.push []) =
      validity.chain (validity.ofKey key versions) := by
  induction versions using List.reverseRecOn with
  | nil => rfl
  | append_singleton versions version ih =>
    obtain ⟨earlier, -, last⟩ := List.pairwise_append.mp rises
    have splits : validity.ofKey key (versions ++ [version]) =
        validity.ofKey key versions ++ validity.ofKey key [version] := List.filter_append _ _
    rw [List.foldl_append, List.foldl_cons, List.foldl_nil, ofKey_push,
      ih earlier, splits]
    split_ifs with mine
    · rw [ofKey_cons_self mine]
      apply push_chain
      · intro row listed
        have same : validity.key row = key := by simpa using (List.mem_filter.mp listed).2
        exact same.trans mine.symm
      · intro row listed
        exact last row (List.mem_filter.mp listed).1 version (List.mem_singleton_self _)
    · rw [ofKey_cons_other mine]
      exact congrArg _ (List.append_nil _).symm

end Chain

/-! ### What is shown -/

section Shown

variable {time : ℤ} {row last : ρ} {rows before after : List ρ}

omit [DecidableEq κ] in
theorem start_until (time : ℤ) : validity.start (validity.until? row time) = validity.start row := by
  unfold until?
  split_ifs
  · exact validity.start_close _ _
  · rfl

omit [DecidableEq κ] in
theorem start_leftBy : validity.start (validity.leftBy row after) = validity.start row := by
  cases after with
  | nil => rfl
  | cons next rest => exact start_until _

omit [DecidableEq κ] in
theorem leftBy_cons {next : ρ} :
    validity.leftBy row (next :: rows) = validity.until? row (validity.start next) := rfl

omit [DecidableEq κ] in
theorem leftBy_of_closed (closed : validity.stop row ≠ none) : validity.leftBy row rows = row := by
  cases rows with
  | nil => rfl
  | cons next rest => exact if_neg closed

omit [DecidableEq κ] in
theorem chain_cons : validity.chain (row :: rows) = validity.leftBy row rows :: validity.chain rows := by
  cases rows <;> rfl

omit [DecidableEq κ] in
theorem filter_shows_chain_of_later (later : ∀ row ∈ rows, time < validity.start row) :
    (validity.chain rows).filter (fun row => validity.Shows time row) = [] := by
  induction rows with
  | nil => rfl
  | cons row rows ih =>
    obtain ⟨first, rest⟩ := List.forall_mem_cons.mp later
    rw [chain_cons, List.filter_cons_of_neg, ih rest]
    rw [decide_eq_true_eq]
    intro shows
    exact absurd (start_leftBy ▸ shows.1) (not_le.mpr first)

omit [DecidableEq κ] in
theorem shows_until_iff {next : ℤ} (started : validity.start row ≤ time) (reached : next ≤ time) :
    validity.Shows time (validity.until? row next) ↔ validity.Overhangs time row := by
  unfold Shows Overhangs
  rw [start_until, until?]
  split_ifs with opens
  · rw [opens, validity.stop_close]
    simp only [Option.some.injEq, forall_eq', reduceCtorEq, false_and, exists_false, iff_false]
    intro both
    omega
  · obtain ⟨stop, closes⟩ := Option.ne_none_iff_exists'.mp opens
    simp [closes, started]

omit [DecidableEq κ] in
theorem shows_iff_overhangs (started : validity.start row ≤ time) (closed : validity.stop row ≠ none) :
    validity.Shows time row ↔ validity.Overhangs time row := by
  obtain ⟨stop, closes⟩ := Option.ne_none_iff_exists'.mp closed
  simp [Shows, Overhangs, closes, started]

omit [DecidableEq κ] in
theorem filter_shows_chain (started : ∀ row ∈ before ++ [last], validity.start row ≤ time)
    (later : ∀ row ∈ after, time < validity.start row) :
    (validity.chain (before ++ last :: after)).filter (fun row => validity.Shows time row) =
      if validity.stop last = none then
        before.filter (fun row => validity.Overhangs time row) ++ [validity.leftBy last after]
      else (before ++ [last]).filter fun row => validity.Overhangs time row := by
  induction before with
  | nil =>
    have begun := started last (List.mem_singleton_self _)
    rw [List.nil_append, chain_cons, List.filter_cons, filter_shows_chain_of_later later]
    by_cases opens : validity.stop last = none
    · have shown : validity.Shows time (validity.leftBy last after) := by
        refine ⟨start_leftBy.trans_le begun, fun stop closes => ?_⟩
        cases after with
        | nil => exact absurd (opens.symm.trans closes) (by simp)
        | cons next rest =>
          have beyond := later next List.mem_cons_self
          rw [leftBy_cons, until?, if_pos opens, validity.stop_close] at closes
          cases closes
          omega
      rw [if_pos opens, if_pos (decide_eq_true shown)]
      rfl
    · rw [if_neg opens, leftBy_of_closed opens, List.nil_append, List.filter_cons]
      exact if_congr (by simpa using shows_iff_overhangs begun opens) rfl rfl
  | cons row rest ih =>
    obtain ⟨begun, others⟩ := List.forall_mem_cons.mp started
    have tail := ih others
    obtain ⟨next, behind, split⟩ : ∃ next behind, rest ++ last :: after = next :: behind := by
      cases rest with
      | nil => exact ⟨last, after, rfl⟩
      | cons next rest => exact ⟨next, rest ++ last :: after, rfl⟩
    have reached : validity.start next ≤ time := by
      apply others
      cases rest with
      | nil =>
        cases split
        exact List.mem_singleton_self _
      | cons first rest =>
        cases split
        exact List.mem_cons_self
    have shows := shows_until_iff begun reached
    rw [List.cons_append, List.cons_append, chain_cons, List.filter_cons, tail, split,
      leftBy_cons]
    by_cases overhangs : validity.Overhangs time row
    · have same : validity.until? row (validity.start next) = row := by
        obtain ⟨stop, closes, -⟩ := overhangs
        exact if_neg (by simp [closes])
      have kept : ∀ rows, (row :: rows).filter (fun row => validity.Overhangs time row) =
          row :: rows.filter fun row => validity.Overhangs time row := fun rows =>
        List.filter_cons_of_pos (decide_eq_true overhangs)
      rw [if_pos (decide_eq_true (shows.mpr overhangs)), same, kept, List.cons_append, kept]
      split_ifs <;> rfl
    · have dropped : ∀ rows, (row :: rows).filter (fun row => validity.Overhangs time row) =
          rows.filter fun row => validity.Overhangs time row := fun rows =>
        List.filter_cons_of_neg (by simpa using overhangs)
      rw [if_neg (by simpa using mt shows.mp overhangs), dropped, dropped]

end Shown

end Validity

theorem filter_append_filter {α : Type u} {start : α → ℤ} {rows : List α}
    (rises : rows.Pairwise fun first second => start first ≤ start second) (time : ℤ) :
    rows.filter (fun row => start row ≤ time) ++ rows.filter (fun row => time < start row) = rows := by
  induction rows with
  | nil => rfl
  | cons row rows ih =>
    obtain ⟨least, rest⟩ := List.pairwise_cons.mp rises
    have tail := ih rest
    by_cases past : start row ≤ time
    · rw [List.filter_cons_of_pos (by simpa using past),
        List.filter_cons_of_neg (by simpa using past), List.cons_append, tail]
    · have none : rows.filter (fun row => start row ≤ time) = [] := by
        apply List.filter_eq_nil_iff.mpr
        intro later listed
        have beyond := least later listed
        rw [decide_eq_true_eq]
        omega
      rw [none, List.nil_append] at tail
      rw [List.filter_cons_of_neg (by simpa using past), none,
        List.filter_cons_of_pos (by simpa using past), tail, List.nil_append]

theorem filter_mergeSort {α : Type u} {le : α → α → Bool}
    (trans : ∀ first second third, le first second = true → le second third = true →
      le first third = true)
    (total : ∀ first second, (le first second || le second first) = true)
    {rows : List α} {selected : α → Bool}
    (ordered : (rows.filter selected).Pairwise fun first second => le first second = true) :
    (rows.mergeSort le).filter selected = rows.filter selected := by
  have sublist := List.sublist_mergeSort trans total ordered List.filter_sublist
  have among := sublist.filter selected
  simp only [List.filter_filter, Bool.and_self] at among
  have length := ((List.mergeSort_perm rows le).filter selected).length_eq
  exact (among.eq_of_length length.symm).symm

end SorobanExplorer.Library
