import Mathlib.Algebra.BigOperators.Group.List.Basic
import Mathlib.Data.List.AList
import Mathlib.Tactic.Ring

/-!
Owns tables with a unique key, as association lists without a key twice. Inserting a row
replaces the row of its key, which is the meaning of an insert that updates on conflict.
What the rows of a table add up to changes by the row that comes and the row that goes.
-/

namespace SorobanExplorer.Library

universe u v

abbrev Table (κ : Type u) (ν : Type v) := AList fun _ : κ => ν

namespace Table

variable {κ : Type u} {ν : Type v} [DecidableEq κ] {key other : κ} {value : ν}

theorem lookup_insert_eq (table : Table κ ν) : (table.insert key value).lookup other =
    if other = key then some value else table.lookup other := by
  by_cases same : other = key
  · rw [if_pos same, same, AList.lookup_insert]
  · rw [if_neg same, AList.lookup_insert_ne same]

def insertNew (table : Table κ ν) (key : κ) (value : ν) : Table κ ν :=
  if (table.lookup key).isSome then table else table.insert key value

theorem lookup_insertNew (table : Table κ ν) : (table.insertNew key value).lookup other =
    (table.lookup other).or (if other = key then some value else none) := by
  unfold insertNew
  split
  · next taken =>
      by_cases same : other = key
      · obtain ⟨found, lookup⟩ := Option.isSome_iff_exists.mp taken
        rw [same, lookup]
        rfl
      · rw [if_neg same, Option.or_none]
  · next free =>
      rw [lookup_insert_eq]
      by_cases same : other = key
      · rw [if_pos same, if_pos same, same, Option.not_isSome_iff_eq_none.mp free]
        rfl
      · rw [if_neg same, if_neg same, Option.or_none]

theorem lookup_insertNew_of_some (table : Table κ ν) {found : ν}
    (there : table.lookup other = some found) :
    (table.insertNew key value).lookup other = some found := by
  rw [lookup_insertNew, there]
  rfl

def mapRows (write : κ → ν → ν) (table : Table κ ν) : Table κ ν where
  entries := table.entries.map fun row => ⟨row.1, write row.1 row.2⟩
  nodupKeys := by
    have same : (table.entries.map fun row => (⟨row.1, write row.1 row.2⟩ :
        Sigma fun _ : κ => ν)).keys = table.entries.keys := by
      rw [List.keys, List.map_map]
      rfl
    rw [List.NodupKeys, same]
    exact table.nodupKeys

theorem lookup_mapRows (write : κ → ν → ν) (table : Table κ ν) :
    (table.mapRows write).lookup key = (table.lookup key).map (write key) := by
  have found (rows : List (Sigma fun _ : κ => ν)) :
      (rows.map fun row => (⟨row.1, write row.1 row.2⟩ : Sigma fun _ : κ => ν)).dlookup key =
        (rows.dlookup key).map (write key) := by
    induction rows with
    | nil => rfl
    | cons row rows ih =>
      rw [List.map_cons]
      by_cases same : key = row.1
      · subst same
        rw [List.dlookup_cons_eq, List.dlookup_cons_eq]
        rfl
      · rw [List.dlookup_cons_ne rows row same, ← ih]
        exact List.dlookup_cons_ne _ (⟨row.1, write row.1 row.2⟩ : Sigma fun _ : κ => ν) same
  exact found table.entries

def total (table : Table κ ν) (measure : κ → ν → ℤ) : ℤ :=
  (table.entries.map fun row => measure row.1 row.2).sum

variable {measure : κ → ν → ℤ}

omit [DecidableEq κ] in
@[simp] theorem total_empty : total (∅ : Table κ ν) measure = 0 := rfl

theorem sum_kerase (rows : List (Sigma fun _ : κ => ν)) :
    ((rows.kerase key).map fun row => measure row.1 row.2).sum =
      (rows.map fun row => measure row.1 row.2).sum -
        (rows.dlookup key).elim 0 (measure key) := by
  induction rows with
  | nil => rfl
  | cons row rows ih =>
    by_cases same : key = row.1
    · subst same
      rw [List.kerase_cons_eq rfl, List.dlookup_cons_eq, List.map_cons, List.sum_cons]
      exact (add_sub_cancel_left _ _).symm
    · rw [List.kerase_cons_ne same, List.dlookup_cons_ne _ _ same, List.map_cons, List.sum_cons,
        ih, List.map_cons, List.sum_cons]
      ring

theorem total_insert (table : Table κ ν) : total (table.insert key value) measure =
    total table measure + measure key value - (table.lookup key).elim 0 (measure key) := by
  rw [total, AList.entries_insert, List.map_cons, List.sum_cons, sum_kerase]
  unfold total AList.lookup
  ring

end Table

end SorobanExplorer.Library
