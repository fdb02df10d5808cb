import Mathlib.Data.List.Basic

/-!
Owns insertion into a keyed table that skips what is already there: a row whose
key another row of the table has is not added, and a row without a key is always
added. This is the meaning of a multi-row insert that does nothing on conflict.

`mem_insertAll_iff` says which rows are there afterwards: for each key the first
row that carries it, in the table or in the order of insertion.
-/

namespace SorobanExplorer.Library

universe u v

variable {ρ : Type u} {κ : Type v} [DecidableEq κ]

def firstWithKey (key : ρ → Option κ) (rows : List ρ) (sought : κ) : Option ρ :=
  rows.find? fun row => decide (key row = some sought)

def insertIgnore (key : ρ → Option κ) (table : List ρ) (row : ρ) : List ρ :=
  match key row with
  | none => table ++ [row]
  | some taken => if (firstWithKey key table taken).isSome then table else table ++ [row]

def insertAll (key : ρ → Option κ) (table rows : List ρ) : List ρ :=
  rows.foldl (insertIgnore key) table

section Lookup

variable {key : ρ → Option κ} {table rows : List ρ} {row other : ρ} {sought : κ}

theorem firstWithKey_append :
    firstWithKey key (table ++ rows) sought =
      (firstWithKey key table sought).or (firstWithKey key rows sought) := by
  simp [firstWithKey, List.find?_append]

theorem firstWithKey_append_of_isSome (taken : (firstWithKey key table sought).isSome) :
    firstWithKey key (table ++ rows) sought = firstWithKey key table sought := by
  obtain ⟨found, same⟩ := Option.isSome_iff_exists.mp taken
  simp [firstWithKey_append, same]

theorem firstWithKey_mem (found : firstWithKey key table sought = some row) : row ∈ table :=
  List.mem_of_find?_eq_some found

theorem firstWithKey_key (found : firstWithKey key table sought = some row) :
    key row = some sought := by
  simpa using List.find?_some found

theorem firstWithKey_isSome (member : row ∈ table) (carries : key row = some sought) :
    (firstWithKey key table sought).isSome := by
  rw [firstWithKey, List.find?_isSome]
  exact ⟨row, member, by simpa using carries⟩

end Lookup

section Insert

variable {key : ρ → Option κ} {table rows : List ρ} {row other : ρ}

theorem insertIgnore_cases (key : ρ → Option κ) (table : List ρ) (row : ρ) :
    (∃ taken, key row = some taken ∧ (firstWithKey key table taken).isSome ∧
      insertIgnore key table row = table) ∨
    ((∀ taken, key row = some taken → firstWithKey key table taken = none) ∧
      insertIgnore key table row = table ++ [row]) := by
  cases keyed : key row with
  | none => exact Or.inr ⟨by simp, by simp [insertIgnore, keyed]⟩
  | some taken =>
    cases present : firstWithKey key table taken with
    | none => exact Or.inr ⟨by simpa using present, by simp [insertIgnore, keyed, present]⟩
    | some found =>
      exact Or.inl ⟨taken, rfl, by simp [present], by simp [insertIgnore, keyed, present]⟩

@[simp]
theorem insertAll_nil : insertAll key table [] = table := rfl

@[simp]
theorem insertAll_cons :
    insertAll key table (row :: rows) = insertAll key (insertIgnore key table row) rows := rfl

theorem mem_insertAll_iff :
    other ∈ insertAll key table rows ↔
      other ∈ table ∨ (other ∈ rows ∧ ∀ sought, key other = some sought →
        firstWithKey key (table ++ rows) sought = some other) := by
  induction rows generalizing table with
  | nil => simp
  | cons row rest ih =>
    rw [insertAll_cons, ih]
    obtain ⟨taken, carries, present, skipped⟩ | ⟨free, added⟩ :=
      insertIgnore_cases key table row
    · rw [skipped]
      -- The skipped row is first for no key.
      have unseen : ∀ sought, firstWithKey key (table ++ row :: rest) sought =
          firstWithKey key (table ++ rest) sought := by
        intro sought
        by_cases same : taken = sought
        · subst same
          rw [firstWithKey_append_of_isSome present, firstWithKey_append_of_isSome present]
        · simp [firstWithKey, List.find?_append, carries, same]
      have first_mem : (∀ sought, key row = some sought →
          firstWithKey key (table ++ rest) sought = some row) → row ∈ table := by
        intro isFirst
        have found := isFirst taken carries
        rw [firstWithKey_append_of_isSome present] at found
        exact firstWithKey_mem found
      simp only [unseen, List.mem_cons]
      constructor
      · rintro (old | ⟨member, isFirst⟩)
        · exact Or.inl old
        · exact Or.inr ⟨Or.inr member, isFirst⟩
      · rintro (old | ⟨rfl | member, isFirst⟩)
        · exact Or.inl old
        · exact Or.inl (first_mem isFirst)
        · exact Or.inr ⟨member, isFirst⟩
    · rw [added, List.append_assoc, List.singleton_append]
      -- The added row is first for its key.
      have isFirst : ∀ sought, key row = some sought →
          firstWithKey key (table ++ row :: rest) sought = some row := by
        intro sought carries
        have absent := free sought carries
        simp only [firstWithKey] at absent
        simp [firstWithKey, List.find?_append, absent, carries]
      simp only [List.mem_append, List.mem_cons, List.not_mem_nil, or_false]
      constructor
      · rintro ((old | rfl) | ⟨member, first⟩)
        · exact Or.inl old
        · exact Or.inr ⟨Or.inl rfl, isFirst⟩
        · exact Or.inr ⟨Or.inr member, first⟩
      · rintro (old | ⟨rfl | member, first⟩)
        · exact Or.inl (Or.inl old)
        · exact Or.inl (Or.inr rfl)
        · exact Or.inr ⟨member, first⟩

theorem mem_insertAll_of_mem (old : other ∈ table) : other ∈ insertAll key table rows :=
  mem_insertAll_iff.mpr (Or.inl old)

end Insert

end SorobanExplorer.Library
