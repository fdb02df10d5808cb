import Mathlib.Data.List.Sort

/-!
Owns reading a table by key in pages. Rows with distinct keys have one falling order,
which selections keep, and the rising order is its reverse. The rows below or above one
of them are a suffix or a prefix of it.

A server that answers the token of a row with the rows after it is followed to the end:
page `k` starts at row `k * limit`.
-/

namespace SorobanExplorer.Library

universe u v

variable {ρ : Type u} {κ : Type v} [LinearOrder κ] (key : ρ → κ)

def KeyFalls (first second : ρ) : Prop := key second ≤ key first

def KeyRises (first second : ρ) : Prop := key first ≤ key second

instance : DecidableRel (KeyFalls key) := fun _ _ => inferInstanceAs (Decidable (_ ≤ _))

instance : DecidableRel (KeyRises key) := fun _ _ => inferInstanceAs (Decidable (_ ≤ _))

instance : Std.Total (KeyFalls key) := ⟨fun _ _ => le_total _ _⟩

instance : Std.Total (KeyRises key) := ⟨fun _ _ => le_total _ _⟩

instance : IsTrans ρ (KeyFalls key) := ⟨fun _ _ _ left right => le_trans right left⟩

instance : IsTrans ρ (KeyRises key) := ⟨fun _ _ _ left right => le_trans left right⟩

def falling (rows : List ρ) : List ρ := rows.insertionSort (KeyFalls key)

def rising (rows : List ρ) : List ρ := rows.insertionSort (KeyRises key)

def StrictlyFalls (rows : List ρ) : Prop :=
  rows.Pairwise fun first second => key second < key first

section Order

variable {key} {rows : List ρ} {row : ρ}

@[simp] theorem mem_falling : row ∈ falling key rows ↔ row ∈ rows := List.mem_insertionSort _

@[simp] theorem mem_rising : row ∈ rising key rows ↔ row ∈ rows := List.mem_insertionSort _

theorem strictlyFalls_falling (distinct : (rows.map key).Nodup) :
    StrictlyFalls key (falling key rows) := by
  have sorted := List.pairwise_insertionSort (KeyFalls key) rows
  have apart : ((falling key rows).map key).Nodup :=
    ((List.perm_insertionSort _ _).map key).nodup_iff.mpr distinct
  exact sorted.imp₂ (fun _ _ falls differs => lt_of_le_of_ne falls (Ne.symm differs))
    (List.pairwise_map.mp apart)

theorem strictlyFalls_reverse_rising (distinct : (rows.map key).Nodup) :
    StrictlyFalls key (rising key rows).reverse := by
  have sorted := List.pairwise_insertionSort (KeyRises key) rows
  have apart : ((rising key rows).map key).Nodup :=
    ((List.perm_insertionSort _ _).map key).nodup_iff.mpr distinct
  exact List.pairwise_reverse.mpr
    (sorted.imp₂ (fun _ _ rises differs => lt_of_le_of_ne rises differs)
      (List.pairwise_map.mp apart))

theorem StrictlyFalls.eq_of_mem_iff {first second : List ρ} (left : StrictlyFalls key first)
    (right : StrictlyFalls key second) (same : ∀ row, row ∈ first ↔ row ∈ second) :
    first = second := by
  have irreflexive : Std.Irrefl fun first second : ρ => key second < key first :=
    ⟨fun _ => lt_irrefl _⟩
  have antisymmetric : Std.Antisymm fun first second : ρ => key second < key first :=
    ⟨fun _ _ below above => absurd above (lt_asymm below)⟩
  exact List.Pairwise.eq_of_mem_iff left right same

theorem rising_eq_reverse (distinct : (rows.map key).Nodup) :
    rising key rows = (falling key rows).reverse := by
  apply List.reverse_injective
  rw [List.reverse_reverse]
  exact (strictlyFalls_reverse_rising distinct).eq_of_mem_iff (strictlyFalls_falling distinct)
    fun row => by simp

theorem falling_filter (distinct : (rows.map key).Nodup) (selected : ρ → Bool) :
    falling key (rows.filter selected) = (falling key rows).filter selected := by
  have fewer : ((rows.filter selected).map key).Nodup :=
    distinct.sublist (List.filter_sublist.map _)
  exact (strictlyFalls_falling fewer).eq_of_mem_iff
    ((strictlyFalls_falling distinct).sublist List.filter_sublist) fun row => by simp

/-! ### The rows on either side of one -/

theorem StrictlyFalls.filter_below {before after : List ρ} {anchor : ρ}
    (falls : StrictlyFalls key (before ++ anchor :: after)) :
    (before ++ anchor :: after).filter (fun row => key row < key anchor) = after := by
  obtain ⟨_, later, across⟩ := List.pairwise_append.mp falls
  have above : ∀ row ∈ before, ¬ key row < key anchor := fun row member =>
    lt_asymm (across row member anchor List.mem_cons_self)
  have below : ∀ row ∈ after, key row < key anchor := (List.pairwise_cons.mp later).1
  rw [List.filter_append, List.filter_eq_nil_iff.mpr (by simpa using above),
    List.filter_cons_of_neg (by simp), List.filter_eq_self.mpr (by simpa using below),
    List.nil_append]

theorem StrictlyFalls.filter_above {before after : List ρ} {anchor : ρ}
    (falls : StrictlyFalls key (before ++ anchor :: after)) :
    (before ++ anchor :: after).filter (fun row => key anchor < key row) = before := by
  obtain ⟨_, later, across⟩ := List.pairwise_append.mp falls
  have above : ∀ row ∈ before, key anchor < key row := fun row member =>
    across row member anchor List.mem_cons_self
  have below : ∀ row ∈ after, ¬ key anchor < key row := fun row member =>
    lt_asymm ((List.pairwise_cons.mp later).1 row member)
  rw [List.filter_append, List.filter_eq_self.mpr (by simpa using above),
    List.filter_cons_of_neg (by simp), List.filter_eq_nil_iff.mpr (by simpa using below),
    List.append_nil]

end Order

/-! ### Page after page -/

section Following

variable {ρ σ τ ε π : Type*}

inductive Follows (ask : Option τ → Except ε π) (next : π → Option τ) :
    Option τ → List π → Prop
  | last {token : Option τ} {page : π} (answer : ask token = .ok page) (stop : next page = none) :
      Follows ask next token [page]
  | more {token : Option τ} {page : π} {later : τ} {pages : List π}
      (answer : ask token = .ok page) (goesOn : next page = some later)
      (follows : Follows ask next (some later) pages) : Follows ask next token (page :: pages)

theorem Follows.unique {ask : Option τ → Except ε π} {next : π → Option τ} {token : Option τ}
    {first second : List π} (left : Follows ask next token first)
    (right : Follows ask next token second) : first = second := by
  induction left generalizing second with
  | last answer stop =>
    cases right with
    | last again => cases answer.symm.trans again; rfl
    | more again goesOn =>
      cases answer.symm.trans again
      cases stop.symm.trans goesOn
  | more answer goesOn follows ih =>
    cases right with
    | last again stop =>
      cases answer.symm.trans again
      cases stop.symm.trans goesOn
    | more again alsoGoesOn others =>
      cases answer.symm.trans again
      cases goesOn.symm.trans alsoGoesOn
      rw [ih others]

theorem Follows.answered {ask : Option τ → Except ε π} {next : π → Option τ} {token : Option τ}
    {pages : List π} (follows : Follows ask next token pages) {page : π} (listed : page ∈ pages) :
    ∃ token, ask token = .ok page := by
  induction follows with
  | last answer => exact ⟨_, (List.mem_singleton.mp listed) ▸ answer⟩
  | more answer goesOn follows ih =>
    rcases List.mem_cons.mp listed with rfl | later
    · exact ⟨_, answer⟩
    · exact ih later

/-- Every token of a row is answered with a page of what comes after the row. `Page`
says what a page is, by the rows before it and the rows from it on. -/
structure Serves (ask : Option τ → Except ε π) (next : π → Option τ) (data : π → List σ)
    (read : ρ → σ) (tokenOf : ρ → τ) (limit : Nat) (listing : List ρ)
    (Page : List ρ → List ρ → π → Prop) : Prop where
  positive : 0 < limit
  answers : ∀ before after, before ++ after = listing → (before ≠ [] → after ≠ []) →
    ∃ page, ask (before.getLast?.map tokenOf) = .ok page ∧ Page before after page
  data_eq : ∀ {before after page}, Page before after page →
    data page = (after.take limit).map read
  next_eq : ∀ {before after page}, Page before after page →
    next page = if limit < after.length then (after.take limit).getLast?.map tokenOf else none

namespace Serves

variable {ask : Option τ → Except ε π} {next : π → Option τ} {data : π → List σ}
  {read : ρ → σ} {tokenOf : ρ → τ} {limit : Nat} {listing : List ρ}
  {Page : List ρ → List ρ → π → Prop}

theorem take_succ (listing : List ρ) (limit index : Nat) :
    listing.take ((index + 1) * limit) =
      listing.take (index * limit) ++ (listing.drop (index * limit)).take limit := by
  rw [Nat.succ_mul, List.take_add]

theorem getLast?_take_succ {index : Nat} (positive : 0 < limit)
    (more : limit < (listing.drop (index * limit)).length) :
    (listing.take ((index + 1) * limit)).getLast? =
      ((listing.drop (index * limit)).take limit).getLast? := by
  have nonempty : (listing.drop (index * limit)).take limit ≠ [] := by
    apply List.ne_nil_of_length_pos
    rw [List.length_take]
    omega
  rw [take_succ, List.getLast?_append_of_ne_nil _ nonempty]

theorem follows_from (serves : Serves ask next data read tokenOf limit listing Page)
    (start : Nat) (present : start = 0 ∨ start * limit < listing.length) :
    ∃ pages, Follows ask next ((listing.take (start * limit)).getLast?.map tokenOf) pages ∧
      pages.flatMap data = (listing.drop (start * limit)).map read ∧
      (∀ index, index < pages.length ↔ index = 0 ∨ (start + index) * limit < listing.length) ∧
      ∀ index page, pages[index]? = some page →
        Page (listing.take ((start + index) * limit)) (listing.drop ((start + index) * limit))
          page := by
  have positive := serves.positive
  -- Every page leaves fewer rows.
  induction left : listing.length - start * limit using Nat.strong_induction_on
    generalizing start with
  | _ remaining ih =>
    obtain ⟨page, answer, spec⟩ := serves.answers (listing.take (start * limit))
      (listing.drop (start * limit)) (List.take_append_drop _ _) (by
        intro nonempty
        apply List.ne_nil_of_length_pos
        rw [List.length_drop]
        rcases present with rfl | below
        · simp at nonempty
        · omega)
    have goesOn := serves.next_eq spec
    by_cases more : limit < (listing.drop (start * limit)).length
    · have below : (start + 1) * limit < listing.length := by
        rw [List.length_drop] at more
        rw [Nat.succ_mul]
        omega
      have fewer : listing.length - (start + 1) * limit < remaining := by
        rw [Nat.succ_mul] at below ⊢
        omega
      obtain ⟨pages, follows, rows, count, each⟩ :=
        ih _ fewer (start + 1) (Or.inr below) rfl
      rw [if_pos more, ← getLast?_take_succ positive more] at goesOn
      rw [← goesOn] at follows
      refine ⟨page :: pages, ?_, ?_, ?_, ?_⟩
      · cases later : next page with
        | none =>
          rw [later, eq_comm, Option.map_eq_none_iff, List.getLast?_eq_none_iff,
            List.take_eq_nil_iff] at goesOn
          rcases goesOn with zero | empty
          · rw [Nat.succ_mul] at zero
            omega
          · rw [empty] at below
            exact absurd below (Nat.not_lt_zero _)
        | some later' => exact Follows.more answer later (later ▸ follows)
      · rw [List.flatMap_cons, rows, serves.data_eq spec, ← List.map_append, Nat.succ_mul,
          ← List.drop_drop, List.take_append_drop]
      · intro index
        cases index with
        | zero => simp
        | succ index =>
          rw [List.length_cons, Nat.succ_lt_succ_iff, count, Nat.add_right_comm start 1,
            Nat.add_assoc]
          simp only [Nat.succ_ne_zero, false_or, or_iff_right_iff_imp]
          rintro rfl
          exact below
      · intro index other listed
        cases index with
        | zero =>
          cases listed
          exact spec
        | succ index =>
          have later := each index other listed
          rwa [Nat.add_right_comm start 1, Nat.add_assoc] at later
    · rw [if_neg more] at goesOn
      have all : listing.length ≤ (start + 1) * limit := by
        rw [List.length_drop] at more
        rw [Nat.succ_mul]
        omega
      refine ⟨[page], Follows.last answer goesOn, ?_, ?_, ?_⟩
      · rw [List.flatMap_singleton, serves.data_eq spec, List.take_of_length_le (not_lt.mp more)]
      · intro index
        cases index with
        | zero => simp
        | succ index =>
          have beyond : (start + 1) * limit ≤ (start + (index + 1)) * limit :=
            Nat.mul_le_mul_right _ (by omega)
          simp only [List.length_singleton, Nat.succ_ne_zero, false_or]
          omega
      · intro index other listed
        cases index with
        | zero =>
          cases listed
          exact spec
        | succ index => cases listed

theorem follows (serves : Serves ask next data read tokenOf limit listing Page) :
    ∃ pages, Follows ask next none pages ∧ pages.flatMap data = listing.map read ∧
      (∀ index, index < pages.length ↔ index = 0 ∨ index * limit < listing.length) ∧
      ∀ index page, pages[index]? = some page →
        Page (listing.take (index * limit)) (listing.drop (index * limit)) page := by
  have whole := serves.follows_from 0 (Or.inl rfl)
  simpa using whole

end Serves

end Following

end SorobanExplorer.Library
