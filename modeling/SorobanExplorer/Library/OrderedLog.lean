import Mathlib.Data.List.Sort

/-!
Owns logs whose keys rise strictly, and readers that take entries above the key they have
come to. `between_advance` says when a reader misses nothing.
-/

namespace SorobanExplorer.Library

section OrderedLog

variable {α κ : Type*} [LinearOrder κ] {key : α → κ}

def StrictlyRises (key : α → κ) (rows : List α) : Prop :=
  rows.Pairwise fun first second => key first < key second

def above (key : α → κ) (low : κ) (rows : List α) : List α :=
  rows.filter fun row => low < key row

def between (key : α → κ) (low high : κ) (rows : List α) : List α :=
  rows.filter fun row => low < key row ∧ key row ≤ high

/-- A reader that has come to `cursor` skips what is not above it. Gives the rows it reads,
and how far it comes. -/
def advance (key : α → κ) : κ → List α → List α × κ
  | cursor, [] => ([], cursor)
  | cursor, row :: rows =>
    if key row ≤ cursor then advance key cursor rows
    else (row :: (advance key (key row) rows).1, (advance key (key row) rows).2)

theorem StrictlyRises.eq_of_mem_iff {first second : List α} (left : StrictlyRises key first)
    (right : StrictlyRises key second) (same : ∀ row, row ∈ first ↔ row ∈ second) :
    first = second := by
  have irreflexive : Std.Irrefl fun first second : α => key first < key second :=
    ⟨fun _ => lt_irrefl _⟩
  have antisymmetric : Std.Antisymm fun first second : α => key first < key second :=
    ⟨fun _ _ below above => absurd above (lt_asymm below)⟩
  exact List.Pairwise.eq_of_mem_iff left right same

theorem StrictlyRises.filter {rows : List α} (rises : StrictlyRises key rows)
    (selected : α → Bool) : StrictlyRises key (rows.filter selected) :=
  rises.sublist List.filter_sublist

theorem StrictlyRises.concat {rows : List α} {row : α} (rises : StrictlyRises key rows)
    (last : ∀ earlier ∈ rows, key earlier < key row) : StrictlyRises key (rows ++ [row]) := by
  apply List.pairwise_append.mpr
  refine ⟨rises, List.pairwise_singleton _ _, ?_⟩
  intro earlier listed other same
  rw [List.mem_singleton.mp same]
  exact last earlier listed

theorem StrictlyRises.eq_of_key_eq {rows : List α} {first second : α}
    (rises : StrictlyRises key rows) (left : first ∈ rows) (right : second ∈ rows)
    (same : key first = key second) : first = second := by
  have distinct : (rows.map key).Nodup := List.pairwise_map.mpr (rises.imp ne_of_lt)
  exact List.inj_on_of_nodup_map distinct left right same

theorem StrictlyRises.mem_take_of_le {rows : List α} {row entry : α} {count : ℕ}
    (rises : StrictlyRises key rows) (listed : row ∈ rows) (first : entry ∈ rows.take count)
    (upTo : key row ≤ key entry) : row ∈ rows.take count := by
  rw [← List.take_append_drop count rows] at rises listed
  rcases List.mem_append.mp listed with found | later
  · exact found
  · exact absurd ((List.pairwise_append.mp rises).2.2 entry first row later) (not_lt.mpr upTo)

theorem mem_above {low : κ} {rows : List α} {row : α} :
    row ∈ above key low rows ↔ row ∈ rows ∧ low < key row := by
  rw [above, List.mem_filter, decide_eq_true_eq]

theorem mem_between {low high : κ} {rows : List α} {row : α} :
    row ∈ between key low high rows ↔ row ∈ rows ∧ low < key row ∧ key row ≤ high := by
  rw [between, List.mem_filter, decide_eq_true_eq]

theorem between_self (low : κ) (rows : List α) : between key low low rows = [] := by
  apply List.filter_eq_nil_iff.mpr
  intro row _
  simp only [decide_eq_true_eq, not_and, not_le]
  exact fun beyond => beyond

theorem between_append {low high : κ} (rows : List α) {later : List α}
    (beyond : ∀ row ∈ later, low < key row → high < key row) :
    between key low high (rows ++ later) = between key low high rows := by
  have none : between key low high later = [] := by
    apply List.filter_eq_nil_iff.mpr
    intro row listed
    simp only [decide_eq_true_eq, not_and, not_le]
    exact beyond row listed
  show List.filter _ (rows ++ later) = _
  rw [List.filter_append]
  exact (congrArg (between key low high rows ++ ·) none).trans (List.append_nil _)

theorem between_eq_above {low high : κ} {rows : List α}
    (all : ∀ row ∈ rows, low < key row → key row ≤ high) :
    between key low high rows = above key low rows := by
  apply List.filter_congr
  intro row listed
  rw [decide_eq_decide, and_iff_left_iff_imp]
  exact all row listed

theorem between_prefix {rows : List α} (rises : StrictlyRises key rows) (low high : κ) :
    between key low high rows <+: above key low rows := by
  induction rows with
  | nil => exact List.prefix_rfl
  | cons row rows ih =>
    obtain ⟨least, rest⟩ := List.pairwise_cons.mp rises
    have tail := ih rest
    by_cases beyond : low < key row
    · by_cases reached : key row ≤ high
      · rw [between, above, List.filter_cons_of_pos (by simp [beyond, reached]),
          List.filter_cons_of_pos (by simp [beyond])]
        exact List.prefix_cons_inj row |>.mpr tail
      · have none : between key low high (row :: rows) = [] := by
          apply List.filter_eq_nil_iff.mpr
          intro later listed
          simp only [decide_eq_true_eq, not_and, not_le]
          intro _
          rcases List.mem_cons.mp listed with rfl | listed
          · exact not_le.mp reached
          · exact (not_le.mp reached).trans (least later listed)
        rw [none]
        exact List.nil_prefix
    · rw [between, above, List.filter_cons_of_neg (by simp [beyond]),
        List.filter_cons_of_neg (by simp [beyond])]
      exact tail

theorem between_next {low high : κ} {rows : List α} {row : α} (rises : StrictlyRises key rows)
    (started : low ≤ high) (listed : row ∈ rows) (beyond : high < key row)
    (next : ∀ other ∈ rows, high < key other → key other ≤ key row → other = row) :
    between key low (key row) rows = between key low high rows ++ [row] := by
  apply (rises.filter _).eq_of_mem_iff
  · apply (rises.filter _).concat
    intro earlier read
    exact ((mem_between.mp read).2.2).trans_lt beyond
  · intro other
    rw [← between, mem_between, List.mem_append, List.mem_singleton]
    constructor
    · rintro ⟨present, after, upTo⟩
      rcases le_or_gt (key other) high with read | unread
      · exact Or.inl (mem_between.mpr ⟨present, after, read⟩)
      · exact Or.inr (next other present unread upTo)
    · rintro (read | rfl)
      · obtain ⟨present, after, upTo⟩ := mem_between.mp read
        exact ⟨present, after, upTo.trans beyond.le⟩
      · exact ⟨listed, started.trans_lt beyond, le_refl _⟩

structure Advanced (key : α → κ) (low cursor : κ) (entries rows : List α) : Prop where
  read : between key low (advance key cursor entries).2 rows =
    between key low cursor rows ++ (advance key cursor entries).1
  least : cursor ≤ (advance key cursor entries).2
  upTo : ∀ row ∈ entries, key row ≤ (advance key cursor entries).2
  reached : (advance key cursor entries).2 = cursor ∨
    ∃ row ∈ entries, key row = (advance key cursor entries).2

theorem between_advance {low cursor : κ} {entries rows : List α}
    (rises : StrictlyRises key rows) (ordered : StrictlyRises key entries)
    (started : low ≤ cursor) (listed : ∀ row ∈ entries, row ∈ rows)
    (closed : ∀ row ∈ rows, cursor < key row → ∀ entry ∈ entries, key row ≤ key entry →
      row ∈ entries) : Advanced key low cursor entries rows := by
  induction entries generalizing cursor with
  | nil =>
    exact ⟨(List.append_nil _).symm, le_refl _, fun _ none => absurd none (by simp), Or.inl rfl⟩
  | cons entry entries ih =>
    obtain ⟨least, rest⟩ := List.pairwise_cons.mp ordered
    have restListed : ∀ row ∈ entries, row ∈ rows := fun row among =>
      listed row (List.mem_cons_of_mem entry among)
    by_cases skipped : key entry ≤ cursor
    · have restClosed : ∀ row ∈ rows, cursor < key row → ∀ other ∈ entries,
          key row ≤ key other → row ∈ entries := by
        intro row present unread other among upTo
        have found := closed row present unread other (List.mem_cons_of_mem entry among) upTo
        apply List.mem_of_ne_of_mem _ found
        rintro rfl
        exact absurd unread (not_lt.mpr skipped)
      have advanced := ih rest started restListed restClosed
      have same : advance key cursor (entry :: entries) = advance key cursor entries :=
        if_pos skipped
      constructor
      · rw [same, advanced.read]
      · rw [same]
        exact advanced.least
      · rw [same]
        exact List.forall_mem_cons.mpr ⟨skipped.trans advanced.least, advanced.upTo⟩
      · rw [same]
        exact advanced.reached.imp_right fun ⟨row, among, reached⟩ =>
          ⟨row, List.mem_cons_of_mem entry among, reached⟩
    · have unread := not_le.mp skipped
      have restClosed : ∀ row ∈ rows, key entry < key row → ∀ other ∈ entries,
          key row ≤ key other → row ∈ entries := by
        intro row present beyond other among upTo
        have found := closed row present (unread.trans beyond) other
          (List.mem_cons_of_mem entry among) upTo
        apply List.mem_of_ne_of_mem _ found
        rintro rfl
        exact absurd beyond (lt_irrefl _)
      have advanced := ih rest (started.trans unread.le) restListed restClosed
      have next : ∀ other ∈ rows, cursor < key other → key other ≤ key entry →
          other = entry := by
        intro other present beyond upTo
        have found := closed other present beyond entry List.mem_cons_self upTo
        rcases List.mem_cons.mp found with same | among
        · exact same
        · exact absurd (least other among) (not_lt.mpr upTo)
      have reads := between_next rises started (listed entry List.mem_cons_self) unread next
      have same : advance key cursor (entry :: entries) =
          (entry :: (advance key (key entry) entries).1, (advance key (key entry) entries).2) :=
        if_neg skipped
      constructor
      · rw [same, advanced.read, reads, List.append_assoc, List.singleton_append]
      · rw [same]
        exact unread.le.trans advanced.least
      · rw [same]
        exact List.forall_mem_cons.mpr ⟨advanced.least, advanced.upTo⟩
      · rw [same]
        right
        rcases advanced.reached with stays | ⟨row, among, reached⟩
        · exact ⟨entry, List.mem_cons_self, stays.symm⟩
        · exact ⟨row, List.mem_cons_of_mem entry among, reached⟩

end OrderedLog

end SorobanExplorer.Library
