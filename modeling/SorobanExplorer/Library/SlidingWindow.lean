import SorobanExplorer.Library.OrderedMap
import Mathlib.Data.Finset.Card

/-!
Owns what is kept of a history while time goes on: queues that lose their stale front, maps that
hold when a key was last met, and counts of what was met.

A history has its newest entry first.
-/

namespace SorobanExplorer.Library

universe u v

namespace SlidingWindow

variable {α : Type u} {stamp : α → ℕ} {width now : ℕ}

/-! ### Queues -/

def recent (stamp : α → ℕ) (width now : ℕ) (entry : α) : Bool := now - stamp entry ≤ width

def prune (stamp : α → ℕ) (width now : ℕ) (queue : List α) : List α :=
  queue.dropWhile fun entry => width < now - stamp entry

def Ordered (stamp : α → ℕ) (history : List α) : Prop :=
  history.Pairwise fun later earlier => stamp earlier ≤ stamp later

instance (history : List α) : Decidable (Ordered stamp history) :=
  inferInstanceAs (Decidable (history.Pairwise _))

theorem prune_eq_filter {queue : List α}
    (ordered : queue.Pairwise fun earlier later => stamp earlier ≤ stamp later) :
    prune stamp width now queue = queue.filter (recent stamp width now) := by
  induction queue with
  | nil => rfl
  | cons entry rest ih =>
    rw [List.pairwise_cons] at ordered
    by_cases stale : width < now - stamp entry
    · have gone : recent stamp width now entry = false := decide_eq_false (not_le.mpr stale)
      rw [List.filter_cons_of_neg (by simp [gone]), ← ih ordered.2, prune,
        List.dropWhile_cons_of_pos (by simpa using stale)]
      rfl
    · have kept (later : α) (listed : later ∈ entry :: rest) :
          recent stamp width now later = true := by
        have order : stamp entry ≤ stamp later := by
          cases listed with
          | head => exact le_refl _
          | tail _ listed => exact ordered.1 later listed
        rw [recent, decide_eq_true_eq]
        omega
      rw [List.filter_eq_self.mpr kept, prune, List.dropWhile_cons_of_neg (by simpa using stale)]

theorem prune_map_reverse {β : Type v} {read : α → β} {stampOf : β → ℕ}
    (same : ∀ entry, stampOf (read entry) = stamp entry) {history : List α}
    (ordered : Ordered stamp history) :
    prune stampOf width now (history.map read).reverse =
      ((history.filter (recent stamp width now)).map read).reverse := by
  have queued : (history.map read).reverse.Pairwise fun earlier later =>
      stampOf earlier ≤ stampOf later := by
    rw [List.pairwise_reverse, List.pairwise_map]
    refine ordered.imp ?_
    intro later earlier le
    rw [same, same]
    exact le
  have read_recent : recent stampOf width now ∘ read = recent stamp width now := by
    funext entry
    rw [Function.comp_apply, recent, recent, same]
  rw [prune_eq_filter queued, List.filter_reverse, List.filter_map, read_recent]

theorem recent_of_recent {before : ℕ} (le : before ≤ now) {entry : α}
    (fresh : recent stamp width now entry = true) : recent stamp width before entry = true := by
  rw [recent, decide_eq_true_eq] at fresh ⊢
  omega

theorem filter_recent_filter {before : ℕ} (le : before ≤ now) (entries : List α) :
    (entries.filter (recent stamp width before)).filter (recent stamp width now) =
      entries.filter (recent stamp width now) := by
  rw [List.filter_filter]
  apply List.filter_congr
  intro entry _
  cases fresh : recent stamp width now entry with
  | false => rfl
  | true => rw [recent_of_recent le fresh, Bool.and_self]

def window (stamp : α → ℕ) (width : ℕ) : List α → List α
  | [] => []
  | newest :: earlier => (newest :: earlier).filter (recent stamp width (stamp newest))

theorem window_cons (newest : α) (earlier : List α) :
    window stamp width (newest :: earlier) =
      newest :: earlier.filter (recent stamp width (stamp newest)) := by
  have fresh : recent stamp width (stamp newest) newest = true := by
    rw [recent, Nat.sub_self, decide_eq_true_eq]
    exact Nat.zero_le width
  exact List.filter_cons_of_pos fresh

theorem window_sublist (history : List α) : (window stamp width history).Sublist history := by
  cases history with
  | nil => exact List.Sublist.refl _
  | cons newest earlier => exact List.filter_sublist

theorem ordered_window {history : List α} (ordered : Ordered stamp history) :
    Ordered stamp (window stamp width history) :=
  ordered.sublist (window_sublist history)

theorem filter_window {history : List α} (order : ∀ entry ∈ history, stamp entry ≤ now) :
    (window stamp width history).filter (recent stamp width now) =
      history.filter (recent stamp width now) := by
  cases history with
  | nil => rfl
  | cons newest earlier => exact filter_recent_filter (order newest List.mem_cons_self) _

theorem find?_filter_recent {history : List α} (ordered : Ordered stamp history) (kind : α → Bool) :
    (history.filter (recent stamp width now)).find? kind =
      (history.find? kind).filter (recent stamp width now) := by
  induction history with
  | nil => rfl
  | cons entry earlier ih =>
    have parts := List.pairwise_cons.mp ordered
    have step := ih parts.2
    cases fresh : recent stamp width now entry with
    | true =>
      rw [List.filter_cons_of_pos fresh, List.find?_cons, List.find?_cons]
      cases kind entry with
      | true => rw [Option.filter_some, if_pos fresh]
      | false => exact step
    | false =>
      have none_fresh (older : α) (listed : older ∈ earlier) :
          ¬ recent stamp width now older = true := by
        have order := parts.1 older listed
        rw [recent, decide_eq_true_eq]
        rw [recent, decide_eq_false_iff_not] at fresh
        omega
      rw [List.filter_cons_of_neg (by simp [fresh]), List.find?_cons]
      cases kind entry with
      | true =>
        rw [List.filter_eq_nil_iff.mpr none_fresh, Option.filter_some, if_neg (by simp [fresh])]
        rfl
      | false => exact step

theorem push_bounded (bound : ℕ) (newest : α) (earlier : List α) :
    (if bound < ((earlier.take bound).reverse ++ [newest]).length then
        ((earlier.take bound).reverse ++ [newest]).tail
      else (earlier.take bound).reverse ++ [newest]) =
      ((newest :: earlier).take bound).reverse := by
  rw [← List.reverse_cons, List.length_reverse, List.length_cons, List.length_take]
  split
  · next full =>
      have count : min bound earlier.length = bound := by omega
      rw [List.tail_reverse, List.dropLast_eq_take, List.length_cons, List.length_take, count,
        Nat.add_sub_cancel]
      cases bound with
      | zero => rfl
      | succ bound =>
        rw [List.take_succ_cons, List.take_succ_cons, List.take_take,
          Nat.min_eq_left (Nat.le_succ bound)]
  · next short =>
      cases bound with
      | zero => exact absurd (Nat.succ_pos _) short
      | succ bound =>
        have whole : earlier.length ≤ bound := by omega
        rw [List.take_succ_cons, List.take_of_length_le whole,
          List.take_of_length_le (whole.trans (Nat.le_succ bound))]

end SlidingWindow

namespace OrderedMap

variable {κ : Type u} {ν ω : Type v}

def reaching (map : OrderedMap κ ℕ) (bound : ℕ) : ℕ :=
  map.entries.countP fun entry => bound ≤ entry.2

def reached (map : OrderedMap κ ℕ) (bound : ℕ) : List κ :=
  (map.entries.filter fun entry => bound ≤ entry.2).map Prod.fst

theorem length_reached (map : OrderedMap κ ℕ) (bound : ℕ) :
    (map.reached bound).length = map.reaching bound := by
  rw [reached, List.length_map, reaching, List.countP_eq_length_filter]

theorem nodup_reached (map : OrderedMap κ ℕ) (bound : ℕ) : (map.reached bound).Nodup :=
  map.nodup.sublist (List.filter_sublist.map _)

variable [DecidableEq κ]

theorem mem_keys_iff (map : OrderedMap κ ν) (key : κ) :
    key ∈ map.entries.map Prod.fst ↔ (map.get key).isSome = true := by
  rw [Option.isSome_iff_exists, List.mem_map]
  constructor
  · rintro ⟨entry, listed, rfl⟩
    exact ⟨entry.2, map.mem_entries_iff.mp listed⟩
  · rintro ⟨value, found⟩
    exact ⟨(key, value), map.mem_entries_iff.mpr found, rfl⟩

theorem size_congr {left : OrderedMap κ ν} {right : OrderedMap κ ω}
    (same : ∀ key, (left.get key).isSome = (right.get key).isSome) : left.size = right.size := by
  have keys : (left.entries.map Prod.fst).Perm (right.entries.map Prod.fst) := by
    rw [List.perm_ext_iff_of_nodup left.nodup right.nodup]
    intro key
    rw [mem_keys_iff, mem_keys_iff, same]
  have lengths := keys.length_eq
  rwa [List.length_map, List.length_map] at lengths

def increment (map : OrderedMap κ ℕ) (key : κ) : OrderedMap κ ℕ :=
  map.set key ((map.get key).getD 0 + 1)

def tally : List κ → OrderedMap κ ℕ
  | [] => empty
  | key :: earlier => (tally earlier).increment key

theorem get_tally (keys : List κ) (key : κ) :
    ((tally keys).get key).getD 0 = keys.countP (· = key) := by
  induction keys with
  | nil => rfl
  | cons first earlier ih =>
    rw [tally, increment, get_set]
    by_cases same : key = first
    · rw [if_pos same, Option.getD_some, List.countP_cons_of_pos (by simp [same]), ← same,
        ih]
    · rw [if_neg same, List.countP_cons_of_neg (by simp [Ne.symm same]), ih]

theorem mem_reached_tally {keys : List κ} {bound : ℕ} (positive : 0 < bound) {key : κ} :
    key ∈ (tally keys).reached bound ↔ bound ≤ keys.countP (· = key) := by
  rw [← get_tally, reached, List.mem_map]
  constructor
  · rintro ⟨entry, listed, rfl⟩
    obtain ⟨inside, enough⟩ := List.mem_filter.mp listed
    rw [(tally keys).mem_entries_iff.mp inside]
    exact of_decide_eq_true enough
  · intro enough
    cases found : (tally keys).get key with
    | none =>
      rw [found, Option.getD_none] at enough
      omega
    | some count =>
      rw [found, Option.getD_some] at enough
      exact ⟨(key, count), List.mem_filter.mpr
        ⟨(tally keys).mem_entries_iff.mpr found, decide_eq_true enough⟩, rfl⟩

theorem card_reached (keys : List κ) (bound : ℕ) :
    ((tally keys).reached bound).toFinset.card = (tally keys).reaching bound := by
  rw [List.toFinset_card_of_nodup (nodup_reached _ _), length_reached]

theorem reached_subset {kept all : List κ} {bound : ℕ} (positive : 0 < bound)
    (part : kept.Sublist all) :
    ((tally kept).reached bound).toFinset ⊆ ((tally all).reached bound).toFinset := by
  intro key listed
  rw [List.mem_toFinset, mem_reached_tally positive] at listed ⊢
  exact listed.trans part.countP_le

theorem reaching_mono {kept all : List κ} {bound : ℕ} (positive : 0 < bound)
    (part : kept.Sublist all) : (tally kept).reaching bound ≤ (tally all).reaching bound := by
  rw [← card_reached, ← card_reached]
  exact Finset.card_le_card (reached_subset positive part)

theorem reaching_eq_iff {kept all : List κ} {bound : ℕ} (positive : 0 < bound)
    (part : kept.Sublist all) :
    (tally all).reaching bound = (tally kept).reaching bound ↔
      ∀ key, bound ≤ all.countP (· = key) → bound ≤ kept.countP (· = key) := by
  have inside := reached_subset positive part
  rw [← card_reached all, ← card_reached kept]
  constructor
  · intro same key enough
    have whole := Finset.eq_of_subset_of_card_le inside same.le
    have listed : key ∈ ((tally all).reached bound).toFinset :=
      List.mem_toFinset.mpr ((mem_reached_tally positive).mpr enough)
    rw [← whole, List.mem_toFinset] at listed
    exact (mem_reached_tally positive).mp listed
  · intro each
    have whole : ((tally all).reached bound).toFinset ⊆ ((tally kept).reached bound).toFinset := by
      intro key listed
      rw [List.mem_toFinset, mem_reached_tally positive] at listed ⊢
      exact each key listed
    rw [Finset.Subset.antisymm whole inside]

end OrderedMap

end SorobanExplorer.Library
