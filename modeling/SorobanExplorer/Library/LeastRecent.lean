import Mathlib.Data.Set.Card
import SorobanExplorer.Library.OrderedMap

/-!
Owns maps that hold a bounded number of keys, each value up to a time, and drop the least recently
used key to make room; and ordered maps that put a key last when it is used as one of them.
-/

namespace SorobanExplorer.Library

universe u v

structure LeastRecent (κ : Type u) (ν : Type v) where
  held : κ → Option ν
  usedAt : κ → ℕ

namespace LeastRecent

variable {κ : Type u} {ν : Type v} [DecidableEq κ]

inductive Request (κ : Type u) (ν : Type v) where
  | get (key : κ)
  | set (key : κ) (value : ν)
  | remove (removes : κ → Bool)

def empty : LeastRecent κ ν := ⟨fun _ => none, fun _ => 0⟩

def use (lru : LeastRecent κ ν) (tick : ℕ) (key : κ) (value : ν) : LeastRecent κ ν where
  held := Function.update lru.held key (some value)
  usedAt := Function.update lru.usedAt key tick

def without (lru : LeastRecent κ ν) (removes : κ → Bool) : LeastRecent κ ν where
  held key := if removes key then none else lru.held key
  usedAt := lru.usedAt

theorem held_use (lru : LeastRecent κ ν) (tick : ℕ) (key other : κ) (value : ν) :
    (lru.use tick key value).held other = if other = key then some value else lru.held other :=
  Function.update_apply _ _ _ _

theorem usedAt_use_self (lru : LeastRecent κ ν) (tick : ℕ) (key : κ) (value : ν) :
    (lru.use tick key value).usedAt key = tick := Function.update_self ..

theorem usedAt_use_of_ne (lru : LeastRecent κ ν) (tick : ℕ) {key other : κ} (value : ν)
    (ne : other ≠ key) : (lru.use tick key value).usedAt other = lru.usedAt other :=
  Function.update_of_ne ne ..

def others (lru : LeastRecent κ ν) (key : κ) : Set κ :=
  {other | other ≠ key ∧ lru.held other ≠ none}

/-- What a request at a time is answered and leaves. The tick is the number of requests before. -/
inductive Serves (expiresAt : ν → ℕ) (capacity tick now : ℕ) (lru : LeastRecent κ ν) :
    Request κ ν → Option ν → LeastRecent κ ν → Prop
  | hit {key : κ} {value : ν} (held : lru.held key = some value) (lives : now ≤ expiresAt value) :
      Serves expiresAt capacity tick now lru (.get key) (some value) (lru.use tick key value)
  | expire {key : κ} {value : ν} (held : lru.held key = some value) (past : expiresAt value < now) :
      Serves expiresAt capacity tick now lru (.get key) none (lru.without (· = key))
  | miss {key : κ} (absent : lru.held key = none) :
      Serves expiresAt capacity tick now lru (.get key) none lru
  | set {key : κ} {value : ν} (room : (lru.others key).encard < capacity) :
      Serves expiresAt capacity tick now lru (.set key value) none (lru.use tick key value)
  | evict {key victim : κ} {value : ν} (full : capacity ≤ (lru.others key).encard)
      (listed : victim ∈ lru.others key)
      (least : ∀ other ∈ lru.others key, lru.usedAt victim ≤ lru.usedAt other) :
      Serves expiresAt capacity tick now lru (.set key value) none
        ((lru.without (· = victim)).use tick key value)
  | remove {removes : κ → Bool} :
      Serves expiresAt capacity tick now lru (.remove removes) none (lru.without removes)

inductive Runs (expiresAt : ν → ℕ) (capacity : ℕ) :
    ℕ → LeastRecent κ ν → List (ℕ × Request κ ν) → List (Option ν) → LeastRecent κ ν → Prop
  | nil {tick : ℕ} {lru : LeastRecent κ ν} : Runs expiresAt capacity tick lru [] [] lru
  | cons {tick now : ℕ} {lru next last : LeastRecent κ ν} {request : Request κ ν}
      {answer : Option ν} {requests : List (ℕ × Request κ ν)} {answers : List (Option ν)}
      (serves : Serves expiresAt capacity tick now lru request answer next)
      (rest : Runs expiresAt capacity (tick + 1) next requests answers last) :
      Runs expiresAt capacity tick lru ((now, request) :: requests) (answer :: answers) last

/-! ### By order of keys -/

structure Represents (tick : ℕ) (map : OrderedMap κ ν) (lru : LeastRecent κ ν) : Prop where
  held : ∀ key, lru.held key = map.get key
  ordered : map.entries.Pairwise fun earlier later => lru.usedAt earlier.1 < lru.usedAt later.1
  past : ∀ key value, map.get key = some value → lru.usedAt key < tick

theorem represents_empty (tick : ℕ) :
    Represents tick (OrderedMap.empty : OrderedMap κ ν) .empty where
  held _ := rfl
  ordered := .nil
  past _ _ := nofun

variable {tick : ℕ} {map : OrderedMap κ ν} {lru : LeastRecent κ ν} {key victim : κ} {value : ν}

namespace Represents

theorem later (represents : Represents tick map lru) : Represents (tick + 1) map lru where
  held := represents.held
  ordered := represents.ordered
  past key value found := (represents.past key value found).trans (Nat.lt_succ_self tick)

theorem discard (represents : Represents tick map lru) (removes : κ → Bool) :
    Represents tick (map.discard removes) (lru.without removes) where
  held key := by
    rw [OrderedMap.get_discard, ← represents.held]
    rfl
  ordered := represents.ordered.sublist List.filter_sublist
  past key value found := by
    rw [OrderedMap.get_discard] at found
    split_ifs at found
    exact represents.past key value found

theorem erase (represents : Represents tick map lru) (key : κ) :
    Represents tick (map.erase key) (lru.without (· = key)) := by
  have same : map.erase key = map.discard (· = key) := by
    rw [OrderedMap.erase, OrderedMap.discard]
    simp
  exact same ▸ represents.discard _

end Represents

theorem entries_set_erase (map : OrderedMap κ ν) (key : κ) (value : ν) :
    ((map.erase key).set key value).entries = (map.erase key).entries ++ [(key, value)] := by
  have fresh : key ∉ (map.erase key).entries.map Prod.fst := by
    intro listed
    obtain ⟨entry, member, rfl⟩ := List.mem_map.mp listed
    simp [OrderedMap.erase] at member
  rw [OrderedMap.set, dif_neg fresh]
  rfl

theorem Represents.use (represents : Represents tick map lru) :
    Represents (tick + 1) ((map.erase key).set key value) (lru.use tick key value) where
  held other := by
    rw [OrderedMap.get_set, OrderedMap.get_erase, held_use, represents.held]
    split_ifs <;> rfl
  ordered := by
    have other {entry : κ × ν} (member : entry ∈ (map.erase key).entries) :
        entry.1 ≠ key ∧ entry ∈ map.entries := by
      rw [OrderedMap.erase, List.mem_filter, decide_eq_true_eq] at member
      exact member.symm
    rw [entries_set_erase, List.pairwise_append]
    refine ⟨?_, List.pairwise_singleton _ _, ?_⟩
    · apply (represents.ordered.sublist List.filter_sublist).imp_of_mem
      intro earlier later before after order
      rw [usedAt_use_of_ne _ _ _ (other before).1, usedAt_use_of_ne _ _ _ (other after).1]
      exact order
    · intro earlier before later last
      rw [List.mem_singleton.mp last, usedAt_use_self, usedAt_use_of_ne _ _ _ (other before).1]
      exact represents.past _ earlier.2 (map.mem_entries_iff.mp (other before).2)
  past other found shown := by
    by_cases same : other = key
    · rw [same, usedAt_use_self]
      exact Nat.lt_succ_self tick
    · rw [OrderedMap.get_set, if_neg same, OrderedMap.get_erase, if_neg same] at shown
      rw [usedAt_use_of_ne _ _ _ same]
      exact (represents.past other found shown).trans (Nat.lt_succ_self tick)

theorem Represents.least (represents : Represents tick map lru)
    (first : map.oldest = some victim) :
    map.get victim ≠ none ∧ ∀ other, map.get other ≠ none →
      lru.usedAt victim ≤ lru.usedAt other := by
  rw [OrderedMap.oldest, Option.map_eq_some_iff] at first
  obtain ⟨entry, first, rfl⟩ := first
  obtain ⟨rest, entries⟩ := List.head?_eq_some_iff.mp first
  have ordered := represents.ordered
  have found : map.get entry.1 = some entry.2 := by
    rw [← map.mem_entries_iff, entries]
    exact List.mem_cons_self
  rw [entries, List.pairwise_cons] at ordered
  refine ⟨by simp [found], ?_⟩
  intro other held
  obtain ⟨value, held⟩ := Option.ne_none_iff_exists'.mp held
  rw [← map.mem_entries_iff, entries, List.mem_cons] at held
  obtain rfl | later := held
  · exact le_rfl
  · exact (ordered.1 _ later).le

theorem encard_keys (map : OrderedMap κ ν) : {key | map.get key ≠ none}.encard = map.size := by
  have keys : {key | map.get key ≠ none} = ((map.entries.map Prod.fst).toFinset : Set κ) := by
    ext key
    rw [List.coe_toFinset, Set.mem_ofPred_eq, Set.mem_ofPred_eq, Option.ne_none_iff_exists',
      List.mem_map]
    constructor
    · rintro ⟨value, found⟩
      exact ⟨(key, value), map.mem_entries_iff.mpr found, rfl⟩
    · rintro ⟨entry, member, rfl⟩
      exact ⟨entry.2, map.mem_entries_iff.mp member⟩
  rw [keys, Set.encard_coe_eq_coe_finsetCard, List.toFinset_card_of_nodup map.nodup,
    List.length_map, OrderedMap.size]

theorem Represents.others (represents : Represents tick map lru) (key : κ) :
    lru.others key = {other | (map.erase key).get other ≠ none} := by
  ext other
  rw [LeastRecent.others, Set.mem_ofPred_eq, Set.mem_ofPred_eq, OrderedMap.get_erase,
    represents.held]
  split_ifs with same
  · simp [same]
  · simp [same]

omit [DecidableEq κ] in
theorem oldest_isSome (map : OrderedMap κ ν) (filled : 0 < map.size) :
    ∃ key, map.oldest = some key := by
  obtain ⟨entry, rest, entries⟩ := List.exists_cons_of_length_pos filled
  exact ⟨entry.1, by rw [OrderedMap.oldest, entries]; rfl⟩

theorem size_set_erase (map : OrderedMap κ ν) (key : κ) (value : ν) :
    ((map.erase key).set key value).size = (map.erase key).size + 1 := by
  rw [OrderedMap.size, entries_set_erase, List.length_append]
  rfl

theorem size_erase_oldest (map : OrderedMap κ ν) (first : map.oldest = some key) :
    (map.erase key).size + 1 ≤ map.size := by
  rw [OrderedMap.oldest, Option.map_eq_some_iff] at first
  obtain ⟨entry, first, rfl⟩ := first
  obtain ⟨rest, entries⟩ := List.head?_eq_some_iff.mp first
  show (map.entries.filter _).length + 1 ≤ map.entries.length
  rw [entries, List.filter_cons_of_neg (by simp)]
  exact Nat.succ_le_succ (List.length_filter_le _ _)

theorem size_discard (map : OrderedMap κ ν) (removes : κ → Bool) :
    (map.discard removes).size ≤ map.size := List.length_filter_le _ _

end LeastRecent

end SorobanExplorer.Library
