import Mathlib.Data.List.Induction
import Mathlib.Data.List.Nodup

/-!
Owns maps that remember the order in which their keys came: setting a key that is there
keeps its place. This is the meaning of a `Map` of JavaScript.
-/

namespace SorobanExplorer.Library

universe u v

structure OrderedMap (κ : Type u) (ν : Type v) where
  entries : List (κ × ν)
  nodup : (entries.map Prod.fst).Nodup

namespace OrderedMap

variable {κ : Type u} {ν : Type v} [DecidableEq κ] {key other : κ} {value : ν}

def empty : OrderedMap κ ν := ⟨[], List.nodup_nil⟩

def get (map : OrderedMap κ ν) (key : κ) : Option ν :=
  (map.entries.find? fun entry => entry.1 = key).map Prod.snd

def replace (map : OrderedMap κ ν) (key : κ) (value : ν) : OrderedMap κ ν where
  entries := map.entries.map fun entry => if entry.1 = key then (entry.1, value) else entry
  nodup := by
    have same : (map.entries.map fun entry =>
        if entry.1 = key then (entry.1, value) else entry).map Prod.fst =
          map.entries.map Prod.fst := by
      rw [List.map_map]
      apply List.map_congr_left
      intro entry _
      show (if entry.1 = key then (entry.1, value) else entry).1 = entry.1
      split <;> rfl
    exact same ▸ map.nodup

def add (map : OrderedMap κ ν) (key : κ) (value : ν) (fresh : key ∉ map.entries.map Prod.fst) :
    OrderedMap κ ν where
  entries := map.entries ++ [(key, value)]
  nodup := by
    rw [List.map_append, List.nodup_append]
    refine ⟨map.nodup, List.nodup_singleton _, ?_⟩
    intro first member second last
    cases List.mem_singleton.mp last
    intro same
    rw [same] at member
    exact fresh member

def set (map : OrderedMap κ ν) (key : κ) (value : ν) : OrderedMap κ ν :=
  if fresh : key ∈ map.entries.map Prod.fst then map.replace key value else map.add key value fresh

theorem mem_entries_iff (map : OrderedMap κ ν) :
    (key, value) ∈ map.entries ↔ map.get key = some value := by
  constructor
  · intro member
    cases found : map.entries.find? fun entry => entry.1 = key with
    | none => exact absurd (List.find?_eq_none.mp found _ member) (by simp)
    | some entry =>
      have same : entry.1 = key := by simpa using List.find?_some found
      have among := List.mem_of_find?_eq_some found
      have equal := List.inj_on_of_nodup_map map.nodup among member same
      rw [get, found, equal]
      rfl
  · intro found
    obtain ⟨entry, first, rfl⟩ := Option.map_eq_some_iff.mp found
    have same : entry.1 = key := by simpa using List.find?_some first
    exact same ▸ List.mem_of_find?_eq_some first

theorem get_set (map : OrderedMap κ ν) :
    (map.set key value).get other = if other = key then some value else map.get other := by
  ext found
  rw [← mem_entries_iff, set]
  split
  · next there =>
      obtain ⟨entry, member, rfl⟩ := List.mem_map.mp there
      simp only [replace, List.mem_map]
      constructor
      · rintro ⟨earlier, among, same⟩
        split at same
        · next isKey =>
            cases same
            rw [if_pos isKey]
        · next isOther =>
            cases same
            rw [if_neg isOther]
            exact map.mem_entries_iff.mp among
      · intro shown
        split at shown
        · next isKey =>
            cases shown
            exact ⟨entry, member, by rw [if_pos rfl, isKey]⟩
        · next isOther =>
            exact ⟨(other, found), map.mem_entries_iff.mpr shown, if_neg isOther⟩
  · next fresh =>
      rw [add, List.mem_append, mem_entries_iff, List.mem_singleton, Prod.mk.injEq]
      have absent : map.get key = none := by
        rw [Option.eq_none_iff_forall_ne_some]
        intro old shown
        exact fresh (List.mem_map.mpr ⟨(key, old), map.mem_entries_iff.mpr shown, rfl⟩)
      by_cases same : other = key
      · simp [same, absent, eq_comm]
      · simp [same]

def size (map : OrderedMap κ ν) : ℕ :=
  map.entries.length

theorem one_lt_size (map : OrderedMap κ ν) {first second : ν} (left : map.get key = some first)
    (right : map.get other = some second) (distinct : key ≠ other) : 1 < map.size := by
  have leftEntry := map.mem_entries_iff.mpr left
  have rightEntry := map.mem_entries_iff.mpr right
  rw [size]
  match entries : map.entries with
  | [] =>
    rw [entries] at leftEntry
    cases leftEntry
  | [entry] =>
    rw [entries, List.mem_singleton] at leftEntry rightEntry
    exact absurd (congrArg Prod.fst (leftEntry.trans rightEntry.symm)) distinct
  | _ :: _ :: _ => simp

def oldest (map : OrderedMap κ ν) : Option κ :=
  map.entries.head?.map Prod.fst

def erase (map : OrderedMap κ ν) (key : κ) : OrderedMap κ ν where
  entries := map.entries.filter fun entry => entry.1 ≠ key
  nodup := map.nodup.sublist (List.filter_sublist.map _)

theorem get_erase (map : OrderedMap κ ν) :
    (map.erase key).get other = if other = key then none else map.get other := by
  ext found
  rw [← mem_entries_iff, erase, List.mem_filter, mem_entries_iff, decide_eq_true_eq]
  by_cases same : other = key
  · simp [same]
  · simp [same]

def discard (map : OrderedMap κ ν) (drops : κ → Bool) : OrderedMap κ ν where
  entries := map.entries.filter fun entry => ! drops entry.1
  nodup := map.nodup.sublist (List.filter_sublist.map _)

theorem get_discard (map : OrderedMap κ ν) {drops : κ → Bool} :
    (map.discard drops).get key = if drops key = true then none else map.get key := by
  ext found
  rw [← mem_entries_iff, discard, List.mem_filter, mem_entries_iff]
  by_cases dropped : drops key = true
  · simp [dropped]
  · simp [dropped]

def ofEntries (entries : List (κ × ν)) : OrderedMap κ ν :=
  entries.foldl (fun map entry => map.set entry.1 entry.2) empty

theorem get_ofEntries (entries : List (κ × ν)) :
    (ofEntries entries).get key =
      (entries.reverse.find? fun entry => entry.1 = key).map Prod.snd := by
  induction entries using List.reverseRecOn with
  | nil => rfl
  | append_singleton entries entry ih =>
    rw [ofEntries, List.foldl_append, List.foldl_cons, List.foldl_nil, get_set,
      List.reverse_append, List.reverse_singleton, List.singleton_append, List.find?_cons]
    by_cases same : key = entry.1
    · simp [same]
    · rw [if_neg same]
      simpa [Ne.symm same, ofEntries] using ih

end OrderedMap

end SorobanExplorer.Library
