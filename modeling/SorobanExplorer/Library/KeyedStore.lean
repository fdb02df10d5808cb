import Mathlib.Logic.Function.Basic
import Mathlib.Data.Set.Basic

/-!
Owns stores keyed by `κ` whose values are typed by their key: reading back a
write, the keys a write leaves alone, erasing a list of keys, and agreement of
two stores on a set of keys.
-/

namespace SorobanExplorer.Library

universe u v

def Store {κ : Type u} (V : κ → Type v) : Type (max u v) := (key : κ) → Option (V key)

namespace Store

variable {κ : Type u} [DecidableEq κ] {V : κ → Type v}

def empty : Store V := fun _ => none

def put (store : Store V) (key : κ) (value : V key) : Store V :=
  Function.update store key (some value)

def erase (store : Store V) (key : κ) : Store V :=
  Function.update store key none

def eraseAll (store : Store V) (keys : List κ) : Store V :=
  keys.foldl erase store

omit [DecidableEq κ] in
@[simp] theorem empty_apply (key : κ) : (empty : Store V) key = none := rfl

omit [DecidableEq κ] in
@[ext] theorem ext {left right : Store V} (same : ∀ key, left key = right key) : left = right :=
  funext same

@[simp] theorem put_same (store : Store V) (key : κ) (value : V key) :
    store.put key value key = some value :=
  Function.update_self ..

@[simp] theorem put_of_ne (store : Store V) {key other : κ} (value : V key) (ne : other ≠ key) :
    store.put key value other = store other :=
  Function.update_of_ne ne ..

theorem put_eq_self {store : Store V} {key : κ} {value : V key}
    (present : store key = some value) : store.put key value = store :=
  Function.update_eq_self_iff.mpr present.symm

theorem erase_eq_self {store : Store V} {key : κ} (absent : store key = none) :
    store.erase key = store :=
  Function.update_eq_self_iff.mpr absent.symm

@[simp] theorem put_put (store : Store V) (key : κ) (value later : V key) :
    (store.put key value).put key later = store.put key later :=
  Function.update_idem ..

theorem put_comm (store : Store V) {first second : κ} (ne : first ≠ second) (value : V first)
    (other : V second) :
    (store.put first value).put second other = (store.put second other).put first value :=
  (Function.update_comm ne.symm _ _ _).symm

@[simp] theorem erase_same (store : Store V) (key : κ) : store.erase key key = none :=
  Function.update_self ..

@[simp] theorem erase_of_ne (store : Store V) {key other : κ} (ne : other ≠ key) :
    store.erase key other = store other :=
  Function.update_of_ne ne ..

theorem eraseAll_of_mem (store : Store V) {keys : List κ} {key : κ} (member : key ∈ keys) :
    store.eraseAll keys key = none := by
  have erased : ∀ (rest : List κ) (current : Store V), current key = none →
      rest.foldl erase current key = none := by
    intro rest
    induction rest with
    | nil => exact fun _ gone => gone
    | cons head tail ih =>
      intro current gone
      refine ih _ ?_
      by_cases same : key = head
      · subst same
        exact erase_same ..
      · rw [erase_of_ne _ same, gone]
  induction keys generalizing store with
  | nil => simp at member
  | cons head tail ih =>
    rcases List.mem_cons.mp member with rfl | inTail
    · exact erased tail _ (erase_same ..)
    · exact ih (store.erase head) inTail

theorem eraseAll_of_notMem (store : Store V) {keys : List κ} {key : κ} (absent : key ∉ keys) :
    store.eraseAll keys key = store key := by
  induction keys generalizing store with
  | nil => rfl
  | cons head tail ih =>
    rw [List.mem_cons, not_or] at absent
    exact (ih _ absent.2).trans (erase_of_ne _ absent.1)

omit [DecidableEq κ] in
def AgreeOn (keys : Set κ) (left right : Store V) : Prop :=
  ∀ key ∈ keys, left key = right key

section Agreement

variable {keys : Set κ} {left middle right : Store V}

omit [DecidableEq κ]

theorem AgreeOn.refl (keys : Set κ) (store : Store V) : AgreeOn keys store store :=
  fun _ _ => rfl

theorem AgreeOn.trans (first : AgreeOn keys left middle) (second : AgreeOn keys middle right) :
    AgreeOn keys left right :=
  fun key member => (first key member).trans (second key member)

end Agreement

section Footprint

variable {keys : Set κ} {left right : Store V} {key : κ}

theorem AgreeOn.put_right (agree : AgreeOn keys left right) (outside : key ∉ keys)
    (value : V key) : AgreeOn keys left (right.put key value) := by
  intro other member
  rw [put_of_ne _ _ (by rintro rfl; exact outside member)]
  exact agree other member

theorem AgreeOn.erase_right (agree : AgreeOn keys left right) (outside : key ∉ keys) :
    AgreeOn keys left (right.erase key) := by
  intro other member
  rw [erase_of_ne _ (by rintro rfl; exact outside member)]
  exact agree other member

theorem AgreeOn.eraseAll_right (agree : AgreeOn keys left right) {erased : List κ}
    (outside : ∀ key ∈ erased, key ∉ keys) : AgreeOn keys left (right.eraseAll erased) := by
  intro other member
  rw [eraseAll_of_notMem _ fun inside => outside other inside member]
  exact agree other member

theorem AgreeOn.put_footprint (agree : AgreeOn keysᶜ left right) (inside : key ∈ keys)
    (value : V key) : AgreeOn keysᶜ left (right.put key value) :=
  agree.put_right (fun outside => outside inside) value

theorem AgreeOn.erase_footprint (agree : AgreeOn keysᶜ left right) (inside : key ∈ keys) :
    AgreeOn keysᶜ left (right.erase key) :=
  agree.erase_right fun outside => outside inside

end Footprint

end Store

end SorobanExplorer.Library
