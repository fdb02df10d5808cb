import Mathlib.Algebra.Ring.Nat
import Mathlib.Tactic.Common

/-!
Owns entries that are written one at a time: how a count changes when one entry of a list is
replaced, and what is in a table after one key was written.
-/

namespace SorobanExplorer.Library

universe u v

section Lists

variable {α : Type u} {entries : List α} {place : ℕ} {old : α}

theorem countP_set_add (found : entries[place]? = some old) (new : α) (p : α → Bool) :
    (entries.set place new).countP p + (p old).toNat = entries.countP p + (p new).toNat := by
  obtain ⟨inside, same⟩ := List.getElem?_eq_some_iff.mp found
  have replaced := List.countP_set (p := p) (a := new) inside
  have one (bool : Bool) : (if bool = true then 1 else 0) = bool.toNat := by
    cases bool with
    | false => rfl
    | true => rfl
  have counted : (p old).toNat ≤ entries.countP p := by
    cases holds : p old with
    | false => exact Nat.zero_le _
    | true => exact List.countP_pos_iff.mpr ⟨old, List.mem_of_getElem? found, holds⟩
  rw [same, one, one] at replaced
  omega

theorem of_modify {effect : α → α} {other : ℕ} {entry : α}
    (found : (entries.modify place effect)[other]? = some entry) :
    ∃ old, entries[other]? = some old ∧
      (place = other ∧ entry = effect old ∨ place ≠ other ∧ entry = old) := by
  rw [List.getElem?_modify] at found
  obtain ⟨old, there, same⟩ := Option.map_eq_some_iff.mp found
  refine ⟨old, there, ?_⟩
  split at same
  · next here => exact .inl ⟨here, same.symm⟩
  · next apart => exact .inr ⟨apart, same.symm⟩

theorem of_concat {new entry : α} (found : (entries ++ [new])[place]? = some entry) :
    entries[place]? = some entry ∨ place = entries.length ∧ entry = new := by
  rw [List.getElem?_append] at found
  split at found
  · exact .inl found
  · next behind =>
      have first : place - entries.length = 0 := by
        simpa using (List.getElem?_eq_some_iff.mp found).1
      rw [first] at found
      exact .inr ⟨by omega, (Option.some.inj found).symm⟩

theorem concat_of {entry : α} (found : entries[place]? = some entry) (new : α) :
    (entries ++ [new])[place]? = some entry :=
  (List.getElem?_append_left (List.getElem?_eq_some_iff.mp found).1).trans found

end Lists

/-! ### Weights -/

section Weights

variable {α : Type u} (weight : α → ℕ)

theorem weight_modify {entries : List α} {place : ℕ} {old : α}
    (found : entries[place]? = some old) (effect : α → α) :
    ((entries.modify place effect).map weight).sum + weight old =
      (entries.map weight).sum + weight (effect old) := by
  induction entries generalizing place with
  | nil => cases found
  | cons head tail ih =>
    cases place with
    | zero =>
      cases Option.some.inj found
      simp only [List.modify_zero_cons, List.map_cons, List.sum_cons]
      omega
    | succ place =>
      have rest := @ih place found
      simp only [List.modify_succ_cons, List.map_cons, List.sum_cons]
      omega

theorem weight_mapIdx_le {effect : ℕ → α → α}
    (lighter : ∀ place entry, weight (effect place entry) ≤ weight entry) (entries : List α) :
    ((entries.mapIdx effect).map weight).sum ≤ (entries.map weight).sum := by
  induction entries generalizing effect with
  | nil => exact Nat.le_refl _
  | cons head tail ih =>
    have first := lighter 0 head
    have rest := @ih (fun place => effect (place + 1))
      fun place entry => lighter (place + 1) entry
    simp only [List.mapIdx_cons, List.map_cons, List.sum_cons]
    omega

theorem weight_map_le {effect : α → α} (lighter : ∀ entry, weight (effect entry) ≤ weight entry)
    (entries : List α) : ((entries.map effect).map weight).sum ≤ (entries.map weight).sum := by
  induction entries with
  | nil => exact Nat.le_refl _
  | cons head tail ih =>
    have first := lighter head
    simp only [List.map_cons, List.sum_cons]
    omega

theorem weight_modify_le {effect : α → α} (lighter : ∀ entry, weight (effect entry) ≤ weight entry)
    (entries : List α) (place : ℕ) :
    ((entries.modify place effect).map weight).sum ≤ (entries.map weight).sum := by
  cases there : entries[place]? with
  | none =>
    have same := List.modify_eq_self (f := effect) (List.getElem?_eq_none_iff.mp there)
    exact Nat.le_of_eq (congrArg (fun list => (list.map weight).sum) same)
  | some old =>
    have replaced := weight_modify weight there effect
    have lessOld := lighter old
    omega

end Weights

section Tables

variable {κ : Type u} {ν : Type v} [DecidableEq κ] {table : κ → Option ν} {key other : κ}
  {entry : Option ν} {value : ν}

theorem of_update (found : Function.update table key entry other = some value) :
    other = key ∧ entry = some value ∨ other ≠ key ∧ table other = some value := by
  rw [Function.update_apply] at found
  split at found
  · next same => exact .inl ⟨same, found⟩
  · next apart => exact .inr ⟨apart, found⟩

theorem of_update_none (found : Function.update table key none other = some value) :
    other ≠ key ∧ table other = some value :=
  (of_update found).resolve_left fun ⟨_, written⟩ => nomatch written

theorem forall_update {holds : κ → ν → Prop}
    (kept : ∀ other value, table other = some value → holds other value)
    (written : ∀ value, entry = some value → holds key value) :
    ∀ other value, Function.update table key entry other = some value → holds other value := by
  intro other value found
  obtain ⟨rfl, same⟩ | ⟨-, there⟩ := of_update found
  · exact written value same
  · exact kept other value there

end Tables

end SorobanExplorer.Library
