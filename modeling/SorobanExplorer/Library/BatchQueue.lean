import Mathlib.Data.List.Basic
import Mathlib.Tactic.Common

/-!
Owns a queue whose front is taken in batches: a batch in flight succeeds as a whole, or fails and
each of its entries comes back to the front or is lost. What is in the queue, in flight, done and
lost are all the entries, each as often as it was pushed.
-/

namespace SorobanExplorer.Library

universe u

structure BatchQueue (α : Type u) where
  queue : List α
  flights : List (List α)
  done : List (List α)
  lost : List α

namespace BatchQueue

variable {α : Type u}

def empty : BatchQueue α := ⟨[], [], [], []⟩

def push (store : BatchQueue α) (entry : α) : BatchQueue α :=
  { store with queue := store.queue ++ [entry] }

def takeBatch (size : ℕ) (store : BatchQueue α) : BatchQueue α :=
  { store with
    queue := store.queue.drop size
    flights := store.flights ++ [store.queue.take size] }

def succeed? (store : BatchQueue α) (flight : ℕ) : Option (BatchQueue α) :=
  store.flights[flight]?.map fun batch =>
    { store with flights := store.flights.eraseIdx flight, done := store.done ++ [batch] }

/-- The batch of a flight fails: `retry` makes of an entry what comes back, if it does. -/
def fail? (retry : α → Option α) (store : BatchQueue α) (flight : ℕ) : Option (BatchQueue α) :=
  store.flights[flight]?.map fun batch =>
    { store with
      queue := batch.filterMap retry ++ store.queue
      flights := store.flights.eraseIdx flight
      lost := store.lost ++ batch.filter fun entry => (retry entry).isNone }

/-! ### Copies -/

def copies (kind : α → Bool) (store : BatchQueue α) : ℕ :=
  store.queue.countP kind + store.flights.flatten.countP kind + store.done.flatten.countP kind +
    store.lost.countP kind

theorem copies_push (kind : α → Bool) (store : BatchQueue α) (entry : α) :
    (store.push entry).copies kind = store.copies kind + if kind entry then 1 else 0 := by
  simp only [copies, push, List.countP_append, List.countP_singleton]
  omega

theorem copies_takeBatch (kind : α → Bool) (size : ℕ) (store : BatchQueue α) :
    (store.takeBatch size).copies kind = store.copies kind := by
  have split : store.queue.countP kind =
      (store.queue.take size).countP kind + (store.queue.drop size).countP kind := by
    rw [← List.countP_append, List.take_append_drop]
  simp only [copies, takeBatch, List.flatten_append, List.flatten_singleton, List.countP_append]
  omega

theorem countP_eraseIdx (kind : α → Bool) {flights : List (List α)} {flight : ℕ} {batch : List α}
    (found : flights[flight]? = some batch) :
    flights.flatten.countP kind =
      batch.countP kind + (flights.eraseIdx flight).flatten.countP kind := by
  obtain ⟨bound, here⟩ := List.getElem?_eq_some_iff.mp found
  have split : flights = flights.take flight ++ batch :: flights.drop (flight + 1) := by
    rw [← here, ← List.drop_eq_getElem_cons bound, List.take_append_drop]
  rw [congrArg List.flatten split, List.eraseIdx_eq_take_drop_succ, List.flatten_append,
    List.flatten_append, List.flatten_cons, List.countP_append, List.countP_append,
    List.countP_append]
  omega

theorem copies_succeed {kind : α → Bool} {store after : BatchQueue α} {flight : ℕ}
    (succeeds : store.succeed? flight = some after) : after.copies kind = store.copies kind := by
  obtain ⟨batch, found, rfl⟩ := Option.map_eq_some_iff.mp succeeds
  have taken := countP_eraseIdx kind found
  simp only [copies, List.flatten_append, List.flatten_singleton, List.countP_append]
  omega

theorem countP_retry {kind : α → Bool} {retry : α → Option α}
    (same : ∀ entry later, retry entry = some later → kind later = kind entry) (batch : List α) :
    (batch.filterMap retry).countP kind +
        (batch.filter fun entry => (retry entry).isNone).countP kind = batch.countP kind := by
  induction batch with
  | nil => rfl
  | cons entry batch ih =>
    cases again : retry entry with
    | none =>
      rw [List.filterMap_cons_none again, List.filter_cons_of_pos (by rw [again]; rfl),
        List.countP_cons, List.countP_cons]
      omega
    | some later =>
      rw [List.filterMap_cons_some again,
        List.filter_cons_of_neg (by rw [again]; exact Bool.false_ne_true), List.countP_cons,
        List.countP_cons, same entry later again]
      omega

theorem copies_fail {kind : α → Bool} {retry : α → Option α}
    (same : ∀ entry later, retry entry = some later → kind later = kind entry)
    {store after : BatchQueue α} {flight : ℕ} (fails : store.fail? retry flight = some after) :
    after.copies kind = store.copies kind := by
  obtain ⟨batch, found, rfl⟩ := Option.map_eq_some_iff.mp fails
  have taken := countP_eraseIdx kind found
  have parts := countP_retry same batch
  simp only [copies, List.countP_append]
  omega

/-! ### Order -/

theorem map_filterMap_sublist {κ : Type*} {key : α → κ} {retry : α → Option α}
    (same : ∀ entry later, retry entry = some later → key later = key entry) (batch : List α) :
    ((batch.filterMap retry).map key).Sublist (batch.map key) := by
  induction batch with
  | nil => exact List.Sublist.refl _
  | cons entry batch ih =>
    cases again : retry entry with
    | none =>
      rw [List.filterMap_cons_none again, List.map_cons]
      exact ih.cons _
    | some later =>
      rw [List.filterMap_cons_some again, List.map_cons, List.map_cons, same entry later again]
      exact ih.cons_cons _

end BatchQueue

end SorobanExplorer.Library
