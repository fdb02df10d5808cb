import Mathlib.Logic.Basic

/-!
Owns computations that thread a state and may abort, as a host runs a contract
call: `Tx σ ε α` reads and writes a state `σ` and aborts with an `ε`. The
writes of an aborted computation are never seen: `settle` returns the state
from before. `bind_eq_ok` peels a successful computation
apart; `bind_ok` and `bind_error` run one forward.
-/

namespace SorobanExplorer.Library

universe u

abbrev Tx (σ ε α : Type u) : Type u := StateT σ (Except ε) α

namespace Tx

variable {σ ε α β : Type u}

def abort (reason : ε) : Tx σ ε α := fun _ => .error reason

def require (condition : Prop) [Decidable condition] (reason : ε) : Tx σ ε PUnit :=
  if condition then pure ⟨⟩ else abort reason

def orAbort (reason : ε) : Option α → Tx σ ε α
  | some value => pure value
  | none => abort reason

def update (write : σ → σ) : Tx σ ε PUnit := fun state => .ok (⟨⟩, write state)

def read (view : σ → α) : Tx σ ε α := fun state => .ok (view state, state)

def settle (tx : Tx σ ε α) (state : σ) : Except ε α × σ :=
  match tx state with
  | .ok (value, after) => (.ok value, after)
  | .error reason => (.error reason, state)

theorem settle_error {tx : Tx σ ε α} {state : σ} {reason : ε}
    (fails : tx state = .error reason) : tx.settle state = (.error reason, state) := by
  simp [settle, fails]

theorem pure_apply (value : α) (state : σ) :
    (pure value : Tx σ ε α) state = .ok (value, state) := rfl

theorem bind_apply (first : Tx σ ε α) (next : α → Tx σ ε β) (state : σ) :
    (first >>= next) state =
      match first state with
      | .ok (value, after) => next value after
      | .error reason => .error reason := by
  change (first state >>= fun result => next result.1 result.2) = _
  cases first state <;> rfl

theorem bind_eq_ok {first : Tx σ ε α} {next : α → Tx σ ε β} {state after : σ} {value : β} :
    (first >>= next) state = .ok (value, after) ↔
      ∃ result middle, first state = .ok (result, middle) ∧
        next result middle = .ok (value, after) := by
  rw [bind_apply]
  cases outcome : first state with
  | error reason => simp
  | ok pair =>
    obtain ⟨result, middle⟩ := pair
    constructor
    · exact fun succeeds => ⟨result, middle, rfl, succeeds⟩
    · rintro ⟨_, _, same, succeeds⟩
      cases same
      exact succeeds

theorem bind_ok {first : Tx σ ε α} {next : α → Tx σ ε β} {state middle : σ} {result : α}
    (succeeds : first state = .ok (result, middle)) :
    (first >>= next) state = next result middle := by
  rw [bind_apply, succeeds]

theorem bind_error {first : Tx σ ε α} {next : α → Tx σ ε β} {state : σ} {reason : ε}
    (fails : first state = .error reason) : (first >>= next) state = .error reason := by
  rw [bind_apply, fails]

@[simp] theorem abort_apply (reason : ε) (state : σ) :
    (abort reason : Tx σ ε α) state = .error reason := rfl

theorem update_apply (write : σ → σ) (state : σ) :
    (update write : Tx σ ε PUnit) state = .ok (⟨⟩, write state) := rfl

theorem read_apply (view : σ → α) (state : σ) :
    (read view : Tx σ ε α) state = .ok (view state, state) := rfl

@[simp] theorem map_eq_ok {tx : Tx σ ε α} {map : α → β} {state after : σ} {value : β} :
    (map <$> tx) state = .ok (value, after) ↔
      ∃ result, map result = value ∧ tx state = .ok (result, after) := by
  rw [← bind_pure_comp, bind_eq_ok]
  constructor
  · rintro ⟨result, middle, ran, mapped⟩
    cases mapped
    exact ⟨result, rfl, ran⟩
  · rintro ⟨result, rfl, ran⟩
    exact ⟨result, after, ran, rfl⟩

@[simp] theorem pure_eq_ok {state after : σ} {found value : α} :
    (pure found : Tx σ ε α) state = .ok (value, after) ↔ value = found ∧ after = state := by
  simp [pure_apply, eq_comm]

@[simp] theorem read_eq_ok {view : σ → α} {state after : σ} {value : α} :
    (read view : Tx σ ε α) state = .ok (value, after) ↔ value = view state ∧ after = state := by
  simp [read_apply, eq_comm]

@[simp] theorem update_eq_ok {write : σ → σ} {state after : σ} {value : PUnit} :
    (update write : Tx σ ε PUnit) state = .ok (value, after) ↔ after = write state := by
  simp [update_apply, eq_comm]

/-! ### Sequences that start with an operation -/

theorem read_bind_eq_ok {view : σ → α} {next : α → Tx σ ε β} {state after : σ} {value : β} :
    (read view >>= next) state = .ok (value, after) ↔
      next (view state) state = .ok (value, after) := Iff.rfl

theorem update_bind_eq_ok {write : σ → σ} {next : PUnit → Tx σ ε β} {state after : σ}
    {value : β} :
    (update write >>= next) state = .ok (value, after) ↔
      next ⟨⟩ (write state) = .ok (value, after) := Iff.rfl

theorem require_eq_ok {condition : Prop} [Decidable condition] {reason : ε} {state after : σ}
    {value : PUnit} :
    require condition reason state = .ok (value, after) ↔ condition ∧ after = state := by
  by_cases holds : condition <;> simp [require, holds]

theorem require_bind_eq_ok {condition : Prop} [Decidable condition] {reason : ε}
    {next : PUnit → Tx σ ε β} {state after : σ} {value : β} :
    (require condition reason >>= next) state = .ok (value, after) ↔
      condition ∧ next ⟨⟩ state = .ok (value, after) := by
  by_cases holds : condition <;> simp [bind_apply, require, holds, pure_apply]

theorem orAbort_bind_eq_ok {option : Option α} {reason : ε} {next : α → Tx σ ε β}
    {state after : σ} {value : β} :
    (orAbort reason option >>= next) state = .ok (value, after) ↔
      ∃ found, option = some found ∧ next found state = .ok (value, after) := by
  cases option <;> simp [bind_eq_ok, orAbort]

/-! ### Why a sequence aborts -/

theorem bind_eq_error {first : Tx σ ε α} {next : α → Tx σ ε β} {state : σ} {reason : ε} :
    (first >>= next) state = .error reason ↔
      first state = .error reason ∨
        ∃ result middle, first state = .ok (result, middle) ∧
          next result middle = .error reason := by
  rw [bind_apply]
  cases first state with
  | error other => simp
  | ok pair =>
    constructor
    · exact fun fails => .inr ⟨pair.1, pair.2, rfl, fails⟩
    · rintro (fails | ⟨_, _, same, fails⟩)
      · nomatch fails
      · cases same
        exact fails

theorem require_eq_error {condition : Prop} [Decidable condition] {reason other : ε} {state : σ} :
    (require condition reason : Tx σ ε PUnit) state = .error other ↔
      ¬ condition ∧ other = reason := by
  by_cases holds : condition <;> simp [require, holds, pure_apply, eq_comm]

theorem orAbort_eq_error {option : Option α} {reason other : ε} {state : σ} :
    (orAbort reason option : Tx σ ε α) state = .error other ↔
      option = none ∧ other = reason := by
  cases option <;> simp [orAbort, pure_apply, eq_comm]

end Tx

end SorobanExplorer.Library
