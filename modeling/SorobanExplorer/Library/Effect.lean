import Mathlib.Tactic.Common

/-!
Owns computations that read and write a state and may throw, where the writes made
before a throw stay: `EStateM` with three properties and their rules. A computation
`Throws` if it does so from every state, it `Frames` a view of the state if it
leaves that view as it was, whether it throws or not, and it `Yields` an outcome if it
ends with it from every state.
-/

namespace SorobanExplorer.Library

universe u

variable {σ ε α β γ : Type u}

def finalState : EStateM.Result ε σ α → σ
  | .ok _ state | .error _ state => state

def attempt (operation : EStateM ε σ PUnit) : EStateM ε σ PUnit :=
  fun state => .ok ⟨⟩ (finalState (operation state))

def settled (operation : EStateM ε σ α) : EStateM ε σ (Except ε α) :=
  fun state =>
    match operation state with
    | .ok value after => .ok (.ok value) after
    | .error reason after => .ok (.error reason) after

def Throws (operation : EStateM ε σ α) : Prop :=
  ∀ state, ∃ reason after, operation state = .error reason after

def Frames (view : σ → γ) (operation : EStateM ε σ α) : Prop :=
  ∀ state, view (finalState (operation state)) = view state

def outcome : EStateM.Result ε σ α → Except ε α
  | .ok value _ => .ok value
  | .error reason _ => .error reason

def Yields (operation : EStateM ε σ α) (expected : Except ε α) : Prop :=
  ∀ state, outcome (operation state) = expected

section Rules

variable {view : σ → γ} {operation : EStateM ε σ α} {next : α → EStateM ε σ β}

theorem bind_apply (operation : EStateM ε σ α) (next : α → EStateM ε σ β) (state : σ) :
    (operation >>= next) state =
      match operation state with
      | .ok value after => next value after
      | .error reason after => .error reason after := by
  change EStateM.bind operation next state = _
  unfold EStateM.bind
  cases operation state <;> rfl

/-! ### Throwing -/

theorem throws_throw (reason : ε) : Throws (throw reason : EStateM ε σ α) :=
  fun state => ⟨reason, state, rfl⟩

theorem Throws.bind (throws : Throws operation) (next : α → EStateM ε σ β) :
    Throws (operation >>= next) := by
  intro state
  obtain ⟨reason, after, same⟩ := throws state
  exact ⟨reason, after, by rw [bind_apply, same]⟩

theorem throws_bind (operation : EStateM ε σ α) (throws : ∀ value, Throws (next value)) :
    Throws (operation >>= next) := by
  intro state
  rw [bind_apply]
  cases operation state with
  | ok value after => exact throws value after
  | error reason after => exact ⟨reason, after, rfl⟩

/-! ### Framing -/

theorem frames_pure (value : α) : Frames view (pure value : EStateM ε σ α) := fun _ => rfl

theorem frames_throw (reason : ε) : Frames view (throw reason : EStateM ε σ α) := fun _ => rfl

theorem Frames.bind (frames : Frames view operation) (later : ∀ value, Frames view (next value)) :
    Frames view (operation >>= next) := by
  intro state
  have earlier := frames state
  rw [bind_apply]
  cases outcome : operation state with
  | ok value after =>
    rw [outcome] at earlier
    exact (later value after).trans earlier
  | error reason after =>
    rw [outcome] at earlier
    exact earlier

theorem Frames.attempt {operation : EStateM ε σ PUnit} (frames : Frames view operation) :
    Frames view (attempt operation) := frames

theorem Frames.settled (frames : Frames view operation) : Frames view (settled operation) := by
  intro state
  have same := frames state
  unfold Library.settled
  cases outcome : operation state <;> rw [outcome] at same <;> exact same

theorem frames_ofExcept (outcome : Except ε α) :
    Frames view (ofExcept outcome : EStateM ε σ α) := by
  cases outcome with
  | ok value => exact frames_pure value
  | error reason => exact frames_throw reason

theorem frames_modify {write : σ → σ} (keeps : ∀ state, view (write state) = view state) :
    Frames view (modify write : EStateM ε σ PUnit) := keeps

theorem frames_mapM {step : α → EStateM ε σ β} (frames : ∀ value, Frames view (step value))
    (values : List α) : Frames view (values.mapM step) := by
  induction values with
  | nil => exact frames_pure _
  | cons value rest ih =>
    rw [List.mapM_cons]
    exact (frames value).bind fun _ => ih.bind fun _ => frames_pure _

theorem frames_forM {step : α → EStateM ε σ PUnit} (frames : ∀ value, Frames view (step value))
    (values : List α) : Frames view (values.forM step) := by
  induction values with
  | nil => exact frames_pure _
  | cons value rest ih =>
    exact (frames value).bind fun _ => ih

theorem view_bind (later : ∀ value, Frames view (next value)) (state : σ) :
    view (finalState ((operation >>= next) state)) = view (finalState (operation state)) := by
  rw [bind_apply]
  cases operation state with
  | ok value after => exact later value after
  | error reason after => rfl

/-! ### Outcomes -/

theorem yields_pure (value : α) : Yields (pure value : EStateM ε σ α) (.ok value) := fun _ => rfl

theorem yields_ofExcept (expected : Except ε α) :
    Yields (ofExcept expected : EStateM ε σ α) expected := by
  cases expected with
  | ok value => exact fun _ => rfl
  | error reason => exact fun _ => rfl

theorem Yields.bind {expected : Except ε α} {later : α → Except ε β}
    (yields : Yields operation expected) (follows : ∀ value, Yields (next value) (later value)) :
    Yields (operation >>= next) (expected >>= later) := by
  intro state
  rw [bind_apply, ← yields state]
  cases operation state with
  | ok value after => exact follows value after
  | error reason after => rfl

end Rules

end SorobanExplorer.Library
