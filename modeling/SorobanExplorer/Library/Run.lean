import Mathlib.Data.List.Infix

/-!
Owns finite runs of a labelled step relation: a run remembers the labels of
its steps in order. `Run.induct` carries an invariant, which may speak about
the labels so far, to every reachable state. `Run.along_iff_eachStep` turns an
exact step lemma into an exact statement about a whole run: a property holds
in every state a run passes through if and only if every step meets a guard.
-/

namespace SorobanExplorer.Library

universe u v

variable {σ : Type u} {α : Type v}

/-- A run from `start`: the labels of its steps, and the state it ends in. -/
inductive Run (step : σ → α → σ → Prop) (start : σ) : List α → σ → Prop
  | nil : Run step start [] start
  | snoc {history : List α} {label : α} {before after : σ} :
      Run step start history before → step before label after →
        Run step start (history ++ [label]) after

def Deterministic (step : σ → α → σ → Prop) : Prop :=
  ∀ before label first second,
    step before label first → step before label second → first = second

namespace Run

variable {step : σ → α → σ → Prop} {start final : σ} {labels : List α}

theorem induct {P : List α → σ → Prop} (initial : P [] start)
    (keeps : ∀ history label before after, Run step start history before →
      P history before → step before label after → P (history ++ [label]) after)
    (run : Run step start labels final) : P labels final := by
  induction run with
  | nil => exact initial
  | snoc earlier taken ih =>
    exact keeps _ _ _ _ earlier ih taken

theorem invariant {P : σ → Prop} (initial : P start)
    (keeps : ∀ before label after, P before → step before label after → P after)
    (run : Run step start labels final) : P final :=
  run.induct (P := fun _ state => P state) initial
    (fun _ label before after _ holds taken => keeps before label after holds taken)

theorem snoc_inv {history : List α} {label : α}
    (run : Run step start (history ++ [label]) final) :
    ∃ before, Run step start history before ∧ step before label final := by
  generalize equal : history ++ [label] = labels at run
  cases run with
  | nil => simp at equal
  | snoc earlier taken =>
    obtain ⟨rfl, same⟩ := List.append_inj' equal rfl
    cases List.singleton_inj.mp same
    exact ⟨_, earlier, taken⟩

theorem nil_inv (run : Run step start [] final) : final = start := by
  generalize equal : ([] : List α) = labels at run
  cases run with
  | nil => rfl
  | snoc => simp at equal

theorem one {label : α} {after : σ} (taken : step start label after) :
    Run step start [label] after :=
  snoc nil taken

theorem mono {larger : σ → α → σ → Prop}
    (admits : ∀ before label after, step before label after → larger before label after)
    (run : Run step start labels final) : Run larger start labels final := by
  induction run with
  | nil => exact nil
  | snoc _ taken ih => exact snoc ih (admits _ _ _ taken)

theorem append {first second : List α} {middle : σ}
    (earlier : Run step start first middle) (later : Run step middle second final) :
    Run step start (first ++ second) final := by
  induction later with
  | nil => simpa using earlier
  | snoc _ taken ih =>
    rw [← List.append_assoc]
    exact snoc ih taken

theorem prefix_exists {history : List α} (isPrefix : history <+: labels)
    (run : Run step start labels final) : ∃ state, Run step start history state := by
  obtain ⟨rest, rfl⟩ := isPrefix
  induction rest using List.reverseRecOn generalizing final with
  | nil => exact ⟨final, by simpa using run⟩
  | append_singleton rest label ih =>
    rw [← List.append_assoc] at run
    obtain ⟨before, earlier, _⟩ := run.snoc_inv
    exact ih earlier

theorem deterministic (unique : Deterministic step) {first second : σ}
    (left : Run step start labels first) (right : Run step start labels second) :
    first = second := by
  induction left generalizing second with
  | nil => exact right.nil_inv.symm
  | snoc earlier taken ih =>
    obtain ⟨before, earlier', taken'⟩ := right.snoc_inv
    cases ih earlier'
    exact unique _ _ _ _ taken taken'

end Run

/-! ### Properties of whole runs -/

/-- `P` holds in every state that the labels lead through. -/
def Along (step : σ → α → σ → Prop) (start : σ) (labels : List α)
    (P : List α → σ → Prop) : Prop :=
  ∀ history, history <+: labels → ∀ state, Run step start history state → P history state

/-- Every step of the labels is taken in a state where `guard` admits it. -/
def EachStep (step : σ → α → σ → Prop) (start : σ) (labels : List α)
    (guard : σ → α → Prop) : Prop :=
  ∀ history label, history ++ [label] <+: labels →
    ∀ state, Run step start history state → guard state label

section Exact

variable {step : σ → α → σ → Prop} {start final : σ} {labels : List α}
  {P : List α → σ → Prop} {guard : σ → α → Prop}

theorem EachStep.of_forall (admits : ∀ label ∈ labels, ∀ state, guard state label) :
    EachStep step start labels guard :=
  fun _ label below state _ => admits label (below.subset (by simp)) state

theorem EachStep.nil : EachStep step start [] guard :=
  fun history label below => absurd below (by simp)

theorem EachStep.of_prefix {shorter : List α} (each : EachStep step start labels guard)
    (isPrefix : shorter <+: labels) : EachStep step start shorter guard :=
  fun history label below => each history label (below.trans isPrefix)

theorem EachStep.snoc {history : List α} {label : α} {before : σ} (unique : Deterministic step)
    (run : Run step start history before) (each : EachStep step start history guard)
    (admits : guard before label) : EachStep step start (history ++ [label]) guard := by
  intro earlier last below state reached
  obtain same | isPrefix := List.prefix_concat_iff.mp below
  · obtain ⟨rfl, sameLabel⟩ := List.append_inj' same rfl
    cases List.singleton_inj.mp sameLabel
    cases Run.deterministic unique run reached
    exact admits
  · exact each earlier last isPrefix state reached

theorem EachStep.extend {history : List α} {label : α} {before after : σ}
    (unique : Deterministic step)
    (earlier : Run step start history before ∧ EachStep step start history guard)
    (admits : guard before label) (taken : step before label after) :
    Run step start (history ++ [label]) after ∧
      EachStep step start (history ++ [label]) guard :=
  ⟨earlier.1.snoc taken, earlier.2.snoc unique earlier.1 admits⟩

theorem EachStep.along (initial : P [] start)
    (keeps : ∀ history label before after, Run step start history before →
      P history before → guard before label → step before label after →
        P (history ++ [label]) after)
    (each : EachStep step start labels guard) : Along step start labels P := by
  intro history isPrefix state run
  replace each := each.of_prefix isPrefix
  clear isPrefix
  induction run with
  | nil => exact initial
  | snoc earlier taken ih =>
    have guarded := each _ _ (List.prefix_refl _) _ earlier
    have holds := ih (each.of_prefix (List.prefix_append _ _))
    exact keeps _ _ _ _ earlier holds guarded taken

theorem Run.along_iff_eachStep {I : List α → σ → Prop} (unique : Deterministic step)
    (run : Run step start labels final) (initial : I [] start)
    (implies : ∀ history state, Run step start history state → I history state →
      P history state)
    (keeps : ∀ history label before after, Run step start history before →
      I history before → guard before label → step before label after →
        I (history ++ [label]) after)
    (exact_step : ∀ history label before after, Run step start history before →
      I history before → step before label after → P (history ++ [label]) after →
        guard before label) :
    Along step start labels P ↔ EachStep step start labels guard := by
  constructor
  · intro along
    -- Every prefix keeps the invariant, because the steps before are guarded.
    have carried : ∀ history, history <+: labels → ∀ state, Run step start history state →
        I history state := by
      intro history isPrefix state earlier
      induction earlier with
      | nil => exact initial
      | snoc earlier taken ih =>
        have holds := ih ((List.prefix_append _ _).trans isPrefix)
        have reached := along _ isPrefix _ (earlier.snoc taken)
        exact keeps _ _ _ _ earlier holds (exact_step _ _ _ _ earlier holds taken reached) taken
    intro history label below state earlier
    obtain ⟨after, whole⟩ := run.prefix_exists below
    obtain ⟨before, earlier', taken⟩ := whole.snoc_inv
    cases Run.deterministic unique earlier earlier'
    have holds := carried history ((List.prefix_append _ _).trans below) state earlier
    exact exact_step _ _ _ _ earlier holds taken (along _ below _ whole)
  · intro each history isPrefix state earlier
    exact implies _ _ earlier (each.along initial keeps history isPrefix state earlier)

end Exact

end SorobanExplorer.Library
