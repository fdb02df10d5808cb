import Mathlib.Data.List.Forall2

/-!
Owns path patterns: segments that are a text or a parameter, what a pattern captures of the
pieces of a path when texts are compared up to a folding, and the patterns that no path matches
together.
-/

namespace SorobanExplorer.Library

inductive Segment (α : Type*) where
  | literal (text : α)
  | param (name : String)
deriving DecidableEq

namespace Segment

variable {α : Type*}

def Spells : Segment α → α → Prop
  | literal text, piece => piece = text
  | param _, _ => True

def name? : Segment α → Option String
  | literal _ => none
  | param name => some name

end Segment

namespace PathPattern

variable {α : Type*}

def names (pattern : List (Segment α)) : List String := pattern.filterMap Segment.name?

def Folded (fold : α → α) (pattern : List (Segment α)) : Prop :=
  ∀ text, .literal text ∈ pattern → fold text = text

inductive Captured (fold : α → α) (blank : α) :
    List (Segment α) → List α → List (String × α) → Prop where
  | nil : Captured fold blank [] [] []
  | literal {text piece : α} {pattern : List (Segment α)} {pieces : List α}
      {params : List (String × α)} (same : fold piece = fold text)
      (rest : Captured fold blank pattern pieces params) :
      Captured fold blank (.literal text :: pattern) (piece :: pieces) params
  | param {name : String} {piece : α} {pattern : List (Segment α)} {pieces : List α}
      {params : List (String × α)} (filled : piece ≠ blank)
      (rest : Captured fold blank pattern pieces params) :
      Captured fold blank (.param name :: pattern) (piece :: pieces) ((name, piece) :: params)

variable {fold : α → α} {blank : α} {pattern left right : List (Segment α)} {pieces : List α}
  {params leftParams rightParams : List (String × α)}

namespace Captured

theorem exact_iff (captured : Captured fold blank pattern pieces params) :
    Captured id blank pattern pieces params ↔ List.Forall₂ Segment.Spells pattern pieces := by
  induction captured with
  | nil => exact iff_of_true .nil .nil
  | @literal text piece pattern pieces params same rest ih =>
    constructor
    · intro exact'
      cases exact' with
      | literal spelled rest => exact .cons spelled (ih.mp rest)
    · intro spelled
      cases spelled with
      | cons spelled rest => exact .literal spelled (ih.mpr rest)
  | @param name piece pattern pieces params filled rest ih =>
    constructor
    · intro exact'
      cases exact' with
      | param filled rest => exact .cons trivial (ih.mp rest)
    · intro spelled
      cases spelled with
      | cons spelled rest => exact .param filled (ih.mpr rest)

theorem of_exact (captured : Captured id blank pattern pieces params) :
    Captured fold blank pattern pieces params := by
  induction captured with
  | nil => exact .nil
  | literal same rest ih =>
    exact .literal (congrArg fold same) ih
  | param filled rest ih => exact .param filled ih

theorem names_eq (captured : Captured fold blank pattern pieces params) :
    params.map Prod.fst = names pattern := by
  induction captured with
  | nil => rfl
  | literal same rest ih => exact ih
  | param filled rest ih => exact congrArg (_ :: ·) ih

theorem filled (captured : Captured fold blank pattern pieces params) :
    ∀ param ∈ params, param.2 ≠ blank := by
  induction captured with
  | nil => exact fun _ absent => absurd absent List.not_mem_nil
  | literal same rest ih => exact ih
  | param filled rest ih =>
    exact List.forall_mem_cons.mpr ⟨filled, ih⟩

end Captured

variable [DecidableEq α]

/-- Decides `Captured`. -/
def captures (fold : α → α) (blank : α) : List (Segment α) → List α → Option (List (String × α))
  | [], [] => some []
  | .literal text :: pattern, piece :: pieces =>
    if fold piece = fold text then captures fold blank pattern pieces else none
  | .param name :: pattern, piece :: pieces =>
    if piece = blank then none
    else (captures fold blank pattern pieces).map ((name, piece) :: ·)
  | _, _ => none

def apart : List (Segment α) → List (Segment α) → Bool
  | [], [] => false
  | .literal left :: lefts, .literal right :: rights => left != right || apart lefts rights
  | _ :: lefts, _ :: rights => apart lefts rights
  | _, _ => true

theorem apart_comm (left right : List (Segment α)) : apart left right = apart right left := by
  induction left, right using apart.induct with
  | case1 => rfl
  | case2 text lefts other rights ih =>
    simp only [apart, ih, bne_comm]
  | case3 segment lefts other rights parameter ih =>
    cases segment <;> cases other <;> simp_all [apart]
  | case4 left right empty unequal =>
    cases left <;> cases right <;> simp_all [apart]

theorem captured_of_captures (captured : captures fold blank pattern pieces = some params) :
    Captured fold blank pattern pieces params := by
  induction pattern, pieces using captures.induct fold blank generalizing params with
  | case1 =>
    cases captured
    exact .nil
  | case2 text pattern piece pieces same ih =>
    rw [captures, if_pos same] at captured
    exact .literal same (ih captured)
  | case3 text pattern piece pieces other => simp [captures, other] at captured
  | case4 name pattern pieces => simp [captures] at captured
  | case5 name pattern piece pieces filled ih =>
    rw [captures, if_neg filled, Option.map_eq_some_iff] at captured
    obtain ⟨rest, captured, rfl⟩ := captured
    exact .param filled (ih captured)
  | case6 pattern pieces =>
    rw [captures] at captured
    · cases captured
    all_goals assumption

theorem captures_eq_some_iff :
    captures fold blank pattern pieces = some params ↔
      Captured fold blank pattern pieces params := by
  refine ⟨captured_of_captures, fun captured => ?_⟩
  induction captured with
  | nil => rfl
  | literal same rest ih => simp [captures, same, ih]
  | param filled rest ih => simp [captures, filled, ih]

theorem Captured.not_apart (first : Captured fold blank left pieces leftParams)
    (second : Captured fold blank right pieces rightParams)
    (leftFolded : Folded fold left) (rightFolded : Folded fold right) :
    apart left right = false := by
  induction first generalizing right rightParams with
  | nil =>
    cases second
    rfl
  | literal same rest ih =>
    have leftRest := fun text member => leftFolded text (List.mem_cons_of_mem _ member)
    cases second with
    | literal same' rest' =>
      have equal := same.symm.trans same'
      rw [leftFolded _ List.mem_cons_self, rightFolded _ List.mem_cons_self] at equal
      simpa [apart, equal] using ih rest' leftRest
        fun text member => rightFolded text (List.mem_cons_of_mem _ member)
    | param filled rest' =>
      exact ih rest' leftRest
        fun text member => rightFolded text (List.mem_cons_of_mem _ member)
  | param filled rest ih =>
    have leftRest := fun text member => leftFolded text (List.mem_cons_of_mem _ member)
    cases second with
    | literal same' rest' =>
      exact ih rest' leftRest
        fun text member => rightFolded text (List.mem_cons_of_mem _ member)
    | param filled' rest' =>
      exact ih rest' leftRest
        fun text member => rightFolded text (List.mem_cons_of_mem _ member)

end PathPattern

end SorobanExplorer.Library
