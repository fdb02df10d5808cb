import Mathlib.Tactic.Common

/-!
Owns recursive descent over a list of tokens: the loop for items with separators
between them, as a function with fuel and as a relation without, and that they
agree where every item takes a token.
-/

namespace SorobanExplorer.Library

abbrev Parser (ε τ α : Type) := List τ → Except ε (α × List τ)

namespace Parser

variable {ε τ α : Type}

theorem bind_eq_ok_iff {β : Type} {first : Except ε α} {next : α → Except ε β} {result : β} :
    (first >>= next) = .ok result ↔ ∃ value, first = .ok value ∧ next value = .ok result := by
  cases first with
  | error failure => exact ⟨nofun, fun ⟨_, read, _⟩ => nomatch read⟩
  | ok value =>
    constructor
    · exact fun success => ⟨value, rfl, success⟩
    · rintro ⟨_, ⟨⟩, success⟩
      exact success

def FailsWith (allowed : ε → Prop) (result : Except ε α) : Prop :=
  ∀ failure, result = .error failure → allowed failure

theorem failsWith_pure {allowed : ε → Prop} (value : α) :
    FailsWith allowed (pure value : Except ε α) := nofun

theorem failsWith_throw {allowed : ε → Prop} {failure : ε} (fails : allowed failure) :
    FailsWith allowed (throw failure : Except ε α) := by
  rintro _ ⟨⟩
  exact fails

theorem FailsWith.bind {β : Type} {allowed : ε → Prop} {first : Except ε α}
    {next : α → Except ε β} (fails : FailsWith allowed first)
    (later : ∀ value, FailsWith allowed (next value)) : FailsWith allowed (first >>= next) := by
  cases first with
  | error failure =>
    rintro _ ⟨⟩
    exact fails failure rfl
  | ok value => exact later value

def Shrinks (parser : Parser ε τ α) : Prop :=
  ∀ tokens value rest, parser tokens = .ok (value, rest) → rest.length < tokens.length

/-! ### Items and separators -/

def separatedFrom (isSeparator : τ → Bool) (item : Parser ε τ α) : Nat → Parser ε τ (List α)
  | 0, tokens => do
      let (first, rest) ← item tokens
      pure ([first], rest)
  | fuel + 1, tokens => do
      let (first, rest) ← item tokens
      match rest with
      | next :: later =>
        if isSeparator next then do
          let (others, rest) ← separatedFrom isSeparator item fuel later
          pure (first :: others, rest)
        else pure ([first], next :: later)
      | [] => pure ([first], [])

def separated (isSeparator : τ → Bool) (item : Parser ε τ α) : Parser ε τ (List α) :=
  fun tokens => separatedFrom isSeparator item tokens.length tokens

inductive Separated (isSeparator : τ → Bool) (item : Parser ε τ α) :
    List τ → List α → List τ → Prop where
  | last {tokens : List τ} {first : α} {rest : List τ} (read : item tokens = .ok (first, rest))
      (ends : ∀ next ∈ rest.head?, isSeparator next = false) :
      Separated isSeparator item tokens [first] rest
  | more {tokens : List τ} {first : α} {next : τ} {middle : List τ} {others : List α}
      {rest : List τ} (read : item tokens = .ok (first, next :: middle))
      (separator : isSeparator next = true)
      (later : Separated isSeparator item middle others rest) :
      Separated isSeparator item tokens (first :: others) rest

section Separated

variable {isSeparator : τ → Bool} {item : Parser ε τ α}

theorem separatedFrom_ok_iff (shrinks : item.Shrinks) {fuel : Nat} {tokens : List τ}
    (enough : tokens.length ≤ fuel) {values : List α} {rest : List τ} :
    separatedFrom isSeparator item fuel tokens = .ok (values, rest) ↔
      Separated isSeparator item tokens values rest := by
  induction fuel generalizing tokens values with
  | zero =>
    obtain rfl := List.length_eq_zero_iff.mp (Nat.le_zero.mp enough)
    have fails : ∀ first rest, item [] ≠ .ok (first, rest) := fun first rest read =>
      absurd (shrinks _ _ _ read) (Nat.not_lt_zero _)
    constructor
    · intro success
      obtain ⟨⟨first, rest⟩, read, -⟩ := bind_eq_ok_iff.mp success
      exact absurd read (fails first rest)
    · intro success
      cases success with
      | last read => exact absurd read (fails _ _)
      | more read => exact absurd read (fails _ _)
  | succ fuel ih =>
    constructor
    · intro success
      obtain ⟨⟨first, after⟩, read, success⟩ := bind_eq_ok_iff.mp success
      cases after with
      | nil =>
        cases success
        exact .last read nofun
      | cons next later =>
        have shorter := shrinks _ _ _ read
        rw [List.length_cons] at shorter
        by_cases separator : isSeparator next = true
        · simp only [if_pos separator] at success
          obtain ⟨⟨others, left⟩, others_read, same⟩ := bind_eq_ok_iff.mp success
          cases same
          exact .more read separator ((ih (by omega)).mp others_read)
        · simp only [if_neg separator] at success
          cases success
          exact .last read (by simpa using separator)
    · intro success
      rw [separatedFrom, bind_eq_ok_iff]
      cases success with
      | @last _ first rest read ends =>
        refine ⟨(first, rest), read, ?_⟩
        cases rest with
        | nil => rfl
        | cons next later =>
          have noSeparator : isSeparator next = false := by simpa using ends
          simp only [noSeparator, Bool.false_eq_true, if_false]
          rfl
      | @more _ first next middle others rest read separator later =>
        have shorter := shrinks _ _ _ read
        rw [List.length_cons] at shorter
        refine ⟨(first, next :: middle), read, ?_⟩
        simp only [separator, if_true]
        exact bind_eq_ok_iff.mpr ⟨_, (ih (by omega)).mpr later, rfl⟩

theorem separated_ok_iff (shrinks : item.Shrinks) {tokens : List τ} {values : List α}
    {rest : List τ} : separated isSeparator item tokens = .ok (values, rest) ↔
      Separated isSeparator item tokens values rest :=
  separatedFrom_ok_iff shrinks (Nat.le_refl _)

theorem separated_failsWith {allowed : ε → Prop}
    (fails : ∀ tokens, FailsWith allowed (item tokens)) (tokens : List τ) :
    FailsWith allowed (separated isSeparator item tokens) := by
  unfold separated
  generalize tokens.length = fuel
  induction fuel generalizing tokens with
  | zero => exact (fails tokens).bind fun _ => failsWith_pure _
  | succ fuel ih =>
    refine (fails tokens).bind fun (first, rest) => ?_
    cases rest with
    | nil => exact failsWith_pure _
    | cons next later =>
      dsimp only
      split_ifs
      · exact (ih later).bind fun _ => failsWith_pure _
      · exact failsWith_pure _

end Separated

end Parser

end SorobanExplorer.Library
