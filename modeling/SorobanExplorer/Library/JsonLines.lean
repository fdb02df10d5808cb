import SorobanExplorer.Library.JsonWritten

/-!
Owns lines of JSON: a written value has no line break in it and is not empty, so that values
joined by line breaks can be told apart.
-/

namespace SorobanExplorer.Library

theorem Numeral.newline_not_mem_text (numeral : Numeral) : '\n' ∉ numeral.text := by
  have digits (list : List Digit) : '\n' ∉ list.map Digit.char := by
    intro member
    obtain ⟨digit, -, same⟩ := List.mem_map.mp member
    exact absurd same ((by decide : ∀ digit : Digit, digit.char ≠ '\n') digit)
  have sign (sign : ExponentSign) : '\n' ∉ sign.text := by
    cases sign <;> decide
  unfold Numeral.text
  simp only [List.mem_append, not_or]
  refine ⟨⟨⟨?_, digits _⟩, ?_⟩, ?_⟩
  · split <;> simp
  · cases numeral.fraction with
    | none => exact List.not_mem_nil
    | some fraction =>
      rw [fractionText, List.mem_cons, not_or]
      exact ⟨by decide, digits _⟩
  · rcases numeral.exponent with _ | ⟨mark, exponent⟩
    · exact List.not_mem_nil
    · rw [exponentText, List.mem_cons, List.mem_append, not_or, not_or]
      exact ⟨by decide, sign mark, digits _⟩

theorem Utf16.mem_of_newline_mem_encode {text : List Char} (member : 0x0A ∈ encode text) :
    '\n' ∈ text := by
  obtain ⟨char, among, written⟩ := List.mem_flatMap.mp member
  rcases Nat.lt_or_ge char.toNat 0x10000 with basic | plane
  · obtain ⟨unit, shape, same⟩ := encodeChar_basic basic
    rw [shape, List.mem_singleton] at written
    rw [← written] at same
    have newline : char = '\n' := Char.toNat_inj.mp same.symm
    exact newline ▸ among
  · obtain ⟨lead, trail, shape, leadCode, trailCode⟩ := encodeChar_supplementary plane
    rw [shape, List.mem_pair] at written
    rcases written with same | same
    · rw [← same] at leadCode
      have small : (0x0A : UInt16).toNat = 10 := rfl
      omega
    · rw [← same] at trailCode
      have small : (0x0A : UInt16).toNat = 10 := rfl
      omega

namespace Json

theorem newline_not_mem_hex (bytes : List UInt8) : '\n' ∉ Hex.encode bytes := by
  have digits : ∀ value < 16, Hex.digit value ≠ '\n' := by decide
  induction bytes with
  | nil => exact List.not_mem_nil
  | cons byte bytes ih =>
    have bound := byte.toNat_lt
    rw [Hex.encode, List.mem_cons, List.mem_cons, not_or, not_or]
    exact ⟨(digits _ (by omega)).symm, (digits _ (by omega)).symm, ih⟩

theorem newline_not_mem_writeUnit (unit : UInt16) : 0x0A ∉ writeUnit unit := by
  unfold writeUnit
  split_ifs with _ _ _ _ newline
  · decide
  · decide
  · decide
  · decide
  · decide
  · decide
  · decide
  · rw [List.mem_cons, List.mem_cons, not_or, not_or]
    refine ⟨by decide, by decide, fun member => ?_⟩
    exact newline_not_mem_hex _ (Utf16.mem_of_newline_mem_encode member)
  · rw [List.mem_singleton]
    exact Ne.symm newline

theorem newline_not_mem_writeUnits (units : List UInt16) : 0x0A ∉ writeUnits units := by
  fun_induction writeUnits units with
  | case1 => exact List.not_mem_nil
  | case2 unit => exact newline_not_mem_writeUnit unit
  | case3 first second rest paired ih =>
    rw [Bool.and_eq_true, Utf16.leading, Utf16.trailing] at paired
    simp only [Bool.and_eq_true, decide_eq_true_eq] at paired
    have small : (0x0A : UInt16).toNat = 10 := rfl
    rw [List.mem_cons, List.mem_cons, not_or, not_or]
    refine ⟨?_, ?_, ih⟩
    · rintro rfl
      omega
    · rintro rfl
      omega
  | case4 first second rest _ ih =>
    rw [List.mem_append, not_or]
    exact ⟨newline_not_mem_writeUnit first, ih⟩

theorem newline_not_mem_quoted (units : List UInt16) : 0x0A ∉ quoted units := by
  rw [quoted, List.cons_append, List.mem_cons, List.mem_append, List.mem_singleton, not_or, not_or]
  exact ⟨by decide, newline_not_mem_writeUnits units, by decide⟩

theorem newline_not_mem_commaSeparated {parts : List (List UInt16)}
    (none : ∀ part ∈ parts, 0x0A ∉ part) : 0x0A ∉ commaSeparated parts := by
  fun_induction commaSeparated parts with
  | case1 => exact List.not_mem_nil
  | case2 part => exact none part (List.mem_singleton_self part)
  | case3 part parts _ ih =>
    rw [List.mem_append, List.mem_cons, not_or, not_or]
    exact ⟨none part List.mem_cons_self, by decide,
      ih fun other member => none other (List.mem_cons_of_mem _ member)⟩

mutual

theorem newline_not_mem_stringify : ∀ value, 0x0A ∉ stringify value
  | .null => by decide
  | .boolean true => by decide
  | .boolean false => by decide
  | .number numeral => by
      rw [stringify]
      split
      · next finite =>
          rw [JsNumber.text, if_pos finite]
          exact fun member =>
            Numeral.newline_not_mem_text _ (Utf16.mem_of_newline_mem_encode member)
      · decide
  | .string units => newline_not_mem_quoted units
  | .array items => by
      rw [stringify, List.cons_append, List.mem_cons, List.mem_append, List.mem_singleton, not_or,
        not_or]
      exact ⟨by decide, newline_not_mem_commaSeparated (newline_not_mem_stringifyItems items),
        by decide⟩
  | .object members => by
      rw [stringify, List.cons_append, List.mem_cons, List.mem_append, List.mem_singleton, not_or,
        not_or]
      exact ⟨by decide, newline_not_mem_commaSeparated (newline_not_mem_stringifyMembers members),
        by decide⟩

theorem newline_not_mem_stringifyItems : ∀ items, ∀ part ∈ stringifyItems items, 0x0A ∉ part
  | [] => by simp [stringifyItems]
  | item :: items => by
      rw [stringifyItems, List.forall_mem_cons]
      exact ⟨newline_not_mem_stringify item, newline_not_mem_stringifyItems items⟩

theorem newline_not_mem_stringifyMembers : ∀ members, ∀ part ∈ stringifyMembers members, 0x0A ∉ part
  | [] => by simp [stringifyMembers]
  | (name, value) :: members => by
      rw [stringifyMembers, List.forall_mem_cons]
      refine ⟨?_, newline_not_mem_stringifyMembers members⟩
      rw [List.mem_append, List.mem_cons, not_or, not_or]
      exact ⟨newline_not_mem_quoted name, by decide, newline_not_mem_stringify value⟩

end

end Json

/-! ### Lines -/

theorem lines_injective {left right : List (List UInt16)}
    (leftLines : ∀ line ∈ left, 0x0A ∉ line) (rightLines : ∀ line ∈ right, 0x0A ∉ line)
    (leftFull : ∀ line ∈ left, line ≠ []) (rightFull : ∀ line ∈ right, line ≠ [])
    (same : [0x0A].intercalate left = [0x0A].intercalate right) : left = right := by
  have empty {lines : List (List UInt16)} (full : ∀ line ∈ lines, line ≠ [])
      (blank : [0x0A].intercalate lines = []) : lines = [] := by
    match lines with
    | [] => rfl
    | [line] =>
      rw [List.intercalate_singleton] at blank
      exact absurd blank (full line List.mem_cons_self)
    | line :: next :: rest =>
      rw [List.intercalate_cons_cons] at blank
      simp at blank
  by_cases leftEmpty : left = []
  · rw [leftEmpty, List.intercalate_nil] at same
    rw [leftEmpty, empty rightFull same.symm]
  · by_cases rightEmpty : right = []
    · rw [rightEmpty, List.intercalate_nil] at same
      exact absurd (empty leftFull same) leftEmpty
    · rw [← List.splitOn_intercalate 0x0A leftLines leftEmpty, same,
        List.splitOn_intercalate 0x0A rightLines rightEmpty]

end SorobanExplorer.Library
