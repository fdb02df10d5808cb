import SorobanExplorer.SavedFilters.Meaning

/-!
Owns what of a filter can reach the SQL text as syntax: two filters of one shape,
the texts that differ in their literals only, and the path segments that stay in
theirs.
-/

namespace SorobanExplorer.SavedFilters

open Library
open Library.SqlLexer (Lexeme Lexes literals quote)
open Filters (JsString js stringOf joined stringOfProperty)

/-! ### Shapes -/

mutual

def blankValue : Json → Json
  | .string _ => .string []
  | .array items => .array (blankItems items)
  | .object members => .object (blankMembers members)
  | .null => .null
  | .boolean value => .boolean value
  | .number numeral => .number numeral

def blankItems : List Json → List Json
  | [] => []
  | item :: items => blankValue item :: blankItems items

def blankMembers : List (JsString × Json) → List (JsString × Json)
  | [] => []
  | (name, value) :: members => (name, blankValue value) :: blankMembers members

end

def fieldKind : Option Json → Option Json
  | some (.string field) =>
    if (js "arg.").isPrefixOf field then
      some (.string (js "arg." ++ (field.drop 4).filter (· = 0x2E)))
    else some (.string field)
  | field => field

mutual

def Dsl.shape : Dsl → Dsl
  | .object field operator value (.list nodes) =>
    .object (fieldKind field) operator (value.map blankValue) (.list (Dsl.shapes nodes))
  | .object field operator value .absent =>
    .object (fieldKind field) operator (value.map blankValue) .absent
  | .object field operator value (.other truthy) =>
    .object (fieldKind field) operator (value.map blankValue) (.other truthy)
  | .null => .null
  | .scalar truthy => .scalar truthy
  | .array => .array

def Dsl.shapes : List Dsl → List Dsl
  | [] => []
  | node :: nodes => node.shape :: Dsl.shapes nodes

end

/-! ### Separation -/

def blankLexeme : Lexeme → Lexeme := Lexeme.mapLiteral fun _ => []

/-- Both calls return, with texts that are the same up to literals, or both throw. The
literals of each text are the path segments of its filter, as they are written: no
segment ends its literal, and none becomes syntax. -/
def Separated (first second : Dsl) : Prop :=
  match filterToSql first, filterToSql second with
  | .ok (text, _), .ok (other, _) =>
    ∃ lexemes others, Lexes text lexemes ∧ Lexes other others ∧
      lexemes.map blankLexeme = others.map blankLexeme ∧
        literals lexemes = first.segments ∧ literals others = second.segments
  | .error _, .error _ => True
  | _, _ => False

/-! ### Values of one shape -/

theorem lookup_blankMembers (members : List (JsString × Json)) (key : JsString) :
    Json.lookup (blankMembers members) key = (Json.lookup members key).map blankValue := by
  induction members with
  | nil => rfl
  | cons member members ih =>
    obtain ⟨name, value⟩ := member
    rw [blankMembers, Json.lookup, Json.lookup, ih]
    cases Json.lookup members key with
    | some later => rfl
    | none => split_ifs <;> rfl

theorem stringOf_array_isOk (items : List Json) :
    (stringOf (.array items)).isOk = (joined items).isOk := by
  rw [stringOf]
  cases joined items <;> rfl

theorem joined_cons_isOk (item : Json) (items : List Json) :
    (joined (item :: items)).isOk = ((stringOf item).isOk && (joined items).isOk) := by
  cases item with
  | null =>
    rw [joined]
    cases joined items <;> rfl
  | boolean _ | number _ | string _ | array _ | object _ =>
    simp only [joined]
    cases stringOf _ with
    | error thrown => rfl
    | ok first => cases joined items <;> rfl

mutual

theorem stringOf_blankValue : ∀ value, (stringOf (blankValue value)).isOk = (stringOf value).isOk
  | .null | .boolean _ | .number _ | .string _ => rfl
  | .array items => by
      rw [blankValue, stringOf_array_isOk, stringOf_array_isOk, joined_blankItems items]
  | .object members => by
      rw [blankValue, stringOf, stringOf, lookup_blankMembers]
      cases Json.lookup members (js "toString") with
      | none => rfl
      | some own => rfl

theorem joined_blankItems : ∀ items, (joined (blankItems items)).isOk = (joined items).isOk
  | [] => rfl
  | item :: items => by
      rw [blankItems, joined_cons_isOk, joined_cons_isOk, stringOf_blankValue item,
        joined_blankItems items]

end

theorem textOf_isOk_iff (value : Json) :
    (∃ text, textOf (some value) = .ok text) ↔ (stringOf value).isOk = true := by
  rw [textOf, stringOfProperty]
  cases stringOf value with
  | error thrown => exact iff_of_false nofun nofun
  | ok text => exact iff_of_true ⟨text, rfl⟩ rfl

/-! ### Conditions of one shape -/

section Shape

variable {condition other : SavedCondition} {conditions others : Conditions Dsl}

theorem Operator.name_injective : Function.Injective Operator.name := by
  have distinct : ∀ first ∈ operators, ∀ second ∈ operators,
      first.name = second.name → first = second := by decide
  have all (operator : Operator) : operator ∈ operators := by cases operator <;> decide
  exact fun first second => distinct first (all first) second (all second)

theorem shape_object (field operator value : Option Json) (conditions : Conditions Dsl) :
    ∃ shapes, (Dsl.object field operator value conditions).shape =
      .object (fieldKind field) operator (value.map blankValue) shapes := by
  cases conditions with
  | absent | list nodes | other truthy => exact ⟨_, rfl⟩

theorem shape_eq (same : (condition.filter conditions).shape = (other.filter others).shape) :
    fieldKind condition.leaf.field = fieldKind other.leaf.field ∧
      condition.operator = other.operator ∧
        blankValue condition.value = blankValue other.value := by
  obtain ⟨shapes, shape⟩ := shape_object condition.leaf.field condition.leaf.operator
    condition.leaf.value conditions
  obtain ⟨otherShapes, otherShape⟩ := shape_object other.leaf.field other.leaf.operator
    other.leaf.value others
  obtain ⟨fields, operators, values, -⟩ :=
    Dsl.object.inj (shape.symm.trans (Eq.trans same otherShape))
  exact ⟨fields, Operator.name_injective (Json.string.inj (Option.some.inj operators)),
    Option.some.inj values⟩

theorem columnOf_arg (path : JsString) :
    columnOf (some (.string (js "arg." ++ path))) = .ok (.arg path) := by
  have start : js "arg." = [0x61, 0x72, 0x67, 0x2E] := by decide
  have other : ∀ name ∈ [js "contract", js "function", js "ledger", js "type"],
      js "arg." ++ path ≠ name := by
    rw [start]
    simp [show js "contract" = 0x63 :: js "ontract" by decide,
      show js "function" = 0x66 :: js "unction" by decide,
      show js "ledger" = 0x6C :: js "edger" by decide, show js "type" = 0x74 :: js "ype" by decide]
  have noTopic : (js "topic[").isPrefixOf (js "arg." ++ path) = false := rfl
  have arg : (js "arg.").isPrefixOf (js "arg." ++ path) = true :=
    List.isPrefixOf_iff_prefix.mpr (List.prefix_append _ _)
  simp only [columnOf]
  rw [if_neg (other _ (by simp)), if_neg (other _ (by simp)), if_neg (other _ (by simp)),
    if_neg (other _ (by simp)), noTopic, if_neg Bool.false_ne_true, if_pos arg]
  rfl

theorem fieldKind_eq {field other : JsString}
    (same : fieldKind (some (.string field)) = fieldKind (some (.string other))) :
    field = other ∨ ∃ path otherPath, field = js "arg." ++ path ∧ other = js "arg." ++ otherPath ∧
      path.filter (· = 0x2E) = otherPath.filter (· = 0x2E) := by
  have starts (rest : JsString) : (js "arg.").isPrefixOf (js "arg." ++ rest) = true :=
    List.isPrefixOf_iff_prefix.mpr (List.prefix_append _ _)
  rw [fieldKind, fieldKind] at same
  split_ifs at same with arg otherArg otherArg
  · have dots := List.append_cancel_left (Json.string.inj (Option.some.inj same))
    exact Or.inr ⟨_, _, prefix_drop arg, prefix_drop otherArg, dots⟩
  · exact absurd (Json.string.inj (Option.some.inj same) ▸ starts _) otherArg
  · exact absurd (Json.string.inj (Option.some.inj same.symm) ▸ starts _) arg
  · exact Or.inl (Json.string.inj (Option.some.inj same))

theorem length_segments (path : JsString) :
    (Column.segments path).length = (path.filter (· = 0x2E)).length + 1 := by
  induction path with
  | nil => rfl
  | cons unit path ih =>
    obtain ⟨first, later, before, after⟩ := segments_cons unit path
    rw [before, List.length_cons] at ih
    rw [after]
    split_ifs with dot
    · simp [dot, ih]
    · simp [dot, ih]

theorem map_blank_arrowLexemes {segments others : List JsString}
    (same : segments.length = others.length) :
    (arrowLexemes segments).map blankLexeme = (arrowLexemes others).map blankLexeme := by
  induction segments generalizing others with
  | nil =>
    obtain rfl := List.length_eq_zero_iff.mp same.symm
    rfl
  | cons segment segments ih =>
    cases others with
    | nil => cases same
    | cons other others =>
      have rest := ih (Nat.succ.inj same)
      exact congrArg (fun lexemes => .operator (js "->") :: .literal [] :: lexemes) rest

theorem columnOf_shape (same : fieldKind condition.leaf.field = fieldKind other.leaf.field)
    {column : Column} (known : columnOf condition.leaf.field = .ok column) :
    ∃ otherColumn, columnOf other.leaf.field = .ok otherColumn ∧
      column.lexemes.map blankLexeme = otherColumn.lexemes.map blankLexeme := by
  rcases fieldKind_eq same with field | ⟨path, otherPath, field, otherField, dots⟩
  · have fields : condition.leaf.field = other.leaf.field := by
      rw [SavedCondition.leaf, SavedCondition.leaf, field]
    exact ⟨column, fields ▸ known, rfl⟩
  · rw [SavedCondition.leaf, field, columnOf_arg] at known
    cases known
    refine ⟨.arg otherPath, by rw [SavedCondition.leaf, otherField, columnOf_arg], ?_⟩
    have segments : (Column.segments path).length = (Column.segments otherPath).length := by
      rw [length_segments, length_segments, dots]
    exact congrArg (Lexeme.word (js "raw_data") :: ·) (map_blank_arrowLexemes segments)

theorem operand_shape (operators : condition.operator = other.operator)
    (values : blankValue condition.value = blankValue other.value)
    (bound : ∃ operand, condition.leaf.operand = .ok operand) :
    ∃ operand, other.leaf.operand = .ok operand := by
  rw [operand_ok_iff, SavedCondition.leaf] at bound ⊢
  rw [← operators]
  intro wild
  have text := (textOf_isOk_iff condition.value).mp (bound wild)
  rw [← stringOf_blankValue, values, stringOf_blankValue] at text
  exact (textOf_isOk_iff other.value).mpr text

theorem converted_shape (same : (condition.filter conditions).shape = (other.filter others).shape)
    {text : JsString} {params : Params} (converted : condition.converted = .ok (text, params)) :
    ∃ column otherColumn otherParams,
      columnOf condition.leaf.field = .ok column ∧ columnOf other.leaf.field = .ok otherColumn ∧
        text = (condition.comparison column).text ∧
          other.converted = .ok ((other.comparison otherColumn).text, otherParams) ∧
            (condition.comparison column).lexemes.map blankLexeme =
              (other.comparison otherColumn).lexemes.map blankLexeme := by
  obtain ⟨fields, operators, values⟩ := shape_eq same
  obtain ⟨column, operand, known, one, bound, rfl, rfl⟩ := (converted_ok_iff condition).mp converted
  obtain ⟨otherColumn, otherKnown, blank⟩ := columnOf_shape fields known
  obtain ⟨otherOperand, otherBound⟩ := operand_shape operators values ⟨operand, bound⟩
  have otherConverted := (converted_ok_iff other).mpr
    ⟨otherColumn, otherOperand, otherKnown, operators ▸ one, otherBound, rfl, rfl⟩
  refine ⟨column, otherColumn, _, known, otherKnown, rfl, otherConverted, ?_⟩
  rw [Comparison.lexemes, Comparison.lexemes, List.map_append, List.map_append]
  simp only [SavedCondition.comparison, blank, operators]

theorem convertible_converted_iff : Convertible (condition.filter conditions) ↔
    ∃ text params, condition.converted = .ok (text, params) := by
  rw [convertible_iff]
  constructor
  · rintro ⟨column, operand, known, one, bound⟩
    exact ⟨_, _, (converted_ok_iff condition).mpr ⟨column, operand, known, one, bound, rfl, rfl⟩⟩
  · rintro ⟨text, params, converted⟩
    obtain ⟨column, operand, known, one, bound, -, -⟩ := (converted_ok_iff condition).mp converted
    exact ⟨column, operand, known, one, bound⟩

end Shape

/-! ### Separation of accepted filters -/

def PairedSegments (filter : Dsl) : Prop :=
  Convertible filter → ∀ segment ∈ filter.segments, SqlLexer.Paired segment

/-- Two accepted filters of one shape get the same text up to literals that are their
path segments exactly when the quotes of their segments come in pairs. -/
theorem separated_iff {first second : Dsl} (accepted : Accepted first)
    (acceptedSecond : Accepted second) (same : first.shape = second.shape) :
    Separated first second ↔ PairedSegments first ∧ PairedSegments second := by
  obtain ⟨condition, conditions, falsy, rfl⟩ := accepted_iff.mp accepted
  obtain ⟨other, others, otherFalsy, rfl⟩ := accepted_iff.mp acceptedSecond
  rw [Separated, PairedSegments, PairedSegments, filterToSql_filter condition falsy,
    filterToSql_filter other otherFalsy, convertible_converted_iff, convertible_converted_iff]
  cases converted : condition.converted with
  | error failure =>
    cases otherConverted : other.converted with
    | error otherFailure => exact iff_of_true trivial ⟨nofun, nofun⟩
    | ok result =>
      obtain ⟨_, _, _, -, -, -, contrary, -⟩ := converted_shape same.symm otherConverted
      cases converted.symm.trans contrary
  | ok result =>
    obtain ⟨text, params⟩ := result
    obtain ⟨column, otherColumn, otherParams, known, otherKnown, rfl, otherConverted, blank⟩ :=
      converted_shape same converted
    have valid := (columnOf_ok known).2
    have otherValid := (columnOf_ok otherKnown).2
    obtain ⟨_, _, _, one, -⟩ := (converted_ok_iff condition).mp converted
    obtain ⟨_, _, _, otherOne, -⟩ := (converted_ok_iff other).mp otherConverted
    rw [otherConverted, segments_filter falsy known, segments_filter otherFalsy otherKnown]
    constructor
    · rintro ⟨lexemes, otherLexemes, lexes, otherLexes, -, read, otherRead⟩
      exact ⟨fun _ => paired_of_lexes_comparison lexes read,
        fun _ => paired_of_lexes_comparison otherLexes otherRead⟩
    · rintro ⟨paired, otherPaired⟩
      exact ⟨_, _, lexes_comparison (sql_ne_eqAny one) valid (paired ⟨_, _, rfl⟩),
        lexes_comparison (sql_ne_eqAny otherOne) otherValid (otherPaired ⟨_, _, rfl⟩), blank,
        literals_comparison _, literals_comparison _⟩

/-- A path, compared with `1`. -/
def pathFilter (path : JsString) : Dsl :=
  .object (some (.string (js "arg." ++ path))) (some (.string (js "eq")))
    (some (.string (js "1"))) .absent

theorem pathFilter_separated : Separated (pathFilter (js "memo.text")) (pathFilter (js "a b.c")) := by
  have accepted : Accepted (pathFilter (js "memo.text")) := rfl
  have acceptedSecond : Accepted (pathFilter (js "a b.c")) := rfl
  have segments : (pathFilter (js "memo.text")).segments = [js "memo", js "text"] := rfl
  have segmentsSecond : (pathFilter (js "a b.c")).segments = [js "a b", js "c"] := rfl
  refine (separated_iff accepted acceptedSecond rfl).mpr ⟨fun _ => ?_, fun _ => ?_⟩
  · rw [segments]
    exact fun segment member => SqlLexer.paired_of_clean (by revert segment; decide)
  · rw [segmentsSecond]
    exact fun segment member => SqlLexer.paired_of_clean (by revert segment; decide)

/-- The quote of the second path ends its literal, and `OR` is read as syntax. -/
theorem pathFilter_escapes : ¬ ∀ first second, Accepted first → Accepted second →
    first.shape = second.shape → Separated first second := by
  intro claim
  have separated := claim (pathFilter (js "a")) (pathFilter (js "a' OR 'b")) rfl rfl rfl
  let leaf : Comparison := ⟨.arg (js "a' OR 'b"), .eq, 1⟩
  have converted : filterToSql (pathFilter (js "a' OR 'b")) =
      .ok (leaf.text, [some (.string (js "1"))]) := rfl
  have segments : (pathFilter (js "a' OR 'b")).segments = leaf.column.literals := rfl
  have first : filterToSql (pathFilter (js "a")) =
      .ok ((⟨.arg (js "a"), .eq, 1⟩ : Comparison).text, [some (.string (js "1"))]) := rfl
  rw [Separated, first, converted, segments] at separated
  obtain ⟨-, lexemes, -, lexes, -, -, read⟩ := separated
  have paired := paired_of_lexes_comparison lexes read (js "a' OR 'b") (by decide)
  have spelled : js "a' OR 'b" = 0x61 :: quote :: 0x20 :: js "OR 'b" := by decide
  rw [spelled, SqlLexer.paired_cons_iff (by decide), SqlLexer.Paired, if_pos rfl] at paired
  exact absurd paired.1 (by decide)

end SorobanExplorer.SavedFilters
