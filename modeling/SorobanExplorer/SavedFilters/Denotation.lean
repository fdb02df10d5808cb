import SorobanExplorer.Library.Postgres
import SorobanExplorer.SavedFilters.Dsl

/-!
Owns what a filter means: the boolean combination it writes over its conditions,
the texts that are read as one, and the filters whose text is read as theirs.
-/

namespace SorobanExplorer.SavedFilters

open Library
open Library.SqlLexer (Lexeme Lexes literals quote)
open Library.Postgres (Truth)
open Filters (JsString js JsValue stringOfProperty)

/-! ### Combinations -/

inductive SqlOperator where
  | eq
  | ne
  | gt
  | lt
  | gte
  | lte
  | ilike
  | eqAny
deriving DecidableEq

structure Comparison where
  column : Column
  operator : SqlOperator
  index : Nat
deriving DecidableEq

inductive Where where
  | comparison (leaf : Comparison)
  | all (first : Where) (others : List Where)
  | any (first : Where) (others : List Where)
  | not (part : Where)

mutual

def Where.truth (truthOf : Comparison → Truth) : Where → Truth
  | .comparison leaf => truthOf leaf
  | .all first others => (Where.truths truthOf others).foldl Truth.and (first.truth truthOf)
  | .any first others => (Where.truths truthOf others).foldl Truth.or (first.truth truthOf)
  | .not part => (part.truth truthOf).map fun value => !value

def Where.truths (truthOf : Comparison → Truth) : List Where → List Truth
  | [] => []
  | part :: parts => part.truth truthOf :: Where.truths truthOf parts

end

def Where.Equivalent (first second : Where) : Prop :=
  ∀ truthOf, first.truth truthOf = second.truth truthOf

/-! ### The combination of a filter -/

def Operator.ofName? (operator : Option Json) : Option Operator :=
  operators.find? fun known => includes [known.name] operator

def Operator.sql : Operator → SqlOperator
  | .eq => .eq
  | .ne => .ne
  | .gt => .gt
  | .lt => .lt
  | .gte => .gte
  | .lte => .lte
  | .contains | .startsWith | .endsWith => .ilike
  | .isIn => .eqAny

structure Leaf where
  field : Option Json
  operator : Option Json
  value : Option Json

mutual

def Dsl.leaves : Dsl → List Leaf
  | .object field operator value conditions =>
    match conditions with
    | .list nodes => Dsl.leavesOf nodes
    | _ => [⟨field, operator, value⟩]
  | _ => []

def Dsl.leavesOf : List Dsl → List Leaf
  | [] => []
  | node :: nodes => node.leaves ++ Dsl.leavesOf nodes

end

def Leaf.comparison? (leaf : Leaf) (index : Nat) : Option Comparison :=
  match columnOf leaf.field, Operator.ofName? leaf.operator with
  | .ok column, some operator => some ⟨column, operator.sql, index⟩
  | _, _ => none

def Leaf.operand (leaf : Leaf) : Except Failure (Option Json) :=
  match wildcards leaf.operator with
  | some (before, after) => do
      let text ← textOf leaf.value
      pure (some (.string (before ++ text ++ after)))
  | none => pure leaf.value

/-- `and` is conjunction, `or` disjunction, and `not` the negation of its only part. -/
def connect (operator : Option Json) : List Where → Option Where
  | [] => none
  | first :: others =>
    if includes [js "and"] operator then some (.all first others)
    else if includes [js "or"] operator then some (.any first others)
    else if includes [js "not"] operator ∧ others.isEmpty then some (.not first)
    else none

mutual

/-- The combination a filter writes; its conditions are numbered from `index`. -/
def Dsl.combination? : Dsl → Nat → Option Where
  | .object field operator value conditions, index =>
    match conditions with
    | .list nodes => do connect operator (← Dsl.combinations? nodes index)
    | .absent | .other false =>
      (Leaf.comparison? ⟨field, operator, value⟩ index).map .comparison
    | .other true => none
  | _, _ => none

def Dsl.combinations? : List Dsl → Nat → Option (List Where)
  | [], _ => some []
  | node :: nodes, index => do
      let part ← node.combination? index
      let parts ← Dsl.combinations? nodes (index + node.leaves.length)
      pure (part :: parts)

end

/-! ### Texts -/

def Column.segments (path : JsString) : List JsString := path.splitOn 0x2E

def Column.lexemes : Column → List Lexeme
  | .contract => [.word (js "contract_id")]
  | .function => [.word (js "function")]
  | .ledger => [.word (js "ledger")]
  | .type => [.word (js "type")]
  | .topic index => [.word (js "raw_topics"), .operator (js "->>"), .word index]
  | .arg path =>
    .word (js "raw_data") ::
      (segments path).flatMap fun segment => [.operator (js "->"), .literal segment]

def placeholderLexeme (index : Nat) : Lexeme :=
  .placeholder (Utf16.encode (Nat.toDigits 10 index))

def SqlOperator.lexemes : SqlOperator → Nat → List Lexeme
  | .eq, index => [.operator (js "="), placeholderLexeme index]
  | .ne, index => [.operator (js "!="), placeholderLexeme index]
  | .gt, index => [.operator (js ">"), placeholderLexeme index]
  | .lt, index => [.operator (js "<"), placeholderLexeme index]
  | .gte, index => [.operator (js ">="), placeholderLexeme index]
  | .lte, index => [.operator (js "<="), placeholderLexeme index]
  | .ilike, index => [.word (js "ILIKE"), placeholderLexeme index]
  | .eqAny, index =>
    [.operator (js "="), .word (js "ANY"), .mark 0x28, placeholderLexeme index, .mark 0x29]

def Comparison.lexemes (leaf : Comparison) : List Lexeme :=
  leaf.column.lexemes ++ leaf.operator.lexemes leaf.index

mutual

def Where.lexemes : Where → List Lexeme
  | .comparison leaf => leaf.lexemes
  | .all first others =>
    .mark 0x28 :: (first.lexemes ++ Where.joinedLexemes (js "AND") others ++ [.mark 0x29])
  | .any first others =>
    .mark 0x28 :: (first.lexemes ++ Where.joinedLexemes (js "OR") others ++ [.mark 0x29])
  | .not part => .word (js "NOT") :: part.lexemes

def Where.joinedLexemes (connective : JsString) : List Where → List Lexeme
  | [] => []
  | part :: parts =>
    .word connective :: (part.lexemes ++ Where.joinedLexemes connective parts)

end

def ReadsAs (text : JsString) (condition : Where) : Prop :=
  ∃ lexemes written, Lexes text lexemes ∧
    lexemes.map (Lexeme.mapLiteral SqlLexer.value) = Where.lexemes written ∧
      written.Equivalent condition

/-- The text means the combination of the filter, and the parameter of each index is
the operand of that condition. -/
def Denotes (filter : Dsl) (text : JsString) (params : Params) : Prop :=
  (∃ combination, filter.combination? 1 = some combination ∧ ReadsAs text combination) ∧
    filter.leaves.mapM Leaf.operand = .ok params

/-! ### Reading a segment -/

/-- What `sqlField` has for the segments of a path. -/
def arrowed (segments : List JsString) : JsString :=
  segments.flatMap fun segment => js "->" ++ (quote :: (segment ++ [quote]))

theorem arrowed_cons (segment : JsString) (segments : List JsString) :
    arrowed (segment :: segments) =
      js "->" ++ (quote :: (segment ++ quote :: arrowed segments)) := by
  simp [arrowed]

theorem segments_cons (unit : UInt16) (path : JsString) :
    ∃ first others, Column.segments path = first :: others ∧ Column.segments (unit :: path) =
      if unit = 0x2E then [] :: first :: others else (unit :: first) :: others := by
  obtain ⟨first, others, split⟩ :=
    List.exists_cons_of_ne_nil (List.splitOnP_ne_nil (· == (0x2E : UInt16)) path)
  refine ⟨first, others, split, ?_⟩
  rw [Column.segments, List.splitOn, List.splitOnP_cons_eq_if_modifyHead, split]
  by_cases dot : unit = 0x2E
  · simp [dot]
  · simp [dot]

theorem arrows_eq (path : JsString) :
    js "->'" ++ (arrows path ++ js "'") = arrowed (Column.segments path) := by
  have opening : js "->'" = js "->" ++ [quote] := by decide
  have closing : js "'" = [quote] := by decide
  have between : js "'->'" = quote :: (js "->" ++ [quote]) := by decide
  rw [opening, closing]
  induction path with
  | nil => rfl
  | cons unit path ih =>
    obtain ⟨first, others, before, after⟩ := segments_cons unit path
    rw [before, arrowed_cons, List.append_assoc] at ih
    have rest : arrows path ++ [quote] = first ++ quote :: arrowed others :=
      (List.cons.inj (List.append_cancel_left ih)).2
    rw [after, arrows, List.flatMap_cons, ← arrows, List.append_assoc, List.append_assoc, rest]
    split_ifs with dot
    · rw [between, arrowed_cons, arrowed_cons]
      simp
    · rw [arrowed_cons]
      simp

/-! ### Reading segments -/

section Segments

variable {segment : JsString} {segments : List JsString} {rest : List UInt16}
  {lexemes : List Lexeme}

def arrowLexemes (segments : List JsString) : List Lexeme :=
  segments.flatMap fun segment => [.operator (js "->"), .literal segment]

theorem arrowLexemes_cons (segment : JsString) (segments : List JsString) :
    arrowLexemes (segment :: segments) =
      .operator (js "->") :: .literal segment :: arrowLexemes segments := rfl

theorem starts_arrow (rest : List UInt16) :
    SqlLexer.Starts (js "->" ++ quote :: rest) (.operator (js "->")) (quote :: rest) :=
  SqlLexer.starts_operator (by decide) (SqlLexer.forall_mem_of_all (by decide)) (by decide)
    (by simp; decide)

theorem arrowed_head (ends : rest.head? ≠ some quote) (segments : List JsString) :
    (arrowed segments ++ rest).head? ≠ some quote := by
  cases segments with
  | nil => exact ends
  | cons segment segments =>
    rw [arrowed_cons]
    exact of_decide_eq_true rfl

theorem lexes_arrowed (paired : ∀ segment ∈ segments, SqlLexer.Paired segment)
    (ends : rest.head? ≠ some quote) (later : Lexes rest lexemes) :
    Lexes (arrowed segments ++ rest) (arrowLexemes segments ++ lexemes) := by
  induction segments with
  | nil => exact later
  | cons segment segments ih =>
    have ends' := arrowed_head ends segments
    rw [arrowed_cons]
    simp only [List.append_assoc, List.cons_append]
    refine .more (starts_arrow _) (.more (SqlLexer.starts_literal ?_ ends') ?_)
    · exact paired segment List.mem_cons_self
    · exact ih fun other member => paired other (List.mem_cons_of_mem _ member)

theorem segments_of_lexes {reading : List UInt16 → List UInt16} {good : JsString → Prop}
    (sound : ∀ (segment rest units left : List UInt16), rest.head? ≠ some quote →
      SqlLexer.takeLiteral? (segment ++ quote :: rest) = some (units, left) →
        reading units = segment → good segment ∧ left = rest)
    (ends : rest.head? ≠ some quote) (lexes : Lexes (arrowed segments ++ rest) lexemes)
    {after : List JsString} (read : (literals lexemes).map reading = segments ++ after) :
    ∀ segment ∈ segments, good segment := by
  induction segments generalizing lexemes with
  | nil => nofun
  | cons segment segments ih =>
    rw [arrowed_cons] at lexes
    simp only [List.append_assoc, List.cons_append] at lexes
    obtain ⟨quoted, rfl, lexesQuoted⟩ := (starts_arrow _).first lexes
    obtain ⟨units, left, others, taken, rfl, later⟩ := SqlLexer.lexes_quote lexesQuoted
    obtain ⟨readFirst, readOthers⟩ := List.cons.inj read
    obtain ⟨isGood, rfl⟩ := sound segment _ units left (arrowed_head ends segments) taken readFirst
    intro other member
    rcases List.mem_cons.mp member with rfl | member
    · exact isGood
    · exact ih later readOthers other member

theorem clean_of_lexes (ends : rest.head? ≠ some quote)
    (lexes : Lexes (arrowed segments ++ rest) lexemes) {after : List JsString}
    (read : (literals lexemes).map SqlLexer.value = segments ++ after) :
    ∀ segment ∈ segments, quote ∉ segment := by
  refine segments_of_lexes ?_ ends lexes read
  intro segment rest units left ends taken same
  have clean : quote ∉ segment := fun dirty =>
    SqlLexer.value_takeLiteral?_ne dirty ends taken same
  rw [SqlLexer.takeLiteral?_eq (SqlLexer.paired_of_clean clean) ends] at taken
  cases taken
  exact ⟨clean, rfl⟩

theorem paired_of_lexes (ends : rest.head? ≠ some quote)
    (lexes : Lexes (arrowed segments ++ rest) lexemes) {after : List JsString}
    (read : literals lexemes = segments ++ after) :
    ∀ segment ∈ segments, SqlLexer.Paired segment := by
  have same : (literals lexemes).map id = segments ++ after := by rw [List.map_id, read]
  refine segments_of_lexes ?_ ends lexes same
  intro segment rest units left ends taken same
  have paired : SqlLexer.Paired segment := same ▸ (SqlLexer.takeLiteral?_some taken).1
  rw [SqlLexer.takeLiteral?_eq paired ends] at taken
  cases taken
  exact ⟨paired, rfl⟩

theorem literals_arrowLexemes (segments : List JsString) :
    literals (arrowLexemes segments) = segments := by
  induction segments with
  | nil => rfl
  | cons segment segments ih =>
    exact congrArg (segment :: ·) ih

end Segments

/-! ### Reading a comparison -/

/-- `sqlOp`; a list is compared with `=`. -/
def SqlOperator.symbol : SqlOperator → JsString
  | .eq | .eqAny => js "="
  | .ne => js "!="
  | .gt => js ">"
  | .lt => js "<"
  | .gte => js ">="
  | .lte => js "<="
  | .ilike => js "ILIKE"

/-- What `conditionToSql` returns. -/
def Comparison.text (leaf : Comparison) : JsString :=
  leaf.column.text ++ (js " " ++ (leaf.operator.symbol ++ (js " " ++ placeholderText leaf.index)))

def Column.word : Column → JsString
  | .contract => js "contract_id"
  | .function => js "function"
  | .ledger => js "ledger"
  | .type => js "type"
  | .topic _ => js "raw_topics"
  | .arg _ => js "raw_data"

def Column.arrows : Column → JsString
  | .topic index => js "->>" ++ index
  | .arg path => arrowed (segments path)
  | _ => []

def Column.Valid : Column → Prop
  | .topic index => index ≠ [] ∧ index.all SqlLexer.isDigit
  | _ => True

def Column.literals : Column → List JsString
  | .arg path => segments path
  | _ => []

section Comparison

variable {rest : List UInt16} {lexemes : List Lexeme}

theorem placeholderText_eq (index : Nat) :
    placeholderText index = 0x24 :: Utf16.encode (Nat.toDigits 10 index) := rfl

theorem encodeChar_digit {char : Char} (digit : char.isDigit = true) :
    ∃ unit, Utf16.encodeChar char = [unit] ∧ SqlLexer.isDigit unit = true := by
  obtain ⟨low, high⟩ : 48 ≤ char.toNat ∧ char.toNat ≤ 57 := by
    simpa [Char.isDigit, UInt32.le_iff_toNat_le] using digit
  refine ⟨UInt16.ofNat char.toNat, ?_, ?_⟩
  · have plain : Utf16.supplementary char = false := decide_eq_false (by omega)
    rw [Utf16.encodeChar, plain]
    rfl
  · have small : (UInt16.ofNat char.toNat).toNat = char.toNat :=
      UInt16.toNat_ofNat_of_lt' (Nat.lt_of_le_of_lt high (by decide))
    simp [SqlLexer.isDigit, small, low, high]

theorem placeholder_digits (index : Nat) :
    Utf16.encode (Nat.toDigits 10 index) ≠ [] ∧
      ∀ unit ∈ Utf16.encode (Nat.toDigits 10 index), SqlLexer.isDigit unit = true := by
  have digits (char : Char) (member : char ∈ Nat.toDigits 10 index) :=
    encodeChar_digit (Nat.isDigit_of_mem_toDigits (by decide) (by decide) member)
  constructor
  · intro empty
    obtain ⟨char, member⟩ := List.exists_mem_of_ne_nil _ (Nat.toDigits_ne_nil (n := index))
    obtain ⟨unit, encoded, -⟩ := digits char member
    have none := List.flatMap_eq_nil_iff.mp empty char member
    rw [encoded] at none
    cases none
  · intro unit member
    obtain ⟨char, member, inside⟩ := List.mem_flatMap.mp member
    obtain ⟨own, encoded, digit⟩ := digits char member
    rw [encoded, List.mem_singleton] at inside
    rwa [inside]

theorem lexes_placeholder (index : Nat)
    (ends : ∀ unit ∈ rest.head?, SqlLexer.isDigit unit = false) (later : Lexes rest lexemes) :
    Lexes (placeholderText index ++ rest) (placeholderLexeme index :: lexemes) := by
  obtain ⟨nonempty, digits⟩ := placeholder_digits index
  rw [placeholderText_eq, List.cons_append]
  exact .more (SqlLexer.starts_placeholder nonempty digits ends) later

theorem space_cons (rest : List UInt16) : js " " ++ rest = 0x20 :: rest := rfl

theorem lexes_space (later : Lexes rest lexemes) : Lexes (js " " ++ rest) lexemes :=
  later.space (by decide)

theorem lexes_operator {operator : SqlOperator} (one : operator ≠ .eqAny) (index : Nat)
    (ends : ∀ unit ∈ rest.head?, SqlLexer.isDigit unit = false) (later : Lexes rest lexemes) :
    Lexes (operator.symbol ++ (js " " ++ (placeholderText index ++ rest)))
      (operator.lexemes index ++ lexemes) := by
  have value := lexes_space (lexes_placeholder index ends later)
  have spaced {test : UInt16 → Bool} (fails : test 0x20 = false) (text : List UInt16) :
      ∀ unit ∈ (js " " ++ text).head?, test unit = false := by
    rintro unit ⟨⟩
    exact fails
  cases operator with
  | eqAny => exact absurd rfl one
  | ilike =>
    refine .more (SqlLexer.starts_word (by decide) (SqlLexer.forall_mem_of_all (by decide)) ?_) value
    rintro unit ⟨⟩
    decide
  | eq | ne | gt | lt | gte | lte =>
    exact .more (SqlLexer.starts_operator (by decide) (SqlLexer.forall_mem_of_all (by decide))
      (by decide) (spaced (by decide) _)) value

theorem Column.text_eq (column : Column) : column.text = column.word ++ column.arrows := by
  cases column with
  | contract | function | ledger | type => rfl
  | topic index => rfl
  | arg path => exact congrArg (js "raw_data" ++ ·) (arrows_eq path)

theorem Column.word_units (column : Column) :
    column.word ≠ [] ∧ ∀ unit ∈ column.word, SqlLexer.isWordUnit unit = true := by
  have known : ∀ word ∈ [js "contract_id", js "function", js "ledger", js "type", js "raw_topics",
      js "raw_data"], word ≠ [] ∧ word.all SqlLexer.isWordUnit = true := by
    apply SqlLexer.forall_mem_of_all
    decide
  rw [← List.all_eq_true]
  apply known
  cases column <;> simp [Column.word]

theorem starts_column (column : Column) (rest : List UInt16) :
    SqlLexer.Starts (column.text ++ (js " " ++ rest)) (.word column.word)
      (column.arrows ++ (js " " ++ rest)) := by
  have ends : ∀ unit ∈ (column.arrows ++ (js " " ++ rest)).head?,
      SqlLexer.isWordUnit unit = false ∧ unit ≠ quote := by
    intro unit first
    cases column with
    | contract | function | ledger | type | topic index =>
      cases first
      decide
    | arg path =>
      cases split : Column.segments path with
      | nil =>
        rw [Column.arrows, split] at first
        cases first
        decide
      | cons segment segments =>
        rw [Column.arrows, split, arrowed_cons] at first
        cases first
        decide
  rw [Column.text_eq, List.append_assoc]
  exact SqlLexer.starts_word column.word_units.1 column.word_units.2 ends

theorem lexes_column {column : Column} (valid : column.Valid)
    (paired : ∀ segment ∈ column.literals, SqlLexer.Paired segment) (later : Lexes rest lexemes) :
    Lexes (column.text ++ (js " " ++ rest)) (column.lexemes ++ lexemes) := by
  have spaced := lexes_space later
  have starts := starts_column column rest
  cases column with
  | contract | function | ledger | type => exact .more starts spaced
  | topic index =>
    have digitEnds : ∀ unit ∈ (js " " ++ rest).head?,
        SqlLexer.isWordUnit unit = false ∧ unit ≠ quote := by
      rintro unit ⟨⟩
      decide
    have all : ∀ unit ∈ index, SqlLexer.isDigit unit = true := List.all_eq_true.mp valid.2
    have allWord : ∀ unit ∈ index, SqlLexer.isWordUnit unit = true := by
      intro unit member
      simp [SqlLexer.isWordUnit, all unit member]
    have arrowEnds : ∀ unit ∈ (index ++ (js " " ++ rest)).head?,
        SqlLexer.isOperatorUnit unit = false := by
      intro unit first
      cases index with
      | nil => exact absurd rfl valid.1
      | cons digit index =>
        cases first
        exact SqlLexer.isOperatorUnit_of_isWordUnit (allWord _ List.mem_cons_self)
    refine .more starts (.more ?_ (.more (SqlLexer.starts_word valid.1 allWord digitEnds) spaced))
    rw [Column.arrows, List.append_assoc]
    exact SqlLexer.starts_operator (by decide) (SqlLexer.forall_mem_of_all (by decide)) (by decide)
      arrowEnds
  | arg path =>
    exact .more starts (lexes_arrowed paired (by rw [space_cons]; exact of_decide_eq_true rfl) spaced)

end Comparison

end SorobanExplorer.SavedFilters
