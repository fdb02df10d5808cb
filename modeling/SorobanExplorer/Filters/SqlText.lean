import SorobanExplorer.Filters.Fragment

/-!
Owns the text of a fragment: the fixed words, column names and placeholders it
is put together from, which of these a filter can choose, and the filters that
get the same text.
-/

namespace SorobanExplorer.Filters

open Library

/-! ### Pieces -/

/-- A piece of a text: a literal of the compiler, a column name taken from the
filter, or `$n`. -/
inductive Piece where
  | word (literal : String)
  | column (name : JsString)
  | placeholder (number : Nat)
deriving DecidableEq

def Piece.units : Piece → JsString
  | .word literal => js literal
  | .column name => name
  | .placeholder number => Utf16.encode ('$' :: Nat.toDigits 10 number)

def Piece.number? : Piece → Option Nat
  | .placeholder number => some number
  | _ => none

@[simp] theorem Piece.number?_word (literal : String) : (Piece.word literal).number? = none := rfl

@[simp] theorem Piece.number?_column (name : JsString) : (Piece.column name).number? = none := rfl

@[simp] theorem Piece.number?_placeholder (number : Nat) :
    (Piece.placeholder number).number? = some number := rfl

/-- `SQL_OPS` -/
def Comparison.word : Comparison → String
  | .eq => "="
  | .ne => "<>"
  | .gt => ">"
  | .gte => ">="
  | .lt => "<"
  | .lte => "<="

def topicWord : Fin 4 → String
  | 0 => "(raw_topics->>0)"
  | 1 => "(raw_topics->>1)"
  | 2 => "(raw_topics->>2)"
  | 3 => "(raw_topics->>3)"

def TextExpr.pieces : TextExpr → List Piece
  | .column name => [.column name]
  | .topic index => [.word (topicWord index)]
  | .args path =>
    [.word "(explorer_try_jsonb(raw_data) #>> ", .placeholder path, .word "::text[])"]

def Condition.pieces : Condition → List Piece
  | .isNotNull expr => .word "(" :: expr.pieces ++ [.word " IS NOT NULL)"]
  | .bigintAny name list =>
    [.word "(", .column name, .word " = ANY(", .placeholder list, .word "::bigint[]))"]
  | .bigintBetween name low high =>
    [.word "(", .column name, .word " BETWEEN ", .placeholder low, .word "::bigint AND ",
      .placeholder high, .word "::bigint)"]
  | .bigintCompare name comparison value =>
    [.word "(", .column name, .word " ", .word comparison.word, .word " ", .placeholder value,
      .word "::bigint)"]
  | .topicEquals value =>
    [.word "(raw_topics->0 = to_jsonb(", .placeholder value, .word "::text))"]
  | .numericAny expr list =>
    .word "(explorer_numeric(" :: expr.pieces ++
      [.word ") = ANY(", .placeholder list, .word "::numeric[]))"]
  | .textAny expr list =>
    .word "(" :: expr.pieces ++ [.word " = ANY(", .placeholder list, .word "::text[]))"]
  | .numericBetween expr low high =>
    .word "(explorer_numeric(" :: expr.pieces ++
      [.word ") BETWEEN ", .placeholder low, .word "::numeric AND ", .placeholder high,
        .word "::numeric)"]
  | .textBetween expr low high =>
    .word "(" :: expr.pieces ++
      [.word " BETWEEN ", .placeholder low, .word " AND ", .placeholder high, .word ")"]
  | .numericCompare expr comparison value =>
    .word "(explorer_numeric(" :: expr.pieces ++
      [.word ") ", .word comparison.word, .word " ", .placeholder value, .word "::numeric)"]
  | .textCompare expr comparison value =>
    .word "(" :: expr.pieces ++
      [.word " ", .word comparison.word, .word " ", .placeholder value, .word ")"]

mutual

def Sql.pieces : Sql → List Piece
  | .condition leaf => leaf.pieces
  | .and parts => .word "(" :: Sql.joinedPieces " AND " parts ++ [.word ")"]
  | .or parts => .word "(" :: Sql.joinedPieces " OR " parts ++ [.word ")"]
  | .not part => .word "(NOT COALESCE(" :: part.pieces ++ [.word ", FALSE))"]

/-- `parts.join(separator)` -/
def Sql.joinedPieces (separator : String) : List Sql → List Piece
  | [] => []
  | [part] => part.pieces
  | part :: parts => part.pieces ++ .word separator :: Sql.joinedPieces separator parts

end

/-- The `sql` that `compileFilter` returns. -/
def Sql.text (sql : Sql) : JsString := sql.pieces.flatMap Piece.units

example : (Sql.not (.condition (.bigintCompare (js "ledger") .gte 1))).text =
    js "(NOT COALESCE((ledger >= $1::bigint), FALSE))" := by decide

/-! ### Words -/

def keywords : List String :=
  ["(", ")", " ", ") ", " IS NOT NULL)", " = ANY(", ") = ANY(", " BETWEEN ", ") BETWEEN ", " AND ",
    " OR ", "(NOT COALESCE(", ", FALSE))", "=", "<>", ">", ">=", "<", "<=", "::bigint[]))",
    "::bigint AND ", "::bigint)", "::numeric[]))", "::numeric AND ", "::numeric)", "::text[]))",
    "::text[])", "::text))", "(explorer_numeric(", "(explorer_try_jsonb(raw_data) #>> ",
    "(raw_topics->0 = to_jsonb("]

def topicWords : List String :=
  ["(raw_topics->>0)", "(raw_topics->>1)", "(raw_topics->>2)", "(raw_topics->>3)"]

def Piece.Among (columns : List JsString) (placeholders : List Nat) : Piece → Prop
  | .word literal => literal ∈ keywords ∨ literal ∈ topicWords
  | .column name => name ∈ columns
  | .placeholder number => number ∈ placeholders

section Pieces

variable {columns : List JsString} {placeholders : List Nat}

@[simp] theorem Piece.among_word (literal : String) :
    (Piece.word literal).Among columns placeholders ↔
      literal ∈ keywords ∨ literal ∈ topicWords := Iff.rfl

@[simp] theorem Piece.among_column (name : JsString) :
    (Piece.column name).Among columns placeholders ↔ name ∈ columns := Iff.rfl

@[simp] theorem Piece.among_placeholder (number : Nat) :
    (Piece.placeholder number).Among columns placeholders ↔ number ∈ placeholders := Iff.rfl

theorem Piece.Among.mono {piece : Piece} {more : List JsString} {later : List Nat}
    (among : piece.Among columns placeholders) (names : ∀ name ∈ columns, name ∈ more)
    (numbers : ∀ number ∈ placeholders, number ∈ later) : piece.Among more later := by
  cases piece with
  | word literal => exact among
  | column name => exact names name among
  | placeholder number => exact numbers number among

theorem Comparison.word_keyword (comparison : Comparison) : comparison.word ∈ keywords := by
  cases comparison <;> simp [keywords, word]

theorem topicWord_known (index : Fin 4) : topicWord index ∈ topicWords := by
  match index with
  | 0 | 1 | 2 | 3 => simp [topicWords, topicWord]

theorem TextExpr.pieces_among (expr : TextExpr) :
    ∀ piece ∈ expr.pieces, piece.Among expr.columns expr.placeholders := by
  cases expr with
  | column name => simp [pieces, TextExpr.columns]
  | topic index => simp [pieces, topicWord_known]
  | args path => simp [pieces, keywords, TextExpr.placeholders]

theorem TextExpr.wrapped_among {expr : TextExpr} {first : String} {rest : List Piece}
    (fixed : first ∈ keywords)
    (among : ∀ piece ∈ rest, piece.Among expr.columns placeholders) :
    ∀ piece ∈ .word first :: expr.pieces ++ rest,
      piece.Among expr.columns (expr.placeholders ++ placeholders) := by
  intro piece member
  rcases List.mem_append.mp member with inside | outside
  · rcases List.mem_cons.mp inside with rfl | own
    · exact Or.inl fixed
    · exact (expr.pieces_among piece own).mono (fun _ => id) fun _ => List.mem_append_left _
  · exact (among piece outside).mono (fun _ => id) fun _ => List.mem_append_right _

theorem Condition.pieces_among (condition : Condition) :
    ∀ piece ∈ condition.pieces, piece.Among condition.columns condition.placeholders := by
  cases condition with
  | isNotNull expr =>
    have wrapped := @TextExpr.wrapped_among [] expr "(" [.word " IS NOT NULL)"]
      (by simp [keywords]) (by simp [keywords])
    rwa [List.append_nil] at wrapped
  | bigintAny name list | bigintBetween name low high | topicEquals value =>
    simp [pieces, keywords, placeholders, columns]
  | bigintCompare name comparison value =>
    have operator := comparison.word_keyword
    simp [pieces, placeholders, columns, operator, show " " ∈ keywords by simp [keywords],
      show "(" ∈ keywords by simp [keywords], show "::bigint)" ∈ keywords by simp [keywords]]
  | numericAny expr list | textAny expr list | numericBetween expr low high
  | textBetween expr low high =>
    exact expr.wrapped_among (by simp [keywords]) (by simp [keywords])
  | numericCompare expr comparison value =>
    have operator := comparison.word_keyword
    apply expr.wrapped_among (by simp [keywords])
    simp [operator, show ") " ∈ keywords by simp [keywords], show " " ∈ keywords by simp [keywords],
      show "::numeric)" ∈ keywords by simp [keywords]]
  | textCompare expr comparison value =>
    have operator := comparison.word_keyword
    apply expr.wrapped_among (by simp [keywords])
    simp [operator, show " " ∈ keywords by simp [keywords], show ")" ∈ keywords by simp [keywords]]

theorem TextExpr.numbers (expr : TextExpr) :
    expr.pieces.filterMap Piece.number? = expr.placeholders := by
  cases expr <;> rfl

theorem Condition.numbers (condition : Condition) :
    condition.pieces.filterMap Piece.number? = condition.placeholders := by
  cases condition <;>
    simp [pieces, placeholders, List.filterMap_cons, TextExpr.numbers]

theorem Sql.joinedPieces_cons (separator : String) (part second : Sql) (parts : List Sql) :
    Sql.joinedPieces separator (part :: second :: parts) =
      part.pieces ++ .word separator :: Sql.joinedPieces separator (second :: parts) := by
  rw [Sql.joinedPieces]
  exact fun empty => nomatch empty

mutual

theorem Sql.pieces_among : ∀ sql : Sql,
    ∀ piece ∈ sql.pieces, piece.Among sql.columns sql.placeholders
  | .condition leaf => leaf.pieces_among
  | .and parts => Sql.list_among parts (by simp [keywords])
  | .or parts => Sql.list_among parts (by simp [keywords])
  | .not part => by
      intro piece member
      rw [Sql.pieces, List.mem_append, List.mem_cons, List.mem_singleton] at member
      rcases member with (rfl | inside) | rfl
      · simp [keywords]
      · exact Sql.pieces_among part piece inside
      · simp [keywords]

theorem Sql.list_among {separator : String} : ∀ parts : List Sql, separator ∈ keywords →
    ∀ piece ∈ .word "(" :: Sql.joinedPieces separator parts ++ [.word ")"],
      piece.Among (Sql.allColumns parts) (Sql.allPlaceholders parts)
  | parts, fixed => by
      intro piece member
      rw [List.mem_append, List.mem_cons, List.mem_singleton] at member
      rcases member with (rfl | inside) | rfl
      · simp [keywords]
      · exact Sql.joinedPieces_among parts fixed piece inside
      · simp [keywords]

theorem Sql.joinedPieces_among {separator : String} : ∀ parts : List Sql, separator ∈ keywords →
    ∀ piece ∈ Sql.joinedPieces separator parts,
      piece.Among (Sql.allColumns parts) (Sql.allPlaceholders parts)
  | [], _, piece, member => nomatch member
  | [part], _, piece, member => by
      rw [Sql.joinedPieces] at member
      simpa [Sql.allColumns, Sql.allPlaceholders] using Sql.pieces_among part piece member
  | part :: second :: parts, fixed, piece, member => by
      rw [Sql.joinedPieces_cons, List.mem_append, List.mem_cons] at member
      rcases member with first | rfl | later
      · exact (Sql.pieces_among part piece first).mono (fun _ => List.mem_append_left _)
          fun _ => List.mem_append_left _
      · exact Or.inl fixed
      · exact (Sql.joinedPieces_among (second :: parts) fixed piece later).mono
          (fun _ => List.mem_append_right _) fun _ => List.mem_append_right _

end

mutual

theorem Sql.numbers : ∀ sql : Sql, sql.pieces.filterMap Piece.number? = sql.placeholders
  | .condition leaf => leaf.numbers
  | .and parts | .or parts => by
      rw [Sql.pieces]
      simp [List.filterMap_cons, Sql.joinedNumbers _ parts, Sql.placeholders]
  | .not part => by
      rw [Sql.pieces]
      simp [List.filterMap_cons, Sql.numbers part, Sql.placeholders]

theorem Sql.joinedNumbers (separator : String) : ∀ parts : List Sql,
    (Sql.joinedPieces separator parts).filterMap Piece.number? = Sql.allPlaceholders parts
  | [] => rfl
  | [part] => by
      simp [Sql.joinedPieces, Sql.allPlaceholders, Sql.numbers part]
  | part :: second :: parts => by
      rw [Sql.joinedPieces_cons, List.filterMap_append, Sql.numbers part,
        List.filterMap_cons_none (Piece.number?_word separator),
        Sql.joinedNumbers separator (second :: parts)]
      simp only [Sql.allPlaceholders]

end

end Pieces

/-! ### Similar filters -/

/-- Strings that are numerals are compiled to other conditions than other strings. -/
inductive Kind where
  | number
  | numeral
  | text
  | boolean
deriving DecidableEq

def Scalar.kind : Scalar → Kind
  | .string units => if (numeric (.string units)).isSome then .numeral else .text
  | .number _ _ => .number
  | .boolean _ => .boolean

def Field.Similar : Field → Field → Prop
  | .args _, .args _ => True
  | left, right => left = right

structure Predicate.Similar (left right : Predicate) : Prop where
  field : left.field.Similar right.field
  op : left.op = right.op
  values : List.Forall₂ (fun left right => Scalar.kind left = Scalar.kind right)
    left.values right.values

/-- The same tree up to path segments and values of the same kind, and up to
properties that no walk reads. -/
inductive Similar : Node → Node → Prop where
  | every {lefts rights : List Node} {leftOr rightOr : Branches Node}
      {leftNot rightNot : Option Node} {f o v f' o' v' : Option Json}
      (same : lefts.length = rights.length)
      (all : ∀ pair ∈ lefts.zip rights, Similar pair.1 pair.2) :
      Similar (.object (.list lefts) leftOr leftNot f o v)
        (.object (.list rights) rightOr rightNot f' o' v')
  | any {leftAnd rightAnd : Branches Node} {lefts rights : List Node}
      {leftNot rightNot : Option Node} {f o v f' o' v' : Option Json}
      (leftAbsent : leftAnd = .absent ∨ leftAnd = .null)
      (rightAbsent : rightAnd = .absent ∨ rightAnd = .null)
      (same : lefts.length = rights.length)
      (all : ∀ pair ∈ lefts.zip rights, Similar pair.1 pair.2) :
      Similar (.object leftAnd (.list lefts) leftNot f o v)
        (.object rightAnd (.list rights) rightNot f' o' v')
  | not {left right : Node} {f o v f' o' v' : Option Json} (inner : Similar left right) :
      Similar (.object .absent .absent (some left) f o v)
        (.object .absent .absent (some right) f' o' v')
  | predicate {f o v f' o' v' : Option Json} {left right : Predicate}
      (parsed : predicate? f o v = some left) (parsed' : predicate? f' o' v' = some right)
      (similar : left.Similar right) :
      Similar (.object .absent .absent none f o v) (.object .absent .absent none f' o' v')

theorem isNumericValue_kind (scalar : Scalar) :
    isNumericValue scalar = (scalar.kind = .number || scalar.kind = .numeral) := by
  cases scalar with
  | string units =>
    by_cases numeral : (numeric (.string units)).isSome = true <;>
      simp [isNumericValue, expectedNumeric, Scalar.value, Scalar.kind, numeral]
  | number value finite => simp [isNumericValue, expectedNumeric, Scalar.value, numeric, finite,
      Scalar.kind]
  | boolean value => rfl

theorem inList_all (values : List Scalar) :
    (inList values).all isNumericValue = values.all isNumericValue := by
  cases numeric : values.all isNumericValue with
  | true => rw [inList_of_numeric numeric, numeric]
  | false =>
    rw [inList_of_mixed numeric, List.all_map, ← numeric]
    congr 1
    funext value
    exact isNumericValue_text value

/-! ### Similar filters have one text -/

section Similar

variable {values others : List Scalar}
  (kinds : List.Forall₂ (fun left right => Scalar.kind left = Scalar.kind right) values others)

include kinds

theorem all_numeric_of_kinds : values.all isNumericValue = others.all isNumericValue := by
  induction kinds with
  | nil => rfl
  | cons first _ ih =>
    rw [List.all_cons, List.all_cons, isNumericValue_kind, isNumericValue_kind, first,
      ih]

theorem bigintPredicate_similar {params later : List Param} (same : params.length = later.length)
    (column : JsString) (op : Op) :
    (bigintPredicate params column op values).map Prod.fst =
      (bigintPredicate later column op others).map Prod.fst := by
  cases op with
  | exist => cases kinds <;> rfl
  | isIn => simp [bigintPredicate, bind, same]
  | between =>
    rcases kinds with _ | ⟨_, _ | ⟨_, _ | _⟩⟩ <;> simp [bigintPredicate, bind, same]
  | compare comparison => rcases kinds with _ | ⟨_, _ | _⟩ <;> simp [bigintPredicate, bind, same]

theorem textPredicate_similar {params later : List Param} (same : params.length = later.length)
    (expr : TextExpr) (op : Op) :
    (textPredicate params expr op values).map Prod.fst =
      (textPredicate later expr op others).map Prod.fst := by
  cases op with
  | exist => cases kinds <;> rfl
  | isIn =>
    have numeric := all_numeric_of_kinds kinds
    simp only [textPredicate, bind, inList_all, numeric, same, Option.map_some]
  | between =>
    rcases kinds with _ | ⟨low, _ | ⟨high, _ | _⟩⟩ <;>
      simp [textPredicate, bind, isNumericValue_kind, *]
  | compare comparison =>
    rcases kinds with _ | ⟨first, _ | _⟩ <;>
      simp [textPredicate, bind, isNumericValue_kind, *]

theorem throughTopics_of_similar {field other : Field} (fields : field.Similar other) {op : Op}
    (through : throughTopics field op values = true) : throughTopics other op others = true := by
  obtain ⟨units, rfl, rfl, rfl⟩ := throughTopics_eq_true through
  cases other <;> simp only [Field.Similar, reduceCtorEq] at fields
  obtain rfl := Field.topic.inj fields
  obtain _ | ⟨first, _ | _⟩ := kinds
  rename_i other
  cases other with
  | string units => rfl
  | number | boolean =>
    simp only [Scalar.kind] at first
    split at first <;> cases first

end Similar

theorem throughTopics_similar {field other : Field} (fields : field.Similar other)
    {values others : List Scalar}
    (kinds : List.Forall₂ (fun left right => Scalar.kind left = Scalar.kind right) values others)
    (op : Op) : throughTopics field op values = throughTopics other op others := by
  have fields' : other.Similar field := by
    cases field <;> cases other <;> simp_all [Field.Similar]
  have kinds' : List.Forall₂ (fun left right => Scalar.kind left = Scalar.kind right) others values :=
    kinds.flip.imp fun _ _ same => same.symm
  rw [Bool.eq_iff_iff]
  exact ⟨throughTopics_of_similar kinds fields, throughTopics_of_similar kinds' fields'⟩

theorem textExpr_similar {field other : Field} (fields : field.Similar other)
    {params later : List Param} (same : params.length = later.length) :
    (textExpr params field).1 = (textExpr later other).1 ∧
      (textExpr params field).2.length = (textExpr later other).2.length := by
  cases field <;> cases other <;> simp_all [Field.Similar, textExpr, bind]

theorem Predicate.Similar.compile_fst {left right : Predicate} (similar : left.Similar right)
    {params later : List Param} (same : params.length = later.length) :
    (left.compile params).map Prod.fst = (right.compile later).map Prod.fst := by
  obtain ⟨field, op, values⟩ := left
  obtain ⟨other, otherOp, others⟩ := right
  obtain ⟨fields, rfl, kinds⟩ := similar
  obtain ⟨exprs, lengths⟩ := textExpr_similar fields same
  by_cases exist : op = .exist
  · subst exist
    simp [compile, exprs]
  by_cases integers : ∃ name, field = .column name .number
  · obtain ⟨name, rfl⟩ := integers
    cases fields
    rw [compile_bigint exist, compile_bigint exist]
    exact bigintPredicate_similar kinds same name op
  have noInteger : ¬ ∃ name, other = .column name .number := by
    rintro ⟨name, rfl⟩
    cases field <;> simp_all [Field.Similar]
  have topics := throughTopics_similar fields kinds op
  by_cases through : throughTopics field op values = true
  · obtain ⟨units, rfl, rfl, rfl⟩ := throughTopics_eq_true through
    obtain ⟨_, rfl, -, rfl⟩ := throughTopics_eq_true (topics.symm.trans through)
    simp [compile, bind, same]
  · have noTopics := Bool.eq_false_of_not_eq_true through
    rw [compile_text exist integers noTopics, compile_text exist noInteger (topics ▸ noTopics),
      exprs]
    exact textPredicate_similar kinds lengths _ op

theorem parameters_length_similar {left right : Predicate} (similar : left.Similar right) :
    left.parameters.length = right.parameters.length := by
  obtain ⟨field, op, values⟩ := left
  obtain ⟨other, otherOp, others⟩ := right
  obtain ⟨fields, rfl, kinds⟩ := similar
  have ownFields : field.parameters.length = other.parameters.length := by
    cases field <;> cases other <;> simp_all [Field.Similar, Field.parameters]
  have ownValues : (op.parameters values).length = (op.parameters others).length := by
    cases op <;> simp [Op.parameters, kinds.length_eq]
  simp only [Predicate.parameters, List.length_append, ownFields, ownValues]

def SameFragment (left right : Node) : Prop :=
  left.parameters.length = right.parameters.length ∧
    ∀ params later : List Param, params.length = later.length →
      ∃ sql, compile left params = some (sql, params ++ left.parameters) ∧
        compile right later = some (sql, later ++ right.parameters)

theorem sameFragments {lefts rights : List Node} (length : lefts.length = rights.length)
    (each : ∀ pair ∈ lefts.zip rights, SameFragment pair.1 pair.2) :
    ((allPredicates lefts).flatMap Predicate.parameters).length =
      ((allPredicates rights).flatMap Predicate.parameters).length ∧
      ∀ params later : List Param, params.length = later.length → ∃ parts,
        compileAll lefts params =
          some (parts, params ++ (allPredicates lefts).flatMap Predicate.parameters) ∧
        compileAll rights later =
          some (parts, later ++ (allPredicates rights).flatMap Predicate.parameters) := by
  induction lefts generalizing rights with
  | nil =>
    obtain rfl := List.length_eq_zero_iff.mp length.symm
    exact ⟨rfl, fun params later _ => ⟨[], by simp [compileAll, allPredicates]⟩⟩
  | cons left lefts ih =>
    obtain ⟨right, rights, rfl⟩ := List.exists_cons_of_length_eq_add_one length.symm
    obtain ⟨⟨count, first⟩, others⟩ := List.forall_mem_cons.mp each
    obtain ⟨counts, rest⟩ := ih (by simpa using length) others
    simp only [allPredicates, List.flatMap_append, List.length_append]
    refine ⟨by rw [counts]; exact congrArg (· + _) count, fun params later same => ?_⟩
    obtain ⟨part, compiled, compiled'⟩ := first params later same
    obtain ⟨parts, all, all'⟩ := rest (params ++ left.parameters) (later ++ right.parameters)
      (by rw [List.length_append, List.length_append, same, count])
    refine ⟨part :: parts, ?_, ?_⟩
    · simp only [compileAll, compiled, all, Option.bind_eq_bind, Option.bind_some, Option.pure_def]
      rw [Node.parameters, List.append_assoc]
    · simp only [compileAll, compiled', all', Option.bind_eq_bind, Option.bind_some,
        Option.pure_def]
      rw [Node.parameters, List.append_assoc]

theorem Similar.sameFragment {left right : Node} (similar : Similar left right)
    (accepted : Accepted left) (accepted' : Accepted right) : SameFragment left right := by
  induction similar with
  | @every lefts rights leftOr rightOr leftNot rightNot f o v f' o' v' same all ih =>
    have each : ∀ pair ∈ lefts.zip rights, SameFragment pair.1 pair.2 := fun pair member =>
      have members := List.of_mem_zip member
      ih pair member (accepted.of_and _ members.1) (accepted'.of_and _ members.2)
    obtain ⟨count, fragments⟩ := sameFragments same each
    refine ⟨by simpa [Node.parameters, Node.predicates] using count, fun params later equal => ?_⟩
    obtain ⟨parts, compiled, compiled'⟩ := fragments params later equal
    exact ⟨.and parts, by simp [compile, compiled, Node.parameters, Node.predicates],
      by simp [compile, compiled', Node.parameters, Node.predicates]⟩
  | @any leftAnd rightAnd lefts rights leftNot rightNot f o v f' o' v' absent absent' same all
      ih =>
      have each : ∀ pair ∈ lefts.zip rights, SameFragment pair.1 pair.2 := fun pair member =>
        have members := List.of_mem_zip member
        ih pair member (accepted.of_or absent _ members.1)
          (accepted'.of_or absent' _ members.2)
      obtain ⟨count, fragments⟩ := sameFragments same each
      refine ⟨by simpa [Node.parameters, predicates_or absent, predicates_or absent'] using count,
        fun params later equal => ?_⟩
      obtain ⟨parts, compiled, compiled'⟩ := fragments params later equal
      refine ⟨.or parts, ?_, ?_⟩
      · rw [compile_or absent, compiled, Node.parameters, predicates_or absent]
        rfl
      · rw [compile_or absent', compiled', Node.parameters, predicates_or absent']
        rfl
  | not inner ih =>
    have truthy := truthy_of_accepted accepted.of_not
    have truthy' := truthy_of_accepted accepted'.of_not
    obtain ⟨count, fragments⟩ := ih accepted.of_not accepted'.of_not
    refine ⟨by simpa [Node.parameters, Node.predicates] using count, fun params later equal => ?_⟩
    obtain ⟨part, compiled, compiled'⟩ := fragments params later equal
    exact ⟨.not part, by simp [compile, truthy, compiled, Node.parameters, Node.predicates],
      by simp [compile, truthy', compiled', Node.parameters, Node.predicates]⟩
  | @predicate f o v f' o' v' left right parsed parsed' similar =>
    refine ⟨?_, fun params later equal => ?_⟩
    · simpa [Node.parameters, Node.predicates, parsed, parsed'] using
        parameters_length_similar similar
    obtain ⟨condition, compiled, -⟩ := Predicate.compile_shape (fits_of_predicate? parsed)
    obtain ⟨condition', compiled', -⟩ := Predicate.compile_shape (fits_of_predicate? parsed')
    have equalConditions := similar.compile_fst equal
    rw [compiled, compiled', Option.map_some, Option.map_some, Option.some.injEq]
      at equalConditions
    refine ⟨.condition (condition.rename (params.length + ·)), ?_, ?_⟩
    · simp [compile, predicate_eq_compile, parsed, compiled, Node.parameters, Node.predicates]
    · rw [show condition.rename (params.length + ·) = condition'.rename (later.length + ·) from
        equalConditions]
      simp [compile, predicate_eq_compile, parsed', compiled', Node.parameters, Node.predicates]

/-! ### What a filter can put into the text -/

def Field.Documented : Field → Prop
  | .column name _ => name ∈ columnNames
  | _ => True

/-- The text holds fixed words, the five columns, and placeholders that number the
parameters added to `params`, each for the value it stands at. -/
structure BuiltSafely (ast : Node) (params : List Param) (sql : Sql) (bound : List Param) :
    Prop where
  among : ∀ piece ∈ sql.pieces,
    piece.Among columnNames (List.range' (params.length + 1) (bound.length - params.length))
  numbered : sql.pieces.filterMap Piece.number? =
    List.range' (params.length + 1) (bound.length - params.length)
  refers : (sql.pieces.filterMap Piece.number?).map (fun number => bound[number - 1]?) =
    ast.parameters.map some

/-- Compiling succeeds, the text is built safely, it does not depend on values or path
segments, and every leaf names a documented field. -/
structure InjectionSafe (ast : Node) : Prop where
  built : ∀ params, ∃ sql bound, compileFilter ast params = some (sql, bound) ∧
    BuiltSafely ast params sql bound
  sameText : ∀ other, validateFilter other = .ok other → Similar ast other →
    ∀ params later : List Param, params.length = later.length → ∃ sql bound sql' bound',
      compileFilter ast params = some (sql, bound) ∧
        compileFilter other later = some (sql', bound') ∧ sql.text = sql'.text
  documented : ∀ predicate ∈ ast.predicates, predicate.field.Documented

theorem mem_predicates_parsed {node : Node} (accepted : Accepted node) :
    ∀ predicate ∈ node.predicates, ∃ source op value,
      predicate? source op value = some predicate := by
  have ofAll {nodes : List Node} (each : ∀ node ∈ nodes, ∀ predicate ∈ node.predicates,
      ∃ source op value, predicate? source op value = some predicate) :
      ∀ predicate ∈ allPredicates nodes, ∃ source op value,
        predicate? source op value = some predicate := by
    induction nodes with
    | nil => exact fun predicate member => nomatch member
    | cons node nodes ih =>
      obtain ⟨first, rest⟩ := List.forall_mem_cons.mp each
      exact List.forall_mem_append.mpr ⟨first, ih rest⟩
  induction accepted with
  | every all ih => simpa [Node.predicates] using ofAll ih
  | any absent all ih =>
    rw [predicates_or absent]
    exact ofAll ih
  | not inner ih => simpa [Node.predicates] using ih
  | @predicate source op value field parsedOp values parsed opParsed found =>
    intro predicate member
    exact ⟨source, op, value, by simpa [Node.predicates] using member⟩

theorem column_of_parseField {source : Option Json} {name : JsString} {type : ColumnType}
    (parsed : parseField source = some (.column name type)) :
    name ∈ columnNames ∨ JsValue.inherited name = true := by
  unfold parseField at parsed
  split at parsed
  next source =>
    unfold parseFieldString at parsed
    split at parsed
    next type known =>
      cases parsed
      unfold columnType? at known
      split_ifs at known with text number inherited
      · exact Or.inl (by rcases text with rfl | rfl | rfl <;> simp [columnNames])
      · exact Or.inl (by rcases number with rfl | rfl <;> simp [columnNames])
      · exact Or.inr inherited
    next =>
      split at parsed
      next => cases parsed
      next =>
        split at parsed
        · split_ifs at parsed
          cases parsed
        · cases parsed
  next => cases parsed

theorem not_inherited_of_mem {name : JsString} (member : name ∈ columnNames) :
    JsValue.inherited name = false := by
  simp only [columnNames, List.mem_cons, List.not_mem_nil, or_false] at member
  rcases member with rfl | rfl | rfl | rfl | rfl <;> decide

theorem lookup_added (params added : List Param) :
    (List.range' (params.length + 1) added.length).map
      (fun number => (params ++ added)[number - 1]?) = added.map some := by
  apply List.ext_getElem?
  intro index
  by_cases inside : index < added.length
  · have place : params.length + 1 + index - 1 = params.length + index := by omega
    simp [inside, place]
  · simp [inside]

def NoInherited (ast : Node) : Prop :=
  ∀ name ∈ ast.columns, JsValue.inherited name = false

/-- A validated filter is compiled safely if and only if no leaf names an inherited
property. -/
theorem compileFilter_safe_iff {ast : Node} (valid : validateFilter ast = .ok ast) :
    InjectionSafe ast ↔ NoInherited ast := by
  have accepted := accepted_of_validateFilter valid
  constructor
  · rintro ⟨-, -, documented⟩ name member
    obtain ⟨predicate, own, named⟩ := List.mem_flatMap.mp member
    have known := documented predicate own
    apply not_inherited_of_mem
    cases field : predicate.field with
    | column column type =>
      rw [field] at named known
      exact List.mem_singleton.mp named ▸ known
    | topic index => rw [field] at named; cases named
    | args path => rw [field] at named; cases named
  · intro noInherited
    have five : ∀ name ∈ ast.columns, name ∈ columnNames := by
      intro name member
      obtain ⟨predicate, own, named⟩ := List.mem_flatMap.mp member
      obtain ⟨source, op, value, parsed⟩ := mem_predicates_parsed accepted predicate own
      cases field : predicate.field with
      | column column type =>
        rw [field] at named
        obtain rfl := List.mem_singleton.mp named
        have parsedField : parseField source = some (.column name type) := by
          simp only [predicate?, Option.bind_eq_bind, Option.bind_eq_some_iff, Option.pure_def,
            Option.some.injEq] at parsed
          obtain ⟨_, found, _, -, _, -, rfl⟩ := parsed
          rw [found, ← field]
        exact (column_of_parseField parsedField).resolve_right (by simp [noInherited name member])
      | topic index => rw [field] at named; cases named
      | args path => rw [field] at named; cases named
    obtain ⟨sql, shaped⟩ := shaped_of_accepted accepted
    refine ⟨fun params => ?_, ?_, ?_⟩
    · have numbers : (sql.rename (params.length + ·)).placeholders =
          List.range' (params.length + 1) ast.parameters.length := by
        rw [Sql.placeholders_rename, shaped.numbered, List.map_add_range']
      have count : (params ++ ast.parameters).length - params.length = ast.parameters.length := by
        rw [List.length_append, Nat.add_sub_cancel_left]
      refine ⟨_, _, shaped.compiled params, ?_, ?_, ?_⟩
      · intro piece member
        apply (Sql.pieces_among _ piece member).mono
        · rw [Sql.columns_rename, shaped.columns]
          exact five
        · rw [numbers, count]
          exact fun _ => id
      · rw [Sql.numbers, numbers, count]
      · rw [Sql.numbers, numbers, lookup_added]
    · intro other valid' similar params later equal
      obtain ⟨-, fragments⟩ := similar.sameFragment accepted (accepted_of_validateFilter valid')
      obtain ⟨sql, compiled, compiled'⟩ := fragments params later equal
      exact ⟨_, _, _, _, compiled, compiled', rfl⟩
    · intro predicate own
      cases field : predicate.field with
      | column name type =>
        exact five name (List.mem_flatMap.mpr ⟨predicate, own, by rw [field]; exact List.mem_singleton_self _⟩)
      | topic index => trivial
      | args path => trivial

theorem nestedFilter_safe : InjectionSafe nestedFilter :=
  (compileFilter_safe_iff rfl).mpr (by unfold NoInherited; decide)

/-- `constructor exists` -/
def inheritedField : Node := leaf "constructor" "exists" .null

/-- `constructor` is put into the text, as a column. -/
theorem inheritedField_unsafe : ¬ ∀ ast : Node, validateFilter ast = .ok ast → InjectionSafe ast := by
  intro claim
  have documented := (claim inheritedField rfl).documented
    ⟨.column (js "constructor") .inherited, .exist, []⟩ List.mem_cons_self
  revert documented
  show ¬ js "constructor" ∈ columnNames
  decide

end SorobanExplorer.Filters
