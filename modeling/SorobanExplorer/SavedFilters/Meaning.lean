import SorobanExplorer.SavedFilters.Denotation

/-!
Owns when the WHERE text of an accepted filter means the filter: the fields and
operators that are compiled, and the fields whose text is read as written. Last, the documented
schema of the saved-filter DSL, and the filters on which the validator and the compiler agree with
it.
-/

namespace SorobanExplorer.SavedFilters

open Library
open Library.SqlLexer (Lexeme Lexes literals quote)
open Library.Postgres (Truth)
open Filters (JsString js JsValue stringOfProperty)

/-! ### Columns of fields -/

def KnownField (field : JsString) : Prop :=
  field ∈ [js "contract", js "function", js "ledger", js "type"] ∨
    (js "topic[").isPrefixOf field = true ∨ (js "arg.").isPrefixOf field = true

def Column.field : Column → JsString
  | .contract => js "contract"
  | .function => js "function"
  | .ledger => js "ledger"
  | .type => js "type"
  | .topic index => js "topic[" ++ (index ++ [0x5D])
  | .arg path => js "arg." ++ path

theorem prefix_drop {start field : JsString} (starts : start.isPrefixOf field = true) :
    field = start ++ field.drop start.length := by
  obtain ⟨rest, rfl⟩ := List.isPrefixOf_iff_prefix.mp starts
  rw [List.drop_left]

theorem topicDigits?_some {field index : JsString} (read : topicDigits? field = some index) :
    field = js "topic[" ++ (index ++ [0x5D]) ∧ index ≠ [] ∧
      index.all SqlLexer.isDigit = true := by
  simp only [topicDigits?] at read
  split_ifs at read with starts shape
  cases read
  obtain ⟨last, nonempty, digits⟩ := shape
  have closed : (field.drop 6).dropLast ++ [0x5D] = field.drop 6 :=
    List.dropLast_append_getLast? _ last
  rw [closed]
  exact ⟨prefix_drop starts, nonempty, digits⟩

theorem columnOf_ok {field : JsString} {column : Column}
    (known : columnOf (some (.string field)) = .ok column) :
    field = column.field ∧ column.Valid := by
  simp only [columnOf] at known
  split_ifs at known with contract function ledger type topic arg
  · cases known
    exact ⟨contract, trivial⟩
  · cases known
    exact ⟨function, trivial⟩
  · cases known
    exact ⟨ledger, trivial⟩
  · cases known
    exact ⟨type, trivial⟩
  · cases read : topicDigits? field with
    | none =>
      rw [read] at known
      cases known
    | some index =>
      rw [read] at known
      cases known
      exact topicDigits?_some read
  · cases known
    exact ⟨prefix_drop arg, trivial⟩

theorem topicDigits?_of_format {field : JsString} (format : validateFormat field = .valid)
    (starts : (js "topic[").isPrefixOf field = true) : ∃ index, topicDigits? field = some index := by
  rw [validateFormat] at format
  split_ifs at format with malformed
  exact Option.ne_none_iff_exists'.mp fun none => malformed ⟨starts, none⟩

theorem columnOf_known_iff (condition : SavedCondition) :
    (∃ column, columnOf (some (.string condition.field)) = .ok column) ↔
      KnownField condition.field := by
  constructor
  · rintro ⟨column, known⟩
    rw [(columnOf_ok known).1]
    cases column with
    | contract | function | ledger | type => exact Or.inl (by decide)
    | topic index => exact Or.inr (Or.inl (List.isPrefixOf_iff_prefix.mpr (List.prefix_append _ _)))
    | arg path => exact Or.inr (Or.inr (List.isPrefixOf_iff_prefix.mpr (List.prefix_append _ _)))
  · intro known
    simp only [columnOf]
    split_ifs with contract function ledger type topic arg
    · exact ⟨_, rfl⟩
    · exact ⟨_, rfl⟩
    · exact ⟨_, rfl⟩
    · exact ⟨_, rfl⟩
    · obtain ⟨index, read⟩ := topicDigits?_of_format condition.format topic
      exact ⟨.topic index, by rw [read]; rfl⟩
    · exact ⟨_, rfl⟩
    · rcases known with named | starts | starts
      · simp [contract, function, ledger, type] at named
      · exact absurd starts topic
      · exact absurd starts arg

/-! ### Conversion of a condition -/

def SavedCondition.leaf (condition : SavedCondition) : Leaf where
  field := some (.string condition.field)
  operator := some (.string condition.operator.name)
  value := some condition.value

def SavedCondition.comparison (condition : SavedCondition) (column : Column) : Comparison where
  column := column
  operator := condition.operator.sql
  index := 1

theorem operatorMap_name {operator : Operator} (one : operator ≠ .isIn) :
    operatorMap operator.name = some operator.sql.symbol := by
  cases operator with
  | isIn => exact absurd rfl one
  | eq | ne | gt | lt | gte | lte | contains | startsWith | endsWith => rfl

theorem readsList_name {operator : Operator} (one : operator ≠ .isIn) (column : Column)
    (value : Option Json) : readsList column (some (.string operator.name)) value = false := by
  have other : includes [js "in"] (some (.string operator.name)) = false := by
    cases operator with
    | isIn => exact absurd rfl one
    | eq | ne | gt | lt | gte | lte | contains | startsWith | endsWith => rfl
  rw [readsList, other, Bool.false_and]

section Conversion

variable (condition : SavedCondition) {column : Column}

/-- `filterToSql` of a condition. -/
def SavedCondition.converted : Except Failure (JsString × Params) :=
  conditionToSql condition.leaf.field condition.leaf.operator condition.leaf.value [] 1

theorem converted_of_known (one : condition.operator ≠ .isIn)
    (known : columnOf condition.leaf.field = .ok column) :
    condition.converted =
      condition.leaf.operand.map fun operand => ((condition.comparison column).text, [operand]) := by
  have single : readsList column condition.leaf.operator condition.leaf.value = false :=
    readsList_name one column condition.leaf.value
  have named : textOf condition.leaf.operator = .ok condition.operator.name := rfl
  rw [SavedCondition.converted, conditionToSql, known, named]
  simp only [bind, Except.bind, single, operatorMap_name one, Bool.false_and, Bool.false_eq_true,
    if_false, Leaf.operand]
  cases wildcards condition.leaf.operator with
  | none => simp [Comparison.text, SavedCondition.comparison, pure, Except.pure, Except.map]
  | some around =>
    cases textOf condition.leaf.value with
    | error failure => rfl
    | ok text =>
      simp [Comparison.text, SavedCondition.comparison, pure, Except.pure, Except.map]

theorem converted_isIn (list : condition.operator = .isIn) : ∃ failure,
    condition.converted = .error failure := by
  rw [SavedCondition.converted, conditionToSql]
  cases columnOf condition.leaf.field with
  | error failure => exact ⟨failure, rfl⟩
  | ok column =>
    have named : textOf condition.leaf.operator = .ok (js "in") := by
      rw [SavedCondition.leaf, list]
      rfl
    have missing : operatorMap (js "in") = none := rfl
    rw [named]
    simp only [bind, Except.bind, missing]
    split_ifs
    · exact ⟨_, rfl⟩
    · exact ⟨_, rfl⟩

theorem converted_ok_iff {text : JsString} {params : Params} :
    condition.converted = .ok (text, params) ↔
      ∃ column operand, columnOf condition.leaf.field = .ok column ∧
        condition.operator ≠ .isIn ∧ condition.leaf.operand = .ok operand ∧
          text = (condition.comparison column).text ∧ params = [operand] := by
  constructor
  · intro success
    by_cases one : condition.operator = .isIn
    · obtain ⟨failure, failed⟩ := converted_isIn condition one
      cases failed.symm.trans success
    cases known : columnOf condition.leaf.field with
    | error failure =>
      rw [SavedCondition.converted, conditionToSql, known] at success
      cases success
    | ok column =>
      rw [converted_of_known condition one known] at success
      cases bound : condition.leaf.operand with
      | error failure =>
        rw [bound] at success
        cases success
      | ok operand =>
        rw [bound] at success
        cases success
        exact ⟨column, operand, rfl, one, rfl, rfl, rfl⟩
  · rintro ⟨column, operand, known, one, success, rfl, rfl⟩
    rw [converted_of_known condition one known, success]
    rfl

theorem filterToSql_filter {conditions : Conditions Dsl} (falsy : conditions.truthy = false) :
    filterToSql (condition.filter conditions) = condition.converted := by
  unfold filterToSql SavedCondition.filter convert
  rw [falsy, if_neg (by simp)]
  change (do
    let written ← (do
      let written ← condition.converted
      pure (written.1, (⟨written.2, 2⟩ : Bindings)))
    pure (written.1, written.2.params)) = condition.converted
  cases condition.converted with
  | error failure => rfl
  | ok converted => rfl

end Conversion

/-! ### Reading of a condition -/

section Reading

variable {leaf : Comparison}

def Comparison.tail (leaf : Comparison) : JsString :=
  js " " ++ (leaf.operator.symbol ++ (js " " ++ placeholderText leaf.index))

theorem lexes_comparison (single : leaf.operator ≠ .eqAny) (valid : leaf.column.Valid)
    (paired : ∀ segment ∈ leaf.column.literals, SqlLexer.Paired segment) :
    Lexes leaf.text leaf.lexemes := by
  have operator := @lexes_operator [] [] _ single leaf.index nofun (.done rfl)
  rw [List.append_nil, List.append_nil] at operator
  exact lexes_column valid paired operator

theorem literals_comparison (leaf : Comparison) :
    literals leaf.lexemes = leaf.column.literals := by
  have operator : literals (leaf.operator.lexemes leaf.index) = [] := by
    cases leaf.operator <;> rfl
  rw [Comparison.lexemes, SqlLexer.literals_append, operator, List.append_nil]
  cases leaf.column with
  | contract | function | ledger | type | topic index => rfl
  | arg path => exact literals_arrowLexemes (Column.segments path)

theorem lexes_path {path : JsString} (arg : leaf.column = .arg path) {lexemes : List Lexeme}
    (lexes : Lexes leaf.text lexemes) : ∃ others, literals lexemes = literals others ∧
      Lexes (arrowed (Column.segments path) ++ leaf.tail) others ∧
        leaf.tail.head? ≠ some quote := by
  obtain ⟨others, rfl, later⟩ := (starts_column leaf.column _).first lexes
  rw [arg] at later
  exact ⟨others, rfl, later, by rw [Comparison.tail, space_cons]; exact of_decide_eq_true rfl⟩

theorem clean_of_lexes_comparison {lexemes : List Lexeme} (lexes : Lexes leaf.text lexemes)
    (read : (literals lexemes).map SqlLexer.value = leaf.column.literals) :
    ∀ segment ∈ leaf.column.literals, quote ∉ segment := by
  cases arg : leaf.column with
  | contract | function | ledger | type | topic index => nofun
  | arg path =>
    obtain ⟨others, same, later, ends⟩ := lexes_path arg lexes
    rw [same, arg, ← List.append_nil (Column.literals _)] at read
    exact clean_of_lexes ends later read

theorem paired_of_lexes_comparison {lexemes : List Lexeme} (lexes : Lexes leaf.text lexemes)
    (read : literals lexemes = leaf.column.literals) :
    ∀ segment ∈ leaf.column.literals, SqlLexer.Paired segment := by
  cases arg : leaf.column with
  | contract | function | ledger | type | topic index => nofun
  | arg path =>
    obtain ⟨others, same, later, ends⟩ := lexes_path arg lexes
    rw [same, arg, ← List.append_nil (Column.literals _)] at read
    exact paired_of_lexes ends later read

theorem comparison_of_word {written : Where} {name : JsString} {others : List Lexeme}
    (starts : written.lexemes = .word name :: others) (column : name ≠ js "NOT") :
    ∃ leaf, written = .comparison leaf := by
  cases written with
  | comparison leaf => exact ⟨leaf, rfl⟩
  | all first rest | any first rest =>
    rw [Where.lexemes] at starts
    cases starts
  | not part =>
    rw [Where.lexemes] at starts
    exact absurd (Lexeme.word.inj (List.cons.inj starts).1).symm column

theorem Where.Equivalent.comparison_eq {other : Comparison}
    (equivalent : (Where.comparison other).Equivalent (.comparison leaf)) : other = leaf := by
  have same := equivalent fun known => some (decide (known = leaf))
  simpa [Where.truth] using same

theorem Column.word_ne_not (column : Column) : column.word ≠ js "NOT" := by
  have known : ∀ word ∈ [js "contract_id", js "function", js "ledger", js "type", js "raw_topics",
      js "raw_data"], word ≠ js "NOT" := by decide
  apply known
  cases column <;> simp [Column.word]

theorem map_value_arrowLexemes {segments : List JsString}
    (clean : ∀ segment ∈ segments, quote ∉ segment) :
    (arrowLexemes segments).map (Lexeme.mapLiteral SqlLexer.value) = arrowLexemes segments := by
  induction segments with
  | nil => rfl
  | cons segment segments ih =>
    have own := SqlLexer.value_of_clean (clean segment List.mem_cons_self)
    have others := ih fun other member =>
      clean other (List.mem_cons_of_mem _ member)
    rw [arrowLexemes_cons, List.map_cons, List.map_cons, Lexeme.mapLiteral_operator,
      Lexeme.mapLiteral_literal, own, others]

theorem map_value_lexemes (clean : ∀ segment ∈ leaf.column.literals, quote ∉ segment) :
    leaf.lexemes.map (Lexeme.mapLiteral SqlLexer.value) = leaf.lexemes := by
  have operator : (leaf.operator.lexemes leaf.index).map (Lexeme.mapLiteral SqlLexer.value) =
      leaf.operator.lexemes leaf.index := by
    cases leaf.operator <;> rfl
  rw [Comparison.lexemes, List.map_append, operator]
  congr 1
  cases arg : leaf.column with
  | contract | function | ledger | type | topic index => rfl
  | arg path =>
    rw [arg] at clean
    exact congrArg (Lexeme.word (js "raw_data") :: ·) (map_value_arrowLexemes clean)

theorem readsAs_comparison_iff (single : leaf.operator ≠ .eqAny) (valid : leaf.column.Valid) :
    ReadsAs leaf.text (.comparison leaf) ↔ ∀ segment ∈ leaf.column.literals, quote ∉ segment := by
  constructor
  · rintro ⟨lexemes, written, lexes, read, equivalent⟩
    obtain ⟨others, rfl, -⟩ := (starts_column leaf.column _).first lexes
    obtain ⟨other, rfl⟩ := comparison_of_word read.symm leaf.column.word_ne_not
    obtain rfl := equivalent.comparison_eq
    apply clean_of_lexes_comparison lexes
    rw [← SqlLexer.literals_mapLiteral, read, Where.lexemes, literals_comparison]
  · intro clean
    have paired := fun segment member => SqlLexer.paired_of_clean (clean segment member)
    exact ⟨leaf.lexemes, .comparison leaf, lexes_comparison single valid paired,
      map_value_lexemes clean, fun truthOf => rfl⟩

end Reading

/-! ### Meaning of an accepted filter -/

theorem ofName?_name (operator : Operator) :
    Operator.ofName? (some (.string operator.name)) = some operator := by
  cases operator <;> rfl

section Accepted

variable {condition : SavedCondition} {conditions : Conditions Dsl}

theorem leaves_filter (falsy : conditions.truthy = false) :
    (condition.filter conditions).leaves = [condition.leaf] := by
  cases conditions with
  | list nodes => cases falsy
  | absent | other truthy => rfl

theorem combination?_filter (falsy : conditions.truthy = false) {column : Column}
    (known : columnOf condition.leaf.field = .ok column) :
    (condition.filter conditions).combination? 1 =
      some (.comparison (condition.comparison column)) := by
  have comparison : condition.leaf.comparison? 1 = some (condition.comparison column) := by
    have named : Operator.ofName? condition.leaf.operator = some condition.operator :=
      ofName?_name condition.operator
    rw [Leaf.comparison?, known, named]
    rfl
  cases conditions with
  | list nodes => cases falsy
  | absent => exact congrArg (Option.map Where.comparison) comparison
  | other truthy =>
    obtain rfl : truthy = false := falsy
    exact congrArg (Option.map Where.comparison) comparison

/-- Whether a condition is compiled: its field has a column, its operator is not `in`,
and its value has a text where the operator needs one. -/
def Convertible : Dsl → Prop
  | .object (some (.string field)) operator value _ =>
    KnownField field ∧ includes [js "in"] operator = false ∧
      ((wildcards operator).isSome → ∃ text, textOf value = .ok text)
  | _ => False

def Leaf.segments (leaf : Leaf) : List JsString :=
  match columnOf leaf.field with
  | .ok column => column.literals
  | .error _ => []

def Dsl.segments (filter : Dsl) : List JsString := filter.leaves.flatMap Leaf.segments

theorem segments_filter (falsy : conditions.truthy = false) {column : Column}
    (known : columnOf condition.leaf.field = .ok column) :
    (condition.filter conditions).segments = column.literals := by
  rw [Dsl.segments, leaves_filter falsy, List.flatMap_singleton, Leaf.segments, known]

theorem operand_ok_iff (leaf : Leaf) :
    (∃ operand, leaf.operand = .ok operand) ↔
      ((wildcards leaf.operator).isSome → ∃ text, textOf leaf.value = .ok text) := by
  rw [Leaf.operand]
  cases wildcards leaf.operator with
  | none => exact iff_of_true ⟨leaf.value, rfl⟩ nofun
  | some around =>
    cases textOf leaf.value with
    | error failure => exact iff_of_false nofun fun all => nomatch all rfl
    | ok text => exact iff_of_true ⟨_, rfl⟩ fun _ => ⟨text, rfl⟩

theorem sql_ne_eqAny {operator : Operator} (one : operator ≠ .isIn) : operator.sql ≠ .eqAny := by
  cases operator with
  | isIn => exact absurd rfl one
  | eq | ne | gt | lt | gte | lte | contains | startsWith | endsWith => nofun

theorem includes_in_iff (operator : Operator) :
    includes [js "in"] (some (.string operator.name)) = false ↔ operator ≠ .isIn := by
  cases operator <;> decide

theorem convertible_iff : Convertible (condition.filter conditions) ↔
    ∃ column operand, columnOf condition.leaf.field = .ok column ∧ condition.operator ≠ .isIn ∧
      condition.leaf.operand = .ok operand := by
  constructor
  · rintro ⟨hasColumn, notIn, convertible⟩
    obtain ⟨column, known⟩ := (columnOf_known_iff condition).mpr hasColumn
    obtain ⟨operand, bound⟩ := (operand_ok_iff condition.leaf).mpr convertible
    exact ⟨column, operand, known, (includes_in_iff _).mp notIn, bound⟩
  · rintro ⟨column, operand, known, one, bound⟩
    exact ⟨(columnOf_known_iff condition).mp ⟨column, known⟩, (includes_in_iff _).mpr one,
      (operand_ok_iff condition.leaf).mp ⟨operand, bound⟩⟩

/-- An accepted filter gets the text and the parameters of its combination exactly when
it is convertible and no segment of a path holds a quote. -/
theorem denotes_iff {filter : Dsl} (accepted : Accepted filter) :
    (∃ text params, filterToSql filter = .ok (text, params) ∧ Denotes filter text params) ↔
      Convertible filter ∧ ∀ segment ∈ filter.segments, quote ∉ segment := by
  obtain ⟨condition, conditions, falsy, rfl⟩ := accepted_iff.mp accepted
  rw [filterToSql_filter condition falsy, convertible_iff]
  constructor
  · rintro ⟨text, params, converted, denotes⟩
    obtain ⟨column, operand, known, one, bound, rfl, rfl⟩ :=
      (converted_ok_iff condition).mp converted
    obtain ⟨⟨combination, same, read⟩, -⟩ := denotes
    rw [combination?_filter falsy known] at same
    cases same
    rw [segments_filter falsy known]
    exact ⟨⟨column, operand, known, one, bound⟩,
      (readsAs_comparison_iff (sql_ne_eqAny one) (columnOf_ok known).2).mp read⟩
  · rintro ⟨⟨column, operand, known, one, bound⟩, clean⟩
    rw [segments_filter falsy known] at clean
    refine ⟨_, _, (converted_ok_iff condition).mpr ⟨column, operand, known, one, bound, rfl, rfl⟩,
      ⟨_, combination?_filter falsy known, ?_⟩, ?_⟩
    · exact (readsAs_comparison_iff (sql_ne_eqAny one) (columnOf_ok known).2).mpr clean
    · rw [leaves_filter falsy, List.mapM_cons, bound]
      rfl

/-- `arg.memo.text` contains `swap`. -/
def memoFilter : Dsl :=
  .object (some (.string (js "arg.memo.text"))) (some (.string (js "contains")))
    (some (.string (js "swap"))) .absent

theorem memoFilter_denotes : ∃ text params, filterToSql memoFilter = .ok (text, params) ∧
    Denotes memoFilter text params := by
  have accepted : Accepted memoFilter := rfl
  refine (denotes_iff accepted).mpr ⟨⟨?_, rfl, fun _ => ⟨js "swap", rfl⟩⟩, ?_⟩
  · exact Or.inr (Or.inr rfl)
  · have segments : memoFilter.segments = [js "memo", js "text"] := rfl
    rw [segments]
    decide

/-- `function` is one of the items of a list. -/
def listFilter : Dsl :=
  .object (some (.string (js "function"))) (some (.string (js "in")))
    (some (.array [.string (js "transfer")])) .absent

theorem listFilter_notConverted : ¬ ∀ filter, Accepted filter →
    ∃ text params, filterToSql filter = .ok (text, params) ∧ Denotes filter text params := by
  intro claim
  obtain ⟨text, params, converted, -⟩ := claim listFilter rfl
  have thrown : filterToSql listFilter = .error (.error (js "Unknown operator: in")) := rfl
  cases thrown.symm.trans converted

end Accepted

open Filters (JsString js)

/-! ### The schema -/

/-- `contract`, `function`, `ledger`, `type`, `topic[N]` or `arg.path`. -/
inductive DocumentedField : JsString → Prop
  | named {field : JsString} :
      field ∈ [js "contract", js "function", js "ledger", js "type"] → DocumentedField field
  | topic {index : JsString} : index ≠ [] → index.all SqlLexer.isDigit = true →
      DocumentedField (js "topic[" ++ (index ++ [0x5D]))
  | arg {path : JsString} : path ≠ [] → DocumentedField (js "arg." ++ path)

inductive GroupOperator where
  | and
  | or
  | not
deriving DecidableEq

def GroupOperator.name : GroupOperator → JsString
  | .and => js "and"
  | .or => js "or"
  | .not => js "not"

/-- A condition with a value, or a group of members that are conditions or groups
again; a negation has one member. -/
inductive Schema : Dsl → Prop
  | condition {field : JsString} {operator : Operator} {value : Json} {conditions : Conditions Dsl} :
      DocumentedField field → isNullish (some value) = false → conditions.truthy = false →
        Schema (.object (some (.string field)) (some (.string operator.name)) (some value) conditions)
  | group {field value : Option Json} {operator : GroupOperator} {nodes : List Dsl} :
      nodes ≠ [] → (operator = .not → nodes.length = 1) → (∀ node ∈ nodes, Schema node) →
        Schema (.object field (some (.string operator.name)) value (.list nodes))

def SchemaGroup (filter : Dsl) : Prop :=
  Schema filter ∧ ∃ field operator value nodes, filter = .object field operator value (.list nodes)

def SchemaAgreed (filter : Dsl) : Prop :=
  (Accepted filter ↔ Schema filter) ∧
    (Accepted filter → ∃ text params, filterToSql filter = .ok (text, params))

/-! ### Fields -/

theorem documentedField_format {field : JsString} (documented : DocumentedField field) :
    field ≠ [] ∧ validateFormat field = .valid := by
  cases documented with
  | named member =>
    simp only [List.mem_cons, List.not_mem_nil, or_false] at member
    rcases member with rfl | rfl | rfl | rfl <;> exact ⟨by decide, by decide⟩
  | @topic index nonempty digits =>
    have starts : (js "topic[").isPrefixOf (js "topic[" ++ (index ++ [0x5D])) = true :=
      List.isPrefixOf_iff_prefix.mpr (List.prefix_append _ _)
    have read : topicDigits? (js "topic[" ++ (index ++ [0x5D])) = some index := by
      have dropped : (js "topic[" ++ (index ++ [0x5D])).drop 6 = index ++ [0x5D] := rfl
      simp [topicDigits?, starts, dropped, nonempty, digits]
    have other : (js "arg.").isPrefixOf (js "topic[" ++ (index ++ [0x5D])) = false := rfl
    refine ⟨nofun, ?_⟩
    simp [validateFormat, read, other]
  | @arg path nonempty =>
    have starts : (js "arg.").isPrefixOf (js "arg." ++ path) = true :=
      List.isPrefixOf_iff_prefix.mpr (List.prefix_append _ _)
    have other : (js "topic[").isPrefixOf (js "arg." ++ path) = false := rfl
    have length : ¬ (js "arg." ++ path).length ≤ 4 := by
      have positive := List.length_pos_iff.mpr nonempty
      change ¬ path.length + 4 ≤ 4
      omega
    refine ⟨nofun, ?_⟩
    rw [validateFormat, other, if_neg (by simp), if_neg fun short => length short.2]

theorem documentedField_of_column {condition : SavedCondition} {column : Column}
    (known : columnOf condition.leaf.field = .ok column) : DocumentedField condition.field := by
  obtain ⟨named, valid⟩ := columnOf_ok known
  have format := condition.format
  rw [named] at format ⊢
  cases column with
  | contract | function | ledger | type => exact .named (by decide)
  | topic index => exact .topic valid.1 valid.2
  | arg path =>
    apply DocumentedField.arg
    rintro rfl
    revert format
    decide

/-! ### Agreement -/

theorem schema_cases {filter : Dsl} (schema : Schema filter) (single : ¬ SchemaGroup filter) :
    ∃ condition conditions, conditions.truthy = false ∧
      filter = SavedCondition.filter condition conditions := by
  cases schema with
  | condition documented present falsy =>
    obtain ⟨nonempty, format⟩ := documentedField_format documented
    exact ⟨⟨_, _, _, nonempty, present, format⟩, _, falsy, rfl⟩
  | group nonempty one members =>
    exact (single ⟨.group nonempty one members, _, _, _, _, rfl⟩).elim

/-- Validator, compiler and schema agree on a filter exactly when it is no group of
the schema and, if it is a condition of a valid format, it is convertible. -/
theorem schemaAgreed_iff (filter : Dsl) :
    SchemaAgreed filter ↔ ¬ SchemaGroup filter ∧
      ∀ condition conditions, conditions.truthy = false →
        filter = SavedCondition.filter condition conditions → Convertible filter := by
  constructor
  · rintro ⟨accepts, compiles⟩
    constructor
    · rintro ⟨schema, field, operator, value, nodes, rfl⟩
      obtain ⟨condition, conditions, falsy, same⟩ := accepted_iff.mp (accepts.mpr schema)
      cases same
      cases falsy
    · rintro condition conditions falsy rfl
      obtain ⟨text, params, compiled⟩ := compiles (accepted_iff.mpr ⟨_, _, falsy, rfl⟩)
      rw [filterToSql_filter condition falsy] at compiled
      obtain ⟨column, operand, known, one, bound, -, -⟩ := (converted_ok_iff condition).mp compiled
      exact convertible_iff.mpr ⟨column, operand, known, one, bound⟩
  · rintro ⟨single, convertible⟩
    have compiled (accepted : Accepted filter) : ∃ condition conditions column operand,
        conditions.truthy = false ∧ filter = SavedCondition.filter condition conditions ∧
          columnOf condition.leaf.field = .ok column ∧ condition.operator ≠ .isIn ∧
            condition.leaf.operand = .ok operand := by
      obtain ⟨condition, conditions, falsy, rfl⟩ := accepted_iff.mp accepted
      obtain ⟨column, operand, known, one, bound⟩ :=
        convertible_iff.mp (convertible condition conditions falsy rfl)
      exact ⟨condition, conditions, column, operand, falsy, rfl, known, one, bound⟩
    refine ⟨⟨?_, ?_⟩, ?_⟩
    · intro accepted
      obtain ⟨condition, conditions, column, _, falsy, rfl, known, -, -⟩ := compiled accepted
      exact .condition (documentedField_of_column known) condition.present falsy
    · intro schema
      exact accepted_iff.mpr (schema_cases schema single)
    · intro accepted
      obtain ⟨condition, conditions, column, operand, falsy, rfl, known, one, bound⟩ :=
        compiled accepted
      rw [filterToSql_filter condition falsy]
      exact ⟨_, _, (converted_ok_iff condition).mpr ⟨column, operand, known, one, bound, rfl, rfl⟩⟩

/-- The contract is `C`, and the function is `f`. -/
def pairFilter : Dsl :=
  .object none (some (.string (js "and"))) none (.list
    [.object (some (.string (js "contract"))) (some (.string (js "eq")))
        (some (.string (js "C"))) .absent,
      .object (some (.string (js "function"))) (some (.string (js "eq")))
        (some (.string (js "f"))) .absent])

theorem schema_pairFilter : Schema pairFilter := by
  have member (field value : JsString) (documented : DocumentedField field) :
      Schema (.object (some (.string field)) (some (.string (js "eq")))
        (some (.string value)) .absent) :=
    @Schema.condition field .eq _ _ documented rfl rfl
  apply @Schema.group none none .and _ (List.cons_ne_nil _ _) nofun
  intro node listed
  rcases List.mem_cons.mp listed with rfl | listed
  · exact member (js "contract") (js "C") (.named (by decide))
  · rw [List.mem_singleton.mp listed]
    exact member (js "function") (js "f") (.named (by decide))

/-- A group of the schema is rejected, and an accepted condition on a list throws. -/
theorem schema_disagrees : ¬ SchemaAgreed pairFilter ∧ ¬ SchemaAgreed listFilter := by
  constructor
  · rintro ⟨accepts, -⟩
    obtain ⟨condition, conditions, falsy, same⟩ := accepted_iff.mp (accepts.mpr schema_pairFilter)
    cases same
  · rintro ⟨-, compiles⟩
    obtain ⟨text, params, compiled⟩ := compiles rfl
    have thrown : filterToSql listFilter = .error (.error (js "Unknown operator: in")) := rfl
    cases thrown.symm.trans compiled

end SorobanExplorer.SavedFilters
