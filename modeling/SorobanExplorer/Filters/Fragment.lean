import SorobanExplorer.Filters.Agreement

/-!
Owns the placeholders and the columns of a fragment: which ones it holds, what
the placeholders are bound to, that they number the parameters from the first
free place on, and that the value of a fragment does not depend on where its
parameters are put.
-/

namespace SorobanExplorer.Filters

open Library
open Library.Postgres

/-! ### Placeholders -/

def TextExpr.placeholders : TextExpr → List Nat
  | .args path => [path]
  | _ => []

def Condition.placeholders : Condition → List Nat
  | .isNotNull expr => expr.placeholders
  | .bigintAny _ list => [list]
  | .bigintBetween _ low high => [low, high]
  | .bigintCompare _ _ value => [value]
  | .topicEquals value => [value]
  | .numericAny expr list | .textAny expr list => expr.placeholders ++ [list]
  | .numericBetween expr low high | .textBetween expr low high => expr.placeholders ++ [low, high]
  | .numericCompare expr _ value | .textCompare expr _ value => expr.placeholders ++ [value]

def TextExpr.rename (name : Nat → Nat) : TextExpr → TextExpr
  | .args path => .args (name path)
  | expr => expr

def Condition.rename (name : Nat → Nat) : Condition → Condition
  | .isNotNull expr => .isNotNull (expr.rename name)
  | .bigintAny column list => .bigintAny column (name list)
  | .bigintBetween column low high => .bigintBetween column (name low) (name high)
  | .bigintCompare column comparison value => .bigintCompare column comparison (name value)
  | .topicEquals value => .topicEquals (name value)
  | .numericAny expr list => .numericAny (expr.rename name) (name list)
  | .textAny expr list => .textAny (expr.rename name) (name list)
  | .numericBetween expr low high => .numericBetween (expr.rename name) (name low) (name high)
  | .textBetween expr low high => .textBetween (expr.rename name) (name low) (name high)
  | .numericCompare expr comparison value =>
    .numericCompare (expr.rename name) comparison (name value)
  | .textCompare expr comparison value => .textCompare (expr.rename name) comparison (name value)

mutual

def Sql.placeholders : Sql → List Nat
  | .condition leaf => leaf.placeholders
  | .and parts => Sql.allPlaceholders parts
  | .or parts => Sql.allPlaceholders parts
  | .not part => part.placeholders

def Sql.allPlaceholders : List Sql → List Nat
  | [] => []
  | part :: parts => part.placeholders ++ Sql.allPlaceholders parts

end

def TextExpr.columns : TextExpr → List JsString
  | .column name => [name]
  | _ => []

def Condition.columns : Condition → List JsString
  | .bigintAny column _ | .bigintBetween column _ _ | .bigintCompare column _ _ => [column]
  | .topicEquals _ => []
  | .isNotNull expr | .numericAny expr _ | .textAny expr _ | .numericBetween expr _ _
  | .textBetween expr _ _ | .numericCompare expr _ _ | .textCompare expr _ _ => expr.columns

mutual

def Sql.columns : Sql → List JsString
  | .condition leaf => leaf.columns
  | .and parts => Sql.allColumns parts
  | .or parts => Sql.allColumns parts
  | .not part => part.columns

def Sql.allColumns : List Sql → List JsString
  | [] => []
  | part :: parts => part.columns ++ Sql.allColumns parts

end

mutual

def Sql.rename (name : Nat → Nat) : Sql → Sql
  | .condition leaf => .condition (leaf.rename name)
  | .and parts => .and (Sql.renameAll name parts)
  | .or parts => .or (Sql.renameAll name parts)
  | .not part => .not (part.rename name)

def Sql.renameAll (name : Nat → Nat) : List Sql → List Sql
  | [] => []
  | part :: parts => part.rename name :: Sql.renameAll name parts

end

/-! ### A value depends on the bound parameters only -/

def Rebound (name : Nat → Nat) (left right : List Param) (placeholders : List Nat) : Prop :=
  ∀ placeholder ∈ placeholders, left[name placeholder - 1]? = right[placeholder - 1]?

section Rename

variable {name : Nat → Nat} {left right : List Param}

theorem Rebound.append {first second : List Nat} :
    Rebound name left right (first ++ second) ↔
      Rebound name left right first ∧ Rebound name left right second :=
  List.forall_mem_append

theorem Rebound.text {placeholder : Nat} (same : left[name placeholder - 1]? = right[placeholder - 1]?) :
    paramText left (name placeholder) = paramText right placeholder := by
  rw [paramText, paramText, same]

theorem Rebound.texts {placeholder : Nat}
    (same : left[name placeholder - 1]? = right[placeholder - 1]?) :
    paramTexts left (name placeholder) = paramTexts right placeholder := by
  rw [paramTexts, paramTexts, same]

theorem TextExpr.value_rename {expr : TextExpr} (rebound : Rebound name left right expr.placeholders)
    (row : Row) : (expr.rename name).value left row = expr.value right row := by
  cases expr with
  | column column => rfl
  | topic index => rfl
  | args path =>
    have same := rebound path List.mem_cons_self
    simp only [TextExpr.rename, TextExpr.value, Rebound.texts same]

theorem TextExpr.present_rename {expr : TextExpr}
    (rebound : Rebound name left right expr.placeholders) (row : Row) :
    (expr.rename name).present left row = expr.present right row := by
  have value := TextExpr.value_rename rebound row
  cases expr with
  | column column => rfl
  | topic index => rfl
  | args path =>
    simp only [TextExpr.rename] at value
    simp only [TextExpr.rename, TextExpr.present, value]

theorem Condition.value_rename {condition : Condition}
    (rebound : Rebound name left right condition.placeholders) (row : Row) :
    (condition.rename name).value left row = condition.value right row := by
  cases condition with
  | isNotNull expr => simp only [rename, value, TextExpr.present_rename rebound]
  | bigintAny column list =>
    have same := rebound list List.mem_cons_self
    simp only [rename, value, Rebound.texts same]
  | bigintBetween column low high =>
    have lows := rebound low List.mem_cons_self
    have highs := rebound high (List.mem_cons_of_mem _ List.mem_cons_self)
    simp only [rename, value, paramInt8, Rebound.text lows, Rebound.text highs]
  | bigintCompare column comparison bound | topicEquals bound =>
    have same := rebound bound List.mem_cons_self
    simp only [rename, value, paramInt8, Rebound.text same]
  | numericAny expr list | textAny expr list =>
    obtain ⟨inner, own⟩ := Rebound.append.mp rebound
    have same := own list List.mem_cons_self
    simp only [rename, value, TextExpr.value_rename inner, Rebound.texts same]
  | numericBetween expr low high | textBetween expr low high =>
    obtain ⟨inner, own⟩ := Rebound.append.mp rebound
    have lows := own low List.mem_cons_self
    have highs := own high (List.mem_cons_of_mem _ List.mem_cons_self)
    simp only [rename, value, paramNumeric, TextExpr.value_rename inner, Rebound.text lows,
      Rebound.text highs]
  | numericCompare expr comparison bound | textCompare expr comparison bound =>
    obtain ⟨inner, own⟩ := Rebound.append.mp rebound
    have same := own bound List.mem_cons_self
    simp only [rename, value, paramNumeric, TextExpr.value_rename inner, Rebound.text same]

mutual

theorem Sql.value_rename (row : Row) : ∀ (sql : Sql), Rebound name left right sql.placeholders →
    (sql.rename name).value left row = sql.value right row
  | .condition leaf, rebound => by
      rw [Sql.rename, Sql.value, Sql.value, Condition.value_rename rebound]
  | .and parts, rebound => by
      rw [Sql.rename, Sql.value, Sql.value, Sql.values_renameAll row parts rebound]
  | .or parts, rebound => by
      rw [Sql.rename, Sql.value, Sql.value, Sql.values_renameAll row parts rebound]
  | .not part, rebound => by
      rw [Sql.rename, Sql.value, Sql.value, Sql.value_rename row part rebound]

theorem Sql.values_renameAll (row : Row) : ∀ (parts : List Sql),
    Rebound name left right (Sql.allPlaceholders parts) →
      Sql.values left row (Sql.renameAll name parts) = Sql.values right row parts
  | [], _ => rfl
  | part :: parts, rebound => by
      obtain ⟨first, rest⟩ := Rebound.append.mp rebound
      rw [Sql.renameAll, Sql.values, Sql.values, Sql.value_rename row part first,
        Sql.values_renameAll row parts rest]

end

end Rename

/-! ### Renaming -/

theorem TextExpr.placeholders_rename (expr : TextExpr) (name : Nat → Nat) :
    (expr.rename name).placeholders = expr.placeholders.map name := by
  cases expr <;> rfl

theorem Condition.placeholders_rename (condition : Condition) (name : Nat → Nat) :
    (condition.rename name).placeholders = condition.placeholders.map name := by
  cases condition <;> simp [rename, placeholders, TextExpr.placeholders_rename]

theorem TextExpr.columns_rename (expr : TextExpr) (name : Nat → Nat) :
    (expr.rename name).columns = expr.columns := by
  cases expr <;> rfl

theorem Condition.columns_rename (condition : Condition) (name : Nat → Nat) :
    (condition.rename name).columns = condition.columns := by
  cases condition <;> simp [rename, columns, TextExpr.columns_rename]

theorem TextExpr.rename_rename (expr : TextExpr) (first second : Nat → Nat) :
    (expr.rename first).rename second = expr.rename fun placeholder => second (first placeholder) := by
  cases expr <;> rfl

theorem Condition.rename_rename (condition : Condition) (first second : Nat → Nat) :
    (condition.rename first).rename second =
      condition.rename fun placeholder => second (first placeholder) := by
  cases condition <;> simp [rename, TextExpr.rename_rename]

mutual

theorem Sql.placeholders_rename (name : Nat → Nat) : ∀ sql : Sql,
    (sql.rename name).placeholders = sql.placeholders.map name
  | .condition leaf => leaf.placeholders_rename name
  | .and parts => Sql.allPlaceholders_renameAll name parts
  | .or parts => Sql.allPlaceholders_renameAll name parts
  | .not part => Sql.placeholders_rename name part

theorem Sql.allPlaceholders_renameAll (name : Nat → Nat) : ∀ parts : List Sql,
    Sql.allPlaceholders (Sql.renameAll name parts) = (Sql.allPlaceholders parts).map name
  | [] => rfl
  | part :: parts => by
      rw [Sql.renameAll, Sql.allPlaceholders, Sql.allPlaceholders, List.map_append,
        Sql.placeholders_rename name part, Sql.allPlaceholders_renameAll name parts]

end

mutual

theorem Sql.columns_rename (name : Nat → Nat) : ∀ sql : Sql, (sql.rename name).columns = sql.columns
  | .condition leaf => leaf.columns_rename name
  | .and parts => Sql.allColumns_renameAll name parts
  | .or parts => Sql.allColumns_renameAll name parts
  | .not part => Sql.columns_rename name part

theorem Sql.allColumns_renameAll (name : Nat → Nat) : ∀ parts : List Sql,
    Sql.allColumns (Sql.renameAll name parts) = Sql.allColumns parts
  | [] => rfl
  | part :: parts => by
      rw [Sql.renameAll, Sql.allColumns, Sql.allColumns, Sql.columns_rename name part,
        Sql.allColumns_renameAll name parts]

end

mutual

theorem Sql.rename_rename (first second : Nat → Nat) : ∀ sql : Sql,
    (sql.rename first).rename second = sql.rename fun placeholder => second (first placeholder)
  | .condition leaf => congrArg Sql.condition (leaf.rename_rename first second)
  | .and parts => congrArg Sql.and (Sql.renameAll_renameAll first second parts)
  | .or parts => congrArg Sql.or (Sql.renameAll_renameAll first second parts)
  | .not part => congrArg Sql.not (Sql.rename_rename first second part)

theorem Sql.renameAll_renameAll (first second : Nat → Nat) : ∀ parts : List Sql,
    Sql.renameAll second (Sql.renameAll first parts) =
      Sql.renameAll (fun placeholder => second (first placeholder)) parts
  | [] => rfl
  | part :: parts => by
      rw [Sql.renameAll, Sql.renameAll, Sql.renameAll, Sql.rename_rename first second part,
        Sql.renameAll_renameAll first second parts]

end

/-! ### What a predicate binds -/

def Field.parameters : Field → List Param
  | .args path => [.list (path.map Utf16.encode)]
  | _ => []

/-- The columns of `COLUMN_FIELDS`. -/
def columnNames : List JsString :=
  [js "contract_id", js "function", js "tx_hash", js "ledger", js "seq"]

def Field.columns : Field → List JsString
  | .column name _ => [name]
  | _ => []

def Op.parameters (op : Op) (values : List Scalar) : List Param :=
  match op with
  | .exist => []
  | .isIn => [.list (values.map Scalar.text)]
  | _ => values.map fun value => .string value.text

def Predicate.parameters (predicate : Predicate) : List Param :=
  predicate.field.parameters ++ predicate.op.parameters predicate.values

/-- `predicate`, of a leaf that is parsed. -/
def Predicate.compile (params : List Param) (predicate : Predicate) :
    Option (Condition × List Param) :=
  match predicate.field, predicate.op, predicate.values with
  | field, .exist, _ =>
    let (expr, params) := textExpr params field
    some (.isNotNull expr, params)
  | .column column .number, op, values => bigintPredicate params column op values
  | .topic 0, .compare .eq, [.string units] =>
    let (placeholder, params) := bind params (.string units)
    some (.topicEquals placeholder, params)
  | field, op, values =>
    let (expr, params) := textExpr params field
    textPredicate params expr op values

theorem predicate_eq_compile (params : List Param) (source op value : Option Json) :
    predicate params source op value =
      (predicate? source op value).bind (Predicate.compile params) := by
  unfold predicate predicate?
  simp only [Option.bind_eq_bind, Option.bind_assoc, Option.pure_def, Option.bind_some]
  rfl

def Numbered (placeholders : List Nat) (parameters : List Param) : Prop :=
  placeholders = List.range' 1 parameters.length

theorem textExpr_shape (field : Field) : ∃ expr : TextExpr,
    (∀ params, textExpr params field =
      (expr.rename (params.length + ·), params ++ field.parameters)) ∧
        Numbered expr.placeholders field.parameters ∧ expr.columns = field.columns := by
  cases field with
  | column column type =>
    refine ⟨.column column, fun params => ?_, rfl, rfl⟩
    simp [textExpr, TextExpr.rename, Field.parameters]
  | topic index =>
    refine ⟨.topic index, fun params => ?_, rfl, rfl⟩
    simp [textExpr, TextExpr.rename, Field.parameters]
  | args path => exact ⟨.args 1, fun params => rfl, rfl, rfl⟩

theorem textPredicate_shape {op : Op} {values : List Scalar} (fits : Fits op values)
    (noExist : op ≠ .exist) (expr : TextExpr) (count : Nat) : ∃ condition : Condition,
      (∀ (params : List Param) (offset : Nat), params.length = offset + count →
        textPredicate params (expr.rename (offset + ·)) op values =
          some (condition.rename (offset + ·), params ++ op.parameters values)) ∧
        condition.placeholders =
          expr.placeholders ++ List.range' (count + 1) (op.parameters values).length ∧
        condition.columns = expr.columns := by
  cases op with
  | exist => exact absurd rfl noExist
  | isIn =>
    have texts : (inList values).map Scalar.text = values.map Scalar.text := by
      unfold inList
      split
      · rfl
      · rw [List.map_map]
        rfl
    by_cases numeric : (inList values).all isNumericValue = true
    · refine ⟨.numericAny expr (count + 1), fun params offset length => ?_, rfl, rfl⟩
      simp [textPredicate, bind, numeric, texts, length, Condition.rename, Op.parameters,
        Nat.add_assoc]
    · refine ⟨.textAny expr (count + 1), fun params offset length => ?_, rfl, rfl⟩
      simp [textPredicate, bind, numeric, texts, length, Condition.rename, Op.parameters,
        Nat.add_assoc]
  | between =>
    obtain ⟨low, high, rfl⟩ := List.length_eq_two.mp fits
    by_cases numeric : (isNumericValue low && isNumericValue high) = true
    · refine ⟨.numericBetween expr (count + 1) (count + 2), fun params offset length => ?_, rfl, rfl⟩
      simp [textPredicate, bind, numeric, length, Condition.rename, Op.parameters, Nat.add_assoc]
    · refine ⟨.textBetween expr (count + 1) (count + 2), fun params offset length => ?_, rfl, rfl⟩
      simp [textPredicate, bind, numeric, length, Condition.rename, Op.parameters, Nat.add_assoc]
  | compare comparison =>
    obtain ⟨value, rfl⟩ := List.length_eq_one_iff.mp fits
    by_cases numeric : isNumericValue value = true
    · refine ⟨.numericCompare expr comparison (count + 1), fun params offset length => ?_, rfl, rfl⟩
      simp [textPredicate, bind, numeric, length, Condition.rename, Op.parameters, Nat.add_assoc]
    · refine ⟨.textCompare expr comparison (count + 1), fun params offset length => ?_, rfl, rfl⟩
      simp [textPredicate, bind, numeric, length, Condition.rename, Op.parameters, Nat.add_assoc]

theorem bigintPredicate_shape {op : Op} {values : List Scalar} (fits : Fits op values)
    (noExist : op ≠ .exist) (column : JsString) : ∃ condition : Condition,
      (∀ params, bigintPredicate params column op values =
        some (condition.rename (params.length + ·), params ++ op.parameters values)) ∧
          Numbered condition.placeholders (op.parameters values) ∧ condition.columns = [column] := by
  cases op with
  | exist => exact absurd rfl noExist
  | isIn => exact ⟨.bigintAny column 1, fun params => rfl, rfl, rfl⟩
  | between =>
    obtain ⟨low, high, rfl⟩ := List.length_eq_two.mp fits
    refine ⟨.bigintBetween column 1 2, fun params => ?_, rfl, rfl⟩
    simp [bigintPredicate, bind, Condition.rename, Op.parameters]
  | compare comparison =>
    obtain ⟨value, rfl⟩ := List.length_eq_one_iff.mp fits
    exact ⟨.bigintCompare column comparison 1, fun params => rfl, rfl, rfl⟩

section Leaf

variable {field : Field} {op : Op} {values : List Scalar} (noExist : op ≠ .exist)

include noExist

theorem Predicate.compile_bigint (name : JsString) (params : List Param) :
    Predicate.compile params ⟨.column name .number, op, values⟩ =
      bigintPredicate params name op values := by
  simp only [compile]

theorem Predicate.compile_text (noInteger : ¬ ∃ name, field = .column name .number)
    (notTopics : throughTopics field op values = false) (params : List Param) :
    Predicate.compile params ⟨field, op, values⟩ =
      textPredicate (textExpr params field).2 (textExpr params field).1 op values := by
  simp only [compile]
  split
  next => exact absurd rfl noExist
  next => exact absurd ⟨_, rfl⟩ noInteger
  next => cases notTopics
  next => rfl

end Leaf

theorem Predicate.compile_shape {predicate : Predicate} (fits : Fits predicate.op predicate.values) :
    ∃ condition : Condition, (∀ params, predicate.compile params =
      some (condition.rename (params.length + ·), params ++ predicate.parameters)) ∧
        Numbered condition.placeholders predicate.parameters ∧
          condition.columns = predicate.field.columns := by
  obtain ⟨field, op, values⟩ := predicate
  obtain ⟨expr, expression, numbered, columns⟩ := textExpr_shape field
  by_cases exist : op = .exist
  · subst exist
    refine ⟨.isNotNull expr, fun params => ?_, ?_, columns⟩
    · simp [compile, expression, parameters, Op.parameters, Condition.rename]
    · simpa [parameters, Op.parameters, Condition.placeholders] using numbered
  by_cases integers : ∃ name, field = .column name .number
  · obtain ⟨name, rfl⟩ := integers
    obtain ⟨condition, compiled, own⟩ := bigintPredicate_shape fits exist name
    refine ⟨condition, fun params => ?_, own⟩
    rw [compile_bigint exist]
    exact compiled params
  by_cases through : throughTopics field op values = true
  · obtain ⟨units, rfl, rfl, rfl⟩ := throughTopics_eq_true through
    exact ⟨.topicEquals 1, fun params => rfl, rfl, rfl⟩
  obtain ⟨condition, compiled, own, same⟩ :=
    textPredicate_shape fits exist expr field.parameters.length
  refine ⟨condition, fun params => ?_, ?_, same.trans columns⟩
  · rw [compile_text exist integers (Bool.eq_false_of_not_eq_true through), expression,
      compiled _ params.length (List.length_append ..), parameters, List.append_assoc]
  · rw [Numbered, own, numbered, parameters, List.length_append,
      Nat.add_comm field.parameters.length 1, List.range'_append_1]

theorem fits_of_predicate? {source op value : Option Json} {predicate : Predicate}
    (parsed : predicate? source op value = some predicate) : Fits predicate.op predicate.values := by
  simp only [predicate?, Option.bind_eq_bind, Option.bind_eq_some_iff, Option.pure_def,
    Option.some.injEq] at parsed
  obtain ⟨field, -, op, -, values, found, rfl⟩ := parsed
  exact fits_of_operands found

/-! ### What a tree binds -/

def Node.parameters (node : Node) : List Param := node.predicates.flatMap Predicate.parameters

def Node.columns (node : Node) : List JsString :=
  node.predicates.flatMap fun predicate => predicate.field.columns

/-- A node compiles to one fragment, whose placeholders are renamed to where its
parameters are put. -/
structure Shaped (node : Node) (sql : Sql) : Prop where
  compiled : ∀ params, compile node params =
    some (sql.rename (params.length + ·), params ++ node.parameters)
  numbered : Numbered sql.placeholders node.parameters
  columns : sql.columns = node.columns

structure ShapedAll (nodes : List Node) (parts : List Sql) : Prop where
  compiled : ∀ params, compileAll nodes params =
    some (Sql.renameAll (params.length + ·) parts,
      params ++ (allPredicates nodes).flatMap Predicate.parameters)
  numbered : Numbered (Sql.allPlaceholders parts)
    ((allPredicates nodes).flatMap Predicate.parameters)
  columns : Sql.allColumns parts =
    (allPredicates nodes).flatMap fun predicate => predicate.field.columns

theorem shapedAll_of_shaped {nodes : List Node} (each : ∀ node ∈ nodes, ∃ sql, Shaped node sql) :
    ∃ parts, ShapedAll nodes parts := by
  induction nodes with
  | nil =>
    refine ⟨[], fun params => ?_, rfl, rfl⟩
    simp [compileAll, allPredicates, Sql.renameAll]
  | cons node nodes ih =>
    obtain ⟨⟨part, first⟩, rest⟩ := List.forall_mem_cons.mp each
    obtain ⟨parts, later⟩ := ih rest
    refine ⟨part :: Sql.renameAll (node.parameters.length + ·) parts, fun params => ?_, ?_, ?_⟩
    · simp only [compileAll, first.compiled, later.compiled, Option.bind_eq_bind,
        Option.bind_some, Option.pure_def, Sql.renameAll, Sql.renameAll_renameAll, allPredicates,
        List.flatMap_append, List.length_append, Nat.add_assoc]
      rw [Node.parameters, List.append_assoc]
    · rw [Numbered, Sql.allPlaceholders, Sql.allPlaceholders_renameAll, first.numbered,
        later.numbered, List.map_add_range', allPredicates, List.flatMap_append,
        List.length_append, ← Node.parameters, Nat.add_comm node.parameters.length 1,
        List.range'_append_1]
    · rw [Sql.allColumns, Sql.allColumns_renameAll, first.columns, later.columns, allPredicates,
        List.flatMap_append, Node.columns]

theorem compile_or {andKey : Branches Node} {nodes : List Node} {notKey : Option Node}
    {field op value : Option Json} (absent : andKey = .absent ∨ andKey = .null)
    (params : List Param) : compile (.object andKey (.list nodes) notKey field op value) params =
      (compileAll nodes params).map fun compiled => (.or compiled.1, compiled.2) := by
  rcases absent with rfl | rfl <;> simp [compile, Option.map_eq_bind]

theorem shaped_of_accepted {node : Node} (accepted : Accepted node) : ∃ sql, Shaped node sql := by
  induction accepted with
  | @every nodes orKey notKey field op value all ih =>
    obtain ⟨parts, shaped⟩ := shapedAll_of_shaped ih
    refine ⟨.and parts, fun params => ?_, ?_, ?_⟩
    · simp [compile, shaped.compiled, Node.parameters, Node.predicates, Sql.rename]
    · simpa [Node.parameters, Node.predicates, Sql.placeholders] using shaped.numbered
    · simpa [Node.columns, Node.predicates, Sql.columns] using shaped.columns
  | @any andKey nodes notKey field op value absent all ih =>
    obtain ⟨parts, shaped⟩ := shapedAll_of_shaped ih
    refine ⟨.or parts, fun params => ?_, ?_, ?_⟩
    · rw [compile_or absent, shaped.compiled, Node.parameters, predicates_or absent]
      rfl
    · simpa [Node.parameters, predicates_or absent, Sql.placeholders] using shaped.numbered
    · simpa [Node.columns, predicates_or absent, Sql.columns] using shaped.columns
  | @not node field op value inner ih =>
    obtain ⟨sql, shaped⟩ := ih
    have truthy := truthy_of_accepted inner
    refine ⟨.not sql, fun params => ?_, ?_, ?_⟩
    · simp [compile, truthy, shaped.compiled, Node.parameters, Node.predicates, Sql.rename]
    · simpa [Node.parameters, Node.predicates, Sql.placeholders] using shaped.numbered
    · simpa [Node.columns, Node.predicates, Sql.columns] using shaped.columns
  | @predicate source op value field parsedOp values parsed opParsed found =>
    have leaf : predicate? source op value = some ⟨field, parsedOp, values⟩ := by
      simp [predicate?, parsed, opParsed, found]
    obtain ⟨condition, compiled, numbered, columns⟩ :=
      @Predicate.compile_shape ⟨field, parsedOp, values⟩ (fits_of_operands found)
    refine ⟨.condition condition, fun params => ?_, ?_, ?_⟩
    · simp [compile, predicate_eq_compile, leaf, compiled, Node.parameters, Node.predicates,
        Sql.rename]
    · simpa [Node.parameters, Node.predicates, Sql.placeholders, leaf] using numbered
    · simpa [Node.columns, Node.predicates, Sql.columns, leaf] using columns

end SorobanExplorer.Filters
