import SorobanExplorer.Filters.Evaluate

/-!
Owns the SQL compiler of filters: the fragment `compileFilter` builds with its
bind parameters, and what PostgreSQL makes of the fragment on a row.

A fragment is kept as a tree; the placeholder `$n` is the number `n`. A compiler
that throws a `TypeError` is `none`.
-/

namespace SorobanExplorer.Filters

open Library
open Library.Postgres

/-! ### Fragments -/

inductive Param where
  | string (units : JsString)
  | list (items : List JsString)
deriving DecidableEq

/-- `textExpr` -/
inductive TextExpr where
  | column (column : JsString)
  | topic (index : Fin 4)
  | args (path : Nat)
deriving DecidableEq

/-- `predicate` -/
inductive Condition where
  | isNotNull (expr : TextExpr)
  | bigintAny (column : JsString) (list : Nat)
  | bigintBetween (column : JsString) (low high : Nat)
  | bigintCompare (column : JsString) (comparison : Comparison) (value : Nat)
  | topicEquals (value : Nat)
  | numericAny (expr : TextExpr) (list : Nat)
  | textAny (expr : TextExpr) (list : Nat)
  | numericBetween (expr : TextExpr) (low high : Nat)
  | textBetween (expr : TextExpr) (low high : Nat)
  | numericCompare (expr : TextExpr) (comparison : Comparison) (value : Nat)
  | textCompare (expr : TextExpr) (comparison : Comparison) (value : Nat)
deriving DecidableEq

inductive Sql where
  | condition (condition : Condition)
  | and (parts : List Sql)
  | or (parts : List Sql)
  | not (part : Sql)

/-! ### Compilation -/

/-- `bind`: the placeholder of a parameter put at the end of the list. -/
def bind (params : List Param) (param : Param) : Nat × List Param :=
  (params.length + 1, params ++ [param])

def textExpr (params : List Param) : Field → TextExpr × List Param
  | .column column _ => (.column column, params)
  | .topic index => (.topic index, params)
  | .args path =>
    let (placeholder, params) := bind params (.list (path.map Utf16.encode))
    (.args placeholder, params)

/-- `String(value)` -/
def Scalar.text (scalar : Scalar) : JsString := scalar.value.text

/-- `isNumericValue` -/
def isNumericValue (value : Scalar) : Bool := (expectedNumeric value).isSome

def bigintPredicate (params : List Param) (column : JsString) (op : Op) (values : List Scalar) :
    Option (Condition × List Param) :=
  match op, values with
  | .isIn, values =>
    let (list, params) := bind params (.list (values.map Scalar.text))
    some (.bigintAny column list, params)
  | .between, [low, high] =>
    let (lowest, params) := bind params (.string low.text)
    let (highest, params) := bind params (.string high.text)
    some (.bigintBetween column lowest highest, params)
  | .compare comparison, [value] =>
    let (placeholder, params) := bind params (.string value.text)
    some (.bigintCompare column comparison placeholder, params)
  | _, _ => none

def textPredicate (params : List Param) (expr : TextExpr) (op : Op) (values : List Scalar) :
    Option (Condition × List Param) :=
  match op, values with
  | .isIn, values =>
    let values := inList values
    let (list, params) := bind params (.list (values.map Scalar.text))
    some (if values.all isNumericValue then .numericAny expr list else .textAny expr list, params)
  | .between, [low, high] =>
    let (lowest, params) := bind params (.string low.text)
    let (highest, params) := bind params (.string high.text)
    some (if isNumericValue low && isNumericValue high then .numericBetween expr lowest highest
      else .textBetween expr lowest highest, params)
  | .compare comparison, [value] =>
    let (placeholder, params) := bind params (.string value.text)
    some (if isNumericValue value then .numericCompare expr comparison placeholder
      else .textCompare expr comparison placeholder, params)
  | _, _ => none

def operands (op : Op) (value : Option Json) : Option (List Scalar) :=
  match op with
  | .exist => some []
  | .isIn => scalars? value
  | .between =>
    match scalars? value with
    | some [low, high] => some [low, high]
    | _ => none
  | .compare _ => (value.bind scalar?).map fun value => [value]

/-- `predicate` -/
def predicate (params : List Param) (field op value : Option Json) :
    Option (Condition × List Param) := do
  let field ← parseField field
  let op ← parseOp op
  let values ← operands op value
  match field, op, values with
  | field, .exist, _ =>
    let (expr, params) := textExpr params field
    pure (.isNotNull expr, params)
  | .column column .number, op, values => bigintPredicate params column op values
  | .topic 0, .compare .eq, [.string units] =>
    let (placeholder, params) := bind params (.string units)
    pure (.topicEquals placeholder, params)
  | field, op, values =>
    let (expr, params) := textExpr params field
    textPredicate params expr op values

mutual

/-- `walk` -/
def compile : Node → List Param → Option (Sql × List Param)
  | .other _, _ => none
  | .object (.list nodes) _ _ _ _ _, params => do
      let (parts, params) ← compileAll nodes params
      pure (.and parts, params)
  | .object (.other true) _ _ _ _ _, _ => none
  | .object _ (.list nodes) _ _ _ _, params => do
      let (parts, params) ← compileAll nodes params
      pure (.or parts, params)
  | .object _ (.other true) _ _ _ _, _ => none
  | .object _ _ (some node) field op value, params =>
    if node.truthy then do
      let (part, params) ← compile node params
      pure (.not part, params)
    else do
      let (condition, params) ← predicate params field op value
      pure (.condition condition, params)
  | .object _ _ none field op value, params => do
      let (condition, params) ← predicate params field op value
      pure (.condition condition, params)

def compileAll : List Node → List Param → Option (List Sql × List Param)
  | [], params => some ([], params)
  | node :: nodes, params => do
      let (part, params) ← compile node params
      let (parts, params) ← compileAll nodes params
      pure (part :: parts, params)

end

/-- `compileFilter` -/
def compileFilter (ast : Node) (params : List Param) : Option (Sql × List Param) :=
  compile ast params

/-! ### Rows -/

/-- A row of `events`, by the columns a fragment can name. -/
structure Row where
  contract_id : List Char
  function : List Char
  tx_hash : Option (List Char)
  ledger : Int
  seq : Int
  raw_topics : Option (List (List Char))
  raw_data : Option (List Char)

def EventRecord.row (event : EventRecord) : Row where
  contract_id := event.contract_id.chars
  function := event.function.chars
  tx_hash := event.tx_hash.map Text.chars
  ledger := event.ledger.stored
  seq := event.seq.stored
  raw_topics := event.raw_topics.map fun topics => topics.map Text.chars
  raw_data := event.raw_data.map Text.chars

/-- `explorer_try_jsonb` -/
def explorer_try_jsonb (input : Option (List Char)) : Option Jsonb :=
  input.bind fun text => (Json.parse? text).bind jsonb?

/-- `explorer_numeric` -/
def explorer_numeric (input : Option (List Char)) : Except SqlError (Option ℚ) :=
  match input with
  | none => pure none
  | some text =>
    match Numeral.recognize text with
    | some _ => (numericIn text).map some
    | none => pure none

/-! ### Evaluation -/

def sentText (units : JsString) : Except SqlError (List Char) := textIn (Utf16.decode units)

def paramText (params : List Param) (placeholder : Nat) : Except SqlError (List Char) :=
  match params[placeholder - 1]? with
  | some (.string units) => sentText units
  | _ => throw .invalidTextRepresentation

def paramTexts (params : List Param) (placeholder : Nat) : Except SqlError (List (List Char)) :=
  match params[placeholder - 1]? with
  | some (.list items) => items.mapM sentText
  | _ => throw .invalidTextRepresentation

def paramInt8 (params : List Param) (placeholder : Nat) : Except SqlError Int := do
  int8In (← paramText params placeholder)

def paramNumeric (params : List Param) (placeholder : Nat) : Except SqlError ℚ := do
  numericIn (← paramText params placeholder)

def Row.textColumn (row : Row) (column : JsString) : Except SqlError (Option (List Char)) :=
  if column = js "contract_id" then pure (some row.contract_id)
  else if column = js "function" then pure (some row.function)
  else if column = js "tx_hash" then pure row.tx_hash
  else throw .undefinedColumn

def Row.intColumn (row : Row) (column : JsString) : Except SqlError Int :=
  if column = js "ledger" then pure row.ledger
  else if column = js "seq" then pure row.seq
  else throw .undefinedColumn

def TextExpr.value (expr : TextExpr) (params : List Param) (row : Row) :
    Except SqlError (Option (List Char)) :=
  match expr with
  | .column name => row.textColumn name
  | .topic index => pure (row.raw_topics.bind fun topics => topics[index.val]?)
  | .args path => do
      let path ← paramTexts params path
      pure (((explorer_try_jsonb row.raw_data).bind fun data => data.extract? path).bind
        Jsonb.asText?)

/-- `IS NOT NULL` of a column or a text expression. -/
def TextExpr.present (expr : TextExpr) (params : List Param) (row : Row) :
    Except SqlError Bool :=
  match expr with
  | .column name =>
    if name = js "ledger" ∨ name = js "seq" then pure true
    else do pure (← row.textColumn name).isSome
  | expr => do pure (← expr.value params row).isSome

def Condition.value (condition : Condition) (params : List Param) (row : Row) :
    Except SqlError Truth :=
  match condition with
  | .isNotNull expr => do pure (some (← expr.present params row))
  | .bigintAny column list => do
      let values ← (← paramTexts params list).mapM int8In
      pure (some (values.contains (← row.intColumn column)))
  | .bigintBetween column low high => do
      let low ← paramInt8 params low
      let high ← paramInt8 params high
      let value ← row.intColumn column
      pure (some (low ≤ value && value ≤ high))
  | .bigintCompare column comparison value => do
      let value ← paramInt8 params value
      pure (some (comparison.holds (Ord.compare (← row.intColumn column) value)))
  | .topicEquals value => do
      let value ← paramText params value
      pure (strict (row.raw_topics.bind fun topics => topics[0]?) fun topic => topic = value)
  | .numericAny expr list => do
      let values ← (← paramTexts params list).mapM numericIn
      let value ← explorer_numeric (← expr.value params row)
      pure (strict value fun value => values.contains value)
  | .textAny expr list => do
      let values ← paramTexts params list
      pure (strict (← expr.value params row) fun value => values.contains value)
  | .numericBetween expr low high => do
      let low ← paramNumeric params low
      let high ← paramNumeric params high
      let value ← explorer_numeric (← expr.value params row)
      pure (strict value fun value => low ≤ value && value ≤ high)
  | .textBetween expr low high => do
      let low ← paramText params low
      let high ← paramText params high
      pure (strict (← expr.value params row) fun value =>
        (Ord.compare value low).isGE && (Ord.compare value high).isLE)
  | .numericCompare expr comparison value => do
      let bound ← paramNumeric params value
      let value ← explorer_numeric (← expr.value params row)
      pure (strict value fun value => comparison.holds (Ord.compare value bound))
  | .textCompare expr comparison value => do
      let bound ← paramText params value
      pure (strict (← expr.value params row) fun value =>
        comparison.holds (Ord.compare value bound))

mutual

/-- A fragment on a row. An error anywhere fails the statement: PostgreSQL does
not promise an order in which `AND` and `OR` look at their operands. -/
def Sql.value (params : List Param) (row : Row) : Sql → Except SqlError Truth
  | .condition leaf => leaf.value params row
  | .and parts => do pure ((← Sql.values params row parts).foldr Truth.and (some true))
  | .or parts => do pure ((← Sql.values params row parts).foldr Truth.or (some false))
  | .not part => do pure (Truth.notTrue (← Sql.value params row part))

def Sql.values (params : List Param) (row : Row) : List Sql → Except SqlError (List Truth)
  | [] => pure []
  | part :: parts => do
      let first ← Sql.value params row part
      let rest ← Sql.values params row parts
      pure (first :: rest)

end

def filterTruth (ast : Node) (row : Row) : Option (Except SqlError Truth) :=
  (compileFilter ast []).map fun compiled => compiled.1.value compiled.2 row

/-- The fragment is `TRUE` on the row: not `FALSE`, not `NULL` and not an error. -/
def selects (ast : Node) (row : Row) : Prop := filterTruth ast row = some (.ok (some true))

end SorobanExplorer.Filters
