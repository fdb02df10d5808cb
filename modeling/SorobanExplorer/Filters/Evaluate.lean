import SorobanExplorer.Filters.Ast
import SorobanExplorer.Library.Postgres

/-!
Owns the in-memory evaluator of filters: the event record, the value a field
has in it, `compare`, `inList` and `evaluateFilter`.

An evaluator that throws a `TypeError` is `none`.
-/

namespace SorobanExplorer.Filters

open Library
open Library.Postgres (Text int8In)

/-! ### Event records -/

/-- A number of an event record: a JavaScript number, or the text the database
driver reads a `bigint` as. -/
inductive RecordInteger where
  | number (value : JsNumber)
  | text (units : JsString)

def RecordInteger.value : RecordInteger → JsValue
  | .number value => .number value
  | .text units => .string units

/-- A record's number with the `bigint` it is stored as: the column is written
from `String(value)`. -/
structure StoredInteger where
  recorded : RecordInteger
  stored : Int
  reads : int8In (Utf16.decode recorded.value.text) = .ok stored
  finite : ∀ value, recorded = .number value → value.isFinite = true

/-- An event as the decoder makes it, with the columns a filter can name. A text
is what a `TEXT` column can hold; topics are strings. -/
structure EventRecord where
  contract_id : Text
  function : Text
  tx_hash : Option Text
  ledger : StoredInteger
  seq : StoredInteger
  raw_topics : Option (List Text)
  raw_data : Option Text

def textValue (text : Text) : JsValue := .string (Utf16.encode text.chars)

/-- A text of the record, `undefined` if it is missing. -/
def textValue? (text : Option Text) : JsValue := (text.map textValue).getD .undefined

/-- `event[column]`: a name that is no column of the record is looked up on
`Object.prototype`. -/
def EventRecord.column (event : EventRecord) (column : JsString) : JsValue :=
  if column = js "contract_id" then textValue event.contract_id
  else if column = js "function" then textValue event.function
  else if column = js "tx_hash" then textValue? event.tx_hash
  else if column = js "ledger" then event.ledger.recorded.value
  else if column = js "seq" then event.seq.recorded.value
  else if column = js "__proto__" then .objectPrototype
  else JsValue.fromObjectPrototype column

/-- `JSON.parse(event.raw_data)`, `undefined` where there is none or it fails. -/
def EventRecord.data (event : EventRecord) : JsValue :=
  match event.raw_data with
  | some data => ((Json.parse? data.chars).map JsValue.ofJson).getD .undefined
  | none => .undefined

def follow (value : JsValue) (path : List (List Char)) : JsValue :=
  path.foldl (fun value key =>
    if value.isObject then value.get (Utf16.encode key) else .undefined) value

/-- `fieldValue` -/
def fieldValue (event : EventRecord) : Field → JsValue
  | .column column _ => event.column column
  | .topic index => textValue? ((event.raw_topics.getD [])[index.val]?)
  | .args path => follow event.data path

/-! ### Comparison -/

/-- `numeric(value)` with the value: a finite number, or a string that is a
numeral. -/
def numeric (value : JsValue) : Option JsValue :=
  match value with
  | .number number => if number.isFinite then some value else none
  | .string units => (Numeral.recognize (Utf16.decode units)).map fun _ => value
  | _ => none

/-- `BigInt(String(value))` where `/^-?\d+$/` matches. -/
def bigInt? (value : JsValue) : Option Int :=
  match Numeral.recognize (Utf16.decode value.text) with
  | some numeral => if numeral.integral then some numeral.integer else none
  | none => none

/-- `Number(value)`, of a numeric value. -/
def toNumber (value : JsValue) : JsNumber :=
  match value with
  | .number number => number
  | .string units =>
    ((Numeral.recognize (Utf16.decode units)).map JsNumber.ofNumeral).getD (.ofRat 0)
  | _ => .ofRat 0

/-- `cmpNumeric` -/
def cmpNumeric (left right : JsValue) : Ordering :=
  match bigInt? left, bigInt? right with
  | some left, some right => Ord.compare left right
  | _, _ => Ord.compare (toNumber left).value (toNumber right).value

def Comparison.holds (comparison : Comparison) (order : Ordering) : Bool :=
  match comparison with
  | .eq => order.isEq
  | .ne => order.isNe
  | .gt => order.isGT
  | .gte => order.isGE
  | .lt => order.isLT
  | .lte => order.isLE

/-- `numeric(expected)`, unless it is a boolean. -/
def expectedNumeric (expected : Scalar) : Option JsValue :=
  match expected with
  | .boolean _ => none
  | expected => numeric expected.value

/-- `compare` -/
def compare (comparison : Comparison) (actual : JsValue) (expected : Scalar) : Bool :=
  match actual with
  | .undefined | .null => false
  | actual =>
    if actual.isObject then false
    else match expectedNumeric expected with
      | some expected =>
        match numeric actual with
        | some actual => comparison.holds (cmpNumeric actual expected)
        | none => false
      | none => comparison.holds (Ord.compare actual.text expected.value.text)

/-- `inList` -/
def inList (values : List Scalar) : List Scalar :=
  if values.all fun value => (expectedNumeric value).isSome then values
  else values.map fun value => .string value.value.text

/-! ### Evaluation -/

def evaluatePredicate (event : EventRecord) (field op value : Option Json) : Option Bool := do
  let field ← parseField field
  let actual := fieldValue event field
  match ← parseOp op with
  | .exist =>
    match actual with
    | .undefined | .null => pure false
    | _ => pure true
  | .isIn => do
      let values ← scalars? value
      pure ((inList values).any (compare .eq actual))
  | .between =>
    match ← scalars? value with
    | [low, high] => pure (compare .gte actual low && compare .lte actual high)
    | _ => none
  | .compare comparison => do
      let value ← value.bind scalar?
      pure (compare comparison actual value)

def Node.truthy : Node → Bool
  | .other truthy => truthy
  | .object .. => true

mutual

/-- `evaluateFilter(ast)(event)` -/
def evaluateFilter (event : EventRecord) : Node → Option Bool
  | .other _ => none
  | .object (.list nodes) _ _ _ _ _ => every event nodes
  | .object (.other true) _ _ _ _ _ => none
  | .object _ (.list nodes) _ _ _ _ => any event nodes
  | .object _ (.other true) _ _ _ _ => none
  | .object _ _ (some node) field op value =>
    if node.truthy then (evaluateFilter event node).map not
    else evaluatePredicate event field op value
  | .object _ _ none field op value => evaluatePredicate event field op value

/-- `fs.every((f) => f(e))` -/
def every (event : EventRecord) : List Node → Option Bool
  | [] => some true
  | node :: nodes =>
    match evaluateFilter event node with
    | some true => every event nodes
    | result => result

/-- `fs.some((f) => f(e))` -/
def any (event : EventRecord) : List Node → Option Bool
  | [] => some false
  | node :: nodes =>
    match evaluateFilter event node with
    | some false => any event nodes
    | result => result

end

end SorobanExplorer.Filters
