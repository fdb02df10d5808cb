import SorobanExplorer.Filters.JsValue

/-!
Owns the filter AST: the nodes a client sends, the fields and operators they
name, and `validateFilter` with its limits and messages.
-/

namespace SorobanExplorer.Filters

open Library

/-! ### Limits -/

def maxNodes : Nat := 64
def maxDepth : Nat := 8
def maxIn : Nat := 100
def maxPathDepth : Nat := 8
def maxString : Nat := 256

/-! ### Fields -/

/-- `COLUMN_FIELDS[field]`; a name `Object.prototype` has is neither text nor
number. -/
inductive ColumnType where
  | text
  | number
  | inherited
deriving DecidableEq

inductive Field where
  | column (column : JsString) (type : ColumnType)
  | topic (index : Fin 4)
  | args (path : List (List Char))
deriving DecidableEq

/-- `field in COLUMN_FIELDS` with the value found there. -/
def columnType? (field : JsString) : Option ColumnType :=
  if field = js "contract_id" ∨ field = js "function" ∨ field = js "tx_hash" then some .text
  else if field = js "ledger" ∨ field = js "seq" then some .number
  else if JsValue.inherited field then some .inherited
  else none

/-- `TOPIC_RE` -/
def topic? (field : List Char) : Option (Fin 4) :=
  match field with
  | ['t', 'o', 'p', 'i', 'c', '[', digit, ']'] =>
    if h : 48 ≤ digit.toNat ∧ digit.toNat - 48 < 4 then some ⟨digit.toNat - 48, h.2⟩ else none
  | _ => none

/-- `[A-Za-z_][A-Za-z0-9_]{0,63}` or `\d{1,4}` -/
def isSegment (segment : List Char) : Bool :=
  match segment with
  | [] => false
  | first :: rest =>
    ((first.isAlpha || first = '_') && rest.length ≤ 63 &&
      rest.all fun char => char.isAlphanum || char = '_') ||
    (segment.all Char.isDigit && segment.length ≤ 4)

/-- `ARGS_RE` and the split of its group at the dots. -/
def args? (field : List Char) : Option (List (List Char)) :=
  match field with
  | 'a' :: 'r' :: 'g' :: 's' :: '.' :: rest =>
    if (rest.splitOn '.').all isSegment then some (rest.splitOn '.') else none
  | _ => none

/-- `parseField`, of a string. -/
def parseFieldString (field : JsString) : Option Field :=
  match columnType? field with
  | some type => some (.column field type)
  | none =>
    match topic? (Utf16.decode field) with
    | some index => some (.topic index)
    | none =>
      match args? (Utf16.decode field) with
      | some path => if path.length > maxPathDepth then none else some (.args path)
      | none => none

/-- `parseField` -/
def parseField : Option Json → Option Field
  | some (.string field) => parseFieldString field
  | _ => none

/-! ### Operators -/

/-- The operators `compare` and `SQL_OPS` know. -/
inductive Comparison where
  | eq
  | ne
  | gt
  | gte
  | lt
  | lte
deriving DecidableEq

inductive Op where
  | compare (comparison : Comparison)
  | isIn
  | between
  | exist
deriving DecidableEq

/-- `OPS.includes(op)` with the operator. -/
def parseOp : Option Json → Option Op
  | some (.string op) =>
    if op = js "eq" then some (.compare .eq)
    else if op = js "ne" then some (.compare .ne)
    else if op = js "gt" then some (.compare .gt)
    else if op = js "gte" then some (.compare .gte)
    else if op = js "lt" then some (.compare .lt)
    else if op = js "lte" then some (.compare .lte)
    else if op = js "in" then some .isIn
    else if op = js "between" then some .between
    else if op = js "exists" then some .exist
    else none
  | _ => none

/-! ### Values -/

/-- A value `isScalar` accepts. -/
inductive Scalar where
  | string (units : JsString)
  | number (value : JsNumber) (finite : value.isFinite = true)
  | boolean (value : Bool)
deriving DecidableEq

def Scalar.value : Scalar → JsValue
  | .string units => .string units
  | .number value _ => .number value
  | .boolean value => .boolean value

/-- `isScalar(value)` with the scalar. -/
def scalar? : Json → Option Scalar
  | .string units => if units.length ≤ maxString then some (.string units) else none
  | .number numeral =>
    if finite : (JsNumber.ofNumeral numeral).isFinite = true then
      some (.number (.ofNumeral numeral) finite)
    else none
  | .boolean value => some (.boolean value)
  | _ => none

/-- `Array.isArray(value) && value.every(isScalar)` with the scalars. -/
def scalars? : Option Json → Option (List Scalar)
  | some (.array items) => items.mapM scalar?
  | _ => none

/-- `/^-?\d{1,19}$/.test(String(value))`, of a value that is not a boolean. -/
def Scalar.isInteger : Scalar → Bool
  | .boolean _ => false
  | scalar =>
    match Numeral.recognize (Utf16.decode scalar.value.text) with
    | some numeral => numeral.integral && numeral.whole.list.length ≤ 19
    | none => false

/-! ### Nodes -/

/-- The value of a node's `and` or `or` property. -/
inductive Branches (α : Type) where
  | absent
  | null
  | list (nodes : List α)
  | other (truthy : Bool)

/-- A JSON value as the walks over the AST see it: a value that is not a plain
object, or an object by the six properties they read. -/
inductive Node where
  | other (truthy : Bool)
  | object (andKey orKey : Branches Node) (notKey : Option Node) (field op value : Option Json)

/-! ### Messages -/

inductive Thrown where
  | filterError (message : JsString)
  | typeError
deriving DecidableEq

mutual

/-- `String(value)`. An object with an own `toString` cannot be converted: the
property is not a function and `valueOf` yields the object itself. -/
def stringOf : Json → Except Thrown JsString
  | .null => pure (js "null")
  | .boolean value => pure (Utf16.encode (JsValue.booleanText value))
  | .number numeral => pure (Utf16.encode (JsNumber.ofNumeral numeral).text)
  | .string units => pure units
  | .array items => do pure ((js ",").intercalate (← joined items))
  | .object members =>
    match Json.lookup members (js "toString") with
    | some _ => throw .typeError
    | none => pure (js "[object Object]")

/-- The texts `Array.prototype.join` puts together. -/
def joined : List Json → Except Thrown (List JsString)
  | [] => pure []
  | .null :: items => do pure ([] :: (← joined items))
  | item :: items => do
      let first ← stringOf item
      pure (first :: (← joined items))

end

/-- `String(value)` of a property that may be missing. -/
def stringOfProperty : Option Json → Except Thrown JsString
  | none => pure (js "undefined")
  | some value => stringOf value

/-! ### Validation -/

def validateValues (field : Field) (fieldText opText : JsString) (op : Op) (value : Option Json) :
    Except Thrown Unit := do
  let integers (values : List Scalar) : Except Thrown Unit :=
    match field with
    | .column _ .number =>
      if values.all Scalar.isInteger then pure ()
      else throw (.filterError (fieldText ++ js " compares integers"))
    | _ => pure ()
  match op with
  | .exist => pure ()
  | .isIn =>
    match scalars? value with
    | some values =>
      if 1 ≤ values.length ∧ values.length ≤ maxIn then integers values
      else throw (.filterError (js "in needs 1..100 scalar values"))
    | none => throw (.filterError (js "in needs 1..100 scalar values"))
  | .between =>
    match scalars? value with
    | some [low, high] => integers [low, high]
    | _ => throw (.filterError (js "between needs [low, high]"))
  | .compare _ =>
    match value.bind scalar? with
    | some scalar => integers [scalar]
    | none => throw (.filterError
        (fieldText ++ js " " ++ opText ++ js " needs a string, number or boolean"))

/-- `walk`, at a node that is a predicate. -/
def validatePredicate (field op value : Option Json) : Except Thrown Unit := do
  match parseField field with
  | none => throw (.filterError (js "unknown field: " ++ (← stringOfProperty field).take 64))
  | some parsed =>
    match parseOp op with
    | none => throw (.filterError (js "unknown operator: " ++ (← stringOfProperty op).take 16))
    | some parsedOp =>
      validateValues parsed (← stringOfProperty field) (← stringOfProperty op) parsedOp value

def enter (depth count : Nat) : Except Thrown Nat :=
  if count + 1 > maxNodes then throw (.filterError (js "filter has more than 64 nodes"))
  else if depth > maxDepth then throw (.filterError (js "filter nests deeper than 8"))
  else pure (count + 1)

def noList : Thrown := .filterError (js "and/or needs a non-empty array")

mutual

/-- `walk`, with the number of nodes counted before and after. -/
def walk : Node → Nat → Nat → Except Thrown Nat
  | .other _, depth, count => do
      let _ ← enter depth count
      throw (.filterError (js "filter node must be an object"))
  | .object (.list nodes) _ _ _ _ _, depth, count => do
      let count ← enter depth count
      if nodes.isEmpty then throw noList
      walkAll nodes (depth + 1) count
  | .object (.other _) _ _ _ _ _, depth, count => do
      let _ ← enter depth count
      throw noList
  -- `n.and ?? n.or`: only a missing or null `and` leaves the choice to `or`.
  | .object _ (.list nodes) _ _ _ _, depth, count => do
      let count ← enter depth count
      if nodes.isEmpty then throw noList
      walkAll nodes (depth + 1) count
  | .object .absent .absent (some node) _ _ _, depth, count => do
      let count ← enter depth count
      walk node (depth + 1) count
  | .object .absent .absent none field op value, depth, count => do
      let count ← enter depth count
      validatePredicate field op value
      pure count
  | .object _ _ _ _ _ _, depth, count => do
      let _ ← enter depth count
      throw noList

def walkAll : List Node → Nat → Nat → Except Thrown Nat
  | [], _, count => pure count
  | node :: nodes, depth, count => do
      let count ← walk node depth count
      walkAll nodes depth count

end

/-- `validateFilter` -/
def validateFilter (node : Node) : Except Thrown Node := do
  let _ ← walk node 0 0
  pure node

end SorobanExplorer.Filters
