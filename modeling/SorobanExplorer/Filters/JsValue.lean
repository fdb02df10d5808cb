import SorobanExplorer.Library.Json
import SorobanExplorer.Library.JsNumber

/-!
Owns the JavaScript values a filter meets: what `JSON.parse` yields, the
properties such values inherit, property access and `String(value)`.
-/

namespace SorobanExplorer.Filters

open Library

abbrev JsString := List UInt16

instance JsString.lawful : LawfulBEq JsString := List.instLawfulBEq

def js (literal : String) : JsString := Utf16.encode literal.toList

/-- A value. Arrays and objects hold the trees of their members, which are read
one level at a time. -/
inductive JsValue where
  | undefined
  | null
  | boolean (value : Bool)
  | number (value : JsNumber)
  | string (units : JsString)
  | array (items : List Json)
  | object (members : List (JsString × Json))
  | function (name : JsString)
  | objectPrototype
  | arrayPrototype

namespace JsValue

/-- What `JSON.parse` makes of a tree. -/
def ofJson : Json → JsValue
  | .null => .null
  | .boolean value => .boolean value
  | .number numeral => .number (.ofNumeral numeral)
  | .string units => .string units
  | .array items => .array items
  | .object members => .object members

/-- `typeof value === "object"`, for a value that is not `null`. -/
def isObject : JsValue → Bool
  | .array _ | .object _ | .objectPrototype | .arrayPrototype => true
  | _ => false

/-! ### Inherited properties -/

/-- The methods of `Object.prototype`. -/
def objectMethods : List JsString :=
  [js "hasOwnProperty", js "isPrototypeOf", js "propertyIsEnumerable", js "toLocaleString",
    js "toString", js "valueOf", js "__defineGetter__", js "__defineSetter__",
    js "__lookupGetter__", js "__lookupSetter__"]

/-- The methods of `Array.prototype`. -/
def arrayMethods : List JsString :=
  [js "at", js "concat", js "copyWithin", js "entries", js "every", js "fill", js "filter",
    js "find", js "findIndex", js "findLast", js "findLastIndex", js "flat", js "flatMap",
    js "forEach", js "includes", js "indexOf", js "join", js "keys", js "lastIndexOf", js "map",
    js "pop", js "push", js "reduce", js "reduceRight", js "reverse", js "shift", js "slice",
    js "some", js "sort", js "splice", js "toLocaleString", js "toReversed", js "toSorted",
    js "toSpliced", js "toString", js "unshift", js "values", js "with"]

/-- `key in {}` -/
def inherited (key : JsString) : Bool :=
  key = js "constructor" || key = js "__proto__" || objectMethods.contains key

/-- A property found on `Object.prototype`, `__proto__` apart. -/
def fromObjectPrototype (key : JsString) : JsValue :=
  if key = js "constructor" then .function (js "Object")
  else if objectMethods.contains key then .function key
  else .undefined

/-- A property found on `Array.prototype` or after it, `__proto__` and `length`
apart. -/
def fromArrayPrototype (key : JsString) : JsValue :=
  if key = js "constructor" then .function (js "Array")
  else if arrayMethods.contains key then .function key
  else fromObjectPrototype key

def index? (key : JsString) : Option Nat :=
  match (Utf16.decode key).mapM Digit.ofChar? with
  | some (first :: rest) =>
    if first = 0 ∧ rest ≠ [] then none else some (Digit.number (first :: rest))
  | _ => none

/-- `value[key]`, for an object. -/
def get (value : JsValue) (key : JsString) : JsValue :=
  match value with
  | .object members =>
    match Json.lookup members key with
    | some member => ofJson member
    | none => if key = js "__proto__" then .objectPrototype else fromObjectPrototype key
  | .array items =>
    match index? key with
    | some index => (items[index]?.map ofJson).getD .undefined
    | none =>
      if key = js "length" then .number (.ofRat items.length)
      else if key = js "__proto__" then .arrayPrototype
      else fromArrayPrototype key
  | .objectPrototype => if key = js "__proto__" then .null else fromObjectPrototype key
  | .arrayPrototype =>
    if key = js "length" then .number (.ofRat 0)
    else if key = js "__proto__" then .objectPrototype
    else fromArrayPrototype key
  | _ => .undefined

/-! ### Text -/

def booleanText (value : Bool) : List Char :=
  if value then ['t', 'r', 'u', 'e'] else ['f', 'a', 'l', 's', 'e']

/-- `String(value)` of a value that is not an object. -/
def text : JsValue → JsString
  | .undefined => js "undefined"
  | .null => js "null"
  | .boolean value => Utf16.encode (booleanText value)
  | .number value => Utf16.encode value.text
  | .string units => units
  | .function name => js "function " ++ name ++ js "() \x7b [native code] \x7d"
  | _ => []

end JsValue

end SorobanExplorer.Filters
