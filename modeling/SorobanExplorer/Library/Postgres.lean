import SorobanExplorer.Library.Json

/-!
Owns the PostgreSQL values and operators a filter fragment uses: text, `bigint`,
`numeric`, `jsonb`, and the three-valued logic of conditions.

A `numeric` is its exact value. Text is compared as under the C collation: the
bytes of UTF-8 are in the order of the code points.
-/

namespace SorobanExplorer.Library.Postgres

inductive SqlError where
  | undefinedColumn
  | characterNotInRepertoire
  | invalidTextRepresentation
  | numericValueOutOfRange
deriving DecidableEq

structure Text where
  chars : List Char
  noNul : Char.ofNat 0 ∉ chars
deriving DecidableEq

def textIn (chars : List Char) : Except SqlError (List Char) :=
  if Char.ofNat 0 ∈ chars then throw .characterNotInRepertoire else pure chars

/-! ### Numbers -/

/-- `bigint` input. -/
def int8In (text : List Char) : Except SqlError Int :=
  match Numeral.recognize text with
  | some numeral =>
    if numeral.integral then
      if -(2 ^ 63) ≤ numeral.integer ∧ numeral.integer < 2 ^ 63 then pure numeral.integer
      else throw .numericValueOutOfRange
    else throw .invalidTextRepresentation
  | none => throw .invalidTextRepresentation

/-- `numeric` holds up to 131072 digits before the point and 16383 after it; its
input also refuses exponents of a magnitude from `2 ^ 30 - 1` on. -/
def numericRange (numeral : Numeral) : Bool :=
  numeral.exponentValue.natAbs < 2 ^ 30 - 1 && (-numeral.power).toNat ≤ 16383 &&
    (numeral.coefficient = 0 || |numeral.value| < 10 ^ 131072)

/-- `numeric` input. -/
def numericIn (text : List Char) : Except SqlError ℚ :=
  match Numeral.recognize text with
  | some numeral =>
    if numericRange numeral then pure numeral.value else throw .numericValueOutOfRange
  | none => throw .invalidTextRepresentation

/-- `numeric` output of the value a numeral was read as: all its places, no
exponent, and no sign at zero. -/
def numericOut (numeral : Numeral) : List Char := numeral.expanded.text

/-! ### Conditions -/

/-- `TRUE`, `FALSE` or `NULL`. -/
abbrev Truth := Option Bool

namespace Truth

def and : Truth → Truth → Truth
  | some false, _ | _, some false => some false
  | some true, some true => some true
  | _, _ => none

def or : Truth → Truth → Truth
  | some true, _ | _, some true => some true
  | some false, some false => some false
  | _, _ => none

/-- `NOT COALESCE(truth, FALSE)` -/
def notTrue (truth : Truth) : Truth := some (!truth.getD false)

theorem and_eq_true (left right : Truth) :
    and left right = some true ↔ left = some true ∧ right = some true := by
  rcases left with _ | _ | _ <;> rcases right with _ | _ | _ <;> simp [and]

theorem or_eq_true (left right : Truth) :
    or left right = some true ↔ left = some true ∨ right = some true := by
  rcases left with _ | _ | _ <;> rcases right with _ | _ | _ <;> simp [or]

theorem notTrue_eq_true (truth : Truth) : notTrue truth = some true ↔ truth ≠ some true := by
  rcases truth with _ | _ | _ <;> simp [notTrue]

end Truth

/-- A strict operator: `NULL` of a missing operand. -/
def strict {α : Type} (operand : Option α) (test : α → Bool) : Truth := operand.map test

theorem strict_eq_true {α : Type} (operand : Option α) (test : α → Bool) :
    strict operand test = some true ↔ ∃ value, operand = some value ∧ test value = true := by
  cases operand <;> simp [strict]

/-! ### `jsonb` -/

/-- A `jsonb` value; a number is the numeral it was read from. -/
inductive Jsonb where
  | null
  | boolean (value : Bool)
  | numeric (numeral : Numeral)
  | string (chars : List Char)
  | array (items : List Jsonb)
  | object (members : List (List Char × Jsonb))

def jsonbString? (units : List UInt16) : Option (List Char) :=
  if Utf16.WellFormed units ∧ Char.ofNat 0 ∉ Utf16.decode units then some (Utf16.decode units)
  else none

mutual

/-- `jsonb` input of a tree, or nothing where it fails. -/
def jsonb? : Json → Option Jsonb
  | .null => some .null
  | .boolean value => some (.boolean value)
  | .number numeral => if numericRange numeral then some (.numeric numeral) else none
  | .string units => (jsonbString? units).map .string
  | .array items => (jsonbItems? items).map .array
  | .object members => (jsonbMembers? members).map .object

def jsonbItems? : List Json → Option (List Jsonb)
  | [] => some []
  | item :: items => do
      let first ← jsonb? item
      let rest ← jsonbItems? items
      pure (first :: rest)

def jsonbMembers? : List (List UInt16 × Json) → Option (List (List Char × Jsonb))
  | [] => some []
  | (key, value) :: members => do
      let first ← jsonbString? key
      let item ← jsonb? value
      let rest ← jsonbMembers? members
      pure ((first, item) :: rest)

end

namespace Jsonb

def subscript? (step : List Char) : Option Nat :=
  match step.mapM Digit.ofChar? with
  | some (first :: rest) => some (Digit.number (first :: rest))
  | _ => none

/-- One step of `#>>`, for steps without a sign. -/
def step? (value : Jsonb) (step : List Char) : Option Jsonb :=
  match value with
  | .object members => Json.lookup members step
  | .array items => (subscript? step).bind fun index => items[index]?
  | _ => none

def extract? (value : Jsonb) : List (List Char) → Option Jsonb
  | [] => some value
  | step :: path => (value.step? step).bind fun next => next.extract? path

/-! ### Output -/

def hexDigit (value : Nat) : Char := Char.ofNat (if value < 10 then 48 + value else 87 + value)

def escaped (char : Char) : List Char :=
  if char = '"' then ['\\', '"']
  else if char = '\\' then ['\\', '\\']
  else if char.toNat = 0x08 then ['\\', 'b']
  else if char.toNat = 0x0C then ['\\', 'f']
  else if char = '\n' then ['\\', 'n']
  else if char = '\r' then ['\\', 'r']
  else if char = '\t' then ['\\', 't']
  else if char.toNat < 0x20 then
    ['\\', 'u', '0', '0', hexDigit (char.toNat / 16), hexDigit (char.toNat % 16)]
  else [char]

def quoted (chars : List Char) : List Char := '"' :: (chars.flatMap escaped ++ ['"'])

def byteLength (chars : List Char) : Nat := (chars.map fun char => char.utf8Size).sum

def keyBefore (left right : List Char) : Bool :=
  byteLength left < byteLength right ||
    byteLength left = byteLength right && (compare left right).isLE

def stored {α : Type} (members : List (List Char × α)) : List (List Char × α) :=
  (members.pwFilter fun left right => left.1 ≠ right.1).mergeSort
    fun left right => keyBefore left.1 right.1

def booleanText (value : Bool) : List Char :=
  if value then ['t', 'r', 'u', 'e'] else ['f', 'a', 'l', 's', 'e']

mutual

/-- `jsonb` output. -/
def text : Jsonb → List Char
  | .null => ['n', 'u', 'l', 'l']
  | .boolean value => booleanText value
  | .numeric numeral => numericOut numeral
  | .string chars => quoted chars
  | .array items => '[' :: ([',', ' '].intercalate (itemTexts items) ++ [']'])
  | .object members =>
    let written := (stored (memberTexts members)).map fun member =>
      quoted member.1 ++ [':', ' '] ++ member.2
    '\x7b' :: ([',', ' '].intercalate written ++ ['\x7d'])

def itemTexts : List Jsonb → List (List Char)
  | [] => []
  | item :: items => item.text :: itemTexts items

def memberTexts : List (List Char × Jsonb) → List (List Char × List Char)
  | [] => []
  | (key, value) :: members => (key, value.text) :: memberTexts members

end

/-- `#>>` and `->>` at their last step: a string without its quotes, and `NULL`
of JSON null. -/
def asText? : Jsonb → Option (List Char)
  | .null => none
  | .string chars => some chars
  | value => some value.text

end Jsonb

end SorobanExplorer.Library.Postgres
