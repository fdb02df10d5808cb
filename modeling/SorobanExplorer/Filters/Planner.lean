import SorobanExplorer.Filters.Fragment

/-!
Owns `planFilter`: the conjuncts of a branch, the fields it has an index for, the
span of the ledger conditions in JavaScript numbers, and the verdict.

A planner that throws a `TypeError` is `none`.
-/

namespace SorobanExplorer.Filters

open Library

def maxUnindexedLedgerSpan : Nat := 120000

/-! ### Numbers -/

abbrev Number := Option JsNumber

def isWhitespace (char : Char) : Bool :=
  (9 ≤ char.toNat && char.toNat ≤ 13) || char.toNat = 32 || char.toNat = 0xA0 ||
    char.toNat = 0x1680 || (0x2000 ≤ char.toNat && char.toNat ≤ 0x200A) || char.toNat = 0x2028 ||
    char.toNat = 0x2029 || char.toNat = 0x202F || char.toNat = 0x205F || char.toNat = 0x3000 ||
    char.toNat = 0xFEFF

def trim (text : List Char) : List Char :=
  ((text.dropWhile isWhitespace).reverse.dropWhile isWhitespace).reverse

def radixNumber (base : Nat) (digits : List Char) : Number :=
  match digits.mapM Json.hexDigit? with
  | some (first :: rest) =>
    if (first :: rest).all (· < base) then
      some (.ofRat ((first :: rest).foldl (fun value digit => base * value + digit) 0 : Nat))
    else none
  | _ => none

def unsignedDecimal (text : List Char) : Option ℚ := do
  let (whole, rest) := Numeral.takeDigits text
  let (fraction, rest) := match rest with
    | '.' :: rest => Numeral.takeDigits rest
    | rest => ([], rest)
  let _ ← Numeral.digits? (whole ++ fraction)
  match ← Numeral.takeExponent? rest with
  | (exponent, []) =>
    let power : Int := match exponent with
      | none => 0
      | some (.minus, digits) => -(Digit.number digits.list)
      | some (_, digits) => Digit.number digits.list
    pure ((Digit.number (whole ++ fraction) : ℚ) * 10 ^ (power - fraction.length))
  | _ => none

def signedDecimal (sign : ℚ) (text : List Char) : Number :=
  if text = ['I', 'n', 'f', 'i', 'n', 'i', 't', 'y'] then some (.ofRat (sign * Binary64.infinity))
  else (unsignedDecimal text).map fun value => .ofRat (sign * value)

/-- `Number(text)`: a numeral is read first, then the other spellings of
`StringNumericLiteral`. -/
def stringToNumber (units : JsString) : Number :=
  match Numeral.recognize (Utf16.decode units) with
  | some numeral => some (.ofNumeral numeral)
  | none =>
    match trim (Utf16.decode units) with
    | [] => some (.ofRat 0)
    | '0' :: mark :: digits =>
      if mark = 'x' ∨ mark = 'X' then radixNumber 16 digits
      else if mark = 'o' ∨ mark = 'O' then radixNumber 8 digits
      else if mark = 'b' ∨ mark = 'B' then radixNumber 2 digits
      else signedDecimal 1 ('0' :: mark :: digits)
    | '-' :: rest => signedDecimal (-1) rest
    | '+' :: rest => signedDecimal 1 rest
    | text => signedDecimal 1 text

/-- `Number(value)` -/
def toNumber? : Option Json → Except Thrown Number
  | none => pure none
  | some .null => pure (some (.ofRat 0))
  | some (.boolean value) => pure (some (.ofRat (if value then 1 else 0)))
  | some (.number numeral) => pure (some (.ofNumeral numeral))
  | some (.string units) => pure (stringToNumber units)
  | some value => do pure (stringToNumber (← stringOf value))

/-- `Math.max(left, right)` -/
def maximum : Number → Number → Number
  | some left, some right => some (if left.value ≤ right.value then right else left)
  | _, _ => none

/-- `Math.min(left, right)` -/
def minimum : Number → Number → Number
  | some left, some right => some (if left.value ≤ right.value then left else right)
  | _, _ => none

/-- `left - right`: equal infinities have no difference. -/
def difference : Number → Number → Number
  | some left, some right =>
    if left.value = right.value ∧ ¬ left.isFinite then none
    else some (.ofRat (left.value - right.value))
  | _, _ => none

/-! ### Parts -/

/-- The value of `v` in `ledgerSpan`: a number, or the numbers of an array. -/
inductive Bound where
  | one (number : Number)
  | many (numbers : List Number)

/-- `v` where it is used as a number: an array of one number is that number. -/
def Bound.number : Bound → Number
  | .one number => number
  | .many [] => some (.ofRat 0)
  | .many [number] => number
  | .many _ => none

/-- `v[index]` where it is used as a number. -/
def Bound.item (bound : Bound) (index : Nat) : Number :=
  match bound with
  | .one _ => none
  | .many numbers => numbers[index]?.join

/-- `Array.isArray(p.value) ? p.value.map(Number) : Number(p.value)` -/
def bound? : Option Json → Except Thrown Bound
  | some (.array items) => do pure (.many (← items.mapM fun item => toNumber? (some item)))
  | value => do pure (.one (← toNumber? value))

namespace Node

def field : Node → Option Json
  | .object _ _ _ field _ _ => field
  | .other _ => none

def op : Node → Option Json
  | .object _ _ _ _ op _ => op
  | .other _ => none

def value : Node → Option Json
  | .object _ _ _ _ _ value => value
  | .other _ => none

end Node

/-- `value === text` -/
def isText (text : String) : Option Json → Bool
  | some (.string units) => units = js text
  | _ => false

/-- `INDEXED.has(field)` -/
def indexed (field : Option Json) : Bool :=
  isText "contract_id" field || isText "function" field || isText "tx_hash" field ||
    isText "ledger" field || isText "seq" field || isText "topic[0]" field

/-- `SELECTIVE_OPS.has(op)` -/
def selective (op : Option Json) : Bool :=
  isText "eq" op || isText "in" op || isText "between" op || isText "gt" op || isText "gte" op ||
    isText "lt" op || isText "lte" op

mutual

/-- `conjuncts` -/
def conjuncts : Node → Option (List Node)
  | .object (.list nodes) _ _ _ _ _ => conjunctsAll nodes
  -- Neither `null` nor a value without `flatMap` can be asked for conjuncts.
  | .object (.other true) _ _ _ _ _ => none
  | .other false => none
  | node => some [node]

def conjunctsAll : List Node → Option (List Node)
  | [] => some []
  | node :: nodes => do
      let first ← conjuncts node
      let rest ← conjunctsAll nodes
      pure (first ++ rest)

end

mutual

/-- `hasUnindexed` -/
def hasUnindexed : Node → Option Bool
  | .object (.list nodes) _ _ _ _ _ => someUnindexed nodes
  | .object (.other true) _ _ _ _ _ => none
  | .object .absent (.list nodes) _ _ _ _ | .object .null (.list nodes) _ _ _ _ =>
    someUnindexed nodes
  -- `node.and ?? node.or` is a false `and`, which has no `some`.
  | .object (.other false) (.list _) _ _ _ _ => none
  | .object _ (.other true) _ _ _ _ => none
  | .object _ _ (some node) field _ _ =>
    if node.truthy then hasUnindexed node else some (!indexed field)
  | .object _ _ none field _ _ => some (!indexed field)
  | .other false => none
  | .other true => some true

/-- `nodes.some(hasUnindexed)` -/
def someUnindexed : List Node → Option Bool
  | [] => some false
  | node :: nodes => do
      if ← hasUnindexed node then pure true else someUnindexed nodes

end

/-! ### Ledgers -/

/-- What one part of a branch does to `lo` and `hi`. -/
def narrow (span : Number × Number) (part : Node) : Except Thrown (Number × Number) :=
  if isText "ledger" part.field then do
    let bound ← bound? part.value
    let (lo, hi) := span
    if isText "eq" part.op then pure (maximum lo bound.number, minimum hi bound.number)
    else if isText "between" part.op then
      pure (maximum lo (bound.item 0), minimum hi (bound.item 1))
    else if isText "gt" part.op || isText "gte" part.op then pure (maximum lo bound.number, hi)
    else if isText "lt" part.op || isText "lte" part.op then pure (lo, minimum hi bound.number)
    else pure (lo, hi)
  else pure span

/-- `ledgerSpan` -/
def ledgerSpan (parts : List Node) : Except Thrown Number := do
  let start := (some (.ofRat (-Binary64.infinity)), some (.ofRat Binary64.infinity))
  let (lo, hi) ← parts.foldlM narrow start
  pure (difference hi lo)

/-! ### The verdict -/

inductive Verdict where
  | ok
  | refused (reason : JsString)
deriving DecidableEq

def noCondition : Verdict := .refused (js
  "each branch needs a condition on contract_id, function, tx_hash, ledger, seq or topic[0]")

def notBounded : Verdict := .refused (js
  "filters on args or topic[1..3] must also fix contract_id and a ledger range of at most 120000 ledgers")

/-- `span <= MAX_UNINDEXED_LEDGER_SPAN` -/
def fits (span : Number) : Bool :=
  match span with
  | some span => span.value ≤ maxUnindexedLedgerSpan
  | none => false

def planBranch (branch : Node) : Option Verdict := do
  let parts ← conjuncts branch
  if parts.any fun part => indexed part.field && selective part.op then
    if ← hasUnindexed branch then
      let hasContract := parts.any fun part =>
        isText "contract_id" part.field && (isText "eq" part.op || isText "in" part.op)
      let span ← (ledgerSpan parts).toOption
      if hasContract && fits span then pure .ok else pure notBounded
    else pure .ok
  else pure noCondition

def planBranches : List Node → Option Verdict
  | [] => some .ok
  | branch :: branches => do
      match ← planBranch branch with
      | .ok => planBranches branches
      | verdict => pure verdict

/-- `planFilter`: a true `or` that is no array is not iterable, or a text whose
characters have no field. -/
def planFilter : Node → Option Verdict
  | .object _ (.list branches) _ _ _ _ => planBranches branches
  | .object _ (.other true) _ _ _ _ => none
  | ast => planBranches [ast]

end SorobanExplorer.Filters
