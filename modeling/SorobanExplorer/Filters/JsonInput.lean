import SorobanExplorer.Filters.Parser

/-!
Owns `toFilterAst` of a string: the JSON text of an AST over its code units, the
node its tree is to the walks, and the choice between the two forms.
-/

namespace SorobanExplorer.Filters

open Library

/-! ### JSON texts -/

namespace JsonInput

def skipBlank (units : JsString) : JsString :=
  units.dropWhile fun unit => Json.isBlank (unitChar unit)

def takeString? (units : JsString) : Option (JsString × JsString) := do
  let (literal, rest) ← takeLiteral? units
  pure (← parseLiteral? literal, rest)

def takeNumber? (units : JsString) : Option (Numeral × JsString) := do
  let (numeral, left) ← Json.takeNumber? (units.map unitChar)
  pure (numeral, units.drop (units.length - left.length))

def takeWord? (word : String) (units : JsString) : Option JsString :=
  if (js word).isPrefixOf units then some (units.drop (js word).length) else none

mutual

def takeValue? : Nat → JsString → Option (Json × JsString)
  | 0, _ => none
  | fuel + 1, units =>
    match skipBlank units with
    | 0x22 :: rest => do
        let (text, rest) ← takeString? rest
        pure (.string text, rest)
    | 0x5B :: rest =>
      match skipBlank rest with
      | 0x5D :: rest => some (.array [], rest)
      | rest => do
          let (items, rest) ← takeItems? fuel rest
          pure (.array items, rest)
    | 0x7B :: rest =>
      match skipBlank rest with
      | 0x7D :: rest => some (.object [], rest)
      | rest => do
          let (members, rest) ← takeMembers? fuel rest
          pure (.object members, rest)
    | units =>
      ((takeWord? "null" units).map fun rest => (.null, rest)) <|>
      ((takeWord? "true" units).map fun rest => (.boolean true, rest)) <|>
      ((takeWord? "false" units).map fun rest => (.boolean false, rest)) <|>
      ((takeNumber? units).map fun (numeral, rest) => (.number numeral, rest))

def takeItems? : Nat → JsString → Option (List Json × JsString)
  | 0, _ => none
  | fuel + 1, units => do
      let (item, rest) ← takeValue? fuel units
      match skipBlank rest with
      | 0x2C :: rest => do
          let (items, rest) ← takeItems? fuel rest
          pure (item :: items, rest)
      | 0x5D :: rest => pure ([item], rest)
      | _ => none

def takeMembers? : Nat → JsString → Option (List (JsString × Json) × JsString)
  | 0, _ => none
  | fuel + 1, units =>
    match skipBlank units with
    | 0x22 :: rest => do
        let (name, rest) ← takeString? rest
        match skipBlank rest with
        | 0x3A :: rest => do
            let (value, rest) ← takeValue? fuel rest
            match skipBlank rest with
            | 0x2C :: rest => do
                let (members, rest) ← takeMembers? fuel rest
                pure ((name, value) :: members, rest)
            | 0x7D :: rest => pure ([(name, value)], rest)
            | _ => none
        | _ => none
    | _ => none

end

/-- `JSON.parse` -/
def parse? (source : JsString) : Option Json :=
  match takeValue? (2 * source.length + 2) source with
  | some (tree, rest) => if skipBlank rest = [] then some tree else none
  | none => none

end JsonInput

/-! ### Nodes -/

/-- `!!value` -/
def truthyJson : Json → Bool
  | .null => false
  | .boolean value => value
  | .number numeral => (JsNumber.ofNumeral numeral).value ≠ 0
  | .string units => units ≠ []
  | .array _ | .object _ => true

mutual

def nodeOf : Json → Node
  | .object members =>
    let read := readMembers members
    .object (((Json.lookup read (js "and")).map Prod.snd).getD .absent)
      (((Json.lookup read (js "or")).map Prod.snd).getD .absent)
      ((Json.lookup read (js "not")).map Prod.fst) (Json.lookup members (js "field"))
      (Json.lookup members (js "op")) (Json.lookup members (js "value"))
  | tree => .other (truthyJson tree)

/-- A value under `and` or `or`. -/
def branchesOf : Json → Branches Node
  | .null => .null
  | .array items => .list (nodesOf items)
  | tree => .other (truthyJson tree)

def nodesOf : List Json → List Node
  | [] => []
  | item :: items => nodeOf item :: nodesOf items

/-- The members, each as a node and as the value of `and` or `or`. -/
def readMembers : List (JsString × Json) → List (JsString × Node × Branches Node)
  | [] => []
  | (name, value) :: members => (name, nodeOf value, branchesOf value) :: readMembers members

end

/-! ### Both forms -/

/-- `input.trim().startsWith("{")` -/
def startsObject (source : JsString) : Bool :=
  (trim (source.map unitChar)).head? = some '{'

/-- `toFilterAst`, of a string. -/
def toFilterAst (source : JsString) : Except ParseThrown Node :=
  if startsObject source then
    match JsonInput.parse? source with
    | none => throw (filterError (js "filter JSON is malformed"))
    | some parsed =>
      match validateFilter (nodeOf parsed) with
      | .ok ast => pure ast
      | .error thrown => throw (.thrown thrown)
  else parseFilter source

end SorobanExplorer.Filters
