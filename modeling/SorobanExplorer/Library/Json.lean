import SorobanExplorer.Library.Numeral
import SorobanExplorer.Library.Utf16

/-!
Owns JSON texts (RFC 8259): the tree a text writes, with numbers as they are
spelled, strings as code units and members in order, and the reading of a text
into its tree. What a reader makes of the tree is not owned here.
-/

namespace SorobanExplorer.Library

inductive Json where
  | null
  | boolean (value : Bool)
  | number (numeral : Numeral)
  | string (units : List UInt16)
  | array (items : List Json)
  | object (members : List (List UInt16 × Json))

namespace Json

/-! ### Tokens -/

def isBlank (char : Char) : Bool := char = ' ' || char = '\t' || char = '\n' || char = '\r'

def skipBlank (text : List Char) : List Char := text.dropWhile isBlank

def hexDigit? (char : Char) : Option Nat :=
  if '0' ≤ char ∧ char ≤ '9' then some (char.toNat - 48)
  else if 'a' ≤ char ∧ char ≤ 'f' then some (char.toNat - 87)
  else if 'A' ≤ char ∧ char ≤ 'F' then some (char.toNat - 55)
  else none

def hexUnit? (digits : List Char) : Option UInt16 := do
  let values ← digits.mapM hexDigit?
  pure (UInt16.ofNat (values.foldl (fun code digit => 16 * code + digit) 0))

def escape? : Char → Option UInt16
  | '"' => some 0x22
  | '\\' => some 0x5C
  | '/' => some 0x2F
  | 'b' => some 0x08
  | 'f' => some 0x0C
  | 'n' => some 0x0A
  | 'r' => some 0x0D
  | 't' => some 0x09
  | _ => none

def takeString? : List Char → Option (List UInt16 × List Char)
  | [] => none
  | '"' :: rest => some ([], rest)
  | '\\' :: 'u' :: first :: second :: third :: fourth :: rest => do
      let unit ← hexUnit? [first, second, third, fourth]
      let (units, rest) ← takeString? rest
      pure (unit :: units, rest)
  | '\\' :: mark :: rest => do
      let unit ← escape? mark
      let (units, rest) ← takeString? rest
      pure (unit :: units, rest)
  | char :: rest =>
    if char.toNat < 0x20 ∨ char = '\\' then none
    else do
      let (units, rest) ← takeString? rest
      pure (Utf16.encodeChar char ++ units, rest)

def takeNumber? (text : List Char) : Option (Numeral × List Char) := do
  let (numeral, rest) ← Numeral.take? text
  if numeral.whole.list.head? = some 0 ∧ 1 < numeral.whole.list.length then none
  else pure (numeral, rest)

/-- `word` at the start of the text. -/
def takeWord? (word : List Char) (text : List Char) : Option (List Char) :=
  if word.isPrefixOf text then some (text.drop word.length) else none

/-! ### Values -/

mutual

/-- A value, and what is left. A text of `n` characters needs no more than
`2 * n + 2` units of fuel: of any two steps one takes a character. -/
def takeValue? : Nat → List Char → Option (Json × List Char)
  | 0, _ => none
  | fuel + 1, text =>
    match skipBlank text with
    | '"' :: rest => do
        let (units, rest) ← takeString? rest
        pure (.string units, rest)
    | '[' :: rest =>
      match skipBlank rest with
      | ']' :: rest => some (.array [], rest)
      | rest => do
          let (items, rest) ← takeItems? fuel rest
          pure (.array items, rest)
    | '{' :: rest =>
      match skipBlank rest with
      | '}' :: rest => some (.object [], rest)
      | rest => do
          let (members, rest) ← takeMembers? fuel rest
          pure (.object members, rest)
    | text =>
      ((takeWord? ['n', 'u', 'l', 'l'] text).map fun rest => (.null, rest)) <|>
      ((takeWord? ['t', 'r', 'u', 'e'] text).map fun rest => (.boolean true, rest)) <|>
      ((takeWord? ['f', 'a', 'l', 's', 'e'] text).map fun rest => (.boolean false, rest)) <|>
      ((takeNumber? text).map fun taken => (.number taken.1, taken.2))

def takeItems? : Nat → List Char → Option (List Json × List Char)
  | 0, _ => none
  | fuel + 1, text => do
      let (item, rest) ← takeValue? fuel text
      match skipBlank rest with
      | ',' :: rest => do
          let (items, rest) ← takeItems? fuel rest
          pure (item :: items, rest)
      | ']' :: rest => pure ([item], rest)
      | _ => none

def takeMembers? : Nat → List Char → Option (List (List UInt16 × Json) × List Char)
  | 0, _ => none
  | fuel + 1, text =>
    match skipBlank text with
    | '"' :: rest => do
        let (key, rest) ← takeString? rest
        match skipBlank rest with
        | ':' :: rest => do
            let (value, rest) ← takeValue? fuel rest
            match skipBlank rest with
            | ',' :: rest => do
                let (members, rest) ← takeMembers? fuel rest
                pure ((key, value) :: members, rest)
            | '}' :: rest => pure ([(key, value)], rest)
            | _ => none
        | _ => none
    | _ => none

end

def parse? (text : List Char) : Option Json :=
  match takeValue? (2 * text.length + 2) text with
  | some (value, rest) => if skipBlank rest = [] then some value else none
  | none => none

def lookup {κ α : Type} [DecidableEq κ] : List (κ × α) → κ → Option α
  | [], _ => none
  | (name, value) :: members, key =>
    match lookup members key with
    | some later => some later
    | none => if name = key then some value else none

end Json

end SorobanExplorer.Library
