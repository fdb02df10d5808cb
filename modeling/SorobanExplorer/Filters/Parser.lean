import SorobanExplorer.Filters.Planner
import SorobanExplorer.Library.Parsing

/-!
Owns the textual form of filters: the tokens of a text, the recursive descent over
them, and `parseFilter` with its messages.

Words are ASCII, so `toLowerCase` is the ASCII one.
-/

namespace SorobanExplorer.Filters

open Library

/-- What `parseFilter` throws. -/
inductive ParseThrown where
  | thrown (thrown : Thrown)
  | syntaxError
deriving DecidableEq

def filterError (message : JsString) : ParseThrown := .thrown (.filterError message)

/-! ### Tokens -/

inductive TokenKind where
  | str
  | num
  | sym
  | word
deriving DecidableEq

structure Token where
  t : TokenKind
  v : JsString
deriving DecidableEq

def unitChar (unit : UInt16) : Char := Utf16.single unit

/-- `\w` -/
def isWordUnit (unit : UInt16) : Bool := (unitChar unit).isAlphanum || unitChar unit = '_'

/-- What `.` does not match. -/
def isLineTerminator (unit : UInt16) : Bool :=
  unit = 0x0A || unit = 0x0D || unit = 0x2028 || unit = 0x2029

/-- `(?:[^"\\]|\\.)*"` after an opening quote, and what is left. -/
def takeLiteral? : JsString → Option (JsString × JsString)
  | [] => none
  | unit :: rest =>
    if unit = 0x22 then some ([], rest)
    else if unit = 0x5C then
      match rest with
      | [] => none
      | next :: rest =>
        if isLineTerminator next then none
        else (takeLiteral? rest).map fun (units, rest) => (unit :: next :: units, rest)
    else (takeLiteral? rest).map fun (units, rest) => (unit :: units, rest)

/-- `JSON.parse` of a literal, by what stands between its quotes. -/
def parseLiteral? : JsString → Option JsString
  | 0x5C :: 0x75 :: first :: second :: third :: fourth :: rest => do
      let unit ← Json.hexUnit? ([first, second, third, fourth].map unitChar)
      pure (unit :: (← parseLiteral? rest))
  | 0x5C :: mark :: rest => do
      let unit ← Json.escape? (unitChar mark)
      pure (unit :: (← parseLiteral? rest))
  | unit :: rest =>
    if unit.toNat < 0x20 ∨ unit = 0x5C then none
    else do pure (unit :: (← parseLiteral? rest))
  | [] => some []

/-- `-?\d+(?:\.\d+)?(?:[eE][-+]?\d+)?(?![\w.])` and what is left. -/
def takeNumber? (units : JsString) : Option (JsString × JsString) := do
  let (_, left) ← Numeral.take? (units.map unitChar)
  let count := units.length - left.length
  if ((units.drop count).head?.any fun unit => isWordUnit unit || unit = 0x2E) then none
  else pure (units.take count, units.drop count)

/-- `>=|<=|!=|[=<>(),]` and what is left. -/
def takeSymbol? (units : JsString) : Option (JsString × JsString) :=
  if units.take 2 ∈ [js ">=", js "<=", js "!="] then some (units.take 2, units.drop 2)
  else if units.take 1 ∈ [js "=", js "<", js ">", js "(", js ")", js ","] then
    some (units.take 1, units.drop 1)
  else none

/-- `[\w.[\]]` -/
def isFieldUnit (unit : UInt16) : Bool :=
  isWordUnit unit || unit = 0x2E || unit = 0x5B || unit = 0x5D

/-- `[A-Za-z_][\w.[\]]*` and what is left. -/
def takeWord? (units : JsString) : Option (JsString × JsString) :=
  match units with
  | first :: _ =>
    if (unitChar first).isAlpha || unitChar first = '_' then
      some (units.takeWhile isFieldUnit, units.dropWhile isFieldUnit)
    else none
  | [] => none

def takeToken (pos : Nat) (source units : JsString) : Except ParseThrown (Token × JsString) :=
  match units with
  | 0x22 :: rest =>
    match takeLiteral? rest with
    | some (literal, rest) =>
      match parseLiteral? literal with
      | some value => pure (⟨.str, value⟩, rest)
      | none => throw .syntaxError
    | none => throw unexpected
  | units =>
    match takeNumber? units with
    | some (number, rest) => pure (⟨.num, number⟩, rest)
    | none =>
      match takeSymbol? units with
      | some (symbol, rest) => pure (⟨.sym, symbol⟩, rest)
      | none =>
        match takeWord? units with
        | some (word, rest) => pure (⟨.word, word⟩, rest)
        | none => throw unexpected
where
  unexpected : ParseThrown :=
    filterError (js "unexpected input at " ++ Utf16.encode (toString pos).toList ++ js ": " ++
      (source.drop pos).take 16)

/-- The loop of `tokenize`, from a position on. As many rounds as there are units
are enough: every token takes one. -/
def tokenizeFrom (source : JsString) : Nat → JsString → Except ParseThrown (List Token)
  | 0, _ => pure []
  | fuel + 1, units =>
    match units.dropWhile fun unit => isWhitespace (unitChar unit) with
    | [] => pure []
    | start => do
        let (token, rest) ← takeToken (source.length - units.length) source start
        let tokens ← tokenizeFrom source fuel rest
        pure (token :: tokens)

/-- `tokenize` -/
def tokenize (source : JsString) : Except ParseThrown (List Token) :=
  tokenizeFrom source source.length source

/-! ### Values -/

/-- `toLowerCase` of a word. -/
def toLowerCase (units : JsString) : JsString :=
  units.map fun unit => if 0x41 ≤ unit.toNat ∧ unit.toNat ≤ 0x5A then unit + 0x20 else unit

/-- `isWord`, of a token. -/
def Token.isWord (token : Token) (word : String) : Bool :=
  token.t = .word && toLowerCase token.v = js word

/-- `Number.isSafeInteger` -/
def isSafeInteger (number : JsNumber) : Bool :=
  number.value.den = 1 && |number.value| ≤ 2 ^ 53 - 1

def numberValue (units : JsString) : Json :=
  match Numeral.recognize (Utf16.decode units) with
  | some numeral =>
    if isSafeInteger (.ofNumeral numeral) || units.contains 0x2E then .number numeral
    else .string units
  | none => .string units

/-- `"string" | number | true | false` -/
def Token.value? (token : Token) : Option Json :=
  match token.t with
  | .str => some (.string token.v)
  | .num => some (numberValue token.v)
  | .word => if token.v = js "true" ∨ token.v = js "false" then some (.boolean (token.v = js "true"))
      else none
  | .sym => none

abbrev Read := Parser ParseThrown Token

/-- `value` -/
def value : Read Json
  | [] => throw (filterError (js "expected a value"))
  | token :: rest =>
    match token.value? with
    | some value => pure (value, rest)
    | none => throw (filterError (js "expected a value, got " ++ token.v))

/-- `expectSym` -/
def expectSym (symbol : String) : Read Unit
  | token :: rest =>
    if token = ⟨.sym, js symbol⟩ then pure ((), rest)
    else throw (filterError (js "expected \"" ++ js symbol ++ js "\""))
  | [] => throw (filterError (js "expected \"" ++ js symbol ++ js "\""))

/-! ### Predicates -/

/-- `SYMBOL_OPS[symbol]` -/
def symbolOp? (symbol : JsString) : Option JsString :=
  if symbol = js "=" then some (js "eq")
  else if symbol = js "!=" then some (js "ne")
  else if symbol = js ">" then some (js "gt")
  else if symbol = js ">=" then some (js "gte")
  else if symbol = js "<" then some (js "lt")
  else if symbol = js "<=" then some (js "lte")
  else none

/-- `{ field, op, value }` -/
def predNode (field op : JsString) (value : Option Json) : Node :=
  .object .absent .absent none (some (.string field)) (some (.string op)) value

/-- The list of an `in`: any token with the text of a comma goes on. -/
def inValues : Read (List Json) := Parser.separated (fun token => token.v = js ",") value

/-- `pred`, after the name of its field. -/
def predOf (field : JsString) : Read Node
  | [] => throw (filterError (js "expected an operator after " ++ field))
  | token :: rest =>
    if token.isWord "exists" then pure (predNode field (js "exists") none, rest)
    else if token.isWord "in" then do
      let (_, rest) ← expectSym "(" rest
      let (values, rest) ← inValues rest
      let (_, rest) ← expectSym ")" rest
      pure (predNode field (js "in") (some (.array values)), rest)
    else if token.isWord "between" then do
      let (low, rest) ← value rest
      match rest with
      | next :: rest =>
        if next.isWord "and" then do
          let (high, rest) ← value rest
          pure (predNode field (js "between") (some (.array [low, high])), rest)
        else throw (filterError (js "expected \"and\" in between"))
      | [] => throw (filterError (js "expected \"and\" in between"))
    else
      match token.t, symbolOp? token.v with
      | .sym, some op => do
          let (operand, rest) ← value rest
          pure (predNode field op (some operand), rest)
      | _, _ => throw (filterError (js "expected an operator after " ++ field))

/-- `pred` -/
def pred : Read Node
  | [] => throw (filterError (js "expected a field name"))
  | field :: rest =>
    if field.t = .word then predOf field.v rest
    else throw (filterError (js "expected a field name"))

/-! ### Connectives -/

/-- `{ not: node }` -/
def notNode (node : Node) : Node := .object .absent .absent (some node) none none none

/-- `parts.length === 1 ? parts[0] : { and: parts }` -/
def andNode : List Node → Node
  | [part] => part
  | parts => .object (.list parts) .absent none none none none

/-- `parts.length === 1 ? parts[0] : { or: parts }` -/
def orNode : List Node → Node
  | [part] => part
  | parts => .object .absent (.list parts) none none none none

/-- `and`, over its `unary`. -/
def conjunction (unary : Read Node) : Read Node := fun tokens => do
  let (parts, rest) ← Parser.separated (fun token => token.isWord "and") unary tokens
  pure (andNode parts, rest)

/-- `or`, over its `unary`. -/
def disjunction (unary : Read Node) : Read Node := fun tokens => do
  let (parts, rest) ←
    Parser.separated (fun token => token.isWord "or") (conjunction unary) tokens
  pure (orNode parts, rest)

/-- `unary`. Fuel for as many levels as there are tokens is enough: every level
takes one. -/
def unary : Nat → Read Node
  | 0 => pred
  | fuel + 1 => fun tokens =>
    match tokens with
    | [] => pred []
    | token :: rest =>
      if token.isWord "not" then do
        let (node, rest) ← unary fuel rest
        pure (notNode node, rest)
      else if token = ⟨.sym, js "("⟩ then do
        let (node, rest) ← disjunction (unary fuel) rest
        let (_, rest) ← expectSym ")" rest
        pure (node, rest)
      else pred (token :: rest)

/-! ### The filter -/

/-- `parseFilter`, of tokens. -/
def parseTokens (tokens : List Token) : Except ParseThrown Node := do
  let (ast, rest) ← disjunction (unary tokens.length) tokens
  match rest with
  | [] =>
    match validateFilter ast with
    | .ok ast => pure ast
    | .error thrown => throw (.thrown thrown)
  | token :: _ => throw (filterError (js "unexpected \"" ++ token.v ++ js "\""))

/-- `parseFilter`, of a string. -/
def parseFilter (source : JsString) : Except ParseThrown Node :=
  if source.length > 4096 then
    throw (filterError (js "filter must be a string of at most 4096 characters"))
  else do parseTokens (← tokenize source)

end SorobanExplorer.Filters
