import SorobanExplorer.Filters.Ast
import SorobanExplorer.Library.Parsing
import SorobanExplorer.Library.SqlLexer

/-!
Owns the saved-filter DSL: the values a client sends, `validateFilter` with its
messages, and which values it accepts. Then `filterToSql`: the WHERE text, the parameters, and
what is thrown. Validation is not assumed.
-/

namespace SorobanExplorer.SavedFilters

open Library
open Filters (JsString js JsValue stringOfProperty)

/-! ### Values -/

/-- The value of a node's `conditions` property. -/
inductive Conditions (α : Type) where
  | absent
  | list (nodes : List α)
  | other (truthy : Bool)

def Conditions.truthy {α : Type} : Conditions α → Bool
  | .absent => false
  | .list _ => true
  | .other truthy => truthy

/-- A JSON value as the walks over a filter see it: a plain object by the four
properties they read, and anything else. -/
inductive Dsl where
  | null
  | scalar (truthy : Bool)
  | array
  | object (field operator value : Option Json) (conditions : Conditions Dsl)

/-- `Boolean(value)` of a property that may be missing. -/
def truthy : Option Json → Bool
  | none | some .null => false
  | some (.boolean value) => value
  | some (.number numeral) => JsNumber.ofNumeral numeral ≠ .ofRat 0
  | some (.string units) => units ≠ []
  | some (.array _) | some (.object _) => true

def isNullish : Option Json → Bool
  | none | some .null => true
  | _ => false

def Dsl.operator : Dsl → Option Json
  | .object _ operator _ _ => operator
  | _ => none

inductive Failure where
  | error (message : JsString)
  | typeError
deriving DecidableEq

inductive Verdict where
  | valid
  | invalid (error : JsString)
deriving DecidableEq

/-- `String(value)` of a property. -/
def textOf (value : Option Json) : Except Failure JsString :=
  match stringOfProperty value with
  | .ok text => pure text
  | .error _ => throw .typeError

/-- `names.includes(value)` -/
def includes (names : List JsString) : Option Json → Bool
  | some (.string name) => names.contains name
  | _ => false

/-! ### Conditions -/

inductive Operator where
  | eq
  | ne
  | gt
  | lt
  | gte
  | lte
  | contains
  | startsWith
  | endsWith
  | isIn
deriving DecidableEq

def Operator.name : Operator → JsString
  | .eq => js "eq"
  | .ne => js "ne"
  | .gt => js "gt"
  | .lt => js "lt"
  | .gte => js "gte"
  | .lte => js "lte"
  | .contains => js "contains"
  | .startsWith => js "starts_with"
  | .endsWith => js "ends_with"
  | .isIn => js "in"

def operators : List Operator :=
  [.eq, .ne, .gt, .lt, .gte, .lte, .contains, .startsWith, .endsWith, .isIn]

def validOperators : List JsString := operators.map Operator.name

def invalidOperator (operator : Option Json) (names : List JsString) : Except Failure Verdict := do
  let text ← textOf operator
  pure (.invalid (js "Invalid operator: " ++ text ++ js ". Must be one of: " ++
    (js ", ").intercalate names))

/-- `/^topic\[(\d+)\]$/` with its group. -/
def topicDigits? (field : JsString) : Option JsString :=
  if (js "topic[").isPrefixOf field then
    let rest := field.drop 6
    if rest.getLast? = some 0x5D ∧ rest.dropLast ≠ [] ∧ rest.dropLast.all SqlLexer.isDigit then
      some rest.dropLast
    else none
  else none

def validateFormat (field : JsString) : Verdict :=
  if (js "topic[").isPrefixOf field ∧ topicDigits? field = none then
    .invalid (js "Invalid topic field format: " ++ field ++
      js ". Use topic[N] where N is a number")
  else if (js "arg.").isPrefixOf field ∧ field.length ≤ 4 then
    .invalid (js "Invalid arg field format: " ++ field ++ js ". Use arg.path.to.field")
  else .valid

def validateCondition (field operator value : Option Json) : Except Failure Verdict :=
  if truthy field = false then pure (.invalid (js "Condition must have a field"))
  else if truthy operator = false then pure (.invalid (js "Condition must have an operator"))
  else if includes validOperators operator = false then invalidOperator operator validOperators
  else if isNullish value then pure (.invalid (js "Condition must have a value"))
  else
    match field with
    | some (.string field) => pure (validateFormat field)
    -- `startsWith` is a method of strings only.
    | _ => throw .typeError

/-! ### Groups -/

def groupOperators : List JsString := [js "and", js "or", js "not"]

def noConditions : Verdict := .invalid (js "Logical group must have non-empty conditions array")

mutual

def validateLogicalGroup : Dsl → Except Failure Verdict
  | .object _ operator _ conditions =>
    if includes groupOperators operator then
      match conditions with
      | .list nodes =>
        if nodes.isEmpty then pure noConditions
        else if includes [js "not"] operator ∧ nodes.length ≠ 1 then
          pure (.invalid (js "NOT operator must have exactly one condition"))
        else validateNodes nodes
      | _ => pure noConditions
    else invalidOperator operator groupOperators
  | .null => throw .typeError
  | _ => invalidOperator none groupOperators

def validateNodes : List Dsl → Except Failure Verdict
  | [] => pure .valid
  | .null :: _ => throw .typeError
  | .object field operator value conditions :: nodes => do
      let result ←
        if truthy operator then validateLogicalGroup (.object field operator value conditions)
        else validateCondition field operator value
      match result with
      | .valid => validateNodes nodes
      | .invalid error => pure (.invalid error)
  | _ :: nodes => do
      let result ← validateCondition none none none
      match result with
      | .valid => validateNodes nodes
      | .invalid error => pure (.invalid error)

end

/-! ### Filters -/

def noFilter : Verdict :=
  .invalid (js "Filter must have either operator+conditions or field+operator")

def validateFilter : Dsl → Except Failure Verdict
  | .null | .scalar _ => pure (.invalid (js "Filter must be an object"))
  | .array => pure noFilter
  | .object field operator value conditions =>
    if truthy operator ∧ conditions.truthy then
      validateLogicalGroup (.object field operator value conditions)
    else if truthy field ∧ truthy operator then validateCondition field operator value
    else pure noFilter

def Accepted (filter : Dsl) : Prop := validateFilter filter = .ok .valid

example : validateFilter (.object none (some (.string (js "not"))) none (.list
    [.object (some (.string (js "function"))) (some (.string (js "eq")))
      (some (.string (js "transfer"))) .absent])) =
    .ok (.invalid (js "Invalid operator: eq. Must be one of: and, or, not")) := by rfl

/-! ### Accepted filters -/

structure SavedCondition where
  field : JsString
  operator : Operator
  value : Json
  nonempty : field ≠ []
  present : isNullish (some value) = false
  format : validateFormat field = .valid

/-- The filter of a condition. What stands under `conditions` is not read when it is
falsy. -/
def SavedCondition.filter (condition : SavedCondition) (conditions : Conditions Dsl) : Dsl :=
  .object (some (.string condition.field)) (some (.string condition.operator.name))
    (some condition.value) conditions

theorem truthy_name (operator : Operator) : truthy (some (.string operator.name)) = true := by
  cases operator <;> rfl

theorem name_mem (operator : Operator) : operator.name ∈ validOperators :=
  List.mem_map_of_mem (by cases operator <;> decide)

theorem invalidOperator_ne_valid (operator : Option Json) (names : List JsString) :
    invalidOperator operator names ≠ .ok .valid := by
  intro valid
  rw [invalidOperator, Library.Parser.bind_eq_ok_iff] at valid
  obtain ⟨text, -, ⟨⟩⟩ := valid

theorem includes_iff {names : List JsString} {value : Option Json} :
    includes names value = true ↔ ∃ name ∈ names, value = some (.string name) := by
  match value with
  | some (.string name) => simp [includes]
  | none | some .null | some (.boolean _) | some (.number _) | some (.array _)
  | some (.object _) => simp [includes]

theorem validateCondition_valid_iff {field operator value : Option Json} :
    validateCondition field operator value = .ok .valid ↔
      ∃ condition : SavedCondition, field = some (.string condition.field) ∧
        operator = some (.string condition.operator.name) ∧ value = some condition.value := by
  constructor
  · intro valid
    unfold validateCondition at valid
    split_ifs at valid with noField noOperator unknown nullish
    · cases valid
    · cases valid
    · exact absurd valid (invalidOperator_ne_valid operator validOperators)
    · cases valid
    · obtain ⟨name, member, rfl⟩ := includes_iff.mp (Bool.of_not_eq_false unknown)
      obtain ⟨known, -, rfl⟩ := List.mem_map.mp member
      obtain ⟨value, rfl⟩ : ∃ given, value = some given := by
        cases value with
        | none => exact absurd rfl nullish
        | some given => exact ⟨given, rfl⟩
      split at valid
      · rename_i field
        have nonempty : field ≠ [] := by
          intro empty
          exact noField (by rw [empty]; rfl)
        exact ⟨⟨field, known, value, nonempty, Bool.eq_false_of_not_eq_true nullish,
          Except.ok.inj valid⟩, rfl, rfl, rfl⟩
      · cases valid
  · rintro ⟨condition, rfl, rfl, rfl⟩
    have hasField : truthy (some (.string condition.field)) = true := by
      simpa [truthy] using condition.nonempty
    have known : includes validOperators (some (.string condition.operator.name)) = true :=
      includes_iff.mpr ⟨_, name_mem condition.operator, rfl⟩
    simp [validateCondition, hasField, truthy_name, known, condition.present, condition.format,
      pure, Except.pure]

theorem validNodes_cons {first : Dsl} {nodes : List Dsl}
    (valid : validateNodes (first :: nodes) = .ok .valid) :
    validateLogicalGroup first = .ok .valid := by
  have noCondition {field operator value : Option Json} (falsy : truthy operator = false) :
      validateCondition field operator value ≠ .ok .valid := by
    intro valid
    obtain ⟨condition, -, rfl, -⟩ := validateCondition_valid_iff.mp valid
    rw [truthy_name] at falsy
    cases falsy
  cases first with
  | null | scalar _ | array => cases valid
  | object field operator value conditions =>
    rw [validateNodes] at valid
    split_ifs at valid with named
    · obtain ⟨verdict, result, next⟩ := Parser.bind_eq_ok_iff.mp valid
      cases verdict with
      | valid => exact result
      | invalid error => cases next
    · obtain ⟨verdict, result, next⟩ := Parser.bind_eq_ok_iff.mp valid
      cases verdict with
      | valid => exact absurd result (noCondition (Bool.eq_false_of_not_eq_true named))
      | invalid error => cases next

theorem not_validGroup : ∀ node, validateLogicalGroup node ≠ .ok .valid
  | .null => nofun
  | .scalar _ => invalidOperator_ne_valid none groupOperators
  | .array => invalidOperator_ne_valid none groupOperators
  | .object field operator value conditions => by
      intro valid
      unfold validateLogicalGroup at valid
      split_ifs at valid with known
      · match conditions with
        | .absent | .other _ | .list [] => cases valid
        | .list (first :: nodes) =>
          simp only [List.isEmpty_cons, Bool.false_eq_true, if_false] at valid
          split_ifs at valid with single
          · cases valid
          · exact not_validGroup first (validNodes_cons valid)
      · exact invalidOperator_ne_valid operator groupOperators valid

theorem accepted_iff {filter : Dsl} :
    Accepted filter ↔ ∃ condition conditions, conditions.truthy = false ∧
      filter = SavedCondition.filter condition conditions := by
  constructor
  · intro accepted
    match filter with
    | .null | .scalar _ | .array => cases accepted
    | .object field operator value conditions =>
      rw [Accepted, validateFilter] at accepted
      split_ifs at accepted with group single
      · exact absurd accepted (not_validGroup _)
      · obtain ⟨condition, rfl, rfl, rfl⟩ := validateCondition_valid_iff.mp accepted
        have falsy : conditions.truthy = false := by
          apply Bool.eq_false_of_not_eq_true
          exact fun both => group ⟨truthy_name _, both⟩
        exact ⟨condition, conditions, falsy, rfl⟩
      · cases accepted
  · rintro ⟨condition, conditions, falsy, rfl⟩
    have hasField : truthy (some (.string condition.field)) = true := by
      simpa [truthy] using condition.nonempty
    rw [Accepted, SavedCondition.filter, validateFilter, falsy, if_neg (by simp),
      if_pos ⟨hasField, truthy_name _⟩]
    exact validateCondition_valid_iff.mpr ⟨condition, rfl, rfl, rfl⟩

open Filters (JsString js JsValue)

/-! ### Fields -/

/-- A field `conditionToSql` has a column for. -/
inductive Column where
  | contract
  | function
  | ledger
  | type
  | topic (index : JsString)
  | arg (path : JsString)
deriving DecidableEq

def columnOf : Option Json → Except Failure Column
  | some (.string field) =>
    if field = js "contract" then pure .contract
    else if field = js "function" then pure .function
    else if field = js "ledger" then pure .ledger
    else if field = js "type" then pure .type
    else if (js "topic[").isPrefixOf field then
      match topicDigits? field with
      | some index => pure (.topic index)
      | none => throw .typeError
    else if (js "arg.").isPrefixOf field then pure (.arg (field.drop 4))
    else throw (.error (js "Unknown field: " ++ field))
  | _ => throw .typeError

/-- `path.replace(/\./g, "'->'")` -/
def arrows (path : JsString) : JsString :=
  path.flatMap fun unit => if unit = 0x2E then js "'->'" else [unit]

/-- `sqlField` -/
def Column.text : Column → JsString
  | .contract => js "contract_id"
  | .function => js "function"
  | .ledger => js "ledger"
  | .type => js "type"
  | .topic index => js "raw_topics->>" ++ index
  | .arg path => js "raw_data->'" ++ arrows path ++ js "'"

/-! ### Operators -/

/-- `operatorMap[operator]`: an object literal has what its prototype has. -/
def operatorMap (operator : JsString) : Option JsString :=
  if operator = js "eq" then some (js "=")
  else if operator = js "ne" then some (js "!=")
  else if operator = js "gt" then some (js ">")
  else if operator = js "lt" then some (js "<")
  else if operator = js "gte" then some (js ">=")
  else if operator = js "lte" then some (js "<=")
  else if operator = js "contains" then some (js "ILIKE")
  else if operator = js "starts_with" then some (js "ILIKE")
  else if operator = js "ends_with" then some (js "ILIKE")
  else if operator = js "__proto__" then some (js "[object Object]")
  else
    match JsValue.fromObjectPrototype operator with
    | .undefined => none
    | inherited => some inherited.text

def wildcards (operator : Option Json) : Option (JsString × JsString) :=
  if includes [js "contains"] operator then some (js "%", js "%")
  else if includes [js "starts_with"] operator then some ([], js "%")
  else if includes [js "ends_with"] operator then some (js "%", [])
  else none

/-! ### Conditions -/

def typeOf : Option Json → JsString
  | none => js "undefined"
  | some (.boolean _) => js "boolean"
  | some (.number _) => js "number"
  | some (.string _) => js "string"
  | some .null | some (.array _) | some (.object _) => js "object"

def isArray : Option Json → Bool
  | some (.array _) => true
  | _ => false

def placeholderText (index : Nat) : JsString := Utf16.encode ('$' :: Nat.toDigits 10 index)

/-- Parameters; one may be `undefined`. -/
abbrev Params := List (Option Json)

/-- `field === "ledger" && typeof value === "number"` leaves the operator unread. -/
def readsList (column : Column) (operator value : Option Json) : Bool :=
  includes [js "in"] operator && !(column = .ledger && typeOf value = js "number")

def conditionToSql (field operator value : Option Json) (params : Params) (index : Nat) :
    Except Failure (JsString × Params) := do
  let column ← columnOf field
  if readsList column operator value && !isArray value then
    throw (.error (js "IN operator requires array value, got " ++ typeOf value))
  let sqlValue :=
    if readsList column operator value then js "ANY(" ++ placeholderText index ++ js ")"
    else placeholderText index
  let name ← textOf operator
  match operatorMap name with
  | none => throw (.error (js "Unknown operator: " ++ name))
  | some sqlOp =>
    let where_ := column.text ++ js " " ++ sqlOp ++ js " " ++ sqlValue
    match wildcards operator with
    | some (before, after) =>
      let text ← textOf value
      pure (where_,
        (params ++ [value]).set (index - 1) (some (.string (before ++ text ++ after))))
    | none => pure (where_, params ++ [value])

/-! ### Filters -/

/-- `params` and `paramIndex` -/
structure Bindings where
  params : Params
  paramIndex : Nat

/-- `sqlConditions.join(...)` in parentheses. -/
def groupText (operator : Option Json) (isNegated : Bool) (parts : List JsString) : JsString :=
  let joined := (if includes [js "or"] operator then js " OR " else js " AND ").intercalate parts
  (if isNegated then js "NOT (" else js "(") ++ joined ++ js ")"

mutual

def convert : Dsl → Bool → Bindings → Except Failure (JsString × Bindings)
  | .object field operator value conditions, isNegated, bindings =>
    if truthy operator ∧ conditions.truthy then
      match conditions with
      | .list nodes => do
          let (parts, bindings) ←
            convertNodes nodes (isNegated || includes [js "not"] operator) bindings
          pure (groupText operator isNegated parts, bindings)
      -- `map` is a method of arrays only.
      | _ => throw .typeError
    else do
      let (text, params) ←
        conditionToSql field operator value bindings.params bindings.paramIndex
      pure (text, ⟨params, bindings.paramIndex + 1⟩)
  | _, _, _ => throw .typeError

/-- `node.conditions.map(...)` -/
def convertNodes : List Dsl → Bool → Bindings → Except Failure (List JsString × Bindings)
  | [], _, bindings => pure ([], bindings)
  | node :: nodes, isNegated, bindings => do
      let (part, bindings) ← convert node isNegated bindings
      let (parts, bindings) ← convertNodes nodes isNegated bindings
      pure (part :: parts, bindings)

end

/-- `filterToSql`, with `where` and `params`. -/
def filterToSql (filter : Dsl) : Except Failure (JsString × Params) := do
  let (text, bindings) ← convert filter false ⟨[], 1⟩
  pure (text, bindings.params)

end SorobanExplorer.SavedFilters
