import SorobanExplorer.Library.JsonReading

/-!
Owns what a tree is once it has been written: numbers in the spelling that
`JSON.stringify` gives them, and `null` for those that are not finite. Two trees with the
same text are written alike.
-/

namespace SorobanExplorer.Library.Json

mutual

def written : Json → Json
  | .number numeral =>
    if (JsNumber.ofNumeral numeral).isFinite then
      .number (JsNumber.ofNumeral numeral).numeral
    else .null
  | .array items => .array (writtenItems items)
  | .object members => .object (writtenMembers members)
  | .null => .null
  | .boolean value => .boolean value
  | .string units => .string units

def writtenItems : List Json → List Json
  | [] => []
  | item :: items => written item :: writtenItems items

def writtenMembers : List (List UInt16 × Json) → List (List UInt16 × Json)
  | [] => []
  | (name, value) :: members => (name, written value) :: writtenMembers members

end

mutual

def Finite : Json → Prop
  | .number numeral => (JsNumber.ofNumeral numeral).isFinite = true
  | .array items => FiniteItems items
  | .object members => FiniteMembers members
  | _ => True

def FiniteItems : List Json → Prop
  | [] => True
  | item :: items => Finite item ∧ FiniteItems items

def FiniteMembers : List (List UInt16 × Json) → Prop
  | [] => True
  | (_, value) :: members => Finite value ∧ FiniteMembers members

end

mutual

theorem stringify_written : ∀ value, stringify (written value) = stringify value
  | .null => rfl
  | .boolean _ => rfl
  | .string _ => rfl
  | .number numeral => by
      rw [written, stringify]
      split
      · next finite => rw [stringify, ofNumeral_numeral finite, if_pos finite]
      · rfl
  | .array items => by rw [written, stringify, stringify, stringifyItems_written items]
  | .object members => by rw [written, stringify, stringify, stringifyMembers_written members]

theorem stringifyItems_written : ∀ items,
    stringifyItems (writtenItems items) = stringifyItems items
  | [] => rfl
  | item :: items => by
      rw [writtenItems, stringifyItems, stringifyItems, stringify_written item,
        stringifyItems_written items]

theorem stringifyMembers_written : ∀ members,
    stringifyMembers (writtenMembers members) = stringifyMembers members
  | [] => rfl
  | (name, value) :: members => by
      rw [writtenMembers, stringifyMembers, stringifyMembers, stringify_written value,
        stringifyMembers_written members]

end

mutual

theorem printed_written : ∀ value, Printed (written value)
  | .null => trivial
  | .boolean _ => trivial
  | .string _ => trivial
  | .number numeral => by
      rw [written]
      split
      · next finite => exact spelled_numeral finite
      · trivial
  | .array items => printedItems_written items
  | .object members => printedMembers_written members

theorem printedItems_written : ∀ items, PrintedItems (writtenItems items)
  | [] => trivial
  | item :: items => ⟨printed_written item, printedItems_written items⟩

theorem printedMembers_written : ∀ members, PrintedMembers (writtenMembers members)
  | [] => trivial
  | (_, value) :: members => ⟨printed_written value, printedMembers_written members⟩

end

mutual

theorem written_of_printed : ∀ value, Printed value → written value = value
  | .null, _ => rfl
  | .boolean _, _ => rfl
  | .string _, _ => rfl
  | .number numeral, printed => by rw [written, if_pos printed.1, printed.2]
  | .array items, printed => by rw [written, writtenItems_of_printed items printed]
  | .object members, printed => by rw [written, writtenMembers_of_printed members printed]

theorem writtenItems_of_printed : ∀ items, PrintedItems items → writtenItems items = items
  | [], _ => rfl
  | item :: items, printed => by
      rw [writtenItems, written_of_printed item printed.1, writtenItems_of_printed items printed.2]

theorem writtenMembers_of_printed : ∀ members, PrintedMembers members →
    writtenMembers members = members
  | [], _ => rfl
  | (_, value) :: members, printed => by
      rw [writtenMembers, written_of_printed value printed.1,
        writtenMembers_of_printed members printed.2]

end

/-! ### What was written -/

theorem writtenMembers_eq_nil {members : List (List UInt16 × Json)}
    (same : writtenMembers members = []) : members = [] := by
  cases members with
  | nil => rfl
  | cons => cases same

theorem writtenMembers_eq_cons {members rest : List (List UInt16 × Json)} {name : List UInt16}
    {value : Json} (same : writtenMembers members = (name, value) :: rest) :
    ∃ original others, members = (name, original) :: others ∧ written original = value ∧
      writtenMembers others = rest := by
  cases members with
  | nil => cases same
  | cons member others =>
    obtain ⟨own, original⟩ := member
    cases same
    exact ⟨original, others, rfl, rfl, rfl⟩

theorem written_eq_string {value : Json} {units : List UInt16}
    (same : written value = .string units) : value = .string units := by
  cases value with
  | string => exact same
  | number numeral =>
    rw [written] at same
    split at same <;> cases same
  | null | boolean | array | object => cases same

theorem written_eq_array {value : Json} {items : List Json} (same : written value = .array items) :
    ∃ originals, value = .array originals ∧ writtenItems originals = items := by
  cases value with
  | array originals =>
    cases same
    exact ⟨originals, rfl, rfl⟩
  | number numeral =>
    rw [written] at same
    split at same <;> cases same
  | null | boolean | string | object => cases same

theorem stringify_injective {left right : Json} (leftPrinted : Printed left)
    (rightPrinted : Printed right) (same : stringify left = stringify right) : left = right := by
  obtain ⟨leftText, leftWrote, leftRead⟩ := parse?_stringify leftPrinted
  obtain ⟨rightText, rightWrote, rightRead⟩ := parse?_stringify rightPrinted
  have texts : leftText = rightText :=
    Utf16.encode_injective (leftWrote.symm.trans (same.trans rightWrote))
  rw [texts] at leftRead
  exact Option.some.inj (leftRead.symm.trans rightRead)

theorem written_of_stringify_eq {value printedValue : Json} (printed : Printed printedValue)
    (same : stringify value = stringify printedValue) : written value = printedValue :=
  stringify_injective (printed_written value) printed ((stringify_written value).trans same)

theorem written_eq_iff {left right : Json} :
    written left = written right ↔ stringify left = stringify right := by
  constructor
  · intro same
    rw [← stringify_written left, same, stringify_written]
  · intro same
    exact written_of_stringify_eq (printed_written right) (same.trans (stringify_written right).symm)

theorem writtenItems_eq_map (items : List Json) : writtenItems items = items.map written := by
  induction items with
  | nil => rfl
  | cons item items ih => rw [writtenItems, ih, List.map_cons]

end SorobanExplorer.Library.Json
