import SorobanExplorer.Filters.Sql
import Mathlib.Data.List.Forall2

/-!
Owns the walk along an args path: the member of the document both interpreters
reach, when they reach the same one, and what each of them then reads.
-/

namespace SorobanExplorer.Filters

open Library
open Library.Postgres

/-! ### The member of a path -/

def memberAt : List (List Char) → Json → Option Json
  | [], value => some value
  | key :: path, .object members =>
    (Json.lookup members (Utf16.encode key)).bind (memberAt path)
  | key :: path, .array items =>
    (JsValue.index? (Utf16.encode key)).bind fun index => items[index]?.bind (memberAt path)
  | _ :: _, _ => none

def arrayProperty (key : JsString) : Bool :=
  key = js "length" || JsValue.inherited key || JsValue.arrayMethods.contains key

/-- No step of the path names an inherited property, the length of an array, or
an array index with leading zeros that is in range. -/
def ReadsAlike : List (List Char) → Json → Prop
  | [], _ => True
  | key :: path, .object members =>
    match Json.lookup members (Utf16.encode key) with
    | some member => ReadsAlike path member
    | none => JsValue.inherited (Utf16.encode key) = false
  | key :: path, .array items =>
    match JsValue.index? (Utf16.encode key) with
    | some index => ∀ item, items[index]? = some item → ReadsAlike path item
    | none => arrayProperty (Utf16.encode key) = false ∧
        ∀ index, Jsonb.subscript? key = some index → items.length ≤ index
  | _ :: _, _ => True

/-! ### In JavaScript -/

theorem follow_undefined (path : List (List Char)) : follow .undefined path = .undefined := by
  induction path with
  | nil => rfl
  | cons key path ih => exact ih

theorem follow_of_not_object {value : JsValue} (scalar : value.isObject = false)
    (key : List Char) (path : List (List Char)) : follow value (key :: path) = .undefined := by
  have first : follow value (key :: path) = follow .undefined path := by
    simp [follow, scalar]
  rw [first, follow_undefined]

theorem fromObjectPrototype_eq {key : JsString} (own : JsValue.inherited key = false) :
    JsValue.fromObjectPrototype key = .undefined := by
  simp only [JsValue.inherited, Bool.or_eq_false_iff, decide_eq_false_iff_not] at own
  simp only [JsValue.fromObjectPrototype, own.1.1, own.2, Bool.false_eq_true, if_false]

theorem get_object (members : List (JsString × Json)) {key : JsString}
    (own : Json.lookup members key = none → JsValue.inherited key = false) :
    (JsValue.object members).get key =
      ((Json.lookup members key).map JsValue.ofJson).getD .undefined := by
  unfold JsValue.get
  cases found : Json.lookup members key with
  | some member => simp [found]
  | none =>
    have inherited := own found
    have noProto : key ≠ js "__proto__" := by
      simp only [JsValue.inherited, Bool.or_eq_false_iff, decide_eq_false_iff_not] at inherited
      exact inherited.1.2
    simp [found, noProto, fromObjectPrototype_eq inherited]

theorem get_array_of_not_index (items : List Json) {key : JsString}
    (noIndex : JsValue.index? key = none) (own : arrayProperty key = false) :
    (JsValue.array items).get key = .undefined := by
  simp only [arrayProperty, Bool.or_eq_false_iff, decide_eq_false_iff_not] at own
  obtain ⟨⟨noLength, inherited⟩, noMethod⟩ := own
  have object := fromObjectPrototype_eq inherited
  simp only [JsValue.inherited, Bool.or_eq_false_iff, decide_eq_false_iff_not] at inherited
  simp only [JsValue.get, noIndex, noLength, inherited.1.2, JsValue.fromArrayPrototype,
    inherited.1.1, noMethod, object, Bool.false_eq_true, if_false]

theorem follow_ofJson {path : List (List Char)} {value : Json} (alike : ReadsAlike path value) :
    follow (JsValue.ofJson value) path =
      ((memberAt path value).map JsValue.ofJson).getD .undefined := by
  induction path generalizing value with
  | nil => simp [follow, memberAt]
  | cons key path ih =>
    cases value with
    | object members =>
      have own : Json.lookup members (Utf16.encode key) = none →
          JsValue.inherited (Utf16.encode key) = false := by
        intro absent
        simpa [ReadsAlike, absent] using alike
      have first : follow (JsValue.ofJson (.object members)) (key :: path) =
          follow ((JsValue.object members).get (Utf16.encode key)) path := rfl
      rw [first, get_object members own]
      cases found : Json.lookup members (Utf16.encode key) with
      | some member =>
        have rest : ReadsAlike path member := by simpa [ReadsAlike, found] using alike
        simpa [memberAt, found] using ih rest
      | none => simpa [memberAt, found] using follow_undefined path
    | array items =>
      have first : follow (JsValue.ofJson (.array items)) (key :: path) =
          follow ((JsValue.array items).get (Utf16.encode key)) path := rfl
      rw [first]
      cases place : JsValue.index? (Utf16.encode key) with
      | some index =>
        have rest : ∀ item, items[index]? = some item → ReadsAlike path item := by
          simpa [ReadsAlike, place] using alike
        have read : (JsValue.array items).get (Utf16.encode key) =
            (items[index]?.map JsValue.ofJson).getD .undefined := by
          simp [JsValue.get, place]
        rw [read]
        cases found : items[index]? with
        | some item => simpa [memberAt, place, found] using ih (rest item found)
        | none => simpa [memberAt, place, found] using follow_undefined path
      | none =>
        have own : arrayProperty (Utf16.encode key) = false := by
          simp only [ReadsAlike, place] at alike
          exact alike.1
        rw [get_array_of_not_index items place own, follow_undefined]
        simp [memberAt, place]
    | null => exact follow_of_not_object rfl key path
    | boolean value => exact follow_of_not_object rfl key path
    | number numeral => exact follow_of_not_object rfl key path
    | string units => exact follow_of_not_object rfl key path

/-! ### In PostgreSQL -/

theorem jsonbString?_eq_some {units : JsString} {chars : List Char}
    (converted : jsonbString? units = some chars) :
    units = Utf16.encode chars ∧ Char.ofNat 0 ∉ chars := by
  unfold jsonbString? at converted
  split_ifs at converted with valid
  cases converted
  exact ⟨valid.1.symm, valid.2⟩

theorem jsonbItems?_forall {items : List Json} {converted : List Jsonb}
    (success : jsonbItems? items = some converted) :
    List.Forall₂ (fun item value => jsonb? item = some value) items converted := by
  induction items generalizing converted with
  | nil =>
    cases success
    exact .nil
  | cons item items ih =>
    simp only [jsonbItems?, Option.bind_eq_bind, Option.bind_eq_some_iff, Option.pure_def,
      Option.some.injEq] at success
    obtain ⟨first, firstConverted, rest, restConverted, rfl⟩ := success
    exact .cons firstConverted (ih restConverted)

theorem jsonbMembers?_forall {members : List (JsString × Json)}
    {converted : List (List Char × Jsonb)} (success : jsonbMembers? members = some converted) :
    List.Forall₂ (fun member value =>
      jsonbString? member.1 = some value.1 ∧ jsonb? member.2 = some value.2) members converted := by
  induction members generalizing converted with
  | nil =>
    cases success
    exact .nil
  | cons member members ih =>
    obtain ⟨key, value⟩ := member
    simp only [jsonbMembers?, Option.bind_eq_bind, Option.bind_eq_some_iff, Option.pure_def,
      Option.some.injEq] at success
    obtain ⟨name, nameConverted, item, itemConverted, rest, restConverted, rfl⟩ := success
    exact .cons ⟨nameConverted, itemConverted⟩ (ih restConverted)

theorem lookup_converted {members : List (JsString × Json)} {converted : List (List Char × Jsonb)}
    (related : List.Forall₂ (fun member value =>
      jsonbString? member.1 = some value.1 ∧ jsonb? member.2 = some value.2) members converted)
    (key : List Char) :
    Option.Rel (fun member value => jsonb? member = some value)
      (Json.lookup members (Utf16.encode key)) (Json.lookup converted key) := by
  induction related with
  | nil => exact .none
  | @cons member value members converted first _ ih =>
    obtain ⟨name, item⟩ := member
    obtain ⟨chars, data⟩ := value
    obtain ⟨rfl, -⟩ := jsonbString?_eq_some first.1
    unfold Json.lookup
    generalize Json.lookup members (Utf16.encode key) = left at ih
    generalize Json.lookup converted key = right at ih
    cases ih with
    | some later => exact .some later
    | none =>
      by_cases same : chars = key
      · simp only [same, if_true]
        exact .some first.2
      · have apart : Utf16.encode chars ≠ Utf16.encode key :=
          fun equal => same (Utf16.encode_injective equal)
        simp only [same, apart, if_false]
        exact .none

theorem getElem?_converted {items : List Json} {converted : List Jsonb}
    (related : List.Forall₂ (fun item value => jsonb? item = some value) items converted)
    (index : Nat) :
    Option.Rel (fun item value => jsonb? item = some value) items[index]? converted[index]? := by
  induction related generalizing index with
  | nil => exact .none
  | cons first _ ih =>
    cases index with
    | zero => exact .some first
    | succ index => exact ih index

theorem subscript?_of_index? {key : List Char} {index : Nat}
    (place : JsValue.index? (Utf16.encode key) = some index) :
    Jsonb.subscript? key = some index := by
  unfold JsValue.index? at place
  rw [Utf16.decode_encode] at place
  split at place
  next first rest digits =>
    have read : Jsonb.subscript? key = some (Digit.number (first :: rest)) := by
      rw [Jsonb.subscript?, digits]
    split_ifs at place with leading
    exact read.trans place
  next => cases place

theorem extract?_converted {path : List (List Char)} {value : Json} {data : Jsonb}
    (alike : ReadsAlike path value) (converted : jsonb? value = some data) :
    Option.Rel (fun member value => jsonb? member = some value) (memberAt path value)
      (data.extract? path) := by
  induction path generalizing value data with
  | nil => exact .some converted
  | cons key path ih =>
    cases value with
    | object members =>
      obtain ⟨values, success, rfl⟩ : ∃ values, jsonbMembers? members = some values ∧
          .object values = data := by simpa [jsonb?] using converted
      have related := lookup_converted (jsonbMembers?_forall success) key
      simp only [memberAt, Jsonb.extract?, Jsonb.step?]
      simp only [ReadsAlike] at alike
      generalize Json.lookup members (Utf16.encode key) = left at related alike
      generalize Json.lookup values key = right at related
      cases related with
      | some member => exact ih alike member
      | none => exact .none
    | array items =>
      obtain ⟨values, success, rfl⟩ : ∃ values, jsonbItems? items = some values ∧
          .array values = data := by simpa [jsonb?] using converted
      have related := jsonbItems?_forall success
      simp only [memberAt, Jsonb.extract?, Jsonb.step?]
      simp only [ReadsAlike] at alike
      cases place : JsValue.index? (Utf16.encode key) with
      | some index =>
        rw [subscript?_of_index? place]
        simp only [place] at alike
        have element := getElem?_converted related index
        simp only [Option.bind_some]
        generalize items[index]? = left at element alike
        generalize values[index]? = right at element
        cases element with
        | some item => exact ih (alike _ rfl) item
        | none => exact .none
      | none =>
        rw [place] at alike
        cases subscript : Jsonb.subscript? key with
        | none => exact .none
        | some index =>
          have outside : values[index]? = none := by
            rw [List.getElem?_eq_none_iff, ← related.length_eq]
            exact alike.2 index subscript
          rw [Option.bind_some, outside]
          exact .none
    | null =>
      cases converted
      exact .none
    | boolean value =>
      cases converted
      exact .none
    | number numeral =>
      obtain ⟨-, rfl⟩ : numericRange numeral = true ∧ Jsonb.numeric numeral = data := by
        simpa [jsonb?] using converted
      exact .none
    | string units =>
      obtain ⟨chars, -, rfl⟩ : ∃ chars, jsonbString? units = some chars ∧
          Jsonb.string chars = data := by simpa [jsonb?] using converted
      exact .none

end SorobanExplorer.Filters
