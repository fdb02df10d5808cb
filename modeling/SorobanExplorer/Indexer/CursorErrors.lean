import SorobanExplorer.Filters.Containment
import SorobanExplorer.Filters.Planner
import SorobanExplorer.Indexer.Cursor

/-!
Owns what `decodeCursor` throws: `Buffer.from` of a parsed signature, the values it refuses, and the
strings for which something else than the two errors of cursors escapes.

The depth to which the stack allows values to be nested is left out.
-/

namespace SorobanExplorer.Indexer

open Library
open Filters (JsString js JsValue Number anyTextless stringOf stringOf_cases
  stringToNumber textless toNumber? truthyJson)

namespace CursorErrors

/-! ### Buffers -/

def byteOf : Number → UInt8
  | none => 0
  | some number =>
    if number.isFinite then
      UInt8.ofNat ((if number.value < 0 then ⌈number.value⌉ else ⌊number.value⌋) % 256).toNat
    else 0

/-- The bytes of values, `none` where one of them cannot be converted to a number. -/
def bytesOf (items : List (Option Json)) : Option (List UInt8) :=
  items.mapM fun item => (toNumber? item).toOption.map byteOf

def indexName (index : ℕ) : JsString := Utf16.encode ((Digit.ofNat index).map Digit.char)

def itemsTo (members : List (JsString × Json)) (length : ℕ) : List (Option Json) :=
  (List.range length).map fun index => Json.lookup members (indexName index)

/-- `fromObject`, for an object from JSON. -/
def fromObject (kMaxLength : ℕ) (members : List (JsString × Json)) : Option (List UInt8) :=
  match Json.lookup members (js "length") with
  | some (.number numeral) =>
    let length := ⌊(JsNumber.ofNumeral numeral).value⌋.toNat
    if length ≤ kMaxLength then bytesOf (itemsTo members length) else none
  | some _ => some []
  | none =>
    match Json.lookup members (js "type"), Json.lookup members (js "data") with
    | some (.string type), some (.array items) =>
      if type = js "Buffer" then bytesOf (items.map some) else none
    | _, _ => none

/-- `Buffer.from(value)`, for a value from JSON: a `valueOf` that is not falsy is called and is no
function, and one that is the empty string is taken for the value. -/
def bufferFrom (kMaxLength : ℕ) : JsValue → Option (List UInt8)
  | .string units => some (utf8 units)
  | .array items => bytesOf (items.map some)
  | .object members =>
    match Json.lookup members (js "valueOf") with
    | some value =>
      if truthyJson value then none
      else if value matches .string _ then some []
      else fromObject kMaxLength members
    | none => fromObject kMaxLength members
  | _ => none

/-! ### Values that have no buffer -/

def anyUnconvertible (items : List (Option Json)) : Bool := items.any fun item => item.any textless

/-- An object that stands for no bytes: its length is too large or one of its items cannot be
converted, or it has no length and is not the JSON of a buffer. -/
def bytelessObject (kMaxLength : ℕ) (members : List (JsString × Json)) : Bool :=
  match Json.lookup members (js "length") with
  | some (.number numeral) =>
    let length := ⌊(JsNumber.ofNumeral numeral).value⌋.toNat
    decide (kMaxLength < length) || anyUnconvertible (itemsTo members length)
  | some _ => false
  | none =>
    match Json.lookup members (js "type"), Json.lookup members (js "data") with
    | some (.string type), some (.array items) => type ≠ js "Buffer" || anyTextless items
    | _, _ => true

def byteless (kMaxLength : ℕ) : Json → Bool
  | .string _ => false
  | .null | .boolean _ | .number _ => true
  | .array items => anyTextless items
  | .object members =>
    match Json.lookup members (js "valueOf") with
    | some (.string units) => units ≠ []
    | some value => truthyJson value || bytelessObject kMaxLength members
    | none => bytelessObject kMaxLength members

def Byteless (kMaxLength : ℕ) (cursorStr : JsString) : Prop :=
  ∃ members payload tuple signature, parseCursor? cursorStr = some (.object members) ∧
    Json.lookup members (js "p") = some (.object payload) ∧
    Json.lookup payload (js "t") = some (.array tuple) ∧
    Json.lookup members (js "s") = some signature ∧ truthyJson signature = true ∧
    byteless kMaxLength signature = true

def Mapped : CursorError → Prop
  | .invalidCursor _ | .cursorFilterMismatch _ => True
  | .typeError => False

def onNode (platform : Platform) (kMaxLength : ℕ) : Platform :=
  { platform with bufferFrom := bufferFrom kMaxLength }

/-! ### Conversions -/

theorem textNumber_toOption (value : Json) :
    (stringOf value >>= fun text => pure (stringToNumber text)).toOption = none ↔
      textless value = true := by
  obtain ⟨lacks, fails⟩ | ⟨has, text, converts⟩ := stringOf_cases value
  · rw [fails, lacks]
    exact iff_of_true rfl rfl
  · rw [converts, has]
    exact iff_of_false nofun Bool.false_ne_true

theorem toNumber?_toOption (item : Option Json) :
    (toNumber? item).toOption = none ↔ item.any textless = true := by
  cases item with
  | none => simp [toNumber?, pure, Except.pure, Except.toOption]
  | some value =>
    rw [Option.any_some]
    cases value with
    | null | boolean | number | string =>
      simp [toNumber?, textless, pure, Except.pure, Except.toOption]
    | array items => exact textNumber_toOption (.array items)
    | object members => exact textNumber_toOption (.object members)

theorem bytesOf_eq_none_iff (items : List (Option Json)) :
    bytesOf items = none ↔ anyUnconvertible items = true := by
  induction items with
  | nil => exact iff_of_false nofun Bool.false_ne_true
  | cons item items ih =>
    have first := toNumber?_toOption item
    rw [bytesOf, List.mapM_cons, anyUnconvertible, List.any_cons, Bool.or_eq_true]
    rw [← first]
    rw [bytesOf, anyUnconvertible] at ih
    rw [← ih]
    cases (toNumber? item).toOption with
    | none => exact iff_of_true rfl (.inl rfl)
    | some number =>
      cases items.mapM fun item => (toNumber? item).toOption.map byteOf with
      | none => exact iff_of_true rfl (.inr rfl)
      | some bytes => exact iff_of_false nofun (not_or.mpr ⟨nofun, nofun⟩)

theorem anyUnconvertible_map_some (items : List Json) :
    anyUnconvertible (items.map some) = anyTextless items := by
  induction items with
  | nil => rfl
  | cons item items ih =>
    rw [anyUnconvertible] at ih ⊢
    rw [List.map_cons, List.any_cons, ih, anyTextless, Option.any_some]

theorem fromObject_eq_none_iff (kMaxLength : ℕ) (members : List (JsString × Json)) :
    fromObject kMaxLength members = none ↔ bytelessObject kMaxLength members = true := by
  unfold fromObject bytelessObject
  split
  · simp only
    split_ifs with fits
    · rw [bytesOf_eq_none_iff, decide_eq_false (not_lt.mpr fits), Bool.false_or]
    · rw [decide_eq_true (not_le.mp fits), Bool.true_or]
      exact iff_of_true rfl rfl
  · exact iff_of_false nofun Bool.false_ne_true
  · split
    · split_ifs with named
      · rw [bytesOf_eq_none_iff, anyUnconvertible_map_some]
        simp [named]
      · simp [named]
    · exact iff_of_true rfl rfl

theorem bufferFrom_eq_none_iff (kMaxLength : ℕ) (value : Json) :
    bufferFrom kMaxLength (.ofJson value) = none ↔ byteless kMaxLength value = true := by
  cases value with
  | null | boolean | number => exact iff_of_true rfl rfl
  | string => exact iff_of_false nofun Bool.false_ne_true
  | array items =>
    rw [JsValue.ofJson, bufferFrom, byteless, bytesOf_eq_none_iff, anyUnconvertible_map_some]
  | object members =>
    have object := fromObject_eq_none_iff kMaxLength members
    rw [JsValue.ofJson, bufferFrom, byteless]
    cases own : Json.lookup members (js "valueOf") with
    | none => exact object
    | some value =>
      cases value with
      | string units =>
        cases units with
        | nil => simp [truthyJson]
        | cons => simp [truthyJson]
      | null | boolean | number | array | object =>
        simp only [Bool.false_eq_true, if_false]
        split_ifs with holds
        · simp [holds]
        · rw [Bool.not_eq_true] at holds
          rw [holds, Bool.false_or]
          exact object

/-! ### What escapes -/

section Escapes

variable {platform : Platform} {kMaxLength : ℕ} {currentFilterHash secret : JsString}

theorem truthy_ofJson (value : Json) : truthy (.ofJson value) = truthyJson value := by
  cases value with
  | number numeral =>
    rw [JsValue.ofJson, truthy, truthyJson]
    exact (decide_not).symm
  | string units => cases units <;> rfl
  | null | boolean | array | object => rfl

theorem get_ofJson {value : Json} {name : JsString} (own : name ≠ js "__proto__")
    (inherits : JsValue.fromObjectPrototype name = .undefined) (index : JsValue.index? name = none)
    (length : name ≠ js "length") (method : JsValue.fromArrayPrototype name = .undefined) :
    (JsValue.ofJson value).get name =
      match value with
      | .object members => ((Json.lookup members name).map JsValue.ofJson).getD .undefined
      | _ => .undefined := by
  cases value with
  | object members =>
    simp only [JsValue.ofJson, JsValue.get]
    cases Json.lookup members name with
    | none => simp [own, inherits]
    | some member => rfl
  | array items => simp [JsValue.ofJson, JsValue.get, index, length, own, method]
  | null | boolean | number | string => rfl

theorem verifyCursor_typeError_iff (payload signature : JsValue) (tuple : List Json) :
    verifyCursor platform payload signature tuple currentFilterHash secret = .error .typeError ↔
      signatureBytes platform signature = none := by
  unfold verifyCursor
  simp only
  cases signatureBytes platform signature with
  | none => exact iff_of_true rfl rfl
  | some sigBuf =>
    simp only [reduceCtorEq, iff_false]
    split_ifs <;> exact nofun

theorem signatureBytes_eq_none_iff (signature : Json) :
    signatureBytes (onNode platform kMaxLength) (.ofJson signature) = none ↔
      byteless kMaxLength signature = true := by
  rw [← bufferFrom_eq_none_iff]
  cases signature <;> rfl

theorem truthy_undefined : truthy .undefined = false := rfl

theorem throw_ne (message : JsString) :
    (throw (.invalidCursor message) : Except CursorError DecodedCursor) = .error .typeError ↔
      False := iff_of_false nofun id

theorem get_read {name : JsString} (read : name = js "p" ∨ name = js "s" ∨ name = js "t")
    (value : Json) :
    (JsValue.ofJson value).get name =
      match value with
      | .object members => ((Json.lookup members name).map JsValue.ofJson).getD .undefined
      | _ => .undefined := by
  obtain rfl | rfl | rfl := read
  · exact get_ofJson (by decide) rfl rfl (by decide) rfl
  · exact get_ofJson (by decide) rfl rfl (by decide) rfl
  · exact get_ofJson (by decide) rfl rfl (by decide) rfl

theorem openCursor_typeError_iff (tokenObj : Json) :
    openCursor (onNode platform kMaxLength) tokenObj currentFilterHash secret =
        .error .typeError ↔
      ∃ members payload tuple signature, tokenObj = .object members ∧
        Json.lookup members (js "p") = some (.object payload) ∧
        Json.lookup payload (js "t") = some (.array tuple) ∧
        Json.lookup members (js "s") = some signature ∧ truthyJson signature = true ∧
        byteless kMaxLength signature = true := by
  have getP := get_read (.inl rfl) tokenObj
  have getS := get_read (.inr (.inl rfl)) tokenObj
  unfold openCursor
  simp only [getP, getS]
  cases tokenObj with
  | null | boolean | number | string | array => simp [truthy_undefined, throw_ne]
  | object members =>
    simp only [Json.object.injEq, exists_and_left, exists_eq_left']
    cases foundP : Json.lookup members (js "p") with
    | none => simp [truthy_undefined, throw_ne]
    | some payload =>
    cases foundS : Json.lookup members (js "s") with
    | none => simp [truthy_undefined, throw_ne]
    | some signature =>
      have getT := get_read (.inr (.inr rfl)) payload
      simp only [Option.map_some, Option.getD_some, getT, truthy_ofJson]
      cases signed : truthyJson signature with
      | false => simp [throw_ne, signed]
      | true =>
        cases payload with
        | null | boolean | number | string | array =>
          simp only [reduceCtorEq, Option.some.injEq, false_and, exists_false, iff_false]
          split_ifs <;> exact nofun
        | object payload =>
          have token : (truthyJson (.object members) && (JsValue.ofJson
              (.object members)).isObject && truthyJson (.object payload) && true) =
              true := rfl
          rw [if_pos token]
          cases foundT : Json.lookup payload (js "t") with
          | none => simp [throw_ne, foundT]
          | some value =>
            cases value with
            | null | boolean | number | string | object =>
              simp [throw_ne, foundT, JsValue.ofJson]
            | array tuple =>
              dsimp only
              rw [foundT]
              refine (verifyCursor_typeError_iff (.object payload)
                (.ofJson signature) tuple).trans ?_
              rw [signatureBytes_eq_none_iff]
              simp [foundT, signed]

end Escapes

theorem parseCursor?_nil : parseCursor? [] = none := rfl

theorem decodeCursor_typeError_iff (platform : Platform) (kMaxLength : ℕ)
    (cursorStr currentFilterHash secret : JsString) :
    decodeCursor (onNode platform kMaxLength) (.text cursorStr) currentFilterHash secret =
      .error .typeError ↔ Byteless kMaxLength cursorStr := by
  unfold Byteless
  cases cursorStr with
  | nil => simp [parseCursor?_nil, decodeCursor, throw_ne]
  | cons unit units =>
    rw [decodeCursor]
    · cases parseCursor? (unit :: units) with
      | none => simp [throw_ne]
      | some tokenObj =>
        simp only [Option.some.injEq]
        exact openCursor_typeError_iff tokenObj
    · rintro ⟨⟩

theorem mapped_iff (error : CursorError) : Mapped error ↔ error ≠ .typeError := by
  cases error <;> simp [Mapped]

/-- Only the two errors of cursors escape, exactly where the string is not a token whose signature
has no buffer. -/
theorem decodeCursor_mapped_iff (platform : Platform) (kMaxLength : ℕ)
    (cursorStr currentFilterHash secret : JsString) :
    (∀ error, decodeCursor (onNode platform kMaxLength) (.text cursorStr) currentFilterHash
        secret = .error error → Mapped error) ↔ ¬ Byteless kMaxLength cursorStr := by
  rw [← decodeCursor_typeError_iff platform kMaxLength cursorStr currentFilterHash secret]
  constructor
  · exact fun mapped thrown => mapped _ thrown
  · intro other error thrown
    rw [mapped_iff]
    rintro rfl
    exact other thrown

def zeroPlatform : Platform where
  sha256 _ := .replicate 32 0
  hmacSha256 _ _ := .replicate 32 0
  localeCompare _ _ := .eq
  bufferFrom _ := none

/-- The cursor of the token `\x7b"p":\x7b"t":[]\x7d,"s":1\x7d`. -/
def numberSigned : JsString := js "eyJwIjp7InQiOltdfSwicyI6MX0"

def escapes : Except CursorError DecodedCursor → Bool
  | .error .typeError => true
  | _ => false

theorem numberSigned_escapes :
    ¬ ∀ error, decodeCursor (onNode zeroPlatform 4294967296) (.text numberSigned) [] (js "secret") =
        .error error → Mapped error := by
  intro mapped
  have outcome : escapes (decodeCursor (onNode zeroPlatform 4294967296) (.text numberSigned) []
      (js "secret")) = true := by decide +kernel
  cases decoded : decodeCursor (onNode zeroPlatform 4294967296) (.text numberSigned) []
      (js "secret") with
  | ok => simp [decoded, escapes] at outcome
  | error error =>
    rw [decoded] at outcome
    cases error with
    | invalidCursor | cursorFilterMismatch => cases outcome
    | typeError => exact mapped _ decoded

end CursorErrors

end SorobanExplorer.Indexer
