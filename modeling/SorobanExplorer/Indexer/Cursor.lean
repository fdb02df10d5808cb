import SorobanExplorer.Filters.Ast
import SorobanExplorer.Indexer.EventColumns
import SorobanExplorer.Library.Base64
import SorobanExplorer.Library.JsonReading
import SorobanExplorer.Library.Utf8

/-!
Owns the cursors of keyset pages: the hash of the filters, signing, encoding and
decoding a cursor, and the page that a list of rows becomes. The count of all rows,
which a page passes on, is left out.

`decodeCursor_encodeCursor` reads an encoded cursor back.
-/

namespace SorobanExplorer.Indexer

open Library
open Filters (JsString js JsValue)

/-- What a cursor needs of the platform: two hash functions, the collation of strings,
and the bytes of a value that is not a string, `none` where it has none. -/
structure Platform where
  sha256 : List UInt8 → Vector UInt8 32
  hmacSha256 : List UInt8 → List UInt8 → Vector UInt8 32
  localeCompare : JsString → JsString → Ordering
  bufferFrom : JsValue → Option (List UInt8)

def utf8 (units : JsString) : List UInt8 := Utf8.encode (Utf16.decode units)

/-! ### Objects -/

/-- `object[name] = value`: a property that exists keeps its place. -/
def put : List (JsString × Json) → JsString → Json → List (JsString × Json)
  | [], name, value => [(name, value)]
  | (key, old) :: members, name, value =>
    if key = name then (key, value) :: members else (key, old) :: put members name value

def arrayIndex? (name : JsString) : Option Nat :=
  (JsValue.index? name).filter (· < 2 ^ 32 - 1)

def ownOrder (members : List (JsString × Json)) : List (JsString × Json) :=
  (members.filter fun member => (arrayIndex? member.1).isSome).mergeSort
      (fun left right => (arrayIndex? left.1).getD 0 ≤ (arrayIndex? right.1).getD 0) ++
    members.filter fun member => (arrayIndex? member.1).isNone

mutual

/-- The tree of the value that `JSON.parse` builds: no key twice. -/
def built : Json → Json
  | .array items => .array (builtItems items)
  | .object members =>
    .object (ownOrder ((builtMembers members).foldl (fun object member =>
      put object member.1 member.2) []))
  | value => value

def builtItems : List Json → List Json
  | [] => []
  | item :: items => built item :: builtItems items

def builtMembers : List (JsString × Json) → List (JsString × Json)
  | [] => []
  | (name, value) :: members => (name, built value) :: builtMembers members

end

/-! ### Hash and signature -/

def ignoredKeys : List JsString :=
  [js "limit", js "cursor", js "after", js "before", js "offset", js "page", js "count",
    js "after_seq"]

/-- The filters that count, by name. Filters are texts here; `none` is `undefined` or
`null`. -/
def normalizedFilters (platform : Platform) (filters : List (JsString × Option JsString)) :
    List (JsString × Json) :=
  (filters.mergeSort fun left right => (platform.localeCompare left.1 right.1).isLE).filterMap
    fun (key, value) =>
      match value with
      | none => none
      | some units => if units = [] ∨ key ∈ ignoredKeys then none else some (key, .string units)

def hashFilters (platform : Platform) (filters : List (JsString × Option JsString)) : JsString :=
  let normalized := ownOrder (normalizedFilters platform filters)
  Utf16.encode
    ((Hex.encode (platform.sha256 (utf8 (Json.stringify (.object normalized)))).toList).take 16)

def sign (platform : Platform) (dataStr secret : JsString) : JsString :=
  Utf16.encode (Base64url.encode (platform.hmacSha256 (utf8 secret) (utf8 dataStr)).toList)

/-! ### Cursors -/

inductive Direction where
  | forward
  | backward
deriving DecidableEq

def Direction.letter : Direction → JsString
  | .forward => js "f"
  | .backward => js "b"

def jsonNumber (number : JsNumber) : Json := .number number.numeral

def payload (tuple : List Json) (filterHash : JsString) (direction : Direction) : Json :=
  .object [(js "v", jsonNumber (.ofRat 1)), (js "t", .array tuple), (js "fh", .string filterHash),
    (js "d", .string direction.letter)]

def tokenObj (payload : Json) (signature : JsString) : Json :=
  .object [(js "p", payload), (js "s", .string signature)]

def encodeCursor (platform : Platform) (tuple : List Json) (filterHash secret : JsString)
    (direction : Direction) : JsString :=
  let payload := payload tuple filterHash direction
  let signature := sign platform (Json.stringify payload) secret
  Utf16.encode (Base64url.encode (utf8 (Json.stringify (tokenObj payload signature))))

inductive CursorError where
  | invalidCursor (message : JsString)
  | cursorFilterMismatch (message : JsString)
  | typeError
deriving DecidableEq

inductive Token where
  | text (units : JsString)
  | number (value : Option JsNumber)

structure DecodedCursor where
  tuple : List Json
  direction : Direction

def parseCursor? (cursorStr : JsString) : Option Json :=
  (Json.parse? (Utf8.decode (Base64url.decode (Utf16.decode cursorStr)))).map built

/-- `Buffer.from(signature)` -/
def signatureBytes (platform : Platform) : JsValue → Option (List UInt8)
  | .string units => some (utf8 units)
  | value => platform.bufferFrom value

def isText (value : JsValue) (units : JsString) : Bool :=
  match value with
  | .string other => other = units
  | _ => false

def verifyCursor (platform : Platform) (payload signature : JsValue) (tuple : List Json)
    (currentFilterHash secret : JsString) : Except CursorError DecodedCursor :=
  let expectedSig := sign platform ((stringify payload).getD []) secret
  match signatureBytes platform signature with
  | none => throw .typeError
  | some sigBuf =>
    if sigBuf ≠ utf8 expectedSig then
      throw (.invalidCursor (js "Cursor signature verification failed"))
    else if currentFilterHash ≠ [] ∧ truthy (payload.get (js "fh")) ∧
        ¬ isText (payload.get (js "fh")) currentFilterHash then
      throw (.cursorFilterMismatch
        (js "Cursor filter parameters do not match current request filters"))
    else
      pure ⟨tuple, if isText (payload.get (js "d")) (js "b") then .backward else .forward⟩

def openCursor (platform : Platform) (tokenObj : Json) (currentFilterHash secret : JsString) :
    Except CursorError DecodedCursor :=
  let token := JsValue.ofJson tokenObj
  if truthy token && token.isObject && truthy (token.get (js "p")) &&
      truthy (token.get (js "s")) then
    match (token.get (js "p")).get (js "t") with
    | .array tuple =>
      verifyCursor platform (token.get (js "p")) (token.get (js "s")) tuple currentFilterHash
        secret
    | _ => throw (.invalidCursor (js "Invalid cursor payload"))
  else throw (.invalidCursor (js "Invalid cursor structure"))

def decodeCursor (platform : Platform) (cursorStr : Token) (currentFilterHash secret : JsString) :
    Except CursorError DecodedCursor :=
  match cursorStr with
  | .number _ | .text [] => throw (.invalidCursor (js "Missing cursor parameter"))
  | .text units =>
    match parseCursor? units with
    | none => throw (.invalidCursor (js "Malformed base64/JSON cursor"))
    | some tokenObj => openCursor platform tokenObj currentFilterHash secret

/-! ### Pages -/

structure PageInfo where
  hasNext : Bool
  hasPrevious : Bool
  startCursor : Option JsString
  endCursor : Option JsString

structure PageResponse (ρ : Type) where
  data : List ρ
  pageInfo : PageInfo
  nextCursor : Option JsString

def trimRows {ρ : Type} (data : List ρ) (hasExtraRow isBackward : Bool) : List ρ :=
  let rows := if isBackward then data.reverse else data
  if hasExtraRow then (if isBackward then rows.drop 1 else rows.dropLast) else rows

def formatPageResponse {ρ : Type} (platform : Platform) (data : List ρ)
    (hasExtraRow isBackward hasAnchor : Bool) (extractTuple : ρ → List Json)
    (filterHash secret : JsString) : PageResponse ρ :=
  let rows := trimRows data hasExtraRow isBackward
  let hasNext := if rows.isEmpty then false else if isBackward then true else hasExtraRow
  let hasPrevious := if rows.isEmpty then false else if isBackward then hasExtraRow else hasAnchor
  let startCursor := rows.head?.map fun row =>
    encodeCursor platform (extractTuple row) filterHash secret .backward
  let endCursor := rows.getLast?.map fun row =>
    encodeCursor platform (extractTuple row) filterHash secret .forward
  { data := rows
    pageInfo := ⟨hasNext, hasPrevious, startCursor, endCursor⟩
    nextCursor := if hasNext then endCursor else none }

theorem formatPageResponse_nextCursor {ρ : Type} (platform : Platform) (data : List ρ)
    (hasExtraRow isBackward hasAnchor : Bool) (extractTuple : ρ → List Json)
    (filterHash secret : JsString) :
    (formatPageResponse platform data hasExtraRow isBackward hasAnchor extractTuple filterHash
        secret).nextCursor =
      if (formatPageResponse platform data hasExtraRow isBackward hasAnchor extractTuple filterHash
          secret).pageInfo.hasNext then
        (trimRows data hasExtraRow isBackward).getLast?.map fun row =>
          encodeCursor platform (extractTuple row) filterHash secret .forward
      else none := rfl

/-! ### Reading a cursor back -/

theorem put_new {members : List (JsString × Json)} {name : JsString} (fresh : name ∉ members.map Prod.fst)
    (value : Json) : put members name value = members ++ [(name, value)] := by
  induction members with
  | nil => rfl
  | cons member members ih =>
    rw [List.map_cons, List.mem_cons, not_or] at fresh
    rw [put, if_neg (Ne.symm fresh.1), ih fresh.2, List.cons_append]

theorem foldl_put {members : List (JsString × Json)} {object : List (JsString × Json)}
    (distinct : ((object ++ members).map Prod.fst).Nodup) :
    members.foldl (fun object member => put object member.1 member.2) object =
      object ++ members := by
  induction members generalizing object with
  | nil => rw [List.foldl_nil, List.append_nil]
  | cons member members ih =>
    have split : object ++ member :: members = object ++ [member] ++ members := by simp
    have fresh : member.1 ∉ object.map Prod.fst := by
      rw [List.map_append, List.nodup_append] at distinct
      exact fun listed => distinct.2.2 member.1 listed member.1 (by simp) rfl
    rw [List.foldl_cons, put_new fresh, split, ih]
    rwa [← split]

theorem ownOrder_of_names {members : List (JsString × Json)}
    (names : ∀ member ∈ members, arrayIndex? member.1 = none) : ownOrder members = members := by
  have none : members.filter (fun member => (arrayIndex? member.1).isSome) = [] :=
    List.filter_eq_nil_iff.mpr fun member listed => by simp [names member listed]
  have all : members.filter (fun member => (arrayIndex? member.1).isNone) = members :=
    List.filter_eq_self.mpr fun member listed => by simp [names member listed]
  rw [ownOrder, none, all, List.mergeSort_nil, List.nil_append]

theorem built_object {members : List (JsString × Json)} (fixed : builtMembers members = members)
    (distinct : (members.map Prod.fst).Nodup)
    (names : ∀ member ∈ members, arrayIndex? member.1 = none) :
    built (.object members) = .object members := by
  have folded := @foldl_put members [] distinct
  rw [built, fixed, folded, List.nil_append, ownOrder_of_names names]

theorem jsonNumber_printed {number : JsNumber} (finite : number.isFinite = true) :
    (jsonNumber number).Printed := Json.spelled_numeral finite

theorem ofRat_natCast_isFinite {value : Nat} (small : value ≤ 2 ^ 53) :
    (JsNumber.ofRat value).isFinite = true := by
  have below : |Binary64.round (value : ℚ)| < Binary64.infinity := by
    rw [Binary64.round_natCast small, abs_of_nonneg (Nat.cast_nonneg _)]
    exact Binary64.natCast_lt_infinity small
  exact decide_eq_true below

/-- A tuple that `JSON.parse` leaves as `JSON.stringify` wrote it. -/
structure Settled (tuple : List Json) : Prop where
  printed : Json.PrintedItems tuple
  built : builtItems tuple = tuple

theorem one_isFinite : (JsNumber.ofRat 1).isFinite = true := by
  have finite := @ofRat_natCast_isFinite 1 (by decide)
  rwa [Nat.cast_one] at finite

section Encoded

variable (platform : Platform) {tuple : List Json} (filterHash secret : JsString)
  (direction : Direction)

theorem payload_printed (settled : Settled tuple) :
    (payload tuple filterHash direction).Printed := by
  refine ⟨jsonNumber_printed one_isFinite, settled.printed, ?_⟩
  simp [Json.PrintedMembers, Json.Printed]

theorem tokenObj_printed {payload : Json} (printed : payload.Printed) (signature : JsString) :
    (tokenObj payload signature).Printed := by
  refine ⟨printed, ?_⟩
  simp [Json.PrintedMembers, Json.Printed]

theorem built_payload (settled : Settled tuple) :
    built (payload tuple filterHash direction) = payload tuple filterHash direction := by
  apply built_object
  · simp only [builtMembers, built, jsonNumber, settled.built]
  · simp only [List.map_cons, List.map_nil]
    decide
  · simp only [List.forall_mem_cons]
    decide

theorem built_tokenObj {payload : Json} (fixed : built payload = payload) (signature : JsString) :
    built (tokenObj payload signature) = tokenObj payload signature := by
  apply built_object
  · simp only [builtMembers, built, fixed]
  · simp only [List.map_cons, List.map_nil]
    decide
  · simp only [List.forall_mem_cons]
    decide

theorem payload_get :
    (JsValue.ofJson (payload tuple filterHash direction)).get (js "t") = .array tuple ∧
    (JsValue.ofJson (payload tuple filterHash direction)).get (js "fh") = .string filterHash ∧
    (JsValue.ofJson (payload tuple filterHash direction)).get (js "d") =
      .string direction.letter :=
  ⟨rfl, rfl, rfl⟩

theorem tokenObj_get (payload : Json) (signature : JsString) :
    (JsValue.ofJson (tokenObj payload signature)).get (js "p") = JsValue.ofJson payload ∧
    (JsValue.ofJson (tokenObj payload signature)).get (js "s") = .string signature :=
  ⟨rfl, rfl⟩

theorem utf8_encode (text : List Char) : utf8 (Utf16.encode text) = Utf8.encode text := by
  rw [utf8, Utf16.decode_encode]

theorem parseCursor?_encodeCursor (settled : Settled tuple) :
    parseCursor? (encodeCursor platform tuple filterHash secret direction) =
      some (tokenObj (payload tuple filterHash direction)
        (sign platform (Json.stringify (payload tuple filterHash direction)) secret)) := by
  have printed := tokenObj_printed (payload_printed filterHash direction settled)
    (sign platform (Json.stringify (payload tuple filterHash direction)) secret)
  obtain ⟨text, written, reads⟩ := Json.parse?_stringify printed
  rw [parseCursor?, encodeCursor, written, utf8_encode, Utf16.decode_encode,
    Base64url.decode_encode, Utf8.decode_encode, reads, Option.map_some,
    built_tokenObj (built_payload filterHash direction settled)]

theorem encodeObject_cons (members : List (JsString × Json)) : ∃ rest,
    Utf16.encode (Base64url.encode (utf8 (Json.stringify (.object members)))) = 0x65 :: rest := by
  have opening (units : List UInt16) : utf8 (0x7B :: units) = 0x7B :: utf8 units := by
    rw [utf8, Utf16.decode_cons_single rfl]
    rfl
  rw [Json.stringify, List.cons_append, opening]
  obtain ⟨letters, same⟩ := Base64url.encode_cons 0x7B _
  rw [same]
  exact ⟨_, rfl⟩

theorem encodeCursor_cons (tuple : List Json) : ∃ rest,
    encodeCursor platform tuple filterHash secret direction = 0x65 :: rest :=
  encodeObject_cons _

theorem sign_ne_nil (dataStr : JsString) : sign platform dataStr secret ≠ [] := by
  apply Utf16.encode_ne_nil
  apply Base64url.encode_ne_nil
  apply List.ne_nil_of_length_pos
  rw [Vector.length_toList]
  decide

theorem verifyCursor_payload :
    verifyCursor platform (JsValue.ofJson (payload tuple filterHash direction))
        (.string (sign platform (Json.stringify (payload tuple filterHash direction)) secret))
        tuple filterHash secret = .ok ⟨tuple, direction⟩ := by
  obtain ⟨-, hash, letter⟩ := @payload_get tuple filterHash direction
  have sameHash : isText (.string filterHash) filterHash = true := decide_eq_true rfl
  have signed : stringify (JsValue.ofJson (payload tuple filterHash direction)) =
      some (Json.stringify (payload tuple filterHash direction)) := rfl
  rw [verifyCursor, signed, Option.getD_some, hash, letter, sameHash]
  simp only [signatureBytes, ne_eq, not_true_eq_false, if_false, and_false]
  cases direction with
  | forward => rfl
  | backward => rfl

theorem openCursor_tokenObj {payload : Json} {signature : JsString}
    (present : truthy (JsValue.ofJson payload) = true) (signed : signature ≠ [])
    (array : (JsValue.ofJson payload).get (js "t") = .array tuple) :
    openCursor platform (tokenObj payload signature) filterHash secret =
      verifyCursor platform (JsValue.ofJson payload) (.string signature) tuple filterHash secret := by
  obtain ⟨p, s⟩ := tokenObj_get payload signature
  have nonempty : truthy (.string signature) = true := by
    rwa [truthy, Bool.not_eq_true', List.isEmpty_eq_false_iff]
  have token : truthy (JsValue.ofJson (tokenObj payload signature)) = true := rfl
  have object : (JsValue.ofJson (tokenObj payload signature)).isObject = true := rfl
  rw [openCursor, p, s, token, object, present, nonempty, array]
  rfl

theorem decodeCursor_encodeCursor (settled : Settled tuple) :
    decodeCursor platform (.text (encodeCursor platform tuple filterHash secret direction))
        filterHash secret = .ok ⟨tuple, direction⟩ := by
  have parsed := parseCursor?_encodeCursor platform filterHash secret direction settled
  obtain ⟨rest, begins⟩ := encodeCursor_cons platform filterHash secret direction tuple
  rw [begins] at parsed ⊢
  rw [decodeCursor, parsed]
  · have signed := sign_ne_nil platform secret
      (Json.stringify (payload tuple filterHash direction))
    have array := (@payload_get tuple filterHash direction).1
    have opened := openCursor_tokenObj platform filterHash secret rfl signed array
    exact opened.trans (verifyCursor_payload platform filterHash secret direction)
  · simp

end Encoded

end SorobanExplorer.Indexer
