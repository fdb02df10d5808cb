import Mathlib.Data.Set.Basic
import SorobanExplorer.Indexer.Cursor
import SorobanExplorer.Library.JsonWritten

/-!
Owns what a cursor that is accepted says about those that were issued. A token is verified
by the text of its parsed payload, so accepting it means that this text was signed: filter
hash and direction are those of an `encodeCursor` call, and so is the tuple as far as its
numbers are finite. A payload without a filter hash fits every request.
-/

namespace SorobanExplorer.Indexer

open Library
open Filters (JsString js JsValue)

/-- The arguments of an `encodeCursor` call. -/
structure CursorCall where
  tuple : List Json
  filterHash : JsString
  direction : Direction

def CursorCall.payload (call : CursorCall) : Json :=
  Indexer.payload call.tuple call.filterHash call.direction

def presentation (platform : Platform) (cursorStr : JsString) :
    Option (JsString × List UInt8) := do
  let tokenObj ← parseCursor? cursorStr
  let token := JsValue.ofJson tokenObj
  let sigBuf ← signatureBytes platform (token.get (js "s"))
  pure ((stringify (token.get (js "p"))).getD [], sigBuf)

def Unforgeable (platform : Platform) (secret : JsString) (calls : Set CursorCall)
    (presented : Set JsString) : Prop :=
  ∀ cursorStr ∈ presented, ∀ text sigBuf, presentation platform cursorStr = some (text, sigBuf) →
    sigBuf = utf8 (sign platform text secret) →
      ∃ call ∈ calls, text = Json.stringify call.payload

theorem presentation_encodeCursor (platform : Platform) {tuple : List Json}
    (filterHash secret : JsString) (direction : Direction) (settled : Settled tuple) :
    presentation platform (encodeCursor platform tuple filterHash secret direction) =
      some (Json.stringify (payload tuple filterHash direction),
        utf8 (sign platform (Json.stringify (payload tuple filterHash direction)) secret)) := by
  rw [presentation, parseCursor?_encodeCursor platform filterHash secret direction settled]
  rfl

section Accepted

variable {platform : Platform} {cursorStr currentFilterHash secret : JsString}
  {decoded : DecodedCursor}

structure Accepted (platform : Platform) (payload signature : JsValue)
    (currentFilterHash secret : JsString) (decoded : DecodedCursor) : Prop where
  tuple : payload.get (js "t") = .array decoded.tuple
  signed : signatureBytes platform signature =
    some (utf8 (sign platform ((stringify payload).getD []) secret))
  fits : currentFilterHash ≠ [] → truthy (payload.get (js "fh")) = true →
    isText (payload.get (js "fh")) currentFilterHash = true
  direction : decoded.direction =
    if isText (payload.get (js "d")) (js "b") then .backward else .forward

theorem accepted_of_verifyCursor {payload signature : JsValue} {tuple : List Json}
    (array : payload.get (js "t") = .array tuple)
    (verified : verifyCursor platform payload signature tuple currentFilterHash secret =
      .ok decoded) : Accepted platform payload signature currentFilterHash secret decoded := by
  unfold verifyCursor at verified
  cases bytes : signatureBytes platform signature with
  | none =>
    rw [bytes] at verified
    cases verified
  | some sigBuf =>
    rw [bytes] at verified
    by_cases genuine : sigBuf = utf8 (sign platform ((stringify payload).getD []) secret)
    · by_cases mismatch : currentFilterHash ≠ [] ∧ truthy (payload.get (js "fh")) ∧
          ¬ isText (payload.get (js "fh")) currentFilterHash
      · simp only [genuine, ne_eq, not_true_eq_false, if_false] at verified
        rw [if_pos mismatch] at verified
        cases verified
      · simp only [genuine, ne_eq, not_true_eq_false, if_false] at verified
        rw [if_neg mismatch] at verified
        cases verified
        constructor
        · exact array
        · rw [bytes, genuine]
        · intro current present
          by_contra differs
          exact mismatch ⟨current, present, differs⟩
        · rfl
    · simp only [ne_eq, genuine, not_false_eq_true, if_true] at verified
      cases verified

theorem accepted_of_decodeCursor
    (accepted : decodeCursor platform (.text cursorStr) currentFilterHash secret = .ok decoded) :
    ∃ tokenObj, parseCursor? cursorStr = some tokenObj ∧
      Accepted platform ((JsValue.ofJson tokenObj).get (js "p"))
        ((JsValue.ofJson tokenObj).get (js "s")) currentFilterHash secret decoded := by
  unfold decodeCursor at accepted
  split at accepted
  · cases accepted
  · cases accepted
  · next units _ same =>
      cases same
      split at accepted
      · cases accepted
      · next tokenObj parsed =>
          refine ⟨tokenObj, parsed, ?_⟩
          unfold openCursor at accepted
          dsimp only at accepted
          split at accepted
          · split at accepted
            · next tuple array => exact accepted_of_verifyCursor array accepted
            · cases accepted
          · cases accepted

theorem object_of_tuple {value : JsValue} {items : List Json}
    (array : value.get (js "t") = .array items) : ∃ members, value = .object members := by
  cases value with
  | object members => exact ⟨members, rfl⟩
  | array others =>
    have index : JsValue.index? (js "t") = none := by decide
    rw [JsValue.get, index] at array
    cases array
  | undefined | null | boolean | number | string | function => cases array
  | objectPrototype => cases array
  | arrayPrototype => cases array

theorem members_of_text {members : List (JsString × Json)} {call : CursorCall}
    (settled : Settled call.tuple)
    (same : Json.stringify (.object members) = Json.stringify call.payload) :
    ∃ version tuple, members = [(js "v", version), (js "t", .array tuple),
      (js "fh", .string call.filterHash), (js "d", .string call.direction.letter)] ∧
        Json.writtenItems tuple = call.tuple := by
  have printed := payload_printed call.filterHash call.direction settled
  have respelled := Json.object.inj (Json.written_of_stringify_eq printed same)
  obtain ⟨version, second, rfl, -, sameSecond⟩ := Json.writtenMembers_eq_cons respelled
  obtain ⟨values, third, rfl, writtenTuple, sameThird⟩ := Json.writtenMembers_eq_cons sameSecond
  obtain ⟨hash, fourth, rfl, writtenHash, sameFourth⟩ := Json.writtenMembers_eq_cons sameThird
  obtain ⟨letter, others, rfl, writtenLetter, none⟩ := Json.writtenMembers_eq_cons sameFourth
  obtain ⟨tuple, rfl, items⟩ := Json.written_eq_array writtenTuple
  cases Json.written_eq_string writtenHash
  cases Json.written_eq_string writtenLetter
  cases Json.writtenMembers_eq_nil none
  exact ⟨version, tuple, rfl, items⟩

theorem call_of_accepted {payload signature : JsValue} {call : CursorCall}
    (accepted : Accepted platform payload signature currentFilterHash secret decoded)
    (settled : Settled call.tuple)
    (text : (stringify payload).getD [] = Json.stringify call.payload) :
    Json.writtenItems decoded.tuple = call.tuple ∧ decoded.direction = call.direction ∧
      (currentFilterHash ≠ [] → call.filterHash ≠ [] → call.filterHash = currentFilterHash) := by
  obtain ⟨array, -, fits, direction⟩ := accepted
  obtain ⟨members, rfl⟩ := object_of_tuple array
  obtain ⟨version, tuple, rfl, written⟩ := members_of_text settled text
  cases array
  refine ⟨written, ?_, ?_⟩
  · rw [direction]
    cases call.direction <;> rfl
  · intro current hash
    have present : truthy (.string call.filterHash) = true := by
      rwa [truthy, Bool.not_eq_true', List.isEmpty_eq_false_iff]
    exact of_decide_eq_true (fits current present)

end Accepted

theorem verifyCursor_unbound (platform : Platform) (tuple : List Json)
    (currentFilterHash secret : JsString) (direction : Direction) :
    verifyCursor platform (JsValue.ofJson (payload tuple [] direction))
        (.string (sign platform (Json.stringify (payload tuple [] direction)) secret)) tuple
        currentFilterHash secret = .ok ⟨tuple, direction⟩ := by
  obtain ⟨-, hash, letter⟩ := @payload_get tuple [] direction
  have signed : stringify (JsValue.ofJson (payload tuple [] direction)) =
      some (Json.stringify (payload tuple [] direction)) := rfl
  have absent : truthy (.string []) = false := rfl
  rw [verifyCursor, signed, Option.getD_some, hash, letter, absent]
  simp only [signatureBytes, ne_eq, not_true_eq_false, if_false, Bool.false_eq_true, false_and,
    and_false]
  cases direction with
  | forward => rfl
  | backward => rfl

theorem decodeCursor_unbound (platform : Platform) {tuple : List Json}
    (currentFilterHash secret : JsString) (direction : Direction) (settled : Settled tuple) :
    decodeCursor platform (.text (encodeCursor platform tuple [] secret direction))
        currentFilterHash secret = .ok ⟨tuple, direction⟩ := by
  have parsed := parseCursor?_encodeCursor platform [] secret direction settled
  obtain ⟨rest, begins⟩ := encodeCursor_cons platform [] secret direction tuple
  rw [begins] at parsed ⊢
  rw [decodeCursor, parsed]
  · have signed := sign_ne_nil platform secret (Json.stringify (payload tuple [] direction))
    have array := (@payload_get tuple [] direction).1
    have opened := openCursor_tokenObj platform currentFilterHash secret rfl signed array
    exact opened.trans (verifyCursor_unbound platform tuple currentFilterHash secret direction)
  · simp

/-- Encoded cursors are read back; and of what is presented only cursors with the filter
hash, the direction and, if its numbers are finite, the tuple of a call are accepted. -/
theorem decodeCursor_sound (platform : Platform) (secret : JsString) :
    (∀ tuple filterHash direction, Settled tuple →
      decodeCursor platform (.text (encodeCursor platform tuple filterHash secret direction))
        filterHash secret = .ok ⟨tuple, direction⟩) ∧
    ∀ (calls : Set CursorCall) (presented : Set JsString),
      (∀ call ∈ calls, Settled call.tuple) → Unforgeable platform secret calls presented →
        ∀ cursorStr ∈ presented, ∀ currentFilterHash decoded,
          decodeCursor platform (.text cursorStr) currentFilterHash secret = .ok decoded →
            ∃ call ∈ calls,
              (Json.FiniteItems decoded.tuple → Json.writtenItems decoded.tuple = call.tuple) ∧
              decoded.direction = call.direction ∧
              (currentFilterHash ≠ [] → call.filterHash ≠ [] →
                call.filterHash = currentFilterHash) := by
  constructor
  · intro tuple filterHash direction settled
    exact decodeCursor_encodeCursor platform filterHash secret direction settled
  · intro calls presented settled unforgeable cursorStr member currentFilterHash decoded decodes
    obtain ⟨tokenObj, parsed, accepted⟩ := accepted_of_decodeCursor decodes
    have presents : presentation platform cursorStr =
        some ((stringify ((JsValue.ofJson tokenObj).get (js "p"))).getD [],
          utf8 (sign platform ((stringify ((JsValue.ofJson tokenObj).get (js "p"))).getD [])
            secret)) := by
      rw [presentation, parsed]
      simp only [Option.bind_eq_bind, Option.bind_some, accepted.signed]
      rfl
    obtain ⟨call, issued, text⟩ := unforgeable cursorStr member _ _ presents rfl
    obtain ⟨tuple, direction, hash⟩ := call_of_accepted accepted (settled call issued) text
    exact ⟨call, issued, fun _ => tuple, direction, hash⟩

/-! ### A cursor without a filter hash -/

def signedFive (filterHash : String) : List UInt8 :=
  Utf8.encode ("\x7b\"v\":1,\"t\":[5],\"fh\":\"" ++ filterHash ++ "\",\"d\":\"f\"\x7d").toList

def hexDigest (digits : String) : Vector UInt8 32 :=
  Vector.ofFn fun index => (Hex.decode digits.toList).getD index 0

def cursorPlatform : Platform where
  sha256 := fun _ => hexDigest ""
  hmacSha256 := fun _ bytes =>
    if bytes = signedFive "" then
      hexDigest "6a74e21662e8bfab3b6c14c72256107dd138aaf958e6c101f29c150790eee521"
    else if bytes = signedFive "44136fa355b3678a" then
      hexDigest "2078965f99fbe334ef4e7b5f825c13d74bcb586353f896fc0619392efa8cc819"
    else hexDigest ""
  localeCompare := fun left right => compare left right
  bufferFrom := fun _ => none

def defaultSecret : JsString := js "soroban-smart-block-cursor-secret-key-32chars!"

def currentHash : JsString := js "44136fa355b3678a"

def five (filterHash : JsString) : CursorCall :=
  ⟨[jsonNumber (.ofRat (5 : ℕ))], filterHash, .forward⟩

def fiveCursor (filterHash : JsString) : JsString :=
  encodeCursor cursorPlatform (five filterHash).tuple filterHash defaultSecret .forward

theorem settled_five (filterHash : JsString) : Settled (five filterHash).tuple where
  printed := ⟨jsonNumber_printed (ofRat_natCast_isFinite (by norm_num)), trivial⟩
  built := rfl

theorem unforgeable_five (filterHash : JsString) :
    Unforgeable cursorPlatform defaultSecret {five filterHash} {fiveCursor filterHash} := by
  rintro cursorStr rfl text sigBuf presents -
  rw [fiveCursor, presentation_encodeCursor _ _ _ _ (settled_five filterHash)] at presents
  cases presents
  exact ⟨five filterHash, rfl, rfl⟩

theorem fiveCursor_issued : ∃ call ∈ ({five currentHash} : Set CursorCall),
    (Json.FiniteItems (five currentHash).tuple →
      Json.writtenItems (five currentHash).tuple = call.tuple) ∧
      Direction.forward = call.direction ∧
      (currentHash ≠ [] → call.filterHash ≠ [] → call.filterHash = currentHash) :=
  (decodeCursor_sound cursorPlatform defaultSecret).2 {five currentHash} {fiveCursor currentHash}
    (fun _ same => same ▸ settled_five currentHash) (unforgeable_five currentHash)
    (fiveCursor currentHash) rfl currentHash ⟨(five currentHash).tuple, .forward⟩
    ((decodeCursor_sound cursorPlatform defaultSecret).1 _ _ _ (settled_five currentHash))

/-- A cursor that was signed without a filter hash passes under any. -/
theorem fiveCursor_unbound : ¬ ∀ (platform : Platform) (secret : JsString)
    (calls : Set CursorCall) (presented : Set JsString),
      (∀ call ∈ calls, Settled call.tuple) → Unforgeable platform secret calls presented →
        ∀ cursorStr ∈ presented, ∀ currentFilterHash decoded,
          decodeCursor platform (.text cursorStr) currentFilterHash secret = .ok decoded →
            ∃ call ∈ calls,
              (Json.FiniteItems decoded.tuple → Json.writtenItems decoded.tuple = call.tuple) ∧
              decoded.direction = call.direction ∧
              (currentFilterHash ≠ [] → call.filterHash = currentFilterHash) := by
  intro bound
  have decodes := decodeCursor_unbound cursorPlatform currentHash defaultSecret .forward
    (settled_five [])
  obtain ⟨call, rfl, -, -, hash⟩ := bound cursorPlatform defaultSecret {five []} {fiveCursor []}
    (fun _ same => same ▸ settled_five []) (unforgeable_five []) (fiveCursor []) rfl currentHash _
    decodes
  have empty := hash (by decide)
  exact absurd empty (by decide)

end SorobanExplorer.Indexer
