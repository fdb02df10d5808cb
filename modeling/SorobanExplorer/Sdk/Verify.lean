import SorobanExplorer.Indexer.Signing
import SorobanExplorer.Library.Base64

/-!
Owns signed responses on the side of a client: canonical JSON as the SDK writes it, and
verifying an envelope.

`canonicalize_eq` says that the SDK and the indexer write the same canonical JSON.
-/

namespace SorobanExplorer.Sdk

open Library Filters
open Indexer (utf8)
open Indexer.Replay (TextLe decimalText)
open Indexer.Signing (Value Crypto ExplorerKey Verification dateText key?)

mutual

def canonicalize : Value → Option JsString
  | .null => some (js "null")
  | .boolean value => some (Json.stringify (.boolean value))
  | .string units => some (Json.quoted units)
  | .bigint value => some (Json.quoted (decimalText value))
  | .number value => if value.isFinite then some (Utf16.encode value.text) else none
  | .nan => none
  | .array items => (canonicalizeItems items).map fun texts =>
    0x5B :: Json.commaSeparated texts ++ [0x5D]
  | .date time => some (dateText time)
  | .encoded toJSON => canonicalize toJSON
  | .object members => (canonicalizeMembers members).map fun texts =>
    0x7B :: Json.commaSeparated ((Json.byName TextLe texts).map fun text =>
      Json.quoted text.1 ++ 0x3A :: text.2) ++ [0x7D]
  | .undefined | .function | .symbol => none

def canonicalizeItems : List Value → Option (List JsString)
  | [] => some []
  | item :: items => do
      let text ← if item.isAbsent then some (js "null") else canonicalize item
      let texts ← canonicalizeItems items
      pure (text :: texts)

def canonicalizeMembers : List (JsString × Value) → Option (List (JsString × JsString))
  | [] => some []
  | (name, value) :: members =>
    if value.isAbsent then canonicalizeMembers members
    else do
      let text ← canonicalize value
      let texts ← canonicalizeMembers members
      pure ((name, text) :: texts)

end

mutual

theorem canonicalize_eq : ∀ value, canonicalize value = Indexer.Signing.canonicalize value
  | .undefined | .function | .symbol | .null | .nan => rfl
  | .boolean _ | .string _ | .bigint _ | .number _ | .date _ => rfl
  | .encoded toJSON => canonicalize_eq toJSON
  | .array items => by
      rw [canonicalize, Indexer.Signing.canonicalize, canonicalizeItems_eq items]
  | .object members => by
      rw [canonicalize, Indexer.Signing.canonicalize, canonicalizeMembers_eq members]

theorem canonicalizeItems_eq : ∀ items,
    canonicalizeItems items = Indexer.Signing.canonicalizeItems items
  | [] => rfl
  | item :: items => by
      rw [canonicalizeItems, Indexer.Signing.canonicalizeItems, canonicalize_eq item,
        canonicalizeItems_eq items]

theorem canonicalizeMembers_eq : ∀ members,
    canonicalizeMembers members = Indexer.Signing.canonicalizeMembers members
  | [] => rfl
  | (_, value) :: members => by
      rw [canonicalizeMembers, Indexer.Signing.canonicalizeMembers, canonicalize_eq value,
        canonicalizeMembers_eq members]

end

/-! ### Verifying -/

def decode (b64 : JsString) : Option (List UInt8) :=
  let normalized := (Utf16.decode b64).map Base64url.standardized
  Base64url.atob? (normalized ++ Base64url.padding normalized.length)

/-- `decode(envelope.signature)`, which throws if the signature is no string. -/
def signatureBytes (envelope : Json) : Option (List UInt8) :=
  match Json.lookup (Indexer.Signing.properties envelope) (js "signature") with
  | some (.string signature) => decode signature
  | _ => none

/-- The envelope is an object, as its type says: of `null` the promise is rejected. -/
def verifySignedResponse (crypto : Crypto) (envelope : Json) (keys : List ExplorerKey) :
    Option Verification :=
  match envelope with
  | .null => none
  | envelope =>
    match keys.find? (·.isNamed envelope) with
    | none => some ⟨false, .unknown_key⟩
    | some key =>
      let ok := do
        let publicKey ← (decode key.public_key).bind key?
        let signature ← signatureBytes envelope
        let text ← canonicalize (.ofJson (.object (Indexer.Signing.unsigned envelope)))
        pure (crypto.verify publicKey (utf8 text) signature)
      if ok = some true then some key.verification else some ⟨false, .invalid⟩

theorem decode_encode (bytes : List UInt8) :
    decode (Utf16.encode (Base64url.encode bytes)) = some bytes := by
  have letters : (Base64url.encode bytes).map Base64url.standardized =
      (Base64url.split bytes).map Base64url.standardLetter := by
    rw [Base64url.encode, List.map_map]
    exact List.map_congr_left fun value listed =>
      (Base64url.standardLetter_read (Base64url.split_small bytes value listed)).2.2.2.1
  rw [decode, Utf16.decode_encode, letters, List.length_map, Base64url.atob?_padded]

theorem decode_encodePadded (bytes : List UInt8) :
    decode (Utf16.encode (Base64url.encodePadded bytes)) = some bytes := by
  have letters : (Base64url.encodePadded bytes).map Base64url.standardized =
      Base64url.encodePadded bytes := by
    rw [Base64url.encodePadded, List.map_append, List.map_map, List.map_replicate]
    congr 1
    exact List.map_congr_left fun value listed =>
      (Base64url.standardLetter_read (Base64url.split_small bytes value listed)).2.2.2.2
  have whole : Base64url.padding (Base64url.encodePadded bytes).length = [] := by
    rw [Base64url.padding, Base64url.encodePadded_eq, List.length_append, List.length_map,
      Base64url.padding, List.length_replicate]
    have multiple : (4 - ((Base64url.split bytes).length +
        (4 - (Base64url.split bytes).length % 4) % 4) % 4) % 4 = 0 := by omega
    rw [multiple, List.replicate_zero]
  rw [decode, Utf16.decode_encode, letters, whole, List.append_nil, Base64url.encodePadded_eq,
    Base64url.atob?_padded]

end SorobanExplorer.Sdk
