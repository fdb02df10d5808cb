import SorobanExplorer.Indexer.Cursor
import SorobanExplorer.Indexer.ReplayCanonical
import SorobanExplorer.Library.IsoTime
import SorobanExplorer.Library.JsonCanonical

/-!
Owns signed responses on the side of the indexer: canonical JSON, the keys that sign and the keys
that are published, and the envelopes.

A function is `none` where the source throws. A JSON value is its tree, as `built` leaves it.
-/

namespace SorobanExplorer.Indexer.Signing

open Library Filters Replay

/-! ### Canonical JSON -/

/-- A value in memory. A date is its time, or none if it is invalid. Any other object with a
`toJSON` method is what the method returns. An array has no holes. -/
inductive Value where
  | undefined
  | function
  | symbol
  | null
  | boolean (value : Bool)
  | number (value : JsNumber)
  | nan
  | bigint (value : ℤ)
  | string (units : JsString)
  | date (time : Option ℤ)
  | encoded (toJSON : Value)
  | array (items : List Value)
  | object (members : List (JsString × Value))

/-- `value === undefined || typeof value === "function"` -/
def Value.isAbsent : Value → Bool
  | .undefined | .function => true
  | _ => false

/-- `time.toJSON()` -/
def dateText (time : Option ℤ) : JsString :=
  match time with
  | none => js "null"
  | some time => Json.quoted (Utf16.encode (IsoTime.toISOString time))

mutual

def canonicalize : Value → Option JsString
  | .null => some (js "null")
  | .boolean value => some (Json.stringify (.boolean value))
  | .string units => some (Json.quoted units)
  | .bigint value => some (Json.quoted (decimalText value))
  | .number value => if value.isFinite then some (Utf16.encode value.text) else none
  | .nan => none
  | .array items => (canonicalizeItems items).map fun texts =>
    0x5B :: Json.commaSeparated texts ++ [0x5D]
  | .date time => some (dateText time)
  | .encoded toJSON => canonicalize toJSON
  | .object members => (canonicalizeMembers members).map fun texts =>
    0x7B :: Json.commaSeparated ((Json.byName TextLe texts).map fun text =>
      Json.quoted text.1 ++ 0x3A :: text.2) ++ [0x7D]
  | .undefined | .function | .symbol => none

def canonicalizeItems : List Value → Option (List JsString)
  | [] => some []
  | item :: items => do
      let text ← if item.isAbsent then some (js "null") else canonicalize item
      let texts ← canonicalizeItems items
      pure (text :: texts)

def canonicalizeMembers : List (JsString × Value) → Option (List (JsString × JsString))
  | [] => some []
  | (name, value) :: members =>
    if value.isAbsent then canonicalizeMembers members
    else do
      let text ← canonicalize value
      let texts ← canonicalizeMembers members
      pure ((name, text) :: texts)

end

mutual

def Value.ofJson : Json → Value
  | .null => .null
  | .boolean value => .boolean value
  | .number numeral => .number (.ofNumeral numeral)
  | .string units => .string units
  | .array items => .array (ofItems items)
  | .object members => .object (ofMembers members)

def Value.ofItems : List Json → List Value
  | [] => []
  | item :: items => Value.ofJson item :: Value.ofItems items

def Value.ofMembers : List (JsString × Json) → List (JsString × Value)
  | [] => []
  | (name, value) :: members => (name, Value.ofJson value) :: Value.ofMembers members

end

/-- `JSON.parse(text)` -/
def parse? (text : JsString) : Option Json := (Json.parse? (Utf16.decode text)).map built

/-! ### Keys -/

abbrev Key := Vector UInt8 32

/-- Ed25519 with seeds as private keys and public keys as their raw bytes, and the hash that
names a key. -/
structure Crypto where
  publicKey : Key → Key
  sign : Key → List UInt8 → List UInt8
  verify : Key → List UInt8 → List UInt8 → Bool
  sha256 : List UInt8 → List UInt8

structure ActiveKey where
  keyId : JsString
  privateKey : Key
  publicKey : JsString
  notBefore : Option JsString

structure RetiredKey where
  key_id : JsString
  public_key : JsString
  not_before : Option JsString
  not_after : Option JsString

structure SigningKeys where
  active : Option ActiveKey
  retired : List RetiredKey

structure Env where
  EXPLORER_SIGNING_KEY : Option JsString
  EXPLORER_SIGNING_KEY_ID : Option JsString
  EXPLORER_SIGNING_KEY_NOT_BEFORE : Option JsString
  EXPLORER_RETIRED_SIGNING_KEYS : Option (List RetiredKey)

def truthy (text : Option JsString) : Option JsString := text.filter (· ≠ [])

def key? (bytes : List UInt8) : Option Key :=
  if length : bytes.length = 32 then some ⟨bytes.toArray, by simpa using length⟩ else none

/-- `Buffer.from(text, "base64")`, which takes base64url too. -/
def bufferFrom (text : JsString) : List UInt8 := Base64url.decode (Utf16.decode text)

def activeKey (crypto : Crypto) (env : Env) (seed : Key) : ActiveKey :=
  let publicRaw := (crypto.publicKey seed).toList
  { keyId := (truthy env.EXPLORER_SIGNING_KEY_ID).getD
      (Utf16.encode ((Hex.encode (crypto.sha256 publicRaw)).take 16))
    privateKey := seed
    publicKey := Utf16.encode (Base64url.encodePadded publicRaw)
    notBefore := truthy env.EXPLORER_SIGNING_KEY_NOT_BEFORE }

def loadSigningKeys (crypto : Crypto) (env : Env) : Option SigningKeys :=
  let retired := env.EXPLORER_RETIRED_SIGNING_KEYS.getD []
  match truthy env.EXPLORER_SIGNING_KEY with
  | none => some ⟨none, retired⟩
  | some text => (key? (bufferFrom text)).map fun seed =>
    ⟨some (activeKey crypto env seed), retired⟩

inductive KeyStatus where
  | active
  | retired
deriving DecidableEq

structure ExplorerKey where
  key_id : JsString
  alg : JsString
  public_key : JsString
  status : KeyStatus
  not_before : Option JsString
  not_after : Option JsString

def publishedKeys (keys : SigningKeys) : List ExplorerKey :=
  (keys.active.toList.map fun active =>
    ⟨active.keyId, js "Ed25519", active.publicKey, .active, active.notBefore, none⟩) ++
  keys.retired.map fun key =>
    ⟨key.key_id, js "Ed25519", key.public_key, .retired, key.not_before, key.not_after⟩

/-! ### Envelopes -/

/-- `number | null` -/
inductive Ledger where
  | null
  | number (value : JsNumber)
  | nan

def Ledger.value : Ledger → Value
  | .null => .null
  | .number value => .number value
  | .nan => .nan

def Ledger.json : Ledger → Json
  | .null => .null
  | .number value => numberJson value
  | .nan => .null

def fields {α : Type} (string : JsString → α) (payload ledger : α) (issuedAt keyId : JsString) :
    List (JsString × α) :=
  [(js "payload", payload), (js "ledger", ledger), (js "issued_at", string issuedAt),
    (js "key_id", string keyId)]

def signEnvelope (crypto : Crypto) (payload : Value) (ledger : Ledger) (keys : SigningKeys)
    (now : ℤ) : Option Json := do
  let active ← keys.active
  let text ← canonicalize payload
  let payload ← parse? text
  let issuedAt := Utf16.encode (IsoTime.toISOString now)
  let unsigned ← canonicalize
    (.object (fields .string (.ofJson payload) ledger.value issuedAt active.keyId))
  let signature := crypto.sign active.privateKey (utf8 unsigned)
  pure (.object (fields .string payload ledger.json issuedAt active.keyId ++
    [(js "signature", .string (Utf16.encode (Base64url.encode signature)))]))

inductive Status where
  | active
  | retired
  | unknown_key
  | invalid
deriving DecidableEq

structure Verification where
  valid : Bool
  status : Status
deriving DecidableEq

def properties : Json → List (JsString × Json)
  | .object members => members
  | _ => []

/-- `{ signature, ...unsigned } = envelope` -/
def unsigned (envelope : Json) : List (JsString × Json) :=
  (properties envelope).filter fun member => member.1 ≠ js "signature"

/-- `key.key_id === unsigned.key_id` -/
def ExplorerKey.isNamed (key : ExplorerKey) (envelope : Json) : Bool :=
  match Json.lookup (unsigned envelope) (js "key_id") with
  | some (.string keyId) => key.key_id = keyId
  | _ => false

def ExplorerKey.verification (key : ExplorerKey) : Verification :=
  ⟨true, if key.status = .retired then .retired else .active⟩

mutual

/-- `String(value)`. It throws if `toString` is a member, which is no function then. -/
def stringOf : Json → Option JsString
  | .null => some (js "null")
  | .boolean value => some (Utf16.encode (JsValue.booleanText value))
  | .number numeral => some (Utf16.encode (JsNumber.ofNumeral numeral).text)
  | .string units => some units
  | .array items => (joined items).map [0x2C].intercalate
  | .object members =>
    if js "toString" ∈ members.map Prod.fst then none else some (js "[object Object]")

/-- What `join` puts together: nothing for `null`. -/
def joined : List Json → Option (List JsString)
  | [] => some []
  | .null :: items => (joined items).map ([] :: ·)
  | item :: items => do
      let text ← stringOf item
      let texts ← joined items
      pure (text :: texts)

end

/-- `String(envelope.signature)` -/
def signatureText (envelope : Json) : Option JsString :=
  match Json.lookup (properties envelope) (js "signature") with
  | some signature => stringOf signature
  | none => some (js "undefined")

def verifyEnvelope (crypto : Crypto) (envelope : Json) (published : List ExplorerKey) :
    Verification :=
  match published.find? (·.isNamed envelope) with
  | none => ⟨false, .unknown_key⟩
  | some key =>
    let ok := do
      let text ← canonicalize (.ofJson (.object (unsigned envelope)))
      let publicKey ← key? (bufferFrom key.public_key)
      let signature ← signatureText envelope
      pure (crypto.verify publicKey (utf8 text) (bufferFrom signature))
    if ok = some true then key.verification else ⟨false, .invalid⟩

end SorobanExplorer.Indexer.Signing
