import Mathlib.Data.Nat.Notation
import Mathlib.Logic.Function.Basic
import Mathlib.Tactic.SplitIfs

/-!
Owns the rows of `api_keys`, what `createKey`, `updateKey`, `deleteKey` and `rotateKey` do to
them, and what `apiKeyAuthenticator` checks of one.

The material of a key and the id of its row are one number. Times are milliseconds.
-/

namespace SorobanExplorer.Indexer

namespace ApiKeys

abbrev KeyId := ℕ

inductive Tier where
  | unauthenticated
  | free
  | pro
  | enterprise
deriving DecidableEq, Repr

/-- A JSONB column for an array of texts. An empty array that passes through the driver becomes an
empty object. -/
inductive Restriction where
  | null
  | list (items : List String)
  | emptyObject
deriving DecidableEq, Repr

def Restriction.items : Restriction → List String
  | .list items => items
  | .null | .emptyObject => []

/-- What the driver and the column make of a value that is sent as a parameter. The driver writes
an array as an array literal in braces, which is no JSON unless the array is empty. -/
def jsonbParam : Restriction → Option Restriction
  | .null => some .null
  | .list [] => some .emptyObject
  | .list (_ :: _) => none
  | .emptyObject => some .emptyObject

/-- What an `INSERT` into `api_keys` is given. -/
structure NewKey where
  name : String
  email : Option String
  tier : Tier
  rateLimit : Option ℕ
  dailyLimit : Option ℕ
  allowedIps : Restriction
  allowedEndpoints : Restriction
  expiresAt : Option ℕ
  verified : Bool
deriving DecidableEq, Repr

structure Key extends NewKey where
  scopes : List String
  allowedContractIds : Option (List String)
  allowedOrigins : Option (List String)
  revoked : Bool
  rotatedAt : Option ℕ
  rotationGraceUntil : Option ℕ
deriving DecidableEq, Repr

/-- The defaults of the columns that an `INSERT` does not name. -/
def defaultScopes : List String := ["read:events", "read:contracts"]

def NewKey.row (new : NewKey) : Key where
  toNewKey := new
  scopes := defaultScopes
  allowedContractIds := none
  allowedOrigins := none
  revoked := false
  rotatedAt := none
  rotationGraceUntil := none

abbrev Keys := KeyId → Option Key

/-- `allowed_contract_ids?.length ? allowed_contract_ids : null` -/
def nonEmpty (items : Option (List String)) : Option (List String) := items.filter (· ≠ [])

/-- The row that `createKey` inserts. -/
def createKey (new : NewKey) (scopes : List String)
    (allowedContractIds allowedOrigins : Option (List String)) : Key :=
  { new.row with
    scopes
    allowedContractIds := nonEmpty allowedContractIds
    allowedOrigins := nonEmpty allowedOrigins }

/-- The fields of `UPDATABLE_FIELDS`, where they are given. -/
structure Updates where
  name : Option String
  tier : Option Tier
  rateLimit : Option (Option ℕ)
  dailyLimit : Option (Option ℕ)
  allowedIps : Option Restriction
  allowedEndpoints : Option Restriction
  expiresAt : Option (Option ℕ)
  revoked : Option Bool

/-- The row after `updateKey`, unless the statement fails. -/
def updateKey (updates : Updates) (key : Key) : Option Key := do
  let allowedIps ← updates.allowedIps.elim (some key.allowedIps) jsonbParam
  let allowedEndpoints ← updates.allowedEndpoints.elim (some key.allowedEndpoints) jsonbParam
  some
    { key with
      name := updates.name.getD key.name
      tier := updates.tier.getD key.tier
      rateLimit := updates.rateLimit.getD key.rateLimit
      dailyLimit := updates.dailyLimit.getD key.dailyLimit
      allowedIps
      allowedEndpoints
      expiresAt := updates.expiresAt.getD key.expiresAt
      revoked := updates.revoked.getD key.revoked }

def deleteKey (key : Key) : Key := { key with revoked := true }

/-- The row that `rotateKey` inserts, unless the statement fails. -/
def rotatedCopy (existing : Key) : Option Key := do
  let allowedIps ← jsonbParam existing.allowedIps
  let allowedEndpoints ← jsonbParam existing.allowedEndpoints
  some ({ existing.toNewKey with allowedIps, allowedEndpoints } : NewKey).row

/-- What `rotateKey` leaves of the old row. -/
def markRotated (now grace : ℕ) (existing : Key) : Key :=
  { existing with
    revoked := true
    rotatedAt := some now
    rotationGraceUntil := some (now + grace) }

/-- The transaction of `rotateKey`: the new row and the old one, or nothing. -/
def rotateKey (keys : Keys) (id new : KeyId) (now grace : ℕ) : Option Keys := do
  let existing ← keys id
  let copy ← rotatedCopy existing
  some (Function.update (Function.update keys new (some copy)) id
    (some (markRotated now grace existing)))

/-! ### Authentication -/

inductive Verdict where
  | accepted
  | revoked
  | unverified
  | expired
  | ipNotPermitted
  | endpointNotPermitted
deriving DecidableEq, Repr

structure Call where
  clientIp : String
  path : String
  now : ℕ

def endpointAllowed (endpoint : String) (patterns : List String) : Bool :=
  patterns = [] || patterns.any fun pattern =>
    if pattern.toList.getLast? = some '*' then
      pattern.toList.dropLast.isPrefixOf endpoint.toList
    else endpoint = pattern

/-- `ipMatchesCidr` is a parameter. -/
def ipInCidrList (ipMatchesCidr : String → String → Bool) (ip : String) (cidrs : List String) :
    Bool :=
  cidrs = [] || cidrs.any (ipMatchesCidr ip)

def Key.graceOver (key : Key) (now : ℕ) : Bool :=
  key.rotationGraceUntil.all fun grace => grace ≤ now

def Key.expired (key : Key) (now : ℕ) : Bool :=
  key.expiresAt.any fun expiresAt => expiresAt < now

def apiKeyAuthenticator (ipMatchesCidr : String → String → Bool) (key : Key) (call : Call) :
    Verdict :=
  if key.revoked && key.graceOver call.now then .revoked
  else if key.verified = false then .unverified
  else if key.expired call.now then .expired
  else if !ipInCidrList ipMatchesCidr call.clientIp key.allowedIps.items then .ipNotPermitted
  else if !endpointAllowed call.path key.allowedEndpoints.items then .endpointNotPermitted
  else .accepted

variable {ipMatchesCidr : String → String → Bool} {key : Key} {call : Call}

theorem accepted_iff : apiKeyAuthenticator ipMatchesCidr key call = .accepted ↔
    (key.revoked = true → key.graceOver call.now = false) ∧ key.verified = true ∧
      key.expired call.now = false ∧
      ipInCidrList ipMatchesCidr call.clientIp key.allowedIps.items = true ∧
      endpointAllowed call.path key.allowedEndpoints.items = true := by
  unfold apiKeyAuthenticator
  split_ifs <;> simp_all

/-! ### The statements on one row -/

theorem rotatedCopy_eq_some_iff {copy : Key} : rotatedCopy key = some copy ↔
    ∃ ips endpoints, jsonbParam key.allowedIps = some ips ∧
      jsonbParam key.allowedEndpoints = some endpoints ∧
      copy = ({ key.toNewKey with allowedIps := ips, allowedEndpoints := endpoints } : NewKey).row := by
  simp [rotatedCopy, Option.bind_eq_some_iff, eq_comm (a := copy)]

theorem rotateKey_eq_some_iff {keys after : Keys} {id new : KeyId} {now grace : ℕ} :
    rotateKey keys id new now grace = some after ↔
      ∃ existing copy, keys id = some existing ∧ rotatedCopy existing = some copy ∧
        after = Function.update (Function.update keys new (some copy)) id
          (some (markRotated now grace existing)) := by
  simp [rotateKey, Option.bind_eq_some_iff, eq_comm (a := after)]

theorem items_jsonbParam {restriction stored : Restriction}
    (sent : jsonbParam restriction = some stored) : stored.items = restriction.items := by
  match restriction with
  | .null | .list [] | .emptyObject =>
    cases sent
    rfl

theorem isSome_jsonbParam {restriction : Restriction} :
    (jsonbParam restriction).isSome ↔ restriction.items = [] := by
  match restriction with
  | .null | .list [] | .emptyObject => simp [jsonbParam, Restriction.items]
  | .list (_ :: _) => simp [jsonbParam, Restriction.items]

end ApiKeys

end SorobanExplorer.Indexer
