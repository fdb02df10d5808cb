import SorobanExplorer.Filters.Planner
import SorobanExplorer.Indexer.ScopeMiddleware
import SorobanExplorer.Library.Hex

/-!
Owns the signature check of mutating requests: what is signed, the verification, and the
middleware that decides by the URL which requests need it.

The digests, the storage behind the verification, the body parser and the slow path of the URL
parser are parameters. Express takes either case of a letter, and compares paths without their
query.
-/

namespace SorobanExplorer.Indexer

open Library
open RouteScopes (Pattern foldCase matchPath pieces segmentsOf pieces_of_segmentsOf)

namespace RequestSigning

abbrev Bytes := List UInt8

def MUTATING : List String := ["POST", "PUT", "PATCH", "DELETE"]

def areas : List String := ["contracts", "admin", "abi"]

/-- `/^\/api\/(contracts|admin|abi)(\/|$|\?)/` -/
def SIGNED_PATH (url : String) : Bool :=
  areas.any fun area =>
    let start := ("/api/" ++ area).toList
    start.isPrefixOf url.toList && (url.toList.drop start.length).head?.all fun char =>
      char = '/' || char = '?'

/-! ### Signatures -/

structure Digests where
  sha256 : Bytes → Vector UInt8 32
  hmac : String → String → Vector UInt8 32

/-- `digest("hex")` -/
def hex (digest : Vector UInt8 32) : String := String.ofList (Hex.encode digest.toList)

variable (digests : Digests)

def sha256Hex (data : Bytes) : String := hex (digests.sha256 data)

def canonicalString (method path : String) (rawBody : Bytes) (timestamp nonce : String) : String :=
  "\n".intercalate [method.toUpper, path, sha256Hex digests rawBody, timestamp, nonce]

def signRequest (secret method path : String) (body : Bytes) (timestamp nonce : String) : String :=
  hex (digests.hmac secret (canonicalString digests method path body timestamp nonce))

/-- `SIGNING_HEADERS`, where they are sent. -/
structure Headers where
  keyId : Option String
  timestamp : Option String
  nonce : Option String
  signature : Option String

/-- The arguments of `verifySignedRequest` that belong to the request. -/
structure Signed where
  headers : Headers
  method : String
  path : String
  rawBody : Bytes

/-- The clock and the storage; `none` where a query fails. -/
structure Storage where
  nowSec : ℕ
  skewSec : ℕ
  getSecrets : String → Option (List String)
  claimNonce : (keyId nonce : String) → (ttlSec : ℕ) → Option Bool

inductive Verification where
  | ok (keyId nonce : String)
  | refused (status : ℕ) (error : String) (serverTime : Option ℕ)

/-- `[A-Za-z0-9_-]` -/
def isNonceChar (char : Char) : Bool := char.isAlphanum || char = '_' || char = '-'

/-- `/^[A-Za-z0-9_-]{16,128}$/` -/
def isNonce (nonce : String) : Bool :=
  nonce.toList.all isNonceChar && 16 ≤ nonce.toList.length && nonce.toList.length ≤ 128

/-- `Number.isInteger(ts)`, with the integer. -/
def integer? (number : Filters.Number) : Option ℤ :=
  match number with
  | some number => if number.isFinite ∧ number.value.den = 1 then some number.value.num else none
  | none => none

def isFresh (storage : Storage) (timestamp : String) : Bool :=
  match integer? (Filters.stringToNumber (Filters.js timestamp)) with
  | some ts => |(storage.nowSec : ℤ) - ts| ≤ storage.skewSec
  | none => false

/-- `none` where it throws. -/
def verifySignedRequest (storage : Storage) (signed : Signed) : Option Verification :=
  match RouteScopes.truthy signed.headers.keyId, RouteScopes.truthy signed.headers.timestamp,
    RouteScopes.truthy signed.headers.nonce, RouteScopes.truthy signed.headers.signature with
  | some keyId, some timestamp, some nonce, some signature =>
    if ¬ isNonce nonce then some (.refused 400 "invalid_nonce" none)
    else if ¬ isFresh storage timestamp then
      some (.refused 401 "stale_timestamp" (some storage.nowSec))
    else do
      let secrets ← storage.getSecrets keyId
      let valid := secrets.any fun secret =>
        signRequest digests secret signed.method signed.path signed.rawBody timestamp nonce =
          foldCase signature
      if ¬ valid then return .refused 401 "invalid_signature" none
      if ← storage.claimNonce keyId nonce (storage.skewSec * 2) then return .ok keyId nonce
      return .refused 409 "nonce_reused" none
  | _, _, _, _ => some (.refused 401 "signature_missing" none)

theorem verifySignedRequest_eq_ok_iff {storage : Storage} {signed : Signed} {keyId nonce : String} :
    verifySignedRequest digests storage signed = some (.ok keyId nonce) ↔
      ∃ timestamp signature secrets, RouteScopes.truthy signed.headers.keyId = some keyId ∧
        RouteScopes.truthy signed.headers.timestamp = some timestamp ∧
        RouteScopes.truthy signed.headers.nonce = some nonce ∧
        RouteScopes.truthy signed.headers.signature = some signature ∧
        isNonce nonce = true ∧ isFresh storage timestamp = true ∧
        storage.getSecrets keyId = some secrets ∧
        (∃ secret ∈ secrets, signRequest digests secret signed.method signed.path signed.rawBody
          timestamp nonce = foldCase signature) ∧
        storage.claimNonce keyId nonce (storage.skewSec * 2) = some true := by
  unfold verifySignedRequest
  constructor
  · intro accepted
    split at accepted
    next keyed timed named written =>
      split at accepted
      · nomatch accepted
      split at accepted
      · nomatch accepted
      next formed fresh =>
        obtain ⟨secrets, found, accepted⟩ := Option.bind_eq_some_iff.mp accepted
        dsimp only at accepted
        split at accepted
        · nomatch accepted
        next valid =>
          obtain ⟨claimed, answer, accepted⟩ := Option.bind_eq_some_iff.mp accepted
          split at accepted
          · next new =>
              cases accepted
              subst new
              simp only [List.any_eq_true, decide_eq_true_iff, not_not] at valid
              exact ⟨_, _, secrets, keyed, timed, named, written, not_not.mp formed,
                not_not.mp fresh, found, valid, answer⟩
          · nomatch accepted
    · nomatch accepted
  · rintro ⟨timestamp, signature, secrets, keyed, timed, named, written, formed, fresh, found, valid,
      claimed⟩
    have signed : (secrets.any fun secret => signRequest digests secret signed.method signed.path
        signed.rawBody timestamp nonce = foldCase signature) = true := by
      simpa only [List.any_eq_true, decide_eq_true_iff] using valid
    simp only [keyed, timed, named, written, formed, fresh, found, signed, claimed, not_true_eq_false,
      if_false, Option.bind_eq_bind, Option.bind_some]
    rfl

/-! ### The middleware -/

structure Message where
  method : String
  /-- the target of the request line -/
  originalUrl : String
  contentType : Option String
  contentEncoding : Option String
  body : Bytes

structure Parsers where
  /-- the bytes that `express.json` hands to `verify`, if it does -/
  json : (contentType contentEncoding : Option String) → Bytes → Option Bytes
  /-- the path of `url.parse` -/
  urlParse : String → Option String

variable (parsers : Parsers)

/-- `req.rawBody ?? ""` -/
def Message.rawBody (message : Message) : Bytes :=
  (parsers.json message.contentType message.contentEncoding message.body).getD []

/-- `next()` keeps what was verified, if anything was. -/
inductive Answer where
  | next (verified : Option Signed)
  | error (status : ℕ) (error : String) (serverTime : Option ℕ)

/-- With `keyId` of the API key that the request was authenticated by. -/
def requestSigningMiddleware (enforced : Bool) (storage : Storage) (keyId : Option String)
    (message : Message) (headers : Headers) : Answer :=
  if message.method ∉ MUTATING ∨ SIGNED_PATH message.originalUrl = false then .next none
  else
    let unsigned :=
      RouteScopes.truthy headers.signature = none ∧ RouteScopes.truthy headers.keyId = none
    if unsigned ∧ enforced = false then .next none
    else
      let signed : Signed :=
        ⟨headers, message.method, message.originalUrl, message.rawBody parsers⟩
      match verifySignedRequest digests storage signed with
      | none => .error 503 "signature_verification_unavailable" none
      | some (.refused status error serverTime) => .error status error serverTime
      | some (.ok signer _) =>
        if (RouteScopes.truthy keyId).any (· ≠ signer) then .error 401 "key_mismatch" none
        else .next (some signed)

/-! ### Express -/

/-- The characters that `parseurl` leaves to `url.parse`. -/
def isSlow (char : Char) : Bool :=
  char ∈ ['\t', '\n', '\x0c', '\r', ' ', '#', '\u00a0', '\ufeff']

/-- `parseurl(req).pathname` -/
def pathname (url : String) : Option String :=
  match url.toList with
  | '/' :: rest =>
    if rest.any isSlow then parsers.urlParse url
    else some (String.ofList ('/' :: rest.takeWhile (· ≠ '?')))
  | _ => parsers.urlParse url

structure Handler where
  method : String
  pattern : Pattern

def Handler.Under (handler : Handler) (area : String) : Prop :=
  ∃ rest, handler.pattern = .literal "api" :: .literal area :: rest

def Runs (handler : Handler) (message : Message) : Prop :=
  handler.method = message.method ∧ ∃ path, pathname parsers message.originalUrl = some path ∧
    (matchPath foldCase handler.pattern path).isSome

def Protected (handlers : List Handler) (message : Message) : Prop :=
  message.method ∈ MUTATING ∧
    ∃ handler ∈ handlers, (∃ area ∈ areas, handler.Under area) ∧ Runs parsers handler message

/-- With `SIGNING_ENFORCED = on`, whatever the headers, the API key and the storage are: a
protected request passes only if it was accepted with exactly its method, URL and body. -/
def Covered (handlers : List Handler) (message : Message) : Prop :=
  ∀ storage keyId headers verified, Protected parsers handlers message →
    requestSigningMiddleware digests parsers true storage keyId message headers = .next verified →
      verified = some ⟨headers, message.method, message.originalUrl, message.body⟩ ∧
        ∃ signer nonce, verifySignedRequest digests storage
          ⟨headers, message.method, message.originalUrl, message.body⟩ = some (.ok signer nonce)

/-- The URL is one that the middleware knows, and `express.json` passed on the body. -/
def Spared (handlers : List Handler) (message : Message) : Prop :=
  Protected parsers handlers message →
    SIGNED_PATH message.originalUrl = true ∧ message.rawBody parsers = message.body

variable {digests parsers} {handlers : List Handler} {message : Message}

theorem next_iff {storage : Storage} {keyId : Option String} {headers : Headers}
    {verified : Option Signed} (mutating : message.method ∈ MUTATING)
    (known : SIGNED_PATH message.originalUrl = true) :
    requestSigningMiddleware digests parsers true storage keyId message headers = .next verified ↔
      verified = some ⟨headers, message.method, message.originalUrl, message.rawBody parsers⟩ ∧
        ∃ signer nonce, verifySignedRequest digests storage
            ⟨headers, message.method, message.originalUrl, message.rawBody parsers⟩ =
              some (.ok signer nonce) ∧ (RouteScopes.truthy keyId).any (· ≠ signer) = false := by
  have inArea : ¬(message.method ∉ MUTATING ∨ SIGNED_PATH message.originalUrl = false) := by
    rintro (safe | unknown)
    · exact safe mutating
    · exact Bool.false_ne_true (unknown.symm.trans known)
  unfold requestSigningMiddleware
  rw [if_neg inArea]
  dsimp only
  rw [if_neg (fun unsigned => absurd unsigned.2 (by decide))]
  split
  · next failed => simp [failed]
  · next refused => simp [refused]
  · next signer nonce accepted =>
      rw [accepted]
      cases mismatch : (RouteScopes.truthy keyId).any (· ≠ signer) with
      | true =>
        refine iff_of_false (fun same => nomatch same) ?_
        rintro ⟨-, other, nonce', same, agrees⟩
        cases same
        exact Bool.false_ne_true (agrees.symm.trans mismatch)
      | false =>
        constructor
        · intro same
          cases same
          exact ⟨rfl, signer, nonce, rfl, mismatch⟩
        · rintro ⟨rfl, -⟩
          rfl

/-! ### The URLs that the middleware knows -/

/-! ### Coverage -/

theorem foldCase_hex (digest : Vector UInt8 32) : foldCase (hex digest) = hex digest := by
  unfold RouteScopes.foldCase hex
  rw [String.toList_ofList, Hex.map_toLower_encode]

theorem hex_ne_empty (digest : Vector UInt8 32) : hex digest ≠ "" := by
  intro empty
  have none : Hex.encode digest.toList = [] := by
    rw [← String.toList_ofList (l := Hex.encode digest.toList)]
    exact congrArg String.toList empty
  have short := congrArg List.length (Hex.encode_eq_nil.mp none)
  rw [Vector.length_toList] at short
  exact absurd short (by decide)

theorem exists_accepted (digests : Digests) (parsers : Parsers)
    (mutating : message.method ∈ MUTATING)
    (known : SIGNED_PATH message.originalUrl = true) :
    ∃ storage headers, requestSigningMiddleware digests parsers true storage none message headers =
      .next (some ⟨headers, message.method, message.originalUrl, message.rawBody parsers⟩) := by
  let nonce := "aaaaaaaaaaaaaaaa"
  let signature := signRequest digests "s" message.method message.originalUrl
    (message.rawBody parsers) "0" nonce
  refine ⟨⟨0, 300, fun _ => some ["s"], fun _ _ _ => some true⟩,
    ⟨some "k", some "0", some nonce, some signature⟩, ?_⟩
  refine (next_iff mutating known).mpr ⟨rfl, "k", nonce, ?_, rfl⟩
  refine (verifySignedRequest_eq_ok_iff digests).mpr
    ⟨"0", signature, ["s"], rfl, rfl, rfl, ?_, by decide, ?_, rfl,
      ⟨"s", List.mem_singleton_self _, ?_⟩, rfl⟩
  · exact if_pos (decide_eq_true (hex_ne_empty _))
  · decide +kernel
  · exact (foldCase_hex _).symm

theorem spared_of_covered (covered : Covered digests parsers handlers message) :
    Spared parsers handlers message := by
  intro inside
  cases known : SIGNED_PATH message.originalUrl with
  | false =>
    have passes : requestSigningMiddleware digests parsers true ⟨0, 0, fun _ => none,
        fun _ _ _ => none⟩ none message ⟨none, none, none, none⟩ = .next none :=
      if_pos (.inr known)
    nomatch (covered _ _ _ _ inside passes).1
  | true =>
    obtain ⟨storage, headers, accepted⟩ :=
      exists_accepted digests parsers inside.1 known
    have same := (covered _ _ _ _ inside accepted).1
    simp only [Option.some.injEq, Signed.mk.injEq, true_and] at same
    exact ⟨rfl, same⟩

/-- Exactly the requests on known URLs whose body reaches the check are covered. -/
theorem covered_iff_spared (digests : Digests) (parsers : Parsers) (handlers : List Handler)
    (message : Message) :
    Covered digests parsers handlers message ↔ Spared parsers handlers message := by
  constructor
  · exact spared_of_covered
  · intro spared storage keyId headers verified inside passes
    obtain ⟨known, body⟩ := spared inside
    obtain ⟨same, signer, nonce, accepted, -⟩ := (next_iff inside.1 known).mp passes
    rw [body] at same accepted
    exact ⟨same, signer, nonce, accepted⟩

/-- `app.post("/api/admin/api-keys", …)` -/
def createKey : Handler := ⟨"POST", ["api", "admin", "api-keys"].map .literal⟩

/-- `app.post("/api/contracts", …)` -/
def registerContract : Handler := ⟨"POST", ["api", "contracts"].map .literal⟩

def upperCase : Message := ⟨"POST", "/API/admin/api-keys", none, none, []⟩

def plainText : Message := ⟨"POST", "/api/contracts", some "text/plain", none, [120]⟩

/-- An unsigned request passes in upper case; a body that is no JSON is not signed. -/
theorem upperCase_uncovered :
    (¬∃ digests parsers, Covered digests parsers [createKey] upperCase) ∧
      ¬∃ digests parsers, parsers.json (some "text/plain") none [120] = none ∧
        Covered digests parsers [registerContract] plainText := by
  constructor
  · rintro ⟨digests, parsers, covered⟩
    have inside : Protected parsers [createKey] upperCase :=
      ⟨by decide, createKey, List.mem_singleton_self _, ⟨"admin", by decide, _, rfl⟩, rfl,
        "/API/admin/api-keys", rfl, by decide +kernel⟩
    exact absurd (spared_of_covered covered inside).1 (by decide)
  · rintro ⟨digests, parsers, ignored, covered⟩
    have inside : Protected parsers [registerContract] plainText :=
      ⟨by decide, registerContract, List.mem_singleton_self _, ⟨"contracts", by decide, _, rfl⟩,
        rfl, "/api/contracts", rfl, by decide +kernel⟩
    have body := (spared_of_covered covered inside).2
    rw [Message.rawBody, show parsers.json plainText.contentType plainText.contentEncoding
      plainText.body = none from ignored] at body
    nomatch body

end RequestSigning

end SorobanExplorer.Indexer
