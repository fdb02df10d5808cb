import SorobanExplorer.Indexer.ApiKeys
import SorobanExplorer.Indexer.ScopeMiddleware
import SorobanExplorer.Library.Run

/-!
Owns the authority of the keys that `rotateKey` makes of a key. `keepsAuthority_iff` is exact: the
statement leaves the scopes, the contracts and the origins of the old row behind, so that only a
key that has the defaults of these columns passes its authority on.
-/

namespace SorobanExplorer.Indexer

open Library

namespace ApiKeys

/-- What the checks read of the two keys is the same. No restriction is the same as an empty
one. -/
structure SameAuthority (key other : Key) : Prop where
  tier : other.tier = key.tier
  expiresAt : other.expiresAt = key.expiresAt
  verified : other.verified = key.verified
  ips : other.allowedIps.items = key.allowedIps.items
  endpoints : other.allowedEndpoints.items = key.allowedEndpoints.items
  scopes : ∀ scope, scope ∈ other.scopes ↔ scope ∈ key.scopes
  contracts : other.allowedContractIds.getD [] = key.allowedContractIds.getD []
  origins : other.allowedOrigins.getD [] = key.allowedOrigins.getD []

/-! ### Requests under a key -/

structure Attempt where
  clientIp : String
  now : ℕ
  request : RouteScopes.Request

def Attempt.call (attempt : Attempt) : Call := ⟨attempt.clientIp, attempt.request.path, attempt.now⟩

/-- `req.rateContext` of a stored key. -/
def rateContext (id : KeyId) (key : Key) : RouteScopes.RateContext where
  keyId := some id.repr
  scopes := some key.scopes
  allowedContractIds := key.allowedContractIds
  allowedOrigins := key.allowedOrigins

def Attempt.under (attempt : Attempt) (id : KeyId) (key : Key) : RouteScopes.Request :=
  { attempt.request with rateContext := some (rateContext id key) }

variable {ipMatchesCidr : String → String → Bool} {key other original : Key} {attempt : Attempt}
  {id otherId : KeyId}

/-- The key is refused because of its IPs, its endpoints, its origins or its contracts. -/
inductive RefusedByRestriction (ipMatchesCidr : String → String → Bool) (id : KeyId) (key : Key)
    (attempt : Attempt) : Prop
  | ip (outside : ipInCidrList ipMatchesCidr attempt.clientIp key.allowedIps.items = false)
  | endpoint (outside : endpointAllowed attempt.request.path key.allowedEndpoints.items = false)
  | origin {found : RouteScopes.Match}
      (resolved : RouteScopes.matchRoute attempt.request.method attempt.request.path = some found)
      (refused : RouteScopes.originRefusal (rateContext id key).origins attempt.request.origin ≠ none)
  | contract {found : RouteScopes.Match}
      (resolved : RouteScopes.matchRoute attempt.request.method attempt.request.path = some found)
      (refused : RouteScopes.contractRefusal (rateContext id key) attempt.request found ≠ none)

structure Accepted (ipMatchesCidr : String → String → Bool) (id : KeyId) (key : Key)
    (attempt : Attempt) : Prop where
  authenticated : apiKeyAuthenticator ipMatchesCidr key attempt.call = .accepted
  passed : RouteScopes.scopeMiddleware (attempt.under id key) = .next

def NoWider (ipMatchesCidr : String → String → Bool) (id : KeyId) (key : Key) (otherId : KeyId)
    (other : Key) : Prop :=
  ∀ attempt, RefusedByRestriction ipMatchesCidr id key attempt →
    ¬ Accepted ipMatchesCidr otherId other attempt

theorem rateContext_keyed : (rateContext id key).keyed = true := by
  simp [rateContext, RouteScopes.RateContext.keyed, RouteScopes.truthy, Nat.repr_ne_empty]

theorem passes_iff {found : RouteScopes.Match}
    (resolved : RouteScopes.matchRoute attempt.request.method attempt.request.path = some found) :
    RouteScopes.scopeMiddleware (attempt.under id key) = .next ↔
      (∀ scope ∈ found.route.scopes, RouteScopes.hasScope key.scopes scope) ∧
      RouteScopes.originRefusal (rateContext id key).origins attempt.request.origin = none ∧
      RouteScopes.contractRefusal (rateContext id key) attempt.request found = none := by
  have matched : RouteScopes.matchRoute (attempt.under id key).method (attempt.under id key).path =
      some found := resolved
  rw [RouteScopes.scopeMiddleware_next_iff rfl rateContext_keyed matched,
    RouteScopes.originRefusal_eq_none_iff]
  rfl

theorem contractRefusal_congr (same : SameAuthority key other) (request : RouteScopes.Request)
    (found : RouteScopes.Match) :
    RouteScopes.contractRefusal (rateContext otherId other) request found =
      RouteScopes.contractRefusal (rateContext id key) request found := by
  have restricted : (rateContext otherId other).Restricted ↔ (rateContext id key).Restricted := by
    unfold RouteScopes.RateContext.Restricted
    exact and_congr (not_congr (Eq.congr_left same.contracts)) (not_congr (same.scopes _))
  unfold RouteScopes.contractRefusal
  simp only [restricted]
  rw [show (rateContext otherId other).contracts = (rateContext id key).contracts from
    same.contracts]

theorem SameAuthority.noWider (same : SameAuthority key other) :
    NoWider ipMatchesCidr id key otherId other := by
  intro attempt refused accepted
  obtain ⟨-, -, -, ip, endpoint⟩ := accepted_iff.mp accepted.authenticated
  cases refused with
  | ip outside =>
    rw [same.ips] at ip
    exact Bool.false_ne_true (outside.symm.trans ip)
  | endpoint outside =>
    rw [same.endpoints] at endpoint
    exact Bool.false_ne_true (outside.symm.trans endpoint)
  | origin resolved refused =>
    have allowed := ((passes_iff resolved).mp accepted.passed).2.1
    rw [show (rateContext otherId other).origins = (rateContext id key).origins from
      same.origins] at allowed
    exact refused allowed
  | contract resolved refused =>
    apply refused
    rw [← contractRefusal_congr same]
    exact ((passes_iff resolved).mp accepted.passed).2.2

/-! ### Chains of rotations -/

structure Chain where
  keys : Keys
  members : List KeyId

structure RotateCall where
  id : KeyId
  /-- the id of the row that the call inserts -/
  new : KeyId
  now : ℕ
  grace : ℕ

/-- `rotateKey` of a key of the chain. -/
inductive RotateStep : Chain → RotateCall → Chain → Prop
  | rotated {chain : Chain} {call : RotateCall} {after : Keys} (member : call.id ∈ chain.members)
      (fresh : chain.keys call.new = none)
      (success : rotateKey chain.keys call.id call.new call.now call.grace = some after) :
      RotateStep chain call ⟨after, chain.members ++ [call.new]⟩
  | refused {chain : Chain} {call : RotateCall} (member : call.id ∈ chain.members)
      (failure : rotateKey chain.keys call.id call.new call.now call.grace = none) :
      RotateStep chain call chain

def Chain.Keeps (ipMatchesCidr : String → String → Bool) (id : KeyId) (original : Key)
    (chain : Chain) : Prop :=
  ∀ member ∈ chain.members, ∃ key, chain.keys member = some key ∧ SameAuthority original key ∧
    NoWider ipMatchesCidr id original member key

def KeepsAuthority (ipMatchesCidr : String → String → Bool) (original : Key) : Prop :=
  ∀ keys id calls chain, keys id = some original → Run RotateStep ⟨keys, [id]⟩ calls chain →
    chain.Keeps ipMatchesCidr id original

def Unaltered (key : Key) : Prop :=
  key.allowedIps.items ≠ [] ∨ key.allowedEndpoints.items ≠ [] ∨
    ((∀ scope, scope ∈ key.scopes ↔ scope ∈ defaultScopes) ∧
      key.allowedContractIds.getD [] = [] ∧ key.allowedOrigins.getD [] = [])

theorem SameAuthority.refl (key : Key) : SameAuthority key key :=
  ⟨rfl, rfl, rfl, rfl, rfl, fun _ => Iff.rfl, rfl, rfl⟩

theorem sameAuthority_rotatedCopy_iff {copy : Key} (copied : rotatedCopy key = some copy) :
    SameAuthority key copy ↔ (∀ scope, scope ∈ key.scopes ↔ scope ∈ defaultScopes) ∧
      key.allowedContractIds.getD [] = [] ∧ key.allowedOrigins.getD [] = [] := by
  obtain ⟨ips, endpoints, ipsStored, endpointsStored, rfl⟩ := rotatedCopy_eq_some_iff.mp copied
  constructor
  · intro same
    exact ⟨fun scope => (same.scopes scope).symm, same.contracts.symm, same.origins.symm⟩
  · intro ⟨scopes, contracts, origins⟩
    exact ⟨rfl, rfl, rfl, items_jsonbParam ipsStored, items_jsonbParam endpointsStored,
      fun scope => (scopes scope).symm, contracts.symm, origins.symm⟩

theorem isSome_rotatedCopy : (rotatedCopy key).isSome ↔
    key.allowedIps.items = [] ∧ key.allowedEndpoints.items = [] := by
  rw [← isSome_jsonbParam, ← isSome_jsonbParam]
  unfold rotatedCopy
  cases jsonbParam key.allowedIps <;> cases jsonbParam key.allowedEndpoints <;> simp

theorem SameAuthority.trans {first second third : Key} (same : SameAuthority first second)
    (again : SameAuthority second third) : SameAuthority first third where
  tier := again.tier.trans same.tier
  expiresAt := again.expiresAt.trans same.expiresAt
  verified := again.verified.trans same.verified
  ips := again.ips.trans same.ips
  endpoints := again.endpoints.trans same.endpoints
  scopes scope := (again.scopes scope).trans (same.scopes scope)
  contracts := again.contracts.trans same.contracts
  origins := again.origins.trans same.origins

theorem sameAuthority_markRotated (now grace : ℕ) :
    SameAuthority key (markRotated now grace key) :=
  ⟨rfl, rfl, rfl, rfl, rfl, fun _ => Iff.rfl, rfl, rfl⟩

theorem Unaltered.copied (unaltered : Unaltered original) (same : SameAuthority original key)
    {copy : Key} (copied : rotatedCopy key = some copy) : SameAuthority original copy := by
  refine same.trans ((sameAuthority_rotatedCopy_iff copied).mpr ?_)
  obtain ⟨ips, endpoints⟩ := isSome_rotatedCopy.mp (Option.isSome_of_eq_some copied)
  rw [same.ips] at ips
  rw [same.endpoints] at endpoints
  rcases unaltered with restricted | restricted | ⟨scopes, contracts, origins⟩
  · exact absurd ips restricted
  · exact absurd endpoints restricted
  · exact ⟨fun scope => (same.scopes scope).trans (scopes scope),
      same.contracts.trans contracts, same.origins.trans origins⟩

def Chain.Same (original : Key) (chain : Chain) : Prop :=
  ∀ member ∈ chain.members, ∃ key, chain.keys member = some key ∧ SameAuthority original key

theorem Chain.Same.step {before after : Chain} {call : RotateCall}
    (same : before.Same original) (unaltered : Unaltered original)
    (taken : RotateStep before call after) : after.Same original := by
  cases taken with
  | refused => exact same
  | rotated member fresh success =>
    obtain ⟨existing, copy, found, copied, rfl⟩ := rotateKey_eq_some_iff.mp success
    obtain ⟨key, known, own⟩ := same call.id member
    cases known.symm.trans found
    intro other among
    dsimp only
    by_cases old : other = call.id
    · subst old
      exact ⟨_, Function.update_self .., own.trans (sameAuthority_markRotated _ _)⟩
    rw [Function.update_of_ne old]
    rcases List.mem_append.mp among with earlier | last
    · obtain ⟨row, present, alike⟩ := same other earlier
      have differs : other ≠ call.new := by
        intro equal
        rw [equal, fresh] at present
        cases present
      exact ⟨row, (Function.update_of_ne differs ..).trans present, alike⟩
    · cases List.mem_singleton.mp last
      exact ⟨copy, Function.update_self .., unaltered.copied own copied⟩

/-- Rotations pass the authority of a key on if and only if the key is unaltered. -/
theorem keepsAuthority_iff : KeepsAuthority ipMatchesCidr original ↔ Unaltered original := by
  constructor
  · intro keeps
    by_contra altered
    simp only [Unaltered, not_or, not_not] at altered
    obtain ⟨ips, endpoints, defaults⟩ := altered
    obtain ⟨copy, copied⟩ :=
      Option.isSome_iff_exists.mp (isSome_rotatedCopy.mpr ⟨ips, endpoints⟩)
    -- The key alone in the table, rotated once.
    let keys : Keys := Function.update (fun _ => none) 0 (some original)
    have rotated : Run RotateStep ⟨keys, [0]⟩ [⟨0, 1, 0, 0⟩] _ :=
      Run.one (.rotated (by simp) rfl (rotateKey_eq_some_iff.mpr ⟨original, copy, rfl, copied, rfl⟩))
    obtain ⟨key, found, same, -⟩ := keeps keys 0 _ _ rfl rotated 1 (by simp)
    cases found
    exact defaults ((sameAuthority_rotatedCopy_iff copied).mp same)
  · intro unaltered keys id calls chain found run member among
    have same : chain.Same original := by
      refine run.invariant ?_ fun _ _ _ same taken => same.step unaltered taken
      intro other first
      cases List.mem_singleton.mp first
      exact ⟨original, found, .refl original⟩
    obtain ⟨key, present, own⟩ := same member among
    exact ⟨key, present, own, own.noWider⟩

/-! ### A key of one contract -/

/-- A key that reads the contract `C1` alone. -/
def contractKey : Key :=
  createKey ⟨"reader", none, .pro, none, none, .null, .null, none, true⟩
    ["read:events", "read:contracts"] (some ["C1"]) none

def foreignContract : Attempt where
  clientIp := "127.0.0.1"
  now := 0
  request :=
    { method := "GET"
      path := "/api/contracts/C2/abi"
      rateContext := none
      contract := none
      bodyId := none
      origin := none }

/-- `GET /api/contracts/:id/abi` -/
def readAbi : RouteScopes.Route :=
  ⟨.get, ["api", "contracts", .param "id", "abi"], RouteScopes.R_CONTRACTS⟩

/-- The contract is refused, until the key is rotated. -/
theorem contractKey_widened : ¬ KeepsAuthority (fun _ _ => false) contractKey := by
  intro keeps
  let keys : Keys := Function.update (fun _ => none) 0 (some contractKey)
  have rotated : Run RotateStep ⟨keys, [0]⟩ [⟨0, 1, 0, 0⟩] _ :=
    Run.one (.rotated (by simp) rfl rfl)
  obtain ⟨copy, found, -, narrow⟩ := keeps keys 0 _ _ rfl rotated 1 (by simp)
  cases found
  have matched : RouteScopes.matchRoute foreignContract.request.method
      foreignContract.request.path = some ⟨readAbi, [("id", "C2")]⟩ :=
    RouteScopes.matchRoute_eq_some_iff.mpr
      ⟨by decide +kernel, by decide +kernel, by decide +kernel⟩
  refine narrow foreignContract (.contract matched (by decide +kernel)) ⟨by decide +kernel, ?_⟩
  exact (passes_iff matched).mpr ⟨by decide +kernel, rfl, by decide +kernel⟩

end ApiKeys

end SorobanExplorer.Indexer
