import Mathlib.Data.List.Pairwise
import SorobanExplorer.Library.Json
import SorobanExplorer.Library.Utf8
import SorobanExplorer.Library.PathPattern

/-!
Owns the table of routes and the scopes they declare, and the two routers that read it: the one
that looks up the scopes of a request and the one of Express that runs its handler.

`matchRoute_eq_some_iff` says on which requests they agree.
-/

namespace SorobanExplorer.Indexer

open Library

namespace RouteScopes

inductive Scope where
  | readEvents
  | readContracts
  | writeContracts
  | writeWebhooks
  | readUsage
  | writeKeys
  | admin
deriving DecidableEq

def Scope.text : Scope → String
  | readEvents => "read:events"
  | readContracts => "read:contracts"
  | writeContracts => "write:contracts"
  | writeWebhooks => "write:webhooks"
  | readUsage => "read:usage"
  | writeKeys => "write:keys"
  | admin => "admin:*"

def PUBLIC : List Scope := []
def R_EVENTS : List Scope := [.readEvents]
def R_CONTRACTS : List Scope := [.readContracts]
def W_CONTRACTS : List Scope := [.writeContracts]
def W_WEBHOOKS : List Scope := [.writeWebhooks]
def R_USAGE : List Scope := [.readUsage]
def W_KEYS : List Scope := [.writeKeys]
def ADMIN : List Scope := [.admin]

inductive Method where
  | get
  | post
  | put
  | patch
  | delete
deriving DecidableEq

def Method.text : Method → String
  | get => "GET"
  | post => "POST"
  | put => "PUT"
  | patch => "PATCH"
  | delete => "DELETE"

abbrev Pattern := List (Segment String)

structure Route where
  method : Method
  pattern : Pattern
  scopes : List Scope
deriving DecidableEq

open Segment (param)

instance : Coe String (Segment String) := ⟨Segment.literal⟩

def ROUTE_SCOPES : List Route := [
  -- Public / infrastructure
  ⟨.get, ["health"], PUBLIC⟩,
  ⟨.get, ["health", "live"], PUBLIC⟩,
  ⟨.get, ["health", "ready"], PUBLIC⟩,
  ⟨.get, ["metrics"], PUBLIC⟩,
  ⟨.get, ["api", "health"], PUBLIC⟩,
  ⟨.get, ["api", "metrics"], PUBLIC⟩,
  ⟨.get, ["api", "openapi.yaml"], PUBLIC⟩,
  ⟨.get, ["api", "csrf-token"], PUBLIC⟩,
  ⟨.post, ["api", "csp-report"], PUBLIC⟩,
  ⟨.get, ["api", "status", "history"], PUBLIC⟩,
  ⟨.get, ["api", "rpc", "health"], PUBLIC⟩,
  ⟨.get, ["api", "rpc-metrics"], PUBLIC⟩,
  ⟨.get, ["api", "rpc-nodes"], PUBLIC⟩,
  ⟨.post, ["api", "keys"], PUBLIC⟩,
  ⟨.get, ["api", "keys", "verify"], PUBLIC⟩,
  ⟨.get, ["api", "keys", "introspect"], PUBLIC⟩,
  ⟨.post, ["api", "billing", "stripe-webhook"], PUBLIC⟩,
  -- Events and chain data
  ⟨.get, ["api", "events"], R_EVENTS⟩,
  ⟨.post, ["api", "events"], R_EVENTS⟩,
  ⟨.get, ["api", "v1", "events"], R_EVENTS⟩,
  ⟨.get, ["api", "events", param "seq"], R_EVENTS⟩,
  ⟨.get, ["api", "events", param "seq", "zk-costs"], R_EVENTS⟩,
  ⟨.get, ["api", "export", "events"], R_EVENTS⟩,
  ⟨.get, ["api", "search"], R_EVENTS⟩,
  ⟨.get, ["api", "stats"], R_EVENTS⟩,
  ⟨.get, ["api", "stats", "decoder"], R_EVENTS⟩,
  ⟨.get, ["api", "gaps"], R_EVENTS⟩,
  ⟨.get, ["api", "alerts"], R_EVENTS⟩,
  ⟨.get, ["api", "burn-alerts"], R_EVENTS⟩,
  ⟨.get, ["api", "cache", "stats"], R_EVENTS⟩,
  ⟨.get, ["api", "wallet", param "address"], R_EVENTS⟩,
  ⟨.get, ["api", "wallet", param "address", "balances"], R_EVENTS⟩,
  ⟨.get, ["api", "assets"], R_EVENTS⟩,
  ⟨.get, ["api", "assets", param "issuer", param "code"], R_EVENTS⟩,
  ⟨.get, ["api", "transactions", "status"], R_EVENTS⟩,
  ⟨.get, ["api", "transactions", param "hash", "status"], R_EVENTS⟩,
  ⟨.get, ["api", "transactions", param "hash", "status", "stream"], R_EVENTS⟩,
  ⟨.get, ["api", "tokens", param "id", "holders"], R_EVENTS⟩,
  ⟨.get, ["api", "tokens", param "id", "volume"], R_EVENTS⟩,
  ⟨.get, ["api", "tokens", param "contractId", "nfts"], R_EVENTS⟩,
  ⟨.get, ["api", "tokens", param "contractId", "nfts", "analytics"], R_EVENTS⟩,
  ⟨.get, ["api", "tokens", param "contractId", "nfts", param "tokenId", "history"], R_EVENTS⟩,
  ⟨.get, ["api", "queries"], R_EVENTS⟩,
  ⟨.post, ["api", "queries"], R_EVENTS⟩,
  ⟨.get, ["api", "queries", param "id", "events"], R_EVENTS⟩,
  ⟨.delete, ["api", "queries", param "id"], R_EVENTS⟩,
  ⟨.get, ["graphql"], R_EVENTS⟩,
  ⟨.post, ["graphql"], R_EVENTS⟩,
  -- Contracts (read + simulation, which does not change state)
  ⟨.get, ["api", "contracts"], R_CONTRACTS⟩,
  ⟨.get, ["api", "contracts", param "id"], R_CONTRACTS⟩,
  ⟨.get, ["api", "contracts", param "id", "abi"], R_CONTRACTS⟩,
  ⟨.get, ["api", "contracts", param "id", "abi-history"], R_CONTRACTS⟩,
  ⟨.get, ["api", "contracts", param "id", "build-metadata"], R_CONTRACTS⟩,
  ⟨.get, ["api", "contracts", param "id", "call-graph"], R_CONTRACTS⟩,
  ⟨.get, ["api", "contracts", param "id", "circuit-breaker"], R_CONTRACTS⟩,
  ⟨.get, ["api", "contracts", param "id", "events"], R_CONTRACTS⟩,
  ⟨.get, ["api", "contracts", param "id", "migration-status"], R_CONTRACTS⟩,
  ⟨.get, ["api", "contracts", param "id", "rwa-metadata"], R_CONTRACTS⟩,
  ⟨.get, ["api", "contracts", param "id", "source-verifications"], R_CONTRACTS⟩,
  ⟨.get, ["api", "contracts", param "id", "spec-full"], R_CONTRACTS⟩,
  ⟨.get, ["api", "contracts", param "id", "state-diffs"], R_CONTRACTS⟩,
  ⟨.get, ["api", "contracts", param "id", "stats"], R_CONTRACTS⟩,
  ⟨.get, ["api", "contracts", param "id", "storage-tiers"], R_CONTRACTS⟩,
  ⟨.get, ["api", "contracts", param "id", "ttl"], R_CONTRACTS⟩,
  ⟨.get, ["api", "contracts", param "id", "upgrades"], R_CONTRACTS⟩,
  ⟨.get, ["api", "contracts", param "id", "wasm"], R_CONTRACTS⟩,
  ⟨.get, ["api", "v1", "contracts", param "id", "transactions"], R_CONTRACTS⟩,
  ⟨.get, ["api", "export", "contracts"], R_CONTRACTS⟩,
  ⟨.get, ["api", "spec", param "id"], R_CONTRACTS⟩,
  ⟨.get, ["api", "spec", param "id", "full"], R_CONTRACTS⟩,
  ⟨.get, ["api", "sandboxes"], R_CONTRACTS⟩,
  ⟨.get, ["api", "sandbox", param "id"], R_CONTRACTS⟩,
  ⟨.post, ["api", "simulate"], R_CONTRACTS⟩,
  ⟨.post, ["api", "sandbox", "simulate"], R_CONTRACTS⟩,
  ⟨.post, ["api", "sandbox", "ledger-entries"], R_CONTRACTS⟩,
  ⟨.post, ["api", "auth-tree"], R_CONTRACTS⟩,
  ⟨.post, ["api", "batch"], R_CONTRACTS⟩,
  ⟨.post, ["api", "batch", "estimate-gas"], R_CONTRACTS⟩,
  ⟨.post, ["api", "batch", "optimize"], R_CONTRACTS⟩,
  ⟨.post, ["api", "batch", "simulate"], R_CONTRACTS⟩,
  ⟨.post, ["api", "batch", "validate"], R_CONTRACTS⟩,
  -- Contract writes
  ⟨.post, ["api", "contracts"], W_CONTRACTS⟩,
  ⟨.patch, ["api", "contracts", param "id"], W_CONTRACTS⟩,
  ⟨.post, ["api", "contracts", param "id", "source-verifications"], W_CONTRACTS⟩,
  ⟨.post, ["api", "verify"], W_CONTRACTS⟩,
  ⟨.post, ["api", "sandbox"], W_CONTRACTS⟩,
  ⟨.delete, ["api", "sandbox", param "id"], W_CONTRACTS⟩,
  ⟨.post, ["api", "collab", "sessions"], W_CONTRACTS⟩,
  -- Authorised by the session owner token (x-collab-token), not an API key.
  ⟨.post, ["api", "collab", "sessions", param "id", "rotate"], PUBLIC⟩,
  ⟨.post, ["api", "collab", "sessions", param "id", "kick"], PUBLIC⟩,
  -- Webhooks
  ⟨.get, ["api", "webhooks"], W_WEBHOOKS⟩,
  ⟨.post, ["api", "webhooks"], W_WEBHOOKS⟩,
  ⟨.delete, ["api", "webhooks", param "id"], W_WEBHOOKS⟩,
  ⟨.post, ["api", "webhooks", param "id", "test"], W_WEBHOOKS⟩,
  ⟨.get, ["api", "webhooks", param "id", "deliveries"], W_WEBHOOKS⟩,
  ⟨.post, ["api", "webhooks", param "id", "deliveries", param "delivery_id", "retry"],
    W_WEBHOOKS⟩,
  -- Self-service dashboard
  ⟨.get, ["api", "dashboard", "me"], R_USAGE⟩,
  ⟨.get, ["api", "dashboard", "api-keys"], R_USAGE⟩,
  ⟨.get, ["api", "dashboard", "api-keys", param "id", "usage"], R_USAGE⟩,
  ⟨.post, ["api", "dashboard", "api-keys"], W_KEYS⟩,
  ⟨.post, ["api", "dashboard", "api-keys", param "id", "rotate"], W_KEYS⟩,
  ⟨.delete, ["api", "dashboard", "api-keys", param "id"], W_KEYS⟩,
  ⟨.put, ["api", "dashboard", "api-keys", param "id", "allowed-ips"], W_KEYS⟩,
  -- Admin / setup
  ⟨.get, ["api", "setup", "doctor"], ADMIN⟩,
  ⟨.post, ["api", "setup", "db-init"], ADMIN⟩,
  ⟨.post, ["api", "setup", "save-config"], ADMIN⟩,
  ⟨.post, ["api", "setup", "test-db"], ADMIN⟩,
  ⟨.get, ["api", "admin", "integrity"], ADMIN⟩,
  ⟨.post, ["api", "admin", "alerts", param "condition", "resolve"], ADMIN⟩,
  ⟨.get, ["api", "admin", "api-keys"], ADMIN⟩,
  ⟨.post, ["api", "admin", "api-keys"], ADMIN⟩,
  ⟨.patch, ["api", "admin", "api-keys", param "id"], ADMIN⟩,
  ⟨.delete, ["api", "admin", "api-keys", param "id"], ADMIN⟩,
  ⟨.post, ["api", "admin", "api-keys", param "id", "rotate"], ADMIN⟩,
  ⟨.get, ["api", "admin", "api-keys", param "id", "usage"], ADMIN⟩,
  ⟨.get, ["api", "admin", "audit-log"], ADMIN⟩,
  ⟨.get, ["api", "admin", "audit-log", "export"], ADMIN⟩,
  ⟨.get, ["api", "admin", "analytics", "rate-limit-hits"], ADMIN⟩,
  ⟨.get, ["api", "admin", "analytics", "top-users"], ADMIN⟩,
  ⟨.get, ["api", "admin", "analytics", "violation-heatmap"], ADMIN⟩,
  ⟨.get, ["api", "admin", "analytics", "upgrade-recommendations"], ADMIN⟩,
  ⟨.post, ["api", "admin", "abi", "import-github"], ADMIN⟩,
  ⟨.post, ["api", "admin", "dlq", param "id", "retry"], ADMIN⟩]

namespace Route

def names (route : Route) : List String := PathPattern.names route.pattern

def literalSegments (route : Route) : Nat :=
  (route.pattern.filter fun segment => segment.name?.isNone).length

end Route

def compiled : List Route :=
  ROUTE_SCOPES.mergeSort fun left right => right.literalSegments ≤ left.literalSegments

/-! ### The scope router -/

def pieces (path : String) : List String := (path.toList.splitOn '/').map String.ofList

/-- What stands between the slashes of `/first/second`, where one slash may end the path. -/
def segmentsOf (path : String) : Option (List String) :=
  match pieces path with
  | "" :: rest => some (if rest.getLast? = some "" then rest.dropLast else rest)
  | _ => none

def matchPath (fold : String → String) (pattern : Pattern) (path : String) :
    Option (List (String × String)) :=
  (segmentsOf path).bind (PathPattern.captures fold "" pattern)

structure Match where
  route : Route
  params : List (String × String)

def matchRoute (method path : String) : Option Match :=
  compiled.findSome? fun route =>
    if route.method.text = method then
      (matchPath id route.pattern path).map fun params => ⟨route, params⟩
    else none

/-! ### Express -/

def foldCase (text : String) : String := String.ofList (text.toList.map Char.toLower)

def Method.serves (declared : Method) (method : String) : Prop :=
  method = declared.text ∨ (declared = .get ∧ method = "HEAD")

/-- The bytes of a text with escapes; `none` for an escape that is not of two digits. -/
def unescapedBytes : List Char → Option (List UInt8)
  | '%' :: high :: low :: rest => do
      let high ← Json.hexDigit? high
      let low ← Json.hexDigit? low
      return UInt8.ofNat (16 * high + low) :: (← unescapedBytes rest)
  | '%' :: _ => none
  | char :: rest => (unescapedBytes rest).map (Utf8.encodeChar char ++ ·)
  | [] => some []

/-- `none` where it throws a `URIError`. -/
def decodeURIComponent (text : String) : Option String := do
  String.fromUTF8? ⟨(← unescapedBytes text.toList).toArray⟩

def decodeParams (raw : List (String × String)) : Option (List (String × String)) :=
  raw.mapM fun param => (decodeURIComponent param.2).map (param.1, ·)

/-- The request runs the handler of the route: `raw` is what its path captures, and `params` is
what the handler is given. -/
structure Dispatched (method path : String) (route : Route) (raw params : List (String × String)) :
    Prop where
  declared : route ∈ ROUTE_SCOPES
  served : route.method.serves method
  captured : matchPath foldCase route.pattern path = some raw
  decoded : decodeParams raw = some params

/-! ### The routers agree -/

/-- The request is written as the route is declared: its method, and its texts letter by letter. -/
structure Spelled (method path : String) (route : Route) : Prop where
  method_eq : method = route.method.text
  texts : ∀ segments, segmentsOf path = some segments →
    List.Forall₂ Segment.Spells route.pattern segments

theorem Method.text_injective {left right : Method} (same : left.text = right.text) :
    left = right := by
  revert same
  cases left <;> cases right <;> decide

theorem Method.text_ne_head (method : Method) : method.text ≠ "HEAD" := by
  cases method <;> decide

theorem declared_texts : ∀ route ∈ ROUTE_SCOPES, ∀ segment ∈ route.pattern,
    (match segment with | .literal text => foldCase text == text | .param _ => true) = true := by
  decide +kernel

theorem declared_folded {route : Route} (declared : route ∈ ROUTE_SCOPES) :
    PathPattern.Folded foldCase route.pattern := by
  intro text member
  simpa using declared_texts route declared _ member

def Route.Apart (left right : Route) : Prop :=
  left.method = right.method → PathPattern.apart left.pattern right.pattern = true

instance : DecidableRel Route.Apart := fun left right =>
  inferInstanceAs (Decidable (left.method = right.method →
    PathPattern.apart left.pattern right.pattern = true))

instance : Std.Symm Route.Apart :=
  ⟨fun left right apart method_eq =>
    (PathPattern.apart_comm right.pattern left.pattern).trans (apart method_eq.symm)⟩

theorem declared_apart : ROUTE_SCOPES.Pairwise Route.Apart := by
  decide +kernel

variable {method path : String} {route left right : Route} {fold : String → String}
  {raw params leftParams rightParams : List (String × String)}

theorem matchPath_eq_some_iff :
    matchPath fold route.pattern path = some raw ↔ ∃ segments, segmentsOf path = some segments ∧
      PathPattern.Captured fold "" route.pattern segments raw := by
  simp only [matchPath, Option.bind_eq_some_iff, PathPattern.captures_eq_some_iff]

theorem matchPath_of_exact (matched : matchPath id route.pattern path = some raw) :
    matchPath fold route.pattern path = some raw := by
  obtain ⟨segments, split, captured⟩ := matchPath_eq_some_iff.mp matched
  exact matchPath_eq_some_iff.mpr ⟨segments, split, captured.of_exact⟩

theorem route_unique (leftDeclared : left ∈ ROUTE_SCOPES) (rightDeclared : right ∈ ROUTE_SCOPES)
    (method_eq : left.method = right.method)
    (leftMatched : matchPath foldCase left.pattern path = some leftParams)
    (rightMatched : matchPath foldCase right.pattern path = some rightParams) : left = right := by
  obtain ⟨segments, split, leftCaptured⟩ := matchPath_eq_some_iff.mp leftMatched
  obtain ⟨segments', split', rightCaptured⟩ := matchPath_eq_some_iff.mp rightMatched
  obtain rfl := Option.some.inj (split.symm.trans split')
  by_contra other
  have apart := declared_apart.forall leftDeclared rightDeclared other method_eq
  have overlap := leftCaptured.not_apart rightCaptured (declared_folded leftDeclared)
    (declared_folded rightDeclared)
  exact Bool.false_ne_true (overlap.symm.trans apart)

theorem mem_compiled : route ∈ compiled ↔ route ∈ ROUTE_SCOPES := List.mem_mergeSort

theorem matchRoute_eq_some_iff {found : Match} :
    matchRoute method path = some found ↔ found.route ∈ ROUTE_SCOPES ∧
      found.route.method.text = method ∧
      matchPath id found.route.pattern path = some found.params := by
  have sound : ∀ {found : Match}, matchRoute method path = some found →
      found.route ∈ ROUTE_SCOPES ∧ found.route.method.text = method ∧
      matchPath id found.route.pattern path = some found.params := by
    intro found resolved
    obtain ⟨route, member, tried⟩ := List.exists_of_findSome?_eq_some resolved
    split_ifs at tried with method_eq
    obtain ⟨params, matched, rfl⟩ := Option.map_eq_some_iff.mp tried
    exact ⟨mem_compiled.mp member, method_eq, matched⟩
  refine ⟨sound, fun ⟨declared, method_eq, matched⟩ => ?_⟩
  cases resolved : matchRoute method path with
  | none =>
    have tried := List.findSome?_eq_none_iff.mp resolved _ (mem_compiled.mpr declared)
    simp [method_eq, matched] at tried
  | some other =>
    obtain ⟨otherDeclared, otherMethod, otherMatched⟩ := sound resolved
    have same := route_unique otherDeclared declared
      (Method.text_injective (otherMethod.trans method_eq.symm))
      (matchPath_of_exact otherMatched) (matchPath_of_exact matched)
    rw [same] at otherMatched
    have params := Option.some.inj (otherMatched.symm.trans matched)
    exact congrArg some (by cases other; cases found; simp_all)

theorem Dispatched.matchRoute_eq_some_iff (dispatched : Dispatched method path route raw params)
    {found : Match} :
    matchRoute method path = some found ↔ Spelled method path route ∧ found = ⟨route, raw⟩ := by
  obtain ⟨segments, split, captured⟩ := matchPath_eq_some_iff.mp dispatched.captured
  rw [RouteScopes.matchRoute_eq_some_iff]
  constructor
  · intro ⟨declared, method_eq, matched⟩
    have served : method = route.method.text := by
      rcases dispatched.served with served | ⟨-, head⟩
      · exact served
      · exact absurd (method_eq.trans head) (Method.text_ne_head _)
    have same := route_unique declared dispatched.declared
      (Method.text_injective (method_eq.trans served))
      (matchPath_of_exact matched) dispatched.captured
    rw [same] at matched
    have params := Option.some.inj ((matchPath_of_exact matched).symm.trans dispatched.captured)
    obtain ⟨segments', split', exact'⟩ := matchPath_eq_some_iff.mp matched
    obtain rfl := Option.some.inj (split.symm.trans split')
    rw [params] at exact'
    refine ⟨⟨served, fun other split' => ?_⟩, by cases found; simp_all⟩
    obtain rfl := Option.some.inj (split.symm.trans split')
    exact captured.exact_iff.mp exact'
  · rintro ⟨spelled, rfl⟩
    exact ⟨dispatched.declared, spelled.method_eq.symm, matchPath_eq_some_iff.mpr
      ⟨segments, split, captured.exact_iff.mpr (spelled.texts segments split)⟩⟩

end RouteScopes

end SorobanExplorer.Indexer
