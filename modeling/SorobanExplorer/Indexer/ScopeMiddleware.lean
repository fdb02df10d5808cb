import Mathlib.Tactic.SplitIfs
import SorobanExplorer.Indexer.RouteScopes

/-!
Owns the check of an API key against the scopes of a route, its contracts and its origins.

`enforced_iff` says on which requests nothing passes that the key is not entitled to.
-/

namespace SorobanExplorer.Indexer

open Library

namespace RouteScopes

/-! ### The check -/

/-- What authentication leaves of a key; `null` for a field is `none`. -/
structure RateContext where
  keyId : Option String
  scopes : Option (List String)
  allowedContractIds : Option (List String)
  allowedOrigins : Option (List String)

structure Request where
  method : String
  path : String
  rateContext : Option RateContext
  /-- `req.query.contract`, where it is one text -/
  contract : Option String
  /-- `req.body.id`, where it is a text -/
  bodyId : Option String
  origin : Option String

structure Problem where
  type : String
  title : String
  status : Nat
  detail : String
  missing_scope : Option String
  required_scopes : Option (List String)
deriving DecidableEq

inductive Answer where
  | next
  | problem (body : Problem)
deriving DecidableEq

def problem (status : Nat) (title detail : String) (missing_scope : Option String)
    (required_scopes : Option (List String)) : Problem :=
  ⟨"about:blank", title, status, detail, missing_scope, required_scopes⟩

/-- `admin:*` satisfies every scope. -/
def hasScope (granted : List String) (required : Scope) : Bool :=
  granted.contains Scope.admin.text || granted.contains required.text

def truthy (text : Option String) : Option String := text.filter (· ≠ "")

namespace RateContext

def keyed (ctx : RateContext) : Bool := (truthy ctx.keyId).isSome

def granted (ctx : RateContext) : List String := ctx.scopes.getD []

def contracts (ctx : RateContext) : List String := ctx.allowedContractIds.getD []

def origins (ctx : RateContext) : List String := ctx.allowedOrigins.getD []

end RateContext

def contractAreas : List String := ["contracts", "spec", "tokens"]

/-- `/^\/api\/(v1\/)?(contracts|spec|tokens)\//`, of the pieces of a path. -/
def underContracts : List String → Bool
  | root :: api :: area :: piece :: rest =>
    root == "" && api == "api" && (contractAreas.contains area ||
      (area == "v1" && contractAreas.contains piece && !rest.isEmpty))
  | _ => false

def Route.key (route : Route) : Method × Pattern := (route.method, route.pattern)

def contractElsewhere (req : Request) (route : Route) : Option String :=
  match req.contract with
  | some contract => some contract
  | none => if route.key = (.post, (["api", "contracts"] : Pattern)) then req.bodyId else none

def contractIdFor (req : Request) (found : Match) : Option String :=
  truthy (found.params.lookup "contractId")
    <|> (if underContracts (pieces req.path) then truthy (found.params.lookup "id") else none)
    <|> contractElsewhere req found.route

/-- List endpoints that return data across contracts: a contract-restricted key must scope them
with `?contract=`. -/
def CONTRACT_SCOPED_LISTS : List (Method × Pattern) :=
  [(.get, ["api", "events"]), (.get, ["api", "v1", "events"]), (.get, ["api", "export", "events"])]

def scopeRefusal (granted : List String) (route : Route) : Option Problem :=
  let missing := route.scopes.filter fun scope => !hasScope granted scope
  missing.head?.map fun first => problem 403 "Insufficient scope"
    ("This API key lacks the " ++ ", ".intercalate (missing.map Scope.text) ++ " scope.")
    (some first.text) (some (route.scopes.map Scope.text))

def originRefusal (origins : List String) (origin : Option String) : Option Problem :=
  (truthy origin).bind fun origin =>
    if origins ≠ [] ∧ origin ∉ origins then
      some (problem 403 "Origin not allowed" ("This API key cannot be used from " ++ origin ++ ".")
        none none)
    else none

/-- A key with contracts of its own is held to them, unless it holds `admin:*`. -/
def RateContext.Restricted (ctx : RateContext) : Prop :=
  ctx.contracts ≠ [] ∧ Scope.admin.text ∉ ctx.granted

instance : DecidablePred RateContext.Restricted := fun ctx =>
  inferInstanceAs (Decidable (ctx.contracts ≠ [] ∧ Scope.admin.text ∉ ctx.granted))

def contractRefusal (ctx : RateContext) (req : Request) (found : Match) : Option Problem :=
  if ctx.Restricted then
    match truthy (contractIdFor req found) with
    | some contractId =>
      if contractId ∈ ctx.contracts then none
      else some (problem 403 "Insufficient scope"
        ("This API key is not allowed to access contract " ++ contractId ++ ".")
        (some ("contract:" ++ contractId)) none)
    | none =>
      if found.route.key ∈ CONTRACT_SCOPED_LISTS then
        some (problem 403 "Insufficient scope"
          "This API key is restricted to specific contracts; pass ?contract=."
          (some "contract:*") none)
      else none
  else none

def scopeMiddleware (req : Request) : Answer :=
  match req.rateContext with
  | none => .next
  | some ctx =>
    if ctx.keyed then
      match matchRoute req.method req.path with
      | none => .next
      | some found =>
        match scopeRefusal ctx.granted found.route <|> originRefusal ctx.origins req.origin
          <|> contractRefusal ctx req found with
        | some body => .problem body
        | none => .next
    else .next

/-! ### What a key is entitled to -/

def Segment.text : Segment String → String
  | .literal text => text
  | .param name => ":" ++ name

def Route.contractParam (route : Route) : Option String :=
  if "contractId" ∈ route.names then some "contractId"
  else if "id" ∈ route.names ∧ underContracts ("" :: route.pattern.map Segment.text) then some "id"
  else none

def contractOf (req : Request) (route : Route) (params : List (String × String)) :
    Option String :=
  match route.contractParam with
  | some name => params.lookup name
  | none => contractElsewhere req route

/-- The key holds every scope of the route, and the contract named is one of the key's. -/
structure Entitled (ctx : RateContext) (req : Request) (route : Route)
    (params : List (String × String)) : Prop where
  scopes : ∀ scope ∈ route.scopes, hasScope ctx.granted scope
  contract : ctx.Restricted → ∀ id ∈ truthy (contractOf req route params), id ∈ ctx.contracts

def Enforced (req : Request) : Prop :=
  ∀ ctx ∈ req.rateContext, ctx.keyed → ∀ route raw params,
    Dispatched req.method req.path route raw params → scopeMiddleware req = .next →
      Entitled ctx req route params

/-- The key holds the scopes, comes from an origin of its own, and lists the contract as the path
spells it, escapes included. -/
structure AdmittedAsWritten (ctx : RateContext) (req : Request) (route : Route)
    (raw : List (String × String)) : Prop where
  scopes : ∀ scope ∈ route.scopes, hasScope ctx.granted scope
  origin : ctx.origins ≠ [] → ∀ origin ∈ truthy req.origin, origin ∈ ctx.origins
  listed : ∃ name ∈ route.contractParam, ∃ id ∈ raw.lookup name, id ∈ ctx.contracts

/-- The key is entitled to the route anyway, or the request is spelled as the route is declared
and the key does not list the contract as the path spells it. -/
def Spared (req : Request) : Prop :=
  ∀ ctx ∈ req.rateContext, ctx.keyed → ∀ route raw params,
    Dispatched req.method req.path route raw params →
      Entitled ctx req route params ∨
        (Spelled req.method req.path route ∧ ¬AdmittedAsWritten ctx req route raw)

/-! ### What the check lets pass -/

variable {ctx : RateContext} {req : Request} {route : Route} {found : Match}
  {raw params : List (String × String)} {pattern : Pattern} {segments : List String}

theorem scopeRefusal_eq_none_iff {granted : List String} :
    scopeRefusal granted route = none ↔ ∀ scope ∈ route.scopes, hasScope granted scope := by
  simp [scopeRefusal]

theorem originRefusal_eq_none_iff {origins : List String} {origin : Option String} :
    originRefusal origins origin = none ↔
      (origins ≠ [] → ∀ text ∈ truthy origin, text ∈ origins) := by
  cases present : truthy origin <;> simp [originRefusal, present]

theorem not_refused_listed {id : String} (named : id ∈ truthy (contractIdFor req found))
    (restricted : ctx.Restricted) :
    contractRefusal ctx req found = none ↔ id ∈ ctx.contracts := by
  simp [contractRefusal, restricted, Option.mem_def.mp named]

theorem scopeMiddleware_next_of_unmatched (unmatched : matchRoute req.method req.path = none) :
    scopeMiddleware req = .next := by
  unfold scopeMiddleware
  split
  · rfl
  · simp [unmatched]

theorem scopeMiddleware_next_iff (context : ctx ∈ req.rateContext) (keyed : ctx.keyed)
    (resolved : matchRoute req.method req.path = some found) :
    scopeMiddleware req = .next ↔
      (∀ scope ∈ found.route.scopes, hasScope ctx.granted scope) ∧
      (ctx.origins ≠ [] → ∀ origin ∈ truthy req.origin, origin ∈ ctx.origins) ∧
      contractRefusal ctx req found = none := by
  rw [← scopeRefusal_eq_none_iff, ← originRefusal_eq_none_iff]
  simp only [scopeMiddleware, Option.mem_def.mp context, keyed, if_true, resolved]
  cases scopeRefusal ctx.granted found.route <;> cases originRefusal ctx.origins req.origin <;>
    cases contractRefusal ctx req found <;> simp

/-! ### The contract that the check finds -/

def placed : Pattern → Bool
  | .literal _ :: .literal _ :: .literal _ :: _ :: _ => true
  | .literal _ :: .literal area :: _ :: _ => area != "v1"
  | _ => false

theorem declared_placed : ∀ route ∈ ROUTE_SCOPES, "id" ∈ route.names →
    placed route.pattern = true := by
  decide +kernel

theorem underContracts_spelled (pattern_placed : placed pattern = true)
    (spelled : List.Forall₂ Segment.Spells pattern segments) (rest : List String) :
    underContracts ("" :: (segments ++ rest)) =
      underContracts ("" :: pattern.map Segment.text) := by
  unfold placed at pattern_placed
  split at pattern_placed
  · cases spelled with
    | cons first spelled =>
    cases spelled with
    | cons second spelled =>
    cases spelled with
    | cons third spelled =>
    cases spelled with
    | cons fourth spelled =>
    cases first; cases second; cases third
    simp [underContracts, Segment.text]
  · cases spelled with
    | cons first spelled =>
    cases spelled with
    | cons second spelled =>
    cases spelled with
    | cons third spelled =>
    cases first; cases second
    have other := beq_eq_false_iff_ne.mpr (bne_iff_ne.mp pattern_placed)
    simp [underContracts, Segment.text, other]
  · cases pattern_placed

theorem pieces_of_segmentsOf {path : String} (split : segmentsOf path = some segments) :
    ∃ rest, pieces path = "" :: (segments ++ rest) := by
  unfold segmentsOf at split
  split at split
  case h_1 rest shape =>
    rw [shape]
    split_ifs at split with last <;> cases split
    · exact ⟨[""], by rw [List.dropLast_append_getLast? _ last]⟩
    · exact ⟨[], by simp⟩
  case h_2 => cases split

theorem truthy_lookup {name : String} (filled : ∀ param ∈ raw, param.2 ≠ "") :
    truthy (raw.lookup name) = raw.lookup name := by
  cases present : raw.lookup name with
  | none => rfl
  | some id =>
    obtain ⟨before, after, rfl, -⟩ := List.lookup_eq_some_iff.mp present
    have id_filled := filled (name, id) (List.mem_append_right _ List.mem_cons_self)
    simp [truthy, id_filled]

theorem isSome_lookup_iff {name : String} (names : raw.map Prod.fst = route.names) :
    (raw.lookup name).isSome ↔ name ∈ route.names := by
  rw [← names, List.lookup_isSome_iff, List.mem_map]
  exact exists_congr fun param => and_congr_right fun _ => by rw [beq_iff_eq, eq_comm]

theorem contractIdFor_spelled
    (dispatched : Dispatched req.method req.path route raw params)
    (spelled : Spelled req.method req.path route) :
    contractIdFor req ⟨route, raw⟩ = contractOf req route raw := by
  obtain ⟨segments, split, captured⟩ := matchPath_eq_some_iff.mp dispatched.captured
  obtain ⟨rest, path_pieces⟩ := pieces_of_segmentsOf split
  have present : ∀ name, (raw.lookup name).isSome ↔ name ∈ route.names :=
    fun name => isSome_lookup_iff captured.names_eq
  unfold contractIdFor contractOf Route.contractParam
  simp only [truthy_lookup captured.filled]
  by_cases contractId : "contractId" ∈ route.names
  · obtain ⟨value, found⟩ := Option.isSome_iff_exists.mp ((present "contractId").mpr contractId)
    simp [contractId, found]
  · have absent := Option.not_isSome_iff_eq_none.mp ((present "contractId").not.mpr contractId)
    by_cases id : "id" ∈ route.names
    · have area := underContracts_spelled (declared_placed route dispatched.declared id)
        (spelled.texts segments split) rest
      obtain ⟨value, found⟩ := Option.isSome_iff_exists.mp ((present "id").mpr id)
      cases under : underContracts ("" :: route.pattern.map Segment.text) <;>
        simp [contractId, id, absent, found, path_pieces, area, under]
    · have idAbsent := Option.not_isSome_iff_eq_none.mp ((present "id").not.mpr id)
      simp [contractId, id, absent, idAbsent]

theorem lookup_decoded {name : String} (decoded : decodeParams raw = some params) :
    params.lookup name = (raw.lookup name).bind decodeURIComponent := by
  induction raw generalizing params with
  | nil =>
    cases decoded
    rfl
  | cons param raw ih =>
    simp only [decodeParams, List.mapM_cons, Option.bind_eq_bind, Option.bind_eq_some_iff,
      Option.map_eq_some_iff, Option.pure_def, Option.some.injEq] at decoded
    obtain ⟨_, ⟨value, decodedValue, rfl⟩, rest, decodedRest, rfl⟩ := decoded
    rw [List.lookup_cons, List.lookup_cons, ih decodedRest]
    cases name == param.1 <;> simp [decodedValue]

/-! ### When nothing unentitled passes -/

theorem contractIdFor_written (dispatched : Dispatched req.method req.path route raw params)
    (spelled : Spelled req.method req.path route) {name id : String}
    (param : route.contractParam = some name) (written : raw.lookup name = some id) :
    id ∈ truthy (contractIdFor req ⟨route, raw⟩) := by
  obtain ⟨segments, split, captured⟩ := matchPath_eq_some_iff.mp dispatched.captured
  rw [contractIdFor_spelled dispatched spelled, contractOf, param]
  exact Option.mem_def.mpr ((truthy_lookup captured.filled).trans written)

theorem entitled_of_next (context : ctx ∈ req.rateContext) (keyed : ctx.keyed)
    (dispatched : Dispatched req.method req.path route raw params)
    (spelled : Spelled req.method req.path route)
    (unlisted : ¬AdmittedAsWritten ctx req route raw) (next : scopeMiddleware req = .next) :
    Entitled ctx req route params := by
  have resolved := dispatched.matchRoute_eq_some_iff.mpr ⟨spelled, rfl⟩
  obtain ⟨scopes, origin, contract⟩ := (scopeMiddleware_next_iff context keyed resolved).mp next
  refine ⟨scopes, fun restricted id named => ?_⟩
  cases param : route.contractParam with
  | none =>
    have found : id ∈ truthy (contractIdFor req ⟨route, raw⟩) := by
      rw [contractIdFor_spelled dispatched spelled]
      simpa [contractOf, param] using named
    exact (not_refused_listed found restricted).mp contract
  | some name =>
    have handed : params.lookup name = some id := by
      simp only [contractOf, param, truthy, Option.mem_def, Option.filter_eq_some_iff] at named
      exact named.1
    rw [lookup_decoded dispatched.decoded] at handed
    obtain ⟨text, written, -⟩ := Option.bind_eq_some_iff.mp handed
    have listed := (not_refused_listed (contractIdFor_written dispatched spelled param written)
      restricted).mp contract
    exact absurd ⟨scopes, origin, name, param, text, written, listed⟩ unlisted

theorem next_of_admitted (context : ctx ∈ req.rateContext) (keyed : ctx.keyed)
    (dispatched : Dispatched req.method req.path route raw params)
    (spelled : Spelled req.method req.path route)
    (admitted : AdmittedAsWritten ctx req route raw) : scopeMiddleware req = .next := by
  have resolved := dispatched.matchRoute_eq_some_iff.mpr ⟨spelled, rfl⟩
  obtain ⟨name, param, id, written, listed⟩ := admitted.listed
  refine (scopeMiddleware_next_iff context keyed resolved).mpr
    ⟨admitted.scopes, admitted.origin, ?_⟩
  by_cases restricted : ctx.Restricted
  · exact (not_refused_listed (contractIdFor_written dispatched spelled param written)
      restricted).mpr listed
  · simp [contractRefusal, restricted]

theorem next_of_misspelled (dispatched : Dispatched req.method req.path route raw params)
    (misspelled : ¬Spelled req.method req.path route) : scopeMiddleware req = .next := by
  apply scopeMiddleware_next_of_unmatched
  by_contra resolved
  obtain ⟨found, resolved⟩ := Option.ne_none_iff_exists'.mp resolved
  exact misspelled (dispatched.matchRoute_eq_some_iff.mp resolved).1

def headRequest : Request where
  method := "HEAD"
  path := "/api/admin/api-keys"
  rateContext := some ⟨some "key-1", some ["read:events"], none, none⟩
  contract := none
  bodyId := none
  origin := none

/-- `GET /api/admin/api-keys` -/
def listKeys : Route := ⟨.get, ["api", "admin", "api-keys"], ADMIN⟩

end RouteScopes

end SorobanExplorer.Indexer
