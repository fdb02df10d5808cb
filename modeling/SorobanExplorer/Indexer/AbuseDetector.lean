import SorobanExplorer.Filters.JsValue
import SorobanExplorer.Library.JsArithmetic

/-!
Owns the middleware `abuseDetector`: the penalties that a client has, the scraping and the
pagination rule, the rate limit they leave in `req.rateContext`, and when it is not above the one
the request came with.

Redis answers each command as it likes or fails.
-/

namespace SorobanExplorer.Indexer

open Library
open Filters (js JsString)

namespace AbuseDetector

/-! ### Constants -/

def ABUSE_BLOCK_PREFIX : JsString := js "abuse:block"
def ABUSE_SCRAPE_PREFIX : JsString := js "abuse:scrape"
def ABUSE_PAGINATE_PREFIX : JsString := js "abuse:paginate"
def ABUSE_PENALTY_PREFIX : JsString := js "abuse:penalty"

def SCRAPE_SIMILARITY_THRESHOLD : JsNumeric := some (.ofRat (9 / 10))
def SCRAPE_PENALTY_FACTOR : JsNumeric := some (.ofRat (1 / 10))
def PAGINATION_THRESHOLD : ℕ := 20
def PAGINATION_PENALTY_RATE : JsNumeric := .ofNat 5

/-! ### Requests and Redis -/

/-- `none` is `undefined`, or the limit `null`. -/
structure RateContext where
  clientId : Option JsString
  tier : Option JsString
  rateLimit : Option JsNumeric

structure Request where
  ip : JsString
  path : JsString
  /-- The names in `req.query`. -/
  query : List JsString
  rateContext : Option RateContext

abbrev Reply (α : Type) := Except Unit α

structure Redis where
  isReady : Bool
  get : JsString → Reply (Option JsString)
  set : JsString → Reply Unit
  incr : JsString → Reply ℕ
  expire : JsString → Reply Unit
  rPush : JsString → Reply Unit
  lTrim : JsString → Reply Unit
  lRange : JsString → Reply (List JsString)

/-- `try { … } catch { return fallback; }` -/
def Reply.orElse {α : Type} (fallback : α) : Reply α → α
  | .ok value => value
  | .error () => fallback

/-- `${first}:${second}` -/
def joined (first second : JsString) : JsString := first ++ js ":" ++ second

/-! ### Similarity of paths -/

def tokenisePath (urlPath : JsString) : List JsString :=
  ((urlPath.splitOn 0x2F).filter (· ≠ [])).dedup

def jaccardSimilarity (a b : List JsString) : JsNumeric :=
  if a = [] ∧ b = [] then .ofNat 1
  else if a = [] ∨ b = [] then .ofNat 0
  else
    let intersection := a.countP (· ∈ b)
    let union := a.length + b.length - intersection
    if union = 0 then .ofNat 0 else .div (.ofNat intersection) (.ofNat union)

def averageJaccard (candidate : List JsString) (history : List (List JsString)) : JsNumeric :=
  if history = [] then .ofNat 0
  else
    let total := history.foldl (fun sum other => .add sum (jaccardSimilarity candidate other))
      (.ofNat 0)
    .div total (.ofNat history.length)

/-! ### Detection -/

section Detection

variable (redis : Redis)

def isBlocked (ip : JsString) : Bool :=
  Reply.orElse false do
    let val ← redis.get (joined ABUSE_BLOCK_PREFIX ip)
    return val.isSome

def hasPenalty (clientId endpoint : JsString) : Bool :=
  Reply.orElse false do
    let specific ← redis.get (joined (joined ABUSE_PENALTY_PREFIX clientId) endpoint)
    let wildcard ← redis.get (joined (joined ABUSE_PENALTY_PREFIX clientId) (js "*"))
    return specific.isSome || wildcard.isSome

def scrapingDetected (clientId path : JsString) : Reply Bool := do
  let scrapeKey := joined ABUSE_SCRAPE_PREFIX clientId
  redis.rPush scrapeKey
  redis.lTrim scrapeKey
  redis.expire scrapeKey
  let recent ← redis.lRange scrapeKey
  if recent.length < 3 then
    return false
  let similarity := averageJaccard (tokenisePath path) (recent.dropLast.map tokenisePath)
  if similarity.gt SCRAPE_SIMILARITY_THRESHOLD then
    redis.set (joined (joined ABUSE_PENALTY_PREFIX clientId) (js "*"))
    return true
  return false

def reducedLimit (originalLimit : JsNumeric) : JsNumeric :=
  .maximum (.ofNat 1) (.floor (.mul originalLimit SCRAPE_PENALTY_FACTOR))

def checkScrapingPattern (clientId path : JsString) (originalLimit : JsNumeric) : JsNumeric :=
  Reply.orElse originalLimit do
    if ← scrapingDetected redis clientId path then
      return reducedLimit originalLimit
    return originalLimit

def hasPageParam (request : Request) : Bool :=
  request.query.contains (js "page") || request.query.contains (js "offset") ||
    request.query.contains (js "cursor")

def checkPaginationPattern (clientId endpoint : JsString) (request : Request) : Bool :=
  if hasPageParam request then
    Reply.orElse false do
      let paginateKey := joined (joined ABUSE_PAGINATE_PREFIX clientId) endpoint
      let count ← redis.incr paginateKey
      if count = 1 then
        redis.expire paginateKey
      if PAGINATION_THRESHOLD < count then
        redis.set (joined (joined ABUSE_PENALTY_PREFIX clientId) endpoint)
        return true
      return false
  else false

end Detection

/-! ### Middleware -/

inductive Answer where
  | next
  | refused (status : ℕ) (error : JsString)

/-- `rateContext` of the middleware. -/
def rateContext (request : Request) : RateContext :=
  request.rateContext.getD ⟨some (js "unknown"), some (js "unauthenticated"), none⟩

def clientId (request : Request) : JsString :=
  (rateContext request).clientId.getD (js "undefined")

/-- `{ ...context, rateLimit }` -/
def limited (context : RateContext) (rateLimit : JsNumeric) : Option RateContext :=
  some { context with rateLimit := some rateLimit }

section Stages

variable (redis : Redis) (request : Request)

def penalised : Option RateContext :=
  if hasPenalty redis (clientId request) request.path then
    limited (rateContext request) (.ofNat 5)
  else request.rateContext

def scraped : Option RateContext → Option RateContext
  | none => none
  | some context =>
    let originalLimit := context.rateLimit.getD (.ofNat 60)
    let effectiveLimit := checkScrapingPattern redis (clientId request) request.path originalLimit
    if originalLimit.gt effectiveLimit then limited context effectiveLimit else some context

def paginated (context : Option RateContext) : Option RateContext :=
  if checkPaginationPattern redis (clientId request) request.path request then
    limited (context.getD ⟨none, none, none⟩) PAGINATION_PENALTY_RATE
  else context

end Stages

/-- The answer, and `req.rateContext` after it. There may be no client of Redis. -/
def abuseDetector (redis : Option Redis) (request : Request) : Answer × Option RateContext :=
  match redis with
  | none => (.next, request.rateContext)
  | some redis =>
    if !redis.isReady then (.next, request.rateContext)
    else if isBlocked redis request.ip then
      (.refused 403 (js "Request blocked"), request.rateContext)
    else (.next, paginated redis request (scraped redis request (penalised redis request)))

/-! ### The limit that is left -/

def limitOf (context : Option RateContext) : JsNumeric :=
  (context.bind RateContext.rateLimit).getD (.ofNat 60)

def NotRaised (redis : Option Redis) (request : Request) : Prop :=
  (limitOf (abuseDetector redis request).2).gt (limitOf request.rateContext) = false

def scrapes (redis : Redis) (request : Request) : Bool :=
  Reply.orElse false (scrapingDetected redis (clientId request) request.path)

/-- No fixed limit is set, or the one that is left is not above the limit of the request: 5, and 1
where the scraping rule reduces a penalty. -/
def Mild (redis : Redis) (request : Request) : Prop :=
  JsNumeric.gt (.ofNat 5) (limitOf request.rateContext) = false ∨
    checkPaginationPattern redis (clientId request) request.path request = false ∧
      (hasPenalty redis (clientId request) request.path = false ∨
        scrapes redis request = true ∧
          JsNumeric.gt (.ofNat 1) (limitOf request.rateContext) = false)

section Left

variable {redis : Redis} {request : Request}

theorem reducedLimit_penalty : reducedLimit (.ofNat 5) = .ofNat 1 := by decide +kernel

theorem five_gt_one : JsNumeric.gt (.ofNat 5) (.ofNat 1) = true := by decide +kernel

theorem gt_self (number : JsNumeric) : number.gt number = false := by
  cases number with
  | none => rfl
  | some number => exact decide_eq_false (lt_irrefl _)

theorem gt_asymm {left right : JsNumeric} (greater : left.gt right = true) :
    right.gt left = false := by
  cases left with
  | none => cases greater
  | some left =>
    cases right with
    | none => cases greater
    | some right => exact decide_eq_false (of_decide_eq_true greater).not_gt

theorem gt_trans {left middle right : JsNumeric} (first : left.gt middle = true)
    (second : middle.gt right = true) : left.gt right = true := by
  cases left with
  | none => cases first
  | some left =>
    cases middle with
    | none => cases first
    | some middle =>
      cases right with
      | none => cases second
      | some right =>
        exact decide_eq_true ((of_decide_eq_true second).trans (of_decide_eq_true first))

theorem checkScrapingPattern_eq (originalLimit : JsNumeric) :
    checkScrapingPattern redis (clientId request) request.path originalLimit =
      if scrapes redis request then reducedLimit originalLimit else originalLimit := by
  unfold checkScrapingPattern scrapes
  cases scrapingDetected redis (clientId request) request.path with
  | error => rfl
  | ok detected => cases detected <;> rfl

theorem limitOf_paginated (context : Option RateContext) :
    limitOf (paginated redis request context) =
      if checkPaginationPattern redis (clientId request) request.path request then .ofNat 5
      else limitOf context := by
  unfold paginated
  split_ifs
  · rfl
  · rfl

theorem limitOf_scraped (context : RateContext) :
    limitOf (scraped redis request (some context)) =
      if (limitOf (some context)).gt (checkScrapingPattern redis (clientId request) request.path
          (limitOf (some context))) then
        checkScrapingPattern redis (clientId request) request.path (limitOf (some context))
      else limitOf (some context) := by
  have unfolded : (context.rateLimit.getD (.ofNat 60)) = limitOf (some context) := rfl
  unfold scraped
  simp only [unfolded]
  split_ifs
  · rfl
  · rfl

theorem limitOf_scraped_penalised
    (penalty : hasPenalty redis (clientId request) request.path = true) :
    limitOf (scraped redis request (penalised redis request)) =
      if scrapes redis request then .ofNat 1 else .ofNat 5 := by
  have five : limitOf (limited (rateContext request) (.ofNat 5)) = .ofNat 5 := rfl
  rw [penalised, if_pos penalty]
  rw [limited] at five ⊢
  rw [limitOf_scraped, five, checkScrapingPattern_eq]
  cases scrapes redis request with
  | true => rw [if_pos rfl, if_pos rfl, reducedLimit_penalty, if_pos five_gt_one]
  | false => rw [if_neg Bool.false_ne_true, if_neg Bool.false_ne_true, ite_self]

theorem scraped_not_raised (free : hasPenalty redis (clientId request) request.path = false) :
    (limitOf (scraped redis request (penalised redis request))).gt
      (limitOf request.rateContext) = false := by
  rw [penalised, free, if_neg Bool.false_ne_true]
  cases request.rateContext with
  | none => exact gt_self _
  | some context =>
    rw [limitOf_scraped]
    split_ifs with reduced
    · exact gt_asymm reduced
    · exact gt_self _

theorem mild_iff :
    (limitOf (paginated redis request (scraped redis request (penalised redis request)))).gt
      (limitOf request.rateContext) = false ↔ Mild redis request := by
  rw [limitOf_paginated, Mild]
  cases pages : checkPaginationPattern redis (clientId request) request.path request with
  | true => simp
  | false =>
    rw [if_neg Bool.false_ne_true]
    cases penalty : hasPenalty redis (clientId request) request.path with
    | false => simp [scraped_not_raised penalty]
    | true =>
      rw [limitOf_scraped_penalised penalty]
      cases scraping : scrapes redis request with
      | false => simp
      | true =>
        rw [if_pos rfl]
        constructor
        · exact fun least => .inr ⟨rfl, .inr ⟨rfl, least⟩⟩
        · intro mild
          rcases mild with five | ⟨-, free | ⟨-, least⟩⟩
          · by_contra greater
            rw [gt_trans five_gt_one (Bool.not_eq_false _ ▸ greater)] at five
            cases five
          · cases free
          · exact least

end Left

/-- The limit is not raised exactly where Redis is away, the address is blocked, or the rules that
apply are mild. -/
theorem abuseDetector_notRaised_iff (redis : Option Redis) (request : Request) :
    NotRaised redis request ↔
      ∀ client, redis = some client → client.isReady = true →
        isBlocked client request.ip = false → Mild client request := by
  unfold NotRaised abuseDetector
  cases redis with
  | none => simp [gt_self]
  | some client =>
    simp only [Option.some.injEq, forall_eq']
    cases client.isReady with
    | false => simp [gt_self]
    | true =>
      cases isBlocked client request.ip with
      | true => simp [gt_self]
      | false => simpa using mild_iff

/-! ### A raised limit -/

def penalisedRedis : Redis where
  isReady := true
  get key := .ok (if key = js "abuse:penalty:k1:*" then some (js "1") else none)
  set _ := .ok ()
  incr _ := .ok 1
  expire _ := .ok ()
  rPush _ := .ok ()
  lTrim _ := .ok ()
  lRange _ := .ok [js "/api/events"]

/-- A key with a limit of two requests a minute, which a penalty raises to five. -/
theorem penalty_raises :
    ¬ NotRaised (some penalisedRedis)
      ⟨js "192.0.2.1", js "/api/events", [],
        some ⟨some (js "k1"), some (js "free"), some (.ofNat 2)⟩⟩ := by
  unfold NotRaised
  decide +kernel

end AbuseDetector

end SorobanExplorer.Indexer
