import SorobanExplorer.Library.Run
import SorobanExplorer.Library.Slots

/-!
Owns the limiter of concurrent requests: a counter in Redis, which a request increments when it
comes and decrements when it is turned away or when its response finishes.

A response that the client aborts does not finish, so its increment stays. The key expires 300 s
after the last increment, however many requests are in flight then.
-/

namespace SorobanExplorer.Indexer.ConcurrentLimiter

open Library

def TTL_CONC_SAFETY : ℕ := 300 * 1000

def HTTP_TIER_LIMITS : String → Option ℕ
  | "unauthenticated" => some 5
  | "free" => some 20
  | "pro" => some 100
  | "enterprise" => some 200
  | _ => none

def WS_TIER_LIMITS : String → Option ℕ
  | "unauthenticated" => some 1
  | "free" => some 5
  | "pro" => some 25
  | "enterprise" => some 50
  | _ => none

def getConcLimit (tier : String) (ws : Bool) : ℕ :=
  let table := if ws then WS_TIER_LIMITS else HTTP_TIER_LIMITS
  (table tier).getD ((table "unauthenticated").getD 0)

structure Request where
  method : String
  path : String

def Request.isHealth (request : Request) : Bool :=
  request.method == "GET" &&
    ["/health", "/api/health", "/health/live", "/health/ready"].contains request.path

/-! ### The counter -/

structure Key where
  value : ℤ
  expiresAt : Option ℕ

namespace Key

def incr : Option Key → Key
  | none => ⟨1, none⟩
  | some key => { key with value := key.value + 1 }

def decr : Option Key → Key
  | none => ⟨-1, none⟩
  | some key => { key with value := key.value - 1 }

def expired (key : Key) (time : ℕ) : Bool :=
  match key.expiresAt with
  | some expiresAt => expiresAt ≤ time
  | none => false

end Key

/-! ### Requests -/

/-- Where a counted request stands: the increment has answered, the time to live is refreshed, it is
in flight, its decrement is on the way, or it has ended. -/
inductive Phase where
  | counted (count : ℤ)
  | refreshed (count : ℤ)
  | inFlight
  | decrementing
  | ended
deriving DecidableEq

/-- The requests that a client sent to one of its two counters, in the order of their increments. -/
structure Server where
  now : ℕ
  key : Option Key
  requests : List Phase

abbrev RequestId := ℕ

inductive Action where
  | incr (request : Request)
  | expire (id : RequestId)
  | decide (id : RequestId)
  | finish (id : RequestId)
  | abort (id : RequestId)
  | decr (id : RequestId)
  | advance (elapsed : ℕ)

namespace Server

def start : Server := ⟨0, none, []⟩

def value (server : Server) : ℤ := (server.key.map Key.value).getD 0

def inFlight (server : Server) : ℕ := server.requests.countP (· = .inFlight)

def move (server : Server) (id : RequestId) (phase : Phase) : Server :=
  { server with requests := server.requests.set id phase }

/-- `count = await redis.incr(redisKey)` -/
def incr (server : Server) : Server :=
  let key := Key.incr server.key
  { server with key := some key, requests := server.requests ++ [.counted key.value] }

/-- `await redis.expire(redisKey, TTL_CONC_SAFETY)` -/
def expire (server : Server) : Server :=
  { server with
    key := server.key.map fun key =>
      { key with expiresAt := some (server.now + TTL_CONC_SAFETY) } }

/-- `redis.decr(redisKey)` -/
def decr (server : Server) : Server := { server with key := some (Key.decr server.key) }

def advance (server : Server) (elapsed : ℕ) : Server :=
  { server with
    now := server.now + elapsed
    key := server.key.filter fun key => ! key.expired (server.now + elapsed) }

end Server

/-- Redis answers every command. The listener of `finish` is all that decrements after the
response; a response that was aborted emits only `close`. -/
inductive Step (limit : ℕ) : Server → Action → Server → Prop
  | incr {server : Server} (request : Request) (counts : request.isHealth = false) :
      Step limit server (.incr request) server.incr
  | pass {server : Server} (request : Request) (passes : request.isHealth = true) :
      Step limit server (.incr request) server
  | expire {server : Server} {id : RequestId} {count : ℤ}
      (counted : server.requests[id]? = some (.counted count)) :
      Step limit server (.expire id) (server.expire.move id (.refreshed count))
  | decide {server : Server} {id : RequestId} {count : ℤ}
      (refreshed : server.requests[id]? = some (.refreshed count)) :
      Step limit server (.decide id)
        (server.move id (if count > limit then .decrementing else .inFlight))
  | finish {server : Server} {id : RequestId}
      (inFlight : server.requests[id]? = some .inFlight) :
      Step limit server (.finish id) (server.move id .decrementing)
  | abort {server : Server} {id : RequestId}
      (inFlight : server.requests[id]? = some .inFlight) :
      Step limit server (.abort id) (server.move id .ended)
  | decr {server : Server} {id : RequestId}
      (decrementing : server.requests[id]? = some .decrementing) :
      Step limit server (.decr id) (server.decr.move id .ended)
  | advance {server : Server} (elapsed : ℕ) :
      Step limit server (.advance elapsed) (server.advance elapsed)

theorem deterministic (limit : ℕ) : Deterministic (Step limit) := by
  intro before action first second one two
  cases one with
  | incr request counts =>
    cases two with
    | incr => rfl
    | pass _ passes => nomatch counts.symm.trans passes
  | pass request passes =>
    cases two with
    | incr _ counts => nomatch counts.symm.trans passes
    | pass => rfl
  | expire counted =>
    cases two with
    | expire other =>
      cases counted.symm.trans other
      rfl
  | decide refreshed =>
    cases two with
    | decide other =>
      cases refreshed.symm.trans other
      rfl
  | finish | abort | decr | advance =>
    cases two
    rfl

/-! ### What the counter promises -/

namespace Server

/-- The counter is never negative, no more than `limit` requests are in flight, and once every
request is in flight or has ended, the counter says how many are in flight. -/
structure Sound (limit : ℕ) (server : Server) : Prop where
  nonneg : 0 ≤ server.value
  bounded : server.inFlight ≤ limit
  settled : (∀ phase ∈ server.requests, phase = .inFlight ∨ phase = .ended) →
    server.value = server.inFlight

def Undisturbed (server : Server) : Action → Prop
  | .abort _ => False
  | .advance elapsed => ∀ key, server.key = some key →
      key.expired (server.now + elapsed) = true → key.value = 0
  | _ => True

end Server

def Phase.counts (phase : Phase) : Bool := phase ≠ .ended

def Phase.granted (limit : ℕ) : Phase → Bool
  | .counted count | .refreshed count => count ≤ limit
  | .inFlight => true
  | .decrementing | .ended => false

namespace Server

/-- The counter says how many increments are not taken back, and grants stay within the limit. -/
structure Kept (limit : ℕ) (server : Server) : Prop where
  balanced : server.value = server.requests.countP Phase.counts
  granted : server.requests.countP (Phase.granted limit) ≤ limit

variable {limit : ℕ} {server before after : Server} {id : RequestId} {old phase : Phase}

theorem value_expire (server : Server) : server.expire.value = server.value := by
  unfold value expire
  cases server.key with
  | none => rfl
  | some key => rfl

theorem value_incr (server : Server) : server.incr.value = server.value + 1 := by
  unfold value incr
  cases server.key with
  | none => rfl
  | some key => rfl

theorem value_decr (server : Server) : server.decr.value = server.value - 1 := by
  unfold value decr
  cases server.key with
  | none => rfl
  | some key => rfl

theorem value_advance {elapsed : ℕ} (undisturbed : server.Undisturbed (.advance elapsed)) :
    (server.advance elapsed).value = server.value := by
  unfold value advance
  cases present : server.key with
  | none => rfl
  | some key =>
    rw [Option.filter_some]
    split
    · rfl
    · next expired =>
        exact (undisturbed key present (by simpa using expired)).symm

namespace Kept

theorem start : Kept limit Server.start := ⟨rfl, Nat.zero_le limit⟩

theorem sound (kept : server.Kept limit) : server.Sound limit where
  nonneg := kept.balanced ▸ Int.natCast_nonneg _
  bounded := by
    refine le_trans (List.countP_mono_left fun phase _ inFlight => ?_) kept.granted
    rw [of_decide_eq_true inFlight]
    rfl
  settled ended := by
    have same : server.requests.countP Phase.counts = server.inFlight := by
      refine List.countP_congr fun phase listed => ?_
      obtain rfl | rfl := ended phase listed
      · decide
      · decide
    rw [kept.balanced, same]

theorem incr (kept : server.Kept limit) : server.incr.Kept limit := by
  have counted : (Key.incr server.key).value = server.requests.countP Phase.counts + 1 := by
    rw [← kept.balanced]
    exact value_incr server
  constructor
  · change (Key.incr server.key).value = _
    rw [counted, Server.incr, List.countP_append]
    simp [Phase.counts]
  · have fewer : server.requests.countP (Phase.granted limit) ≤
        server.requests.countP Phase.counts := by
      refine List.countP_mono_left fun phase _ granted => ?_
      cases phase with
      | ended => nomatch granted
      | counted | refreshed | inFlight | decrementing => rfl
    have kept_granted := kept.granted
    rw [Server.incr, List.countP_append, List.countP_singleton, counted]
    split
    · next granted =>
        have within := of_decide_eq_true granted
        omega
    · omega

theorem move (kept : server.Kept limit) (next : Server)
    (same : next.requests = server.requests) (found : server.requests[id]? = some old) (phase : Phase)
    (balanced : next.value + old.counts.toNat = server.value + phase.counts.toNat)
    (granted : (phase.granted limit).toNat ≤ (old.granted limit).toNat) :
    (next.move id phase).Kept limit := by
  have total := kept.balanced
  have within := kept.granted
  rw [← same] at found total within
  have counts := countP_set_add found phase Phase.counts
  have grants := countP_set_add found phase (Phase.granted limit)
  constructor
  · change next.value = ((next.requests.set id phase).countP Phase.counts : ℕ)
    omega
  · change (next.requests.set id phase).countP (Phase.granted limit) ≤ limit
    omega

theorem step {action : Action} (kept : before.Kept limit)
    (undisturbed : before.Undisturbed action) (taken : Step limit before action after) :
    after.Kept limit := by
  cases taken with
  | incr => exact kept.incr
  | pass => exact kept
  | expire counted =>
    refine kept.move before.expire rfl counted _ ?_ le_rfl
    rw [value_expire]
    rfl
  | decide refreshed =>
    split
    · exact kept.move before rfl refreshed _ rfl (Nat.zero_le _)
    · next within =>
        refine kept.move before rfl refreshed _ rfl ?_
        rw [Phase.granted, decide_eq_true (Int.not_lt.mp within)]
        exact le_rfl
  | finish inFlight => exact kept.move before rfl inFlight _ rfl (Nat.zero_le _)
  | abort => exact undisturbed.elim
  | decr decrementing =>
    refine kept.move before.decr rfl decrementing _ ?_ (Nat.zero_le _)
    rw [value_decr]
    change before.value - 1 + 1 = before.value + 0
    rw [Int.sub_add_cancel, Int.add_zero]
  | advance elapsed => exact ⟨(value_advance undisturbed).trans kept.balanced, kept.granted⟩

end Kept

end Server

/-! ### Whole runs -/

/-- The counter keeps its promise in every run in which no admitted request is aborted and the key
does not expire while it counts. -/
theorem counter_of_eachStep (tier : String) (ws : Bool) {actions : List Action}
    (each : EachStep (Step (getConcLimit tier ws)) .start actions Server.Undisturbed) :
    Along (Step (getConcLimit tier ws)) .start actions fun _ server =>
      server.Sound (getConcLimit tier ws) := by
  have along : Along (Step (getConcLimit tier ws)) .start actions fun _ server =>
      server.Kept (getConcLimit tier ws) :=
    each.along Server.Kept.start fun _ _ _ _ _ kept undisturbed taken => kept.step undisturbed taken
  exact fun history isPrefix server run => (along history isPrefix server run).sound

def request : Request := ⟨"GET", "/api/events"⟩

def finished : List Action :=
  [.incr request, .expire 0, .decide 0, .finish 0, .decr 0, .advance TTL_CONC_SAFETY]

def aborted : List Action := [.incr request, .expire 0, .decide 0, .abort 0]

def outlived : List Action :=
  [.incr request, .expire 0, .decide 0, .advance TTL_CONC_SAFETY, .finish 0, .decr 0]

theorem finished_sound : ∃ final, Run (Step (getConcLimit "free" false)) .start finished final ∧
    Along (Step (getConcLimit "free" false)) .start finished fun _ server =>
      server.Sound (getConcLimit "free" false) := by
  have started := EachStep.extend (deterministic (getConcLimit "free" false))
    ⟨Run.nil, EachStep.nil⟩
    (show Server.Undisturbed .start (.incr request) from trivial) (.incr request (by decide))
  have refreshed := EachStep.extend (deterministic _) started
    (show Server.Undisturbed _ (.expire 0) from trivial) (.expire rfl)
  have admitted := EachStep.extend (deterministic _) refreshed
    (show Server.Undisturbed _ (.decide 0) from trivial) (.decide rfl)
  have complete := EachStep.extend (deterministic _) admitted
    (show Server.Undisturbed _ (.finish 0) from trivial) (.finish rfl)
  have taken := EachStep.extend (deterministic _) complete
    (show Server.Undisturbed _ (.decr 0) from trivial) (.decr rfl)
  have expired := EachStep.extend (deterministic _) taken
    (show Server.Undisturbed _ (.advance TTL_CONC_SAFETY) from fun key present _ => by
      cases present
      rfl)
    (.advance TTL_CONC_SAFETY)
  exact ⟨_, expired.1, counter_of_eachStep "free" false expired.2⟩

theorem aborted_unsound :
    (∃ final, Run (Step (getConcLimit "free" false)) .start aborted final ∧
      ¬ final.Sound (getConcLimit "free" false)) ∧
    ∃ final, Run (Step (getConcLimit "free" false)) .start outlived final ∧ final.value = -1 := by
  have started : Run (Step (getConcLimit "free" false)) .start [.incr request] _ :=
    Run.one (.incr request (by decide))
  have refreshed := started.snoc (show Step _ _ (.expire 0) _ from .expire rfl)
  have admitted := refreshed.snoc (show Step _ _ (.decide 0) _ from .decide rfl)
  constructor
  · have left := admitted.snoc (show Step _ _ (.abort 0) _ from .abort rfl)
    refine ⟨_, left, fun sound => ?_⟩
    exact absurd (sound.settled (by decide)) (by decide)
  · have expired := admitted.snoc (.advance TTL_CONC_SAFETY)
    have complete := expired.snoc (show Step _ _ (.finish 0) _ from .finish rfl)
    have taken := complete.snoc (show Step _ _ (.decr 0) _ from .decr rfl)
    exact ⟨_, taken, by decide⟩

end SorobanExplorer.Indexer.ConcurrentLimiter
