import SorobanExplorer.Filters.JsValue
import SorobanExplorer.Library.OrderedMap

/-!
Owns the two layers of `cacheLayer.js`: the LRU map of one process, the entries that Redis holds
for it, and what each event of a running `cacheGet`, `cacheAside`, `cacheSet` or `cacheInvalidate`
does to them.

A value carries the step at which its loader started, which the code does not keep. Redis may drop
an entry at any time; how it matches a pattern is a parameter.
-/

namespace SorobanExplorer.Indexer

open Library
open Filters (js JsString)

namespace CacheLayer

/-! ### Time to live -/

structure Ttl where
  l1 : ℕ
  l2 : ℕ

def TTL_CONFIG : List (JsString × Ttl) := [
  (js "events_list", ⟨5, 30⟩),
  (js "events_single", ⟨10, 60⟩),
  (js "contract_events", ⟨5, 30⟩),
  (js "contracts_list", ⟨30, 300⟩),
  (js "contracts_single", ⟨60, 900⟩),
  (js "contract_stats", ⟨60, 300⟩),
  (js "wallet", ⟨60, 60⟩),
  (js "search", ⟨0, 10⟩),
  (js "stats", ⟨60, 300⟩),
  (js "wallet_balances", ⟨30, 30⟩),
  (js "horizon_account", ⟨60, 60⟩),
  (js "rpc_health", ⟨5, 5⟩),
  (js "default", ⟨30, 60⟩)]

/-- What an object inherits has no `l1` and no `l2`, and `undefined` is not above zero. -/
def getTTL (type : JsString) : Ttl :=
  match TTL_CONFIG.lookup type with
  | some ttl => ttl
  | none => if Filters.JsValue.inherited type then ⟨0, 0⟩ else ⟨30, 60⟩

/-- `ttlOrType`: a number is for both layers. -/
inductive TtlOrType where
  | type (name : JsString)
  | seconds (count : ℕ)

namespace TtlOrType

def ttl : TtlOrType → Ttl
  | .type name => getTTL name
  | .seconds count => ⟨count, count⟩

def cacheType : TtlOrType → JsString
  | .type name => name
  | .seconds _ => js "default"

end TtlOrType

/-! ### The layers -/

structure Value where
  json : JsString
  loadedAt : ℕ
deriving DecidableEq

structure Entry where
  value : Value
  expiresAt : ℕ
  computeMs : ℕ

abbrev LRUCache := OrderedMap JsString Entry

namespace LRUCache

/-- What `get` finds and the map it leaves: expired entries go, others move to the end. -/
def get (map : LRUCache) (now : ℕ) (key : JsString) : Option Entry × LRUCache :=
  match OrderedMap.get map key with
  | none => (none, map)
  | some entry =>
    if entry.expiresAt < now then (none, map.erase key)
    else (some entry, (map.erase key).set key entry)

def insert (map : LRUCache) (maxSize : ℕ) (key : JsString) (entry : Entry) : LRUCache :=
  let erased := map.erase key
  let room := if maxSize ≤ erased.size then erased.oldest.elim erased erased.erase else erased
  room.set key entry

/-- The test of `deletePattern`. An empty stem is falsy: then, as without a star at the end, the
key has to be the pattern. -/
def selects (pattern key : JsString) : Bool :=
  if pattern.getLast? = some 0x2A ∧ pattern.dropLast ≠ [] then pattern.dropLast.isPrefixOf key
  else key = pattern

def deletePattern (map : LRUCache) (pattern : JsString) : LRUCache :=
  map.discard (selects pattern)

end LRUCache

/-- What Redis holds under a key, written by `cacheSet` or plain, and the step at which the key came
to be there. -/
structure Stored where
  value : Value
  computeMs : Option ℕ
  type : Option JsString
  since : ℕ

structure Config where
  CACHE_L1_MAX : ℕ
  /-- `REDIS_URL` is set. -/
  redisUrl : Bool
  /-- `MATCH` of Redis. -/
  globMatch : JsString → JsString → Bool

/-! ### Calls -/

/-- `keyOrPattern.includes("*")` -/
def isPattern (keyOrPattern : JsString) : Bool := keyOrPattern.contains 0x2A

def Config.covers (config : Config) (keyOrPattern key : JsString) : Bool :=
  if isPattern keyOrPattern then config.globMatch keyOrPattern key else keyOrPattern = key

def evicts (keyOrPattern key : JsString) : Bool :=
  if isPattern keyOrPattern then LRUCache.selects keyOrPattern key else keyOrPattern = key

inductive Operation where
  | get (key : JsString) (cacheType : Option JsString)
  | aside (key : JsString) (ttlOrType : TtlOrType)
  | set (key : JsString) (value : Value) (ttlOrType : TtlOrType) (computeMs : ℕ)
  | invalidate (keyOrPattern : JsString)

namespace Operation

/-- The key and the type that `_getWithMeta` is given. -/
def reads : Operation → Option (JsString × Option JsString)
  | .get key cacheType => some (key, cacheType)
  | .aside key ttlOrType => some (key, some ttlOrType.cacheType)
  | .set .. | .invalidate _ => none

/-- The key and the time to live that `cacheSet` is given. -/
def writes : Operation → Option (JsString × TtlOrType)
  | .aside key ttlOrType | .set key _ ttlOrType _ => some (key, ttlOrType)
  | .get .. | .invalidate _ => none

end Operation

structure Hit where
  value : Value
  xfetch : Bool

/-- The value that `cacheSet` writes, whether for an early recompute. -/
structure Save where
  value : Value
  computeMs : ℕ
  early : Bool

/-- Where a call stands: at an `await`, or at its end. -/
inductive Phase where
  /-- `_getRedis()` -/
  | connecting
  /-- `redis.get(key)` is on its way, its answer is. -/
  | asking
  | answered (stored : Option Stored)
  /-- `_getWithMeta` has its result. -/
  | looked (hit : Option Hit)
  /-- The loader runs, for an early recompute or not, since a time and a step. -/
  | loading (early : Bool) (startedAt loadedAt : ℕ)
  /-- L1 is set; `_getRedis()`, `redis.set(…)` on its way, its answer. -/
  | storing (save : Save)
  | sending (save : Save)
  | stored (save : Save)
  /-- `redis.del(key)` is on its way. -/
  | deleting
  /-- `redis.scan(…)` is on its way, in an iteration that began at a step; the keys of its reply are
  to be deleted. -/
  | scanning (began : ℕ)
  | found (began : ℕ) (keys : List JsString) (last : Bool)
  /-- `redis.publish(…)` is on its way. -/
  | cleared
  | returned (step : ℕ) (value : Option Value)
  | rejected

structure Call where
  calledAt : ℕ
  operation : Operation
  phase : Phase

inductive Event where
  | connected (redis : Bool)
  | served
  | scanned (keys : List JsString) (last : Bool)
  | failed
  | replied
  | resumed
  | loaded (json : Option JsString)
  | threw

/-! ### The cache -/

/-- The clock is `Date.now()`; the step orders all that happens. -/
structure Cache where
  clock : ℕ
  step : ℕ
  l1 : LRUCache
  l2 : OrderedMap JsString Stored
  recomputing : List JsString
  calls : List Call

namespace Cache

/-- `_shouldXFetch`, where `lead` is `-β * computeMs * ln(random)`. -/
def shouldXFetch (cache : Cache) (entry : Entry) (lead : ℕ) : Bool :=
  1 ≤ entry.computeMs && decide (entry.expiresAt ≤ cache.clock + lead)

def checked (cache : Cache) (lead : ℕ) : Option Entry → Phase
  | some entry => .looked (some ⟨entry.value, cache.shouldXFetch entry lead⟩)
  | none => .connecting

/-- The L1 check of `_getWithMeta`, which runs when the call is made. -/
def look (cache : Cache) (key : JsString) (lead : ℕ) (operation : Operation) : Cache :=
  let found := cache.l1.get cache.clock key
  { cache with
    l1 := found.2
    calls := cache.calls ++ [⟨cache.step, operation, cache.checked lead found.1⟩] }

/-- `_l1.set(…)`, unless the time to live is zero. -/
def keep (cache : Cache) (config : Config) (key : JsString) (value : Value) (ttl computeMs : ℕ) :
    Cache :=
  if 0 < ttl then
    { cache with
      l1 := cache.l1.insert config.CACHE_L1_MAX key ⟨value, cache.clock + ttl * 1000, computeMs⟩ }
  else cache

/-- `redis.set(…)` -/
def put (cache : Cache) (key : JsString) (save : Save) (type : JsString) : Cache :=
  let since := (cache.l2.get key).elim cache.step Stored.since
  { cache with l2 := cache.l2.set key ⟨save.value, some save.computeMs, some type, since⟩ }

/-- `_recomputing.delete(key)` -/
def unmark (cache : Cache) (key : JsString) : Cache :=
  { cache with recomputing := cache.recomputing.filter (· ≠ key) }

/-- The sync part of `cacheInvalidate`. -/
def evict (cache : Cache) (keyOrPattern : JsString) : Cache :=
  { cache with
    l1 := if isPattern keyOrPattern then cache.l1.deletePattern keyOrPattern
      else cache.l1.erase keyOrPattern }

def add (cache : Cache) (operation : Operation) (phase : Phase) : Cache :=
  { cache with calls := cache.calls ++ [⟨cache.step, operation, phase⟩] }

def move (cache : Cache) (id : ℕ) (call : Call) (phase : Phase) : Cache :=
  { cache with calls := cache.calls.set id { call with phase := phase } }

def next (cache : Cache) : Cache := { cache with step := cache.step + 1 }

end Cache

def promotedTtl (cacheType : Option JsString) (stored : Stored) : ℕ :=
  (getTTL ((stored.type.or cacheType).getD (js "default"))).l1

/-! ### Steps -/

inductive Progress (config : Config) (cache : Cache) :
    Operation → Phase → Event → Phase → Cache → Prop
  -- `_getWithMeta`, after L1 has missed
  | ask {operation : Operation} {key : JsString} {cacheType : Option JsString}
      (reads : operation.reads = some (key, cacheType)) (url : config.redisUrl = true) :
      Progress config cache operation .connecting (.connected true) .asking cache
  | alone {operation : Operation} {key : JsString} {cacheType : Option JsString}
      (reads : operation.reads = some (key, cacheType)) :
      Progress config cache operation .connecting (.connected false) (.looked none) cache
  | answer {operation : Operation} {key : JsString} {cacheType : Option JsString}
      (reads : operation.reads = some (key, cacheType)) :
      Progress config cache operation .asking .served (.answered (cache.l2.get key)) cache
  | unanswered {operation : Operation} :
      Progress config cache operation .asking .failed (.looked none) cache
  | promote {operation : Operation} {key : JsString} {cacheType : Option JsString} {stored : Stored}
      (reads : operation.reads = some (key, cacheType)) :
      Progress config cache operation (.answered (some stored)) .replied
        (.looked (some ⟨stored.value, false⟩))
        (cache.keep config key stored.value (promotedTtl cacheType stored)
          (stored.computeMs.getD 0))
  | absent {operation : Operation} :
      Progress config cache operation (.answered none) .replied (.looked none) cache
  /-- `JSON.parse` throws. -/
  | garbled {operation : Operation} {stored : Stored} :
      Progress config cache operation (.answered (some stored)) .failed (.looked none) cache
  -- `cacheGet` and `cacheAside`, with the result
  | get {key : JsString} {cacheType : Option JsString} {hit : Option Hit} :
      Progress config cache (.get key cacheType) (.looked hit) .resumed
        (.returned cache.step (hit.map Hit.value)) cache
  | hit {key : JsString} {ttlOrType : TtlOrType} {hit : Hit}
      (serves : hit.xfetch = true → key ∈ cache.recomputing) :
      Progress config cache (.aside key ttlOrType) (.looked (some hit)) .resumed
        (.returned cache.step (some hit.value)) cache
  | recompute {key : JsString} {ttlOrType : TtlOrType} {hit : Hit} (xfetch : hit.xfetch = true)
      (free : key ∉ cache.recomputing) :
      Progress config cache (.aside key ttlOrType) (.looked (some hit)) .resumed
        (.loading true cache.clock cache.step)
        { cache with recomputing := key :: cache.recomputing }
  | miss {key : JsString} {ttlOrType : TtlOrType} :
      Progress config cache (.aside key ttlOrType) (.looked none) .resumed
        (.loading false cache.clock cache.step) cache
  | load {key : JsString} {ttlOrType : TtlOrType} {early : Bool} {startedAt loadedAt : ℕ}
      {json : JsString} :
      Progress config cache (.aside key ttlOrType) (.loading early startedAt loadedAt)
        (.loaded (some json)) (.storing ⟨⟨json, loadedAt⟩, cache.clock - startedAt, early⟩)
        (cache.keep config key ⟨json, loadedAt⟩ ttlOrType.ttl.l1 (cache.clock - startedAt))
  /-- The loader returned `null`. -/
  | nothing {key : JsString} {ttlOrType : TtlOrType} {early : Bool} {startedAt loadedAt : ℕ} :
      Progress config cache (.aside key ttlOrType) (.loading early startedAt loadedAt)
        (.loaded none) (.returned cache.step none) (cache.unmark key)
  | throw {key : JsString} {ttlOrType : TtlOrType} {early : Bool} {startedAt loadedAt : ℕ} :
      Progress config cache (.aside key ttlOrType) (.loading early startedAt loadedAt) .threw
        .rejected (cache.unmark key)
  -- `cacheSet`, after L1 was set
  | send {operation : Operation} {key : JsString} {ttlOrType : TtlOrType} {save : Save}
      (writes : operation.writes = some (key, ttlOrType)) (url : config.redisUrl = true)
      (lives : 0 < ttlOrType.ttl.l2) :
      Progress config cache operation (.storing save) (.connected true) (.sending save) cache
  | skip {operation : Operation} {key : JsString} {ttlOrType : TtlOrType} {save : Save}
      {redis : Bool} (writes : operation.writes = some (key, ttlOrType))
      (local_only : redis = true → ttlOrType.ttl.l2 = 0) :
      Progress config cache operation (.storing save) (.connected redis) (.stored save) cache
  | store {operation : Operation} {key : JsString} {ttlOrType : TtlOrType} {save : Save}
      (writes : operation.writes = some (key, ttlOrType)) :
      Progress config cache operation (.sending save) .served (.stored save)
        (cache.put key save ttlOrType.cacheType)
  | unstored {operation : Operation} {save : Save} :
      Progress config cache operation (.sending save) .failed (.stored save) cache
  | asideDone {key : JsString} {ttlOrType : TtlOrType} {save : Save} :
      Progress config cache (.aside key ttlOrType) (.stored save) .replied
        (.returned cache.step (some save.value)) (cache.unmark key)
  | setDone {key : JsString} {value : Value} {ttlOrType : TtlOrType} {computeMs : ℕ} {save : Save} :
      Progress config cache (.set key value ttlOrType computeMs) (.stored save) .replied
        (.returned cache.step none) cache
  -- `cacheInvalidate`, after L1 was cleared
  | delete {keyOrPattern : JsString} (url : config.redisUrl = true)
      (single : isPattern keyOrPattern = false) :
      Progress config cache (.invalidate keyOrPattern) .connecting (.connected true) .deleting cache
  | scan {keyOrPattern : JsString} (url : config.redisUrl = true)
      (pattern : isPattern keyOrPattern = true) :
      Progress config cache (.invalidate keyOrPattern) .connecting (.connected true)
        (.scanning cache.step) cache
  | unreachable {keyOrPattern : JsString} :
      Progress config cache (.invalidate keyOrPattern) .connecting (.connected false)
        (.returned cache.step none) cache
  | deleted {keyOrPattern : JsString} :
      Progress config cache (.invalidate keyOrPattern) .deleting .served .cleared
        { cache with l2 := cache.l2.erase keyOrPattern }
  /-- The last reply of an iteration leaves out no key that was there from its beginning on: what an
  earlier reply named is deleted by now. -/
  | found {keyOrPattern : JsString} {began : ℕ} {keys : List JsString} {last : Bool}
      (matching : ∀ key ∈ keys, config.globMatch keyOrPattern key = true)
      (complete : last = true → ∀ key stored, cache.l2.get key = some stored →
        config.globMatch keyOrPattern key = true → stored.since ≤ began → key ∈ keys) :
      Progress config cache (.invalidate keyOrPattern) (.scanning began) (.scanned keys last)
        (.found began keys last) cache
  | sweep {keyOrPattern : JsString} {began : ℕ} {keys : List JsString} :
      Progress config cache (.invalidate keyOrPattern) (.found began keys false) .served
        (.scanning began) { cache with l2 := cache.l2.discard (· ∈ keys) }
  | swept {keyOrPattern : JsString} {began : ℕ} {keys : List JsString} :
      Progress config cache (.invalidate keyOrPattern) (.found began keys true) .served .cleared
        { cache with l2 := cache.l2.discard (· ∈ keys) }
  | undeleted {keyOrPattern : JsString} :
      Progress config cache (.invalidate keyOrPattern) .deleting .failed
        (.returned cache.step none) cache
  | unscanned {keyOrPattern : JsString} {began : ℕ} :
      Progress config cache (.invalidate keyOrPattern) (.scanning began) .failed
        (.returned cache.step none) cache
  | unswept {keyOrPattern : JsString} {began : ℕ} {keys : List JsString} {last : Bool} :
      Progress config cache (.invalidate keyOrPattern) (.found began keys last) .failed
        (.returned cache.step none) cache
  /-- Whether or not the message was published. -/
  | published {keyOrPattern : JsString} :
      Progress config cache (.invalidate keyOrPattern) .cleared .replied
        (.returned cache.step none) cache

abbrev CallId := ℕ

inductive Action where
  | advance (elapsed : ℕ)
  | forget (key : JsString)
  | get (key : JsString) (cacheType : Option JsString) (lead : ℕ)
  | aside (key : JsString) (ttlOrType : TtlOrType) (lead : ℕ)
  | set (key : JsString) (value : Value) (ttlOrType : TtlOrType) (computeMs : ℕ)
  | invalidate (keyOrPattern : JsString)
  | event (id : CallId) (event : Event)

inductive Step (config : Config) : Cache → Action → Cache → Prop
  | advance {cache : Cache} (elapsed : ℕ) :
      Step config cache (.advance elapsed)
        ({ cache with clock := cache.clock + elapsed } : Cache).next
  /-- Redis drops a key that expired or had to make room. -/
  | forget {cache : Cache} (key : JsString) :
      Step config cache (.forget key) ({ cache with l2 := cache.l2.erase key } : Cache).next
  | get {cache : Cache} (key : JsString) (cacheType : Option JsString) (lead : ℕ) :
      Step config cache (.get key cacheType lead) (cache.look key lead (.get key cacheType)).next
  | aside {cache : Cache} (key : JsString) (ttlOrType : TtlOrType) (lead : ℕ) :
      Step config cache (.aside key ttlOrType lead)
        (cache.look key lead (.aside key ttlOrType)).next
  /-- The caller may have begun to load the value earlier. -/
  | set {cache : Cache} (key : JsString) (value : Value) (ttlOrType : TtlOrType) (computeMs : ℕ)
      (past : value.loadedAt ≤ cache.step) :
      Step config cache (.set key value ttlOrType computeMs)
        ((cache.keep config key value ttlOrType.ttl.l1 computeMs).add
          (.set key value ttlOrType computeMs) (.storing ⟨value, computeMs, false⟩)).next
  | invalidate {cache : Cache} (keyOrPattern : JsString) :
      Step config cache (.invalidate keyOrPattern)
        ((cache.evict keyOrPattern).add (.invalidate keyOrPattern) .connecting).next
  | event {cache after : Cache} {id : CallId} {call : Call} {event : Event} {phase : Phase}
      (found : cache.calls[id]? = some call)
      (progress : Progress config cache call.operation call.phase event phase after) :
      Step config cache (.event id event) (after.move id call phase).next

structure Starts (cache : Cache) : Prop where
  l1 : cache.l1 = .empty
  recomputing : cache.recomputing = []
  calls : cache.calls = []
  since : ∀ key stored, cache.l2.get key = some stored → stored.since < cache.step

end CacheLayer

end SorobanExplorer.Indexer
