import SorobanExplorer.Indexer.CacheLayer
import SorobanExplorer.Library.Run
import SorobanExplorer.Library.Slots

/-!
Owns the coherence of the cache for one key: which runs return no value that was loaded before an
invalidation that had resolved, and never recompute a key twice at a time.
-/

namespace SorobanExplorer.Indexer

open Library
open Filters (js JsString)

namespace CacheLayer

/-! ### Statement -/

/-- A call of `cacheInvalidate` that covers the key. -/
def Operation.invalidates (config : Config) (key : JsString) : Operation → Bool
  | .invalidate keyOrPattern => config.covers keyOrPattern key
  | .get .. | .aside .. | .set .. => false

def Operation.readsKey (operation : Operation) (key : JsString) : Prop :=
  operation.reads.map Prod.fst = some key

def Fresh (config : Config) (key : JsString) (cache : Cache) : Prop :=
  ∀ reader ∈ cache.calls, reader.operation.readsKey key → ∀ step value,
    reader.phase = .returned step (some value) →
      ∀ invalidation ∈ cache.calls, invalidation.operation.invalidates config key = true →
        ∀ done, invalidation.phase = .returned done none → done < reader.calledAt →
          invalidation.calledAt ≤ value.loadedAt

def Phase.early : Phase → Bool
  | .loading early .. => early
  | .storing save | .sending save | .stored save => save.early
  | _ => false

def Operation.recomputes (key : JsString) : Operation → Phase → Bool
  | .aside other _, phase => decide (other = key) && phase.early
  | .get .., _ | .set .., _ | .invalidate _, _ => false

def Call.recomputes (key : JsString) (call : Call) : Bool :=
  call.operation.recomputes key call.phase

def OneRecompute (key : JsString) (cache : Cache) : Prop :=
  cache.calls.countP (Call.recomputes key) ≤ 1

instance (key : JsString) (cache : Cache) : Decidable (OneRecompute key cache) :=
  inferInstanceAs (Decidable (_ ≤ _))

/-! ### Orderly steps -/

def Phase.passed (since : ℕ) : Phase → Prop
  | .cleared | .returned .. => True
  | .scanning began | .found began .. => began < since
  | _ => False

def CurrentL1 (config : Config) (key : JsString) (cache : Cache) (value : Value) : Prop :=
  ∀ invalidation ∈ cache.calls, invalidation.operation.invalidates config key = true →
    invalidation.calledAt ≤ value.loadedAt

def sinceOf (key : JsString) (cache : Cache) : ℕ :=
  (cache.l2.get key).elim cache.step Stored.since

def CurrentL2 (config : Config) (key : JsString) (cache : Cache) (value : Value) : Prop :=
  ∀ invalidation ∈ cache.calls, invalidation.operation.invalidates config key = true →
    invalidation.phase.passed (sinceOf key cache) → invalidation.calledAt ≤ value.loadedAt

/-- The events with which `cacheAside` comes to its `finally`. -/
def Phase.finishes : Phase → Event → Bool
  | .loading .., .loaded none | .loading .., .threw | .stored _, .replied => true
  | _, _ => false

structure OrderlyEvent (config : Config) (key : JsString) (cache : Cache) (operation : Operation)
    (phase : Phase) (event : Event) : Prop where
  promoted : ∀ cacheType stored, operation.reads = some (key, cacheType) →
    phase = .answered (some stored) → event = .replied → 0 < promotedTtl cacheType stored →
      CurrentL1 config key cache stored.value
  loaded : ∀ ttlOrType early startedAt loadedAt json, operation = .aside key ttlOrType →
    phase = .loading early startedAt loadedAt → event = .loaded (some json) →
      0 < ttlOrType.ttl.l1 → CurrentL1 config key cache ⟨json, loadedAt⟩
  stored : ∀ ttlOrType save, operation.writes = some (key, ttlOrType) → phase = .sending save →
    event = .served → CurrentL2 config key cache save.value
  finished : ∀ ttlOrType, operation = .aside key ttlOrType → phase.early = false →
    phase.finishes event = true → cache.calls.countP (Call.recomputes key) = 0
  reached : operation.invalidates config key = true →
    event ≠ .failed ∧ (config.redisUrl = true → event ≠ .connected false)

/-- What is put into a layer is not outdated there, an invalidation clears both layers, and no
`cacheAside` that missed ends while an early recompute is running. -/
def Orderly (config : Config) (key : JsString) (cache : Cache) : Action → Prop
  | .set written value ttlOrType _ =>
    written = key → 0 < ttlOrType.ttl.l1 → CurrentL1 config key cache value
  | .invalidate keyOrPattern =>
    config.covers keyOrPattern key = true → evicts keyOrPattern key = true
  | .event id event => ∀ call, cache.calls[id]? = some call →
      OrderlyEvent config key cache call.operation call.phase event
  | .advance _ | .forget _ | .get .. | .aside .. => True

/-! ### The layers -/

theorem LRUCache.get_subset {map : LRUCache} {now : ℕ} {key other : JsString} {entry : Entry}
    (found : OrderedMap.get (map.get now key).2 other = some entry) :
    OrderedMap.get map other = some entry := by
  unfold LRUCache.get at found
  cases there : OrderedMap.get map key with
  | none =>
    rw [there] at found
    exact found
  | some held =>
    rw [there] at found
    simp only at found
    split_ifs at found with expired
    · rw [OrderedMap.get_erase] at found
      split_ifs at found
      exact found
    · rw [OrderedMap.get_set, OrderedMap.get_erase] at found
      split_ifs at found with same
      · rw [same, there, found]
      · exact found

theorem LRUCache.get_found {map : LRUCache} {now : ℕ} {key : JsString} {entry : Entry}
    (found : (map.get now key).1 = some entry) : OrderedMap.get map key = some entry := by
  unfold LRUCache.get at found
  cases there : OrderedMap.get map key with
  | none =>
    rw [there] at found
    cases found
  | some held =>
    rw [there] at found
    simp only at found
    split_ifs at found
    exact found

theorem LRUCache.get_insert {map : LRUCache} {maxSize : ℕ} {key other : JsString}
    {entry found : Entry}
    (shown : OrderedMap.get (map.insert maxSize key entry) other = some found) :
    other = key ∧ found = entry ∨ OrderedMap.get map other = some found := by
  unfold LRUCache.insert at shown
  simp only at shown
  rw [OrderedMap.get_set] at shown
  split_ifs at shown with same full
  · exact .inl ⟨same, (Option.some.inj shown).symm⟩
  · refine .inr ?_
    have kept : OrderedMap.get (map.erase key) other = some found := by
      cases oldest : (map.erase key).oldest with
      | none =>
        rw [oldest] at shown
        exact shown
      | some first =>
        rw [oldest, Option.elim_some, OrderedMap.get_erase] at shown
        split_ifs at shown
        exact shown
    rw [OrderedMap.get_erase, if_neg same] at kept
    exact kept
  · rw [OrderedMap.get_erase, if_neg same] at shown
    exact .inr shown

theorem get_evict {cache : Cache} {keyOrPattern key : JsString} {entry : Entry}
    (shown : OrderedMap.get (cache.evict keyOrPattern).l1 key = some entry) :
    evicts keyOrPattern key = false ∧ OrderedMap.get cache.l1 key = some entry := by
  unfold Cache.evict at shown
  unfold evicts
  simp only at shown
  split_ifs at shown ⊢ with pattern
  · rw [LRUCache.deletePattern, OrderedMap.get_discard] at shown
    split_ifs at shown with selected
    exact ⟨Bool.eq_false_iff.mpr selected, shown⟩
  · rw [OrderedMap.get_erase] at shown
    split_ifs at shown with same
    exact ⟨decide_eq_false fun equal => same equal.symm, shown⟩

theorem get_keep {cache : Cache} {config : Config} {key other : JsString} {value : Value}
    {ttl computeMs : ℕ} {entry : Entry}
    (shown : OrderedMap.get (cache.keep config key value ttl computeMs).l1 other = some entry) :
    other = key ∧ 0 < ttl ∧ entry.value = value ∨ OrderedMap.get cache.l1 other = some entry := by
  unfold Cache.keep at shown
  split_ifs at shown with positive
  · rcases LRUCache.get_insert shown with ⟨same, rfl⟩ | kept
    · exact .inl ⟨same, positive, rfl⟩
    · exact .inr kept
  · exact .inr shown

theorem get_put {cache : Cache} {key other : JsString} {save : Save} {type : JsString}
    {stored : Stored} (shown : (cache.put key save type).l2.get other = some stored) :
    other = key ∧ stored.value = save.value ∧ stored.since = sinceOf key cache ∨
      other ≠ key ∧ cache.l2.get other = some stored := by
  unfold Cache.put at shown
  simp only at shown
  rw [OrderedMap.get_set] at shown
  split_ifs at shown with same
  · cases shown
    exact .inl ⟨same, rfl, rfl⟩
  · exact .inr ⟨same, shown⟩

/-! ### Events -/

def Phase.asks : Phase → Bool
  | .asking | .answered _ => true
  | _ => false

def Phase.began? : Phase → Option ℕ
  | .scanning began | .found began .. => some began
  | _ => none

def Phase.loadedAt? : Phase → Option ℕ
  | .answered (some answer) => some answer.value.loadedAt
  | .looked (some hit) => some hit.value.loadedAt
  | .loading _ _ loadedAt => some loadedAt
  | .storing save | .sending save | .stored save => some save.value.loadedAt
  | .returned _ (some value) => some value.loadedAt
  | _ => none

structure Shaped (config : Config) (step : ℕ) (operation : Operation) (phase : Phase) : Prop where
  asks : phase.asks = true → config.redisUrl = true
  single : phase = .deleting → ∀ keyOrPattern, operation = .invalidate keyOrPattern →
    isPattern keyOrPattern = false
  began : ∀ began, phase.began? = some began → began < step ∧
    ∀ keyOrPattern, operation = .invalidate keyOrPattern → isPattern keyOrPattern = true

theorem Shaped.mono {config : Config} {earlier later : ℕ} {operation : Operation} {phase : Phase}
    (shaped : Shaped config earlier operation phase) (le : earlier ≤ later) :
    Shaped config later operation phase :=
  ⟨shaped.asks, shaped.single,
    fun began same => ⟨(shaped.began began same).1.trans_le le, (shaped.began began same).2⟩⟩

theorem Shaped.of_local {config : Config} {step : ℕ} {operation : Operation} {phase : Phase}
    (asks : phase.asks = false) (single : phase ≠ .deleting) (began : phase.began? = none) :
    Shaped config step operation phase where
  asks := fun shown => absurd (asks.symm.trans shown) Bool.false_ne_true
  single := fun same => absurd same single
  began := fun _ shown => nomatch began.symm.trans shown

section Events

variable {config : Config} {key : JsString} {cache after : Cache} {operation : Operation}
  {phase next : Phase} {event : Event}

theorem keep_frame (cache : Cache) (config : Config) (key : JsString) (value : Value)
    (ttl computeMs : ℕ) :
    cache.keep config key value ttl computeMs =
      { cache with l1 := (cache.keep config key value ttl computeMs).l1 } := by
  unfold Cache.keep
  split_ifs <;> rfl

theorem Progress.calls_eq (progress : Progress config cache operation phase event next after) :
    after.calls = cache.calls := by
  cases progress with
  | promote | load => rw [keep_frame]
  | _ => rfl

theorem Progress.step_eq (progress : Progress config cache operation phase event next after) :
    after.step = cache.step := by
  cases progress with
  | promote | load => rw [keep_frame]
  | _ => rfl

theorem Progress.shaped (progress : Progress config cache operation phase event next after)
    (shaped : Shaped config cache.step operation phase) :
    Shaped config (cache.step + 1) operation next := by
  cases progress with
  | ask _ url => exact ⟨fun _ => url, nofun, nofun⟩
  | answer => exact ⟨fun _ => shaped.asks rfl, nofun, nofun⟩
  | delete _ single =>
    refine ⟨nofun, ?_, nofun⟩
    rintro - _ ⟨⟩
    exact single
  | scan _ pattern =>
    refine ⟨nofun, nofun, ?_⟩
    rintro _ ⟨⟩
    refine ⟨Nat.lt_succ_self _, ?_⟩
    rintro _ ⟨⟩
    exact pattern
  | found | sweep => exact ⟨nofun, nofun, (shaped.mono (Nat.le_succ _)).began⟩
  | _ => exact .of_local rfl nofun rfl

theorem Progress.found_l2 (progress : Progress config cache operation phase event next after)
    {began : ℕ} {keys : List JsString} {last : Bool} (same : next = .found began keys last) :
    after.l2 = cache.l2 := by
  cases progress <;> cases same
  all_goals rfl

theorem Progress.returned (progress : Progress config cache operation phase event next after)
    {done : ℕ} {value : Option Value} (same : next = .returned done value) : done = cache.step := by
  cases progress <;> cases same
  all_goals rfl

theorem Progress.l1_current (progress : Progress config cache operation phase event next after)
    (orderly : OrderlyEvent config key cache operation phase event) {entry : Entry}
    (shown : OrderedMap.get after.l1 key = some entry) :
    OrderedMap.get cache.l1 key = some entry ∨ CurrentL1 config key cache entry.value := by
  cases progress with
  | promote reads =>
    rcases get_keep shown with ⟨rfl, positive, same⟩ | kept
    · exact .inr (same ▸ orderly.promoted _ _ reads rfl rfl positive)
    · exact .inl kept
  | load =>
    rcases get_keep shown with ⟨rfl, positive, same⟩ | kept
    · exact .inr (same ▸ orderly.loaded _ _ _ _ _ rfl rfl rfl positive)
    · exact .inl kept
  | _ => exact .inl shown

theorem Progress.l2_current (progress : Progress config cache operation phase event next after)
    (orderly : OrderlyEvent config key cache operation phase event) {stored : Stored}
    (shown : after.l2.get key = some stored) :
    cache.l2.get key = some stored ∨
      stored.since = sinceOf key cache ∧ CurrentL2 config key cache stored.value := by
  cases progress with
  | promote | load =>
    rw [keep_frame] at shown
    exact .inl shown
  | store writes =>
    rcases get_put shown with ⟨rfl, value, since⟩ | ⟨-, kept⟩
    · exact .inr ⟨since, value ▸ orderly.stored _ _ writes rfl rfl⟩
    · exact .inl kept
  | deleted =>
    rw [OrderedMap.get_erase] at shown
    split_ifs at shown
    exact .inl shown
  | sweep | swept =>
    rw [OrderedMap.get_discard] at shown
    split_ifs at shown
    exact .inl shown
  | _ => exact .inl shown

theorem Progress.passed (progress : Progress config cache operation phase event next after)
    (orderly : OrderlyEvent config key cache operation phase event) (url : config.redisUrl = true)
    (invalidates : operation.invalidates config key = true)
    (shaped : Shaped config cache.step operation phase)
    (early : ∀ stored, cache.l2.get key = some stored → stored.since < cache.step)
    (complete : ∀ began keys, phase = .found began keys true → ∀ stored,
      cache.l2.get key = some stored → key ∈ keys ∨ began < stored.since)
    {stored : Stored} (shown : after.l2.get key = some stored)
    (passed : next.passed stored.since) :
    cache.l2.get key = some stored ∧ phase.passed stored.since := by
  cases operation with
  | get | aside | set => exact absurd invalidates Bool.false_ne_true
  | invalidate keyOrPattern =>
    cases progress with
    | scan => exact absurd passed (Nat.lt_asymm (early stored shown))
    | unreachable => exact absurd rfl ((orderly.reached invalidates).2 url)
    | undeleted | unscanned | unswept => exact absurd rfl (orderly.reached invalidates).1
    | deleted =>
      have single := shaped.single rfl _ rfl
      have same : keyOrPattern = key := by
        simpa [Operation.invalidates, Config.covers, single] using invalidates
      rw [OrderedMap.get_erase, if_pos same.symm] at shown
      cases shown
    | found => exact ⟨shown, passed⟩
    | sweep =>
      rw [OrderedMap.get_discard] at shown
      split_ifs at shown
      exact ⟨shown, passed⟩
    | swept =>
      rw [OrderedMap.get_discard] at shown
      split_ifs at shown with named
      have kept : ¬ key ∈ _ := fun mem => named (decide_eq_true mem)
      exact ⟨shown, (complete _ _ rfl stored shown).resolve_left kept⟩
    | published => exact ⟨shown, trivial⟩
    | _ => exact passed.elim

theorem Progress.complete (progress : Progress config cache operation phase event next after)
    (invalidates : operation.invalidates config key = true)
    (shaped : Shaped config cache.step operation phase) {began : ℕ} {keys : List JsString}
    (same : next = .found began keys true) {stored : Stored}
    (shown : cache.l2.get key = some stored) : key ∈ keys ∨ began < stored.since := by
  cases progress <;> cases same
  case found keyOrPattern matching complete =>
    have pattern := (shaped.began _ rfl).2 _ rfl
    have matched : config.globMatch keyOrPattern key = true := by
      simpa [Operation.invalidates, Config.covers, pattern] using invalidates
    by_cases old : stored.since ≤ began
    · exact .inl (complete rfl key stored shown matched old)
    · exact .inr (not_le.mp old)

theorem Progress.loadedAt (progress : Progress config cache operation phase event next after)
    (reads : operation.readsKey key) {loadedAt : ℕ} (holds : next.loadedAt? = some loadedAt) :
    phase.loadedAt? = some loadedAt ∨ loadedAt = cache.step ∨
      phase = .asking ∧ ∃ stored, cache.l2.get key = some stored ∧
        loadedAt = stored.value.loadedAt := by
  cases progress with
  | @answer _ other _ readsOther =>
    have same : other = key := by
      rw [Operation.readsKey, readsOther] at reads
      exact Option.some.inj reads
    subst same
    cases there : cache.l2.get other with
    | none =>
      rw [there] at holds
      cases holds
    | some stored =>
      rw [there] at holds
      exact .inr (.inr ⟨rfl, stored, rfl, (Option.some.inj holds).symm⟩)
  | @get _ _ hit =>
    cases hit with
    | none => cases holds
    | some hit => exact .inl holds
  | promote | hit | load | send | skip | store | unstored | asideDone => exact .inl holds
  | recompute | miss => exact .inr (.inl (Option.some.inj holds).symm)
  | _ => cases holds

end Events

/-! ### The invariant -/

def Safe (config : Config) (key : JsString) (cache : Cache) (calledAt loadedAt : ℕ) : Prop :=
  ∀ invalidation ∈ cache.calls, invalidation.operation.invalidates config key = true →
    ∀ done, invalidation.phase = .returned done none → done < calledAt →
      invalidation.calledAt ≤ loadedAt

structure Coherent (config : Config) (key : JsString) (cache : Cache) : Prop where
  timed : ∀ call ∈ cache.calls, call.calledAt < cache.step
  shaped : ∀ call ∈ cache.calls, Shaped config cache.step call.operation call.phase
  l1 : ∀ entry, OrderedMap.get cache.l1 key = some entry →
    CurrentL1 config key cache entry.value
  since : ∀ stored, cache.l2.get key = some stored → stored.since < cache.step
  l2 : config.redisUrl = true → ∀ stored, cache.l2.get key = some stored →
    ∀ invalidation ∈ cache.calls, invalidation.operation.invalidates config key = true →
      invalidation.phase.passed stored.since → invalidation.calledAt ≤ stored.value.loadedAt
  complete : ∀ invalidation ∈ cache.calls,
    invalidation.operation.invalidates config key = true → ∀ began keys,
      invalidation.phase = .found began keys true → ∀ stored, cache.l2.get key = some stored →
        key ∈ keys ∨ began < stored.since
  carried : ∀ call ∈ cache.calls, call.operation.readsKey key → ∀ loadedAt,
    call.phase.loadedAt? = some loadedAt → Safe config key cache call.calledAt loadedAt
  marked : 0 < cache.calls.countP (Call.recomputes key) → key ∈ cache.recomputing
  single : OneRecompute key cache

theorem recomputes_of_early_eq {key : JsString} {operation : Operation} {phase next : Phase}
    (same : next.early = phase.early) (shown : operation.recomputes key next = true) :
    operation.recomputes key phase = true := by
  cases operation with
  | aside other =>
    rw [Operation.recomputes, same] at shown
    exact shown
  | get | set | invalidate => exact shown

theorem recomputes_of_not_early {key : JsString} {operation : Operation} {phase : Phase}
    (idle : phase.early = false) : operation.recomputes key phase = false := by
  cases operation with
  | aside other => rw [Operation.recomputes, idle, Bool.and_false]
  | get | set | invalidate => rfl

section Invariant

variable {config : Config} {key : JsString} {cache : Cache}

theorem Coherent.fresh (coherent : Coherent config key cache) : Fresh config key cache := by
  intro reader member reads step value returned
  exact coherent.carried reader member reads value.loadedAt (by rw [returned]; rfl)

theorem coherent_of_starts (starts : Starts cache) : Coherent config key cache where
  timed := by simp [starts.calls]
  shaped := by simp [starts.calls]
  l1 := by
    rw [starts.l1]
    exact nofun
  since := starts.since key
  l2 := by simp [starts.calls]
  complete := by simp [starts.calls]
  carried := by simp [starts.calls]
  marked := by simp [starts.calls]
  single := by simp [OneRecompute, starts.calls]

theorem Coherent.sinceOf_le (coherent : Coherent config key cache) :
    sinceOf key cache ≤ cache.step := by
  unfold sinceOf
  cases there : cache.l2.get key with
  | none => exact le_rfl
  | some stored => exact (coherent.since stored there).le

theorem Coherent.lose (coherent : Coherent config key cache) {clock : ℕ}
    {l2 : OrderedMap JsString Stored}
    (lost : ∀ stored, l2.get key = some stored → cache.l2.get key = some stored) :
    Coherent config key ({ cache with clock := clock, l2 := l2 } : Cache).next where
  timed := fun call member => (coherent.timed call member).trans (Nat.lt_succ_self _)
  shaped := fun call member => (coherent.shaped call member).mono (Nat.le_succ _)
  l1 := coherent.l1
  since := fun stored shown =>
    (coherent.since stored (lost stored shown)).trans (Nat.lt_succ_self _)
  l2 := fun url stored shown => coherent.l2 url stored (lost stored shown)
  complete := fun invalidation member invalidates began keys same stored shown =>
    coherent.complete invalidation member invalidates began keys same stored (lost stored shown)
  carried := coherent.carried
  marked := coherent.marked
  single := coherent.single

theorem Coherent.add (coherent : Coherent config key cache) {l1 : LRUCache} {operation : Operation}
    {phase : Phase}
    (current : ∀ entry, OrderedMap.get l1 key = some entry →
      CurrentL1 config key cache entry.value ∧ operation.invalidates config key = false)
    (shaped : Shaped config cache.step operation phase) (begins : ∀ since, ¬ phase.passed since)
    (scans : phase.began? = none) (idle : operation.recomputes key phase = false)
    (holds : operation.readsKey key → ∀ loadedAt, phase.loadedAt? = some loadedAt →
      ∀ invalidation ∈ cache.calls, invalidation.operation.invalidates config key = true →
        invalidation.calledAt ≤ loadedAt) :
    Coherent config key ({ cache with
      l1 := l1, calls := cache.calls ++ [⟨cache.step, operation, phase⟩] } : Cache).next := by
  have counted : (cache.calls ++ [(⟨cache.step, operation, phase⟩ : Call)]).countP
      (Call.recomputes key) = cache.calls.countP (Call.recomputes key) := by
    rw [List.countP_append, List.countP_singleton, Call.recomputes, idle]
    rfl
  refine ⟨?timed, ?shaped, ?l1, ?since, ?l2, ?complete, ?carried, ?marked, ?single⟩
  case timed =>
    intro call member
    rcases List.mem_append.mp member with old | new
    · exact (coherent.timed call old).trans (Nat.lt_succ_self _)
    · cases List.mem_singleton.mp new
      exact Nat.lt_succ_self _
  case shaped =>
    intro call member
    rcases List.mem_append.mp member with old | new
    · exact (coherent.shaped call old).mono (Nat.le_succ _)
    · cases List.mem_singleton.mp new
      exact shaped.mono (Nat.le_succ _)
  case l1 =>
    intro entry shown invalidation member invalidates
    rcases List.mem_append.mp member with old | new
    · exact (current entry shown).1 invalidation old invalidates
    · cases List.mem_singleton.mp new
      exact absurd ((current entry shown).2.symm.trans invalidates) Bool.false_ne_true
  case since => exact fun stored shown => (coherent.since stored shown).trans (Nat.lt_succ_self _)
  case l2 =>
    intro url stored shown invalidation member invalidates passed
    rcases List.mem_append.mp member with old | new
    · exact coherent.l2 url stored shown invalidation old invalidates passed
    · cases List.mem_singleton.mp new
      exact absurd passed (begins _)
  case complete =>
    intro invalidation member invalidates began keys same
    rcases List.mem_append.mp member with old | new
    · exact coherent.complete invalidation old invalidates began keys same
    · cases List.mem_singleton.mp new
      have found : phase.began? = some began := congrArg Phase.began? same
      exact nomatch scans.symm.trans found
  case carried =>
    intro call member reads loadedAt shown invalidation invalidationMember invalidates done returned
      before
    rcases List.mem_append.mp invalidationMember with oldInvalidation | new
    · rcases List.mem_append.mp member with old | new
      · exact coherent.carried call old reads loadedAt shown invalidation oldInvalidation
          invalidates done returned before
      · cases List.mem_singleton.mp new
        exact holds reads loadedAt shown invalidation oldInvalidation invalidates
    · cases List.mem_singleton.mp new
      have gone : phase.passed 0 := by
        rw [show phase = .returned done none from returned]
        trivial
      exact absurd gone (begins 0)
  case marked =>
    intro some_run
    exact coherent.marked (counted ▸ some_run)
  case single => exact counted.le.trans coherent.single

theorem Coherent.look (coherent : Coherent config key cache) {other : JsString} {lead : ℕ}
    {operation : Operation} (reads : operation.invalidates config key = false)
    (aims : operation.readsKey key → other = key) :
    Coherent config key (cache.look other lead operation).next := by
  have current : ∀ entry, OrderedMap.get (cache.l1.get cache.clock other).2 key = some entry →
      CurrentL1 config key cache entry.value ∧ operation.invalidates config key = false :=
    fun entry shown => ⟨coherent.l1 entry (LRUCache.get_subset shown), reads⟩
  change Coherent config key ({ cache with
    l1 := (cache.l1.get cache.clock other).2
    calls := cache.calls ++ [⟨cache.step, operation,
      cache.checked lead (cache.l1.get cache.clock other).1⟩] } : Cache).next
  cases found : (cache.l1.get cache.clock other).1 with
  | none =>
    exact coherent.add current (.of_local rfl nofun rfl) (fun _ => id) rfl
      (recomputes_of_not_early rfl) nofun
  | some entry =>
    refine coherent.add current (.of_local rfl nofun rfl) (fun _ => id) rfl
      (recomputes_of_not_early rfl) fun readsKey loadedAt same => ?_
    have there := LRUCache.get_found found
    rw [aims readsKey] at there
    cases same
    exact coherent.l1 entry there

theorem Progress.recomputes {operation : Operation} {phase next : Phase} {event : Event}
    {after : Cache} (progress : Progress config cache operation phase event next after)
    (orderly : OrderlyEvent config key cache operation phase event) :
    (operation.recomputes key next = true → operation.recomputes key phase = true) ∧
        (key ∈ cache.recomputing → key ∈ after.recomputing) ∨
      key ∉ cache.recomputing ∧ key ∈ after.recomputing ∨
      operation.recomputes key next = false ∧ (operation.recomputes key phase = true ∨
        cache.calls.countP (Call.recomputes key) = 0) := by
  have unmarks : ∀ {other : JsString} {ttlOrType : TtlOrType} {phase next : Phase} {event : Event},
      OrderlyEvent config key cache (.aside other ttlOrType) phase event →
      phase.finishes event = true → next.early = false →
      ((Operation.aside other ttlOrType).recomputes key next = true →
          (Operation.aside other ttlOrType).recomputes key phase = true) ∧
          (key ∈ cache.recomputing → key ∈ (cache.unmark other).recomputing) ∨
        key ∉ cache.recomputing ∧ key ∈ (cache.unmark other).recomputing ∨
        (Operation.aside other ttlOrType).recomputes key next = false ∧
          ((Operation.aside other ttlOrType).recomputes key phase = true ∨
            cache.calls.countP (Call.recomputes key) = 0) := by
    intro other ttlOrType phase next event orderly finishes ended
    have still : (Operation.aside other ttlOrType).recomputes key next = false := by
      rw [Operation.recomputes, ended, Bool.and_false]
    by_cases same : other = key
    · subst same
      refine .inr (.inr ⟨still, ?_⟩)
      cases early : phase.early with
      | true =>
        left
        rw [Operation.recomputes, early, decide_eq_true rfl]
        rfl
      | false => exact .inr (orderly.finished _ rfl early finishes)
    · refine .inl ⟨fun shown => absurd (still.symm.trans shown) Bool.false_ne_true, fun mem => ?_⟩
      exact List.mem_filter.mpr ⟨mem, decide_eq_true (Ne.symm same)⟩
  cases progress with
  | @recompute other _ _ _ free =>
    by_cases same : other = key
    · subst same
      exact .inr (.inl ⟨free, List.mem_cons_self⟩)
    · refine .inl ⟨fun shown => ?_, fun mem => List.mem_cons_of_mem _ mem⟩
      rw [Operation.recomputes, decide_eq_false same, Bool.false_and] at shown
      cases shown
  | nothing | throw | asideDone => exact unmarks orderly rfl rfl
  | promote | load =>
    rw [keep_frame]
    exact .inl ⟨recomputes_of_early_eq rfl, id⟩
  | setDone => exact .inl ⟨id, id⟩
  | _ => exact .inl ⟨recomputes_of_early_eq rfl, id⟩

theorem Coherent.marks (coherent : Coherent config key cache) {after : Cache} {id : CallId}
    {call : Call} {event : Event} {next : Phase} (found : cache.calls[id]? = some call)
    (orderly : OrderlyEvent config key cache call.operation call.phase event)
    (progress : Progress config cache call.operation call.phase event next after) :
    OneRecompute key (after.move id call next) ∧
      (0 < (after.move id call next).calls.countP (Call.recomputes key) →
        key ∈ after.recomputing) := by
  have counted := countP_set_add found { call with phase := next } (Call.recomputes key)
  have calls : (after.move id call next).calls =
      cache.calls.set id { call with phase := next } := by
    rw [← progress.calls_eq]
    rfl
  have one := coherent.single
  unfold OneRecompute at one ⊢
  rw [calls]
  have most (bool : Bool) : bool.toNat ≤ 1 := Bool.toNat_le bool
  have newMost := most (Call.recomputes key { call with phase := next })
  rcases progress.recomputes orderly with ⟨fewer, marked⟩ | ⟨free, marked⟩ | ⟨still, ends⟩
  · have toNat_le : (Call.recomputes key { call with phase := next }).toNat ≤
        (Call.recomputes key call).toNat := Bool.toNat_le_toNat fewer
    exact ⟨by omega, fun some_run => marked (coherent.marked (by omega))⟩
  · have none_runs : ¬ 0 < cache.calls.countP (Call.recomputes key) :=
      fun some_run => free (coherent.marked some_run)
    exact ⟨by omega, fun _ => marked⟩
  · have stopped : (Call.recomputes key { call with phase := next }).toNat = 0 :=
      congrArg Bool.toNat still
    rcases ends with running | none_runs
    · have ran : (Call.recomputes key call).toNat = 1 := congrArg Bool.toNat running
      exact ⟨by omega, fun some_run => by omega⟩
    · exact ⟨by omega, fun some_run => by omega⟩

theorem Coherent.event (coherent : Coherent config key cache) {after : Cache} {id : CallId}
    {call : Call} {event : Event} {next : Phase} (found : cache.calls[id]? = some call)
    (orderly : OrderlyEvent config key cache call.operation call.phase event)
    (progress : Progress config cache call.operation call.phase event next after) :
    Coherent config key (after.move id call next).next := by
  have member : call ∈ cache.calls := List.mem_of_getElem? found
  have moved : ∀ other ∈ (after.move id call next).next.calls,
      other = { call with phase := next } ∨ other ∈ cache.calls := by
    intro other among
    have set : other ∈ cache.calls.set id { call with phase := next } := by
      rw [← progress.calls_eq]
      exact among
    exact (List.mem_or_eq_of_mem_set set).symm
  have later : (after.move id call next).next.step = cache.step + 1 :=
    congrArg (· + 1) progress.step_eq
  have shaped := coherent.shaped call member
  have timed : ∀ other ∈ (after.move id call next).next.calls, other.calledAt < cache.step := by
    intro other among
    rcases moved other among with rfl | old
    · exact coherent.timed call member
    · exact coherent.timed other old
  refine ⟨?timed, ?shaped, ?l1, ?since, ?l2, ?complete, ?carried, ?marked, ?single⟩
  case timed =>
    intro other among
    rw [later]
    exact (timed other among).trans (Nat.lt_succ_self _)
  case shaped =>
    intro other among
    rw [later]
    rcases moved other among with rfl | old
    · exact progress.shaped shaped
    · exact (coherent.shaped other old).mono (Nat.le_succ _)
  case l1 =>
    intro entry shown invalidation among invalidates
    have current : CurrentL1 config key cache entry.value :=
      (progress.l1_current orderly shown).elim (coherent.l1 entry) fun current => current
    rcases moved invalidation among with rfl | old
    · exact current call member invalidates
    · exact current invalidation old invalidates
  case since =>
    intro stored shown
    rw [later]
    rcases progress.l2_current orderly shown with kept | ⟨since, -⟩
    · exact (coherent.since stored kept).trans (Nat.lt_succ_self _)
    · rw [since]
      exact Nat.lt_succ_of_le (coherent.sinceOf_le)
  case l2 =>
    intro url stored shown invalidation among invalidates passed
    rcases moved invalidation among with rfl | old
    · obtain ⟨kept, before⟩ := progress.passed orderly url invalidates shaped coherent.since
        (coherent.complete call member invalidates) shown passed
      exact coherent.l2 url stored kept call member invalidates before
    · rcases progress.l2_current orderly shown with kept | ⟨since, current⟩
      · exact coherent.l2 url stored kept invalidation old invalidates passed
      · exact current invalidation old invalidates (since ▸ passed)
  case complete =>
    intro invalidation among invalidates began keys same stored shown
    rcases moved invalidation among with rfl | old
    · exact progress.complete invalidates shaped same (progress.found_l2 same ▸ shown)
    · rcases progress.l2_current orderly shown with kept | ⟨since, -⟩
      · exact coherent.complete invalidation old invalidates began keys same stored kept
      · rw [since, sinceOf]
        cases there : cache.l2.get key with
        | some before =>
          exact coherent.complete invalidation old invalidates began keys same before there
        | none =>
          have found : invalidation.phase.began? = some began := by rw [same]; rfl
          exact .inr ((coherent.shaped invalidation old).began began found).1
  case carried =>
    intro other among reads loadedAt holds invalidation invalidationAmong invalidates done returned
      before
    have old : invalidation ∈ cache.calls := by
      rcases moved invalidation invalidationAmong with rfl | old
      · have last := progress.returned returned
        have first := timed other among
        omega
      · exact old
    rcases moved other among with rfl | oldReader
    · rcases progress.loadedAt reads holds with same | rfl | ⟨asking, stored, there, rfl⟩
      · exact coherent.carried call member reads loadedAt same invalidation old invalidates done
          returned before
      · exact (coherent.timed invalidation old).le
      · have url := shaped.asks (by rw [asking]; rfl)
        exact coherent.l2 url stored there invalidation old invalidates (by rw [returned]; trivial)
    · exact coherent.carried other oldReader reads loadedAt holds invalidation old invalidates done
        returned before
  case marked => exact (coherent.marks found orderly progress).2
  case single => exact (coherent.marks found orderly progress).1

/-! ### Every step -/

theorem Coherent.step (coherent : Coherent config key cache) {action : Action} {after : Cache}
    (orderly : Orderly config key cache action) (taken : Step config cache action after) :
    Coherent config key after := by
  cases taken with
  | advance elapsed => exact coherent.lose fun _ => id
  | forget other =>
    refine coherent.lose fun stored shown => ?_
    rw [OrderedMap.get_erase] at shown
    split_ifs at shown
    exact shown
  | get other cacheType lead => exact coherent.look rfl Option.some.inj
  | aside other ttlOrType lead => exact coherent.look rfl Option.some.inj
  | set other value ttlOrType computeMs past =>
    rw [keep_frame]
    refine coherent.add (fun entry shown => ⟨?_, rfl⟩) (.of_local rfl (by rintro ⟨⟩) rfl)
      (fun _ => id) rfl (recomputes_of_not_early rfl) (by rintro ⟨⟩)
    rcases get_keep shown with ⟨rfl, positive, same⟩ | kept
    · exact same ▸ orderly rfl positive
    · exact coherent.l1 entry kept
  | invalidate keyOrPattern =>
    refine coherent.add (fun entry shown => ?_) (.of_local rfl (by rintro ⟨⟩) rfl) (fun _ => id)
      rfl rfl (by rintro ⟨⟩)
    have kept := get_evict shown
    refine ⟨coherent.l1 entry kept.2, Bool.eq_false_iff.mpr fun covers => ?_⟩
    exact Bool.false_ne_true (kept.1.symm.trans (orderly covers))
  | event found progress => exact coherent.event found (orderly _ found) progress

end Invariant

/-! ### An instance without Redis -/

def everything : JsString := js "*"

def alone : Config := ⟨1000, false, fun pattern _ => pattern = everything⟩

def empty : Cache := ⟨0, 0, .empty, .empty, [], []⟩

theorem starts_empty : Starts empty := ⟨rfl, rfl, rfl, nofun⟩

def someKey : JsString := js "stats"

/-! ### Runs -/

/-- In every run of orderly steps, no call returns what was loaded before an invalidation that had
resolved, and at most one early recompute of the key runs at a time. -/
theorem fresh_along (config : Config) (key : JsString) {start : Cache} (starts : Starts start)
    {actions : List Action} (orderly : EachStep (Step config) start actions (Orderly config key)) :
    Along (Step config) start actions fun _ cache =>
      Fresh config key cache ∧ OneRecompute key cache := by
  have coherent : Along (Step config) start actions fun _ cache => Coherent config key cache :=
    orderly.along (coherent_of_starts starts)
      fun _ _ _ _ _ coherent orderly taken => coherent.step orderly taken
  intro history below cache run
  have reached := coherent history below cache run
  exact ⟨reached.fresh, reached.single⟩

/-- An invalidation of the key alone, and a read after it. -/
theorem fresh_along_invalidation :
    Along (Step alone) empty [.invalidate someKey, .advance 5, .get someKey none 0] fun _ cache =>
      Fresh alone someKey cache ∧ OneRecompute someKey cache :=
  fresh_along alone someKey starts_empty <| EachStep.of_forall <| by
    simp only [List.mem_cons, List.not_mem_nil, or_false, forall_eq_or_imp, forall_eq]
    exact ⟨fun _ _ => by decide +kernel, fun _ => trivial, fun _ => trivial⟩

def lateLoad : List Action :=
  [.aside someKey (.seconds 60) 0, .event 0 (.connected false), .event 0 .resumed,
    .invalidate someKey, .event 1 (.connected false), .event 0 (.loaded (some [])),
    .get someKey none 0, .event 2 .resumed]

def wholePattern : List Action :=
  [.set someKey ⟨[], 0⟩ (.seconds 60) 0, .invalidate everything, .event 1 (.connected false),
    .get someKey none 0, .event 2 .resumed]

def lateMiss : List Action :=
  [.aside someKey (.seconds 60) 0, .event 0 (.connected false), .event 0 .resumed,
    .set someKey ⟨[], 0⟩ (.seconds 60) 5, .aside someKey (.seconds 60) 60000, .event 2 .resumed,
    .event 0 (.loaded none), .aside someKey (.seconds 60) 60000, .event 3 .resumed]

theorem incoherent :
    Starts empty ∧
      (∃ cache, Run (Step alone) empty lateLoad cache ∧ ¬ Fresh alone someKey cache) ∧
      (∃ cache, Run (Step alone) empty wholePattern cache ∧ ¬ Fresh alone someKey cache) ∧
        ∃ cache, Run (Step alone) empty lateMiss cache ∧ ¬ OneRecompute someKey cache := by
  refine ⟨starts_empty,
    ⟨_, (((((((Run.nil.snoc (.aside _ _ _)).snoc (.event rfl (.alone rfl))).snoc
      (.event rfl .miss)).snoc (.invalidate _)).snoc (.event rfl .unreachable)).snoc
      (.event rfl .load)).snoc (.get _ _ _)).snoc (.event rfl .get), fun fresh => ?lateLoad⟩,
    ⟨_, ((((Run.nil.snoc (.set _ _ _ _ (Nat.zero_le _))).snoc (.invalidate _)).snoc
      (.event rfl .unreachable)).snoc (.get _ _ _)).snoc (.event rfl .get),
      fun fresh => ?wholePattern⟩,
    ⟨_, ((((((((Run.nil.snoc (.aside _ _ _)).snoc (.event rfl (.alone rfl))).snoc
      (.event rfl .miss)).snoc (.set _ _ _ _ (Nat.zero_le _))).snoc (.aside _ _ _)).snoc
      (.event rfl (.recompute (by decide +kernel) (by decide +kernel)))).snoc
      (.event rfl .nothing)).snoc (.aside _ _ _)).snoc
      (.event rfl (.recompute (by decide +kernel) (by decide +kernel))), ?lateMiss⟩⟩
  case lateLoad =>
    have stale := fresh _ (List.mem_of_getElem? (i := 2) rfl) rfl _ _ rfl _
      (List.mem_of_getElem? (i := 1) rfl) rfl _ rfl (by decide)
    exact absurd stale (by decide)
  case wholePattern =>
    have stale := fresh _ (List.mem_of_getElem? (i := 2) rfl) rfl _ _ rfl _
      (List.mem_of_getElem? (i := 1) rfl) rfl _ rfl (by decide)
    exact absurd stale (by decide)
  case lateMiss => decide +kernel

end CacheLayer

end SorobanExplorer.Indexer
