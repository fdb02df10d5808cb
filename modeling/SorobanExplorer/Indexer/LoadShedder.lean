import SorobanExplorer.Filters.JsValue
import SorobanExplorer.Library.JsArithmetic
import SorobanExplorer.Library.Run
import SorobanExplorer.Library.Slots

/-!
Owns the adaptive load shedder: which requests it admits, the count of active requests of a route,
and how the limit of a route moves. What a run of arrivals and completions keeps is `Sound`.

Metrics are left out.
-/

namespace SorobanExplorer.Indexer

open Library
open Filters (js JsString)

namespace LoadShedder

/-! ### Constants -/

inductive Route where
  | api
  | rpc
  | analytics
  | admin
deriving DecidableEq

inductive Priority where
  | anonymous
  | free
  | pro
  | enterprise
  | admin
deriving DecidableEq

/-- `DEFAULT_LIMITS.api` -/
def DEFAULT_LIMIT_API : JsNumeric := .ofNat 100

def MIN_LIMIT : JsNumeric := .ofNat 5
def MAX_LIMIT : JsNumeric := .ofNat 1000
def SAMPLE_WINDOW : ℕ := 20

def PRIORITY_RESERVE : Priority → ℕ
  | .anonymous | .free => 0
  | .pro => 10
  | .enterprise => 20
  | .admin => 50

def HEALTH_PATHS : List JsString :=
  [js "/health", js "/api/health", js "/health/live", js "/health/ready"]

/-! ### Requests -/

structure RateContext where
  tier : Option JsString
  keyName : Option JsString

structure Request where
  method : JsString
  path : JsString
  rateContext : Option RateContext

def isAdminPath (path : JsString) : Bool :=
  path = js "/api/admin" || (js "/api/admin/").isPrefixOf path

def classifyRoute (path : JsString) : Route :=
  if path = js "/api/rpc" then .rpc
  else if path = js "/api/sql" then .analytics
  else if isAdminPath path then .admin
  else .api

def tierPriority (request : Request) : Priority :=
  let keyName := request.rateContext.bind RateContext.keyName
  let tier := request.rateContext.bind RateContext.tier
  if isAdminPath request.path ∧ keyName = some (js "static-admin-key") then .admin
  else if tier = some (js "enterprise") then .enterprise
  else if tier = some (js "pro") then .pro
  else if tier = some (js "free") then .free
  else .anonymous

def isHealthCheck (request : Request) : Bool :=
  request.method = js "GET" && HEALTH_PATHS.contains request.path

/-! ### Routes -/

structure RouteState where
  limit : JsNumeric
  active : ℕ
  completed : ℕ
  latencyTotal : JsNumeric
  windowHighWater : ℕ
  shed : Priority → ℕ

namespace RouteState

def start (limit : JsNumeric) : RouteState := ⟨limit, 0, 0, .ofNat 0, 0, fun _ => 0⟩

def allowedConcurrent (state : RouteState) (priority : Priority) : JsNumeric :=
  .minimum MAX_LIMIT (.add state.limit (.ofNat (PRIORITY_RESERVE priority)))

def sheds (state : RouteState) (priority : Priority) : Bool :=
  JsNumeric.ge (.ofNat state.active) (state.allowedConcurrent priority)

def admitted (state : RouteState) : RouteState :=
  { state with
    active := state.active + 1
    windowHighWater := max state.windowHighWater (state.active + 1) }

def adapted (state : RouteState) (targetLatencyMs : JsNumeric) : JsNumeric :=
  let averageLatency := JsNumeric.div state.latencyTotal (.ofNat state.completed)
  if averageLatency.gt targetLatencyMs then
    .maximum MIN_LIMIT (.floor (.mul state.limit (some (.ofRat (8 / 10)))))
  else if JsNumeric.ge (.ofNat state.windowHighWater) state.limit then
    .minimum MAX_LIMIT
      (.add state.limit
        (.maximum (.ofNat 1) (.ceil (.mul state.limit (some (.ofRat (5 / 100)))))))
  else state.limit

/-- The body of `release`, for a request that took some time. -/
def released (state : RouteState) (targetLatencyMs latencyMs : JsNumeric) : RouteState :=
  let done := { state with
    active := state.active - 1
    completed := state.completed + 1
    latencyTotal := .add state.latencyTotal latencyMs }
  if SAMPLE_WINDOW ≤ done.completed then
    { done with
      limit := done.adapted targetLatencyMs
      completed := 0
      latencyTotal := .ofNat 0
      windowHighWater := done.active }
  else done

end RouteState

/-! ### Steps -/

/-- An admitted request: what its `release` closes over, and which of its listeners are still
there. -/
structure Flight where
  route : Route
  startedAt : ℤ
  released : Bool
  onFinish : Bool
  onClose : Bool

structure Shedder where
  states : Route → Option RouteState
  flights : List Flight

/-- A shedder with the limits of `createLoadShedder`, before any request. -/
def Shedder.start (limits : Route → Option JsNumeric) : Shedder :=
  ⟨fun route => (limits route).map RouteState.start, []⟩

def Shedder.getState (shedder : Shedder) (route : Route) : RouteState :=
  (shedder.states route).getD (.start DEFAULT_LIMIT_API)

def Shedder.setState (shedder : Shedder) (route : Route) (state : RouteState) : Shedder :=
  { shedder with states := Function.update shedder.states route (some state) }

abbrev FlightId := ℕ

inductive Event where
  | arrive (request : Request) (now : ℤ)
  | finish (id : FlightId) (now : ℤ)
  | close (id : FlightId) (now : ℤ)

inductive Outcome where
  /-- A health check, which is not counted. -/
  | passed
  | shed
  | admitted (id : FlightId)
  | released (id : FlightId)
  | ignored
deriving DecidableEq

def arrive (shedder : Shedder) (request : Request) (now : ℤ) : Outcome × Shedder :=
  if isHealthCheck request then (.passed, shedder)
  else
    let route := classifyRoute request.path
    let state := shedder.getState route
    let priority := tierPriority request
    if state.sheds priority then
      (.shed, shedder.setState route
        { state with shed := Function.update state.shed priority (state.shed priority + 1) })
    else
      (.admitted shedder.flights.length,
        { shedder.setState route state.admitted with
          flights := shedder.flights ++ [⟨route, now, false, true, true⟩] })

/-- `release` of a flight, which its listeners call. -/
def release (targetLatencyMs : JsNumeric) (shedder : Shedder) (id : FlightId) (flight : Flight)
    (now : ℤ) : Outcome × Shedder :=
  if flight.released then (.ignored, { shedder with flights := shedder.flights.set id flight })
  else
    let latencyMs : JsNumeric := some (.ofRat (now - flight.startedAt : ℤ))
    let state := (shedder.getState flight.route).released targetLatencyMs latencyMs
    (.released id,
      { shedder.setState flight.route state with
        flights := shedder.flights.set id { flight with released := true } })

def step (targetLatencyMs : JsNumeric) (shedder : Shedder) : Event → Outcome × Shedder
  | .arrive request now => arrive shedder request now
  | .finish id now =>
    match shedder.flights[id]? with
    | some flight =>
      if flight.onFinish then
        release targetLatencyMs shedder id { flight with onFinish := false } now
      else (.ignored, shedder)
    | none => (.ignored, shedder)
  | .close id now =>
    match shedder.flights[id]? with
    | some flight =>
      if flight.onClose then
        release targetLatencyMs shedder id { flight with onClose := false } now
      else (.ignored, shedder)
    | none => (.ignored, shedder)

def Steps (targetLatencyMs : JsNumeric) (before : Shedder) (label : Event × Outcome)
    (after : Shedder) : Prop :=
  step targetLatencyMs before label.1 = (label.2, after)

/-! ### Statement -/

def Shedder.active (shedder : Shedder) (route : Route) : ℕ := (shedder.getState route).active

def Within (limit : JsNumeric) : Prop :=
  ∃ number : JsNumber, limit = some number ∧ 5 ≤ number.value ∧ number.value ≤ 1000

def Priority.rank : Priority → ℕ
  | .anonymous => 0
  | .free => 1
  | .pro => 2
  | .enterprise => 3
  | .admin => 4

structure Sound (targetLatencyMs : JsNumeric) (history : List (Event × Outcome))
    (shedder : Shedder) : Prop where
  active : ∀ route, shedder.active route =
    shedder.flights.countP fun flight => flight.route = route && !flight.released
  /-- A request is released once, by the first of its events. -/
  once : ∀ id flight, shedder.flights[id]? = some flight →
    history.countP (fun label => label.2 = .released id) = (if flight.released then 1 else 0) ∧
      flight.released = !(flight.onFinish && flight.onClose)
  limit : ∀ route, Within (shedder.getState route).limit
  /-- Only an admission adds to the active requests, and its limit, rounded up, and the largest
  reserve bound them. -/
  bound : ∀ event route, ((step targetLatencyMs shedder event).2.active route ≤
      shedder.active route) ∨
    ∃ id number, (step targetLatencyMs shedder event).1 = .admitted id ∧
      (shedder.getState route).limit = some number ∧
      ((step targetLatencyMs shedder event).2.active route : ℤ) ≤ ⌈number.value⌉ + 50
  fair : ∀ high low now, classifyRoute high.path = classifyRoute low.path →
    (tierPriority low).rank < (tierPriority high).rank →
    (step targetLatencyMs shedder (.arrive high now)).1 = .shed →
    ∀ id, (step targetLatencyMs shedder (.arrive low now)).1 ≠ .admitted id

/-! ### Numbers up to a bound -/

section Numbers

def Small (number : JsNumber) : Prop := 0 ≤ number.value ∧ number.value ≤ 1000

theorem Small.isFinite {number : JsNumber} (small : Small number) : number.isFinite = true := by
  refine JsNumber.isFinite_of_nonneg small.1 (small.2.trans_lt ?_)
  exact_mod_cast @Binary64.natCast_lt_infinity 1000 (by norm_num)

theorem round_between {low high : ℕ} {value : ℚ} (highSmall : high ≤ 2 ^ 53)
    (le : (low : ℚ) ≤ value) (ge : value ≤ high) :
    (low : ℚ) ≤ Binary64.round value ∧ Binary64.round value ≤ high := by
  have lowHigh : low ≤ high := by exact_mod_cast le.trans ge
  constructor
  · exact JsNumeric.natCast_le_round (lowHigh.trans highSmall) le
  · rw [← Binary64.round_natCast highSmall]
    exact Binary64.round_mono ge

theorem small_ofRat {value : ℚ} (nonneg : 0 ≤ value) (le : value ≤ 1000) :
    Small (.ofRat value) := by
  have between := @round_between 0 1000 value (by norm_num) (by exact_mod_cast nonneg)
    (by exact_mod_cast le)
  rw [Small, JsNumber.ofRat_value]
  exact_mod_cast between

theorem small_ofNat {count : ℕ} (le : count ≤ 1000) : Small (.ofNat count) :=
  small_ofRat (Nat.cast_nonneg _) (by exact_mod_cast le)

theorem ofNat_value {count : ℕ} (le : count ≤ 1000) : (JsNumber.ofNat count).value = count :=
  JsNumber.ofNat_value (le.trans (by norm_num))

theorem mul_part {number : JsNumber} (small : Small number) {part : ℚ} (nonneg : 0 ≤ part)
    (le : part ≤ 1) :
    ∃ product, JsNumeric.mul (some number) (some (.ofRat part)) = some product ∧
      Small product := by
  have factor := @round_between 0 1 part (by norm_num) (by exact_mod_cast nonneg)
    (by exact_mod_cast le)
  rw [Nat.cast_zero, Nat.cast_one] at factor
  have factorSmall : Small (.ofRat part) := small_ofRat nonneg (le.trans (by norm_num))
  refine ⟨_, JsNumeric.mul_finite small.isFinite factorSmall.isFinite, small_ofRat ?_ ?_⟩
  · exact mul_nonneg small.1 factor.1
  · have product := mul_le_mul small.2 factor.2 factor.1 (by norm_num)
    rwa [mul_one] at product

theorem small_floor {number : JsNumber} (small : Small number) :
    Small (.ofRat (⌊number.value⌋ : ℤ)) := by
  have lower : (0 : ℤ) ≤ ⌊number.value⌋ := Int.floor_nonneg.mpr small.1
  have upper := (Int.floor_le number.value).trans small.2
  exact small_ofRat (by exact_mod_cast lower) upper

theorem small_ceil {number : JsNumber} (small : Small number) :
    Small (.ofRat (⌈number.value⌉ : ℤ)) := by
  have lower := small.1.trans (Int.le_ceil number.value)
  have upper : ⌈number.value⌉ ≤ 1000 := Int.ceil_le.mpr (by exact_mod_cast small.2)
  exact small_ofRat lower (by exact_mod_cast upper)

theorem maximum_spec {count : ℕ} (le : count ≤ 1000) {number : JsNumber} (small : Small number) :
    ∃ greater, JsNumeric.maximum (.ofNat count) (some number) = some greater ∧
      count ≤ greater.value ∧ greater.value ≤ 1000 := by
  have value := ofNat_value le
  refine ⟨_, rfl, ?_⟩
  split_ifs with above
  · exact ⟨value ▸ above, small.2⟩
  · rw [value]
    exact ⟨le_rfl, by exact_mod_cast le⟩

theorem within_adapted {state : RouteState} (within : Within state.limit)
    (targetLatencyMs : JsNumeric) : Within (state.adapted targetLatencyMs) := by
  obtain ⟨limit, known, least, most⟩ := within
  have small : Small limit := ⟨by linarith, most⟩
  unfold RouteState.adapted
  simp only [known]
  split_ifs with slow full
  · obtain ⟨product, multiplied, productSmall⟩ :=
      @mul_part _ small (8 / 10) (by norm_num) (by norm_num)
    obtain ⟨reduced, greater, lower, upper⟩ :=
      @maximum_spec 5 (by norm_num) _ (small_floor productSmall)
    rw [multiplied]
    exact ⟨reduced, greater, by exact_mod_cast lower, upper⟩
  · obtain ⟨product, multiplied, productSmall⟩ :=
      @mul_part _ small (5 / 100) (by norm_num) (by norm_num)
    obtain ⟨extra, greater, lower, upper⟩ :=
      @maximum_spec 1 (by norm_num) _ (small_ceil productSmall)
    rw [Nat.cast_one] at lower
    have extraSmall : Small extra := ⟨by linarith, upper⟩
    have grown : JsNumeric.maximum (.ofNat 1)
        (.ceil (.mul (some limit) (some (.ofRat (5 / 100))))) = some extra := by
      rw [multiplied]
      exact greater
    rw [grown, JsNumeric.add_finite small.isFinite extraSmall.isFinite, MAX_LIMIT]
    have sum := @JsNumeric.natCast_le_round 5 (limit.value + extra.value) (by norm_num)
      (by push_cast; linarith)
    have thousand := @ofNat_value 1000 le_rfl
    refine ⟨_, rfl, ?_⟩
    split_ifs with capped
    · rw [thousand]
      norm_num
    · rw [JsNumber.ofRat_value, thousand] at capped
      rw [JsNumber.ofRat_value]
      push_cast at sum capped
      exact ⟨sum, (not_le.mp capped).le⟩
  · exact ⟨limit, rfl, least, most⟩

theorem within_default : Within DEFAULT_LIMIT_API := by
  refine ⟨_, rfl, ?_⟩
  rw [ofNat_value (by norm_num)]
  norm_num

theorem allowedConcurrent_eq {state : RouteState} {limit : JsNumber}
    (known : state.limit = some limit) (small : Small limit) (priority : Priority) :
    ∃ allowed : JsNumber, state.allowedConcurrent priority = some allowed ∧
      allowed.value = min 1000 (Binary64.round (limit.value + PRIORITY_RESERVE priority)) := by
  have few : PRIORITY_RESERVE priority ≤ 1000 := by cases priority <;> decide
  have reserve := small_ofNat few
  rw [RouteState.allowedConcurrent, known, JsNumeric.ofNat,
    JsNumeric.add_finite small.isFinite reserve.isFinite, ofNat_value few, MAX_LIMIT]
  refine ⟨_, rfl, ?_⟩
  have thousand : (JsNumber.ofNat 1000).value = 1000 := by exact_mod_cast @ofNat_value 1000 le_rfl
  rw [JsNumber.ofRat_value, thousand]
  split_ifs with capped
  · rw [thousand, min_eq_left capped]
  · rw [JsNumber.ofRat_value, min_eq_right (not_le.mp capped).le]

theorem lt_of_not_ge {count : ℕ} {number : JsNumber} (le : number.value ≤ 1000)
    (below : JsNumeric.ge (.ofNat count) (some number) = false) : (count : ℚ) < number.value := by
  have rounded : Binary64.round count < number.value := not_le.mp (of_decide_eq_false below)
  have few : count ≤ 1000 := by
    by_contra many
    have large := @JsNumeric.natCast_le_round 1001 count (by norm_num)
      (by exact_mod_cast not_le.mp many)
    push_cast at large
    linarith
  rwa [Binary64.round_natCast (few.trans (by norm_num))] at rounded

theorem active_lt_of_not_sheds {state : RouteState} {limit : JsNumber}
    (known : state.limit = some limit) (small : Small limit) {priority : Priority}
    (free : state.sheds priority = false) : (state.active : ℤ) + 1 ≤ ⌈limit.value⌉ + 50 := by
  obtain ⟨allowed, eq, value⟩ := allowedConcurrent_eq known small priority
  rw [RouteState.sheds, eq] at free
  have below := lt_of_not_ge (value ▸ min_le_left _ _) free
  have few : PRIORITY_RESERVE priority ≤ 50 := by cases priority <;> decide
  obtain ⟨whole, ceiling⟩ := Int.eq_ofNat_of_zero_le
    (Int.ceil_nonneg (α := ℚ) small.1)
  have wholeSmall : whole ≤ 1000 := by
    have le : ⌈limit.value⌉ ≤ 1000 := Int.ceil_le.mpr (by exact_mod_cast small.2)
    omega
  have sum : Binary64.round (limit.value + PRIORITY_RESERVE priority) ≤ ((whole + 50 : ℕ) : ℚ) := by
    have le := Int.le_ceil limit.value
    rw [ceiling, Int.cast_natCast] at le
    have reserve : (PRIORITY_RESERVE priority : ℚ) ≤ 50 := by exact_mod_cast few
    have nonneg : (0 : ℚ) ≤ PRIORITY_RESERVE priority := Nat.cast_nonneg _
    refine (@round_between 0 (whole + 50) _ (by omega) ?_ ?_).2
    · rw [Nat.cast_zero]
      linarith [small.1]
    · push_cast
      linarith
  have strict : state.active < whole + 50 := by
    have chain := below.trans_le ((value ▸ min_le_right _ _ : allowed.value ≤ _).trans sum)
    exact_mod_cast chain
  rw [ceiling]
  omega

theorem reserve_mono {low high : Priority} (le : low.rank ≤ high.rank) :
    PRIORITY_RESERVE low ≤ PRIORITY_RESERVE high := by
  revert le
  cases low <;> cases high <;> decide

theorem sheds_mono {state : RouteState} (within : Within state.limit) {low high : Priority}
    (le : low.rank ≤ high.rank) (shed : state.sheds high = true) : state.sheds low = true := by
  obtain ⟨limit, known, least, most⟩ := within
  have small : Small limit := ⟨by linarith, most⟩
  obtain ⟨highAllowed, highEq, highValue⟩ := allowedConcurrent_eq known small high
  obtain ⟨lowAllowed, lowEq, lowValue⟩ := allowedConcurrent_eq known small low
  rw [RouteState.sheds, highEq] at shed
  rw [RouteState.sheds, lowEq]
  have reached : highAllowed.value ≤ _ := of_decide_eq_true shed
  have reserve : (PRIORITY_RESERVE low : ℚ) ≤ PRIORITY_RESERVE high := by
    exact_mod_cast reserve_mono le
  have rounded := Binary64.round_mono (add_le_add_right reserve limit.value)
  have lower : lowAllowed.value ≤ highAllowed.value := by
    rw [lowValue, highValue]
    exact min_le_min_left _ rounded
  exact decide_eq_true (lower.trans reached)

end Numbers

/-! ### What a step does -/

section Steps

variable {targetLatencyMs : JsNumeric} {shedder after : Shedder} {outcome : Outcome}

theorem getState_setState (shedder : Shedder) (route other : Route) (state : RouteState) :
    (shedder.setState route state).getState other =
      if other = route then state else shedder.getState other := by
  simp only [Shedder.getState, Shedder.setState, Function.update_apply]
  split_ifs with same
  · rfl
  · rfl

theorem active_setState (shedder : Shedder) (route other : Route) (state : RouteState)
    (flights : List Flight) :
    ({ shedder.setState route state with flights := flights } : Shedder).active other =
      if other = route then state.active else shedder.active other := by
  have there := getState_setState shedder route other state
  rw [Shedder.active, Shedder.active, ← apply_ite RouteState.active, ← there]
  rfl

theorem limit_setState {shedder : Shedder} {route : Route} {state : RouteState}
    {flights : List Flight} (written : Within state.limit)
    (kept : ∀ route, Within (shedder.getState route).limit) (other : Route) :
    Within (({ shedder.setState route state with flights := flights } :
      Shedder).getState other).limit := by
  have there := getState_setState shedder route other state
  have same : ({ shedder.setState route state with flights := flights } : Shedder).getState other =
      (shedder.setState route state).getState other := rfl
  rw [same, there]
  split_ifs
  · exact written
  · exact kept other

inductive Effect (targetLatencyMs : JsNumeric) (shedder : Shedder) : Outcome → Shedder → Prop
  | passed : Effect targetLatencyMs shedder .passed shedder
  | ignored : Effect targetLatencyMs shedder .ignored shedder
  | shed {route : Route} {priority : Priority} (counts : Priority → ℕ)
      (full : (shedder.getState route).sheds priority = true) :
      Effect targetLatencyMs shedder .shed
        (shedder.setState route { shedder.getState route with shed := counts })
  | admitted {route : Route} {priority : Priority} (startedAt : ℤ)
      (free : (shedder.getState route).sheds priority = false) :
      Effect targetLatencyMs shedder (.admitted shedder.flights.length)
        { shedder.setState route (shedder.getState route).admitted with
          flights := shedder.flights ++ [⟨route, startedAt, false, true, true⟩] }
  /-- The second event of a request. -/
  | again {id : FlightId} {flight next : Flight} (found : shedder.flights[id]? = some flight)
      (earlier : flight.released = true) (later : next.released = true)
      (heard : (next.onFinish && next.onClose) = false) :
      Effect targetLatencyMs shedder .ignored
        { shedder with flights := shedder.flights.set id next }
  | released {id : FlightId} {flight next : Flight} (latencyMs : JsNumeric)
      (found : shedder.flights[id]? = some flight) (open_ : flight.released = false)
      (route : next.route = flight.route) (later : next.released = true)
      (heard : (next.onFinish && next.onClose) = false) :
      Effect targetLatencyMs shedder (.released id)
        { shedder.setState flight.route
            ((shedder.getState flight.route).released targetLatencyMs latencyMs) with
          flights := shedder.flights.set id next }

theorem effect_release {id : FlightId} {flight next : Flight}
    (found : shedder.flights[id]? = some flight) (route : next.route = flight.route)
    (same : next.released = flight.released) (heard : (next.onFinish && next.onClose) = false)
    (now : ℤ) :
    Effect targetLatencyMs shedder (release targetLatencyMs shedder id next now).1
      (release targetLatencyMs shedder id next now).2 := by
  unfold release
  cases earlier : flight.released with
  | true =>
    rw [same, earlier, if_pos rfl]
    exact .again found earlier (same.trans earlier) heard
  | false =>
    rw [same, earlier, if_neg Bool.false_ne_true, route]
    exact .released _ found earlier rfl rfl heard

theorem effect_step (event : Event) :
    Effect targetLatencyMs shedder (step targetLatencyMs shedder event).1
      (step targetLatencyMs shedder event).2 := by
  cases event with
  | arrive request now =>
    simp only [step, arrive]
    split_ifs with health full
    · exact .passed
    · exact .shed _ full
    · exact .admitted _ (Bool.eq_false_iff.mpr full)
  | finish id now =>
    simp only [step]
    cases found : shedder.flights[id]? with
    | none => exact .ignored
    | some flight =>
      simp only
      split_ifs
      · exact @effect_release _ _ _ flight { flight with onFinish := false } found rfl rfl rfl
          now
      · exact .ignored
  | close id now =>
    simp only [step]
    cases found : shedder.flights[id]? with
    | none => exact .ignored
    | some flight =>
      simp only
      split_ifs
      · exact @effect_release _ _ _ flight { flight with onClose := false } found rfl rfl
          (Bool.and_false _) now
      · exact .ignored

theorem released_active (state : RouteState) (latencyMs : JsNumeric) :
    (state.released targetLatencyMs latencyMs).active = state.active - 1 := by
  unfold RouteState.released
  simp only
  split_ifs
  · rfl
  · rfl

theorem within_released {state : RouteState} (within : Within state.limit)
    (latencyMs : JsNumeric) : Within (state.released targetLatencyMs latencyMs).limit := by
  unfold RouteState.released
  simp only
  split_ifs
  · exact @within_adapted { state with
      active := state.active - 1
      completed := state.completed + 1
      latencyTotal := .add state.latencyTotal latencyMs } within targetLatencyMs
  · exact within

structure Kept (history : List (Event × Outcome)) (shedder : Shedder) : Prop where
  active : ∀ route, shedder.active route =
    shedder.flights.countP fun flight => flight.route = route && !flight.released
  once : ∀ id, history.countP (fun label => label.2 = .released id) =
    (shedder.flights[id]?.elim false Flight.released).toNat
  heard : ∀ flight ∈ shedder.flights, flight.released = !(flight.onFinish && flight.onClose)
  limit : ∀ route, Within (shedder.getState route).limit

theorem kept_start {limits : Route → Option JsNumeric}
    (within : ∀ route limit, limits route = some limit → Within limit) :
    Kept [] (Shedder.start limits) where
  active route := by
    simp only [Shedder.active, Shedder.getState, Shedder.start]
    cases limits route <;> rfl
  once _ := rfl
  heard _ := nofun
  limit route := by
    simp only [Shedder.getState, Shedder.start]
    cases given : limits route with
    | none => exact within_default
    | some limit => exact within route limit given

theorem countP_snoc (history : List (Event × Outcome)) (event : Event) (id : FlightId) :
    (history ++ [(event, outcome)]).countP (fun label => label.2 = .released id) =
      history.countP (fun label => label.2 = .released id) +
        (decide (outcome = .released id)).toNat := by
  rw [List.countP_append, List.countP_singleton]
  cases decide (outcome = .released id) <;> rfl

theorem released_set {id : FlightId} {flight : Flight} (found : shedder.flights[id]? = some flight)
    (next : Flight) (which : FlightId) :
    ((shedder.flights.set id next)[which]?.elim false Flight.released).toNat =
      if which = id then next.released.toNat
      else (shedder.flights[which]?.elim false Flight.released).toNat := by
  obtain ⟨inside, -⟩ := List.getElem?_eq_some_iff.mp found
  rw [List.getElem?_set]
  split_ifs with same other different
  · rfl
  · exact absurd same.symm other
  · exact absurd different.symm same
  · rfl

section Effects

variable {history : List (Event × Outcome)} {route : Route}

theorem Kept.admit (kept : Kept history shedder) (event : Event) (startedAt : ℤ) :
    Kept (history ++ [(event, .admitted shedder.flights.length)])
      { shedder.setState route (shedder.getState route).admitted with
        flights := shedder.flights ++ [⟨route, startedAt, false, true, true⟩] } := by
  refine ⟨fun other => ?_, fun id => ?_, fun flight listed => ?_,
    limit_setState (kept.limit route) kept.limit⟩
  · rw [List.countP_append, ← kept.active other, List.countP_singleton, active_setState]
    simp only [Bool.not_false, Bool.and_true, decide_eq_true_eq]
    by_cases same : other = route
    · rw [if_pos same, if_pos same.symm, same]
      rfl
    · rw [if_neg same, if_neg (Ne.symm same)]
      rfl
  · rw [countP_snoc, kept.once]
    simp only [reduceCtorEq, decide_false, Bool.toNat_false, add_zero]
    rw [List.getElem?_append]
    split_ifs with inside
    · rfl
    · rw [List.getElem?_eq_none (not_lt.mp inside)]
      cases there : ([⟨route, startedAt, false, true, true⟩] :
          List Flight)[id - shedder.flights.length]? with
      | none => rfl
      | some flight =>
        cases List.mem_singleton.mp (List.mem_of_getElem? there)
        rfl
  · rw [List.mem_append, List.mem_singleton] at listed
    rcases listed with earlier | rfl
    · exact kept.heard flight earlier
    · rfl

theorem Kept.heard_set (kept : Kept history shedder) {next : Flight} (later : next.released = true)
    (heard : (next.onFinish && next.onClose) = false) (id : FlightId) :
    ∀ flight ∈ shedder.flights.set id next,
      flight.released = !(flight.onFinish && flight.onClose) := by
  intro flight there
  rcases List.mem_or_eq_of_mem_set there with old | rfl
  · exact kept.heard flight old
  · rw [later, heard, Bool.not_false]

theorem Kept.again (kept : Kept history shedder) (event : Event) {id : FlightId}
    {flight next : Flight} (found : shedder.flights[id]? = some flight)
    (earlier : flight.released = true) (later : next.released = true)
    (heard : (next.onFinish && next.onClose) = false) :
    Kept (history ++ [(event, .ignored)])
      { shedder with flights := shedder.flights.set id next } := by
  refine ⟨fun other => ?_, fun which => ?_, kept.heard_set later heard id, kept.limit⟩
  · have replaced := countP_set_add found next fun flight =>
      flight.route = other && !flight.released
    have active := kept.active other
    simp only [earlier, later, Bool.not_true, Bool.and_false, Bool.toNat_false] at replaced
    exact active.trans (Nat.add_right_cancel replaced).symm
  · rw [countP_snoc, kept.once, released_set found next which]
    split_ifs with same
    · rw [same, found, Option.elim_some, earlier, later]
      rfl
    · rfl

theorem Kept.release (kept : Kept history shedder) (event : Event) {id : FlightId}
    {flight next : Flight} (latencyMs : JsNumeric) (found : shedder.flights[id]? = some flight)
    (open_ : flight.released = false) (later : next.released = true)
    (heard : (next.onFinish && next.onClose) = false) :
    Kept (history ++ [(event, .released id)])
      { shedder.setState flight.route
          ((shedder.getState flight.route).released targetLatencyMs latencyMs) with
        flights := shedder.flights.set id next } := by
  refine ⟨fun other => ?_, fun which => ?_, kept.heard_set later heard id,
    limit_setState (within_released (kept.limit _) latencyMs) kept.limit⟩
  · have replaced := countP_set_add found next fun flight =>
      flight.route = other && !flight.released
    have active := kept.active other
    simp only [open_, later, Bool.not_true, Bool.and_false, Bool.not_false, Bool.and_true,
      Bool.toNat_false] at replaced
    rw [active_setState, released_active]
    by_cases same : other = flight.route
    · subst same
      rw [decide_eq_true rfl, Bool.toNat_true] at replaced
      rw [if_pos rfl]
      exact (congrArg (· - 1) active).trans (Nat.sub_eq_of_eq_add replaced.symm)
    · rw [decide_eq_false (Ne.symm same), Bool.toNat_false] at replaced
      rw [if_neg same]
      exact active.trans (Nat.add_right_cancel replaced).symm
  · rw [countP_snoc, kept.once, released_set found next which]
    by_cases same : which = id
    · rw [if_pos same, same, found, Option.elim_some, open_, later, decide_eq_true rfl]
      rfl
    · have other : Outcome.released id ≠ .released which := fun equal => by
        cases equal
        exact same rfl
      rw [if_neg same, decide_eq_false other]
      rfl

theorem Kept.effect (kept : Kept history shedder)
    (effect : Effect targetLatencyMs shedder outcome after) (event : Event) :
    Kept (history ++ [(event, outcome)]) after := by
  cases effect with
  | passed | ignored =>
    exact ⟨kept.active, fun id => (countP_snoc history event id).trans (kept.once id),
      kept.heard, kept.limit⟩
  | @shed route priority counts full =>
    refine ⟨fun other => ?_, fun id => (countP_snoc history event id).trans (kept.once id),
      kept.heard, limit_setState (kept.limit route) kept.limit⟩
    have unchanged := active_setState shedder route other
      { shedder.getState route with shed := counts } shedder.flights
    refine unchanged.trans ?_
    split_ifs with same
    · rw [same]
      exact kept.active route
    · exact kept.active other
  | admitted startedAt => exact kept.admit event startedAt
  | again found earlier later heard => exact kept.again event found earlier later heard
  | released latencyMs found open_ _ later heard =>
    exact kept.release event latencyMs found open_ later heard

end Effects

theorem bound_of_effect (limit : ∀ route, Within (shedder.getState route).limit)
    (effect : Effect targetLatencyMs shedder outcome after) (route : Route) :
    after.active route ≤ shedder.active route ∨
      ∃ id number, outcome = .admitted id ∧ (shedder.getState route).limit = some number ∧
        (after.active route : ℤ) ≤ ⌈number.value⌉ + 50 := by
  cases effect with
  | passed | ignored | again => exact .inl le_rfl
  | @shed other priority counts full =>
    have unchanged := active_setState shedder other route
      { shedder.getState other with shed := counts } shedder.flights
    refine .inl (unchanged.trans_le ?_)
    split_ifs with same
    · rw [same]
      exact le_rfl
    · exact le_rfl
  | @admitted other priority startedAt free =>
    rw [active_setState]
    by_cases same : route = other
    · subst same
      obtain ⟨number, known, least, most⟩ := limit route
      have bounded := active_lt_of_not_sheds known ⟨by linarith, most⟩ free
      refine .inr ⟨_, number, rfl, known, ?_⟩
      rw [if_pos rfl]
      exact_mod_cast bounded
    · rw [if_neg same]
      exact .inl le_rfl
  | @released id flight next latencyMs found open_ target later heard =>
    rw [active_setState, released_active]
    refine .inl ?_
    split_ifs with same
    · rw [same]
      exact Nat.sub_le _ _
    · exact le_rfl

theorem not_admitted_of_shed (limit : ∀ route, Within (shedder.getState route).limit)
    {high low : Request} {now : ℤ} (same : classifyRoute high.path = classifyRoute low.path)
    (lower : (tierPriority low).rank < (tierPriority high).rank)
    (shed : (step targetLatencyMs shedder (.arrive high now)).1 = .shed) (id : FlightId) :
    (step targetLatencyMs shedder (.arrive low now)).1 ≠ .admitted id := by
  simp only [step, arrive] at shed ⊢
  split_ifs at shed with health full
  split_ifs with lowHealth lowFull
  · exact nofun
  · exact nofun
  · exact absurd (sheds_mono (limit _) lower.le (same ▸ full)) lowFull

end Steps

/-- A shedder that starts with limits within the bounds counts its active requests, releases each
once, and keeps its limits, whatever arrives and ends. -/
theorem accounts_of_run (targetLatencyMs : JsNumeric) {limits : Route → Option JsNumeric}
    (within : ∀ route limit, limits route = some limit → Within limit)
    {history : List (Event × Outcome)} {shedder : Shedder}
    (run : Run (Steps targetLatencyMs) (.start limits) history shedder) :
    Sound targetLatencyMs history shedder := by
  have kept : Kept history shedder := by
    refine run.induct (P := Kept) (kept_start within) ?_
    intro history label before after _ kept taken
    have effect := @effect_step targetLatencyMs before label.1
    rw [taken] at effect
    exact kept.effect effect label.1
  refine ⟨kept.active, fun id flight found => ?_, kept.limit, fun event route => ?_, ?_⟩
  · have once := kept.once id
    rw [found, Option.elim_some] at once
    refine ⟨once.trans ?_, kept.heard flight (List.mem_of_getElem? found)⟩
    cases flight.released <;> rfl
  · exact bound_of_effect kept.limit (effect_step event) route
  · exact fun high low now same lower shed id =>
      not_admitted_of_shed kept.limit same lower shed id

/-! ### Runs -/

def serve (targetLatencyMs : JsNumeric) (shedder : Shedder) :
    List Event → List (Event × Outcome) × Shedder
  | [] => ([], shedder)
  | event :: events =>
    let next := step targetLatencyMs shedder event
    let rest := serve targetLatencyMs next.2 events
    ((event, next.1) :: rest.1, rest.2)

theorem run_serve (targetLatencyMs : JsNumeric) (shedder : Shedder) (events : List Event) :
    Run (Steps targetLatencyMs) shedder (serve targetLatencyMs shedder events).1
      (serve targetLatencyMs shedder events).2 := by
  induction events generalizing shedder with
  | nil => exact .nil
  | cons event events ih =>
    have first : Run (Steps targetLatencyMs) shedder
        [(event, (step targetLatencyMs shedder event).1)]
        (step targetLatencyMs shedder event).2 := Run.one rfl
    exact first.append (ih _)

def halfLimits : Route → Option JsNumeric := fun _ => some (some (.ofRat (11 / 2)))

theorem within_halfLimits : ∀ route limit, halfLimits route = some limit → Within limit := by
  rintro route limit same
  cases same
  exact ⟨_, rfl, by decide +kernel, by decide +kernel⟩

def adminArrival : Event :=
  .arrive ⟨js "GET", js "/api/admin", some ⟨none, some (js "static-admin-key")⟩⟩ 0

theorem sound_arrivals :
    Sound (.ofNat 500)
      (serve (.ofNat 500) (.start halfLimits) [adminArrival, .finish 0 800, .close 0 800]).1
      (serve (.ofNat 500) (.start halfLimits) [adminArrival, .finish 0 800, .close 0 800]).2 :=
  accounts_of_run _ within_halfLimits (run_serve _ _ _)

/-- With a limit of 5.5 the 56th administrator is admitted, which is more than 5.5 and 50. -/
theorem fractional_limit_exceeded :
    (∀ route limit, halfLimits route = some limit → Within limit) ∧
      ∃ history shedder, Run (Steps (.ofNat 500)) (.start halfLimits) history shedder ∧
        ∃ id number, (step (.ofNat 500) shedder adminArrival).1 = .admitted id ∧
          (shedder.getState .admin).limit = some number ∧
          number.value + 50 < (step (.ofNat 500) shedder adminArrival).2.active .admin :=
  ⟨within_halfLimits, _, _, run_serve _ _ (List.replicate 55 adminArrival), 55, .ofRat (11 / 2),
    by decide +kernel, by decide +kernel, by decide +kernel⟩

end LoadShedder

end SorobanExplorer.Indexer
