import SorobanExplorer.Library.Run
import Mathlib.Data.Rat.Floor
import Mathlib.Logic.Function.Basic
import Mathlib.Tactic.Linarith

/-!
Owns the usage accounting: requests count into the counters of their key and day, and flush runs,
which may overlap, move what they read into the row of that day and delete the counters they read.

Nothing keeps a request from counting between the read and the deletion, or two runs from moving
the same counter; the row rounds megabytes to thousandths; and the endpoint distribution takes the
last count of a group, not the sum.
-/

namespace SorobanExplorer.Indexer.UsageTracker

open Library

structure Bucket where
  keyId : String
  date : String
deriving DecidableEq

inductive Metric where
  | totalRequests
  | dataTransferBytes
  | rateLimitHits
  | endpoint (group : String)
deriving DecidableEq

/-- `usage:{keyId}:{date}:{metric}`. Neither a UUID nor a date contains a colon. -/
structure Key where
  bucket : Bucket
  metric : Metric
deriving DecidableEq

/-! ### Requests -/

def ENDPOINT_GROUP_DEFINITIONS : List (String × List String) :=
  [("websocket", ["/ws", "/socket", "/api/ws", "/api/socket"]),
   ("simulate", ["/api/simulate", "/api/sandbox/simulate"]),
   ("contracts", ["/api/contracts", "/api/v1/contracts", "/api/spec", "/api/verify"]),
   ("search", ["/api/search", "/api/wallet"]),
   ("events", ["/api/events", "/api/v1/events"])]

/-- The path of a request has no characters beyond Latin-1, and `toLowerCase` takes none of these
to a letter of a pattern that is not one already. -/
def resolveEndpointGroup (path : String) : String :=
  let normalised := path.toList.map Char.toLower
  let matching (pattern : String) : Bool :=
    normalised == pattern.toList || (pattern ++ "/").toList.isPrefixOf normalised ||
      (pattern ++ "?").toList.isPrefixOf normalised
  match ENDPOINT_GROUP_DEFINITIONS.find? fun group => group.2.any matching with
  | some group => group.1
  | none => "default"

/-- `responseBytes` is `none` where it is not a number. -/
structure Request where
  keyId : Option String
  endpoint : String
  responseBytes : Option ℚ
  isRateLimited : Bool

namespace Request

/-- `Math.max(0, Math.floor(responseBytes) || 0)` -/
def bytes (request : Request) : ℕ :=
  match request.responseBytes with
  | some count => ⌊count⌋.toNat
  | none => 0

/-- What the pipeline adds to a counter; a counter that it does not touch is `none`. -/
def increment (request : Request) : Metric → Option ℕ
  | .totalRequests => some 1
  | .dataTransferBytes => some request.bytes
  | .rateLimitHits => if request.isRateLimited then some 1 else none
  | .endpoint group => if group = resolveEndpointGroup request.endpoint then some 1 else none

/-- `increment` as a number. -/
def count (request : Request) (metric : Metric) : ℕ := (request.increment metric).getD 0

end Request

/-! ### The row of a day -/

/-- A row of `api_key_usage_daily`. -/
structure Row where
  totalRequests : ℕ
  endpointDistribution : String → Option ℕ
  dataTransferMb : ℚ
  rateLimitHits : ℕ

/-- A value as `NUMERIC(12,3)` keeps it: rounded to thousandths, halves away from zero. -/
def numeric (value : ℚ) : ℚ := ⌊value * 1000 + 1 / 2⌋ / 1000

def excluded (metrics : List Metric) (values : Metric → ℕ) : Row where
  totalRequests := if .totalRequests ∈ metrics then values .totalRequests else 0
  endpointDistribution group :=
    if .endpoint group ∈ metrics then some (values (.endpoint group)) else none
  dataTransferMb :=
    numeric ((if .dataTransferBytes ∈ metrics then values .dataTransferBytes else 0 : ℕ) /
      (1024 * 1024))
  rateLimitHits := if .rateLimitHits ∈ metrics then values .rateLimitHits else 0

/-- `ON CONFLICT (api_key_id, date) DO UPDATE`. The operator `||` of two objects prefers the second
one's member. -/
def upsert (row : Option Row) (excluded : Row) : Row :=
  match row with
  | none => excluded
  | some row =>
    { totalRequests := row.totalRequests + excluded.totalRequests
      endpointDistribution := fun group =>
        (excluded.endpointDistribution group).or (row.endpointDistribution group)
      dataTransferMb := row.dataTransferMb + excluded.dataTransferMb
      rateLimitHits := row.rateLimitHits + excluded.rateLimitHits }

def stored (row : Option Row) (metric : Metric) : ℚ :=
  match row with
  | none => 0
  | some row =>
    match metric with
    | .totalRequests => row.totalRequests
    | .dataTransferBytes => row.dataTransferMb * (1024 * 1024)
    | .rateLimitHits => row.rateLimitHits
    | .endpoint group => ((row.endpointDistribution group).getD 0 : ℕ)

/-! ### Flush runs -/

abbrev Buckets := List (Bucket × List Metric)

/-- `buckets.get(bucketKey).keys.push(k)` -/
def push : Buckets → Key → Buckets
  | [], key => [(key.bucket, [key.metric])]
  | (bucket, metrics) :: buckets, key =>
    if bucket = key.bucket then (bucket, metrics ++ [key.metric]) :: buckets
    else (bucket, metrics) :: push buckets key

inductive Flush where
  | idle
  | scanning (usageKeys : List Key)
  | next (buckets : Buckets)
  | read (bucket : Bucket) (metrics : List Metric) (values : Metric → ℕ) (buckets : Buckets)
  | upserted (bucket : Bucket) (metrics : List Metric) (buckets : Buckets)

abbrev RunId := ℕ

/-- Beside the counters, the rows and the runs of all instances stands what was recorded. -/
structure State where
  counters : Bucket → Metric → Option ℕ
  rows : Bucket → Option Row
  runs : RunId → Flush
  recorded : Bucket → Metric → ℕ

inductive Action where
  | recordRequest (request : Request) (date : String)
  | begin (run : RunId)
  | scan (run : RunId) (page : List Key)
  | group (run : RunId)
  | read (run : RunId)
  | upsert (run : RunId)
  | upsertFailed (run : RunId)
  | delete (run : RunId)
  | stop (run : RunId)

namespace State

def start : State := ⟨fun _ _ => none, fun _ => none, fun _ => .idle, fun _ _ => 0⟩

/-- `Number(values[i]) || 0` -/
def value (state : State) (bucket : Bucket) (metric : Metric) : ℕ :=
  (state.counters bucket metric).getD 0

def setRun (state : State) (run : RunId) (flush : Flush) : State :=
  { state with runs := Function.update state.runs run flush }

def recordRequest (state : State) (request : Request) (date : String) : State :=
  match request.keyId with
  | none => state
  | some keyId =>
    { state with
      counters := Function.update state.counters ⟨keyId, date⟩ fun metric =>
        match request.increment metric with
        | some count => some (state.value ⟨keyId, date⟩ metric + count)
        | none => state.counters ⟨keyId, date⟩ metric
      recorded := Function.update state.recorded ⟨keyId, date⟩ fun metric =>
        state.recorded ⟨keyId, date⟩ metric + request.count metric }

def upsert (state : State) (bucket : Bucket) (row : Row) : State :=
  { state with
    rows := Function.update state.rows bucket
      (some (UsageTracker.upsert (state.rows bucket) row)) }

/-- `redis.del(keys)` -/
def del (state : State) (bucket : Bucket) (metrics : List Metric) : State :=
  { state with
    counters := Function.update state.counters bucket fun metric =>
      if metric ∈ metrics then none else state.counters bucket metric }

end State

/-- Redis decides which keys a page of the scan holds and when the scan is over. A run stops early
where Redis or the instance fails, but not between the upsert and the deletion. -/
inductive Step : State → Action → State → Prop
  | recordRequest {state : State} (request : Request) (date : String) :
      Step state (.recordRequest request date) (state.recordRequest request date)
  | begin {state : State} {run : RunId} (idle : state.runs run = .idle) :
      Step state (.begin run) (state.setRun run (.scanning []))
  | scan {state : State} {run : RunId} {usageKeys page : List Key}
      (scanning : state.runs run = .scanning usageKeys)
      (present : ∀ key ∈ page, state.counters key.bucket key.metric ≠ none) :
      Step state (.scan run page) (state.setRun run (.scanning (usageKeys ++ page)))
  | group {state : State} {run : RunId} {usageKeys : List Key}
      (scanning : state.runs run = .scanning usageKeys) :
      Step state (.group run) (state.setRun run (.next (usageKeys.foldl push [])))
  | read {state : State} {run : RunId} {bucket : Bucket} {metrics : List Metric}
      {buckets : Buckets} (next : state.runs run = .next ((bucket, metrics) :: buckets)) :
      Step state (.read run)
        (state.setRun run (.read bucket metrics (state.value bucket) buckets))
  | upsert {state : State} {run : RunId} {bucket : Bucket} {metrics : List Metric}
      {values : Metric → ℕ} {buckets : Buckets}
      (read : state.runs run = .read bucket metrics values buckets) :
      Step state (.upsert run)
        ((state.upsert bucket (excluded metrics values)).setRun run
          (.upserted bucket metrics buckets))
  | upsertFailed {state : State} {run : RunId} {bucket : Bucket} {metrics : List Metric}
      {values : Metric → ℕ} {buckets : Buckets}
      (read : state.runs run = .read bucket metrics values buckets) :
      Step state (.upsertFailed run) (state.setRun run (.next buckets))
  | delete {state : State} {run : RunId} {bucket : Bucket} {metrics : List Metric}
      {buckets : Buckets} (upserted : state.runs run = .upserted bucket metrics buckets) :
      Step state (.delete run) ((state.del bucket metrics).setRun run (.next buckets))
  | stop {state : State} {run : RunId}
      (apart : ∀ bucket metrics buckets, state.runs run ≠ .upserted bucket metrics buckets) :
      Step state (.stop run) (state.setRun run .idle)

theorem deterministic : Deterministic Step := by
  intro before action first second one two
  cases one with
  | recordRequest | begin | stop =>
    cases two
    rfl
  | scan pending =>
    cases two with
    | scan other =>
      cases pending.symm.trans other
      rfl
  | group pending =>
    cases two with
    | group other =>
      cases pending.symm.trans other
      rfl
  | read pending =>
    cases two with
    | read other =>
      cases pending.symm.trans other
      rfl
  | upsert pending =>
    cases two with
    | upsert other =>
      cases pending.symm.trans other
      rfl
  | upsertFailed pending =>
    cases two with
    | upsertFailed other =>
      cases pending.symm.trans other
      rfl
  | delete pending =>
    cases two with
    | delete other =>
      cases pending.symm.trans other
      rfl

/-! ### What the books say -/

namespace Flush

def Holds (flush : Flush) (bucket : Bucket) (metric : Metric) : Prop :=
  match flush with
  | .read held metrics _ _ | .upserted held metrics _ => held = bucket ∧ metric ∈ metrics
  | _ => False

def Moved (flush : Flush) (bucket : Bucket) (metric : Metric) : Prop :=
  match flush with
  | .upserted held metrics _ => held = bucket ∧ metric ∈ metrics
  | _ => False

variable {flush : Flush} {bucket : Bucket} {metric : Metric}

theorem Moved.holds (moved : flush.Moved bucket metric) : flush.Holds bucket metric := by
  cases flush with
  | upserted => exact moved
  | idle | scanning | next | read => exact moved.elim

end Flush

namespace State

def Settled (state : State) (bucket : Bucket) : Prop :=
  ∀ run metrics buckets, state.runs run ≠ .upserted bucket metrics buckets

def Sound (state : State) : Prop :=
  ∀ bucket, state.Settled bucket → ∀ metric,
    stored (state.rows bucket) metric + state.value bucket metric = state.recorded bucket metric

/-- Nothing counts in a counter that a run holds; a counter that counts is read by one run at a
time; and an upsert finds no count of its groups and has whole thousandths of a megabyte. -/
def Undisturbed (state : State) : Action → Prop
  | .recordRequest request date => ∀ keyId, request.keyId = some keyId → ∀ metric,
      request.count metric ≠ 0 → ∀ run, ¬ (state.runs run).Holds ⟨keyId, date⟩ metric
  | .read run => ∀ bucket metrics buckets,
      state.runs run = .next ((bucket, metrics) :: buckets) → ∀ metric ∈ metrics,
        state.value bucket metric ≠ 0 → ∀ other, ¬ (state.runs other).Holds bucket metric
  | .upsert run => ∀ bucket metrics values buckets,
      state.runs run = .read bucket metrics values buckets →
        (∀ group, .endpoint group ∈ metrics → stored (state.rows bucket) (.endpoint group) = 0) ∧
          (.dataTransferBytes ∈ metrics → 2 ^ 17 ∣ values .dataTransferBytes)
  | _ => True

end State

/-! ### One upsert -/

theorem numeric_exact_iff (bytes : ℕ) :
    numeric (bytes / (1024 * 1024)) * (1024 * 1024) = bytes ↔ 2 ^ 17 ∣ bytes := by
  unfold numeric
  constructor
  · intro exact_
    have whole : ⌊(bytes : ℚ) / (1024 * 1024) * 1000 + 1 / 2⌋ * 2 ^ 17 = 125 * (bytes : ℤ) := by
      have scaled : ((⌊(bytes : ℚ) / (1024 * 1024) * 1000 + 1 / 2⌋ : ℤ) : ℚ) * 2 ^ 17 =
          125 * bytes := by
        linarith
      exact_mod_cast scaled
    omega
  · rintro ⟨eighths, rfl⟩
    have scaled : ((2 ^ 17 * eighths : ℕ) : ℚ) / (1024 * 1024) * 1000 + 1 / 2 =
        ((125 * eighths : ℤ) : ℚ) + 1 / 2 := by
      push_cast
      linarith
    rw [scaled, Int.floor_intCast_add]
    norm_num
    linarith

section Upsert

variable {row : Option Row} {metrics : List Metric} {values : Metric → ℕ}

theorem stored_upsert
    (fresh : ∀ group, .endpoint group ∈ metrics → stored row (.endpoint group) = 0)
    (whole : .dataTransferBytes ∈ metrics → 2 ^ 17 ∣ values .dataTransferBytes) (metric : Metric) :
    stored (some (upsert row (excluded metrics values))) metric =
      stored row metric + (if metric ∈ metrics then values metric else 0 : ℕ) := by
  cases metric with
  | totalRequests | rateLimitHits =>
    cases row with
    | none => simp [stored, upsert, excluded]
    | some row => simp [stored, upsert, excluded]
  | dataTransferBytes =>
    have kept : numeric ((if .dataTransferBytes ∈ metrics then values .dataTransferBytes else 0 :
        ℕ) / (1024 * 1024)) * (1024 * 1024) =
          (if .dataTransferBytes ∈ metrics then values .dataTransferBytes else 0 : ℕ) := by
      rw [numeric_exact_iff]
      split
      · next read => exact whole read
      · exact dvd_zero _
    cases row with
    | none => exact kept.trans (zero_add _).symm
    | some row =>
      change (row.dataTransferMb + numeric (_ / _)) * _ = row.dataTransferMb * _ + _
      rw [add_mul, kept]
  | endpoint group =>
    by_cases read : .endpoint group ∈ metrics
    · rw [fresh group read, zero_add]
      cases row with
      | none => simp [stored, upsert, excluded, read]
      | some row => simp [stored, upsert, excluded, read]
    · cases row with
      | none => simp [stored, upsert, excluded, read]
      | some row => simp [stored, upsert, excluded, read]

end Upsert

/-! ### One step -/

namespace State

section SetRun

variable {state : State} {run other : RunId} {flush : Flush} {bucket : Bucket} {metric : Metric}

theorem runs_setRun_self : (state.setRun run flush).runs run = flush := Function.update_self ..

theorem runs_setRun_of_ne (distinct : other ≠ run) :
    (state.setRun run flush).runs other = state.runs other :=
  Function.update_of_ne distinct ..

theorem holds_setRun (holds : ((state.setRun run flush).runs other).Holds bucket metric) :
    other = run ∧ flush.Holds bucket metric ∨
      other ≠ run ∧ (state.runs other).Holds bucket metric := by
  obtain rfl | distinct := eq_or_ne other run
  · rw [runs_setRun_self] at holds
    exact .inl ⟨rfl, holds⟩
  · rw [runs_setRun_of_ne distinct] at holds
    exact .inr ⟨distinct, holds⟩

theorem moved_setRun (moved : ((state.setRun run flush).runs other).Moved bucket metric) :
    other = run ∧ flush.Moved bucket metric ∨
      other ≠ run ∧ (state.runs other).Moved bucket metric := by
  obtain rfl | distinct := eq_or_ne other run
  · rw [runs_setRun_self] at moved
    exact .inl ⟨rfl, moved⟩
  · rw [runs_setRun_of_ne distinct] at moved
    exact .inr ⟨distinct, moved⟩

theorem unmoved_of_setRun (own : ¬ (state.runs run).Moved bucket metric)
    (still : ∀ other, ¬ ((state.setRun run flush).runs other).Moved bucket metric) :
    ∀ other, ¬ (state.runs other).Moved bucket metric := by
  intro other moved
  obtain rfl | distinct := eq_or_ne other run
  · exact own moved
  · refine still other ?_
    rwa [runs_setRun_of_ne distinct]

end SetRun

/-- The books of every counter: what no run has moved is in the row or still counts, what a run
has moved is in the row, and what two runs hold counts nothing. -/
structure Kept (state : State) : Prop where
  balanced : ∀ bucket metric, (∀ run, ¬ (state.runs run).Moved bucket metric) →
    stored (state.rows bucket) metric + state.value bucket metric = state.recorded bucket metric
  moved : ∀ run bucket metric, (state.runs run).Moved bucket metric →
    stored (state.rows bucket) metric = state.recorded bucket metric
  shared : ∀ run other bucket metric, run ≠ other → (state.runs run).Holds bucket metric →
    (state.runs other).Holds bucket metric → state.value bucket metric = 0
  read : ∀ run bucket metrics values buckets,
    state.runs run = .read bucket metrics values buckets → ∀ metric ∈ metrics,
      values metric = state.value bucket metric

variable {state before after : State} {run : RunId} {bucket : Bucket} {metric : Metric}
  {metrics : List Metric} {values : Metric → ℕ} {buckets : Buckets}

namespace Kept

theorem start : Kept State.start where
  balanced _ _ _ := by
    change (0 : ℚ) + ((0 : ℕ) : ℚ) = ((0 : ℕ) : ℚ)
    rw [Nat.cast_zero, zero_add]
  moved _ _ _ := nofun
  shared _ _ _ _ _ := nofun
  read _ _ _ _ _ := nofun

theorem sound (kept : state.Kept) : state.Sound := by
  intro bucket settled metric
  refine kept.balanced bucket metric fun run moved => ?_
  unfold Flush.Moved at moved
  split at moved
  · next held metrics buckets upserted =>
      cases moved.1
      exact settled run metrics buckets upserted
  · exact moved

theorem value_recordRequest {keyId date : String} (request : Request)
    (known : request.keyId = some keyId) :
    (state.recordRequest request date).value bucket metric = state.value bucket metric +
      (if bucket = ⟨keyId, date⟩ then request.count metric else 0) := by
  unfold State.recordRequest State.value
  rw [known]
  dsimp only
  split
  · next same =>
      cases same
      rw [Function.update_self]
      unfold Request.count
      cases request.increment metric with
      | none => rfl
      | some count => rfl
  · next other => rw [Function.update_of_ne other, add_zero]

theorem recorded_recordRequest {keyId date : String} (request : Request)
    (known : request.keyId = some keyId) :
    (state.recordRequest request date).recorded bucket metric = state.recorded bucket metric +
      (if bucket = ⟨keyId, date⟩ then request.count metric else 0) := by
  unfold State.recordRequest
  rw [known]
  dsimp only
  split
  · next same =>
      cases same
      rw [Function.update_self]
  · next other => rw [Function.update_of_ne other, add_zero]

theorem rows_recordRequest (state : State) (request : Request) (date : String) :
    (state.recordRequest request date).rows = state.rows ∧
      (state.recordRequest request date).runs = state.runs := by
  unfold State.recordRequest
  split
  · exact ⟨rfl, rfl⟩
  · exact ⟨rfl, rfl⟩

theorem recordRequest (kept : state.Kept) (request : Request) (date : String)
    (undisturbed : state.Undisturbed (.recordRequest request date)) :
    (state.recordRequest request date).Kept := by
  cases known : request.keyId with
  | none =>
    unfold State.recordRequest
    rw [known]
    exact kept
  | some keyId =>
    obtain ⟨sameRows, sameRuns⟩ := rows_recordRequest state request date
    have untouched : ∀ run bucket metric, (state.runs run).Holds bucket metric →
        (if bucket = ⟨keyId, date⟩ then request.count metric else 0) = 0 := by
      intro run bucket metric holds
      split
      · next same =>
          by_contra counts
          exact undisturbed keyId known metric counts run (same ▸ holds)
      · rfl
    constructor
    · intro bucket metric unmoved
      rw [sameRuns] at unmoved
      rw [sameRows, value_recordRequest request known, recorded_recordRequest request known,
        Nat.cast_add, Nat.cast_add, ← add_assoc, kept.balanced bucket metric unmoved]
    · intro run bucket metric moved
      rw [sameRuns] at moved
      rw [sameRows, recorded_recordRequest request known, untouched run bucket metric moved.holds,
        add_zero]
      exact kept.moved run bucket metric moved
    · intro run other bucket metric distinct holds also
      rw [sameRuns] at holds also
      rw [value_recordRequest request known, untouched run bucket metric holds, add_zero]
      exact kept.shared run other bucket metric distinct holds also
    · intro run bucket metrics values buckets reading metric listed
      rw [sameRuns] at reading
      have holds : (state.runs run).Holds bucket metric := by
        rw [reading]
        exact ⟨rfl, listed⟩
      rw [value_recordRequest request known, untouched run bucket metric holds, add_zero]
      exact kept.read run bucket metrics values buckets reading metric listed

theorem release (kept : state.Kept) {flush : Flush}
    (unmoved : ∀ bucket metric, ¬ (state.runs run).Moved bucket metric)
    (free : ∀ bucket metric, ¬ flush.Holds bucket metric) : (state.setRun run flush).Kept := by
  have holds_of : ∀ other bucket metric, ((state.setRun run flush).runs other).Holds bucket metric →
      other ≠ run ∧ (state.runs other).Holds bucket metric :=
    fun _ bucket metric holds =>
      (holds_setRun holds).resolve_left fun own => free bucket metric own.2
  constructor
  · intro bucket metric still
    exact kept.balanced bucket metric (unmoved_of_setRun (unmoved bucket metric) still)
  · intro other bucket metric moved
    rw [runs_setRun_of_ne (holds_of other bucket metric moved.holds).1] at moved
    exact kept.moved other bucket metric moved
  · intro one other bucket metric distinct holds also
    exact kept.shared one other bucket metric distinct (holds_of one bucket metric holds).2
      (holds_of other bucket metric also).2
  · intro other bucket metrics values buckets reading metric listed
    have distinct : other ≠ run := by
      refine (holds_of other bucket metric ?_).1
      rw [reading]
      exact ⟨rfl, listed⟩
    rw [runs_setRun_of_ne distinct] at reading
    exact kept.read other bucket metrics values buckets reading metric listed

theorem readBucket (kept : state.Kept)
    (next : state.runs run = .next ((bucket, metrics) :: buckets))
    (undisturbed : state.Undisturbed (.read run)) :
    (state.setRun run (.read bucket metrics (state.value bucket) buckets)).Kept := by
  have alone := undisturbed bucket metrics buckets next
  -- What another run holds of the bucket counts nothing.
  have empty : ∀ other held metric,
      (Flush.read bucket metrics (state.value bucket) buckets).Holds held metric →
        (state.runs other).Holds held metric → state.value held metric = 0 := by
    intro other held metric listed holds
    obtain ⟨rfl, listed⟩ := listed
    by_contra counts
    exact alone metric listed counts other holds
  constructor
  · intro held metric still
    refine kept.balanced held metric (unmoved_of_setRun (fun moved => ?_) still)
    rw [next] at moved
    exact moved
  · intro other held metric moved
    obtain ⟨-, never⟩ | ⟨-, moved⟩ := moved_setRun moved
    · exact never.elim
    · exact kept.moved other held metric moved
  · intro one other held metric distinct holds also
    change state.value held metric = 0
    obtain ⟨rfl, listed⟩ | ⟨-, before⟩ := holds_setRun holds
    · rw [runs_setRun_of_ne distinct.symm] at also
      exact empty other held metric listed also
    · obtain ⟨rfl, listed⟩ | ⟨-, alsoBefore⟩ := holds_setRun also
      · exact empty one held metric listed before
      · exact kept.shared one other held metric distinct before alsoBefore
  · intro other held others values rest reading metric listed
    change values metric = state.value held metric
    obtain rfl | distinct := eq_or_ne other run
    · rw [runs_setRun_self] at reading
      cases reading
      rfl
    · rw [runs_setRun_of_ne distinct] at reading
      exact kept.read other held others values rest reading metric listed

theorem upsert (kept : state.Kept) (read : state.runs run = .read bucket metrics values buckets)
    (undisturbed : state.Undisturbed (.upsert run)) :
    ((state.upsert bucket (excluded metrics values)).setRun run
      (.upserted bucket metrics buckets)).Kept := by
  obtain ⟨fresh, whole⟩ := undisturbed bucket metrics values buckets read
  have added := stored_upsert fresh whole
  have unmoved : ∀ held metric, ¬ (state.runs run).Moved held metric := by
    intro held metric moved
    rw [read] at moved
    exact moved
  have holds_eq : ∀ other, (((state.upsert bucket (excluded metrics values)).setRun run
      (.upserted bucket metrics buckets)).runs other).Holds = (state.runs other).Holds := by
    intro other
    obtain rfl | distinct := eq_or_ne other run
    · rw [runs_setRun_self, read]
      rfl
    · rw [runs_setRun_of_ne distinct]
      rfl
  constructor
  · intro held metric still
    have balanced := kept.balanced held metric (unmoved_of_setRun (unmoved held metric) still)
    obtain rfl | apart := eq_or_ne held bucket
    · have unlisted : metric ∉ metrics := by
        intro listed
        refine still run ?_
        rw [runs_setRun_self]
        exact ⟨rfl, listed⟩
      change stored (Function.update state.rows held _ held) metric + _ = _
      rw [Function.update_self, added, if_neg unlisted, Nat.cast_zero, add_zero]
      exact balanced
    · change stored (Function.update state.rows bucket _ held) metric + _ = _
      rw [Function.update_of_ne apart]
      exact balanced
  · intro other held metric moved
    obtain rfl | apart := eq_or_ne held bucket
    · change stored (Function.update state.rows held _ held) metric = _
      rw [Function.update_self, added]
      split
      · next listed =>
          rw [kept.read run held metrics values buckets read metric listed]
          by_cases before : ∃ earlier, (state.runs earlier).Moved held metric
          · obtain ⟨earlier, moved⟩ := before
            have distinct : run ≠ earlier := by
              rintro rfl
              exact unmoved held metric moved
            have holds : (state.runs run).Holds held metric := by
              rw [read]
              exact ⟨rfl, listed⟩
            rw [kept.shared run earlier held metric distinct holds moved.holds, Nat.cast_zero,
              add_zero]
            exact kept.moved earlier held metric moved
          · exact kept.balanced held metric (not_exists.mp before)
      · next unlisted =>
          rw [Nat.cast_zero, add_zero]
          obtain ⟨-, own⟩ | ⟨-, moved⟩ := moved_setRun moved
          · exact absurd own.2 unlisted
          · exact kept.moved other held metric moved
    · change stored (Function.update state.rows bucket _ held) metric = _
      rw [Function.update_of_ne apart]
      obtain ⟨-, own⟩ | ⟨-, moved⟩ := moved_setRun moved
      · exact absurd own.1.symm apart
      · exact kept.moved other held metric moved
  · intro one other held metric distinct holds also
    rw [holds_eq] at holds also
    exact kept.shared one other held metric distinct holds also
  · intro other held others amounts rest reading metric listed
    obtain rfl | distinct := eq_or_ne other run
    · rw [runs_setRun_self] at reading
      nomatch reading
    · rw [runs_setRun_of_ne distinct] at reading
      exact kept.read other held others amounts rest reading metric listed

theorem value_del {held : Bucket} : (state.del bucket metrics).value held metric =
    if held = bucket ∧ metric ∈ metrics then 0 else state.value held metric := by
  unfold del value
  obtain rfl | apart := eq_or_ne held bucket
  · dsimp only
    rw [Function.update_self]
    by_cases listed : metric ∈ metrics
    · rw [if_pos listed, if_pos ⟨rfl, listed⟩]
      rfl
    · rw [if_neg listed, if_neg fun both => listed both.2]
  · dsimp only
    rw [Function.update_of_ne apart, if_neg fun both => apart both.1]

theorem delete (kept : state.Kept) (upserted : state.runs run = .upserted bucket metrics buckets) :
    ((state.del bucket metrics).setRun run (.next buckets)).Kept := by
  have value_of : ∀ held metric, ((state.del bucket metrics).setRun run (.next buckets)).value held
      metric = if held = bucket ∧ metric ∈ metrics then 0 else state.value held metric :=
    fun _ _ => value_del
  have moved_run : ∀ metric ∈ metrics, (state.runs run).Moved bucket metric := by
    intro metric listed
    rw [upserted]
    exact ⟨rfl, listed⟩
  have holds_of : ∀ other held metric, (((state.del bucket metrics).setRun run
      (.next buckets)).runs other).Holds held metric →
        other ≠ run ∧ (state.runs other).Holds held metric :=
    fun _ _ _ holds => (holds_setRun holds).resolve_left fun own => own.2.elim
  constructor
  · intro held metric still
    rw [value_of]
    split
    · next deleted =>
        cases deleted.1
        rw [Nat.cast_zero, add_zero]
        exact kept.moved run bucket metric (moved_run metric deleted.2)
    · next remains =>
        refine kept.balanced held metric (unmoved_of_setRun (fun moved => ?_) still)
        rw [upserted] at moved
        exact remains ⟨moved.1.symm, moved.2⟩
  · intro other held metric moved
    rw [runs_setRun_of_ne (holds_of other held metric moved.holds).1] at moved
    exact kept.moved other held metric moved
  · intro one other held metric distinct holds also
    have before := kept.shared one other held metric distinct (holds_of one held metric holds).2
      (holds_of other held metric also).2
    rw [value_of, before, ite_self]
  · intro other held others amounts rest reading metric listed
    have holds := holds_of other held metric (by rw [reading]; exact ⟨rfl, listed⟩)
    rw [runs_setRun_of_ne holds.1] at reading
    rw [value_of, kept.read other held others amounts rest reading metric listed]
    split
    · next deleted =>
        cases deleted.1
        exact kept.shared other run bucket metric holds.1 holds.2 (moved_run metric deleted.2).holds
    · rfl

theorem step {action : Action} (kept : before.Kept) (undisturbed : before.Undisturbed action)
    (taken : Step before action after) : after.Kept := by
  cases taken with
  | recordRequest request date => exact kept.recordRequest request date undisturbed
  | begin current | scan current | group current =>
    refine kept.release (fun bucket metric moved => ?_) fun _ _ => id
    rw [current] at moved
    exact moved
  | read next => exact kept.readBucket next undisturbed
  | upsert read => exact kept.upsert read undisturbed
  | upsertFailed read =>
    refine kept.release (fun bucket metric moved => ?_) fun _ _ => id
    rw [read] at moved
    exact moved
  | delete upserted => exact kept.delete upserted
  | stop apart =>
    refine kept.release (fun bucket metric moved => ?_) fun _ _ => id
    unfold Flush.Moved at moved
    split at moved
    · next upserted => exact apart _ _ _ upserted
    · exact moved

end Kept

end State

/-! ### Whole runs -/

/-- The books are right in every run in which nothing counts in a counter that a flush run holds,
no two flush runs read the same count, and every upsert finds its groups without a count and whole
eighths of a megabyte. -/
theorem accounted_of_eachStep {actions : List Action}
    (each : EachStep Step .start actions State.Undisturbed) :
    Along Step .start actions fun _ state => state.Sound := by
  have along : Along Step .start actions fun _ state => state.Kept :=
    each.along State.Kept.start fun _ _ _ _ _ kept undisturbed taken => kept.step undisturbed taken
  exact fun history isPrefix state run => (along history isPrefix state run).sound

def request : Request := ⟨some "key", "/api/events", some 131072, false⟩

def page : List Key :=
  [⟨⟨"key", "2025-01-01"⟩, .totalRequests⟩, ⟨⟨"key", "2025-01-01"⟩, .dataTransferBytes⟩,
    ⟨⟨"key", "2025-01-01"⟩, .endpoint "events"⟩]

def flushed : List Action :=
  [.recordRequest request "2025-01-01", .begin 0, .scan 0 page, .group 0, .read 0, .upsert 0,
    .delete 0]

def interrupted : List Action :=
  [.recordRequest request "2025-01-01", .begin 0, .scan 0 page, .group 0, .read 0,
    .recordRequest request "2025-01-01", .upsert 0, .delete 0]

theorem flushed_accounted : ∃ final, Run Step .start flushed final ∧
    Along Step .start flushed fun _ state => state.Sound := by
  have recorded := EachStep.extend deterministic ⟨Run.nil, EachStep.nil⟩
    (show State.Undisturbed .start (.recordRequest request "2025-01-01") from
      fun _ _ _ _ _ => id) (.recordRequest request "2025-01-01")
  have begun := EachStep.extend deterministic recorded
    (show State.Undisturbed _ (.begin 0) from trivial) (.begin rfl)
  have scanned := EachStep.extend deterministic begun
    (show State.Undisturbed _ (.scan 0 page) from trivial) (.scan rfl (by decide +kernel))
  have grouped := EachStep.extend deterministic scanned
    (show State.Undisturbed _ (.group 0) from trivial) (.group rfl)
  have read := EachStep.extend deterministic grouped
    (show State.Undisturbed _ (.read 0) from
      fun bucket metrics buckets next metric listed counts other => by
        obtain rfl | distinct := eq_or_ne other 0
        · exact id
        · simp [State.setRun, distinct, State.recordRequest, State.start, Flush.Holds, request])
    (.read rfl)
  have upserted := EachStep.extend deterministic read
    (show State.Undisturbed _ (.upsert 0) from fun bucket metrics values buckets reading => by
      cases reading
      exact ⟨fun _ _ => rfl, fun _ => by decide +kernel⟩)
    (.upsert rfl)
  have deleted := EachStep.extend deterministic upserted
    (show State.Undisturbed _ (.delete 0) from trivial) (.delete rfl)
  exact ⟨_, deleted.1, accounted_of_eachStep deleted.2⟩

theorem interrupted_unaccounted : ∃ final, Run Step .start interrupted final ∧ ¬ final.Sound := by
  have recorded : Run Step .start [.recordRequest request "2025-01-01"] _ :=
    Run.one (.recordRequest request "2025-01-01")
  have begun := recorded.snoc (show Step _ (.begin 0) _ from .begin rfl)
  have scanned := begun.snoc (show Step _ (.scan 0 page) _ from .scan rfl (by decide +kernel))
  have grouped := scanned.snoc (show Step _ (.group 0) _ from .group rfl)
  have read := grouped.snoc (show Step _ (.read 0) _ from .read rfl)
  have again := read.snoc (.recordRequest request "2025-01-01")
  have upserted := again.snoc (show Step _ (.upsert 0) _ from .upsert rfl)
  have deleted := upserted.snoc (show Step _ (.delete 0) _ from .delete rfl)
  refine ⟨_, deleted, fun sound => ?_⟩
  have balanced := sound ⟨"key", "2025-01-01"⟩ (fun run metrics buckets upserted => by
    obtain rfl | distinct := eq_or_ne run 0
    · nomatch upserted
    · simp [State.setRun, distinct, State.recordRequest, State.start, State.del, State.upsert,
        request] at upserted)
    .totalRequests
  exact absurd balanced (by decide +kernel)

end SorobanExplorer.Indexer.UsageTracker
