import SorobanExplorer.Filters.JsValue
import Mathlib.Algebra.Order.Floor.Ring
import Mathlib.Data.Rat.Floor
import Mathlib.Tactic.FieldSimp
import Mathlib.Tactic.Linarith
import Mathlib.Tactic.Positivity
import Mathlib.Tactic.Ring

/-!
Owns the in-process token bucket of the rate limiter in exact arithmetic: that its tokens stay
between none and the burst, and how many requests it allows within a stretch of time.

Every bucket keeps one rate and one burst. `TokenBucket` owns the same bucket with rounding.
-/

namespace SorobanExplorer.Indexer

open Filters (js JsString)

namespace BucketWindow

/-! ### Buckets -/

structure Limits where
  rpm : ℚ
  burst : ℚ
  one_le_rpm : 1 ≤ rpm
  one_le_burst : 1 ≤ burst

/-- `60_000 / rpm` -/
def Limits.refillRateMs (limits : Limits) : ℚ := 60000 / limits.rpm

structure Bucket where
  tokens : ℚ
  lastRefill : ℚ

/-- `_fallbackBuckets` -/
abbrev Buckets := JsString → Option Bucket

structure Consumed where
  allowed : Bool
  remaining : ℚ
  retryAfter : ℚ
  reset : ℚ

namespace Bucket

def refill (bucket : Bucket) (now refillRateMs maxTokens : ℚ) : Bucket :=
  let elapsed := now - bucket.lastRefill
  let tokensToAdd : ℚ := ⌊elapsed / refillRateMs⌋
  if 0 < tokensToAdd then
    let lastRefill := now + (tokensToAdd * refillRateMs - elapsed)
    ⟨min maxTokens (bucket.tokens + tokensToAdd), if now < lastRefill then now else lastRefill⟩
  else bucket

def allows (bucket : Bucket) : Bool := decide (1 ≤ bucket.tokens)

def consume (bucket : Bucket) : Bucket :=
  if bucket.allows then { bucket with tokens := bucket.tokens - 1 } else bucket

end Bucket

def refilled (limits : Limits) (bucket : Option Bucket) (now : ℚ) : Bucket :=
  (bucket.getD ⟨limits.burst, now⟩).refill now limits.refillRateMs limits.burst

def fallbackConsume (buckets : Buckets) (bucketKey : JsString) (limits : Limits) (now : ℚ) :
    Consumed × Buckets :=
  let bucket := refilled limits (buckets bucketKey) now
  let remaining := bucket.consume.tokens
  ({ allowed := bucket.allows
     remaining := remaining
     retryAfter := if bucket.allows then 0 else ⌈limits.refillRateMs / 1000⌉
     reset := ⌈(now + (limits.burst - remaining) * limits.refillRateMs) / 1000⌉ },
    Function.update buckets bucketKey (some bucket.consume))

/-! ### Requests -/

structure Request where
  bucketKey : JsString
  now : ℚ

def serveAll (limits : JsString → Limits) (buckets : Buckets) :
    List Request → List (Request × Consumed) × Buckets
  | [] => ([], buckets)
  | request :: requests =>
    let served := fallbackConsume buckets request.bucketKey (limits request.bucketKey) request.now
    let rest := serveAll limits served.2 requests
    ((request, served.1) :: rest.1, rest.2)

def InOrder (requests : List Request) : Prop :=
  requests.Pairwise fun earlier later => earlier.now ≤ later.now

/-- Allowed on the bucket, not before `start` and not after `finish`. -/
def allowedWithin (bucketKey : JsString) (start finish : ℚ) (answer : Request × Consumed) : Bool :=
  decide (answer.1.bucketKey = bucketKey ∧ start ≤ answer.1.now ∧ answer.1.now ≤ finish) &&
    answer.2.allowed

/-- Tokens between none and the burst, and in every stretch of time the requests that its length
pays for, over the burst and one. -/
structure Bounded (limits : JsString → Limits) (requests : List Request) (bucketKey : JsString) :
    Prop where
  tokens : ∀ bucket, (serveAll limits (fun _ => none) requests).2 bucketKey = some bucket →
    0 ≤ bucket.tokens ∧ bucket.tokens ≤ (limits bucketKey).burst
  allowed : ∀ start length, 0 ≤ length →
    ((serveAll limits (fun _ => none) requests).1.countP
        (allowedWithin bucketKey start (start + length)) : ℚ) ≤
      (limits bucketKey).burst + length * (limits bucketKey).rpm / 60000 + 1

/-! ### One request -/

section Step

variable {limits : Limits} {bucket : Bucket} {now : ℚ}

theorem Limits.refillRateMs_pos (limits : Limits) : 0 < limits.refillRateMs := by
  have positive : 0 < limits.rpm := zero_lt_one.trans_le limits.one_le_rpm
  exact div_pos (by norm_num) positive

structure Kept (limits : Limits) (now : ℚ) (bucket : Bucket) : Prop where
  nonneg : 0 ≤ bucket.tokens
  le_burst : bucket.tokens ≤ limits.burst
  past : bucket.lastRefill ≤ now

theorem Kept.mono {later : ℚ} (kept : Kept limits now bucket) (le : now ≤ later) :
    Kept limits later bucket :=
  ⟨kept.nonneg, kept.le_burst, kept.past.trans le⟩

theorem kept_new (limits : Limits) (now : ℚ) : Kept limits now ⟨limits.burst, now⟩ :=
  ⟨zero_le_one.trans limits.one_le_burst, le_rfl, le_rfl⟩

theorem refill_spec (kept : Kept limits now bucket) :
    ∃ count : ℕ, (bucket.refill now limits.refillRateMs limits.burst).tokens =
        min limits.burst (bucket.tokens + count) ∧
      (bucket.refill now limits.refillRateMs limits.burst).lastRefill =
        bucket.lastRefill + count * limits.refillRateMs ∧
      bucket.lastRefill + count * limits.refillRateMs ≤ now ∧
      now < bucket.lastRefill + (count + 1) * limits.refillRateMs := by
  have positive := limits.refillRateMs_pos
  set ratio := (now - bucket.lastRefill) / limits.refillRateMs with defined
  have product : ratio * limits.refillRateMs = now - bucket.lastRefill :=
    div_mul_cancel₀ _ positive.ne'
  have nonneg : 0 ≤ ratio := div_nonneg (sub_nonneg.mpr kept.past) positive.le
  obtain ⟨count, whole⟩ := Int.eq_ofNat_of_zero_le (Int.floor_nonneg.mpr nonneg)
  have cast : ((⌊ratio⌋ : ℤ) : ℚ) = count := by rw [whole, Int.cast_natCast]
  have lower : (count : ℚ) ≤ ratio := cast ▸ Int.floor_le ratio
  have upper : ratio < count + 1 := cast ▸ Int.lt_floor_add_one ratio
  have reached : bucket.lastRefill + count * limits.refillRateMs ≤ now := by
    have scaled := mul_le_mul_of_nonneg_right lower positive.le
    linarith
  have near : now < bucket.lastRefill + (count + 1) * limits.refillRateMs := by
    have scaled := mul_lt_mul_of_pos_right upper positive
    linarith
  have notAhead : ¬ now < now + (count * limits.refillRateMs - (now - bucket.lastRefill)) := by
    linarith
  have unfolded : bucket.refill now limits.refillRateMs limits.burst =
      if (0 : ℚ) < count then ⟨min limits.burst (bucket.tokens + count),
        now + (count * limits.refillRateMs - (now - bucket.lastRefill))⟩ else bucket := by
    simp only [Bucket.refill, ← defined, cast, if_neg notAhead]
  have none (idle : ¬ (0 : ℚ) < count) : (count : ℚ) = 0 :=
    le_antisymm (not_lt.mp idle) (Nat.cast_nonneg _)
  refine ⟨count, ?_, ?_, reached, near⟩
  · rw [unfolded]
    split_ifs with added
    · rfl
    · rw [none added, add_zero, min_eq_right kept.le_burst]
  · rw [unfolded]
    split_ifs with added
    · ring
    · rw [none added, zero_mul, add_zero]

theorem Kept.refill (kept : Kept limits now bucket) :
    Kept limits now (bucket.refill now limits.refillRateMs limits.burst) := by
  obtain ⟨count, tokens, lastRefill, reached, -⟩ := refill_spec kept
  have positive : (0 : ℚ) ≤ count := Nat.cast_nonneg _
  have nonneg := kept.nonneg
  constructor
  · rw [tokens]
    exact le_min (zero_le_one.trans limits.one_le_burst) (by linarith)
  · rw [tokens]
    exact min_le_left _ _
  · rw [lastRefill]
    exact reached

theorem Kept.consume (kept : Kept limits now bucket) : Kept limits now bucket.consume := by
  rw [Bucket.consume]
  split_ifs with allowed
  · have enough : 1 ≤ bucket.tokens := of_decide_eq_true allowed
    have most := kept.le_burst
    exact ⟨sub_nonneg.mpr enough, (sub_le_self _ zero_le_one).trans most, kept.past⟩
  · exact kept

def credit (limits : Limits) (finish : ℚ) (bucket : Bucket) : ℚ :=
  bucket.tokens + (finish - bucket.lastRefill) / limits.refillRateMs

theorem credit_nonneg {finish : ℚ} (kept : Kept limits now bucket) (le : now ≤ finish) :
    0 ≤ credit limits finish bucket := by
  have ahead : 0 ≤ finish - bucket.lastRefill := sub_nonneg.mpr (kept.past.trans le)
  exact add_nonneg kept.nonneg (div_nonneg ahead limits.refillRateMs_pos.le)

theorem credit_refill_le (kept : Kept limits now bucket) (finish : ℚ) :
    credit limits finish (bucket.refill now limits.refillRateMs limits.burst) ≤
      credit limits finish bucket := by
  obtain ⟨count, tokens, lastRefill, -, -⟩ := refill_spec kept
  have positive := limits.refillRateMs_pos
  have added := min_le_right limits.burst (bucket.tokens + count)
  have moved : (finish - (bucket.lastRefill + count * limits.refillRateMs)) / limits.refillRateMs =
      (finish - bucket.lastRefill) / limits.refillRateMs - count := by
    field_simp
    ring
  rw [credit, credit, tokens, lastRefill, moved]
  linarith

theorem credit_refilled_le {start finish : ℚ} (kept : Kept limits now bucket) (le : start ≤ now) :
    credit limits finish (bucket.refill now limits.refillRateMs limits.burst) ≤
      limits.burst + (finish - start) / limits.refillRateMs + 1 := by
  obtain ⟨count, tokens, lastRefill, -, near⟩ := refill_spec kept
  have positive := limits.refillRateMs_pos
  have most := min_le_left limits.burst (bucket.tokens + count)
  have ahead : finish - (bucket.lastRefill + count * limits.refillRateMs) ≤
      finish - start + limits.refillRateMs := by linarith
  have scaled := div_le_div_of_nonneg_right ahead positive.le
  rw [add_div, div_self positive.ne'] at scaled
  rw [credit, tokens, lastRefill]
  linarith

theorem credit_consume (finish : ℚ) :
    credit limits finish bucket.consume + (if bucket.allows then 1 else 0) =
      credit limits finish bucket := by
  rw [Bucket.consume]
  split_ifs with allowed
  · rw [credit, credit]
    ring
  · rw [add_zero]

theorem kept_getD {found : Option Bucket} (kept : ∀ bucket, found = some bucket →
    Kept limits now bucket) : Kept limits now (found.getD ⟨limits.burst, now⟩) := by
  cases found with
  | none => exact kept_new limits now
  | some bucket => exact kept bucket rfl

end Step

/-! ### All requests -/

section Run

variable {limits : JsString → Limits} {buckets : Buckets} {bucketKey : JsString} {request : Request}
  {requests : List Request}

theorem fallbackConsume_other {other : JsString} (different : bucketKey ≠ other) (rates : Limits)
    (now : ℚ) : (fallbackConsume buckets other rates now).2 bucketKey = buckets bucketKey :=
  Function.update_of_ne different _ _

theorem fallbackConsume_same (rates : Limits) (now : ℚ) :
    (fallbackConsume buckets bucketKey rates now).2 bucketKey =
      some (refilled rates (buckets bucketKey) now).consume :=
  Function.update_self _ _ _

def Ready (limits : JsString → Limits) (bucketKey : JsString) (requests : List Request)
    (buckets : Buckets) : Prop :=
  ∀ request ∈ requests, ∀ bucket, buckets bucketKey = some bucket →
    Kept (limits bucketKey) request.now bucket

theorem ready_step (ordered : InOrder (request :: requests))
    (ready : Ready limits bucketKey (request :: requests) buckets) :
    Ready limits bucketKey requests
      (fallbackConsume buckets request.bucketKey (limits request.bucketKey) request.now).2 := by
  intro later listed bucket found
  by_cases same : bucketKey = request.bucketKey
  · subst same
    rw [fallbackConsume_same] at found
    cases found
    have kept := kept_getD (ready request (List.mem_cons_self ..))
    have order := (List.pairwise_cons.mp ordered).1 later listed
    exact kept.refill.consume.mono order
  · rw [fallbackConsume_other same] at found
    exact ready later (List.mem_cons_of_mem _ listed) bucket found

theorem tokens_serveAll (ordered : InOrder requests)
    (ready : Ready limits bucketKey requests buckets)
    (start : ∀ bucket, buckets bucketKey = some bucket →
      0 ≤ bucket.tokens ∧ bucket.tokens ≤ (limits bucketKey).burst) :
    ∀ bucket, (serveAll limits buckets requests).2 bucketKey = some bucket →
      0 ≤ bucket.tokens ∧ bucket.tokens ≤ (limits bucketKey).burst := by
  induction requests generalizing buckets with
  | nil => exact start
  | cons request requests ih =>
    have after := ready_step ordered ready
    apply ih (List.pairwise_cons.mp ordered).2 after
    intro bucket found
    by_cases same : bucketKey = request.bucketKey
    · subst same
      rw [fallbackConsume_same] at found
      cases found
      have kept := (kept_getD (ready request (List.mem_cons_self ..))).refill.consume
      exact ⟨kept.nonneg, kept.le_burst⟩
    · rw [fallbackConsume_other same] at found
      exact start bucket found

theorem countP_after {start finish : ℚ} (late : ∀ request ∈ requests, finish < request.now) :
    (serveAll limits buckets requests).1.countP (allowedWithin bucketKey start finish) = 0 := by
  induction requests generalizing buckets with
  | nil => rfl
  | cons request requests ih =>
    rw [List.forall_mem_cons] at late
    have outside : ¬ request.now ≤ finish := not_le.mpr late.1
    rw [serveAll, List.countP_cons_of_neg, ih late.2]
    simp [allowedWithin, outside]

theorem late_of_ordered {finish : ℚ} (ordered : InOrder (request :: requests))
    (late : finish < request.now) : ∀ later ∈ request :: requests, finish < later.now := by
  rw [List.forall_mem_cons]
  exact ⟨late, fun later listed => late.trans_le ((List.pairwise_cons.mp ordered).1 later listed)⟩

theorem countP_le_credit {start finish : ℚ} {bucket : Bucket} (ordered : InOrder requests)
    (ready : Ready limits bucketKey requests buckets) (found : buckets bucketKey = some bucket)
    (nonneg : 0 ≤ credit (limits bucketKey) finish bucket) :
    ((serveAll limits buckets requests).1.countP (allowedWithin bucketKey start finish) : ℚ) ≤
      credit (limits bucketKey) finish bucket := by
  induction requests generalizing buckets bucket with
  | nil =>
    rw [serveAll, List.countP_nil, Nat.cast_zero]
    exact nonneg
  | cons request requests ih =>
    have tail := (List.pairwise_cons.mp ordered).2
    have after := ready_step ordered ready
    by_cases late : finish < request.now
    · rw [countP_after (late_of_ordered ordered late), Nat.cast_zero]
      exact nonneg
    by_cases same : bucketKey = request.bucketKey
    · subst same
      have kept := ready request (List.mem_cons_self ..) bucket found
      have refill := kept.refill
      have credited := credit_refill_le kept finish
      have paid := @credit_consume (limits request.bucketKey)
        (bucket.refill request.now (limits request.bucketKey).refillRateMs
          (limits request.bucketKey).burst) finish
      have rest := ih tail after
        ((fallbackConsume_same _ _).trans (by rw [refilled, found, Option.getD_some]))
        (credit_nonneg refill.consume (not_lt.mp late))
      rw [serveAll, List.countP_cons]
      push_cast
      split_ifs at paid ⊢ with counted allowed
      · linarith
      · simp only [allowedWithin, fallbackConsume, refilled, found, Option.getD_some,
          Bool.and_eq_true] at counted
        exact absurd counted.2 allowed
      · linarith
      · linarith
    · have counted : allowedWithin bucketKey start finish (request,
          (fallbackConsume buckets request.bucketKey (limits request.bucketKey)
            request.now).1) ≠ true := by simp [allowedWithin, Ne.symm same]
      rw [serveAll, List.countP_cons_of_neg counted]
      exact ih tail after ((fallbackConsume_other same _ _).trans found) nonneg

theorem countP_le_bound {start finish : ℚ} (le : start ≤ finish) (ordered : InOrder requests)
    (ready : Ready limits bucketKey requests buckets) :
    ((serveAll limits buckets requests).1.countP (allowedWithin bucketKey start finish) : ℚ) ≤
      (limits bucketKey).burst + (finish - start) / (limits bucketKey).refillRateMs + 1 := by
  have positive := (limits bucketKey).refillRateMs_pos
  have bound : 0 ≤ (limits bucketKey).burst +
      (finish - start) / (limits bucketKey).refillRateMs + 1 := by
    have burst := (limits bucketKey).one_le_burst
    have length := div_nonneg (sub_nonneg.mpr le) positive.le
    linarith
  induction requests generalizing buckets with
  | nil =>
    rw [serveAll, List.countP_nil, Nat.cast_zero]
    exact bound
  | cons request requests ih =>
    have tail := (List.pairwise_cons.mp ordered).2
    have after := ready_step ordered ready
    by_cases late : finish < request.now
    · rw [countP_after (late_of_ordered ordered late), Nat.cast_zero]
      exact bound
    by_cases counted : bucketKey = request.bucketKey ∧ start ≤ request.now
    · obtain ⟨rfl, inside⟩ := counted
      have kept := kept_getD (ready request (List.mem_cons_self ..))
      have refill := kept.refill
      have credited := @credit_refilled_le _ _ _ start finish kept inside
      have paid := @credit_consume (limits request.bucketKey)
        (refilled (limits request.bucketKey) (buckets request.bucketKey) request.now) finish
      have rest := @countP_le_credit _ _ _ _ start _ _ tail after (fallbackConsume_same _ _)
        (credit_nonneg refill.consume (not_lt.mp late))
      rw [← refilled] at credited
      rw [serveAll, List.countP_cons]
      push_cast
      have most : (if allowedWithin request.bucketKey start finish (request,
          (fallbackConsume buckets request.bucketKey (limits request.bucketKey)
            request.now).1) = true then (1 : ℚ) else 0) ≤
          if (refilled (limits request.bucketKey) (buckets request.bucketKey)
            request.now).allows = true then 1 else 0 := by
        split_ifs with counts allowed
        · exact le_rfl
        · exact absurd (Bool.and_eq_true_iff.mp counts).2 allowed
        · exact zero_le_one
        · exact le_rfl
      linarith
    · have outside : allowedWithin bucketKey start finish (request,
          (fallbackConsume buckets request.bucketKey (limits request.bucketKey)
            request.now).1) ≠ true := by
        simp only [allowedWithin, Bool.and_eq_true, decide_eq_true_eq, not_and, ne_eq]
        exact fun inside => absurd ⟨inside.1.symm, inside.2.1⟩ counted
      rw [serveAll, List.countP_cons_of_neg outside]
      exact ih tail after

/-- The tokens stay within the burst, and the requests allowed in a stretch of time within what the
stretch pays for. -/
theorem bounded_of_inOrder (limits : JsString → Limits) {requests : List Request}
    (ordered : InOrder requests) (bucketKey : JsString) : Bounded limits requests bucketKey where
  tokens := tokens_serveAll ordered (fun _ _ _ found => by cases found)
    fun _ found => by cases found
  allowed start length nonneg := by
    have bound := @countP_le_bound limits (fun _ => none) bucketKey _ start (start + length)
      (le_add_of_nonneg_right nonneg) ordered fun _ _ _ found => by cases found
    have paid : (start + length - start) / (limits bucketKey).refillRateMs =
        length * (limits bucketKey).rpm / 60000 := by
      rw [Limits.refillRateMs, add_sub_cancel_left, div_div_eq_mul_div]
    rwa [paid] at bound

/-- Two requests at once, on a bucket of one token. -/
theorem bounded_at_once :
    InOrder [⟨js "a:events", 0⟩, ⟨js "a:events", 0⟩] ∧
      Bounded (fun _ => ⟨1, 1, le_rfl, le_rfl⟩) [⟨js "a:events", 0⟩, ⟨js "a:events", 0⟩]
        (js "a:events") :=
  ⟨by simp [InOrder], bounded_of_inOrder _ (by simp [InOrder]) _⟩

end Run

end BucketWindow

end SorobanExplorer.Indexer
