import SorobanExplorer.Indexer.ApiKeys
import SorobanExplorer.Indexer.RuntimeConfig
import SorobanExplorer.Library.Binary64
import SorobanExplorer.Library.JsArithmetic

/-!
Owns the in-process token bucket of the rate limiter, the limits that `getTierLimits` hands to it,
and whether the wait that a denied request is told is enough.

Redis is away: every request goes to the fallback. A time is what `Date.now()` can return.
-/

namespace SorobanExplorer.Indexer

open Library
open Filters (js JsString)
open ApiKeys (Tier)
open RuntimeConfig (Settings Rpm)

namespace TokenBucket

/-! ### Limits -/

inductive EndpointGroup where
  | events
  | search
  | contracts
  | simulate
  | websocket
  | default
deriving DecidableEq

def EndpointGroup.name : EndpointGroup → JsString
  | .events => js "events"
  | .search => js "search"
  | .contracts => js "contracts"
  | .simulate => js "simulate"
  | .websocket => js "websocket"
  | .default => js "default"

def tierName : Tier → JsString
  | .unauthenticated => js "unauthenticated"
  | .free => js "free"
  | .pro => js "pro"
  | .enterprise => js "enterprise"

def TIER_BURST_DEFAULTS : Tier → ℕ
  | .unauthenticated => 10
  | .free => 50
  | .pro => 200
  | .enterprise => 500

/-- Every group has all four tiers, and `Infinity` for the last. -/
def tierLimits (unauthenticated free pro : ℕ) : Tier → JsNumber
  | .unauthenticated => .ofNat unauthenticated
  | .free => .ofNat free
  | .pro => .ofNat pro
  | .enterprise => .infinity

def GROUP_TIER_LIMITS : EndpointGroup → Tier → JsNumber
  | .events => tierLimits 60 1000 10000
  | .search => tierLimits 30 500 5000
  | .contracts => tierLimits 10 100 1000
  | .simulate => tierLimits 5 50 500
  | .websocket => tierLimits 3 30 300
  | .default => tierLimits 60 1000 10000

structure Limits where
  rpm : JsNumber
  burst : ℕ

/-- `getRuntimeConfig('rateLimitOverrides')?.[group]?.[tier]` -/
def runtimeRpm (settings : Settings) (group : EndpointGroup) (tier : Tier) : Option Rpm :=
  (settings.rateLimitOverrides.lookup group.name).bind fun tiers => tiers.lookup (tierName tier)

def usable? (overrideRpm : JsNumeric) : Option JsNumber :=
  overrideRpm.filter fun rate => rate.isFinite && decide (0 < rate.value)

def getTierLimits (settings : Settings) (group : EndpointGroup) (tier : Tier)
    (overrideRpm : JsNumeric) : Limits :=
  let baseRpm := ((runtimeRpm settings group tier).map fun rpm => .ofNat rpm.val).getD
    (GROUP_TIER_LIMITS group tier)
  ⟨(usable? overrideRpm).getD baseRpm, TIER_BURST_DEFAULTS tier⟩

/-! ### Buckets -/

structure Bucket where
  tokens : JsNumeric
  lastRefill : JsNumeric

/-- `_fallbackBuckets` -/
abbrev Buckets := JsString → Option Bucket

structure Consumed where
  allowed : Bool
  remaining : JsNumeric
  retryAfter : JsNumeric
  reset : JsNumeric

abbrev Time := { time : ℕ // time ≤ 8640000000000000 }

namespace Bucket

open JsNumeric

def refill (bucket : Bucket) (now refillRateMs maxTokens : JsNumeric) : Bucket :=
  let elapsed := sub now bucket.lastRefill
  let tokensToAdd := floor (div elapsed refillRateMs)
  if gt tokensToAdd (ofNat 0) then
    let lastRefill := add now (sub (mul tokensToAdd refillRateMs) elapsed)
    ⟨minimum maxTokens (add bucket.tokens tokensToAdd),
      if gt lastRefill now then now else lastRefill⟩
  else bucket

def allows (bucket : Bucket) : Bool := ge bucket.tokens (ofNat 1)

def consume (bucket : Bucket) : Bucket :=
  if bucket.allows then { bucket with tokens := sub bucket.tokens (ofNat 1) } else bucket

end Bucket

section Consume

open JsNumeric

/-- `60_000 / rpm` -/
def refillRateMs (rpm : JsNumber) : JsNumeric := div (ofNat 60000) (some rpm)

def refilled (bucket : Option Bucket) (now : Time) (limits : Limits) : Bucket :=
  (bucket.getD ⟨ofNat limits.burst, ofNat now⟩).refill (ofNat now) (refillRateMs limits.rpm)
    (ofNat limits.burst)

def fallbackConsume (buckets : Buckets) (bucketKey : JsString) (now : Time) (limits : Limits) :
    Consumed × Buckets :=
  let bucket := refilled (buckets bucketKey) now limits
  let remaining := bucket.consume.tokens
  ({ allowed := bucket.allows
     remaining := remaining
     retryAfter := if bucket.allows then ofNat 0
       else ceil (div (refillRateMs limits.rpm) (ofNat 1000))
     reset := ceil (div (add (ofNat now)
       (mul (sub (ofNat limits.burst) remaining) (refillRateMs limits.rpm))) (ofNat 1000)) },
    Function.update buckets bucketKey (some bucket.consume))

end Consume

/-! ### Requests -/

/-- `req.rateContext` with the group of the path. An override that is `null` counts as NaN: neither
is usable. -/
structure Caller where
  clientId : JsString
  endpointGroup : EndpointGroup
  tier : Tier
  rateLimit : JsNumeric

namespace Caller

def bucketKey (caller : Caller) : JsString :=
  caller.clientId ++ js ":" ++ caller.endpointGroup.name

def limits (settings : Settings) (caller : Caller) : Limits :=
  getTierLimits settings caller.endpointGroup caller.tier caller.rateLimit

end Caller

structure Request extends Caller where
  now : Time

def serve (settings : Settings) (buckets : Buckets) (request : Request) : Consumed × Buckets :=
  fallbackConsume buckets request.bucketKey request.now (request.limits settings)

def run (settings : Settings) (buckets : Buckets) (requests : List Request) : Buckets :=
  requests.foldl (fun buckets request => (serve settings buckets request).2) buckets

def InOrder (requests : List Request) : Prop :=
  requests.Pairwise fun earlier later => earlier.now.val ≤ later.now.val

/-- A denied request is told a finite number of seconds, and the next one on the bucket that comes
so much later is allowed. All requests on the bucket have the caller's tier and override. -/
def HonestRetryAfter (settings : Settings) (caller : Caller) : Prop :=
  ∀ (before between : List Request) (denied later : Request),
    InOrder (before ++ denied :: (between ++ [later])) →
    (∀ request ∈ before, request.bucketKey = caller.bucketKey → request.toCaller = caller) →
    denied.toCaller = caller → later.toCaller = caller →
    (∀ request ∈ between, request.bucketKey ≠ caller.bucketKey) →
    let reached := run settings (fun _ => none) before
    (serve settings reached denied).1.allowed = false →
    ∃ seconds : JsNumber, (serve settings reached denied).1.retryAfter = some seconds ∧
      seconds.isFinite = true ∧
      (denied.now.val + 1000 * seconds.value ≤ later.now.val →
        (serve settings (run settings (serve settings reached denied).2 between) later).1.allowed =
          true)

/-- The override can be used and does not overflow the time for one token, or it cannot and the
rate is neither the placeholder of the enterprise tier nor derived from it. -/
def Paced (settings : Settings) (caller : Caller) : Prop :=
  match usable? caller.rateLimit with
  | some rate => Binary64.round (60000 / rate.value) < Binary64.infinity
  | none => caller.tier ≠ .enterprise ∨ runtimeRpm settings caller.endpointGroup caller.tier ≠ none

/-! ### Rates -/

open JsNumeric

structure Pace (rpm rate : JsNumber) : Prop where
  quotient : refillRateMs rpm = some rate
  positive : 2 ^ (-1009 : ℤ) ≤ rate.value
  finite : rate.value < Binary64.infinity

theorem ofNat_minute : (JsNumber.ofNat 60000).value = 60000 := by
  rw [JsNumber.ofNat_value (by norm_num), Nat.cast_ofNat]

theorem minute_finite : (JsNumber.ofNat 60000).isFinite = true :=
  JsNumber.isFinite_ofNat (by norm_num)

theorem ofNat_thousand : (JsNumber.ofNat 1000).value = 1000 := by
  rw [JsNumber.ofNat_value (by norm_num), Nat.cast_ofNat]

theorem thousand_finite : (JsNumber.ofNat 1000).isFinite = true :=
  JsNumber.isFinite_ofNat (by norm_num)

theorem thousand_positive : 0 < (JsNumber.ofNat 1000).value := by
  rw [ofNat_thousand]
  norm_num

theorem round_nonneg {value : ℚ} (nonneg : 0 ≤ value) : 0 ≤ Binary64.round value := by
  exact_mod_cast @natCast_le_round 0 value (Nat.zero_le _) (by exact_mod_cast nonneg)

theorem refillRateMs_finite {rpm : JsNumber} (finite : rpm.isFinite = true)
    (positive : 0 < rpm.value) : refillRateMs rpm = some (.ofRat (60000 / rpm.value)) := by
  rw [refillRateMs, ofNat, div_finite minute_finite finite positive.ne', ofNat_minute]

theorem pace_of_finite {rpm : JsNumber} (finite : rpm.isFinite = true) (positive : 0 < rpm.value)
    (rate : Binary64.round (60000 / rpm.value) < Binary64.infinity) :
    Pace rpm (.ofRat (60000 / rpm.value)) := by
  refine ⟨refillRateMs_finite finite positive, ?_, rate⟩
  have rpmFinite : rpm.value < 2 ^ (1024 : ℤ) := by
    have bounded := JsNumber.isFinite_iff.mp finite
    rwa [abs_of_pos positive] at bounded
  have large : (2 : ℚ) ^ (-1009 : ℤ) ≤ 60000 / rpm.value := by
    rw [le_div_iff₀ positive]
    have scaled := mul_le_mul_of_nonneg_left rpmFinite.le (Binary64.two_zpow_pos (-1009)).le
    rw [← zpow_add₀ (by norm_num)] at scaled
    exact scaled.trans (by norm_num)
  have power : Binary64.round (2 ^ (-1009 : ℤ)) = 2 ^ (-1009 : ℤ) :=
    Binary64.round_two_zpow (by norm_num) (by norm_num)
  rw [JsNumber.ofRat_value, ← power]
  exact Binary64.round_mono large

theorem pace_of_natCast {count : ℕ} (positive : 1 ≤ count) (small : count ≤ 1000000) :
    ∃ rate, Pace (.ofNat count) rate := by
  have value : (JsNumber.ofNat count).value = count := JsNumber.ofNat_value (by omega)
  have countPositive : (1 : ℚ) ≤ count := by exact_mod_cast positive
  refine ⟨_, pace_of_finite (JsNumber.isFinite_ofNat (by omega)) (by rw [value]; linarith) ?_⟩
  rw [value]
  have most : (60000 : ℚ) / count ≤ ((60000 : ℕ) : ℚ) := by
    rw [div_le_iff₀ (by linarith)]
    push_cast
    linarith
  have rounded := Binary64.round_mono most
  rw [Binary64.round_natCast (by norm_num)] at rounded
  exact rounded.trans_lt (Binary64.natCast_lt_infinity (by norm_num))

theorem tierLimits_natCast {tier : Tier} (limited : tier ≠ .enterprise) (group : EndpointGroup) :
    ∃ count, 1 ≤ count ∧ count ≤ 1000000 ∧ GROUP_TIER_LIMITS group tier = .ofNat count := by
  cases tier with
  | enterprise => exact absurd rfl limited
  | unauthenticated =>
    cases group <;> exact ⟨_, by norm_num, by norm_num, rfl⟩
  | free =>
    cases group <;> exact ⟨_, by norm_num, by norm_num, rfl⟩
  | pro =>
    cases group <;> exact ⟨_, by norm_num, by norm_num, rfl⟩

theorem usable?_eq_some {overrideRpm : JsNumeric} {rate : JsNumber}
    (usable : usable? overrideRpm = some rate) : rate.isFinite = true ∧ 0 < rate.value := by
  have passes := (Option.filter_eq_some_iff.mp usable).2
  rw [Bool.and_eq_true, decide_eq_true_iff] at passes
  exact passes

theorem pace_of_paced {settings : Settings} {caller : Caller} (paced : Paced settings caller) :
    ∃ rate, Pace (caller.limits settings).rpm rate := by
  unfold Paced at paced
  unfold Caller.limits getTierLimits
  cases usable : usable? caller.rateLimit with
  | some rate =>
    rw [usable] at paced
    have spec := usable?_eq_some usable
    exact ⟨_, pace_of_finite spec.1 spec.2 paced⟩
  | none =>
    rw [usable] at paced
    cases runtime : runtimeRpm settings caller.endpointGroup caller.tier with
    | some rpm => exact pace_of_natCast rpm.property.1 rpm.property.2
    | none =>
      have limited := paced.resolve_right (not_not_intro runtime)
      obtain ⟨count, positive, small, same⟩ := tierLimits_natCast limited caller.endpointGroup
      simp only [Option.map_none, Option.getD_none, same]
      exact pace_of_natCast positive small

theorem refillRateMs_of_not_paced {settings : Settings} {caller : Caller}
    (unpaced : ¬ Paced settings caller) :
    refillRateMs (caller.limits settings).rpm = ofNat 0 ∨
      refillRateMs (caller.limits settings).rpm = some .infinity := by
  unfold Paced at unpaced
  unfold Caller.limits getTierLimits
  cases usable : usable? caller.rateLimit with
  | some rate =>
    rw [usable] at unpaced
    have spec := usable?_eq_some usable
    refine .inr ((refillRateMs_finite spec.1 spec.2).trans (congrArg some (JsNumber.ext ?_)))
    exact le_antisymm (Binary64.round_le_infinity _) (not_lt.mp unpaced)
  | none =>
    rw [usable] at unpaced
    obtain ⟨enterprise, runtime⟩ := not_or.mp unpaced
    rw [not_not.mp runtime, not_not.mp enterprise]
    have placeholder : GROUP_TIER_LIMITS caller.endpointGroup .enterprise = .infinity := by
      cases caller.endpointGroup <;> rfl
    simp only [Option.map_none, Option.getD_none, placeholder]
    exact .inl (div_infinity minute_finite)

/-! ### One refill -/

structure Fair (burst now : ℕ) (bucket : Bucket) : Prop where
  tokens : ∃ count ≤ burst, bucket.tokens = ofNat count
  lastRefill : ∃ last : JsNumber, bucket.lastRefill = some last ∧ 0 ≤ last.value ∧ last.value ≤ now

theorem Fair.mono {burst earlier later : ℕ} {bucket : Bucket} (fair : Fair burst earlier bucket)
    (le : earlier ≤ later) : Fair burst later bucket := by
  obtain ⟨last, same, nonneg, past⟩ := fair.lastRefill
  exact ⟨fair.tokens, last, same, nonneg, past.trans (by exact_mod_cast le)⟩

theorem fair_new {burst now : ℕ} (small : now ≤ 2 ^ 53) :
    Fair burst now ⟨ofNat burst, ofNat now⟩ := by
  have value := JsNumber.ofNat_value small
  exact ⟨⟨burst, le_rfl, rfl⟩, .ofNat now, rfl, by rw [value]; positivity, value.le⟩

theorem Time.small (now : Time) : now.val ≤ 2 ^ 53 := now.property.trans (by norm_num)

section Refill

variable {bucket : Bucket} {now : Time} {last rate : JsNumber} {burst count : ℕ}

theorem elapsed_eq (nonneg : 0 ≤ last.value) (past : last.value ≤ now.val) :
    sub (ofNat now) (some last) = some (.ofRat (now.val - last.value)) := by
  have finite : last.isFinite = true :=
    JsNumber.isFinite_of_nonneg nonneg (past.trans_lt (Binary64.natCast_lt_infinity now.small))
  rw [ofNat, sub_finite (JsNumber.isFinite_ofNat now.small) finite, JsNumber.ofNat_value now.small]

theorem elapsed_bounds (nonneg : 0 ≤ last.value) (past : last.value ≤ now.val) :
    0 ≤ Binary64.round (now.val - last.value) ∧
      Binary64.round (now.val - last.value) ≤ now.val := by
  constructor
  · exact round_nonneg (sub_nonneg.mpr past)
  · have most := Binary64.round_mono (show now.val - last.value ≤ (now.val : ℚ) by linarith)
    rwa [Binary64.round_natCast now.small] at most

def earned (rate elapsed : JsNumber) : JsNumber := .ofRat (elapsed.value / rate.value)

theorem refill_eq (lastRefill : bucket.lastRefill = some last) (nonneg : 0 ≤ last.value)
    (past : last.value ≤ now.val) (positive : 0 < rate.value)
    (finite : rate.value < Binary64.infinity) :
    let elapsed : JsNumber := .ofRat (now.val - last.value)
    let tokensToAdd := floor (some (earned rate elapsed))
    bucket.refill (ofNat now) (some rate) (ofNat burst) =
      if 1 ≤ (earned rate elapsed).value then
        let lastRefill := add (ofNat now) (sub (mul tokensToAdd (some rate)) (some elapsed))
        ⟨minimum (ofNat burst) (add bucket.tokens tokensToAdd),
          if gt lastRefill (ofNat now) then ofNat now else lastRefill⟩
      else bucket := by
  have bounds := elapsed_bounds nonneg past
  have elapsedFinite : (JsNumber.ofRat (now.val - last.value)).isFinite = true :=
    JsNumber.isFinite_of_nonneg bounds.1
      (bounds.2.trans_lt (Binary64.natCast_lt_infinity now.small))
  have quotient : div (some (.ofRat (now.val - last.value))) (some rate) =
      some (earned rate (.ofRat (now.val - last.value))) :=
    div_finite elapsedFinite (JsNumber.isFinite_of_nonneg positive.le finite) positive.ne'
  intro elapsed tokensToAdd
  unfold Bucket.refill
  rw [lastRefill, elapsed_eq nonneg past]
  simp only [quotient, gt_floor_zero_iff]
  rfl

theorem moved_bounds {elapsed added : JsNumber} (nonneg : 0 ≤ elapsed.value)
    (past : elapsed.value ≤ now.val) (addedPositive : 0 < added.value)
    (positive : 0 < rate.value) (finite : rate.value < Binary64.infinity) :
    ∃ moved : JsNumber,
      add (ofNat now) (sub (mul (some added) (some rate)) (some elapsed)) = some moved ∧
        0 ≤ moved.value := by
  have elapsedFinite : elapsed.neg.isFinite = true :=
    isFinite_neg.trans (JsNumber.isFinite_of_nonneg nonneg
      (past.trans_lt (Binary64.natCast_lt_infinity now.small)))
  obtain ⟨product, multiplied, productNonneg⟩ := mul_of_pos addedPositive
    (JsNumber.isFinite_of_nonneg positive.le finite) positive
  obtain ⟨left, subtracted, leftBound⟩ := add_ge elapsedFinite
    (neg_lt_zero.mpr Binary64.infinity_pos) productNonneg
  rw [add_zero, elapsed.neg.rounded] at leftBound
  have low : -Binary64.infinity < elapsed.neg.value :=
    neg_lt_neg (past.trans_lt (Binary64.natCast_lt_infinity now.small))
  obtain ⟨moved, sum, movedBound⟩ := add_ge (JsNumber.isFinite_ofNat now.small) low leftBound
  refine ⟨moved, ?_, ?_⟩
  · rw [multiplied, sub, add_swap (some product)]
    exact (congrArg (add (ofNat now)) subtracted).trans sum
  · have room : ((0 : ℕ) : ℚ) ≤ (JsNumber.ofNat now).value + elapsed.neg.value := by
      rw [JsNumber.ofNat_value now.small, Nat.cast_zero]
      change (0 : ℚ) ≤ now.val + -elapsed.value
      linarith
    have least := natCast_le_round (Nat.zero_le _) room
    rw [Nat.cast_zero] at least
    exact least.trans movedBound

theorem refill_due (burstPositive : 1 ≤ burst) (burstSmall : burst ≤ 2 ^ 52)
    (tokens : bucket.tokens = ofNat count) (le : count ≤ burst)
    (lastRefill : bucket.lastRefill = some last) (nonneg : 0 ≤ last.value)
    (past : last.value ≤ now.val) (positive : 0 < rate.value)
    (finite : rate.value < Binary64.infinity)
    (due : 1 ≤ (earned rate (.ofRat (now.val - last.value))).value) :
    ∃ more, 1 ≤ more ∧ more ≤ burst ∧
      (bucket.refill (ofNat now) (some rate) (ofNat burst)).tokens = ofNat more ∧
      Fair burst now.val (bucket.refill (ofNat now) (some rate) (ofNat burst)) := by
  have bounds := elapsed_bounds nonneg past
  generalize elapsed_is : JsNumber.ofRat (now.val - last.value) = elapsed at due
  have elapsedValue : elapsed.value = Binary64.round (now.val - last.value) :=
    congrArg JsNumber.value elapsed_is.symm
  generalize whole_is : ⌊(earned rate elapsed).value⌋ = whole
  have wholePositive : 1 ≤ whole := by
    rw [← whole_is]
    exact Int.le_floor.mpr (by exact_mod_cast due)
  have addedPositive : 0 < (JsNumber.ofRat (whole : ℚ)).value := by
    rw [← whole_is]
    exact (round_floor_ge_one_iff _).mpr due
  obtain ⟨moved, movedSome, movedNonneg⟩ := moved_bounds (elapsedValue ▸ bounds.1)
    (elapsedValue ▸ bounds.2) addedPositive positive finite
  have floored : floor (some (earned rate elapsed)) = some (.ofRat (whole : ℚ)) := by
    rw [← whole_is]
    rfl
  have result : bucket.refill (ofNat now) (some rate) (ofNat burst) =
      ⟨ofNat (min burst (count + whole.toNat)),
        if gt (some moved) (ofNat now) then ofNat now else some moved⟩ := by
    rw [refill_eq lastRefill nonneg past positive finite]
    simp only [elapsed_is, floored, if_pos due, movedSome, tokens]
    rw [minimum_add_ofNat burstSmall le (by omega)]
  refine ⟨min burst (count + whole.toNat), by omega, by omega, by rw [result], ?_⟩
  rw [result]
  refine ⟨⟨_, by omega, rfl⟩, ?_⟩
  have nowValue := JsNumber.ofNat_value now.small
  have nowNonneg : 0 ≤ (JsNumber.ofNat now).value := nowValue.symm ▸ Nat.cast_nonneg _
  by_cases future : gt (some moved) (ofNat now) = true
  · exact ⟨.ofNat now, if_pos future, nowNonneg, nowValue.le⟩
  · refine ⟨moved, if_neg future, movedNonneg, ?_⟩
    rw [ofNat, gt, decide_eq_true_iff, nowValue] at future
    exact not_lt.mp future

theorem refill_early (lastRefill : bucket.lastRefill = some last) (nonneg : 0 ≤ last.value)
    (past : last.value ≤ now.val) (positive : 0 < rate.value)
    (finite : rate.value < Binary64.infinity)
    (early : ¬ 1 ≤ (earned rate (.ofRat (now.val - last.value))).value) :
    bucket.refill (ofNat now) (some rate) (ofNat burst) = bucket := by
  rw [refill_eq lastRefill nonneg past positive finite]
  exact if_neg early

end Refill

/-! ### One request -/

section Request

variable {bucket : Bucket} {burst count : ℕ}

theorem allows_ofNat (tokens : bucket.tokens = ofNat count) (small : count ≤ 2 ^ 53) :
    bucket.allows = true ↔ 1 ≤ count := by
  rw [Bucket.allows, tokens, ge_ofNat_iff small (by norm_num)]

theorem empty_denies (lastRefill : JsNumeric) : (⟨ofNat 0, lastRefill⟩ : Bucket).allows = false :=
  Bool.eq_false_iff.mpr fun allowed => by
    have positive := (allows_ofNat rfl (Nat.zero_le _)).mp allowed
    omega

theorem consume_ofNat (tokens : bucket.tokens = ofNat count) (small : count ≤ 2 ^ 53) :
    bucket.consume = { bucket with tokens := ofNat (count - 1) } := by
  unfold Bucket.consume
  split_ifs with allowed
  · rw [tokens, sub_ofNat ((allows_ofNat tokens small).mp allowed) small]
  · have empty : count = 0 := by
      by_contra some_left
      exact allowed ((allows_ofNat tokens small).mpr (by omega))
    rw [empty, Nat.zero_sub, ← empty, ← tokens]

theorem Fair.consume {now : ℕ} (fair : Fair burst now bucket) (small : burst ≤ 2 ^ 52) :
    Fair burst now bucket.consume := by
  obtain ⟨count, le, tokens⟩ := fair.tokens
  rw [consume_ofNat tokens (by omega)]
  exact ⟨⟨count - 1, by omega, rfl⟩, fair.lastRefill⟩

end Request

/-! ### The wait -/

section Wait

variable {rate : JsNumber}

def wait (rate : JsNumber) : JsNumber := .ofRat ⌈Binary64.round (rate.value / 1000)⌉

theorem ceil_div_eq (positive : 0 < rate.value) (finite : rate.value < Binary64.infinity) :
    ceil (div (some rate) (ofNat 1000)) = some (wait rate) := by
  rw [ofNat, div_finite (JsNumber.isFinite_of_nonneg positive.le finite) thousand_finite
    thousand_positive.ne', ofNat_thousand]
  rfl

theorem wait_finite (positive : 0 < rate.value) (finite : rate.value < Binary64.infinity) :
    (wait rate).isFinite = true := by
  have quotient : rate.value / 1000 ≤ 2 ^ ((1015 : ℕ) : ℤ) := by
    rw [div_le_iff₀ (by norm_num)]
    have power : Binary64.infinity = 2 ^ ((1015 : ℕ) : ℤ) * 2 ^ (9 : ℤ) := by
      rw [← zpow_add₀ (by norm_num)]
      rfl
    have scaled := mul_le_mul_of_nonneg_left (show (2 : ℚ) ^ (9 : ℤ) ≤ 1000 by norm_num)
      (Binary64.two_zpow_pos ((1015 : ℕ) : ℤ)).le
    exact (finite.le.trans power.le).trans scaled
  have rounded : Binary64.round (rate.value / 1000) ≤ 2 ^ ((1015 : ℕ) : ℤ) := by
    rw [← Binary64.round_two_zpow (by norm_num) (by norm_num)]
    exact Binary64.round_mono quotient
  have most : (wait rate).value ≤ 2 ^ ((1015 : ℕ) : ℤ) := round_ceil_le rounded (by norm_num)
  have below : (2 : ℚ) ^ ((1015 : ℕ) : ℤ) < Binary64.infinity :=
    zpow_lt_zpow_right₀ (by norm_num) (by norm_num)
  refine JsNumber.isFinite_of_nonneg ?_ (most.trans_lt below)
  have nonneg : (0 : ℚ) ≤ Binary64.round (rate.value / 1000) := round_nonneg (by positivity)
  exact round_nonneg (by exact_mod_cast Int.ceil_nonneg nonneg)

theorem rate_le_wait (positive : 2 ^ (-1009 : ℤ) ≤ rate.value)
    (short : 1000 * (wait rate).value ≤ 8640000000000000) :
    rate.value ≤ 1000 * (wait rate).value := by
  have ratePositive : 0 < rate.value := (Binary64.two_zpow_pos _).trans_le positive
  have nonneg : (0 : ℚ) ≤ Binary64.round (rate.value / 1000) := round_nonneg (by positivity)
  obtain ⟨seconds, ceil_is⟩ := Int.eq_ofNat_of_zero_le (Int.ceil_nonneg nonneg)
  have covers : Binary64.round (rate.value / 1000) ≤ seconds := by
    have above := Int.le_ceil (Binary64.round (rate.value / 1000))
    rw [ceil_is] at above
    exact_mod_cast above
  have value : (wait rate).value = Binary64.round (seconds : ℚ) := by
    rw [wait, ceil_is, JsNumber.ofRat_value, Int.cast_natCast]
  have small : seconds ≤ 8640000000000 := by
    by_contra long
    have least := natCast_le_round (by norm_num) (show ((8640000000001 : ℕ) : ℚ) ≤ seconds by
      exact_mod_cast not_le.mp long)
    rw [← value] at least
    push_cast at least
    linarith
  have exact_value : (wait rate).value = seconds := by
    rw [value, Binary64.round_natCast (by omega)]
  rw [exact_value]
  by_contra above
  have product : Binary64.round (seconds * 1000 : ℚ) = seconds * 1000 := by
    exact_mod_cast @Binary64.round_natCast (seconds * 1000) (by omega)
  have normal : (2 : ℚ) ^ (-1022 : ℤ) ≤ rate.value / 1000 := by
    rw [le_div_iff₀ (by norm_num)]
    have scaled := mul_le_mul_of_nonneg_left (show (1000 : ℚ) ≤ 2 ^ (13 : ℤ) by norm_num)
      (Binary64.two_zpow_pos (-1022)).le
    rw [← zpow_add₀ (by norm_num)] at scaled
    exact scaled.trans positive
  have lost := Binary64.lt_round_div (by norm_num) (Nat.cast_nonneg seconds) product rate.rounded
    (by linarith) normal
  linarith

end Wait

/-! ### Runs -/

section Run

variable {settings : Settings} {caller : Caller} {rate : JsNumber}

theorem burst_bounds (settings : Settings) (caller : Caller) :
    1 ≤ (caller.limits settings).burst ∧ (caller.limits settings).burst ≤ 2 ^ 52 := by
  have bounds : ∀ tier, 1 ≤ TIER_BURST_DEFAULTS tier ∧ TIER_BURST_DEFAULTS tier ≤ 2 ^ 52 := by
    intro tier
    cases tier <;> exact ⟨by decide, by decide⟩
  exact bounds caller.tier

def Kept (burst now : ℕ) (bucket : Option Bucket) : Prop :=
  ∀ kept, bucket = some kept → Fair burst now kept

theorem refilled_fair (pace : Pace (caller.limits settings).rpm rate) {earlier : ℕ} {now : Time}
    {bucket : Option Bucket} (kept : Kept (caller.limits settings).burst earlier bucket)
    (le : earlier ≤ now.val) :
    Fair (caller.limits settings).burst now.val (refilled bucket now (caller.limits settings)) := by
  obtain ⟨burstPositive, burstSmall⟩ := burst_bounds settings caller
  have ratePositive : 0 < rate.value := (Binary64.two_zpow_pos _).trans_le pace.positive
  have before : Fair (caller.limits settings).burst now.val
      (bucket.getD ⟨ofNat (caller.limits settings).burst, ofNat now⟩) := by
    cases bucket with
    | none => exact fair_new now.small
    | some bucket => exact (kept bucket rfl).mono le
  obtain ⟨count, few, tokens⟩ := before.tokens
  obtain ⟨last, lastRefill, nonneg, past⟩ := before.lastRefill
  unfold refilled
  rw [pace.quotient]
  by_cases due : 1 ≤ (earned rate (.ofRat (now.val - last.value))).value
  · obtain ⟨-, -, -, -, fair⟩ := refill_due burstPositive burstSmall tokens few lastRefill nonneg
      past ratePositive pace.finite due
    exact fair
  · rw [refill_early lastRefill nonneg past ratePositive pace.finite due]
    exact before

theorem run_cons (buckets : Buckets) (request : Request) (requests : List Request) :
    run settings buckets (request :: requests) =
      run settings (serve settings buckets request).2 requests := rfl

theorem serve_bucket (buckets : Buckets) (request : Request) :
    (serve settings buckets request).2 request.bucketKey =
      some (refilled (buckets request.bucketKey) request.now (request.limits settings)).consume :=
  Function.update_self ..

theorem serve_other (buckets : Buckets) {request : Request} {bucketKey : JsString}
    (other : request.bucketKey ≠ bucketKey) :
    (serve settings buckets request).2 bucketKey = buckets bucketKey :=
  Function.update_of_ne other.symm ..

theorem run_other {requests : List Request} {bucketKey : JsString}
    (others : ∀ request ∈ requests, request.bucketKey ≠ bucketKey) (buckets : Buckets) :
    run settings buckets requests bucketKey = buckets bucketKey := by
  induction requests generalizing buckets with
  | nil => rfl
  | cons request requests ih =>
    rw [run_cons, ih fun later mem => others later (List.mem_cons_of_mem _ mem)]
    exact serve_other buckets (others request List.mem_cons_self)

theorem kept_serve (pace : Pace (caller.limits settings).rpm rate) {buckets : Buckets}
    {request : Request} {earlier : ℕ}
    (kept : Kept (caller.limits settings).burst earlier (buckets caller.bucketKey))
    (le : earlier ≤ request.now.val)
    (own : request.bucketKey = caller.bucketKey → request.toCaller = caller) :
    Kept (caller.limits settings).burst request.now.val
      ((serve settings buckets request).2 caller.bucketKey) := by
  by_cases same : request.bucketKey = caller.bucketKey
  · have limits : request.limits settings = caller.limits settings := by rw [own same]
    rw [← same, serve_bucket, limits, same]
    rintro _ ⟨⟩
    exact (refilled_fair pace kept le).consume (burst_bounds settings caller).2
  · rw [serve_other buckets same]
    exact fun bucket found => (kept bucket found).mono le

theorem kept_run (pace : Pace (caller.limits settings).rpm rate) {requests : List Request}
    (own : ∀ request ∈ requests, request.bucketKey = caller.bucketKey → request.toCaller = caller)
    (inOrder : InOrder requests) {limit : ℕ}
    (before : ∀ request ∈ requests, request.now.val ≤ limit) {buckets : Buckets} {earlier : ℕ}
    (after : ∀ request ∈ requests, earlier ≤ request.now.val) (le : earlier ≤ limit)
    (kept : Kept (caller.limits settings).burst earlier (buckets caller.bucketKey)) :
    Kept (caller.limits settings).burst limit (run settings buckets requests caller.bucketKey) := by
  induction requests generalizing buckets earlier with
  | nil => exact fun bucket found => (kept bucket found).mono le
  | cons request requests ih =>
    have order := List.pairwise_cons.mp inOrder
    exact ih (fun later mem => own later (List.mem_cons_of_mem _ mem)) order.2
      (fun later mem => before later (List.mem_cons_of_mem _ mem)) order.1
      (before request List.mem_cons_self)
      (kept_serve pace kept (after request List.mem_cons_self) (own request List.mem_cons_self))

theorem denied_bucket (pace : Pace (caller.limits settings).rpm rate) {earlier : ℕ} {now : Time}
    {bucket : Option Bucket} (kept : Kept (caller.limits settings).burst earlier bucket)
    (le : earlier ≤ now.val)
    (denied : (refilled bucket now (caller.limits settings)).allows = false) :
    ∃ last : JsNumber, 0 ≤ last.value ∧ last.value ≤ now.val ∧
      (refilled bucket now (caller.limits settings)).consume = ⟨ofNat 0, some last⟩ := by
  have fair := refilled_fair pace kept le
  obtain ⟨count, few, tokens⟩ := fair.tokens
  obtain ⟨last, lastRefill, nonneg, past⟩ := fair.lastRefill
  have small : count ≤ 2 ^ 53 := by
    have bound := (burst_bounds settings caller).2
    omega
  have empty : count = 0 := by
    by_contra left
    rw [(allows_ofNat tokens small).mpr (by omega)] at denied
    cases denied
  refine ⟨last, nonneg, past, ?_⟩
  rw [consume_ofNat tokens small, empty, ← lastRefill]

theorem allows_after (pace : Pace (caller.limits settings).rpm rate) {now : Time} {last : JsNumber}
    (nonneg : 0 ≤ last.value) {since : ℕ} (past : last.value ≤ since) (le : since ≤ now.val)
    (waited : rate.value ≤ now.val - since) :
    (refilled (some ⟨ofNat 0, some last⟩) now (caller.limits settings)).allows = true := by
  obtain ⟨burstPositive, burstSmall⟩ := burst_bounds settings caller
  have ratePositive : 0 < rate.value := (Binary64.two_zpow_pos _).trans_le pace.positive
  have sinceNow : (since : ℚ) ≤ now.val := by exact_mod_cast le
  have elapsed : ((now.val - since : ℕ) : ℚ) ≤ Binary64.round (now.val - last.value) := by
    have small := now.small
    apply natCast_le_round (by omega)
    rw [Nat.cast_sub le]
    linarith
  have due : 1 ≤ (earned rate (.ofRat (now.val - last.value))).value := by
    have quotient : ((1 : ℕ) : ℚ) ≤ Binary64.round (now.val - last.value) / rate.value := by
      rw [le_div_iff₀ ratePositive, Nat.cast_one, one_mul]
      rw [Nat.cast_sub le] at elapsed
      linarith
    have least := natCast_le_round (by norm_num) quotient
    rw [Nat.cast_one] at least
    exact least
  obtain ⟨more, positive, few, tokens, -⟩ := @refill_due ⟨ofNat 0, some last⟩ _ _ _ _ _
    burstPositive burstSmall rfl (Nat.zero_le _) rfl nonneg (past.trans sinceNow) ratePositive
    pace.finite due
  unfold refilled
  rw [pace.quotient]
  exact (allows_ofNat tokens (by omega)).mpr positive

theorem honest_of_paced (paced : Paced settings caller) : HonestRetryAfter settings caller := by
  obtain ⟨rate, pace⟩ := pace_of_paced paced
  have ratePositive : 0 < rate.value := (Binary64.two_zpow_pos _).trans_le pace.positive
  intro before between denied later inOrder own deniedOwn laterOwn others reached denies
  have order := List.pairwise_append.mp inOrder
  have ordered : denied.now.val ≤ later.now.val :=
    (List.pairwise_cons.mp order.2.1).1 later (by simp)
  have deniedKey : denied.bucketKey = caller.bucketKey := by rw [deniedOwn]
  have laterKey : later.bucketKey = caller.bucketKey := by rw [laterOwn]
  have kept : Kept (caller.limits settings).burst denied.now.val (reached caller.bucketKey) :=
    kept_run pace own order.1 (fun request mem => order.2.2 request mem denied List.mem_cons_self)
      (fun _ _ => Nat.zero_le _) (Nat.zero_le _) nofun
  have deniedBucket : (refilled (reached caller.bucketKey) denied.now
      (caller.limits settings)).allows = false := by
    rw [← deniedKey, ← deniedOwn]
    exact denies
  obtain ⟨last, nonneg, past, consumed⟩ := denied_bucket pace kept le_rfl deniedBucket
  refine ⟨wait rate, ?_, wait_finite ratePositive pace.finite, fun waited => ?_⟩
  · have told : (serve settings reached denied).1.retryAfter =
        ceil (div (refillRateMs (denied.limits settings).rpm) (ofNat 1000)) :=
      if_neg (Bool.eq_false_iff.mp denies)
    rw [told, deniedOwn, pace.quotient, ceil_div_eq ratePositive pace.finite]
  · have clock : (later.now.val : ℚ) ≤ 8640000000000000 := by exact_mod_cast later.now.property
    have deniedNonneg : (0 : ℚ) ≤ denied.now.val := Nat.cast_nonneg _
    have covers := rate_le_wait pace.positive (by linarith)
    have bucket : run settings (serve settings reached denied).2 between caller.bucketKey =
        some ⟨ofNat 0, some last⟩ := by
      rw [run_other others, ← deniedKey, serve_bucket, deniedOwn, consumed]
    change (refilled _ later.now (later.limits settings)).allows = true
    rw [laterOwn, bucket]
    exact allows_after pace nonneg past ordered (by linarith)

/-! ### Without a pace -/

def start : Time := ⟨0, Nat.zero_le _⟩

theorem refilled_instant {limits : Limits} {bucket : Option Bucket} {tokens : JsNumeric}
    {interval : JsNumber} (quotient : refillRateMs limits.rpm = some interval)
    (held : bucket.getD ⟨ofNat limits.burst, ofNat 0⟩ = ⟨tokens, ofNat 0⟩) :
    refilled bucket start limits = ⟨tokens, ofNat 0⟩ := by
  unfold refilled
  change (bucket.getD ⟨ofNat limits.burst, ofNat 0⟩).refill (ofNat 0) _ _ = _
  rw [held, quotient]
  unfold Bucket.refill
  simp only [sub_ofNat le_rfl (Nat.zero_le _), Nat.sub_self, zero_div_not_gt, Bool.false_eq_true,
    if_false]

theorem run_instant {interval : JsNumber}
    (quotient : refillRateMs (caller.limits settings).rpm = some interval) (spent : ℕ) {count : ℕ}
    (small : count ≤ 2 ^ 53) {buckets : Buckets}
    (held : (buckets caller.bucketKey).getD ⟨ofNat (caller.limits settings).burst, ofNat 0⟩ =
      ⟨ofNat count, ofNat 0⟩) :
    (run settings buckets (List.replicate spent ⟨caller, start⟩) caller.bucketKey).getD
      ⟨ofNat (caller.limits settings).burst, ofNat 0⟩ = ⟨ofNat (count - spent), ofNat 0⟩ := by
  induction spent generalizing buckets count with
  | zero => exact held
  | succ spent ih =>
    have served : (serve settings buckets ⟨caller, start⟩).2 caller.bucketKey =
        some ⟨ofNat (count - 1), ofNat 0⟩ := by
      refine (serve_bucket buckets ⟨caller, start⟩).trans (congrArg some ?_)
      rw [refilled_instant quotient held, consume_ofNat rfl small]
    have rest := @ih (count - 1) (by omega)
      (serve settings buckets ⟨caller, start⟩).2 (by rw [served]; rfl)
    have fewer : count - (spent + 1) = count - 1 - spent := by omega
    rw [fewer]
    exact rest

theorem not_honest_of_instant {interval : JsNumber}
    (quotient : refillRateMs (caller.limits settings).rpm = some interval)
    (misleads : ∀ seconds : JsNumber, ceil (div (some interval) (ofNat 1000)) = some seconds →
      seconds.isFinite = true → seconds.value ≤ 0) :
    ¬ HonestRetryAfter settings caller := by
  intro honest
  obtain ⟨-, burstSmall⟩ := burst_bounds settings caller
  have same : ∀ request ∈ List.replicate (caller.limits settings).burst
      (⟨caller, start⟩ : Request) ++ [⟨caller, start⟩, ⟨caller, start⟩],
      request = ⟨caller, start⟩ := by
    intro request mem
    rcases List.mem_append.mp mem with spent | last
    · exact List.eq_of_mem_replicate spent
    · simpa using last
  have reached := @run_instant settings caller _ quotient (caller.limits settings).burst _
    (by omega) (fun _ => none) rfl
  rw [Nat.sub_self] at reached
  have empty := empty_denies (ofNat 0)
  have denies := refilled_instant quotient reached
  obtain ⟨seconds, told, finite, waits⟩ := honest
    (List.replicate (caller.limits settings).burst ⟨caller, start⟩) [] ⟨caller, start⟩
    ⟨caller, start⟩
    (List.Pairwise.imp_of_mem (fun left right _ => by rw [same _ left, same _ right])
      (List.pairwise_of_forall fun _ _ => trivial))
    (fun request mem _ => by rw [same request (List.mem_append_left _ mem)]) rfl rfl nofun
    ((congrArg Bucket.allows denies).trans empty)
  have shown : ceil (div (some interval) (ofNat 1000)) = some seconds := by
    rw [← quotient, ← told]
    exact (if_neg (by rw [denies, empty]; exact Bool.false_ne_true)).symm
  have zero := misleads seconds shown finite
  have again : (serve settings (run settings (fun _ => none)
      (List.replicate (caller.limits settings).burst ⟨caller, start⟩)) ⟨caller, start⟩).2
        caller.bucketKey = some ⟨ofNat 0, ofNat 0⟩ := by
    refine (serve_bucket _ ⟨caller, start⟩).trans (congrArg some ?_)
    rw [denies, consume_ofNat rfl (Nat.zero_le _)]
  have later := waits (by linarith)
  have stillEmpty := refilled_instant quotient (congrArg (Option.getD · _) again)
  exact Bool.false_ne_true (((congrArg Bucket.allows stillEmpty).trans empty).symm.trans later)

theorem not_honest_of_not_paced (unpaced : ¬ Paced settings caller) :
    ¬ HonestRetryAfter settings caller := by
  rcases refillRateMs_of_not_paced unpaced with zero | forever
  · refine not_honest_of_instant zero fun seconds told _ => ?_
    have quotient : div (some (JsNumber.ofNat 0)) (ofNat 1000) = ofNat 0 := by
      rw [ofNat, div_finite (JsNumber.isFinite_ofNat (Nat.zero_le _)) thousand_finite
        thousand_positive.ne', JsNumber.ofNat_value (Nat.zero_le _), Nat.cast_zero, zero_div]
      rfl
    rw [quotient] at told
    have value := congrArg JsNumber.value (Option.some.inj told)
    rw [JsNumber.ofRat_value, JsNumber.ofNat_value (Nat.zero_le _), Nat.cast_zero, Int.ceil_zero,
      Int.cast_zero] at value
    have rounded : Binary64.round 0 = 0 := by exact_mod_cast Binary64.round_natCast (Nat.zero_le _)
    exact (value.symm.trans rounded).le
  · refine not_honest_of_instant forever fun seconds told finite => ?_
    rw [ofNat, infinity_div thousand_finite thousand_positive, ceil_infinity] at told
    rw [← Option.some.inj told, JsNumber.isFinite_infinity] at finite
    cases finite

/-! ### Exhausted for good -/

theorem refilled_unlimited {limits : Limits} {now : Time} {count : ℕ}
    (quotient : refillRateMs limits.rpm = ofNat 0) (later : 1 ≤ now.val) (few : count ≤ 2 ^ 53)
    (small : limits.burst ≤ 2 ^ 53) :
    refilled (some ⟨ofNat count, ofNat 0⟩) now limits = ⟨ofNat limits.burst, none⟩ := by
  have positive : 0 < (JsNumber.ofNat now).value := by
    rw [JsNumber.ofNat_value now.small]
    exact_mod_cast later
  have added : floor (div (ofNat now) (ofNat 0)) = some .infinity := by
    rw [ofNat, div_zero_of_pos (JsNumber.isFinite_ofNat now.small) positive, floor_infinity]
  have due : gt (some .infinity) (ofNat 0) = true :=
    gt_infinity (JsNumber.isFinite_ofNat (Nat.zero_le _))
  have full : minimum (ofNat limits.burst) (add (ofNat count) (some .infinity)) =
      ofNat limits.burst := by
    rw [ofNat, ofNat, add_infinity (JsNumber.isFinite_ofNat few),
      minimum_infinity (JsNumber.isFinite_ofNat small)]
  unfold refilled Bucket.refill
  simp only [Option.getD_some, quotient, sub_ofNat (Nat.zero_le _) now.small, Nat.sub_zero, added,
    due, if_true, full, infinity_mul_zero, nan_sub, add_nan, nan_gt, Bool.false_eq_true, if_false]

theorem refilled_nan (tokens : JsNumeric) (now : Time) (limits : Limits) :
    refilled (some ⟨tokens, none⟩) now limits = ⟨tokens, none⟩ := by
  unfold refilled Bucket.refill
  simp only [Option.getD_some, sub_nan, nan_div, floor_nan, nan_gt, Bool.false_eq_true, if_false]

theorem run_nan {requests : List Request} (own : ∀ request ∈ requests, request.toCaller = caller)
    {count : ℕ} (small : count ≤ 2 ^ 53) {buckets : Buckets}
    (held : buckets caller.bucketKey = some ⟨ofNat count, none⟩) :
    run settings buckets requests caller.bucketKey =
      some ⟨ofNat (count - requests.length), none⟩ := by
  induction requests generalizing buckets count with
  | nil => exact held
  | cons request requests ih =>
    have first : request.toCaller = caller := own request List.mem_cons_self
    have key : request.bucketKey = caller.bucketKey := by rw [first]
    have served : (serve settings buckets request).2 caller.bucketKey =
        some ⟨ofNat (count - 1), none⟩ := by
      rw [← key, serve_bucket, key, held, refilled_nan, consume_ofNat rfl small]
    have rest := ih (fun later mem => own later (List.mem_cons_of_mem _ mem))
      (by omega) served
    have fewer : count - (request :: requests).length = count - 1 - requests.length := by
      rw [List.length_cons]
      omega
    rw [fewer]
    exact rest

def next : Time := ⟨1, by norm_num⟩

theorem exhausted_of_no_interval
    (quotient : refillRateMs (caller.limits settings).rpm = ofNat 0) :
    ∃ before : List Request, InOrder before ∧ ∀ (rest : List Request) (later : Request),
      (∀ request ∈ rest, request.toCaller = caller) → later.toCaller = caller →
        (serve settings (run settings (fun _ => none) (before ++ rest)) later).1.allowed =
          false := by
  obtain ⟨burstPositive, burstSmall⟩ := burst_bounds settings caller
  generalize burst_is : (caller.limits settings).burst = burst at burstPositive burstSmall
  have late : ∀ request ∈ List.replicate burst (⟨caller, next⟩ : Request),
      request = ⟨caller, next⟩ := fun request mem => List.eq_of_mem_replicate mem
  refine ⟨⟨caller, start⟩ :: List.replicate burst ⟨caller, next⟩, ?_, ?_⟩
  · refine List.pairwise_cons.mpr ⟨fun request _ => Nat.zero_le _, ?_⟩
    exact List.Pairwise.imp_of_mem (fun left right _ => by rw [late _ left, late _ right])
      (List.pairwise_of_forall fun _ _ => trivial)
  · intro rest later own laterOwn
    obtain ⟨spent, rfl⟩ : ∃ spent, burst = spent + 1 := ⟨burst - 1, by omega⟩
    have first : (serve settings (fun _ => none) ⟨caller, start⟩).2 caller.bucketKey =
        some ⟨ofNat spent, ofNat 0⟩ := by
      refine (serve_bucket _ ⟨caller, start⟩).trans (congrArg some ?_)
      rw [refilled_instant quotient rfl, consume_ofNat rfl (by omega), burst_is, Nat.add_sub_cancel]
    have second : (serve settings (serve settings (fun _ => none) ⟨caller, start⟩).2
        ⟨caller, next⟩).2 caller.bucketKey = some ⟨ofNat spent, none⟩ := by
      refine (serve_bucket _ ⟨caller, next⟩).trans (congrArg some ?_)
      rw [first, refilled_unlimited quotient le_rfl (by omega) (by omega),
        consume_ofNat rfl (by omega), burst_is, Nat.add_sub_cancel]
    have all : ∀ request ∈ List.replicate spent (⟨caller, next⟩ : Request) ++ rest,
        request.toCaller = caller := by
      intro request mem
      rcases List.mem_append.mp mem with same | other
      · rw [List.eq_of_mem_replicate same]
      · exact own request other
    have emptied := @run_nan settings caller _ all spent (by omega) _ second
    have none_left :
        spent - (List.replicate spent (⟨caller, next⟩ : Request) ++ rest).length = 0 := by
      rw [List.length_append, List.length_replicate]
      omega
    rw [none_left] at emptied
    have key : later.bucketKey = caller.bucketKey := by rw [laterOwn]
    have reached : run settings (fun _ => none)
        (⟨caller, start⟩ :: List.replicate (spent + 1) ⟨caller, next⟩ ++ rest) caller.bucketKey =
          some ⟨ofNat 0, none⟩ := by
      rw [List.cons_append, run_cons, List.replicate_succ, List.cons_append, run_cons, emptied]
    change (refilled (run _ _ _ later.bucketKey) later.now (later.limits _)).allows = false
    rw [key, reached, refilled_nan]
    exact empty_denies none

end Run

/-- The wait is honest exactly where a token takes a positive finite time. -/
theorem honestRetryAfter_iff (settings : Settings) (caller : Caller) :
    HonestRetryAfter settings caller ↔ Paced settings caller :=
  ⟨fun honest => by_contra fun unpaced => not_honest_of_not_paced unpaced honest, honest_of_paced⟩

def unlimited : Caller := ⟨js "client", .events, .enterprise, none⟩

/-- Such a key is told to wait no time and denied again at once. After one refill and a burst it is
denied for good. -/
theorem unlimited_exhausted :
    ¬ HonestRetryAfter RuntimeConfig.DEFAULT_RUNTIME_CONFIG unlimited ∧
      ∃ before : List Request, InOrder before ∧ ∀ (rest : List Request) (later : Request),
        (∀ request ∈ rest, request.toCaller = unlimited) → later.toCaller = unlimited →
          (serve RuntimeConfig.DEFAULT_RUNTIME_CONFIG
            (run RuntimeConfig.DEFAULT_RUNTIME_CONFIG (fun _ => none) (before ++ rest))
            later).1.allowed = false :=
  ⟨not_honest_of_not_paced (not_or.mpr ⟨not_not_intro rfl, not_not_intro rfl⟩),
    exhausted_of_no_interval (div_infinity minute_finite)⟩

end TokenBucket

end SorobanExplorer.Indexer
