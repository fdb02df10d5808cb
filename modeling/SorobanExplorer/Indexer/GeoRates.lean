import SorobanExplorer.Indexer.TokenBucket
import SorobanExplorer.Library.JsBigInt

/-!
Owns the regional factor of a rate: what `geoIpRateLimiter` leaves in `req.rateContext`, what
`tokenBucketMiddleware` makes of it, and when the rate that is enforced is the scaled one.
-/

namespace SorobanExplorer.Indexer.GeoRates

open Library
open Filters (js JsString)
open ApiKeys (Tier)
open RuntimeConfig (Settings)
open TokenBucket (EndpointGroup Limits getTierLimits usable? GROUP_TIER_LIMITS runtimeRpm)
open JsNumeric (ofNat mul maximum)

/-! ### Requests and regions -/

/-- What `getRateMultipliers` lets through: a finite number above zero. -/
abbrev Multiplier := { number : JsNumber // number.isFinite = true ∧ 0 < number.value }

/-- `none` is `null`, or a field that is not set. -/
structure RateContext where
  clientId : JsString
  tier : Tier
  rateLimit : Option JsNumeric
  geoMultiplier : Option Multiplier

structure Request where
  forwardedFor : Option JsString
  remoteAddress : Option JsString
  rateContext : Option RateContext

/-- The database of countries, which may be away or throw, and the two lists of the environment.
A country code is in upper case. -/
structure Geo where
  reader : Option (JsString → Except Unit (Option JsString))
  blockList : List JsString
  rateMultipliers : JsString → Option Multiplier

def extractClientIp (req : Request) : JsString :=
  match req.forwardedFor.filter (· ≠ []) with
  | some forwarded => JsBigInt.trim ((forwarded.splitOn 44).headD [])
  | none => req.remoteAddress.getD (js "0.0.0.0")

/-! ### The middlewares -/

/-- `Math.round` -/
def mathRound (number : JsNumeric) : JsNumeric :=
  number.map fun number => .ofRat ⌊number.value + 1 / 2⌋

inductive Answer where
  | forbidden
  | next (rateContext : Option RateContext)

def unknownContext : RateContext := ⟨js "unknown", .unauthenticated, none, none⟩

def applyMultiplier (context : RateContext) (multiplier : Multiplier) : RateContext :=
  match context.rateLimit with
  | some rateLimit =>
    { context with rateLimit := some (mathRound (mul rateLimit (some multiplier.val))) }
  | none => { context with geoMultiplier := some multiplier }

def geoIpRateLimiter (geo : Geo) (req : Request) : Answer :=
  match geo.reader with
  | none => .next req.rateContext
  | some get =>
    match get (extractClientIp req) with
    | .error () => .next req.rateContext
    | .ok found =>
      match found.filter (· ≠ []) with
      | none => .next req.rateContext
      | some countryCode =>
        if countryCode ∈ geo.blockList then .forbidden
        else
          match geo.rateMultipliers countryCode with
          | none => .next req.rateContext
          | some multiplier =>
            .next (some (applyMultiplier (req.rateContext.getD unknownContext) multiplier))

/-- The limits that `tokenBucketMiddleware` enforces: the multiplier of the context is not read. -/
def limitsOf (settings : Settings) (group : EndpointGroup) (rateContext : Option RateContext) :
    Limits :=
  let context := rateContext.getD unknownContext
  getTierLimits settings group context.tier (context.rateLimit.getD none)

/-! ### Scaled rates -/

def Geo.multiplier? (geo : Geo) (req : Request) : Option Multiplier := do
  let get ← geo.reader
  let found ← (get (extractClientIp req)).toOption
  let countryCode ← found.filter (· ≠ [])
  if countryCode ∈ geo.blockList then none else geo.rateMultipliers countryCode

def scaled (rate : JsNumber) (multiplier : Multiplier) : JsNumeric :=
  maximum (ofNat 1) (mathRound (mul (some rate) (some multiplier.val)))

/-- The rate that is enforced is the one without the factor times the factor, and a factor below one
makes it smaller. -/
def Scales (settings : Settings) (geo : Geo) (req : Request) (group : EndpointGroup)
    (multiplier : Multiplier) : Prop :=
  ∃ context, geoIpRateLimiter geo req = .next context ∧
    some (limitsOf settings group context).rpm =
      scaled (limitsOf settings group req.rateContext).rpm multiplier ∧
    (multiplier.val.value < 1 →
      (limitsOf settings group context).rpm.value <
        (limitsOf settings group req.rateContext).rpm.value)

def tierRpm (settings : Settings) (group : EndpointGroup) (tier : Tier) : JsNumber :=
  (getTierLimits settings group tier none).rpm

/-- A limit of the key that can be used is scaled unless it rounds to nothing or to infinity, where
the rate of the tier has to be what it should be by chance; without one the factor has to be at least
one and to round away. -/
def Applies (settings : Settings) (group : EndpointGroup) (context : RateContext)
    (multiplier : Multiplier) : Prop :=
  let tierRate := tierRpm settings group context.tier
  match usable? (context.rateLimit.getD none) with
  | some rate =>
    let product := mathRound (mul (some rate) (some multiplier.val))
    match usable? product with
    | some limit => multiplier.val.value < 1 → limit.value < rate.value
    | none =>
      product = ofNat 0 ∧ some tierRate = ofNat 1 ∧
          (multiplier.val.value < 1 → 1 < rate.value) ∨
        product = some .infinity ∧ tierRate = .infinity ∧ 1 ≤ multiplier.val.value
  | none => 1 ≤ multiplier.val.value ∧
      mathRound (mul (some tierRate) (some multiplier.val)) = some tierRate

/-! ### The context after the factor -/

theorem geoIpRateLimiter_of_multiplier {geo : Geo} {req : Request} {multiplier : Multiplier}
    (regional : geo.multiplier? req = some multiplier) :
    geoIpRateLimiter geo req =
      .next (some (applyMultiplier (req.rateContext.getD unknownContext) multiplier)) := by
  obtain ⟨get, reader, regional⟩ := Option.bind_eq_some_iff.mp regional
  obtain ⟨found, answer, regional⟩ := Option.bind_eq_some_iff.mp regional
  obtain ⟨countryCode, named, regional⟩ := Option.bind_eq_some_iff.mp regional
  split at regional
  · cases regional
  · next allowed =>
      have answered : get (extractClientIp req) = .ok found := by
        cases reply : get (extractClientIp req) with
        | ok value =>
          rw [reply] at answer
          cases answer
          rfl
        | error _ =>
          rw [reply] at answer
          cases answer
      simp only [geoIpRateLimiter, reader, answered, named, if_neg allowed, regional]

theorem applyMultiplier_rateLimit (context : RateContext) (multiplier : Multiplier) :
    usable? ((applyMultiplier context multiplier).rateLimit.getD none) =
      usable? (mathRound (mul (context.rateLimit.getD none) (some multiplier.val))) := by
  rw [applyMultiplier]
  cases limit : context.rateLimit with
  | none => rfl
  | some rateLimit => rfl

theorem applyMultiplier_tier (context : RateContext) (multiplier : Multiplier) :
    (applyMultiplier context multiplier).tier = context.tier := by
  rw [applyMultiplier]
  split <;> rfl

/-! ### Rounding -/

theorem one_value : (JsNumber.ofNat 1).value = 1 := by
  rw [JsNumber.ofNat_value (by norm_num), Nat.cast_one]

theorem maximum_one_of_ge {number : JsNumber} (large : 1 ≤ number.value) :
    maximum (ofNat 1) (some number) = some number := by
  rw [ofNat, maximum, one_value, if_pos large]

theorem maximum_one_of_lt {number : JsNumber} (small : number.value < 1) :
    maximum (ofNat 1) (some number) = ofNat 1 := by
  rw [ofNat, maximum, one_value, if_neg (not_le.mpr small)]

theorem usable?_of {number : JsNumber} (finite : number.isFinite = true)
    (positive : 0 < number.value) : usable? (some number) = some number := by
  rw [usable?, Option.filter_some, finite, decide_eq_true positive]
  rfl

theorem usable?_of_le {number : JsNumber} (nonpositive : number.value ≤ 0) :
    usable? (some number) = none := by
  rw [usable?, Option.filter_some, decide_eq_false (not_lt.mpr nonpositive), Bool.and_false]
  rfl

theorem usable?_of_not_finite {number : JsNumber} (unbounded : number.isFinite = false) :
    usable? (some number) = none := by
  rw [usable?, Option.filter_some, unbounded]
  rfl

theorem one_le_mathRound {value : ℚ} (large : 1 / 2 ≤ value) :
    1 ≤ Binary64.round ((⌊value + 1 / 2⌋ : ℤ) : ℚ) := by
  have whole : (1 : ℤ) ≤ ⌊value + 1 / 2⌋ := Int.le_floor.mpr (by push_cast; linarith)
  have rounded := @JsNumeric.natCast_le_round 1 ((⌊value + 1 / 2⌋ : ℤ) : ℚ) (by norm_num)
    (by exact_mod_cast whole)
  exact_mod_cast rounded

theorem mathRound_nonpos {value : ℚ} (small : value < 1 / 2) :
    Binary64.round ((⌊value + 1 / 2⌋ : ℤ) : ℚ) ≤ 0 := by
  by_contra positive
  have large := (JsNumeric.round_floor_ge_one_iff (value + 1 / 2)).mp (not_le.mp positive)
  linarith

theorem mathRound_cases {product : JsNumber} (nonneg : 0 ≤ product.value) :
    (∃ limit : JsNumber, mathRound (some product) = some limit ∧
        usable? (some limit) = some limit ∧ 1 ≤ limit.value) ∨
      mathRound (some product) = ofNat 0 ∨ mathRound (some product) = some .infinity := by
  have rounded : mathRound (some product) = some (.ofRat ⌊product.value + 1 / 2⌋) := rfl
  by_cases large : 1 / 2 ≤ product.value
  · have one := one_le_mathRound large
    cases finite : (JsNumber.ofRat ⌊product.value + 1 / 2⌋).isFinite with
    | true =>
      exact .inl ⟨_, rounded, usable?_of finite (zero_lt_one.trans_le one), one⟩
    | false =>
      have above : -Binary64.infinity < (JsNumber.ofRat ⌊product.value + 1 / 2⌋).value :=
        (neg_lt_zero.mpr Binary64.infinity_pos).trans_le (zero_le_one.trans one)
      refine .inr (.inr (rounded.trans (congrArg some (JsNumber.ext ?_))))
      exact JsNumeric.value_of_not_finite finite above
  · have nothing : ⌊product.value + 1 / 2⌋ = 0 := by
      rw [Int.floor_eq_zero_iff]
      exact ⟨by linarith, by linarith [not_le.mp large]⟩
    refine .inr (.inl (rounded.trans ?_))
    rw [nothing, ofNat, JsNumber.ofNat, Int.cast_zero, Nat.cast_zero]

theorem mathRound_infinity : mathRound (some .infinity) = some .infinity := by
  have whole : ((⌊Binary64.infinity + 1 / 2⌋ : ℤ) : ℚ) = Binary64.infinity := by
    rw [show Binary64.infinity = _ from JsNumeric.two_zpow_eq_cast 1024, Int.floor_intCast_add]
    norm_num
  refine congrArg some (JsNumber.ext ?_)
  rw [JsNumber.ofRat_value, JsNumber.infinity_value, whole, Binary64.round_infinity]

theorem not_usable_scaled {rateLimit : JsNumeric} (unusable : usable? rateLimit = none)
    (multiplier : Multiplier) : usable? (mathRound (mul rateLimit (some multiplier.val))) = none := by
  cases rateLimit with
  | none => rfl
  | some rate =>
    cases finite : rate.isFinite with
    | true =>
      have small : rate.value ≤ 0 := by
        by_contra positive
        rw [usable?_of finite (not_le.mp positive)] at unusable
        cases unusable
      have product : rate.value * multiplier.val.value ≤ 0 :=
        mul_nonpos_of_nonpos_of_nonneg small multiplier.property.2.le
      have rounded : Binary64.round (rate.value * multiplier.val.value) ≤ 0 := by
        have zero : Binary64.round 0 = 0 := by
          exact_mod_cast Binary64.round_natCast (Nat.zero_le _)
        exact (Binary64.round_mono product).trans zero.le
      rw [JsNumeric.mul_finite finite multiplier.property.1]
      refine usable?_of_le (mathRound_nonpos ?_)
      rw [JsNumber.ofRat_value]
      linarith
    | false =>
      have apart : ¬ (rate.value = 0 ∨ multiplier.val.value = 0) := by
        rintro (zero | zero)
        · rw [JsNumber.isFinite, zero, abs_zero, decide_eq_false_iff_not] at finite
          exact finite Binary64.infinity_pos
        · exact multiplier.property.2.ne' zero
      have product : mul (some rate) (some multiplier.val) =
          some (JsNumber.unbounded (rate.value * multiplier.val.value)) := by
        simp only [mul, finite, Bool.false_and, Bool.false_eq_true, if_false, if_neg apart]
      rw [product, JsNumber.unbounded]
      split
      · refine usable?_of_le (mathRound_nonpos ?_)
        have negative : JsNumber.infinity.neg.value = -Binary64.infinity := rfl
        rw [negative]
        linarith [Binary64.infinity_pos]
      · rw [mathRound_infinity]
        exact usable?_of_not_finite JsNumber.isFinite_infinity

theorem one_le_tierRpm (settings : Settings) (group : EndpointGroup) (tier : Tier) :
    1 ≤ (tierRpm settings group tier).value := by
  unfold tierRpm getTierLimits
  cases runtime : runtimeRpm settings group tier with
  | some rpm =>
    show 1 ≤ (JsNumber.ofNat rpm.val).value
    rw [JsNumber.ofNat_value (rpm.property.2.trans (by norm_num))]
    exact_mod_cast rpm.property.1
  | none =>
    show 1 ≤ (GROUP_TIER_LIMITS group tier).value
    by_cases limited : tier = .enterprise
    · have placeholder : GROUP_TIER_LIMITS group tier = .infinity := by
        rw [limited]
        cases group <;> rfl
      rw [placeholder, JsNumber.infinity_value]
      exact_mod_cast (@Binary64.natCast_lt_infinity 1 (by norm_num)).le
    · obtain ⟨count, positive, small, same⟩ := TokenBucket.tierLimits_natCast limited group
      rw [same, JsNumber.ofNat_value (small.trans (by norm_num))]
      exact_mod_cast positive

/-! ### The rate that is enforced -/

theorem limitsOf_rpm (settings : Settings) (group : EndpointGroup) (context : RateContext) :
    (limitsOf settings group (some context)).rpm =
      (usable? (context.rateLimit.getD none)).getD (tierRpm settings group context.tier) := rfl

theorem limitsOf_getD (settings : Settings) (group : EndpointGroup)
    (rateContext : Option RateContext) :
    limitsOf settings group rateContext =
      limitsOf settings group (some (rateContext.getD unknownContext)) := rfl

theorem one_le_product {rate product : JsNumber} {multiplier : Multiplier} (large : 1 ≤ rate.value)
    (factor : 1 ≤ multiplier.val.value)
    (multiplied : mul (some rate) (some multiplier.val) = some product) : 1 ≤ product.value := by
  have least : 1 ≤ rate.value * multiplier.val.value := one_le_mul_of_one_le_of_one_le large factor
  cases finite : rate.isFinite with
  | true =>
    rw [JsNumeric.mul_finite finite multiplier.property.1, Option.some_inj] at multiplied
    rw [← multiplied, JsNumber.ofRat_value]
    exact_mod_cast @JsNumeric.natCast_le_round 1 _ (by norm_num) (by exact_mod_cast least)
  | false =>
    have apart : ¬ (rate.value = 0 ∨ multiplier.val.value = 0) :=
      not_or.mpr ⟨(zero_lt_one.trans_le large).ne', multiplier.property.2.ne'⟩
    simp only [mul, finite, Bool.false_and, Bool.false_eq_true, if_false, if_neg apart,
      Option.some_inj, JsNumber.unbounded] at multiplied
    rw [if_neg (not_lt.mpr (zero_le_one.trans least))] at multiplied
    rw [← multiplied, JsNumber.infinity_value]
    exact_mod_cast (@Binary64.natCast_lt_infinity 1 (by norm_num)).le

theorem unscaled_iff {rate : JsNumber} (large : 1 ≤ rate.value) (multiplier : Multiplier) :
    (some rate = scaled rate multiplier ∧ (multiplier.val.value < 1 → rate.value < rate.value)) ↔
      1 ≤ multiplier.val.value ∧
        mathRound (mul (some rate) (some multiplier.val)) = some rate := by
  obtain ⟨product, multiplied, -⟩ := JsNumeric.mul_of_pos (zero_lt_one.trans_le large)
    multiplier.property.1 multiplier.property.2
  rw [scaled, multiplied]
  constructor
  · rintro ⟨same, below⟩
    have factor : 1 ≤ multiplier.val.value := by
      by_contra small
      exact lt_irrefl _ (below (not_le.mp small))
    refine ⟨factor, ?_⟩
    have enough : 1 / 2 ≤ product.value := by
      linarith [one_le_product large factor multiplied]
    have rounded : 1 ≤ (JsNumber.ofRat ⌊product.value + 1 / 2⌋).value := one_le_mathRound enough
    rw [mathRound, Option.map_some, maximum_one_of_ge rounded] at same
    exact same.symm
  · rintro ⟨factor, same⟩
    rw [same, maximum_one_of_ge large]
    exact ⟨rfl, fun small => absurd factor (not_le.mpr small)⟩

theorem zero_ne_infinity : ofNat 0 ≠ some .infinity := by
  intro same
  have values := congrArg JsNumber.value (Option.some.inj same)
  rw [JsNumber.ofNat_value (Nat.zero_le _), Nat.cast_zero, JsNumber.infinity_value] at values
  exact Binary64.infinity_pos.ne values

/-- The rate that is enforced is the scaled one exactly where the factor applies. -/
theorem geoRate_iff {settings : Settings} {geo : Geo} {req : Request} (group : EndpointGroup)
    {multiplier : Multiplier} (regional : geo.multiplier? req = some multiplier) :
    Scales settings geo req group multiplier ↔
      Applies settings group (req.rateContext.getD unknownContext) multiplier := by
  rw [Scales, geoIpRateLimiter_of_multiplier regional, limitsOf_getD settings group req.rateContext]
  unfold Applies
  generalize req.rateContext.getD unknownContext = context
  simp only [Answer.next.injEq, exists_eq_left', limitsOf_rpm, applyMultiplier_rateLimit,
    applyMultiplier_tier]
  have tierLarge := one_le_tierRpm settings group context.tier
  cases usable : usable? (context.rateLimit.getD none) with
  | none =>
    rw [not_usable_scaled usable multiplier]
    exact unscaled_iff tierLarge multiplier
  | some rate =>
    have limit : context.rateLimit.getD none = some rate := (Option.filter_eq_some_iff.mp usable).1
    have spec := TokenBucket.usable?_eq_some usable
    obtain ⟨product, multiplied, nonneg⟩ := JsNumeric.mul_of_pos spec.2 multiplier.property.1
      multiplier.property.2
    dsimp only [Option.getD_some]
    rw [limit, scaled, multiplied]
    rcases mathRound_cases nonneg with ⟨product, rounded, usableLimit, one⟩ | nothing | endless
    · rw [rounded, usableLimit, maximum_one_of_ge one]
      exact ⟨fun holds => holds.2, fun below => ⟨rfl, below⟩⟩
    · have zero : (JsNumber.ofNat 0).value = 0 := by
        rw [JsNumber.ofNat_value (Nat.zero_le _), Nat.cast_zero]
      have unusable : usable? (ofNat 0) = none := usable?_of_le zero.le
      have one : maximum (ofNat 1) (ofNat 0) = ofNat 1 :=
        maximum_one_of_lt (zero.trans_lt zero_lt_one)
      rw [nothing, unusable, one]
      constructor
      · rintro ⟨same, below⟩
        refine .inl ⟨rfl, same, fun small => ?_⟩
        have smaller := below small
        rwa [Option.some.inj same, one_value] at smaller
      · rintro (⟨-, same, below⟩ | ⟨wrong, -⟩)
        · refine ⟨same, fun small => ?_⟩
          rw [Option.getD_none, Option.some.inj same, one_value]
          exact below small
        · exact absurd wrong zero_ne_infinity
    · have unusable := usable?_of_not_finite JsNumber.isFinite_infinity
      have most : maximum (ofNat 1) (some .infinity) = some .infinity := by
        apply maximum_one_of_ge
        exact_mod_cast (@Binary64.natCast_lt_infinity 1 (by norm_num)).le
      rw [endless, unusable, most]
      constructor
      · rintro ⟨same, below⟩
        refine .inr ⟨rfl, Option.some.inj same, not_lt.mp fun small => ?_⟩
        have smaller := below small
        rw [Option.some.inj same, JsNumber.infinity_value] at smaller
        exact absurd (JsNumber.isFinite_iff.mp spec.1)
          (not_lt.mpr (smaller.le.trans (le_abs_self _)))
      · rintro (⟨wrong, -⟩ | ⟨-, same, factor⟩)
        · exact absurd wrong.symm zero_ne_infinity
        · exact ⟨congrArg some same, fun small => absurd factor (not_le.mpr small)⟩

theorem quarter_value : (JsNumber.ofRat (1 / 4)).value = 1 / 4 := by
  have exact : Binary64.round (2 ^ (-2 : ℤ)) = 2 ^ (-2 : ℤ) :=
    Binary64.round_two_zpow (by decide) (by decide)
  have power : (2 : ℚ) ^ (-2 : ℤ) = 1 / 4 := by norm_num
  rwa [power] at exact

def quarter : Multiplier :=
  ⟨.ofRat (1 / 4), by
    refine ⟨JsNumber.isFinite_of_nonneg ?_ ?_, ?_⟩ <;> rw [quarter_value]
    · norm_num
    · refine lt_trans ?_ (@Binary64.natCast_lt_infinity 1 (by norm_num))
      norm_num
    · norm_num⟩

theorem quarter_mul {count : ℕ} (small : count ≤ 2 ^ 53) :
    mathRound (mul (ofNat count) (some quarter.val)) =
      mathRound (some (.ofRat ((count : ℚ) / 4))) := by
  have product : (JsNumber.ofNat count).value * quarter.val.value = (count : ℚ) / 4 := by
    rw [JsNumber.ofNat_value small, show quarter.val.value = 1 / 4 from quarter_value]
    ring
  rw [ofNat, JsNumeric.mul_finite (JsNumber.isFinite_ofNat small) quarter.property.1, product]

def quartered : Geo := ⟨some fun _ => .ok (some (js "DE")), [], fun _ => some quarter⟩

def requestOf (tier : Tier) (rateLimit : Option JsNumeric) : Request :=
  ⟨none, none, some ⟨js "client", tier, rateLimit, none⟩⟩

theorem quartered_multiplier (req : Request) : quartered.multiplier? req = some quarter := rfl

theorem thousand_quartered : mathRound (mul (ofNat 1000) (some quarter.val)) = ofNat 250 := by
  have whole : (((1000 : ℕ) : ℚ) / 4) = ((250 : ℕ) : ℚ) := by norm_num
  have rounded : ⌊((250 : ℕ) : ℚ) + 1 / 2⌋ = 250 := by
    rw [Int.floor_eq_iff]
    norm_num
  rw [quarter_mul (by norm_num), whole, mathRound, Option.map_some, JsNumber.ofRat_value,
    Binary64.round_natCast (by norm_num), rounded]
  rfl

theorem one_quartered : mathRound (mul (ofNat 1) (some quarter.val)) = ofNat 0 := by
  have rounded : ⌊(1 / 4 : ℚ) + 1 / 2⌋ = 0 := by
    rw [Int.floor_eq_iff]
    norm_num
  rw [quarter_mul (by norm_num), Nat.cast_one, mathRound, Option.map_some, quarter_value, rounded]
  rfl

theorem usable?_ofNat {count : ℕ} (positive : 0 < count) (small : count ≤ 2 ^ 53) :
    usable? (ofNat count) = ofNat count := by
  refine usable?_of (JsNumber.isFinite_ofNat small) ?_
  rw [JsNumber.ofNat_value small]
  exact_mod_cast positive

theorem geoRate_iff_thousand : Scales RuntimeConfig.DEFAULT_RUNTIME_CONFIG quartered
    (requestOf .pro (some (ofNat 1000))) .events quarter := by
  refine (geoRate_iff .events (quartered_multiplier _)).mpr ?_
  have limit : usable? (ofNat 1000) = some (.ofNat 1000) := usable?_ofNat (by norm_num) (by norm_num)
  have after : usable? (ofNat 250) = some (.ofNat 250) := usable?_ofNat (by norm_num) (by norm_num)
  have product := thousand_quartered
  rw [ofNat] at product
  unfold Applies
  simp only [requestOf, Option.getD_some, limit, product, after]
  intro _
  rw [JsNumber.ofNat_value (by norm_num), JsNumber.ofNat_value (by norm_num)]
  norm_num

theorem quarter_lt_one : quarter.val.value < 1 := by
  rw [show quarter.val.value = 1 / 4 from quarter_value]
  norm_num

/-- Without a limit of the key the factor is lost, and a small limit is raised to the rate of the
tier. -/
theorem factor_lost :
    ¬ Scales RuntimeConfig.DEFAULT_RUNTIME_CONFIG quartered (requestOf .pro none) .events quarter ∧
    ¬ Scales RuntimeConfig.DEFAULT_RUNTIME_CONFIG quartered (requestOf .free (some (ofNat 1)))
        .events quarter := by
  constructor
  · rintro ⟨context, answer, -, below⟩
    cases answer
    exact lt_irrefl _ (below quarter_lt_one)
  · rintro ⟨context, answer, -, below⟩
    rw [geoIpRateLimiter_of_multiplier (quartered_multiplier _), Answer.next.injEq] at answer
    have smaller := below quarter_lt_one
    have limit : usable? (ofNat 1) = some (.ofNat 1) := usable?_ofNat (by norm_num) (by norm_num)
    have unusable : usable? (ofNat 0) = none := usable?_of_le (le_of_eq (by
      rw [JsNumber.ofNat_value (Nat.zero_le _), Nat.cast_zero]))
    rw [← answer, limitsOf_rpm, applyMultiplier_rateLimit] at smaller
    simp only [requestOf, Option.getD_some, one_quartered, unusable, Option.getD_none, limitsOf_rpm,
      limit] at smaller
    have table : tierRpm RuntimeConfig.DEFAULT_RUNTIME_CONFIG .events .free = .ofNat 1000 := rfl
    rw [applyMultiplier_tier, table, JsNumber.ofNat_value (by norm_num), one_value] at smaller
    norm_num at smaller

end SorobanExplorer.Indexer.GeoRates
