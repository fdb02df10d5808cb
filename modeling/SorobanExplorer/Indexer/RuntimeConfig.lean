import SorobanExplorer.Filters.JsValue

/-!
Owns the runtime configuration: the schema, with settings that are only built valid, and what is
written of a configuration and read back.

The members of an object are the own properties that `JSON.parse` made, each name once.
-/

namespace SorobanExplorer.Indexer

open Library
open Filters (js JsString)

namespace RuntimeConfig

/-- `z.number().int().positive().max(limit)` -/
abbrev Positive (limit : ℕ) := { number : ℕ // 0 < number ∧ number ≤ limit }

/-- `Number.MAX_SAFE_INTEGER`, the limit of `int()`. -/
def maxSafe : ℕ := 9007199254740991

abbrev Rpm := Positive 1000000

structure AlertThresholds where
  ledgerGap : Option (Positive maxSafe)
  dlqSize : Option (Positive maxSafe)

structure Settings where
  /-- `{ [endpointGroup]: { [tier]: rpm } }` -/
  rateLimitOverrides : List (JsString × List (JsString × Rpm))
  featureFlags : List (JsString × Bool)
  alertThresholds : AlertThresholds

def DEFAULT_RUNTIME_CONFIG : Settings := ⟨[], [], ⟨none, none⟩⟩

/-! ### The schema -/

def positive? (limit : ℕ) : Json → Option (Positive limit)
  | .number numeral =>
    let value := (JsNumber.ofNumeral numeral).value
    if valid : value = value.num.toNat ∧ 0 < value.num.toNat ∧ value.num.toNat ≤ limit then
      some ⟨value.num.toNat, valid.2⟩
    else none
  | _ => none

def boolean? : Json → Option Bool
  | .boolean value => some value
  | _ => none

/-- `z.record(z.string(), item)` -/
def record? {α : Type} (item? : Json → Option α) : Json → Option (List (JsString × α))
  | .object members => members.mapM fun member => (item? member.2).map (member.1, ·)
  | _ => none

/-- `.default(value)`: a missing member is the default. -/
def withDefault {α : Type} (value : α) (item? : Json → Option α) (member : Option Json) : Option α :=
  member.elim (some value) item?

/-- `.optional()` -/
def optional {α : Type} (item? : Json → Option α) (member : Option Json) : Option (Option α) :=
  member.elim (some none) fun item => (item? item).map some

/-- `.strict()`: the members, where no other name occurs. -/
def strict (names : List JsString) : Json → Option (List (JsString × Json))
  | .object members => if ∀ member ∈ members, member.1 ∈ names then some members else none
  | _ => none

def alertThresholds? (candidate : Json) : Option AlertThresholds := do
  let members ← strict [js "ledgerGap", js "dlqSize"] candidate
  let ledgerGap ← optional (positive? maxSafe) (members.lookup (js "ledgerGap"))
  let dlqSize ← optional (positive? maxSafe) (members.lookup (js "dlqSize"))
  return ⟨ledgerGap, dlqSize⟩

/-- `none` where it throws. -/
def validateRuntimeConfig (candidate : Json) : Option Settings := do
  let members ← strict [js "rateLimitOverrides", js "featureFlags", js "alertThresholds"] candidate
  let rateLimitOverrides ← withDefault [] (record? (record? (positive? 1000000)))
    (members.lookup (js "rateLimitOverrides"))
  let featureFlags ← withDefault [] (record? boolean?) (members.lookup (js "featureFlags"))
  let alertThresholds ← withDefault ⟨none, none⟩ alertThresholds?
    (members.lookup (js "alertThresholds"))
  return ⟨rateLimitOverrides, featureFlags, alertThresholds⟩

/-! ### What is stored -/

def Positive.toJson {limit : ℕ} (number : Positive limit) : Json :=
  .number (.ofInt (number.val : ℤ))

def recordJson {α : Type} (item : α → Json) (record : List (JsString × α)) : Json :=
  .object (record.map fun member => (member.1, item member.2))

/-- A member that is `undefined` is not written. -/
def optionalMember {α : Type} (name : String) (item : α → Json) (value : Option α) :
    List (JsString × Json) :=
  (value.map fun value => (js name, item value)).toList

def AlertThresholds.toJson (thresholds : AlertThresholds) : Json :=
  .object (optionalMember "ledgerGap" Positive.toJson thresholds.ledgerGap ++
    optionalMember "dlqSize" Positive.toJson thresholds.dlqSize)

/-- The `config` column after `JSON.stringify(valid)`. -/
def Settings.toJson (settings : Settings) : Json :=
  .object [
    (js "rateLimitOverrides", recordJson (recordJson Positive.toJson) settings.rateLimitOverrides),
    (js "featureFlags", recordJson .boolean settings.featureFlags),
    (js "alertThresholds", settings.alertThresholds.toJson)]

theorem ofNumeral_ofInt {number : ℕ} (small : number ≤ 2 ^ 53) :
    (JsNumber.ofNumeral (.ofInt (number : ℤ))).value = number := by
  rw [JsNumber.ofNumeral_value, Numeral.value_of_integral (Numeral.integral_ofInt _),
    Numeral.integer_ofInt, Int.cast_natCast, Binary64.round_natCast small]

theorem positive?_toJson {limit : ℕ} (safe : limit ≤ maxSafe) (number : Positive limit) :
    positive? limit number.toJson = some number := by
  have small : number.val ≤ 2 ^ 53 := by
    have bound := number.property.2
    unfold maxSafe at safe
    omega
  have value := ofNumeral_ofInt small
  have whole : (number.val : ℚ).num.toNat = number.val := by
    rw [Rat.num_natCast, Int.toNat_natCast]
  refine (dif_pos ?_).trans (congrArg some (Subtype.ext ?_))
  · rw [value, whole]
    exact ⟨rfl, number.property⟩
  · exact (congrArg (fun value : ℚ => value.num.toNat) value).trans whole

theorem record?_recordJson {α : Type} {item : α → Json} {item? : Json → Option α}
    (reads : ∀ value, item? (item value) = some value) (record : List (JsString × α)) :
    record? item? (recordJson item record) = some record := by
  change (record.map fun member => (member.1, item member.2)).mapM
    (fun member => (item? member.2).map (member.1, ·)) = some record
  induction record with
  | nil => rfl
  | cons member record ih =>
    rw [List.map_cons, List.mapM_cons, ih, reads]
    rfl

theorem alertThresholds?_toJson (thresholds : AlertThresholds) :
    alertThresholds? thresholds.toJson = some thresholds := by
  obtain ⟨ledgerGap, dlqSize⟩ := thresholds
  have reads := @positive?_toJson maxSafe le_rfl
  have different : (js "dlqSize" == js "ledgerGap") = false := by decide
  have different' : (js "ledgerGap" == js "dlqSize") = false := by decide
  cases ledgerGap <;> cases dlqSize <;>
    simp [alertThresholds?, AlertThresholds.toJson, strict, optionalMember, optional, reads,
      different, different', List.lookup_cons]

theorem validateRuntimeConfig_toJson (settings : Settings) :
    validateRuntimeConfig settings.toJson = some settings := by
  have rates := record?_recordJson (record?_recordJson (@positive?_toJson 1000000
    (by decide))) settings.rateLimitOverrides
  have flags := @record?_recordJson Bool .boolean boolean? (fun _ => rfl) settings.featureFlags
  have thresholds := alertThresholds?_toJson settings.alertThresholds
  have flagsOther : (js "featureFlags" == js "rateLimitOverrides") = false := by decide
  have thresholdsOther : (js "alertThresholds" == js "rateLimitOverrides") = false := by decide
  have thresholdsLast : (js "alertThresholds" == js "featureFlags") = false := by decide
  simp [validateRuntimeConfig, Settings.toJson, strict, withDefault, rates, flags, thresholds,
    flagsOther, thresholdsOther, thresholdsLast, List.lookup_cons]

end RuntimeConfig

end SorobanExplorer.Indexer
