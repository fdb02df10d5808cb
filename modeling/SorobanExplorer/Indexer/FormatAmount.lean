import SorobanExplorer.Filters.JsValue
import SorobanExplorer.Library.JsBigInt

/-!
Owns `formatAmount`: a raw token amount as a decimal text with its scale, without trailing zeros or
before the symbol of an asset.
-/

namespace SorobanExplorer.Indexer.FormatAmount

open Library Filters

/-! ### The function -/

inductive Raw where
  | bigint (value : ℤ)
  | string (text : JsString)
  | number (value : JsNumeric)

inductive DecimalsOrSymbol where
  | string (symbol : JsString)
  | number (decimals : JsNumeric)
  | other

/-- `String(raw)` -/
def Raw.text : Raw → JsString
  | .bigint value => JsBigInt.text value
  | .string text => text
  | .number none => js "NaN"
  | .number (some value) => Utf16.encode value.text

/-- `BigInt(number)`; `none` is a `RangeError`. -/
def bigIntOfNumber : JsNumeric → Option ℤ
  | none => none
  | some number =>
    if number.isFinite ∧ number.value.den = 1 then some number.value.num else none

/-- `10n ** exponent`; `none` is a `RangeError`. -/
def tenPower (exponent : ℤ) : Option ℕ :=
  if exponent < 0 then none else some (10 ^ exponent.toNat)

/-- `.` -/
def point : UInt16 := 46

def space : UInt16 := 32

/-- `text.replace(/0+$/, "")` -/
def dropZeros (text : JsString) : JsString := text.rdropWhile (· = Digit.unit 0)

/-- `none` where it throws. -/
def formatAmount (raw : Raw) (decimalsOrSymbol : DecimalsOrSymbol)
    (decimals : Option JsNumeric) : Option JsString := do
  let (symbol, scale) := match decimalsOrSymbol with
    | .string symbol => (some symbol, decimals.getD (.ofNat 7))
    | .number given => (none, given)
    | .other => (none, .ofNat 7)
  let rawBig ← JsBigInt.ofText? ((raw.text.splitOn point).headD [])
  let scaleBig ← bigIntOfNumber scale
  let divisor ← tenPower scaleBig
  let neg := rawBig < 0
  let abs := rawBig.natAbs
  let whole := abs / divisor
  let frac := abs % divisor
  let stripped := dropZeros
    (List.leftpad scaleBig.toNat (Digit.unit 0) (Digit.units (Digit.ofNat frac)))
  let fracStr := if symbol.isSome ∧ stripped = [] then [Digit.unit 0] else stripped
  let magnitude :=
    if fracStr ≠ [] then Digit.units (Digit.ofNat whole) ++ point :: fracStr
    else Digit.units (Digit.ofNat whole)
  let signed := if neg then 45 :: magnitude else magnitude
  match symbol with
  | some symbol => pure (signed ++ space :: symbol)
  | none => pure signed

/-! ### Amounts -/

structure Decimal where
  sign : JsBigInt.Sign
  whole : Digits
  fraction : Option (List Digit)

namespace Decimal

def fractionUnits : Option (List Digit) → JsString
  | none => []
  | some digits => point :: Digit.units digits

def text (decimal : Decimal) : JsString :=
  decimal.sign.units ++ Digit.units decimal.whole.list ++ fractionUnits decimal.fraction

def fractionDigits (decimal : Decimal) : List Digit := decimal.fraction.getD []

def value (decimal : Decimal) : ℚ :=
  decimal.sign.factor * (Digit.number decimal.whole.list + Digit.fraction decimal.fractionDigits)

end Decimal

inductive Amount where
  | bigint (value : ℤ)
  | decimal (text : Decimal)

namespace Amount

def raw : Amount → Raw
  | .bigint value => .bigint value
  | .decimal text => .string text.text

def value : Amount → ℚ
  | .bigint value => value
  | .decimal text => text.value

end Amount

def towardZero (value : ℚ) : ℤ := if value < 0 then ⌈value⌉ else ⌊value⌋

theorem towardZero_intCast (value : ℤ) : towardZero value = value := by
  unfold towardZero
  rw [Int.ceil_intCast, Int.floor_intCast, ite_self]

theorem towardZero_decimal (decimal : Decimal) :
    towardZero decimal.value = decimal.sign.factor * Digit.number decimal.whole.list := by
  have low := Digit.fraction_nonneg decimal.fractionDigits
  have high := Digit.fraction_lt_one decimal.fractionDigits
  unfold Decimal.value
  generalize Digit.fraction decimal.fractionDigits = rest at low high
  generalize Digit.number decimal.whole.list = whole
  have nonneg : (0 : ℚ) ≤ whole + rest := by positivity
  have floor : ⌊(whole : ℚ) + rest⌋ = whole := by
    rw [Int.floor_eq_iff]
    constructor
    · push_cast
      linarith
    · push_cast
      linarith
  have plain : towardZero ((1 : ℤ) * ((whole : ℚ) + rest)) = 1 * whole := by
    rw [Int.cast_one, one_mul, one_mul, towardZero, if_neg (not_lt.mpr nonneg), floor]
  cases decimal.sign with
  | absent => exact plain
  | plus => exact plain
  | minus =>
    show towardZero (((-1 : ℤ) : ℚ) * ((whole : ℚ) + rest)) = -1 * whole
    rw [Int.cast_neg, Int.cast_one, neg_one_mul, neg_one_mul, towardZero, Int.ceil_neg, floor]
    split_ifs with negative
    · rfl
    · have zero : (whole : ℚ) + rest = 0 := by linarith
      rw [zero, neg_zero, Int.floor_zero]
      rw [zero, Int.floor_zero] at floor
      rw [← floor, neg_zero]

theorem rawBig_eq (amount : Amount) :
    JsBigInt.ofText? ((amount.raw.text.splitOn point).headD []) =
      some (towardZero amount.value) := by
  have apart (sign : JsBigInt.Sign) (digits : List Digit) :
      point ∉ sign.units ++ Digit.units digits := by
    have signs : point ∉ sign.units := by
      revert sign
      intro sign
      cases sign <;> decide
    rw [List.mem_append, not_or]
    exact ⟨signs, Digit.notMem_units (by decide) digits⟩
  cases amount with
  | bigint value =>
    show JsBigInt.ofText? (((JsBigInt.text value).splitOn point).headD []) = _
    have one : (JsBigInt.text value).splitOn point = [JsBigInt.text value] :=
      List.splitOn_eq_singleton (apart _ _)
    rw [one, List.headD_cons, JsBigInt.ofText?_text]
    exact congrArg some (towardZero_intCast value).symm
  | decimal decimal =>
    obtain ⟨sign, whole, fraction⟩ := decimal
    have head : (((Decimal.mk sign whole fraction).text).splitOn point).headD [] =
        sign.units ++ Digit.units whole.list := by
      cases fraction with
      | none =>
        rw [Decimal.text, Decimal.fractionUnits, List.append_nil,
          List.splitOn_eq_singleton (apart _ _)]
        rfl
      | some digits =>
        rw [Decimal.text, Decimal.fractionUnits, List.splitOn_append_cons_self,
          List.splitOn_eq_singleton (apart _ _)]
        rfl
    show JsBigInt.ofText? (((Decimal.mk sign whole fraction).text.splitOn point).headD []) = _
    rw [head, JsBigInt.ofText?_signed sign whole.ne_nil]
    exact congrArg some (towardZero_decimal ⟨sign, whole, fraction⟩).symm

/-! ### The text -/

def fracDigits (withSymbol : Bool) (scale frac : ℕ) : List Digit :=
  let stripped := Digit.dropZeros (Digit.leftpadZeros scale frac)
  if withSymbol ∧ stripped = [] then [0] else stripped

def shown (withSymbol : Bool) (scale : ℕ) (raw : ℤ) : Numeral where
  negative := raw < 0
  whole := ⟨Digit.ofNat (raw.natAbs / 10 ^ scale), Digit.ofNat_ne_nil _⟩
  fraction := Numeral.digits? (fracDigits withSymbol scale (raw.natAbs % 10 ^ scale))
  exponent := none

theorem fraction_fracDigits (withSymbol : Bool) {scale frac : ℕ} (small : frac < 10 ^ scale) :
    Digit.fraction (fracDigits withSymbol scale frac) = frac / 10 ^ scale := by
  have stripped := Digit.fraction_dropZeros (Digit.leftpadZeros scale frac)
  rw [Digit.fraction_leftpad small] at stripped
  rw [← stripped, fracDigits]
  split_ifs with empty
  · rw [empty.2]
    simp [Digit.fraction, Digit.number]
  · rfl

theorem fractionDigits_shown (withSymbol : Bool) (scale : ℕ) (raw : ℤ) :
    (shown withSymbol scale raw).fractionDigits =
      fracDigits withSymbol scale (raw.natAbs % 10 ^ scale) := by
  unfold shown Numeral.fractionDigits Numeral.digits?
  split
  next empty => rw [empty]; rfl
  next => rfl

theorem shown_value (withSymbol : Bool) (scale : ℕ) (raw : ℤ) :
    (shown withSymbol scale raw).value * 10 ^ scale = raw := by
  have digits := fractionDigits_shown withSymbol scale raw
  have fraction := fraction_fracDigits withSymbol
    (Nat.mod_lt raw.natAbs (Nat.pow_pos (n := scale) (show 0 < 10 by decide)))
  have sign : (shown withSymbol scale raw).sign * (raw.natAbs : ℤ) = raw := by
    have same : (shown withSymbol scale raw).sign =
        (JsBigInt.Sign.ofNegative (raw < 0)).factor := by
      show Numeral.signOf (decide (raw < 0)) = _
      cases decide (raw < 0) <;> rfl
    rw [same, JsBigInt.factor_mul_natAbs]
  have whole : (raw.natAbs : ℚ) =
      (raw.natAbs / 10 ^ scale : ℕ) * 10 ^ scale + (raw.natAbs % 10 ^ scale : ℕ) := by
    exact_mod_cast (Nat.div_add_mod' raw.natAbs (10 ^ scale)).symm
  have exponent : (shown withSymbol scale raw).exponentValue = 0 := rfl
  have coefficient : ((shown withSymbol scale raw).coefficient : ℚ) *
      10 ^ (shown withSymbol scale raw).power =
        (raw.natAbs / 10 ^ scale : ℕ) + (raw.natAbs % 10 ^ scale : ℕ) / 10 ^ scale := by
    rw [← fraction, Numeral.coefficient, Numeral.power, exponent, digits, Digit.number_append,
      zero_sub, zpow_neg, zpow_natCast, Digit.fraction]
    have head : Digit.number (shown withSymbol scale raw).whole.list =
        raw.natAbs / 10 ^ scale := Digit.number_ofNat _
    rw [head]
    push_cast
    field_simp
  calc (shown withSymbol scale raw).value * 10 ^ scale
      = (shown withSymbol scale raw).sign * (((shown withSymbol scale raw).coefficient : ℚ) *
          10 ^ (shown withSymbol scale raw).power * 10 ^ scale) := by
        rw [Numeral.value]
        push_cast
        ring
    _ = (shown withSymbol scale raw).sign * (raw.natAbs : ℚ) := by
        rw [coefficient, add_mul, div_mul_cancel₀ _ (by positivity), ← whole]
    _ = raw := by
        have cast := congrArg (Int.cast : ℤ → ℚ) sign
        rwa [Int.cast_mul, Int.cast_natCast] at cast

theorem encode_shown (withSymbol : Bool) (scale : ℕ) (raw : ℤ) :
    let fracStr := Digit.units (fracDigits withSymbol scale (raw.natAbs % 10 ^ scale))
    let whole := Digit.units (Digit.ofNat (raw.natAbs / 10 ^ scale))
    let magnitude := if fracStr ≠ [] then whole ++ point :: fracStr else whole
    Utf16.encode (shown withSymbol scale raw).text =
      if raw < 0 then 45 :: magnitude else magnitude := by
  intro fracStr whole magnitude
  have tail : Utf16.encode (Numeral.fractionText (shown withSymbol scale raw).fraction) =
      if fracStr ≠ [] then point :: fracStr else [] := by
    by_cases empty : fracDigits withSymbol scale (raw.natAbs % 10 ^ scale) = []
    · have none : (shown withSymbol scale raw).fraction = none := dif_pos empty
      rw [none, if_neg (by simp [fracStr, empty, Digit.units])]
      rfl
    · have some : (shown withSymbol scale raw).fraction =
          some ⟨fracDigits withSymbol scale (raw.natAbs % 10 ^ scale), empty⟩ := dif_neg empty
      rw [some, if_pos (by simpa [fracStr, Digit.units] using empty), Numeral.fractionText,
        Utf16.encode_cons, Digit.encode_chars]
      rfl
  have text : Utf16.encode (shown withSymbol scale raw).text =
      (if raw < 0 then [45] else []) ++ whole ++ if fracStr ≠ [] then point :: fracStr else [] := by
    have exponent : Numeral.exponentText (shown withSymbol scale raw).exponent = [] := rfl
    have sign : Utf16.encode (if (shown withSymbol scale raw).negative then ['-'] else []) =
        if raw < 0 then [45] else [] := by
      show Utf16.encode (if decide (raw < 0) = true then ['-'] else []) = _
      by_cases negative : raw < 0
      · rw [if_pos (decide_eq_true negative), if_pos negative]
        rfl
      · rw [if_neg (by simpa using negative), if_neg negative]
        rfl
    rw [Numeral.text, exponent, List.append_nil, Utf16.encode_append, Utf16.encode_append, sign,
      tail, Digit.encode_chars]
    rfl
  rw [text]
  unfold magnitude
  split_ifs <;> simp

/-! ### What is formatted -/

structure IsScale (number : JsNumber) (scale : ℕ) : Prop where
  finite : number.isFinite = true
  value : number.value = scale

theorem bigIntOfNumber_scale {number : JsNumber} {scale : ℕ} (places : IsScale number scale) :
    bigIntOfNumber (some number) = some (scale : ℤ) := by
  rw [bigIntOfNumber, places.value, if_pos ⟨places.finite, Rat.den_natCast scale⟩]
  rfl

theorem tenPower_natCast (scale : ℕ) : tenPower scale = some (10 ^ scale) := by
  rw [tenPower, if_neg (by omega), Int.toNat_natCast]

theorem dropZeros_leftpad (scale frac : ℕ) :
    dropZeros (List.leftpad scale (Digit.unit 0) (Digit.units (Digit.ofNat frac))) =
      Digit.units (Digit.dropZeros (Digit.leftpadZeros scale frac)) := by
  rw [dropZeros, Digit.units_leftpad, Digit.units_dropZeros, Digit.leftpadZeros]

theorem formatAmount_plain (amount : Amount) {number : JsNumber} {scale : ℕ}
    (places : IsScale number scale) :
    formatAmount amount.raw (.number (some number)) none =
      some (Utf16.encode (shown false scale (towardZero amount.value)).text) := by
  unfold formatAmount
  simp only [rawBig_eq, bigIntOfNumber_scale places, tenPower_natCast, Option.bind_eq_bind,
    Option.bind_some, Int.toNat_natCast, dropZeros_leftpad]
  rw [encode_shown]
  rfl

theorem formatAmount_symbol (amount : Amount) (symbol : JsString) {number : JsNumber} {scale : ℕ}
    (places : IsScale number scale) :
    formatAmount amount.raw (.string symbol) (some (some number)) =
      some (Utf16.encode (shown true scale (towardZero amount.value)).text ++
        space :: symbol) := by
  have digits (frac : ℕ) :
      (if (some symbol).isSome = true ∧
          Digit.units (Digit.dropZeros (Digit.leftpadZeros scale frac)) = [] then [Digit.unit 0]
        else Digit.units (Digit.dropZeros (Digit.leftpadZeros scale frac))) =
        Digit.units (fracDigits true scale frac) := by
    unfold fracDigits
    cases Digit.dropZeros (Digit.leftpadZeros scale frac) <;> simp [Digit.units]
  unfold formatAmount
  simp only [rawBig_eq, bigIntOfNumber_scale places, tenPower_natCast, Option.bind_eq_bind,
    Option.bind_some, Option.getD_some, Int.toNat_natCast, dropZeros_leftpad, digits]
  exact congrArg (fun text => some (text ++ space :: symbol)) (encode_shown true scale _).symm

/-- The text is a decimal, and that many `10 ^ -scale` is what it writes. -/
def Writes (text : JsString) (scale : ℕ) (raw : ℤ) : Prop :=
  ∃ numeral, Numeral.recognize (Utf16.decode text) = some numeral ∧
    numeral.value * 10 ^ scale = raw

theorem writes_shown (withSymbol : Bool) (scale : ℕ) (raw : ℤ) :
    Writes (Utf16.encode (shown withSymbol scale raw).text) scale raw := by
  refine ⟨shown withSymbol scale raw, ?_, shown_value withSymbol scale raw⟩
  rw [Utf16.decode_encode, Numeral.recognize_text]

theorem Writes.unique {text : JsString} {scale : ℕ} {left right : ℤ}
    (writesLeft : Writes text scale left) (writesRight : Writes text scale right) :
    left = right := by
  obtain ⟨numeral, recognized, value⟩ := writesLeft
  obtain ⟨other, otherRecognized, otherValue⟩ := writesRight
  rw [recognized] at otherRecognized
  cases otherRecognized
  rw [value] at otherValue
  exact_mod_cast otherValue

def NothingTrails (text : JsString) : Prop :=
  text.getLast? ≠ some point ∧ (point ∈ text → text.getLast? ≠ some (Digit.unit 0))

theorem nothingTrails_shown (scale : ℕ) (raw : ℤ) :
    NothingTrails (Utf16.encode (shown false scale raw).text) := by
  have apart : ∀ digit : Digit, digit.unit ≠ point := by decide
  have noPoint := Digit.notMem_units apart
  have lastDigit {digits : List Digit} (nonempty : digits ≠ []) (head : JsString) :
      (head ++ Digit.units digits).getLast? = some (digits.getLast nonempty).unit := by
    rw [Digit.units, List.getLast?_append, List.getLast?_map,
      List.getLast?_eq_some_getLast nonempty]
    rfl
  have stripped : fracDigits false scale (raw.natAbs % 10 ^ scale) =
      Digit.dropZeros (Digit.leftpadZeros scale (raw.natAbs % 10 ^ scale)) := by
    simp [fracDigits]
  have whole := lastDigit (Digit.ofNat_ne_nil (raw.natAbs / 10 ^ scale))
  rw [encode_shown, stripped]
  by_cases empty : Digit.dropZeros (Digit.leftpadZeros scale (raw.natAbs % 10 ^ scale)) = []
  · have noFraction : ¬ Digit.units ([] : List Digit) ≠ [] := by simp [Digit.units]
    rw [empty, if_neg noFraction]
    split_ifs
    · rw [← List.singleton_append, NothingTrails, whole]
      refine ⟨fun same => apart _ (Option.some.inj same), fun listed => ?_⟩
      rw [List.singleton_append, List.mem_cons, or_iff_right (by decide)] at listed
      exact absurd listed (noPoint _)
    · rw [← List.nil_append (Digit.units _), NothingTrails, whole]
      refine ⟨fun same => apart _ (Option.some.inj same), fun listed => ?_⟩
      exact absurd listed (noPoint _)
  · have fraction : Digit.units
        (Digit.dropZeros (Digit.leftpadZeros scale (raw.natAbs % 10 ^ scale))) ≠ [] := by
      simpa [Digit.units] using empty
    have nonzero : ¬ decide ((Digit.dropZeros
        (Digit.leftpadZeros scale (raw.natAbs % 10 ^ scale))).getLast empty = 0) = true :=
      List.rdropWhile_last_not _ _ empty
    have units : ∀ digit : Digit, digit ≠ 0 → digit.unit ≠ Digit.unit 0 := by decide
    have last := lastDigit empty
    rw [if_pos fraction]
    have ends (head : JsString) : NothingTrails (head ++ (Digit.units
        (Digit.dropZeros (Digit.leftpadZeros scale (raw.natAbs % 10 ^ scale))))) := by
      rw [NothingTrails, last]
      refine ⟨fun same => apart _ (Option.some.inj same), fun _ same => ?_⟩
      exact units _ (by simpa using nonzero) (Option.some.inj same)
    split_ifs
    · rw [List.append_cons, ← List.cons_append]
      exact ends _
    · rw [List.append_cons]
      exact ends _

/-- An amount is formatted as its integer, truncated toward zero, at its scale: exactly, without
anything that trails where there is no symbol, and apart from every other integer. -/
theorem formatAmount_exact (amount : Amount) {number : JsNumber} {scale : ℕ}
    (places : IsScale number scale) :
    (∃ text, formatAmount amount.raw (.number (some number)) none = some text ∧
      Writes text scale (towardZero amount.value) ∧ NothingTrails text) ∧
    (∀ symbol, ∃ text,
      formatAmount amount.raw (.string symbol) (some (some number)) =
        some (text ++ space :: symbol) ∧
      Writes text scale (towardZero amount.value)) ∧
    (∀ raw : ℤ, amount.value = raw → towardZero amount.value = raw) ∧
    ∀ other : Amount, formatAmount other.raw (.number (some number)) none =
        formatAmount amount.raw (.number (some number)) none ↔
      towardZero other.value = towardZero amount.value := by
  refine ⟨⟨_, formatAmount_plain amount places, writes_shown _ _ _, nothingTrails_shown _ _⟩,
    fun symbol => ⟨_, formatAmount_symbol amount symbol places, writes_shown _ _ _⟩, ?_, ?_⟩
  · intro raw whole
    rw [whole, towardZero_intCast]
  · intro other
    rw [formatAmount_plain amount places, formatAmount_plain other places]
    constructor
    · intro same
      have writes := writes_shown false scale (towardZero other.value)
      rw [Option.some.inj same] at writes
      exact writes.unique (writes_shown false scale (towardZero amount.value))
    · intro same
      rw [same]

/-- Half a unit owed, at six places. -/
theorem formatAmount_exact_half :
    formatAmount (.bigint (-500000)) (.number (.ofNat 6)) none = some (js "-0.5") ∧
      Writes (js "-0.5") 6 (-500000) ∧ NothingTrails (js "-0.5") := by
  have places : IsScale (.ofNat 6) 6 :=
    ⟨JsNumber.isFinite_ofNat (by decide), JsNumber.ofNat_value (by decide)⟩
  have amount := towardZero_intCast (-500000)
  obtain ⟨text, formatted, writes, trails⟩ := (formatAmount_exact (.bigint (-500000)) places).1
  have shownText := formatAmount_plain (.bigint (-500000)) places
  change _ = some (Utf16.encode (shown false 6 (towardZero ((-500000 : ℤ) : ℚ))).text) at shownText
  change Writes text 6 (towardZero ((-500000 : ℤ) : ℚ)) at writes
  have literal : Utf16.encode (shown false 6 (-500000)).text = js "-0.5" := by decide +kernel
  rw [amount, literal] at shownText
  rw [shownText] at formatted
  cases Option.some.inj formatted
  rw [amount] at writes
  exact ⟨shownText, writes, trails⟩

theorem formatAmount_stroops (raw : Raw) (symbol : JsString) :
    formatAmount raw (.string symbol) none =
      formatAmount raw (.string symbol) (some (.ofNat 7)) := rfl

end SorobanExplorer.Indexer.FormatAmount
