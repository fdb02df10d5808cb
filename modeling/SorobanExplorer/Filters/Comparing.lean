import SorobanExplorer.Filters.Reading

/-!
Owns the comparison of one operand with one value: what an operand is to each of
the two interpreters, when a comparison of numbers or of texts comes out alike,
and that it does.
-/

namespace SorobanExplorer.Filters

open Library
open Library.Postgres

/-! ### Orders -/

theorem compare_congr {α β : Type} [LinearOrder α] [LinearOrder β] {left right : α}
    {left' right' : β} (lt : left < right ↔ left' < right') (eq : left = right ↔ left' = right') :
    Ord.compare left right = Ord.compare left' right' := by
  rcases lt_trichotomy left' right' with less | equal | greater
  · rw [compare_lt_iff_lt.mpr less, compare_lt_iff_lt.mpr (lt.mpr less)]
  · rw [compare_eq_iff_eq.mpr equal, compare_eq_iff_eq.mpr (eq.mpr equal)]
  · rw [compare_gt_iff_gt.mpr greater, compare_gt_iff_gt]
    exact lt_of_le_of_ne (not_lt.mp fun less => absurd (lt.mp less) greater.not_gt)
      fun equal => greater.ne' (eq.mp equal.symm)

def Comparison.ordered (comparison : Comparison) : Bool :=
  match comparison with
  | .eq | .ne => false
  | _ => true

theorem holds_congr {comparison : Comparison} {left right : Ordering}
    (eq : left = .eq ↔ right = .eq) (ordered : comparison.ordered = true → left = right) :
    comparison.holds left = comparison.holds right := by
  cases comparison with
  | eq => cases left <;> cases right <;> simp_all [Comparison.holds]
  | ne => cases left <;> cases right <;> simp_all [Comparison.holds]
  | gt => rw [ordered rfl]
  | gte => rw [ordered rfl]
  | lt => rw [ordered rfl]
  | lte => rw [ordered rfl]

section

variable {α : Type} [LinearOrder α] (left right : α)

theorem holds_eq_iff : Comparison.eq.holds (Ord.compare left right) = true ↔ left = right :=
  Ordering.isEq_iff_eq_eq.trans compare_eq_iff_eq

theorem holds_gte_iff : Comparison.gte.holds (Ord.compare left right) = true ↔ right ≤ left :=
  Std.LawfulLECmp.isGE_iff_ge

theorem holds_lte_iff : Comparison.lte.holds (Ord.compare left right) = true ↔ left ≤ right :=
  Std.LawfulLECmp.isLE_iff_le

end

/-! ### Operands -/

inductive Operand where
  | missing
  | text (chars : List Char)
  | boolean (value : Bool)
  | number (numeral : Numeral)
  | container

def Operand.ofJson : Json → Operand
  | .null => .missing
  | .boolean value => .boolean value
  | .number numeral => .number numeral
  | .string units => .text (Utf16.decode units)
  | .array _ | .object _ => .container

def Operand.ofMember? (member : Option Json) : Operand := (member.map Operand.ofJson).getD .missing

def Operand.ofText? (column : Option Text) : Operand :=
  match column with
  | some stored => .text stored.chars
  | none => .missing

def Operand.IsValue : Operand → JsValue → Prop
  | .missing, value => value = .undefined ∨ value = .null
  | .text chars, value => value = .string (Utf16.encode chars)
  | .boolean flag, value => value = .boolean flag
  | .number numeral, value => value = .number (.ofNumeral numeral)
  | .container, value => value.isObject = true

def Operand.IsText : Operand → Option (List Char) → Prop
  | .missing, read => read = none
  | .text chars, read => read = some chars
  | .boolean flag, read => read = some (Jsonb.booleanText flag)
  | .number numeral, read => read = some (numericOut numeral) ∧ numericRange numeral = true
  | .container, read => ∃ first rest, read = some (first :: rest) ∧ first ∈ ['[', '\x7b']

def operandAt (event : EventRecord) : Field → Operand
  | .column column _ =>
    if column = js "contract_id" then .text event.contract_id.chars
    else if column = js "function" then .text event.function.chars
    else Operand.ofText? event.tx_hash
  | .topic index => Operand.ofText? (event.raw_topics.getD [])[index.val]?
  | .args path => Operand.ofMember?
      (event.raw_data.bind fun data => (Json.parse? data.chars).bind (memberAt path))

/-! ### Numbers -/

def Scalar.numeral? (scalar : Scalar) : Option Numeral :=
  match scalar with
  | .boolean _ => none
  | scalar => Numeral.recognize (Utf16.decode scalar.text)

/-- What `cmpNumeric` sees of a number: the numeral of `String(value)` and a
rational that `Number(value)` is nearest to. -/
structure Shows (value : JsValue) (shown : Numeral) (precise : ℚ) : Prop where
  integer : bigInt? value = if shown.integral then some shown.integer else none
  number : (toNumber value).value = Binary64.round precise

/-- Comparing the numeral `shown` for `precise` with another numeral, as integers
or as binary64 values, neither swaps nor merges them. -/
def OrderKept (precise : ℚ) (shown other : Numeral) : Prop :=
  if shown.integral ∧ other.integral then
    (shown.value < other.value ↔ precise < other.value) ∧
      (shown.value = other.value ↔ precise = other.value)
  else Binary64.round precise = Binary64.round other.value → precise = other.value

theorem shows_text {chars : List Char} {numeral : Numeral}
    (recognized : Numeral.recognize chars = some numeral) :
    Shows (.string (Utf16.encode chars)) numeral numeral.value := by
  constructor
  · simp [bigInt?, JsValue.text, recognized]
  · show (((Numeral.recognize (Utf16.decode (Utf16.encode chars))).map
      JsNumber.ofNumeral).getD (.ofRat 0)).value = _
    rw [Utf16.decode_encode, recognized, Option.map_some, Option.getD_some,
      JsNumber.ofNumeral_value]

theorem shows_number {number : JsNumber} (finite : number.isFinite = true) {precise : ℚ}
    (value : number.value = Binary64.round precise) :
    Shows (.number number) number.numeral precise := by
  constructor
  · simp [bigInt?, JsValue.text, JsNumber.recognize_text finite]
  · rw [← value]
    rfl

theorem cmpNumeric_eq {left right : JsValue} {shown other : Numeral} {precise : ℚ}
    (leftShows : Shows left shown precise) (rightShows : Shows right other other.value)
    (kept : OrderKept precise shown other) :
    cmpNumeric left right = Ord.compare precise other.value := by
  unfold cmpNumeric
  rw [leftShows.integer, rightShows.integer, leftShows.number, rightShows.number]
  unfold OrderKept at kept
  by_cases integers : shown.integral = true ∧ other.integral = true
  · rw [if_pos integers] at kept
    have sameOrder := compare_congr kept.1 kept.2
    rw [if_pos integers.1, if_pos integers.2, ← sameOrder, Numeral.value_of_integral integers.1,
      Numeral.value_of_integral integers.2]
    exact compare_congr Int.cast_lt.symm Int.cast_inj.symm
  · rw [if_neg integers] at kept
    have rounded : Ord.compare (Binary64.round precise) (Binary64.round other.value) =
        Ord.compare precise other.value := by
      by_cases merged : Binary64.round precise = Binary64.round other.value
      · rw [kept merged, compare_eq_iff_eq.mpr rfl, compare_eq_iff_eq.mpr rfl]
      · apply compare_congr (Binary64.lt_iff_of_round_ne merged).symm
        constructor
        · intro equal
          exact absurd equal merged
        · intro equal
          rw [equal]
    rw [← rounded]
    split
    next whole other wholeLeft wholeRight =>
      split_ifs at wholeLeft wholeRight with left right
      exact absurd ⟨left, right⟩ integers
    next => rfl

def numericRead : Operand → Option ℚ
  | .text chars => (Numeral.recognize chars).map Numeral.value
  | .number numeral => some numeral.value
  | _ => none

/-- A text that is a numeral is one `numeric` can hold. -/
def Castable : Operand → Prop
  | .text chars => ∀ numeral, Numeral.recognize chars = some numeral → numericRange numeral = true
  | _ => True

def NumberSettled : Operand → Numeral → Prop
  | .text chars, other =>
    ∀ numeral, Numeral.recognize chars = some numeral → OrderKept numeral.value numeral other
  | .number numeral, other =>
    (JsNumber.ofNumeral numeral).isFinite = true ∧
      OrderKept numeral.value (JsNumber.ofNumeral numeral).numeral other
  | _, _ => True

theorem numericRange_expanded {numeral : Numeral} (range : numericRange numeral = true) :
    numericRange numeral.expanded = true := by
  simp only [numericRange, Bool.and_eq_true, decide_eq_true_eq, Bool.or_eq_true] at range ⊢
  obtain ⟨⟨-, places⟩, size⟩ := range
  have noExponent : numeral.expanded.exponentValue = 0 := rfl
  refine ⟨⟨?_, ?_⟩, ?_⟩
  · rw [noExponent]
    norm_num
  · rw [Numeral.expanded, Numeral.power_plain, neg_neg, Int.toNat_natCast]
    exact places
  · rw [Numeral.value_expanded]
    rcases size with zero | bounded
    · left
      rw [Numeral.expanded, Numeral.coefficient_plain, zero, zero_mul]
    · exact Or.inr bounded

theorem recognize_numericOut (numeral : Numeral) :
    Numeral.recognize (numericOut numeral) = some numeral.expanded := Numeral.recognize_text _

theorem recognize_container {first : Char} (bracket : first ∈ ['[', '\x7b'])
    (rest : List Char) : Numeral.recognize (first :: rest) = none := by
  have digit : Digit.ofChar? first = none := by
    rcases List.mem_pair.mp bracket with rfl | rfl <;> decide
  have minus : (first :: rest).head? ≠ some '-' := by
    rcases List.mem_pair.mp bracket with rfl | rfl <;> simp
  have nothing : Numeral.takeUnsigned? false (first :: rest) = none := by
    simp [Numeral.takeUnsigned?, Numeral.takeDigits, digit, Numeral.digits?]
  rw [Numeral.recognize, Numeral.take?_of_ne minus, nothing]

theorem recognize_booleanText (flag : Bool) :
    Numeral.recognize (Jsonb.booleanText flag) = none := by
  revert flag
  decide

theorem explorer_numeric_eq {operand : Operand} {text : Option (List Char)}
    (isText : operand.IsText text) (castable : Castable operand) :
    explorer_numeric text = .ok (numericRead operand) := by
  cases operand with
  | missing =>
    cases isText
    rfl
  | text chars =>
    cases isText
    cases recognized : Numeral.recognize chars with
    | none => simp [explorer_numeric, numericRead, recognized, pure, Except.pure]
    | some numeral =>
      simp [explorer_numeric, numericRead, recognized, numericIn, castable numeral recognized,
        pure, Except.pure, Except.map]
  | boolean flag =>
    cases isText
    simp [explorer_numeric, numericRead, recognize_booleanText, pure, Except.pure]
  | number numeral =>
    obtain ⟨rfl, range⟩ := isText
    simp [explorer_numeric, numericRead, recognize_numericOut, numericIn,
      numericRange_expanded range, Numeral.value_expanded, pure, Except.pure, Except.map]
  | container =>
    obtain ⟨first, rest, rfl, bracket⟩ := isText
    simp [explorer_numeric, numericRead, recognize_container bracket, pure, Except.pure]

/-! ### Values -/

theorem numeral?_number (value : JsNumber) (finite : value.isFinite = true) :
    (Scalar.number value finite).numeral? = some value.numeral := by
  show Numeral.recognize (Utf16.decode (Utf16.encode value.text)) = _
  rw [Utf16.decode_encode, JsNumber.recognize_text finite]

theorem expectedNumeric_eq (scalar : Scalar) :
    expectedNumeric scalar = scalar.numeral?.map fun _ => scalar.value := by
  cases scalar with
  | boolean value => rfl
  | number value finite =>
    rw [numeral?_number]
    simp [expectedNumeric, numeric, Scalar.value, finite]
  | string units =>
    show numeric (.string units) = (Numeral.recognize (Utf16.decode units)).map _
    rfl

theorem isNumericValue_eq (scalar : Scalar) :
    isNumericValue scalar = scalar.numeral?.isSome := by
  rw [isNumericValue, expectedNumeric_eq, Option.isSome_map]

theorem shows_scalar {scalar : Scalar} {numeral : Numeral} (found : scalar.numeral? = some numeral) :
    Shows scalar.value numeral numeral.value := by
  cases scalar with
  | boolean value => cases found
  | number value finite =>
    rw [numeral?_number] at found
    cases found
    exact shows_number finite (JsNumber.round_numeral finite).symm
  | string units =>
    have recognized : Numeral.recognize (Utf16.decode units) = some numeral := found
    constructor
    · simp [bigInt?, Scalar.value, JsValue.text, recognized]
    · show (((Numeral.recognize (Utf16.decode units)).map
        JsNumber.ofNumeral).getD (.ofRat 0)).value = _
      rw [recognized, Option.map_some, Option.getD_some, JsNumber.ofNumeral_value]

/-! ### One comparison -/

theorem compare_missing {value : JsValue} (missing : value = .undefined ∨ value = .null)
    (comparison : Comparison) (scalar : Scalar) : compare comparison value scalar = false := by
  rcases missing with rfl | rfl <;> rfl

theorem compare_object {value : JsValue} (object : value.isObject = true)
    (comparison : Comparison) (scalar : Scalar) : compare comparison value scalar = false := by
  cases value <;> first | rfl | cases object

theorem compare_numeric {value : JsValue} (present : value ≠ .undefined ∧ value ≠ .null)
    (noObject : value.isObject = false) {scalar : Scalar} {other : Numeral}
    (found : scalar.numeral? = some other) (comparison : Comparison) :
    compare comparison value scalar =
      ((numeric value).map fun _ => comparison.holds (cmpNumeric value scalar.value)).getD false := by
  have expected : expectedNumeric scalar = some scalar.value := by
    rw [expectedNumeric_eq, found, Option.map_some]
  have same : ∀ result, numeric value = some result → result = value := by
    intro result read
    cases value <;> simp [numeric] at read
    · exact read.2.symm
    · exact read.2.symm
  unfold compare
  split
  next => exact absurd rfl present.1
  next => exact absurd rfl present.2
  next =>
    rw [noObject, expected]
    cases read : numeric value with
    | none => rfl
    | some result =>
      rw [same result read]
      rfl

theorem compare_text {value : JsValue} (present : value ≠ .undefined ∧ value ≠ .null)
    (noObject : value.isObject = false) {scalar : Scalar} (noNumeral : scalar.numeral? = none)
    (comparison : Comparison) :
    compare comparison value scalar = comparison.holds (Ord.compare value.text scalar.text) := by
  have expected : expectedNumeric scalar = none := by
    rw [expectedNumeric_eq, noNumeral, Option.map_none]
  unfold compare
  split
  next => exact absurd rfl present.1
  next => exact absurd rfl present.2
  next =>
    rw [noObject, expected]
    rfl

theorem compare_number {operand : Operand} {value : JsValue} (isValue : operand.IsValue value)
    {scalar : Scalar} {other : Numeral} (found : scalar.numeral? = some other)
    (settled : NumberSettled operand other) (comparison : Comparison) :
    compare comparison value scalar = true ↔
      ∃ number, numericRead operand = some number ∧
        comparison.holds (Ord.compare number other.value) = true := by
  cases operand with
  | missing => simp [compare_missing isValue, numericRead]
  | container => simp [compare_object isValue, numericRead]
  | boolean flag =>
    cases isValue
    rw [compare_numeric (by simp) rfl found]
    simp [numeric, numericRead]
  | text chars =>
    cases isValue
    rw [compare_numeric (by simp) rfl found]
    cases recognized : Numeral.recognize chars with
    | none => simp [numeric, numericRead, recognized]
    | some numeral =>
      have order := cmpNumeric_eq (shows_text recognized) (shows_scalar found)
        (settled numeral recognized)
      simp [numeric, numericRead, recognized, order]
  | number numeral =>
    cases isValue
    obtain ⟨finite, kept⟩ := settled
    rw [compare_numeric (by simp) rfl found]
    have order := cmpNumeric_eq (shows_number finite (JsNumber.ofNumeral_value numeral))
      (shows_scalar found) kept
    simp [numeric, numericRead, finite, order]

/-! ### Texts -/

def TextSettled (comparison : Comparison) : Operand → List Char → Prop
  | .text chars, other => comparison.ordered = true → ¬ Utf16.Clash chars other
  | .number numeral, other =>
    if comparison.ordered then (JsNumber.ofNumeral numeral).text = numericOut numeral
    else (JsNumber.ofNumeral numeral).text ≠ other
  | .container, other => comparison = .eq ∧ ∀ first ∈ other.head?, first ∉ ['[', '\x7b']
  | _, _ => True

/-- `cmpNumeric` takes two numerals for one number. -/
def SameNumber (left right : Numeral) : Prop :=
  if left.integral ∧ right.integral then left.integer = right.integer
  else Binary64.round left.value = Binary64.round right.value

def MemberSettled (operand : Operand) (member : Scalar) : Prop :=
  match member.numeral? with
  | none => TextSettled .eq operand (Utf16.decode member.text)
  | some other =>
    match operand with
    | .text chars => ∀ numeral, Numeral.recognize chars = some numeral →
        (SameNumber numeral other ↔ chars = Utf16.decode member.text)
    | .number numeral =>
      ((JsNumber.ofNumeral numeral).isFinite = true ∧
        SameNumber (JsNumber.ofNumeral numeral).numeral other) ↔
          numericOut numeral = Utf16.decode member.text
    | _ => True

theorem compare_written {value : JsValue} (present : value ≠ .undefined ∧ value ≠ .null)
    (noObject : value.isObject = false) {chars : List Char}
    (written : value.text = Utf16.encode chars) {scalar : Scalar}
    (noNumeral : scalar.numeral? = none) (wellFormed : Utf16.WellFormed scalar.text)
    {comparison : Comparison}
    (noClash : comparison.ordered = true → ¬ Utf16.Clash chars (Utf16.decode scalar.text)) :
    compare comparison value scalar =
      comparison.holds (Ord.compare chars (Utf16.decode scalar.text)) := by
  have decoded : ∃ other, scalar.text = Utf16.encode other := ⟨_, wellFormed.symm⟩
  obtain ⟨other, spelled⟩ := decoded
  rw [compare_text present noObject noNumeral, written]
  rw [spelled, Utf16.decode_encode] at noClash ⊢
  apply holds_congr
  · rw [Std.compare_eq_iff_eq, Std.compare_eq_iff_eq]
    exact ⟨Utf16.encode_injective, congrArg Utf16.encode⟩
  · intro ordered
    exact Utf16.compare_encode (noClash ordered)

theorem text_ne_of_numeral {chars other : List Char} {numeral : Numeral}
    (recognized : Numeral.recognize chars = some numeral)
    (noNumeral : Numeral.recognize other = none) : chars ≠ other := by
  rintro rfl
  rw [recognized] at noNumeral
  cases noNumeral

theorem recognize_of_numeral? {scalar : Scalar} {numeral : Numeral}
    (found : scalar.numeral? = some numeral) :
    Numeral.recognize (Utf16.decode scalar.text) = some numeral := by
  cases scalar with
  | boolean value => cases found
  | number value finite => exact found
  | string units => exact found

theorem recognize_of_no_numeral? {scalar : Scalar} (none : scalar.numeral? = none) :
    Numeral.recognize (Utf16.decode scalar.text) = .none := by
  cases scalar with
  | boolean value =>
    revert value
    decide
  | number value finite => exact none
  | string units => exact none

theorem booleanText_eq (flag : Bool) :
    (JsValue.boolean flag).text = Utf16.encode (Jsonb.booleanText flag) := by
  cases flag <;> rfl

theorem booleanText_basic (flag : Bool) :
    ∀ char ∈ Jsonb.booleanText flag, char.toNat < 0xD800 := by
  have basic : (Jsonb.booleanText flag).all (fun char => char.toNat < 0xD800) = true := by
    revert flag
    decide
  simpa using basic

theorem numericOut_basic (numeral : Numeral) :
    ∀ char ∈ numericOut numeral, char.toNat < 0xD800 := by
  intro char mem
  have ascii := Numeral.text_basic _ char mem
  omega

theorem compare_settledText {operand : Operand} {value : JsValue} {text : Option (List Char)}
    (isValue : operand.IsValue value) (isText : operand.IsText text) {scalar : Scalar}
    (noNumeral : scalar.numeral? = none) (wellFormed : Utf16.WellFormed scalar.text)
    {comparison : Comparison}
    (settled : TextSettled comparison operand (Utf16.decode scalar.text)) :
    compare comparison value scalar = true ↔
      ∃ chars, text = some chars ∧
        comparison.holds (Ord.compare chars (Utf16.decode scalar.text)) = true := by
  cases operand with
  | missing =>
    cases isText
    simp [compare_missing isValue]
  | text chars =>
    cases isValue
    cases isText
    have alike : compare comparison (.string (Utf16.encode chars)) scalar = _ :=
      compare_written (by simp) rfl rfl noNumeral wellFormed settled
    simp [alike]
  | boolean flag =>
    cases isValue
    cases isText
    have alike : compare comparison (.boolean flag) scalar = _ :=
      compare_written (by simp) rfl (booleanText_eq flag) noNumeral wellFormed
        fun _ => Utf16.not_clash_of_basic (booleanText_basic flag) _
    simp [alike]
  | number numeral =>
    cases isValue
    obtain ⟨rfl, -⟩ := isText
    have noClash : ¬ Utf16.Clash (numericOut numeral) (Utf16.decode scalar.text) :=
      Utf16.not_clash_of_basic (numericOut_basic numeral) _
    unfold TextSettled at settled
    split_ifs at settled with ordered
    · have written : (JsValue.number (.ofNumeral numeral)).text =
          Utf16.encode (numericOut numeral) := congrArg Utf16.encode settled
      have alike : compare comparison (.number (.ofNumeral numeral)) scalar = _ :=
        compare_written (by simp) rfl written noNumeral wellFormed fun _ => noClash
      simp [alike]
    · have alike : compare comparison (.number (.ofNumeral numeral)) scalar = _ :=
        compare_written (by simp) rfl rfl noNumeral wellFormed fun isOrdered =>
          absurd isOrdered ordered
      have apart : numericOut numeral ≠ Utf16.decode scalar.text :=
        text_ne_of_numeral (recognize_numericOut numeral) (recognize_of_no_numeral? noNumeral)
      have orders : comparison.holds (Ord.compare (JsNumber.ofNumeral numeral).text
          (Utf16.decode scalar.text)) =
            comparison.holds (Ord.compare (numericOut numeral) (Utf16.decode scalar.text)) := by
        apply holds_congr
        · simp [settled, apart]
        · exact fun isOrdered => absurd isOrdered ordered
      simp [alike, orders]
  | container =>
    obtain ⟨first, rest, rfl, bracket⟩ := isText
    obtain ⟨rfl, noBracket⟩ := settled
    have apart : first :: rest ≠ Utf16.decode scalar.text := by
      intro same
      rw [← same] at noBracket
      exact noBracket first rfl bracket
    simp [compare_object isValue, Comparison.holds, apart]

theorem cmpNumeric_eq_eq {left right : JsValue} {shown other : Numeral}
    (leftShows : Shows left shown shown.value) (rightShows : Shows right other other.value) :
    cmpNumeric left right = .eq ↔ SameNumber shown other := by
  unfold cmpNumeric SameNumber
  rw [leftShows.integer, rightShows.integer, leftShows.number, rightShows.number]
  by_cases integers : shown.integral = true ∧ other.integral = true
  · rw [if_pos integers, if_pos integers.1, if_pos integers.2]
    exact compare_eq_iff_eq
  · rw [if_neg integers]
    split
    next wholeLeft wholeRight =>
      split_ifs at wholeLeft wholeRight with left right
      exact absurd ⟨left, right⟩ integers
    next => exact compare_eq_iff_eq

theorem compare_member {operand : Operand} {value : JsValue} {text : Option (List Char)}
    (isValue : operand.IsValue value) (isText : operand.IsText text) {scalar : Scalar}
    (wellFormed : Utf16.WellFormed scalar.text) (settled : MemberSettled operand scalar) :
    compare .eq value scalar = true ↔ text = some (Utf16.decode scalar.text) := by
  unfold MemberSettled at settled
  cases found : scalar.numeral? with
  | none =>
    rw [found] at settled
    rw [compare_settledText isValue isText found wellFormed settled]
    simp [Comparison.holds]
  | some other =>
    rw [found] at settled
    have recognized := recognize_of_numeral? found
    have shows := shows_scalar found
    cases operand with
    | missing =>
      cases isText
      simp [compare_missing isValue]
    | boolean flag =>
      cases isValue
      cases isText
      have apart := text_ne_of_numeral recognized (recognize_booleanText flag)
      rw [compare_numeric (by simp) rfl found]
      simp [numeric, apart.symm]
    | container =>
      obtain ⟨first, rest, rfl, bracket⟩ := isText
      have apart := text_ne_of_numeral recognized (recognize_container bracket rest)
      simp [compare_object isValue, apart.symm]
    | text chars =>
      cases isValue
      cases isText
      rw [compare_numeric (by simp) rfl found]
      cases own : Numeral.recognize chars with
      | none =>
        have apart := text_ne_of_numeral recognized own
        simp [numeric, own, apart.symm]
      | some numeral =>
        have same := cmpNumeric_eq_eq (shows_text own) shows
        simp [numeric, own, Comparison.holds, same, settled numeral own]
    | number numeral =>
      cases isValue
      obtain ⟨rfl, -⟩ := isText
      have equal : ((JsNumber.ofNumeral numeral).isFinite = true ∧
          SameNumber (JsNumber.ofNumeral numeral).numeral other) ↔
            numericOut numeral = Utf16.decode scalar.text := settled
      rw [compare_numeric (by simp) rfl found, Option.some_inj, ← equal]
      cases finite : (JsNumber.ofNumeral numeral).isFinite with
      | false => simp [numeric, finite]
      | true =>
        have same := cmpNumeric_eq_eq
          (shows_number finite (JsNumber.round_numeral finite).symm) shows
        simp [numeric, finite, Comparison.holds, same]

end SorobanExplorer.Filters
