import SorobanExplorer.Filters.Conditions

/-!
Owns the predicates whose two readings agree: what has to hold of the event and
of the values, and that the condition then says what the evaluator says.
-/

namespace SorobanExplorer.Filters

open Library
open Library.Postgres

/-! ### Numbers -/

structure NumbersSettled (operand : Operand) (values : List Scalar) : Prop where
  castable : Castable operand
  range : ∀ value ∈ values, ∀ numeral, value.numeral? = some numeral → numericRange numeral = true
  order : ∀ value ∈ values, ∀ numeral, value.numeral? = some numeral → NumberSettled operand numeral

def Scalar.rational (scalar : Scalar) : ℚ := (scalar.numeral?.map Numeral.value).getD 0

theorem numeral?_of_numeric {scalar : Scalar} (numeric : isNumericValue scalar = true) :
    ∃ numeral, scalar.numeral? = some numeral ∧ scalar.rational = numeral.value := by
  rw [isNumericValue_eq] at numeric
  obtain ⟨numeral, found⟩ := Option.isSome_iff_exists.mp numeric
  exact ⟨numeral, found, by rw [Scalar.rational, found]; rfl⟩

section

variable {operand : Operand} {values : List Scalar} (settled : NumbersSettled operand values)
  {scalar : Scalar} (mem : scalar ∈ values) (numeric : isNumericValue scalar = true)

include settled mem numeric

theorem numericIn_settled : numericIn (Utf16.decode scalar.text) = .ok scalar.rational := by
  obtain ⟨numeral, found, value⟩ := numeral?_of_numeric numeric
  rw [numericIn, recognize_of_numeral? found, value]
  exact if_pos (settled.range scalar mem numeral found)

theorem paramNumeric_bound (sendable : Sendable scalar) {params : List Param} {placeholder : Nat}
    (sent : params[placeholder - 1]? = some (.string scalar.text)) :
    paramNumeric params placeholder = .ok scalar.rational := by
  rw [paramNumeric, paramText_bound sendable sent]
  exact numericIn_settled settled mem numeric

theorem compare_rational {value : JsValue} (isValue : operand.IsValue value)
    (comparison : Comparison) : compare comparison value scalar = true ↔
      ∃ number, numericRead operand = some number ∧
        comparison.holds (Ord.compare number scalar.rational) = true := by
  obtain ⟨numeral, found, rational⟩ := numeral?_of_numeric numeric
  rw [rational]
  exact compare_number isValue found (settled.order scalar mem numeral found) comparison

end

def Reads (expr : TextExpr) (params : List Param) (row : Row) (operand : Operand) : Prop :=
  ∀ later, ∃ text, expr.value (params ++ later) row = .ok text ∧ operand.IsText text

theorem Reads.number {expr : TextExpr} {params : List Param} {row : Row} {operand : Operand}
    (reads : Reads expr params row operand) (castable : Castable operand) (extra later : List Param) :
    ∃ text, expr.value (params ++ extra ++ later) row = .ok text ∧
      explorer_numeric text = .ok (numericRead operand) := by
  obtain ⟨text, read, isText⟩ := reads (extra ++ later)
  rw [← List.append_assoc] at read
  exact ⟨text, read, explorer_numeric_eq isText castable⟩

theorem textPredicate_numbers {expr : TextExpr} {params : List Param} {row : Row}
    {operand : Operand} {actual : JsValue} {op : Op} {values : List Scalar}
    (reads : Reads expr params row operand) (isValue : operand.IsValue actual)
    (fits : Fits op values) (noExist : op ≠ .exist) (sendable : ∀ value ∈ values, Sendable value)
    (numeric : values.all isNumericValue = true) (settled : NumbersSettled operand values) :
    ∃ condition extra, textPredicate params expr op values = some (condition, params ++ extra) ∧
      ∀ later, Says (condition.value (params ++ extra ++ later) row) (answer actual op values) := by
  have isNumeric := List.all_eq_true.mp numeric
  cases op with
  | exist => exact absurd rfl noExist
  | isIn =>
    refine ⟨.numericAny expr (params.length + 1), [.list (values.map Scalar.text)],
      by simp [textPredicate, bind, inList_of_numeric numeric, numeric], fun later => ?_⟩
    obtain ⟨text, read, number⟩ :=
      reads.number settled.castable [.list (values.map Scalar.text)] later
    have sent := paramTexts_bound sendable
      (lookup_bound params later (.list (values.map Scalar.text)))
    have converted : (values.map fun value => Utf16.decode value.text).mapM numericIn =
        .ok (values.map Scalar.rational) := by
      rw [List.mapM_map]
      exact mapM_ok fun value mem => numericIn_settled settled mem (isNumeric value mem)
    refine ⟨strict (numericRead operand) fun value => (values.map Scalar.rational).contains value,
      ?_, ?_⟩
    · simp only [Condition.value, sent, converted, read, number, except_bind_ok]
      rfl
    · simp only [answer, inList_of_numeric numeric, strict_eq_true, List.contains_iff_mem,
        List.mem_map, List.any_eq_true]
      constructor
      · rintro ⟨number, found, value, mem, rfl⟩
        refine ⟨value, mem, ?_⟩
        rw [compare_rational settled mem (isNumeric value mem) isValue]
        exact ⟨_, found, (holds_eq_iff _ _).mpr rfl⟩
      · rintro ⟨value, mem, equal⟩
        rw [compare_rational settled mem (isNumeric value mem) isValue] at equal
        obtain ⟨number, found, same⟩ := equal
        exact ⟨number, found, value, mem, ((holds_eq_iff _ _).mp same).symm⟩
  | between =>
    obtain ⟨low, high, rfl⟩ := List.length_eq_two.mp fits
    have lowNumeric := isNumeric low (by simp)
    have highNumeric := isNumeric high (by simp)
    refine ⟨.numericBetween expr (params.length + 1) (params.length + 2),
      [.string low.text, .string high.text],
      by simp [textPredicate, bind, lowNumeric, highNumeric], fun later => ?_⟩
    obtain ⟨text, read, number⟩ :=
      reads.number settled.castable [.string low.text, .string high.text] later
    have lowSent := paramNumeric_bound settled (by simp) lowNumeric (sendable low (by simp))
      (lookup_first params (.string low.text) (.string high.text) later)
    have highSent := paramNumeric_bound settled (by simp) highNumeric (sendable high (by simp))
      (lookup_second params (.string low.text) (.string high.text) later)
    refine ⟨strict (numericRead operand) fun value =>
      low.rational ≤ value && value ≤ high.rational, ?_, ?_⟩
    · simp only [Condition.value, lowSent, highSent, read, number, except_bind_ok]
      rfl
    · simp only [answer, Bool.and_eq_true, strict_eq_true, decide_eq_true_eq,
        compare_rational settled (List.mem_pair.mpr (Or.inl rfl)) lowNumeric isValue,
        compare_rational settled (List.mem_pair.mpr (Or.inr rfl)) highNumeric isValue,
        holds_gte_iff, holds_lte_iff]
      cases numericRead operand <;> simp
  | compare comparison =>
    obtain ⟨value, rfl⟩ := List.length_eq_one_iff.mp fits
    have valueNumeric := isNumeric value (by simp)
    refine ⟨.numericCompare expr comparison (params.length + 1), [.string value.text],
      by simp [textPredicate, bind, valueNumeric], fun later => ?_⟩
    obtain ⟨text, read, number⟩ := reads.number settled.castable [.string value.text] later
    have sent := paramNumeric_bound settled (by simp) valueNumeric (sendable value (by simp))
      (lookup_bound params later (.string value.text))
    refine ⟨strict (numericRead operand) fun number =>
      comparison.holds (Ord.compare number value.rational), ?_, ?_⟩
    · simp only [Condition.value, sent, read, number, except_bind_ok]
      rfl
    · rw [strict_eq_true]
      exact (compare_rational settled (by simp) valueNumeric isValue comparison).symm

/-! ### Texts -/

structure TextsSettled (operand : Operand) (op : Op) (values : List Scalar) : Prop where
  wellFormed : ∀ value ∈ values, Utf16.WellFormed value.text
  alike : match op with
    | .exist => True
    | .isIn => ∀ value ∈ values, MemberSettled operand value
    | .between => operand = .missing ∨ ∀ value ∈ values,
        value.numeral? = none ∧ TextSettled .gte operand (Utf16.decode value.text)
    | .compare comparison => ∀ value ∈ values,
        TextSettled comparison operand (Utf16.decode value.text)

theorem numeral?_text (scalar : Scalar) : (Scalar.string scalar.text).numeral? = scalar.numeral? := by
  cases scalar with
  | boolean value =>
    show Numeral.recognize (Utf16.decode (Scalar.boolean value).text) = none
    exact recognize_of_no_numeral? rfl
  | number value finite => rfl
  | string units => rfl

theorem isNumericValue_text (scalar : Scalar) :
    isNumericValue (.string scalar.text) = isNumericValue scalar := by
  rw [isNumericValue_eq, isNumericValue_eq, numeral?_text]

theorem memberSettled_text {operand : Operand} {scalar : Scalar}
    (settled : MemberSettled operand scalar) : MemberSettled operand (.string scalar.text) := by
  unfold MemberSettled at settled ⊢
  rw [numeral?_text]
  exact settled

theorem inList_of_mixed {values : List Scalar} (mixed : values.all isNumericValue = false) :
    inList values = values.map fun value => .string value.text :=
  if_neg (ne_true_of_eq_false mixed)

theorem textSettled_lte {operand : Operand} {other : List Char}
    (settled : TextSettled .gte operand other) : TextSettled .lte operand other := by
  cases operand with
  | container => cases settled.1
  | text chars => exact settled
  | number numeral => exact settled
  | missing => trivial
  | boolean flag => trivial

theorem Reads.text {expr : TextExpr} {params : List Param} {row : Row} {operand : Operand}
    (reads : Reads expr params row operand) (extra later : List Param) :
    ∃ text, expr.value (params ++ extra ++ later) row = .ok text ∧ operand.IsText text := by
  rw [List.append_assoc]
  exact reads (extra ++ later)

theorem textPredicate_texts {expr : TextExpr} {params : List Param} {row : Row}
    {operand : Operand} {actual : JsValue} {op : Op} {values : List Scalar}
    (reads : Reads expr params row operand) (isValue : operand.IsValue actual)
    (fits : Fits op values) (noExist : op ≠ .exist) (sendable : ∀ value ∈ values, Sendable value)
    (mixed : values.all isNumericValue = false) (settled : TextsSettled operand op values) :
    ∃ condition extra, textPredicate params expr op values = some (condition, params ++ extra) ∧
      ∀ later, Says (condition.value (params ++ extra ++ later) row) (answer actual op values) := by
  cases op with
  | exist => exact absurd rfl noExist
  | isIn =>
    have texts : (inList values).map Scalar.text = values.map Scalar.text := by
      rw [inList_of_mixed mixed, List.map_map]
      rfl
    have stillMixed : (inList values).all isNumericValue = false := by
      rw [inList_of_mixed mixed, List.all_map, ← mixed]
      congr 1
      funext value
      exact isNumericValue_text value
    refine ⟨.textAny expr (params.length + 1), [.list (values.map Scalar.text)],
      by simp [textPredicate, bind, texts, stillMixed], fun later => ?_⟩
    obtain ⟨text, read, isText⟩ := reads.text [.list (values.map Scalar.text)] later
    have sent := paramTexts_bound sendable
      (lookup_bound params later (.list (values.map Scalar.text)))
    refine ⟨strict text fun value =>
      (values.map fun value => Utf16.decode value.text).contains value, ?_, ?_⟩
    · simp only [Condition.value, sent, read, except_bind_ok]
      rfl
    · simp only [answer, inList_of_mixed mixed, strict_eq_true, List.contains_iff_mem,
        List.mem_map, List.any_map, List.any_eq_true, Function.comp]
      have each : ∀ value ∈ values, compare .eq actual (.string value.text) = true ↔
          text = some (Utf16.decode value.text) := fun value mem =>
        compare_member isValue isText (settled.wellFormed value mem)
          (memberSettled_text (settled.alike value mem))
      constructor
      · rintro ⟨_, found, value, mem, rfl⟩
        exact ⟨value, mem, (each value mem).mpr found⟩
      · rintro ⟨value, mem, equal⟩
        exact ⟨_, (each value mem).mp equal, value, mem, rfl⟩
  | between =>
    obtain ⟨low, high, rfl⟩ := List.length_eq_two.mp fits
    have someText : (isNumericValue low && isNumericValue high) = false := by simpa using mixed
    refine ⟨.textBetween expr (params.length + 1) (params.length + 2),
      [.string low.text, .string high.text], by simp [textPredicate, bind, someText],
      fun later => ?_⟩
    obtain ⟨text, read, isText⟩ := reads.text [.string low.text, .string high.text] later
    have lowSent := paramText_bound (sendable low (by simp))
      (lookup_first params (.string low.text) (.string high.text) later)
    have highSent := paramText_bound (sendable high (by simp))
      (lookup_second params (.string low.text) (.string high.text) later)
    refine ⟨strict text fun value => (Ord.compare value (Utf16.decode low.text)).isGE &&
      (Ord.compare value (Utf16.decode high.text)).isLE, ?_, ?_⟩
    · simp only [Condition.value, lowSent, highSent, read, except_bind_ok]
      rfl
    · simp only [answer, Bool.and_eq_true, strict_eq_true]
      rcases settled.alike with rfl | alike
      · cases isText
        simp [compare_missing isValue]
      · obtain ⟨lowNone, lowSettled⟩ := alike low (by simp)
        obtain ⟨highNone, highSettled⟩ := alike high (by simp)
        rw [compare_settledText isValue isText lowNone (settled.wellFormed low (by simp))
          lowSettled, compare_settledText isValue isText highNone
          (settled.wellFormed high (by simp)) (textSettled_lte highSettled)]
        cases text <;> simp [Comparison.holds]
  | compare comparison =>
    obtain ⟨value, rfl⟩ := List.length_eq_one_iff.mp fits
    have noNumeric : isNumericValue value = false := by simpa using mixed
    have noNumeral : value.numeral? = none := by
      rw [isNumericValue_eq] at noNumeric
      exact Option.isSome_eq_false_iff.mp noNumeric |> Option.isNone_iff_eq_none.mp
    refine ⟨.textCompare expr comparison (params.length + 1), [.string value.text],
      by simp [textPredicate, bind, noNumeric], fun later => ?_⟩
    obtain ⟨text, read, isText⟩ := reads.text [.string value.text] later
    have sent := paramText_bound (sendable value (by simp))
      (lookup_bound params later (.string value.text))
    refine ⟨strict text fun chars =>
      comparison.holds (Ord.compare chars (Utf16.decode value.text)), ?_, ?_⟩
    · simp only [Condition.value, sent, read, except_bind_ok]
      rfl
    · rw [strict_eq_true]
      exact (compare_settledText isValue isText noNumeral (settled.wellFormed value (by simp))
        (settled.alike value (by simp))).symm

/-! ### Predicates -/

/-- `topic[0]` is compared with a string in the array of topics. -/
def throughTopics (field : Field) (op : Op) (values : List Scalar) : Bool :=
  match field, op, values with
  | .topic 0, .compare .eq, [.string _] => true
  | _, _, _ => false

def ValuesSettled (event : EventRecord) (field : Field) (op : Op) (values : List Scalar) : Prop :=
  if throughTopics field op values then
    ∀ value ∈ values, Utf16.WellFormed value.text ∧ MemberSettled (operandAt event field) value
  else if values.all isNumericValue then NumbersSettled (operandAt event field) values
  else TextsSettled (operandAt event field) op values

def Settled (event : EventRecord) (field : Field) (op : Op) (values : List Scalar) : Prop :=
  match field with
  | .column _ .inherited => False
  | .column _ .number => ∀ value ∈ values, Sendable value ∧ IntegerSettled value
  | field => Readable event field ∧
      (op = .exist ∨ (∀ value ∈ values, Sendable value) ∧ ValuesSettled event field op values)

theorem textual_of_settled {event : EventRecord} {field : Field} {op : Op} {values : List Scalar}
    (settled : Settled event field op values)
    (noInteger : ¬ ∃ name, field = .column name .number) :
    ∀ column type, field = .column column type → type = .text := by
  rintro name type rfl
  cases type with
  | text => rfl
  | number => exact absurd ⟨name, rfl⟩ noInteger
  | inherited => exact absurd settled id

theorem settled_textual {event : EventRecord} {field : Field} {op : Op} {values : List Scalar}
    (textual : ∀ column type, field = .column column type → type = .text)
    (settled : Settled event field op values) :
    Readable event field ∧
      (op = .exist ∨ (∀ value ∈ values, Sendable value) ∧ ValuesSettled event field op values) := by
  cases field with
  | column name type =>
    obtain rfl := textual name type rfl
    exact settled
  | topic index => exact settled
  | args path => exact settled

theorem present_agrees {operand : Operand} {actual : JsValue} {text : Option (List Char)}
    (isValue : operand.IsValue actual) (isText : operand.IsText text) (values : List Scalar) :
    text.isSome = answer actual .exist values := by
  cases operand with
  | missing =>
    cases isText
    rcases isValue with rfl | rfl <;> rfl
  | text chars =>
    cases isValue
    cases isText
    rfl
  | boolean flag =>
    cases isValue
    cases isText
    rfl
  | number numeral =>
    cases isValue
    obtain ⟨rfl, -⟩ := isText
    rfl
  | container =>
    obtain ⟨first, rest, rfl, -⟩ := isText
    cases actual <;> first | rfl | cases isValue

section

variable {source op value : Option Json} {field : Field} {parsedOp : Op} {values : List Scalar}
  (parsed : parseField source = some field) (opParsed : parseOp op = some parsedOp)
  (found : operands parsedOp value = some values)

include parsed opParsed found

theorem predicate_exist (exist : parsedOp = .exist) (params : List Param) :
    predicate params source op value =
      some (.isNotNull (textExpr params field).1, (textExpr params field).2) := by
  subst exist
  simp [predicate, parsed, opParsed, found]

theorem predicate_text (noExist : parsedOp ≠ .exist)
    (textual : ∀ column type, field = .column column type → type = .text)
    (notTopics : throughTopics field parsedOp values = false) (params : List Param) :
    predicate params source op value =
      textPredicate (textExpr params field).2 (textExpr params field).1 parsedOp values := by
  simp only [predicate, parsed, opParsed, found, Option.bind_eq_bind, Option.bind_some]
  split
  next => exact absurd rfl noExist
  next => cases textual _ _ rfl
  next => cases notTopics
  next => rfl

end

theorem throughTopics_eq_true {field : Field} {op : Op} {values : List Scalar}
    (through : throughTopics field op values = true) :
    ∃ units, field = .topic 0 ∧ op = .compare .eq ∧ values = [.string units] := by
  unfold throughTopics at through
  split at through
  next units => exact ⟨units, rfl, rfl, rfl⟩
  next => cases through

theorem present_of_value {field : Field} (parsed : field.Parsed)
    (textual : ∀ column type, field = .column column type → type = .text) {bound params : List Param}
    {row : Row} {text : Option (List Char)}
    (read : (textExpr bound field).1.value params row = .ok text) :
    (textExpr bound field).1.present params row = .ok text.isSome := by
  cases field with
  | column name type =>
    obtain rfl := textual name type rfl
    have noInteger : ¬ (name = js "ledger" ∨ name = js "seq") := by
      rcases parsed with rfl | rfl | rfl <;> decide
    have column : row.textColumn name = .ok text := read
    simp only [textExpr, TextExpr.present, if_neg noInteger, column, except_bind_ok]
    rfl
  | topic index =>
    show (TextExpr.topic index).value params row >>= _ = _
    rw [show (TextExpr.topic index).value params row = .ok text from read]
    rfl
  | args path =>
    show (TextExpr.args (bound.length + 1)).value params row >>= _ = _
    rw [show (TextExpr.args (bound.length + 1)).value params row = .ok text from read]
    rfl

theorem isNotNull_agrees {event : EventRecord} {field : Field} (parsed : field.Parsed)
    (settled : Settled event field .exist []) (params : List Param) :
    ∃ extra, (textExpr params field).2 = params ++ extra ∧ ∀ later,
      Says ((Condition.isNotNull (textExpr params field).1).value (params ++ extra ++ later)
        event.row) (answer (fieldValue event field) .exist []) := by
  by_cases integers : ∃ name, field = .column name .number
  · obtain ⟨name, rfl⟩ := integers
    refine ⟨[], (List.append_nil params).symm, fun later => ⟨some true, ?_, ?_⟩⟩
    · have column : name = js "ledger" ∨ name = js "seq" := parsed
      simp only [textExpr, Condition.value, TextExpr.present, if_pos column]
      rfl
    · obtain ⟨stored, recorded, -⟩ := integerColumn parsed event
      rw [recorded]
      cases stored.recorded <;> simp [RecordInteger.value, answer]
  · have textual := textual_of_settled settled integers
    obtain ⟨readable, -⟩ := settled_textual textual settled
    obtain ⟨extra, bound, reads⟩ := textExpr_reads parsed textual readable params
    refine ⟨extra, bound, fun later => ?_⟩
    obtain ⟨text, read, isText⟩ := reads later
    have isValue := fieldValue_isValue parsed textual readable
    refine ⟨some text.isSome, ?_, ?_⟩
    · simp only [Condition.value, present_of_value parsed textual read, except_bind_ok]
      rfl
    · rw [present_agrees isValue isText []]
      simp

theorem predicate_agrees {event : EventRecord} {source op value : Option Json} {field : Field}
    {parsedOp : Op} {values : List Scalar} (parsed : parseField source = some field)
    (opParsed : parseOp op = some parsedOp) (found : operands parsedOp value = some values)
    (settled : Settled event field parsedOp values) (params : List Param) :
    ∃ condition extra, predicate params source op value = some (condition, params ++ extra) ∧
      ∀ later, Says (condition.value (params ++ extra ++ later) event.row)
        (answer (fieldValue event field) parsedOp values) := by
  have fieldParsed := parsed_of_parseField parsed
  have fits := fits_of_operands found
  by_cases exist : parsedOp = .exist
  · subst exist
    cases found
    obtain ⟨extra, bound, agrees⟩ := isNotNull_agrees fieldParsed settled params
    refine ⟨_, extra, ?_, agrees⟩
    rw [predicate_exist parsed opParsed rfl rfl, bound]
  by_cases integers : ∃ name, field = .column name .number
  · obtain ⟨name, rfl⟩ := integers
    have each : ∀ value ∈ values, Sendable value ∧ IntegerSettled value := settled
    have same : predicate params source op value = bigintPredicate params name parsedOp values := by
      simp only [predicate, parsed, opParsed, found, Option.bind_eq_bind, Option.bind_some]
    rw [same]
    exact bigintPredicate_agrees fieldParsed fits exist (fun value mem => (each value mem).1)
      (fun value mem => (each value mem).2) params
  have textual := textual_of_settled settled integers
  obtain ⟨readable, rest⟩ := settled_textual textual settled
  obtain ⟨sendable, alike⟩ := rest.resolve_left exist
  have isValue := fieldValue_isValue fieldParsed textual readable
  obtain ⟨bound, extended, reads⟩ := textExpr_reads fieldParsed textual readable params
  unfold ValuesSettled at alike
  by_cases through : throughTopics field parsedOp values = true
  all_goals simp only [through, if_true, if_false, Bool.false_eq_true] at alike
  · obtain ⟨units, rfl, rfl, rfl⟩ := throughTopics_eq_true through
    obtain ⟨wellFormed, settled⟩ := alike (.string units) (by simp)
    refine ⟨.topicEquals (params.length + 1), [.string units], ?_, fun later => ?_⟩
    · simp [predicate, parsed, opParsed, found, bind]
    · obtain ⟨text, read, isText⟩ := reads []
      have sent : paramText (params ++ [.string units] ++ later) (params.length + 1) =
          .ok (Utf16.decode units) :=
        paramText_bound (sendable (.string units) (by simp)) (lookup_bound _ _ _)
      have topic : event.row.raw_topics.bind (fun topics => topics[0]?) = text := by
        simpa [textExpr, TextExpr.value, pure, Except.pure] using read
      subst topic
      refine ⟨strict (event.row.raw_topics.bind fun topics => topics[0]?)
        fun topic => topic = Utf16.decode units, ?_, ?_⟩
      · simp only [Condition.value, sent, except_bind_ok]
        rfl
      · rw [strict_eq_true]
        have member := compare_member isValue isText wellFormed settled
        simp only [answer, member, decide_eq_true_eq]
        constructor
        · rintro ⟨value, found, same⟩
          exact same ▸ found
        · exact fun found => ⟨_, found, rfl⟩
  · have compiled : ∃ condition extra, textPredicate (params ++ bound) (textExpr params field).1
        parsedOp values = some (condition, params ++ bound ++ extra) ∧ ∀ later,
          Says (condition.value (params ++ bound ++ extra ++ later) event.row)
            (answer (fieldValue event field) parsedOp values) := by
      split_ifs at alike with numeric
      · exact textPredicate_numbers reads isValue fits exist sendable numeric alike
      · exact textPredicate_texts reads isValue fits exist sendable
          (Bool.eq_false_of_not_eq_true numeric) alike
    obtain ⟨condition, extra, compiled, agrees⟩ := compiled
    refine ⟨condition, bound ++ extra, ?_, fun later => ?_⟩
    · rw [predicate_text parsed opParsed found exist textual (Bool.eq_false_of_not_eq_true through),
        extended, compiled, List.append_assoc]
    · rw [← List.append_assoc]
      exact agrees later

end SorobanExplorer.Filters
