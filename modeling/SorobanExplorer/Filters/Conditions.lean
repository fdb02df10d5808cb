import SorobanExplorer.Filters.Comparing

/-!
Owns the condition of one predicate: what its text expression reads, what its
parameters convert to, and when it says of a row what the evaluator says of the
event.
-/

namespace SorobanExplorer.Filters

open Library
open Library.Postgres

/-! ### Fields -/

def Field.Parsed : Field → Prop
  | .column name .text => name = js "contract_id" ∨ name = js "function" ∨ name = js "tx_hash"
  | .column name .number => name = js "ledger" ∨ name = js "seq"
  | .column _ .inherited => True
  | .topic _ => True
  | .args path => ∀ segment ∈ path, Char.ofNat 0 ∉ segment

theorem noNul_of_isSegment {segment : List Char} (isSegment : isSegment segment = true) :
    Char.ofNat 0 ∉ segment := by
  intro mem
  cases segment with
  | nil => cases mem
  | cons first rest =>
    simp only [Filters.isSegment, Bool.or_eq_true, Bool.and_eq_true, List.all_eq_true] at isSegment
    rcases isSegment with ⟨⟨name, -⟩, names⟩ | ⟨digits, -⟩
    · rcases List.mem_cons.mp mem with rfl | mem
      · revert name
        decide
      · have letter := names _ mem
        revert letter
        decide
    · have digit := digits _ mem
      revert digit
      decide

theorem args?_noNul {source : List Char} {path : List (List Char)} (parsed : args? source = some path) :
    ∀ segment ∈ path, Char.ofNat 0 ∉ segment := by
  unfold args? at parsed
  split at parsed
  · split_ifs at parsed with segments
    cases parsed
    intro segment mem
    exact noNul_of_isSegment (List.all_eq_true.mp segments segment mem)
  · cases parsed

theorem parsed_of_parseField {source : Option Json} {field : Field}
    (parsed : parseField source = some field) : field.Parsed := by
  unfold parseField at parsed
  split at parsed
  next source =>
    unfold parseFieldString at parsed
    split at parsed
    next type known =>
      cases parsed
      unfold columnType? at known
      split_ifs at known with text number inherited <;> cases known
      · exact text
      · exact number
      · trivial
    next =>
      split at parsed
      next => cases parsed; trivial
      next =>
        split at parsed
        next path found =>
          split_ifs at parsed
          cases parsed
          exact args?_noNul found
        next => cases parsed
  next => cases parsed

/-! ### Text expressions -/

def Readable (event : EventRecord) : Field → Prop
  | .args path => ∀ data tree, event.raw_data = some data → Json.parse? data.chars = some tree →
      ReadsAlike path tree ∧
        (operandAt event (.args path) = .missing ∨ (jsonb? tree).isSome = true)
  | _ => True

theorem ofJson_isValue {member : Json} {data : Jsonb} (converted : jsonb? member = some data) :
    (Operand.ofJson member).IsValue (JsValue.ofJson member) := by
  cases member with
  | null => exact Or.inr rfl
  | boolean value => rfl
  | number numeral => rfl
  | string units =>
    obtain ⟨chars, found, -⟩ : ∃ chars, jsonbString? units = some chars ∧
        Jsonb.string chars = data := by simpa [jsonb?] using converted
    obtain ⟨rfl, -⟩ := jsonbString?_eq_some found
    show JsValue.string _ = JsValue.string _
    rw [Utf16.decode_encode]
  | array items => rfl
  | object members => rfl

theorem ofJson_isText {member : Json} {data : Jsonb} (converted : jsonb? member = some data) :
    (Operand.ofJson member).IsText data.asText? := by
  cases member with
  | null =>
    cases converted
    rfl
  | boolean value =>
    cases converted
    rfl
  | number numeral =>
    obtain ⟨range, rfl⟩ : numericRange numeral = true ∧ Jsonb.numeric numeral = data := by
      simpa [jsonb?] using converted
    exact ⟨rfl, range⟩
  | string units =>
    obtain ⟨chars, found, rfl⟩ : ∃ chars, jsonbString? units = some chars ∧
        Jsonb.string chars = data := by simpa [jsonb?] using converted
    obtain ⟨rfl, -⟩ := jsonbString?_eq_some found
    show some chars = some _
    rw [Utf16.decode_encode]
  | array items =>
    obtain ⟨values, -, rfl⟩ : ∃ values, jsonbItems? items = some values ∧
        Jsonb.array values = data := by simpa [jsonb?] using converted
    exact ⟨'[', _, by simp only [Jsonb.asText?, Jsonb.text]; rfl, by simp⟩
  | object members =>
    obtain ⟨values, -, rfl⟩ : ∃ values, jsonbMembers? members = some values ∧
        Jsonb.object values = data := by simpa [jsonb?] using converted
    exact ⟨'\x7b', _, by simp only [Jsonb.asText?, Jsonb.text]; rfl, by simp⟩

theorem isValue_of_missing {member : Option Json} (missing : Operand.ofMember? member = .missing) :
    Operand.missing.IsValue ((member.map JsValue.ofJson).getD .undefined) := by
  cases member with
  | none => exact Or.inl rfl
  | some member =>
    cases member with
    | null => exact Or.inr rfl
    | _ => cases missing

theorem args_reads {event : EventRecord} {path : List (List Char)}
    (readable : Readable event (.args path)) :
    (operandAt event (.args path)).IsValue (fieldValue event (.args path)) ∧
      (operandAt event (.args path)).IsText
        (((explorer_try_jsonb event.row.raw_data).bind fun data => data.extract? path).bind
          Jsonb.asText?) := by
  show (operandAt event (.args path)).IsValue (follow event.data path) ∧ _
  simp only [Readable] at readable
  unfold operandAt EventRecord.data explorer_try_jsonb EventRecord.row at *
  cases stored : event.raw_data with
  | none => exact ⟨Or.inl (follow_undefined path), rfl⟩
  | some data =>
    cases parsed : Json.parse? data.chars with
    | none =>
      simp only [parsed, Option.bind_some, Option.map_some, Option.map_none, Option.bind_none,
        Option.getD_none]
      exact ⟨Or.inl (follow_undefined path), rfl⟩
    | some tree =>
      obtain ⟨alike, convertible⟩ := readable data tree stored parsed
      simp only [stored, parsed, Option.bind_some, Option.map_some, Option.getD_some]
        at convertible ⊢
      rw [follow_ofJson alike]
      cases converted : jsonb? tree with
      | none =>
        have missing := convertible.resolve_right (by simp [converted])
        rw [missing]
        exact ⟨isValue_of_missing missing, rfl⟩
      | some data =>
        have member := extract?_converted alike converted
        rw [Option.bind_some]
        generalize memberAt path tree = read at member
        generalize data.extract? path = extracted at member
        cases member with
        | none => exact ⟨Or.inl rfl, rfl⟩
        | some converted => exact ⟨ofJson_isValue converted, ofJson_isText converted⟩

theorem ofText?_isValue (column : Option Text) :
    (Operand.ofText? column).IsValue (textValue? column) := by
  cases column with
  | none => exact Or.inl rfl
  | some stored => rfl

theorem ofText?_isText (column : Option Text) :
    (Operand.ofText? column).IsText (column.map Text.chars) := by
  cases column <;> rfl

theorem fieldValue_isValue {event : EventRecord} {field : Field} (parsed : field.Parsed)
    (textual : ∀ column type, field = .column column type → type = .text)
    (readable : Readable event field) :
    (operandAt event field).IsValue (fieldValue event field) := by
  cases field with
  | column name type =>
    obtain rfl := textual name type rfl
    rcases parsed with rfl | rfl | rfl
    · rfl
    · rfl
    · exact ofText?_isValue event.tx_hash
  | topic index => exact ofText?_isValue _
  | args path => exact (args_reads readable).1

/-! ### Parameters -/

@[simp] theorem except_bind_ok {ε α β : Type} (value : α) (next : α → Except ε β) :
    (Except.ok value >>= next) = next value := rfl

theorem mapM_ok {ε α β : Type} {items : List α} {convert : α → Except ε β} {result : α → β}
    (success : ∀ item ∈ items, convert item = .ok (result item)) :
    items.mapM convert = .ok (items.map result) := by
  induction items with
  | nil => rfl
  | cons item items ih =>
    have first := success item List.mem_cons_self
    have rest := ih fun item mem => success item (List.mem_cons_of_mem _ mem)
    rw [List.mapM_cons, first, rest]
    rfl

def Sendable (scalar : Scalar) : Prop := Char.ofNat 0 ∉ Utf16.decode scalar.text

theorem sentText_of_noNul {units : JsString} (noNul : Char.ofNat 0 ∉ Utf16.decode units) :
    sentText units = .ok (Utf16.decode units) := if_neg noNul

theorem paramText_bound {scalar : Scalar} (sendable : Sendable scalar) {params : List Param}
    {placeholder : Nat} (bound : params[placeholder - 1]? = some (.string scalar.text)) :
    paramText params placeholder = .ok (Utf16.decode scalar.text) := by
  simp only [paramText, bound, sentText_of_noNul sendable]

theorem paramTexts_bound {scalars : List Scalar} (sendable : ∀ scalar ∈ scalars, Sendable scalar)
    {params : List Param} {placeholder : Nat}
    (bound : params[placeholder - 1]? = some (.list (scalars.map Scalar.text))) :
    paramTexts params placeholder =
      .ok (scalars.map fun scalar => Utf16.decode scalar.text) := by
  simp only [paramTexts, bound, List.mapM_map]
  exact mapM_ok fun scalar mem => sentText_of_noNul (sendable scalar mem)

@[simp] theorem lookup_bound (params later : List Param) (param : Param) :
    (params ++ [param] ++ later)[params.length + 1 - 1]? = some param := by simp

theorem lookup_first (params : List Param) (first second : Param) (later : List Param) :
    (params ++ [first, second] ++ later)[params.length + 1 - 1]? = some first := by simp

theorem lookup_second (params : List Param) (first second : Param) (later : List Param) :
    (params ++ [first, second] ++ later)[params.length + 2 - 1]? = some second := by simp

theorem textExpr_reads {event : EventRecord} {field : Field} (parsed : field.Parsed)
    (textual : ∀ column type, field = .column column type → type = .text)
    (readable : Readable event field) (params : List Param) :
    ∃ extra, (textExpr params field).2 = params ++ extra ∧
      ∀ later, ∃ text, (textExpr params field).1.value (params ++ extra ++ later) event.row =
        .ok text ∧ (operandAt event field).IsText text := by
  cases field with
  | column name type =>
    obtain rfl := textual name type rfl
    refine ⟨[], (List.append_nil params).symm, fun later => ?_⟩
    rcases parsed with rfl | rfl | rfl
    · exact ⟨_, rfl, rfl⟩
    · exact ⟨_, rfl, rfl⟩
    · exact ⟨_, rfl, ofText?_isText event.tx_hash⟩
  | topic index =>
    refine ⟨[], (List.append_nil params).symm, fun later => ⟨_, rfl, ?_⟩⟩
    have read : (event.row.raw_topics.bind fun topics => topics[index.val]?) =
        ((event.raw_topics.getD [])[index.val]?).map Text.chars := by
      cases topics : event.raw_topics <;> simp [EventRecord.row, topics]
    rw [read]
    exact ofText?_isText _
  | args path =>
    refine ⟨[.list (path.map Utf16.encode)], rfl, fun later => ⟨_, ?_, (args_reads readable).2⟩⟩
    have texts : paramTexts (params ++ [.list (path.map Utf16.encode)] ++ later)
        (params.length + 1) = .ok path := by
      have sent : (path.map Utf16.encode).mapM sentText = .ok (path.map id) := by
        rw [List.mapM_map]
        apply mapM_ok
        intro segment mem
        show sentText (Utf16.encode segment) = .ok segment
        rw [sentText_of_noNul] <;> rw [Utf16.decode_encode]
        exact parsed segment mem
      simpa [paramTexts] using sent
    show TextExpr.value (.args (params.length + 1)) _ _ = _
    simp only [TextExpr.value, texts]
    rfl

/-! ### Answers -/

/-- The condition is `TRUE` just where the evaluator says so. -/
def Says (result : Except SqlError Truth) (answer : Bool) : Prop :=
  ∃ truth, result = .ok truth ∧ (truth = some true ↔ answer = true)

def answer (actual : JsValue) (op : Op) (values : List Scalar) : Bool :=
  match op, values with
  | .exist, _ =>
    match actual with
    | .undefined | .null => false
    | _ => true
  | .isIn, values => (inList values).any (compare .eq actual)
  | .between, [low, high] => compare .gte actual low && compare .lte actual high
  | .compare comparison, [value] => compare comparison actual value
  | _, _ => false

def Fits : Op → List Scalar → Prop
  | .between, values => values.length = 2
  | .compare _, values => values.length = 1
  | _, _ => True

theorem fits_of_operands {op : Op} {value : Option Json} {values : List Scalar}
    (found : operands op value = some values) : Fits op values := by
  cases op with
  | exist => trivial
  | isIn => trivial
  | between =>
    simp only [operands] at found
    split at found <;> cases found
    rfl
  | compare comparison =>
    obtain ⟨scalar, -, rfl⟩ := Option.map_eq_some_iff.mp found
    rfl

theorem evaluatePredicate_eq (event : EventRecord) {source op value : Option Json} {field : Field}
    {parsedOp : Op} {values : List Scalar} (parsed : parseField source = some field)
    (opParsed : parseOp op = some parsedOp) (found : operands parsedOp value = some values) :
    evaluatePredicate event source op value =
      some (answer (fieldValue event field) parsedOp values) := by
  unfold evaluatePredicate
  simp only [parsed, opParsed, Option.bind_eq_bind, Option.bind_some]
  cases parsedOp with
  | exist =>
    unfold answer
    cases fieldValue event field <;> rfl
  | isIn =>
    have listed : scalars? value = some values := found
    rw [listed]
    rfl
  | between =>
    cases listed : scalars? value with
    | none => simp [operands, listed] at found
    | some scalars =>
      rcases scalars with _ | ⟨low, _ | ⟨high, _ | ⟨other, more⟩⟩⟩
      · simp [operands, listed] at found
      · simp [operands, listed] at found
      · simp only [operands, listed, Option.some.injEq] at found
        subst found
        rfl
      · simp [operands, listed] at found
  | compare comparison =>
    obtain ⟨scalar, listed, rfl⟩ := Option.map_eq_some_iff.mp found
    rw [listed]
    rfl

/-! ### Integer columns -/

theorem int8In_eq_ok {text : List Char} {result : Int} (converted : int8In text = .ok result) :
    ∃ numeral, Numeral.recognize text = some numeral ∧ numeral.integral = true ∧
      numeral.integer = result := by
  unfold int8In at converted
  split at converted
  next numeral recognized =>
    split_ifs at converted with integral range
    cases converted
    exact ⟨numeral, recognized, integral, rfl⟩
  next => cases converted

theorem recordInteger_numeric (stored : StoredInteger) :
    numeric stored.recorded.value = some stored.recorded.value := by
  obtain ⟨numeral, recognized, -, -⟩ := int8In_eq_ok stored.reads
  cases recorded : stored.recorded with
  | number value => simp [RecordInteger.value, numeric, stored.finite value recorded]
  | text units =>
    rw [recorded] at recognized
    have read : Numeral.recognize (Utf16.decode units) = some numeral := recognized
    simp [RecordInteger.value, numeric, read]

theorem compare_integer (stored : StoredInteger) {scalar : Scalar} {other : Numeral}
    (otherRead : Numeral.recognize (Utf16.decode scalar.text) = some other)
    (otherIntegral : other.integral = true) (comparison : Comparison) :
    compare comparison stored.recorded.value scalar =
      comparison.holds (Ord.compare stored.stored other.integer) := by
  obtain ⟨own, ownRead, ownIntegral, ownInteger⟩ := int8In_eq_ok stored.reads
  have found : scalar.numeral? = some other := by
    cases scalar with
    | boolean value =>
      have none : Numeral.recognize (Utf16.decode (Scalar.boolean value).text) = .none :=
        recognize_of_no_numeral? rfl
      rw [none] at otherRead
      cases otherRead
    | number value finite => exact otherRead
    | string units => exact otherRead
  have integers : cmpNumeric stored.recorded.value scalar.value =
      Ord.compare stored.stored other.integer := by
    have left : bigInt? stored.recorded.value = some stored.stored := by
      simp [bigInt?, ownRead, ownIntegral, ownInteger]
    have right : bigInt? scalar.value = some other.integer := by
      have read : Numeral.recognize (Utf16.decode scalar.value.text) = some other := otherRead
      simp [bigInt?, read, otherIntegral]
    rw [cmpNumeric, left, right]
  have present : stored.recorded.value ≠ .undefined ∧ stored.recorded.value ≠ .null := by
    cases stored.recorded <;> simp [RecordInteger.value]
  have noObject : stored.recorded.value.isObject = false := by
    cases stored.recorded <;> rfl
  rw [compare_numeric present noObject found, recordInteger_numeric, integers]
  rfl

theorem compare_stored (stored : StoredInteger) {scalar : Scalar} {bound : Int}
    (converted : int8In (Utf16.decode scalar.text) = .ok bound) (comparison : Comparison) :
    compare comparison stored.recorded.value scalar =
      comparison.holds (Ord.compare stored.stored bound) := by
  obtain ⟨other, otherRead, otherIntegral, rfl⟩ := int8In_eq_ok converted
  exact compare_integer stored otherRead otherIntegral comparison

theorem inList_of_numeric {values : List Scalar} (numeric : values.all isNumericValue = true) :
    inList values = values := if_pos numeric

/-- A value converts to `bigint`. -/
def IntegerSettled (scalar : Scalar) : Prop :=
  ∃ bound, int8In (Utf16.decode scalar.text) = .ok bound

def Scalar.bigint (scalar : Scalar) : Int := (int8In (Utf16.decode scalar.text)).toOption.getD 0

theorem IntegerSettled.converted {scalar : Scalar} (settled : IntegerSettled scalar) :
    int8In (Utf16.decode scalar.text) = .ok scalar.bigint := by
  obtain ⟨bound, converted⟩ := settled
  rw [Scalar.bigint, converted]
  rfl

theorem isNumericValue_of_integer {scalar : Scalar} (settled : IntegerSettled scalar) :
    isNumericValue scalar = true := by
  obtain ⟨bound, converted⟩ := settled
  obtain ⟨numeral, read, -, -⟩ := int8In_eq_ok converted
  rw [isNumericValue_eq]
  cases found : scalar.numeral? with
  | none =>
    rw [recognize_of_no_numeral? found] at read
    cases read
  | some numeral => rfl

theorem paramInt8_bound {scalar : Scalar} (sendable : Sendable scalar)
    (settled : IntegerSettled scalar) {params : List Param} {placeholder : Nat}
    (sent : params[placeholder - 1]? = some (.string scalar.text)) :
    paramInt8 params placeholder = .ok scalar.bigint := by
  rw [paramInt8, paramText_bound sendable sent]
  exact settled.converted

theorem integerColumn {name : JsString} (parsed : (Field.column name .number).Parsed)
    (event : EventRecord) : ∃ stored : StoredInteger,
      fieldValue event (.column name .number) = stored.recorded.value ∧
        event.row.intColumn name = .ok stored.stored := by
  rcases parsed with rfl | rfl
  · exact ⟨event.ledger, rfl, rfl⟩
  · exact ⟨event.seq, rfl, rfl⟩

theorem bigintPredicate_agrees {event : EventRecord} {name : JsString} {op : Op}
    {values : List Scalar} (parsed : (Field.column name .number).Parsed) (fits : Fits op values)
    (noExist : op ≠ .exist) (sendable : ∀ value ∈ values, Sendable value)
    (settled : ∀ value ∈ values, IntegerSettled value) (params : List Param) :
    ∃ condition extra, bigintPredicate params name op values = some (condition, params ++ extra) ∧
      ∀ later, Says (condition.value (params ++ extra ++ later) event.row)
        (answer (fieldValue event (.column name .number)) op values) := by
  obtain ⟨stored, recorded, column⟩ := integerColumn parsed event
  rw [recorded]
  cases op with
  | exist => exact absurd rfl noExist
  | isIn =>
    refine ⟨_, _, rfl, fun later => ?_⟩
    have sent : paramTexts (params ++ [.list (values.map Scalar.text)] ++ later)
        (params.length + 1) = .ok _ := paramTexts_bound sendable (lookup_bound _ _ _)
    have read : (values.map fun value => Utf16.decode value.text).mapM int8In =
        .ok (values.map Scalar.bigint) := by
      rw [List.mapM_map]
      exact mapM_ok fun value mem => (settled value mem).converted
    refine ⟨some ((values.map Scalar.bigint).contains stored.stored), ?_, ?_⟩
    · show Condition.value (.bigintAny name (params.length + 1)) _ _ = _
      simp only [Condition.value, sent, read, column, except_bind_ok]
      rfl
    · have numeric : values.all isNumericValue = true :=
        List.all_eq_true.mpr fun value mem => isNumericValue_of_integer (settled value mem)
      simp only [answer, inList_of_numeric numeric, Option.some_inj, List.contains_iff_mem,
        List.mem_map, List.any_eq_true]
      apply exists_congr
      intro value
      apply and_congr_right
      intro mem
      rw [compare_stored stored (settled value mem).converted, holds_eq_iff, eq_comm]
  | between =>
    obtain ⟨low, high, rfl⟩ := List.length_eq_two.mp fits
    have lowSettled := settled low (by simp)
    have highSettled := settled high (by simp)
    refine ⟨.bigintBetween name (params.length + 1) (params.length + 2),
      [.string low.text, .string high.text], by simp [bigintPredicate, bind], fun later => ?_⟩
    have lowSent := paramInt8_bound (sendable low (by simp)) lowSettled
      (lookup_first params (.string low.text) (.string high.text) later)
    have highSent := paramInt8_bound (sendable high (by simp)) highSettled
      (lookup_second params (.string low.text) (.string high.text) later)
    refine ⟨some (low.bigint ≤ stored.stored && stored.stored ≤ high.bigint), ?_, ?_⟩
    · simp only [Condition.value, lowSent, highSent, column, except_bind_ok]
      rfl
    · simp only [answer, Bool.and_eq_true, compare_stored stored lowSettled.converted,
        compare_stored stored highSettled.converted, holds_gte_iff, holds_lte_iff,
        Option.some_inj, decide_eq_true_eq]
  | compare comparison =>
    obtain ⟨value, rfl⟩ := List.length_eq_one_iff.mp fits
    have valueSettled := settled value (by simp)
    refine ⟨_, _, rfl, fun later => ?_⟩
    have sent : paramInt8 (params ++ [.string value.text] ++ later) (params.length + 1) =
        .ok value.bigint := paramInt8_bound (sendable value (by simp)) valueSettled
          (lookup_bound _ _ _)
    refine ⟨some (comparison.holds (Ord.compare stored.stored value.bigint)), ?_, ?_⟩
    · show Condition.value (.bigintCompare name comparison (params.length + 1)) _ _ = _
      simp only [Condition.value, sent, column, except_bind_ok]
      rfl
    · simp only [answer, compare_stored stored valueSettled.converted, Option.some_inj]

end SorobanExplorer.Filters
