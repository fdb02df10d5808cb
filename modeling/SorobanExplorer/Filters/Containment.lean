import SorobanExplorer.Filters.Grammar
import SorobanExplorer.Filters.JsonInput
import Mathlib.Logic.Relation

/-!
Owns what escapes the reading of a filter: that the parser throws nothing but
`FilterError`, the literals whose spelling only `JSON.parse` refuses, the names in an
AST that have no text, and that nothing else throws another exception.

A call stack is taken to be deep enough.
-/

namespace SorobanExplorer.Filters

open Library
open Library.Parser

/-- A `FilterError`. -/
def Refusal (thrown : ParseThrown) : Prop := ∃ message, thrown = filterError message

theorem refusal_filterError (message : JsString) : Refusal (filterError message) := ⟨message, rfl⟩

/-! ### The parser -/

theorem value_fails (tokens : List Token) : FailsWith Refusal (value tokens) := by
  cases tokens with
  | nil => exact failsWith_throw (refusal_filterError _)
  | cons token rest =>
    simp only [value]
    cases token.value? with
    | none => exact failsWith_throw (refusal_filterError _)
    | some read => exact failsWith_pure _

theorem expectSym_fails (symbol : String) (tokens : List Token) :
    FailsWith Refusal (expectSym symbol tokens) := by
  cases tokens with
  | nil => exact failsWith_throw (refusal_filterError _)
  | cons token rest =>
    simp only [expectSym]
    split_ifs
    · exact failsWith_pure _
    · exact failsWith_throw (refusal_filterError _)

theorem predOf_fails (field : JsString) (tokens : List Token) :
    FailsWith Refusal (predOf field tokens) := by
  cases tokens with
  | nil => exact failsWith_throw (refusal_filterError _)
  | cons token rest =>
    simp only [predOf]
    split_ifs
    · exact failsWith_pure _
    · apply (expectSym_fails _ _).bind fun opened => ?_
      apply (separated_failsWith value_fails opened.2).bind fun listed => ?_
      exact (expectSym_fails _ listed.2).bind fun _ => failsWith_pure _
    · apply (value_fails rest).bind fun parsed => ?_
      obtain ⟨low, rest⟩ := parsed
      cases rest with
      | nil => exact failsWith_throw (refusal_filterError _)
      | cons next rest =>
        dsimp only
        split_ifs
        · exact (value_fails rest).bind fun _ => failsWith_pure _
        · exact failsWith_throw (refusal_filterError _)
    · split
      · exact (value_fails rest).bind fun _ => failsWith_pure _
      · exact failsWith_throw (refusal_filterError _)

theorem pred_fails (tokens : List Token) : FailsWith Refusal (pred tokens) := by
  cases tokens with
  | nil => exact failsWith_throw (refusal_filterError _)
  | cons field rest =>
    simp only [pred]
    split_ifs
    · exact predOf_fails field.v rest
    · exact failsWith_throw (refusal_filterError _)

theorem disjunction_fails {unary : Read Node}
    (fails : ∀ tokens, FailsWith Refusal (unary tokens)) (tokens : List Token) :
    FailsWith Refusal (disjunction unary tokens) := by
  have conjunctions : ∀ tokens, FailsWith Refusal (conjunction unary tokens) := fun tokens =>
    (separated_failsWith fails tokens).bind fun _ => failsWith_pure _
  exact (separated_failsWith conjunctions tokens).bind fun _ => failsWith_pure _

theorem unary_fails (fuel : Nat) (tokens : List Token) :
    FailsWith Refusal (unary fuel tokens) := by
  induction fuel generalizing tokens with
  | zero => exact pred_fails tokens
  | succ fuel ih =>
    cases tokens with
    | nil => exact pred_fails []
    | cons token rest =>
      simp only [unary]
      split_ifs
      · exact (ih rest).bind fun _ => failsWith_pure _
      · apply (disjunction_fails ih rest).bind fun parsed => ?_
        exact (expectSym_fails _ parsed.2).bind fun _ => failsWith_pure _
      · exact pred_fails _
/-! ### The tokens -/

def skipWhitespace (units : JsString) : JsString :=
  units.dropWhile fun unit => isWhitespace (unitChar unit)

/-- What is left after one match of the expression, whatever `JSON.parse` says of a
literal. -/
def lexeme? : JsString → Option JsString
  | 0x22 :: rest => (takeLiteral? rest).map Prod.snd
  | units =>
    ((takeNumber? units).map Prod.snd) <|> ((takeSymbol? units).map Prod.snd) <|>
      ((takeWord? units).map Prod.snd)

def Scanned : JsString → JsString → Prop :=
  Relation.ReflTransGen fun units rest => lexeme? (skipWhitespace units) = some rest

/-- A literal that the expression takes and `JSON.parse` refuses. -/
def Misspelled (start : JsString) : Prop :=
  ∃ rest literal left, start = 0x22 :: rest ∧ takeLiteral? rest = some (literal, left) ∧
    parseLiteral? literal = none

def MeetsMisspelled (source : JsString) : Prop :=
  ∃ units, Scanned source units ∧ Misspelled (skipWhitespace units)

theorem meetsMisspelled_iff {units : JsString} :
    MeetsMisspelled units ↔ Misspelled (skipWhitespace units) ∨
      ∃ rest, lexeme? (skipWhitespace units) = some rest ∧ MeetsMisspelled rest := by
  constructor
  · rintro ⟨last, scanned, misspelled⟩
    rcases Relation.ReflTransGen.cases_head scanned with same | ⟨rest, taken, scanned⟩
    · exact Or.inl (same ▸ misspelled)
    · exact Or.inr ⟨rest, taken, last, scanned, misspelled⟩
  · rintro (misspelled | ⟨rest, taken, last, scanned, misspelled⟩)
    · exact ⟨units, .refl, misspelled⟩
    · exact ⟨last, .head taken scanned, misspelled⟩

theorem MeetsMisspelled.skipWhitespace_ne_nil {units : JsString} (meets : MeetsMisspelled units) :
    skipWhitespace units ≠ [] := by
  intro nothing
  rcases meetsMisspelled_iff.mp meets with ⟨_, _, _, same, -⟩ | ⟨_, lexeme, -⟩
  · rw [nothing] at same
    cases same
  · rw [nothing] at lexeme
    cases lexeme

inductive TokenTaken (start : JsString) : Except ParseThrown (Token × JsString) → Prop where
  | taken {token : Token} {rest : JsString} (spelled : ¬ Misspelled start)
      (lexeme : lexeme? start = some rest) : TokenTaken start (.ok (token, rest))
  | refused {message : JsString} (spelled : ¬ Misspelled start) (noLexeme : lexeme? start = none) :
      TokenTaken start (.error (filterError message))
  | misspelled (misspelled : Misspelled start) : TokenTaken start (.error .syntaxError)

theorem takeToken_taken (pos : Nat) (source start : JsString) :
    TokenTaken start (takeToken pos source start) := by
  unfold takeToken
  split
  next rest =>
    cases literal : takeLiteral? rest with
    | none =>
      refine .refused ?_ (by rw [lexeme?, literal]; rfl)
      rintro ⟨_, _, _, ⟨⟩, taken, -⟩
      rw [literal] at taken
      cases taken
    | some taken =>
      obtain ⟨units, left⟩ := taken
      dsimp only
      cases spelled : parseLiteral? units with
      | none => exact .misspelled ⟨rest, units, left, rfl, literal, spelled⟩
      | some value =>
        refine .taken ?_ (by rw [lexeme?, literal]; rfl)
        rintro ⟨_, _, _, ⟨⟩, taken, refused⟩
        rw [literal] at taken
        cases taken
        rw [spelled] at refused
        cases refused
  next noQuote =>
    have spelled : ¬ Misspelled start := by
      rintro ⟨rest, _, _, rfl, -⟩
      exact noQuote rest rfl
    have lexeme : lexeme? start = (((takeNumber? start).map Prod.snd) <|>
        ((takeSymbol? start).map Prod.snd) <|> ((takeWord? start).map Prod.snd)) := by
      rw [lexeme?]
      exact noQuote
    cases number : takeNumber? start with
    | some taken => exact .taken spelled (by rw [lexeme, number]; rfl)
    | none =>
      cases symbol : takeSymbol? start with
      | some taken => exact .taken spelled (by rw [lexeme, number, symbol]; rfl)
      | none =>
        cases word : takeWord? start with
        | some taken => exact .taken spelled (by rw [lexeme, number, symbol, word]; rfl)
        | none => exact .refused spelled (by rw [lexeme, number, symbol, word]; rfl)

theorem takeLiteral?_shorter {units literal left : JsString}
    (taken : takeLiteral? units = some (literal, left)) : left.length < units.length := by
  induction units using takeLiteral?.induct generalizing literal with
  | case1 => cases taken
  | case2 rest =>
    rw [takeLiteral?.eq_def] at taken
    dsimp only at taken
    rw [if_pos rfl] at taken
    cases taken
    exact Nat.lt_succ_self _
  | case3 => cases taken
  | case4 next rest terminator noQuote =>
    rw [takeLiteral?, if_neg noQuote, if_pos rfl, if_pos terminator] at taken
    cases taken
  | case5 next rest noTerminator noQuote ih =>
    rw [takeLiteral?, if_neg noQuote, if_pos rfl, if_neg noTerminator] at taken
    obtain ⟨⟨units, after⟩, takenLater, same⟩ := Option.map_eq_some_iff.mp taken
    cases same
    have shorter := ih takenLater
    simp only [List.length_cons] at shorter ⊢
    omega
  | case6 unit rest noQuote noEscape ih =>
    rw [takeLiteral?.eq_def] at taken
    dsimp only at taken
    rw [if_neg noQuote, if_neg noEscape] at taken
    obtain ⟨⟨units, after⟩, takenLater, same⟩ := Option.map_eq_some_iff.mp taken
    cases same
    have shorter := ih takenLater
    simp only [List.length_cons] at shorter ⊢
    omega

theorem takeNumber?_shorter {units number rest : JsString}
    (taken : takeNumber? units = some (number, rest)) : rest.length < units.length := by
  simp only [takeNumber?, Option.bind_eq_bind, Option.bind_eq_some_iff] at taken
  obtain ⟨⟨numeral, left⟩, numeralTaken, taken⟩ := taken
  have shorter := Numeral.take?_shorter numeralTaken
  rw [List.length_map] at shorter
  split_ifs at taken
  cases taken
  rw [List.length_drop]
  dsimp only
  omega

theorem takeSymbol?_shorter {units symbol rest : JsString}
    (taken : takeSymbol? units = some (symbol, rest)) : rest.length < units.length := by
  cases units with
  | nil => cases taken
  | cons first units =>
    unfold takeSymbol? at taken
    split_ifs at taken
    all_goals
      cases taken
      simp only [List.length_drop, List.length_cons]
      omega

theorem takeWord?_shorter {units word rest : JsString}
    (taken : takeWord? units = some (word, rest)) : rest.length < units.length := by
  cases units with
  | nil => cases taken
  | cons first units =>
    simp only [takeWord?] at taken
    split_ifs at taken with letter
    cases taken
    have field : isFieldUnit first = true := by
      simp only [isFieldUnit, isWordUnit, Char.isAlphanum, Bool.or_eq_true] at letter ⊢
      tauto
    rw [List.dropWhile_cons_of_pos field, List.length_cons]
    exact Nat.lt_succ_of_le (List.dropWhile_sublist _).length_le

theorem lexeme?_shorter {units rest : JsString} (taken : lexeme? units = some rest) :
    rest.length < units.length := by
  unfold lexeme? at taken
  split at taken
  next literal =>
    obtain ⟨⟨units, rest⟩, literalTaken, rfl⟩ := Option.map_eq_some_iff.mp taken
    have shorter := takeLiteral?_shorter literalTaken
    simp only [List.length_cons]
    omega
  next =>
    simp only [Option.orElse_eq_some, Option.map_eq_some_iff] at taken
    rcases taken with ⟨⟨_, _⟩, taken, rfl⟩ | ⟨-, ⟨⟨_, _⟩, taken, rfl⟩ | ⟨-, ⟨_, _⟩, taken, rfl⟩⟩
    · exact takeNumber?_shorter taken
    · exact takeSymbol?_shorter taken
    · exact takeWord?_shorter taken

theorem skipWhitespace_length (units : JsString) : (skipWhitespace units).length ≤ units.length :=
  (List.dropWhile_sublist _).length_le

theorem tokenizeFrom_succ (source : JsString) (fuel : Nat) (units : JsString) :
    tokenizeFrom source (fuel + 1) units =
      if skipWhitespace units = [] then pure []
      else takeToken (source.length - units.length) source (skipWhitespace units) >>= fun taken =>
        tokenizeFrom source fuel taken.2 >>= fun tokens => pure (taken.1 :: tokens) := by
  rw [tokenizeFrom, skipWhitespace]
  split
  next nothing => rw [if_pos nothing]
  next something => rw [if_neg something]

theorem tokenizeFrom_fails (source : JsString) (fuel : Nat) (units : JsString) :
    FailsWith (fun thrown => Refusal thrown ∨ MeetsMisspelled units)
      (tokenizeFrom source fuel units) := by
  induction fuel generalizing units with
  | zero => exact failsWith_pure _
  | succ fuel ih =>
    rw [tokenizeFrom_succ]
    split_ifs
    · exact failsWith_pure _
    · have token := takeToken_taken (source.length - units.length) source (skipWhitespace units)
      generalize takeToken (source.length - units.length) source (skipWhitespace units) = result
        at token
      cases token with
      | refused => exact failsWith_throw (Or.inl (refusal_filterError _))
      | misspelled misspelled =>
        exact failsWith_throw (Or.inr (meetsMisspelled_iff.mpr (Or.inl misspelled)))
      | @taken token rest spelled lexeme =>
        have later : FailsWith (fun thrown => Refusal thrown ∨ MeetsMisspelled units)
            (tokenizeFrom source fuel rest) := fun thrown failed =>
          (ih rest thrown failed).imp_right fun meets =>
            meetsMisspelled_iff.mpr (Or.inr ⟨rest, lexeme, meets⟩)
        exact later.bind fun _ => failsWith_pure _

theorem tokenizeFrom_of_meetsMisspelled (source : JsString) {fuel : Nat} {units : JsString}
    (enough : units.length ≤ fuel) (meets : MeetsMisspelled units) :
    tokenizeFrom source fuel units = .error .syntaxError := by
  induction fuel generalizing units with
  | zero =>
    obtain rfl := List.length_eq_zero_iff.mp (Nat.le_zero.mp enough)
    exact absurd rfl meets.skipWhitespace_ne_nil
  | succ fuel ih =>
    rw [tokenizeFrom_succ, if_neg meets.skipWhitespace_ne_nil]
    have token := takeToken_taken (source.length - units.length) source (skipWhitespace units)
    generalize takeToken (source.length - units.length) source (skipWhitespace units) = result
      at token
    cases token with
    | refused spelled noLexeme =>
      rcases meetsMisspelled_iff.mp meets with misspelled | ⟨_, lexeme, -⟩
      · exact absurd misspelled spelled
      · rw [noLexeme] at lexeme
        cases lexeme
    | misspelled => rfl
    | @taken token rest spelled lexeme =>
      rcases meetsMisspelled_iff.mp meets with misspelled | ⟨later, same, meets⟩
      · exact absurd misspelled spelled
      · obtain rfl := Option.some.inj (lexeme.symm.trans same)
        have shorter := lexeme?_shorter lexeme
        have skipped := skipWhitespace_length units
        show (tokenizeFrom source fuel rest >>= _) = _
        rw [ih (by omega) meets]
        rfl

theorem tokenize_cases (source : JsString) :
    (MeetsMisspelled source ∧ tokenize source = .error .syntaxError) ∨
      (¬ MeetsMisspelled source ∧ FailsWith Refusal (tokenize source)) := by
  by_cases meets : MeetsMisspelled source
  · exact Or.inl ⟨meets, tokenizeFrom_of_meetsMisspelled source le_rfl meets⟩
  · exact Or.inr ⟨meets, fun thrown failed =>
      (tokenizeFrom_fails source _ source thrown failed).resolve_right meets⟩

/-! ### Texts of values -/

mutual

/-- `String(value)` throws: an own `toString` hides the inherited one, also in an
item of an array. -/
def textless : Json → Bool
  | .object members => (Json.lookup members (js "toString")).isSome
  | .array items => anyTextless items
  | _ => false

def anyTextless : List Json → Bool
  | [] => false
  | item :: items => textless item || anyTextless items

end

theorem joined_cons (item : Json) (items : List Json) :
    joined (item :: items) = (if item matches .null then pure [] else stringOf item) >>= fun first =>
      joined items >>= fun texts => pure (first :: texts) := by
  cases item <;> rfl

mutual

theorem stringOf_cases : ∀ value : Json,
    (textless value = true ∧ stringOf value = .error .typeError) ∨
      (textless value = false ∧ ∃ text, stringOf value = .ok text)
  | .null | .boolean _ | .number _ | .string _ => Or.inr ⟨rfl, _, rfl⟩
  | .array items => by
      rcases joined_cases items with ⟨lacks, fails⟩ | ⟨has, texts, joins⟩
      · refine Or.inl ⟨by rw [textless, lacks], ?_⟩
        rw [stringOf, fails]
        rfl
      · refine Or.inr ⟨by rw [textless, has], (js ",").intercalate texts, ?_⟩
        rw [stringOf, joins]
        rfl
  | .object members => by
      cases own : Json.lookup members (js "toString") with
      | some value => exact Or.inl ⟨by rw [textless, own]; rfl, by rw [stringOf, own]; rfl⟩
      | none => exact Or.inr ⟨by rw [textless, own]; rfl, _, by rw [stringOf, own]; rfl⟩

theorem joined_cases : ∀ items : List Json,
    (anyTextless items = true ∧ joined items = .error .typeError) ∨
      (anyTextless items = false ∧ ∃ texts, joined items = .ok texts)
  | [] => Or.inr ⟨rfl, _, rfl⟩
  | item :: items => by
      have first : (textless item = true ∧
          (if item matches .null then pure [] else stringOf item) = .error .typeError) ∨
          (textless item = false ∧
            ∃ text, (if item matches .null then pure [] else stringOf item) = .ok text) := by
        cases item with
        | null => exact Or.inr ⟨rfl, [], rfl⟩
        | boolean | number | string | array | object => exact stringOf_cases _
      rw [joined_cons, anyTextless]
      rcases first with ⟨lacks, fails⟩ | ⟨has, text, converts⟩
      · exact Or.inl ⟨by rw [lacks, Bool.true_or], by rw [fails]; rfl⟩
      · rcases joined_cases items with ⟨lacks, fails⟩ | ⟨hasLater, texts, joins⟩
        · exact Or.inl ⟨by rw [lacks, Bool.or_true], by rw [converts, fails]; rfl⟩
        · exact Or.inr ⟨by rw [has, hasLater]; rfl, text :: texts, by rw [converts, joins]; rfl⟩

end

def Textless (property : Option Json) : Prop := ∃ value, property = some value ∧ textless value = true

theorem stringOfProperty_cases (property : Option Json) :
    (Textless property ∧ stringOfProperty property = .error .typeError) ∨
      (¬ Textless property ∧ ∃ text, stringOfProperty property = .ok text) := by
  cases property with
  | none => exact Or.inr ⟨nofun, _, rfl⟩
  | some value =>
    rcases stringOf_cases value with ⟨lacks, fails⟩ | ⟨has, text, converts⟩
    · exact Or.inl ⟨⟨value, rfl, lacks⟩, fails⟩
    · refine Or.inr ⟨?_, text, converts⟩
      rintro ⟨_, ⟨⟩, lacks⟩
      rw [has] at lacks
      cases lacks

/-! ### Predicates -/

def Integers (field : Field) (values : List Scalar) : Prop :=
  (∃ column, field = .column column .number) → values.all Scalar.isInteger = true

def AllowedValues (field : Field) (op : Op) (value : Option Json) : Prop :=
  ∃ values, operands op value = some values ∧
    (op = .isIn → 1 ≤ values.length ∧ values.length ≤ maxIn) ∧ Integers field values

/-- A predicate that `walk` lets pass. -/
def Allowed (source op value : Option Json) : Prop :=
  ∃ field parsedOp, parseField source = some field ∧ parseOp op = some parsedOp ∧
    AllowedValues field parsedOp value

/-- The name that `walk` cannot tell has no text either. -/
def Nameless (source op : Option Json) : Prop :=
  (parseField source = none ∧ Textless source) ∨
    ((parseField source).isSome = true ∧ parseOp op = none ∧ Textless op)

theorem exists_text_of_parseField {source : Option Json} {field : Field}
    (parsed : parseField source = some field) : ∃ text, stringOfProperty source = .ok text := by
  match source with
  | some (.string text) => exact ⟨text, rfl⟩
  | none | some .null | some (.boolean _) | some (.number _) | some (.array _) | some (.object _) =>
    cases parsed

theorem exists_text_of_parseOp {source : Option Json} {op : Op}
    (parsed : parseOp source = some op) : ∃ text, stringOfProperty source = .ok text := by
  match source with
  | some (.string text) => exact ⟨text, rfl⟩
  | none | some .null | some (.boolean _) | some (.number _) | some (.array _) | some (.object _) =>
    cases parsed

def checkIntegers (field : Field) (fieldText : JsString) (values : List Scalar) :
    Except Thrown Unit :=
  match field with
  | .column _ .number =>
    if values.all Scalar.isInteger then pure ()
    else throw (.filterError (fieldText ++ js " compares integers"))
  | _ => pure ()

theorem checkIntegers_cases (field : Field) (fieldText : JsString) (values : List Scalar) :
    (Integers field values ∧ checkIntegers field fieldText values = .ok ()) ∨
      (¬ Integers field values ∧
        ∃ message, checkIntegers field fieldText values = .error (.filterError message)) := by
  unfold checkIntegers
  split
  next column =>
    split_ifs with all
    · exact Or.inl ⟨fun _ => all, rfl⟩
    · exact Or.inr ⟨fun integers => all (integers ⟨column, rfl⟩), _, rfl⟩
  next other => exact Or.inl ⟨fun ⟨column, same⟩ => absurd same (other column), rfl⟩

section Values

variable (field : Field) (fieldText opText : JsString) (op : Op) (value : Option Json)

theorem validateValues_of_operands {field : Field} {fieldText opText : JsString} {op : Op}
    {value : Option Json} {values : List Scalar} (found : operands op value = some values)
    (count : op = .isIn → 1 ≤ values.length ∧ values.length ≤ maxIn)
    (last : validateValues field fieldText opText op value =
      checkIntegers field fieldText values) :
    (AllowedValues field op value ∧ validateValues field fieldText opText op value = .ok ()) ∨
      (¬ AllowedValues field op value ∧
        ∃ message, validateValues field fieldText opText op value =
          .error (.filterError message)) := by
  have allowed : AllowedValues field op value ↔ Integers field values := by
    constructor
    · rintro ⟨others, same, -, integers⟩
      obtain rfl := Option.some.inj (found.symm.trans same)
      exact integers
    · exact fun integers => ⟨values, found, count, integers⟩
  rw [allowed, last]
  exact checkIntegers_cases field fieldText values

theorem validateValues_cases :
    (AllowedValues field op value ∧ validateValues field fieldText opText op value = .ok ()) ∨
      (¬ AllowedValues field op value ∧
        ∃ message, validateValues field fieldText opText op value =
          .error (.filterError message)) := by
  cases op with
  | exist =>
    refine Or.inl ⟨⟨[], rfl, ?_, fun _ => rfl⟩, rfl⟩
    rintro ⟨⟩
  | isIn =>
    cases found : scalars? value with
    | none =>
      refine Or.inr ⟨?_, _, by rw [validateValues, found]; rfl⟩
      rintro ⟨values, same, -⟩
      cases found.symm.trans same
    | some values =>
      by_cases count : 1 ≤ values.length ∧ values.length ≤ maxIn
      · refine validateValues_of_operands (show operands .isIn value = _ from found)
          (fun _ => count) ?_
        simp only [validateValues, found, if_pos count]
        rfl
      · refine Or.inr ⟨?_, _, by simp only [validateValues, found, if_neg count]; rfl⟩
        rintro ⟨others, same, counted, -⟩
        obtain rfl := Option.some.inj (found.symm.trans same)
        exact count (counted rfl)
  | between =>
    by_cases pair : ∃ low high, scalars? value = some [low, high]
    · obtain ⟨low, high, found⟩ := pair
      have both : operands .between value = some [low, high] := by rw [operands, found]
      refine validateValues_of_operands both (by rintro ⟨⟩) ?_
      rw [validateValues, found]
      rfl
    · refine Or.inr ⟨?_, js "between needs [low, high]", ?_⟩
      · rintro ⟨values, same, -⟩
        simp only [operands] at same
        split at same
        next low high found => exact pair ⟨low, high, found⟩
        next => cases same
      · simp only [validateValues]
        split
        next low high found => exact absurd ⟨low, high, found⟩ pair
        next => rfl
  | compare comparison =>
    cases found : value.bind scalar? with
    | none =>
      refine Or.inr ⟨?_, _, by simp only [validateValues, found]; rfl⟩
      rintro ⟨values, same, -⟩
      rw [operands, found] at same
      cases same
    | some scalar =>
      refine validateValues_of_operands (by rw [operands, found]; rfl) (by rintro ⟨⟩) ?_
      simp only [validateValues, found]
      rfl

end Values

inductive Checked (allowed nameless : Prop) : Except Thrown Unit → Prop where
  | passes (holds : allowed) : Checked allowed nameless (.ok ())
  | breaks (lacks : nameless) : Checked allowed nameless (.error .typeError)
  | refuses {message : JsString} (fails : ¬ allowed) (has : ¬ nameless) :
      Checked allowed nameless (.error (.filterError message))

theorem validatePredicate_checked (source op value : Option Json) :
    Checked (Allowed source op value) (Nameless source op)
      (validatePredicate source op value) := by
  unfold validatePredicate
  cases parsed : parseField source with
  | none =>
    have refused : ¬ Allowed source op value := by
      rintro ⟨field, _, known, -⟩
      exact absurd (parsed.symm.trans known) nofun
    rcases stringOfProperty_cases source with ⟨lacks, fails⟩ | ⟨has, text, converts⟩
    · simp only [fails]
      exact .breaks (Or.inl ⟨parsed, lacks⟩)
    · simp only [converts]
      refine .refuses refused ?_
      rintro (⟨-, lacks⟩ | ⟨known, -⟩)
      · exact has lacks
      · rw [parsed] at known
        cases known
  | some field =>
    obtain ⟨fieldText, fieldConverts⟩ := exists_text_of_parseField parsed
    cases opParsed : parseOp op with
    | none =>
      have refused : ¬ Allowed source op value := by
        rintro ⟨_, _, -, known, -⟩
        exact absurd (opParsed.symm.trans known) nofun
      rcases stringOfProperty_cases op with ⟨lacks, fails⟩ | ⟨has, text, converts⟩
      · simp only [fails]
        exact .breaks (Or.inr ⟨by rw [parsed]; rfl, opParsed, lacks⟩)
      · simp only [converts]
        refine .refuses refused ?_
        rintro (⟨unknown, -⟩ | ⟨-, -, lacks⟩)
        · exact absurd (parsed.symm.trans unknown) nofun
        · exact has lacks
    | some parsedOp =>
      obtain ⟨opText, opConverts⟩ := exists_text_of_parseOp opParsed
      have named : ¬ Nameless source op := by
        rintro (⟨unknown, -⟩ | ⟨-, unknown, -⟩)
        · exact absurd (parsed.symm.trans unknown) nofun
        · exact absurd (opParsed.symm.trans unknown) nofun
      simp only [fieldConverts, opConverts]
      show Checked _ _ (validateValues field fieldText opText parsedOp value)
      rcases validateValues_cases field fieldText opText parsedOp value with
        ⟨allowed, passes⟩ | ⟨refused, message, fails⟩
      · rw [passes]
        exact .passes ⟨field, parsedOp, parsed, opParsed, allowed⟩
      · rw [fails]
        refine .refuses ?_ named
        rintro ⟨other, otherOp, known, opKnown, allowed⟩
        obtain rfl := Option.some.inj (parsed.symm.trans known)
        obtain rfl := Option.some.inj (opParsed.symm.trans opKnown)
        exact refused allowed

/-! ### Nodes -/

/-- A node that `walk` lets pass, whatever its children are. -/
def Node.Formed : Node → Prop
  | .other _ => False
  | .object (.list nodes) _ _ _ _ _ => nodes ≠ []
  | .object (.other _) _ _ _ _ _ => False
  | .object _ (.list nodes) _ _ _ _ => nodes ≠ []
  | .object .absent .absent (some _) _ _ _ => True
  | .object .absent .absent none field op value => Allowed field op value
  | .object _ _ _ _ _ _ => False

def Node.Nameless : Node → Prop
  | .object .absent .absent none field op _ => Filters.Nameless field op
  | _ => False

/-- The checks of `walk` at a node, before its children. -/
def inspect : Node → Except Thrown Unit
  | .other _ => throw (.filterError (js "filter node must be an object"))
  | .object (.list nodes) _ _ _ _ _ => if nodes.isEmpty then throw noList else pure ()
  | .object (.other _) _ _ _ _ _ => throw noList
  | .object _ (.list nodes) _ _ _ _ => if nodes.isEmpty then throw noList else pure ()
  | .object .absent .absent (some _) _ _ _ => pure ()
  | .object .absent .absent none field op value => validatePredicate field op value
  | .object _ _ _ _ _ _ => throw noList

theorem listed_checked (nodes : List Node) :
    Checked (nodes ≠ []) False (if nodes.isEmpty then throw noList else pure ()) := by
  cases nodes with
  | nil => exact .refuses (fun ne => ne rfl) id
  | cons => exact .passes (List.cons_ne_nil _ _)

theorem inspect_checked (node : Node) : Checked node.Formed node.Nameless (inspect node) := by
  match node with
  | .other _ => exact .refuses id id
  | .object (.list nodes) _ _ _ _ _ => exact listed_checked nodes
  | .object (.other _) _ _ _ _ _ => exact .refuses id id
  | .object .absent (.list nodes) _ _ _ _ => exact listed_checked nodes
  | .object .null (.list nodes) _ _ _ _ => exact listed_checked nodes
  | .object .absent .absent (some _) _ _ _ => exact .passes trivial
  | .object .absent .absent none field op value => exact validatePredicate_checked field op value
  | .object .null .absent _ _ _ _ | .object .null .null _ _ _ _
  | .object .absent .null _ _ _ _ => exact .refuses id id
  | .object .null (.other _) _ _ _ _ | .object .absent (.other _) _ _ _ _ =>
    exact .refuses id id

/-! ### The walk -/

/-- A node as `walk` comes to it. -/
structure Visit where
  depth : Nat
  node : Node

mutual

/-- The nodes below a node, in the order of `walk`. -/
def below : Node → Nat → List Visit
  | .object (.list nodes) _ _ _ _ _, depth => visitsAll nodes depth
  | .object (.other _) _ _ _ _ _, _ => []
  | .object _ (.list nodes) _ _ _ _, depth => visitsAll nodes depth
  | .object .absent .absent (some node) _ _ _, depth => ⟨depth, node⟩ :: below node (depth + 1)
  | _, _ => []

def visitsAll : List Node → Nat → List Visit
  | [], _ => []
  | node :: nodes, depth => (⟨depth, node⟩ :: below node (depth + 1)) ++ visitsAll nodes depth

end

def visits (node : Node) (depth : Nat) : List Visit := ⟨depth, node⟩ :: below node (depth + 1)

theorem mem_visitsAll {nodes : List Node} {depth : Nat} {visit : Visit} :
    visit ∈ visitsAll nodes depth ↔ ∃ node ∈ nodes, visit ∈ visits node depth := by
  induction nodes with
  | nil => simp [visitsAll]
  | cons node nodes ih =>
    simp only [visitsAll, List.mem_append, ih, List.exists_mem_cons_iff, visits]

def countVisit (count : Nat) (visit : Visit) : Except Thrown Nat := do
  let count ← enter visit.depth count
  inspect visit.node
  pure count

theorem foldlM_visits (node : Node) (depth count : Nat) :
    (visits node depth).foldlM countVisit count =
      enter depth count >>= fun entered => inspect node >>= fun _ =>
        (below node (depth + 1)).foldlM countVisit entered := by
  rw [visits, List.foldlM_cons, countVisit]
  simp only [bind_assoc, pure_bind]

theorem walk_eq (node : Node) (depth count : Nat) :
    walk node depth count = (visits node depth).foldlM countVisit count := by
  apply walk.induct
    (fun node depth count => walk node depth count = (visits node depth).foldlM countVisit count)
    (fun nodes depth count =>
      walkAll nodes depth count = (visitsAll nodes depth).foldlM countVisit count)
  case case1 =>
    intro truthy depth count
    rw [foldlM_visits, walk, inspect]
    rfl
  case case2 =>
    intro nodes orKey notKey field op value depth count ih
    rw [foldlM_visits, walk, inspect, below]
    congr 1
    funext entered
    cases nodes with
    | nil => rfl
    | cons => exact ih entered
  case case3 =>
    intro truthy orKey notKey field op value depth count
    rw [foldlM_visits, walk, inspect]
    rfl
  case case4 =>
    intro andKey nodes notKey field op value depth count notList notOther ih
    rw [foldlM_visits, walk.eq_4 _ _ _ _ _ _ _ _ notList notOther,
      inspect.eq_4 _ _ _ _ _ _ notList notOther, below.eq_3 _ _ _ _ _ _ _ notList notOther]
    congr 1
    funext entered
    cases nodes with
    | nil => rfl
    | cons => exact ih entered
  case case5 =>
    intro node field op value depth count ih
    rw [foldlM_visits, walk, inspect, below]
    congr 1
    funext entered
    exact ih entered
  case case6 =>
    intro field op value depth count
    rw [foldlM_visits, walk, inspect, below]
    · rfl
    all_goals
      intros
      rename_i same
      cases same
  case case7 =>
    intro andKey orKey notKey field op value depth count notList notOther noOr noNot noLeaf
    rw [foldlM_visits, walk.eq_7 _ _ _ _ _ _ _ _ notList notOther noOr noNot noLeaf,
      inspect.eq_7 _ _ _ _ _ _ notList notOther noOr noNot noLeaf]
    rfl
  case case8 =>
    intro depth count
    rfl
  case case9 =>
    intro node nodes depth count headHypothesis ih
    rw [walkAll, visitsAll, List.foldlM_append, headHypothesis]
    congr 1
    funext counted
    exact ih counted

def ComesToNameless (count : Nat) (visits : List Visit) : Prop :=
  ∃ before visit after, visits = before ++ visit :: after ∧
    (∀ earlier ∈ before, earlier.depth ≤ maxDepth ∧ earlier.node.Formed) ∧
    count + before.length < maxNodes ∧ visit.depth ≤ maxDepth ∧ visit.node.Nameless

inductive Counted (count : Nat) (visit : Visit) : Except Thrown Nat → Prop where
  | passes (few : count < maxNodes) (shallow : visit.depth ≤ maxDepth)
      (formed : visit.node.Formed) (named : ¬ visit.node.Nameless) :
      Counted count visit (.ok (count + 1))
  | breaks (few : count < maxNodes) (shallow : visit.depth ≤ maxDepth)
      (nameless : visit.node.Nameless) : Counted count visit (.error .typeError)
  | refuses {message : JsString} (refused : ¬ (count < maxNodes ∧ visit.depth ≤ maxDepth ∧
      (visit.node.Formed ∨ visit.node.Nameless))) :
      Counted count visit (.error (.filterError message))

theorem Node.Nameless.not_formed {node : Node} (nameless : node.Nameless) : ¬ node.Formed := by
  match node with
  | .object .absent .absent none field op value =>
    rintro ⟨known, knownOp, parsed, opParsed, -⟩
    rcases nameless with ⟨unknown, -⟩ | ⟨-, unknown, -⟩
    · exact absurd (parsed.symm.trans unknown) nofun
    · exact absurd (opParsed.symm.trans unknown) nofun

theorem countVisit_counted (count : Nat) (visit : Visit) :
    Counted count visit (countVisit count visit) := by
  unfold countVisit enter
  by_cases few : count < maxNodes
  · rw [if_neg (show ¬ count + 1 > maxNodes by omega)]
    by_cases shallow : visit.depth ≤ maxDepth
    · rw [if_neg (Nat.not_lt.mpr shallow)]
      simp only [pure_bind]
      have checked := inspect_checked visit.node
      generalize inspect visit.node = result at checked
      cases checked with
      | passes formed => exact .passes few shallow formed fun nameless => nameless.not_formed formed
      | breaks nameless => exact .breaks few shallow nameless
      | refuses unformed named => exact .refuses fun fits => fits.2.2.elim unformed named
    · rw [if_pos (Nat.not_le.mp shallow)]
      exact .refuses fun fits => shallow fits.2.1
  · rw [if_pos (show count + 1 > maxNodes by omega)]
    exact .refuses fun fits => few fits.1

theorem comesToNameless_cons {count : Nat} {first : Visit} {visits : List Visit} :
    ComesToNameless count (first :: visits) ↔
      (count < maxNodes ∧ first.depth ≤ maxDepth ∧ first.node.Nameless) ∨
        (first.depth ≤ maxDepth ∧ first.node.Formed ∧ ComesToNameless (count + 1) visits) := by
  constructor
  · rintro ⟨before, visit, after, same, passed, few, shallow, nameless⟩
    cases before with
    | nil =>
      cases same
      exact Or.inl ⟨few, shallow, nameless⟩
    | cons earlier before =>
      cases same
      have fits := List.forall_mem_cons.mp passed
      rw [List.length_cons] at few
      exact Or.inr ⟨fits.1.1, fits.1.2, before, visit, after, rfl, fits.2, by omega, shallow,
        nameless⟩
  · rintro (⟨few, shallow, nameless⟩ | ⟨flat, formed, before, visit, after, rfl, passed, few,
      shallow, nameless⟩)
    · exact ⟨[], first, visits, rfl, List.forall_mem_nil _, few, shallow, nameless⟩
    · refine ⟨first :: before, visit, after, rfl, List.forall_mem_cons.mpr ⟨⟨flat, formed⟩, passed⟩,
        ?_, shallow, nameless⟩
      rw [List.length_cons]
      omega

theorem foldlM_countVisit_iff (visits : List Visit) (count : Nat) :
    visits.foldlM countVisit count = .error .typeError ↔ ComesToNameless count visits := by
  induction visits generalizing count with
  | nil =>
    constructor
    · nofun
    · rintro ⟨before, visit, after, same, -⟩
      exact absurd same.symm (by simp)
  | cons first visits ih =>
    rw [comesToNameless_cons, List.foldlM_cons]
    have counted := countVisit_counted count first
    generalize countVisit count first = result at counted
    cases counted with
    | passes few shallow formed named =>
      show visits.foldlM countVisit (count + 1) = _ ↔ _
      rw [ih]
      tauto
    | breaks few shallow nameless => exact ⟨fun _ => Or.inl ⟨few, shallow, nameless⟩, fun _ => rfl⟩
    | refuses refused =>
      constructor
      · nofun
      · rintro (⟨few, shallow, nameless⟩ | ⟨shallow, formed, before, visit, after, -, -, few, -⟩)
        · exact absurd ⟨few, shallow, Or.inr nameless⟩ refused
        · exact absurd ⟨by omega, shallow, Or.inl formed⟩ refused

theorem validateFilter_iff (node : Node) :
    validateFilter node = .error .typeError ↔ ComesToNameless 0 (visits node 0) := by
  rw [← foldlM_countVisit_iff, ← walk_eq, validateFilter]
  cases walk node 0 0 with
  | error thrown => exact ⟨fun failed => by cases failed; rfl, fun failed => by cases failed; rfl⟩
  | ok count => exact ⟨nofun, nofun⟩

/-! ### Trees of a text -/

def Named (node : Node) : Prop := ∀ depth, ∀ visit ∈ visits node depth, ¬ visit.node.Nameless

theorem named_predNode (field op : JsString) (value : Option Json) :
    Named (predNode field op value) := by
  intro depth visit mem
  obtain rfl := List.mem_singleton.mp mem
  rintro (⟨-, _, ⟨⟩, lacks⟩ | ⟨-, -, _, ⟨⟩, lacks⟩)
  · cases lacks
  · cases lacks

theorem named_notNode {node : Node} (named : Named node) : Named (notNode node) := by
  intro depth visit mem
  rcases List.mem_cons.mp mem with rfl | mem
  · exact id
  · exact named (depth + 1) visit mem

/-- A node that opens into others is as named as they are. -/
theorem named_of_visitsAll {node : Node} {nodes : List Node} (named : ∀ node ∈ nodes, Named node)
    (opens : ∀ depth, visits node depth = ⟨depth, node⟩ :: visitsAll nodes (depth + 1))
    (own : ¬ node.Nameless) : Named node := by
  intro depth visit mem
  rw [opens] at mem
  rcases List.mem_cons.mp mem with rfl | mem
  · exact own
  · obtain ⟨node, inside, mem⟩ := mem_visitsAll.mp mem
    exact named node inside _ visit mem

theorem named_andNode {nodes : List Node} (named : ∀ node ∈ nodes, Named node) :
    Named (andNode nodes) := by
  unfold andNode
  split
  · exact named _ (List.mem_singleton_self _)
  · exact named_of_visitsAll named (fun _ => rfl) id

theorem named_orNode {nodes : List Node} (named : ∀ node ∈ nodes, Named node) :
    Named (orNode nodes) := by
  unfold orNode
  split
  · exact named _ (List.mem_singleton_self _)
  · exact named_of_visitsAll named (fun _ => rfl) id

theorem Derives.named {rule : Rule} {tokens : List Token} {node : Node}
    (derived : Derives rule tokens node) : Named node := by
  induction derived with
  | or joined each ih =>
    apply named_orNode
    intro node mem
    obtain ⟨part, inside, rfl⟩ := List.mem_map.mp mem
    exact ih part inside
  | and joined each ih =>
    apply named_andNode
    intro node mem
    obtain ⟨part, inside, rfl⟩ := List.mem_map.mp mem
    exact ih part inside
  | not word inner ih => exact named_notNode ih
  | group inner ih => exact ih
  | pred leaf => cases leaf <;> exact named_predNode _ _ _

/-! ### What escapes -/

/-- The call returns an AST that `validateFilter` accepts, or throws `FilterError`. -/
def Contained (result : Except ParseThrown Node) : Prop :=
  (∃ ast, result = .ok ast ∧ validateFilter ast = .ok ast) ∨
    ∃ message, result = .error (filterError message)

theorem contained_refusal {thrown : ParseThrown} (refusal : Refusal thrown) :
    Contained (.error thrown) := by
  obtain ⟨message, rfl⟩ := refusal
  exact Or.inr ⟨message, rfl⟩

theorem not_contained {thrown : ParseThrown} (escapes : ¬ Refusal thrown) :
    ¬ Contained (.error thrown) := by
  rintro (⟨_, ⟨⟩, -⟩ | ⟨message, ⟨⟩⟩)
  exact escapes ⟨message, rfl⟩

theorem contained_validated_iff {result : Except ParseThrown Node} (ast : Node)
    (validated : result = match validateFilter ast with
      | .ok ast => pure ast
      | .error thrown => throw (.thrown thrown)) :
    Contained result ↔ ¬ ComesToNameless 0 (visits ast 0) := by
  rw [← validateFilter_iff]
  cases valid : validateFilter ast with
  | ok same =>
    rw [valid] at validated
    obtain rfl := validateFilter_eq valid
    exact ⟨fun _ => nofun, fun _ => Or.inl ⟨same, validated, valid⟩⟩
  | error thrown =>
    rw [valid] at validated
    subst validated
    cases thrown with
    | filterError message =>
      exact ⟨fun _ => nofun, fun _ => contained_refusal (refusal_filterError message)⟩
    | typeError =>
      exact ⟨fun contained => absurd contained (not_contained nofun),
        fun named => absurd rfl named⟩

theorem contained_parseTokens (tokens : List Token) : Contained (parseTokens tokens) := by
  cases read : disjunction (unary tokens.length) tokens with
  | error thrown =>
    have fails : parseTokens tokens = .error thrown := by
      rw [parseTokens, read]
      rfl
    rw [fails]
    exact contained_refusal (disjunction_fails (unary_fails _) tokens _ read)
  | ok parsed =>
    obtain ⟨ast, rest⟩ := parsed
    cases rest with
    | cons token rest =>
      have fails : parseTokens tokens =
          .error (filterError (js "unexpected \"" ++ token.v ++ js "\"")) := by
        rw [parseTokens, read]
        rfl
      rw [fails]
      exact contained_refusal (refusal_filterError _)
    | nil =>
      obtain ⟨used, after, derived, -⟩ := disjunction_sound (unary_sound _) _ _ _ read
      refine (contained_validated_iff ast ?_).mpr ?_
      · rw [parseTokens, read]
        rfl
      · rintro ⟨before, visit, later, same, -, -, -, nameless⟩
        exact derived.named 0 visit (same ▸ List.mem_append_right _ List.mem_cons_self) nameless

/-- In a text of the permitted length, no match of the tokenizer's expression is a literal
that `JSON.parse` refuses. -/
def LiteralsParse (source : JsString) : Prop := source.length ≤ 4096 → ¬ MeetsMisspelled source

def NamesHaveTexts (source : JsString) : Prop :=
  startsObject source = true → ∀ tree, JsonInput.parse? source = some tree →
    ¬ ComesToNameless 0 (visits (nodeOf tree) 0)

theorem contained_parseFilter_iff (source : JsString) :
    Contained (parseFilter source) ↔ LiteralsParse source := by
  unfold parseFilter
  split_ifs with long
  · exact ⟨fun _ short => absurd short (Nat.not_le.mpr long),
      fun _ => contained_refusal (refusal_filterError _)⟩
  · have short : source.length ≤ 4096 := Nat.not_lt.mp long
    rcases tokenize_cases source with ⟨meets, fails⟩ | ⟨spelled, fails⟩
    · rw [fails]
      exact ⟨fun contained => absurd contained (not_contained nofun),
        fun parse => absurd meets (parse short)⟩
    · refine ⟨fun _ _ => spelled, fun _ => ?_⟩
      cases tokenized : tokenize source with
      | error thrown => exact contained_refusal (fails thrown tokenized)
      | ok tokens => exact contained_parseTokens tokens

theorem contained_toFilterAst_iff (source : JsString) :
    Contained (toFilterAst source) ↔
      NamesHaveTexts source ∧ (startsObject source = false → LiteralsParse source) := by
  cases object : startsObject source with
  | false =>
    have text : toFilterAst source = parseFilter source := by
      rw [toFilterAst, object]
      rfl
    rw [text, contained_parseFilter_iff]
    exact ⟨fun parse => ⟨fun same => absurd (object.symm.trans same) nofun, fun _ => parse⟩,
      fun both => both.2 rfl⟩
  | true =>
    have names : NamesHaveTexts source ↔ ∀ tree, JsonInput.parse? source = some tree →
        ¬ ComesToNameless 0 (visits (nodeOf tree) 0) :=
      ⟨fun has => has object, fun has _ => has⟩
    rw [names]
    cases parsed : JsonInput.parse? source with
    | none =>
      have malformed : toFilterAst source =
          .error (filterError (js "filter JSON is malformed")) := by
        rw [toFilterAst, object, parsed]
        rfl
      rw [malformed]
      exact ⟨fun _ => ⟨nofun, nofun⟩, fun _ => contained_refusal (refusal_filterError _)⟩
    | some tree =>
      rw [contained_validated_iff (nodeOf tree) (by rw [toFilterAst, object, parsed]; rfl)]
      refine ⟨fun named => ⟨?_, nofun⟩, fun both => both.1 tree rfl⟩
      rintro _ ⟨⟩
      exact named

/-- Nothing but a valid AST and `FilterError` comes out unless one of two oversights is
met: a literal that only the expression takes, or a name that cannot be quoted. -/
theorem contained_iff (source : JsString) :
    (Contained (toFilterAst source) ∧ Contained (parseFilter source)) ↔
      (LiteralsParse source ∧ NamesHaveTexts source) := by
  rw [contained_toFilterAst_iff, contained_parseFilter_iff]
  tauto

/-- `function = "\\q"` -/
def misspelledText : JsString := js "function = \"\\q\""

/-- A name with a `toString` of its own. -/
def namelessText : JsString :=
  js "\x7b\"field\":\x7b\"toString\":null\x7d\x7d"

def thrown? {ε α : Type} : Except ε α → Option ε
  | .error thrown => some thrown
  | .ok _ => none

theorem eq_error_of_thrown? {ε α : Type} {result : Except ε α} {thrown : ε}
    (throws : thrown? result = some thrown) : result = .error thrown := by
  cases result with
  | error other => exact congrArg Except.error (Option.some.inj throws)
  | ok value => cases throws

/-- A misspelled literal escapes as a `SyntaxError`, a name that cannot be quoted as a
`TypeError`. -/
theorem escapes :
    toFilterAst misspelledText = .error .syntaxError ∧
      toFilterAst namelessText = .error (.thrown .typeError) ∧
      ¬ ∀ source, Contained (toFilterAst source) ∧ Contained (parseFilter source) := by
  have misspelled : toFilterAst misspelledText = .error .syntaxError :=
    eq_error_of_thrown? (by decide +kernel)
  refine ⟨misspelled, eq_error_of_thrown? (by decide +kernel), fun all => ?_⟩
  have contained := (all misspelledText).1
  rw [misspelled] at contained
  exact not_contained (fun ⟨_, same⟩ => nomatch same) contained

end SorobanExplorer.Filters
