import SorobanExplorer.Filters.Parser
import SorobanExplorer.Filters.Agreement

/-!
Owns the documented grammar of the textual form and what the parser has to do with
it: the parser derives the tokens in which a comma literal after a value is read
as a comma, so it follows the grammar exactly where no such literal matters.
-/

namespace SorobanExplorer.Filters

open Library
open Library.Parser (Separated separated_ok_iff)

/-! ### The grammar -/

def comma : Token := ⟨.sym, js ","⟩
def openParen : Token := ⟨.sym, js "("⟩
def closeParen : Token := ⟨.sym, js ")"⟩

/-- `value ("," value)*` -/
inductive Values : List Token → List Json → Prop where
  | last {token : Token} {value : Json} (read : token.value? = some value) :
      Values [token] [value]
  | more {token : Token} {value : Json} {tokens : List Token} {values : List Json}
      (read : token.value? = some value) (later : Values tokens values) :
      Values (token :: comma :: tokens) (value :: values)

/-- `pred` -/
inductive Pred : List Token → Node → Prop where
  | compare {field operator operand : Token} {op : JsString} {value : Json}
      (named : field.t = .word) (symbol : operator.t = .sym)
      (known : symbolOp? operator.v = some op) (read : operand.value? = some value) :
      Pred [field, operator, operand] (predNode field.v op (some value))
  | isIn {field keyword : Token} {tokens : List Token} {values : List Json}
      (named : field.t = .word) (word : keyword.isWord "in" = true)
      (list : Values tokens values) :
      Pred (field :: keyword :: openParen :: (tokens ++ [closeParen]))
        (predNode field.v (js "in") (some (.array values)))
  | between {field keyword low conjunction high : Token} {least greatest : Json}
      (named : field.t = .word) (word : keyword.isWord "between" = true)
      (lowRead : low.value? = some least) (and : conjunction.isWord "and" = true)
      (highRead : high.value? = some greatest) :
      Pred [field, keyword, low, conjunction, high]
        (predNode field.v (js "between") (some (.array [least, greatest])))
  | exist {field keyword : Token} (named : field.t = .word)
      (word : keyword.isWord "exists" = true) :
      Pred [field, keyword] (predNode field.v (js "exists") none)

inductive Joined (keyword : String) : List (List Token) → List Token → Prop where
  | last (piece : List Token) : Joined keyword [piece] piece
  | more {piece : List Token} {token : Token} {pieces : List (List Token)} {tokens : List Token}
      (word : token.isWord keyword = true) (later : Joined keyword pieces tokens) :
      Joined keyword (piece :: pieces) (piece ++ token :: tokens)

inductive Rule where
  | or
  | and
  | unary

inductive Derives : Rule → List Token → Node → Prop where
  | or {parts : List (List Token × Node)} {tokens : List Token}
      (joined : Joined "or" (parts.map Prod.fst) tokens)
      (each : ∀ part ∈ parts, Derives .and part.1 part.2) :
      Derives .or tokens (orNode (parts.map Prod.snd))
  | and {parts : List (List Token × Node)} {tokens : List Token}
      (joined : Joined "and" (parts.map Prod.fst) tokens)
      (each : ∀ part ∈ parts, Derives .unary part.1 part.2) :
      Derives .and tokens (andNode (parts.map Prod.snd))
  | not {keyword : Token} {tokens : List Token} {node : Node}
      (word : keyword.isWord "not" = true) (inner : Derives .unary tokens node) :
      Derives .unary (keyword :: tokens) (notNode node)
  | group {tokens : List Token} {node : Node} (inner : Derives .or tokens node) :
      Derives .unary (openParen :: (tokens ++ [closeParen])) node
  | pred {tokens : List Token} {node : Node} (leaf : Pred tokens node) :
      Derives .unary tokens node

def ParsesAsDocumented (source : JsString) : Prop :=
  ∀ ast, parseFilter source = .ok ast ↔
    ∃ tokens, tokenize source = .ok tokens ∧ Derives .or tokens ast ∧ validateFilter ast = .ok ast

/-! ### Comma literals -/

def Token.isValue (token : Token) : Bool := token.value?.isSome

def commas : Bool → List Token → List Token
  | _, [] => []
  | after, token :: tokens =>
    if after = true ∧ token.v = js "," then comma :: commas false tokens
    else token :: commas token.isValue tokens

@[simp] theorem commas_nil (after : Bool) : commas after [] = [] := rfl

theorem commas_keep {after : Bool} {token : Token} (kept : after = false ∨ token.v ≠ js ",")
    (tokens : List Token) :
    commas after (token :: tokens) = token :: commas token.isValue tokens := by
  rw [commas, if_neg]
  rcases kept with rfl | other
  · exact fun both => nomatch both.1
  · exact fun both => other both.2

theorem commas_comma {token : Token} (text : token.v = js ",") (tokens : List Token) :
    commas true (token :: tokens) = comma :: commas false tokens := by
  rw [commas, if_pos ⟨rfl, text⟩]

@[simp] theorem commas_length (after : Bool) (tokens : List Token) :
    (commas after tokens).length = tokens.length := by
  induction tokens generalizing after with
  | nil => rfl
  | cons token tokens ih =>
    unfold commas
    split_ifs <;> simp [ih]

theorem commas_eq_cons {after : Bool} {tokens tail : List Token} {token : Token}
    (read : commas after tokens = token :: tail) (other : token ≠ comma) :
    ∃ rest, tokens = token :: rest ∧ commas token.isValue rest = tail := by
  cases tokens with
  | nil => cases read
  | cons first rest =>
    unfold commas at read
    split_ifs at read
    · cases read
      exact absurd rfl other
    · cases read
      exact ⟨rest, rfl, rfl⟩

theorem commas_eq_comma {after : Bool} {tokens tail : List Token}
    (read : commas after tokens = comma :: tail) :
    ∃ token rest, tokens = token :: rest ∧ token.v = js "," ∧ commas false rest = tail := by
  cases tokens with
  | nil => cases read
  | cons first rest =>
    unfold commas at read
    split_ifs at read with replaced
    · cases read
      exact ⟨first, rest, rfl, replaced.2, rfl⟩
    · cases read
      exact ⟨comma, rest, rfl, rfl, rfl⟩

/-! ### Keywords -/

def keywordsOfGrammar : List String := ["and", "or", "not", "in", "between", "exists"]

theorem toLowerCase_of_isWord {token : Token} {word : String} (is : token.isWord word = true) :
    token.t = .word ∧ toLowerCase token.v = js word := by
  simpa [Token.isWord] using is

theorem keyword_facts {token : Token} {word : String} (member : word ∈ keywordsOfGrammar)
    (is : token.isWord word = true) : token.v ≠ js "," ∧ token.isValue = false := by
  obtain ⟨kind, lower⟩ := toLowerCase_of_isWord is
  have differs : ∀ word ∈ keywordsOfGrammar, ∀ text ∈ [",", "true", "false"],
      toLowerCase (js text) ≠ js word := by decide
  constructor
  · intro same
    rw [same] at lower
    exact differs word member "," (by simp) lower
  · have noTrue : token.v ≠ js "true" := by
      intro same
      rw [same] at lower
      exact differs word member "true" (by simp) lower
    have noFalse : token.v ≠ js "false" := by
      intro same
      rw [same] at lower
      exact differs word member "false" (by simp) lower
    simp [Token.isValue, Token.value?, kind, noTrue, noFalse]

theorem commas_keyword {after : Bool} {token : Token} {word : String}
    (member : word ∈ keywordsOfGrammar) (is : token.isWord word = true) (tokens : List Token) :
    commas after (token :: tokens) = token :: commas false tokens := by
  obtain ⟨noComma, noValue⟩ := keyword_facts member is
  rw [commas_keep (Or.inr noComma), noValue]

theorem isWord_unique {token : Token} {word other : String} (is : token.isWord word = true)
    (differs : js word ≠ js other) : token.isWord other = false := by
  obtain ⟨kind, lower⟩ := toLowerCase_of_isWord is
  simp [Token.isWord, kind, lower, differs]

theorem keyword_ne_comma {token : Token} {word : String} (is : token.isWord word = true) :
    token ≠ comma := by
  rintro rfl
  cases is

theorem commas_symbol {after : Bool} {token : Token} (symbol : token.t = .sym)
    (other : token.v ≠ js ",") (tokens : List Token) :
    commas after (token :: tokens) = token :: commas false tokens := by
  have noValue : token.isValue = false := by simp [Token.isValue, Token.value?, symbol]
  rw [commas_keep (Or.inr other), noValue]

theorem symbolOp?_ne_comma {symbol op : JsString} (known : symbolOp? symbol = some op) :
    symbol ≠ js "," := by
  rintro rfl
  cases known

/-! ### What is parsed is derived -/

theorem value_ok_iff {tokens rest : List Token} {result : Json} :
    value tokens = .ok (result, rest) ↔
      ∃ token, tokens = token :: rest ∧ token.value? = some result := by
  cases tokens with
  | nil => exact ⟨nofun, fun ⟨_, same, _⟩ => nomatch same⟩
  | cons token tokens =>
    cases read : token.value? with
    | none => simp [value, read, throw, throwThe, MonadExceptOf.throw]
    | some json => simp [value, read, pure, Except.pure, and_comm]

theorem value_shrinks : value.Shrinks := by
  intro tokens result rest success
  obtain ⟨token, rfl, -⟩ := value_ok_iff.mp success
  exact Nat.lt_succ_self _

theorem expectSym_ok_iff {symbol : String} {tokens rest : List Token} {result : Unit} :
    expectSym symbol tokens = .ok (result, rest) ↔ tokens = ⟨.sym, js symbol⟩ :: rest := by
  cases tokens with
  | nil => exact ⟨nofun, nofun⟩
  | cons token tokens =>
    by_cases same : token = ⟨.sym, js symbol⟩
    · simp [expectSym, same, pure, Except.pure]
    · simp [expectSym, same, throw, throwThe, MonadExceptOf.throw]

theorem commas_value {token : Token} {result : Json} (read : token.value? = some result)
    (tokens : List Token) : commas false (token :: tokens) = token :: commas true tokens := by
  rw [commas_keep (Or.inl rfl), Token.isValue, read, Option.isSome_some]

theorem values_sound {tokens rest : List Token} {values : List Json}
    (success : Separated (fun token => token.v = js ",") value tokens values rest) :
    ∃ used, Values used values ∧ commas false tokens = used ++ commas true rest := by
  induction success with
  | last read =>
    obtain ⟨token, rfl, known⟩ := value_ok_iff.mp read
    exact ⟨[token], .last known, commas_value known _⟩
  | @more tokens first next middle others rest read separator later ih =>
    obtain ⟨token, rfl, known⟩ := value_ok_iff.mp read
    obtain ⟨used, derived, same⟩ := ih
    refine ⟨token :: comma :: used, .more known derived, ?_⟩
    rw [commas_value known, commas_comma (of_decide_eq_true separator), same]
    rfl

def Sound (rule : Rule) (parser : Read Node) : Prop :=
  ∀ tokens node rest, parser tokens = .ok (node, rest) →
    ∃ used after, Derives rule used node ∧ commas false tokens = used ++ commas after rest

theorem predOf_sound {field : Token} (named : field.t = .word) {tokens rest : List Token}
    {node : Node} (success : predOf field.v tokens = .ok (node, rest)) :
    ∃ used after, Pred (field :: used) node ∧
      ∀ start, commas start tokens = used ++ commas after rest := by
  cases tokens with
  | nil => cases success
  | cons token tokens =>
    simp only [predOf] at success
    split_ifs at success with exist isIn between
    · cases success
      exact ⟨[token], false, .exist named exist, fun start => commas_keyword (by decide) exist _⟩
    · obtain ⟨⟨_, opened⟩, paren, success⟩ := Parser.bind_eq_ok_iff.mp success
      obtain ⟨⟨values, closing⟩, list, success⟩ := Parser.bind_eq_ok_iff.mp success
      obtain ⟨⟨_, closed⟩, close, success⟩ := Parser.bind_eq_ok_iff.mp success
      cases success
      obtain rfl := expectSym_ok_iff.mp paren
      obtain rfl := expectSym_ok_iff.mp close
      obtain ⟨used, derived, same⟩ := values_sound ((separated_ok_iff value_shrinks).mp list)
      refine ⟨token :: openParen :: (used ++ [closeParen]), false, .isIn named isIn derived, fun start => ?_⟩
      rw [commas_keyword (by decide) isIn, commas_symbol rfl (by decide), same,
        commas_symbol rfl (by decide)]
      simp [openParen, closeParen]
    · obtain ⟨⟨low, middle⟩, lowRead, later⟩ := Parser.bind_eq_ok_iff.mp success
      obtain ⟨lowToken, rfl, lowKnown⟩ := value_ok_iff.mp lowRead
      cases middle with
      | nil => cases later
      | cons next middle =>
        by_cases conjunction : next.isWord "and" = true
        · simp only [if_pos conjunction] at later
          obtain ⟨⟨high, left⟩, highRead, last⟩ := Parser.bind_eq_ok_iff.mp later
          obtain ⟨highToken, rfl, highKnown⟩ := value_ok_iff.mp highRead
          cases last
          refine ⟨[token, lowToken, next, highToken], true,
            .between named between lowKnown conjunction highKnown, fun start => ?_⟩
          rw [commas_keyword (by decide) between, commas_value lowKnown,
            commas_keyword (by decide) conjunction, commas_value highKnown]
          rfl
        · simp only [if_neg conjunction] at later
          cases later
    · split at success
      next op symbol known =>
        obtain ⟨⟨operand, left⟩, read, last⟩ := Parser.bind_eq_ok_iff.mp success
        obtain ⟨operandToken, rfl, operandKnown⟩ := value_ok_iff.mp read
        cases last
        refine ⟨[token, operandToken], true, .compare named symbol known operandKnown,
          fun start => ?_⟩
        rw [commas_symbol symbol (symbolOp?_ne_comma known), commas_value operandKnown]
        rfl
      next => cases success

theorem pred_sound : Sound .unary pred := by
  intro tokens node rest success
  cases tokens with
  | nil => cases success
  | cons field tokens =>
    simp only [pred] at success
    split_ifs at success with named
    obtain ⟨used, after, derived, same⟩ := predOf_sound named success
    refine ⟨field :: used, after, .pred derived, ?_⟩
    rw [commas_keep (Or.inl rfl), same]
    rfl

theorem joined_ne_nil {keyword : String} {pieces : List (List Token)} {tokens : List Token}
    (joined : Joined keyword pieces tokens) (each : ∀ piece ∈ pieces, piece ≠ []) : tokens ≠ [] := by
  cases joined with
  | last piece => exact each _ (List.mem_singleton_self _)
  | more word later => simp

theorem Derives.ne_nil {rule : Rule} {tokens : List Token} {node : Node}
    (derived : Derives rule tokens node) : tokens ≠ [] := by
  induction derived with
  | or joined _ ih | and joined _ ih =>
    refine joined_ne_nil joined fun piece member => ?_
    obtain ⟨part, inside, rfl⟩ := List.mem_map.mp member
    exact ih part inside
  | not | group => exact List.cons_ne_nil _ _
  | pred leaf => cases leaf <;> exact List.cons_ne_nil _ _

theorem Sound.shrinks {rule : Rule} {parser : Read Node} (sound : Sound rule parser) :
    parser.Shrinks := by
  intro tokens node rest success
  obtain ⟨used, after, derived, same⟩ := sound tokens node rest success
  have lengths := congrArg List.length same
  have taken := List.length_pos_iff.mpr derived.ne_nil
  simp only [commas_length, List.length_append] at lengths
  omega

theorem separated_sound {rule : Rule} {item : Read Node} (sound : Sound rule item)
    {keyword : String} (known : keyword ∈ keywordsOfGrammar) {tokens rest : List Token}
    {nodes : List Node}
    (success : Separated (fun token => token.isWord keyword) item tokens nodes rest) :
    ∃ parts : List (List Token × Node), parts.map Prod.snd = nodes ∧
      (∀ part ∈ parts, Derives rule part.1 part.2) ∧
        ∃ used after, Joined keyword (parts.map Prod.fst) used ∧
          commas false tokens = used ++ commas after rest := by
  induction success with
  | @last tokens first rest read =>
    obtain ⟨used, after, derived, same⟩ := sound _ _ _ read
    exact ⟨[(used, first)], rfl, List.forall_mem_singleton.mpr derived, used, after, .last used, same⟩
  | @more tokens first next middle others rest read separator later ih =>
    obtain ⟨used, after, derived, same⟩ := sound _ _ _ read
    obtain ⟨parts, nodes, each, all, left, joined, sameRest⟩ := ih
    refine ⟨(used, first) :: parts, by rw [List.map_cons, nodes], List.forall_mem_cons.mpr ⟨derived, each⟩,
      used ++ next :: all, left, .more separator joined, ?_⟩
    rw [same, commas_keyword known separator, sameRest]
    simp

theorem conjunction_sound {unary : Read Node} (sound : Sound .unary unary) :
    Sound .and (conjunction unary) := by
  intro tokens node rest success
  obtain ⟨⟨nodes, left⟩, read, same⟩ := Parser.bind_eq_ok_iff.mp success
  cases same
  have loop := (separated_ok_iff sound.shrinks).mp read
  obtain ⟨parts, rfl, each, used, after, joined, same⟩ := separated_sound sound (by decide) loop
  exact ⟨used, after, .and joined each, same⟩

theorem disjunction_sound {unary : Read Node} (sound : Sound .unary unary) :
    Sound .or (disjunction unary) := by
  intro tokens node rest success
  have each_sound := conjunction_sound sound
  obtain ⟨⟨nodes, left⟩, read, same⟩ := Parser.bind_eq_ok_iff.mp success
  cases same
  have loop := (separated_ok_iff each_sound.shrinks).mp read
  obtain ⟨parts, rfl, each, used, after, joined, same⟩ := separated_sound each_sound (by decide) loop
  exact ⟨used, after, .or joined each, same⟩

theorem unary_sound (fuel : Nat) : Sound .unary (unary fuel) := by
  induction fuel with
  | zero => exact pred_sound
  | succ fuel ih =>
    intro tokens node rest success
    cases tokens with
    | nil => cases success
    | cons token tokens =>
      simp only [unary] at success
      split_ifs at success with negated paren
      · obtain ⟨⟨inner, left⟩, read, same⟩ := Parser.bind_eq_ok_iff.mp success
        cases same
        obtain ⟨used, after, derived, same⟩ := ih _ _ _ read
        refine ⟨token :: used, after, .not negated derived, ?_⟩
        rw [commas_keyword (by decide) negated, same]
        rfl
      · obtain ⟨⟨inner, closing⟩, read, success⟩ := Parser.bind_eq_ok_iff.mp success
        obtain ⟨⟨_, left⟩, close, same⟩ := Parser.bind_eq_ok_iff.mp success
        cases same
        obtain rfl := expectSym_ok_iff.mp close
        obtain ⟨used, after, derived, same⟩ := disjunction_sound ih _ _ _ read
        refine ⟨openParen :: (used ++ [closeParen]), false, .group derived, ?_⟩
        rw [paren, commas_symbol rfl (by decide), same, commas_symbol rfl (by decide)]
        simp [openParen, closeParen]
      · exact pred_sound _ _ _ success

/-! ### What is derived has no comma literal to read as a comma -/

theorem values_strict {tokens : List Token} {values : List Json} (derived : Values tokens values)
    (rest : List Token) : commas false (tokens ++ rest) = tokens ++ commas true rest := by
  induction derived with
  | last read => exact commas_value read rest
  | more read later ih =>
    rw [List.cons_append, List.cons_append, commas_value read, commas_comma rfl,
      ih]
    rfl

def Strict (tokens : List Token) : Prop :=
  ∀ rest, ∃ after, commas false (tokens ++ rest) = tokens ++ commas after rest

theorem pred_strict {tokens : List Token} {node : Node} (leaf : Pred tokens node) :
    Strict tokens := by
  intro rest
  cases leaf with
  | compare named symbol known read =>
    refine ⟨true, ?_⟩
    simp only [List.cons_append, List.nil_append]
    rw [commas_keep (Or.inl rfl), commas_symbol symbol (symbolOp?_ne_comma known),
      commas_value read]
  | isIn named word list =>
    refine ⟨false, ?_⟩
    simp only [List.cons_append, List.append_assoc, List.nil_append]
    rw [commas_keep (Or.inl rfl), commas_keyword (by decide) word,
      commas_symbol rfl (by decide), values_strict list, commas_symbol rfl (by decide)]
  | between named word lowRead and highRead =>
    refine ⟨true, ?_⟩
    simp only [List.cons_append, List.nil_append]
    rw [commas_keep (Or.inl rfl), commas_keyword (by decide) word, commas_value lowRead,
      commas_keyword (by decide) and, commas_value highRead]
  | exist named word =>
    refine ⟨false, ?_⟩
    simp only [List.cons_append, List.nil_append]
    rw [commas_keep (Or.inl rfl), commas_keyword (by decide) word]

theorem joined_strict {keyword : String} (known : keyword ∈ keywordsOfGrammar)
    {pieces : List (List Token)} {tokens : List Token} (joined : Joined keyword pieces tokens)
    (each : ∀ piece ∈ pieces, Strict piece) : Strict tokens := by
  induction joined with
  | last piece => exact each piece (List.mem_singleton_self _)
  | @more piece token pieces tokens word later ih =>
    intro rest
    obtain ⟨first, others⟩ := List.forall_mem_cons.mp each
    obtain ⟨after, last⟩ := ih others rest
    obtain ⟨middle, own⟩ := first (token :: (tokens ++ rest))
    refine ⟨after, ?_⟩
    rw [List.append_assoc, List.cons_append, own, commas_keyword known word, last]
    simp

theorem Derives.strict {rule : Rule} {tokens : List Token} {node : Node}
    (derived : Derives rule tokens node) : Strict tokens := by
  induction derived with
  | or joined _ ih | and joined _ ih =>
    apply joined_strict (by decide) joined
    intro piece member
    obtain ⟨part, inside, rfl⟩ := List.mem_map.mp member
    exact ih part inside
  | @not keyword tokens node word inner ih =>
    intro rest
    obtain ⟨after, own⟩ := ih rest
    exact ⟨after, by rw [List.cons_append, commas_keyword (by decide) word, own]; rfl⟩
  | @group tokens node inner ih =>
    intro rest
    obtain ⟨after, own⟩ := ih (closeParen :: rest)
    refine ⟨false, ?_⟩
    rw [List.cons_append, List.append_assoc, List.singleton_append,
      commas_symbol rfl (by decide), own, commas_symbol rfl (by decide)]
    simp
  | pred leaf => exact pred_strict leaf

theorem Derives.commas_eq {rule : Rule} {tokens : List Token} {node : Node}
    (derived : Derives rule tokens node) : commas false tokens = tokens := by
  obtain ⟨after, own⟩ := derived.strict []
  simpa using own

/-! ### What is derived is parsed -/

theorem lowered_eq {unit lower : UInt16}
    (same : (if 0x41 ≤ unit.toNat ∧ unit.toNat ≤ 0x5A then unit + 0x20 else unit) = lower) :
    unit = lower ∨ unit = lower - 0x20 := by
  split_ifs at same
  · right
    rw [← same]
    grind
  · exact Or.inl same

theorem not_names_nothing {units : JsString} (lower : toLowerCase units = js "not") :
    parseFieldString units = none := by
  have three : js "not" = [0x6E, 0x6F, 0x74] := by decide
  rw [three] at lower
  obtain ⟨n, others, rfl, first, lower⟩ := List.map_eq_cons_iff.mp lower
  obtain ⟨o, others, rfl, second, lower⟩ := List.map_eq_cons_iff.mp lower
  obtain ⟨t, others, rfl, third, lower⟩ := List.map_eq_cons_iff.mp lower
  obtain rfl := List.map_eq_nil_iff.mp lower
  rcases lowered_eq first with rfl | rfl <;> rcases lowered_eq second with rfl | rfl <;>
    rcases lowered_eq third with rfl | rfl <;> decide

theorem accepted_pred {field op : JsString} {value : Option Json}
    (accepted : Accepted (predNode field op value)) : toLowerCase field ≠ js "not" := by
  intro lower
  cases accepted with
  | predicate parsed =>
    rw [parseField, not_names_nothing lower] at parsed
    cases parsed

def Rule.parser (fuel : Nat) : Rule → Read Node
  | .or => disjunction (Filters.unary fuel)
  | .and => conjunction (Filters.unary fuel)
  | .unary => Filters.unary fuel

def Rule.Ends : Rule → List Token → Prop
  | .or, tail => ∀ next ∈ tail.head?, next.isWord "and" = false ∧ next.isWord "or" = false
  | .and, tail => ∀ next ∈ tail.head?, next.isWord "and" = false
  | .unary, _ => True

def Complete (rule : Rule) (used : List Token) (node : Node) : Prop :=
  ∀ fuel tokens tail, tokens.length ≤ fuel → commas false tokens = used ++ tail → rule.Ends tail →
    ∃ rest after, rule.parser fuel tokens = .ok (node, rest) ∧ commas after rest = tail

theorem value_ne_comma {token : Token} {result : Json} (read : token.value? = some result) :
    token ≠ comma := by
  rintro rfl
  cases read

theorem commas_eq_value {after : Bool} {token : Token} {result : Json} {tokens tail : List Token}
    (read : token.value? = some result) (same : commas after tokens = token :: tail) :
    ∃ rest, value tokens = .ok (result, rest) ∧ commas true rest = tail := by
  obtain ⟨rest, rfl, later⟩ := commas_eq_cons same (value_ne_comma read)
  rw [Token.isValue, read, Option.isSome_some] at later
  exact ⟨rest, value_ok_iff.mpr ⟨token, rfl, read⟩, later⟩

theorem commas_eq_keyword {after : Bool} {token : Token} {word : String} {tokens tail : List Token}
    (known : word ∈ keywordsOfGrammar) (is : token.isWord word = true)
    (same : commas after tokens = token :: tail) :
    ∃ rest, tokens = token :: rest ∧ commas false rest = tail := by
  obtain ⟨rest, rfl, later⟩ := commas_eq_cons same (keyword_ne_comma is)
  rw [(keyword_facts known is).2] at later
  exact ⟨rest, rfl, later⟩

theorem commas_eq_symbol {after : Bool} {token : Token} {tokens tail : List Token}
    (symbol : token.t = .sym) (other : token.v ≠ js ",")
    (same : commas after tokens = token :: tail) :
    ∃ rest, tokens = token :: rest ∧ commas false rest = tail := by
  have noComma : token ≠ comma := by
    rintro rfl
    exact other rfl
  obtain ⟨rest, rfl, later⟩ := commas_eq_cons same noComma
  have noValue : token.isValue = false := by simp [Token.isValue, Token.value?, symbol]
  rw [noValue] at later
  exact ⟨rest, rfl, later⟩

theorem values_complete {used : List Token} {values : List Json} (derived : Values used values)
    {tokens tail : List Token} (same : commas false tokens = used ++ closeParen :: tail) :
    ∃ rest, Separated (fun token => token.v = js ",") value tokens values rest ∧
      commas true rest = closeParen :: tail := by
  induction derived generalizing tokens with
  | last read =>
    obtain ⟨rest, taken, later⟩ := commas_eq_value read same
    refine ⟨rest, .last taken ?_, later⟩
    obtain ⟨left, rfl, -⟩ := commas_eq_symbol rfl (by decide) later
    intro next member
    cases member
    rfl
  | more read list ih =>
    obtain ⟨rest, taken, later⟩ := commas_eq_value read same
    obtain ⟨separator, left, rfl, text, later⟩ := commas_eq_comma later
    obtain ⟨rest, loop, last⟩ := ih later
    exact ⟨rest, .more taken (decide_eq_true text) loop, last⟩

theorem pred_first {used : List Token} {node : Node} (leaf : Pred used node) :
    ∃ field others op value, used = field :: others ∧ field.t = .word ∧
      node = predNode field.v op value := by
  cases leaf with
  | compare named | isIn named | between named | exist named => exact ⟨_, _, _, _, rfl, named, rfl⟩

theorem pred_complete {used : List Token} {node : Node} (leaf : Pred used node)
    {tokens tail : List Token} (same : commas false tokens = used ++ tail) :
    ∃ rest after, pred tokens = .ok (node, rest) ∧ commas after rest = tail := by
  have field_ne {field : Token} (named : field.t = .word) : field ≠ comma := by
    rintro rfl
    cases named
  cases leaf with
  | @compare field operator operand op value named symbol known read =>
    obtain ⟨rest, rfl, afterField⟩ := commas_eq_cons same (field_ne named)
    obtain ⟨rest, rfl, afterOperator⟩ :=
      commas_eq_symbol symbol (symbolOp?_ne_comma known) afterField
    obtain ⟨rest, taken, afterValue⟩ := commas_eq_value read afterOperator
    have noWord (word : String) : operator.isWord word = false := by
      simp [Token.isWord, symbol]
    refine ⟨rest, true, ?_, afterValue⟩
    simp only [pred, named, if_true, predOf, noWord, Bool.false_eq_true, if_false, symbol, known]
    exact Parser.bind_eq_ok_iff.mpr ⟨_, taken, rfl⟩
  | @isIn field keyword list values named word derived =>
    rw [List.cons_append, List.cons_append, List.cons_append, List.append_assoc,
      List.singleton_append] at same
    obtain ⟨rest, rfl, afterField⟩ := commas_eq_cons same (field_ne named)
    obtain ⟨rest, rfl, afterKeyword⟩ := commas_eq_keyword (by decide) word afterField
    obtain ⟨rest, rfl, afterParen⟩ := commas_eq_symbol rfl (by decide) afterKeyword
    obtain ⟨closing, loop, afterList⟩ := values_complete derived afterParen
    obtain ⟨rest, rfl, afterClose⟩ := commas_eq_symbol rfl (by decide) afterList
    refine ⟨rest, false, ?_, afterClose⟩
    have noExist : keyword.isWord "exists" = false := isWord_unique word (by decide)
    simp only [pred, named, if_true, predOf, noExist, word, Bool.false_eq_true, if_false]
    exact Parser.bind_eq_ok_iff.mpr ⟨((), _), expectSym_ok_iff.mpr rfl, Parser.bind_eq_ok_iff.mpr
      ⟨_, (separated_ok_iff value_shrinks).mpr loop, Parser.bind_eq_ok_iff.mpr
        ⟨((), _), expectSym_ok_iff.mpr rfl, rfl⟩⟩⟩
  | @between field keyword low conjunction high least greatest named word lowRead and highRead =>
    obtain ⟨rest, rfl, afterField⟩ := commas_eq_cons same (field_ne named)
    obtain ⟨rest, rfl, afterKeyword⟩ := commas_eq_keyword (by decide) word afterField
    obtain ⟨middle, lowTaken, afterLow⟩ := commas_eq_value lowRead afterKeyword
    obtain ⟨last, rfl, afterAnd⟩ := commas_eq_keyword (by decide) and afterLow
    obtain ⟨rest, highTaken, afterHigh⟩ := commas_eq_value highRead afterAnd
    refine ⟨rest, true, ?_, afterHigh⟩
    have noExist : keyword.isWord "exists" = false := isWord_unique word (by decide)
    have noIn : keyword.isWord "in" = false := isWord_unique word (by decide)
    simp only [pred, named, if_true, predOf, noExist, noIn, word, Bool.false_eq_true, if_false]
    refine Parser.bind_eq_ok_iff.mpr ⟨_, lowTaken, ?_⟩
    simp only [and, if_true]
    exact Parser.bind_eq_ok_iff.mpr ⟨_, highTaken, rfl⟩
  | @exist field keyword named word =>
    obtain ⟨rest, rfl, afterField⟩ := commas_eq_cons same (field_ne named)
    obtain ⟨rest, rfl, afterKeyword⟩ := commas_eq_keyword (by decide) word afterField
    refine ⟨rest, false, ?_, afterKeyword⟩
    simp only [pred, named, if_true, predOf, word]
    rfl

theorem separated_complete {rule : Rule} {keyword : String} (known : keyword ∈ keywordsOfGrammar)
    (passes : ∀ (token : Token) (tail : List Token), token.isWord keyword = true →
      rule.Ends (token :: tail)) {fuel : Nat} {parts : List (List Token × Node)} {used : List Token}
    (joined : Joined keyword (parts.map Prod.fst) used)
    (each : ∀ part ∈ parts, Complete rule part.1 part.2) {tokens tail : List Token}
    (enough : tokens.length ≤ fuel) (same : commas false tokens = used ++ tail)
    (ends : rule.Ends tail) (done : ∀ next ∈ tail.head?, next.isWord keyword = false) :
    ∃ rest after, Separated (fun token => token.isWord keyword) (rule.parser fuel) tokens
      (parts.map Prod.snd) rest ∧ commas after rest = tail := by
  generalize pieces : parts.map Prod.fst = lists at joined
  induction joined generalizing parts tokens with
  | last piece =>
    obtain ⟨⟨own, node⟩, rfl, rfl⟩ := List.map_eq_singleton_iff.mp pieces
    obtain ⟨rest, after, taken, later⟩ :=
      each _ (List.mem_singleton_self _) fuel tokens tail enough same ends
    refine ⟨rest, after, .last taken ?_, later⟩
    intro next member
    cases rest with
    | nil => cases member
    | cons first rest =>
      cases member
      by_contra word
      have is := Bool.eq_true_of_not_eq_false word
      rw [commas_keyword known is] at later
      subst later
      exact word (done _ rfl)
  | @more piece token lists others word later ih =>
    obtain ⟨⟨own, node⟩, parts, rfl, rfl, rfl⟩ := List.map_eq_cons_iff.mp pieces
    obtain ⟨own_complete, others_complete⟩ := List.forall_mem_cons.mp each
    rw [List.append_assoc, List.cons_append] at same
    obtain ⟨rest, after, taken, afterItem⟩ :=
      own_complete fuel tokens _ enough same (passes token _ word)
    obtain ⟨rest, rfl, afterWord⟩ := commas_eq_keyword known word afterItem
    have shorter : rest.length ≤ fuel := by
      have lengths := congrArg List.length same
      have restLengths := congrArg List.length afterWord
      simp only [commas_length, List.length_append, List.length_cons] at lengths restLengths
      omega
    obtain ⟨last, after, loop, afterLoop⟩ := ih others_complete shorter afterWord rfl
    exact ⟨last, after, .more taken word loop, afterLoop⟩

theorem accepted_andNode {nodes : List Node} (accepted : Accepted (andNode nodes)) :
    ∀ node ∈ nodes, Accepted node := by
  unfold andNode at accepted
  split at accepted
  · exact List.forall_mem_singleton.mpr accepted
  · exact accepted.of_and

theorem accepted_orNode {nodes : List Node} (accepted : Accepted (orNode nodes)) :
    ∀ node ∈ nodes, Accepted node := by
  unfold orNode at accepted
  split at accepted
  · exact List.forall_mem_singleton.mpr accepted
  · exact accepted.of_or (Or.inl rfl)

theorem Derives.complete {rule : Rule} {used : List Token} {node : Node}
    (derived : Derives rule used node) (accepted : Accepted node) : Complete rule used node := by
  induction derived with
  | or joined each ih =>
    intro fuel tokens tail enough same ends
    have shrinks := (conjunction_sound (unary_sound fuel)).shrinks
    have parts := fun part member => ih part member
      (accepted_orNode accepted _ (List.mem_map_of_mem member))
    have passes (token : Token) (tail : List Token) (word : token.isWord "or" = true) :
        Rule.and.Ends (token :: tail) := by
      intro next member
      cases member
      exact isWord_unique word (by decide)
    obtain ⟨rest, after, loop, later⟩ := separated_complete (by decide) passes joined parts enough
      same (fun next member => (ends next member).1) fun next member => (ends next member).2
    refine ⟨rest, after, ?_, later⟩
    exact Parser.bind_eq_ok_iff.mpr ⟨_, (separated_ok_iff shrinks).mpr loop, rfl⟩
  | and joined each ih =>
    intro fuel tokens tail enough same ends
    have parts := fun part member => ih part member
      (accepted_andNode accepted _ (List.mem_map_of_mem member))
    obtain ⟨rest, after, loop, later⟩ := @separated_complete .unary "and" (by decide)
      (fun _ _ _ => trivial) fuel _ _ joined parts _ _ enough same trivial ends
    refine ⟨rest, after, ?_, later⟩
    exact Parser.bind_eq_ok_iff.mpr ⟨_, (separated_ok_iff (unary_sound fuel).shrinks).mpr loop, rfl⟩
  | @not keyword used node word inner ih =>
    intro fuel tokens tail enough same ends
    obtain ⟨rest, rfl, afterWord⟩ := commas_eq_keyword (by decide) word same
    obtain ⟨fuel, rfl⟩ := Nat.exists_eq_add_one_of_ne_zero (Nat.ne_zero_of_lt enough)
    obtain ⟨left, after, taken, later⟩ := ih accepted.of_not fuel rest tail
      (Nat.le_of_succ_le_succ enough) afterWord trivial
    refine ⟨left, after, ?_, later⟩
    simp only [Rule.parser, Filters.unary, word, if_true]
    exact Parser.bind_eq_ok_iff.mpr ⟨_, taken, rfl⟩
  | @group used node inner ih =>
    intro fuel tokens tail enough same ends
    rw [List.cons_append, List.append_assoc, List.singleton_append] at same
    obtain ⟨rest, rfl, afterOpen⟩ := commas_eq_symbol rfl (by decide) same
    obtain ⟨fuel, rfl⟩ := Nat.exists_eq_add_one_of_ne_zero (Nat.ne_zero_of_lt enough)
    have closes : Rule.or.Ends (closeParen :: tail) := by
      intro next member
      cases member
      exact ⟨rfl, rfl⟩
    obtain ⟨left, after, taken, afterInner⟩ := ih accepted fuel rest _
      (Nat.le_of_succ_le_succ enough) afterOpen closes
    obtain ⟨left, rfl, afterClose⟩ := commas_eq_symbol rfl (by decide) afterInner
    refine ⟨left, false, ?_, afterClose⟩
    have noWord : openParen.isWord "not" = false := rfl
    simp only [Rule.parser, Filters.unary, noWord, Bool.false_eq_true, if_false]
    rw [if_pos (show openParen = ⟨.sym, js "("⟩ from rfl)]
    exact Parser.bind_eq_ok_iff.mpr ⟨_, taken, Parser.bind_eq_ok_iff.mpr
      ⟨((), _), expectSym_ok_iff.mpr rfl, rfl⟩⟩
  | @pred used node leaf =>
    intro fuel tokens tail enough same ends
    obtain ⟨field, others, op, value, rfl, named, rfl⟩ := pred_first leaf
    obtain ⟨rest, after, taken, later⟩ := pred_complete leaf same
    refine ⟨rest, after, ?_, later⟩
    cases fuel with
    | zero => exact taken
    | succ fuel =>
      have field_ne : field ≠ comma := by
        rintro rfl
        cases named
      obtain ⟨left, rfl, -⟩ := commas_eq_cons same field_ne
      have noNot : field.isWord "not" = false := by
        simp [Token.isWord, named, accepted_pred accepted]
      have noParen : field ≠ ⟨.sym, js "("⟩ := by
        rintro rfl
        cases named
      simp only [Rule.parser, Filters.unary, noNot, Bool.false_eq_true, if_false, noParen]
      exact taken

/-! ### The filter -/

theorem validateFilter_eq {ast result : Node} (valid : validateFilter ast = .ok result) :
    result = ast := by
  obtain ⟨_, -, same⟩ := bind_eq_ok valid
  cases same
  rfl

theorem parseTokens_ok_iff {tokens : List Token} {ast : Node} :
    parseTokens tokens = .ok ast ↔
      Derives .or (commas false tokens) ast ∧ validateFilter ast = .ok ast := by
  constructor
  · intro success
    obtain ⟨⟨tree, rest⟩, read, success⟩ := Parser.bind_eq_ok_iff.mp success
    cases rest with
    | cons token rest => cases success
    | nil =>
      obtain ⟨used, after, derived, same⟩ :=
        disjunction_sound (unary_sound tokens.length) _ _ _ read
      rw [commas_nil, List.append_nil] at same
      cases valid : validateFilter tree with
      | error thrown =>
        simp only [valid] at success
        cases success
      | ok result =>
        simp only [valid] at success
        cases success
        obtain rfl := validateFilter_eq valid
        exact ⟨same ▸ derived, valid⟩
  · rintro ⟨derived, valid⟩
    obtain ⟨rest, after, read, left⟩ := derived.complete (accepted_of_validateFilter valid)
      tokens.length tokens [] le_rfl (by rw [List.append_nil]) nofun
    have done : rest = [] := by
      rw [← List.length_eq_zero_iff, ← commas_length after, left, List.length_nil]
    subst done
    refine Parser.bind_eq_ok_iff.mpr ⟨_, read, ?_⟩
    simp only [valid]
    rfl

theorem parseFilter_ok_iff {source : JsString} (short : source.length ≤ 4096) {ast : Node} :
    parseFilter source = .ok ast ↔
      ∃ tokens, tokenize source = .ok tokens ∧ parseTokens tokens = .ok ast := by
  rw [parseFilter, if_neg (Nat.not_lt.mpr short), Parser.bind_eq_ok_iff]

/-- The parser follows the grammar unless reading comma literals as commas makes a
valid filter. -/
theorem parsesAsDocumented_iff {source : JsString} (short : source.length ≤ 4096) :
    ParsesAsDocumented source ↔ ∀ tokens, tokenize source = .ok tokens →
      commas false tokens = tokens ∨
        ∀ ast, Derives .or (commas false tokens) ast → validateFilter ast ≠ .ok ast := by
  constructor
  · intro documented tokens tokenized
    by_contra both
    obtain ⟨changed, misread⟩ := not_or.mp both
    apply misread
    intro ast derived valid
    have parsed := (parseFilter_ok_iff short).mpr
      ⟨tokens, tokenized, parseTokens_ok_iff.mpr ⟨derived, valid⟩⟩
    obtain ⟨known, same, strict, -⟩ := (documented ast).mp parsed
    obtain rfl := Except.ok.inj (tokenized.symm.trans same)
    exact changed strict.commas_eq
  · intro harmless ast
    rw [parseFilter_ok_iff short]
    constructor
    · rintro ⟨tokens, tokenized, parsed⟩
      obtain ⟨derived, valid⟩ := parseTokens_ok_iff.mp parsed
      rcases harmless tokens tokenized with kept | misread
      · exact ⟨tokens, tokenized, kept ▸ derived, valid⟩
      · exact absurd valid (misread ast derived)
    · rintro ⟨tokens, tokenized, derived, valid⟩
      refine ⟨tokens, tokenized, parseTokens_ok_iff.mpr ⟨?_, valid⟩⟩
      rwa [derived.commas_eq]

def documentedText : JsString :=
  js "NOT (ledger between 5 AND 9 or contract_id in (\"a\", \"b\")) and topic[0] = \"x\""

theorem documentedText_parses : ParsesAsDocumented documentedText := by
  refine (parsesAsDocumented_iff (by decide)).mpr fun tokens tokenized => Or.inl ?_
  have kept : (tokenize documentedText).toOption.map (commas false) =
      (tokenize documentedText).toOption := by decide +kernel
  rw [tokenized] at kept
  exact Option.some.inj kept

/-- The string literal `","` between two members of a list. -/
def commaLiteral : JsString := js "contract_id in (\"a\" \",\" \"b\")"

theorem commaLiteral_misread :
    ¬ ∀ source : JsString, source.length ≤ 4096 → ParsesAsDocumented source := by
  intro claim
  have parsed : (parseFilter commaLiteral).toOption.isSome = true := by decide +kernel
  cases read : parseFilter commaLiteral with
  | error thrown =>
    rw [read] at parsed
    cases parsed
  | ok ast =>
    obtain ⟨tokens, tokenized, derived, -⟩ := (claim commaLiteral (by decide) ast).mp read
    have changed : (tokenize commaLiteral).toOption.map (commas false) ≠
        (tokenize commaLiteral).toOption := by decide +kernel
    apply changed
    rw [tokenized]
    exact congrArg some derived.commas_eq

end SorobanExplorer.Filters
