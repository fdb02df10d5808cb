import SorobanExplorer.Filters.Predicates
import SorobanExplorer.Library.Parsing

/-!
Owns the agreement of the two interpreters on a validated filter: the trees
`walk` accepts, the predicates in them, and that the evaluator and the fragment
select the same events when they agree on every predicate.
-/

namespace SorobanExplorer.Filters

open Library
open Library.Postgres

/-! ### Accepted trees -/

/-- The trees `walk` accepts. -/
inductive Accepted : Node → Prop where
  | every {nodes : List Node} {orKey : Branches Node} {notKey : Option Node}
      {field op value : Option Json} (all : ∀ node ∈ nodes, Accepted node) :
      Accepted (.object (.list nodes) orKey notKey field op value)
  | any {andKey : Branches Node} {nodes : List Node} {notKey : Option Node}
      {field op value : Option Json} (absent : andKey = .absent ∨ andKey = .null)
      (all : ∀ node ∈ nodes, Accepted node) :
      Accepted (.object andKey (.list nodes) notKey field op value)
  | not {node : Node} {field op value : Option Json} (inner : Accepted node) :
      Accepted (.object .absent .absent (some node) field op value)
  | predicate {source op value : Option Json} {field : Field} {parsedOp : Op}
      {values : List Scalar} (parsed : parseField source = some field)
      (opParsed : parseOp op = some parsedOp) (found : operands parsedOp value = some values) :
      Accepted (.object .absent .absent none source op value)

theorem truthy_of_accepted {node : Node} (accepted : Accepted node) : node.truthy = true := by
  cases accepted <;> rfl

section Branches

variable {andKey orKey : Branches Node} {nodes : List Node} {notKey : Option Node}
  {field op value : Option Json}

theorem Accepted.of_and (accepted : Accepted (.object (.list nodes) orKey notKey field op value)) :
    ∀ node ∈ nodes, Accepted node := by
  cases accepted with
  | every all => exact all
  | any absent => cases absent <;> contradiction

theorem Accepted.of_or (absent : andKey = .absent ∨ andKey = .null)
    (accepted : Accepted (.object andKey (.list nodes) notKey field op value)) :
    ∀ node ∈ nodes, Accepted node := by
  cases accepted with
  | every => cases absent <;> contradiction
  | any _ all => exact all

theorem Accepted.of_not {node : Node}
    (accepted : Accepted (.object .absent .absent (some node) field op value)) : Accepted node := by
  cases accepted with
  | not inner => exact inner

end Branches

theorem operands_of_validateValues {field : Field} {fieldText opText : JsString} {op : Op}
    {value : Option Json} (valid : validateValues field fieldText opText op value = .ok ()) :
    ∃ values, operands op value = some values := by
  cases op with
  | exist => exact ⟨[], rfl⟩
  | isIn =>
    cases found : scalars? value with
    | none => simp [validateValues, found] at valid
    | some values => exact ⟨values, found⟩
  | between =>
    cases listed : scalars? value with
    | none => simp [validateValues, listed] at valid
    | some scalars =>
      match scalars, listed with
      | [], listed | [_], listed | _ :: _ :: _ :: _, listed =>
        simp [validateValues, listed] at valid
      | [low, high], listed => exact ⟨[low, high], by simp only [operands, listed]⟩
  | compare comparison =>
    cases found : value.bind scalar? with
    | none => simp [validateValues, found] at valid
    | some scalar => exact ⟨[scalar], by rw [operands, found]; rfl⟩

theorem bind_eq_ok {ε α β : Type} {first : Except ε α} {next : α → Except ε β} {result : β}
    (success : (first >>= next) = .ok result) :
    ∃ value, first = .ok value ∧ next value = .ok result :=
  Parser.bind_eq_ok_iff.mp success

theorem accepted_of_validatePredicate {source op value : Option Json}
    (valid : validatePredicate source op value = .ok ()) :
    Accepted (.object .absent .absent none source op value) := by
  unfold validatePredicate at valid
  cases parsed : parseField source with
  | none =>
    rw [parsed] at valid
    obtain ⟨_, -, failed⟩ := bind_eq_ok valid
    cases failed
  | some field =>
    cases opParsed : parseOp op with
    | none =>
      rw [parsed, opParsed] at valid
      obtain ⟨_, -, failed⟩ := bind_eq_ok valid
      cases failed
    | some parsedOp =>
      rw [parsed, opParsed] at valid
      obtain ⟨_, -, valid⟩ := bind_eq_ok valid
      obtain ⟨_, -, valid⟩ := bind_eq_ok valid
      obtain ⟨values, found⟩ := operands_of_validateValues valid
      exact .predicate parsed opParsed found

theorem accepted_of_walk (node : Node) (depth count : Nat) :
    ∀ result, walk node depth count = .ok result → Accepted node := by
  apply walk.induct (fun node depth count => ∀ result, walk node depth count = .ok result →
    Accepted node) (fun nodes depth count => ∀ result, walkAll nodes depth count = .ok result →
      ∀ node ∈ nodes, Accepted node)
  case case1 =>
    intro truthy depth count result valid
    obtain ⟨_, -, failed⟩ := bind_eq_ok valid
    cases failed
  case case2 =>
    intro nodes orKey notKey field op value depth count ih result valid
    obtain ⟨entered, -, valid⟩ := bind_eq_ok valid
    cases nodes with
    | nil => cases valid
    | cons first nodes => exact .every (ih entered result valid)
  case case3 =>
    intro truthy orKey notKey field op value depth count result valid
    obtain ⟨_, -, failed⟩ := bind_eq_ok valid
    cases failed
  case case4 =>
    intro andKey nodes notKey field op value depth count noList noOther ih result
      valid
    have absent : andKey = .absent ∨ andKey = .null := by
      cases andKey with
      | absent => exact Or.inl rfl
      | null => exact Or.inr rfl
      | list nodes => exact absurd rfl (noList nodes)
      | other truthy => exact absurd rfl (noOther truthy)
    rw [walk.eq_4 _ _ _ _ _ _ _ _ noList noOther] at valid
    obtain ⟨entered, -, valid⟩ := bind_eq_ok valid
    cases nodes with
    | nil => cases valid
    | cons first nodes => exact .any absent (ih entered result valid)
  case case5 =>
    intro node field op value depth count ih result valid
    obtain ⟨entered, -, valid⟩ := bind_eq_ok valid
    exact .not (ih entered result valid)
  case case6 =>
    intro field op value depth count result valid
    obtain ⟨entered, -, valid⟩ := bind_eq_ok valid
    obtain ⟨⟨⟩, valid, -⟩ := bind_eq_ok valid
    exact accepted_of_validatePredicate valid
  case case7 =>
    intro andKey orKey notKey field op value depth count noList noOther noOr noNot noLeaf result valid
    rw [walk.eq_7 _ _ _ _ _ _ _ _ noList noOther noOr noNot noLeaf] at valid
    obtain ⟨_, -, failed⟩ := bind_eq_ok valid
    cases failed
  case case8 =>
    intro depth count result _ node mem
    cases mem
  case case9 =>
    intro node nodes depth count headHypothesis ih result valid
    obtain ⟨counted, headValid, valid⟩ := bind_eq_ok valid
    exact List.forall_mem_cons.mpr
      ⟨headHypothesis counted headValid, ih counted result valid⟩

theorem accepted_of_validateFilter {ast result : Node} (valid : validateFilter ast = .ok result) :
    Accepted ast := by
  obtain ⟨count, walked, -⟩ := bind_eq_ok valid
  exact accepted_of_walk ast 0 0 count walked

/-! ### Predicates of a tree -/

structure Predicate where
  field : Field
  op : Op
  values : List Scalar
deriving DecidableEq

def predicate? (source op value : Option Json) : Option Predicate := do
  let field ← parseField source
  let op ← parseOp op
  let values ← operands op value
  pure ⟨field, op, values⟩

mutual

def Node.predicates : Node → List Predicate
  | .other _ => []
  | .object (.list nodes) _ _ _ _ _ => allPredicates nodes
  | .object _ (.list nodes) _ _ _ _ => allPredicates nodes
  | .object _ _ (some node) _ _ _ => node.predicates
  | .object _ _ none field op value => (predicate? field op value).toList

def allPredicates : List Node → List Predicate
  | [] => []
  | node :: nodes => node.predicates ++ allPredicates nodes

end

theorem predicates_or {andKey : Branches Node} {nodes : List Node} {notKey : Option Node}
    {field op value : Option Json} (absent : andKey = .absent ∨ andKey = .null) :
    (Node.object andKey (.list nodes) notKey field op value).predicates = allPredicates nodes := by
  rcases absent with rfl | rfl <;> simp [Node.predicates]

theorem mem_allPredicates {nodes : List Node} {node : Node} (mem : node ∈ nodes)
    {predicate : Predicate} (own : predicate ∈ node.predicates) :
    predicate ∈ allPredicates nodes := by
  induction nodes with
  | nil => cases mem
  | cons first nodes ih =>
    unfold allPredicates
    rcases List.mem_cons.mp mem with rfl | mem
    · exact List.mem_append_left _ own
    · exact List.mem_append_right _ (ih mem)

/-! ### Agreement -/

def Agrees (event : EventRecord) (node : Node) : Prop :=
  ∃ result, evaluateFilter event node = some result ∧ ∀ params, ∃ sql extra,
    compile node params = some (sql, params ++ extra) ∧
      ∀ later, Says (Sql.value (params ++ extra ++ later) event.row sql) result

theorem compileAll_agrees {event : EventRecord} {nodes : List Node}
    (agree : ∀ node ∈ nodes, Agrees event node) :
    ∃ results, nodes.mapM (evaluateFilter event) = some results ∧ ∀ params, ∃ parts extra,
      compileAll nodes params = some (parts, params ++ extra) ∧ ∀ later, ∃ truths,
        Sql.values (params ++ extra ++ later) event.row parts = .ok truths ∧
          List.Forall₂ (fun (truth : Truth) result => truth = some true ↔ result = true)
            truths results := by
  induction nodes with
  | nil => exact ⟨[], rfl, fun params => ⟨[], [], by simp [compileAll], fun later => ⟨[], rfl, .nil⟩⟩⟩
  | cons node nodes ih =>
    obtain ⟨first, firstResult, firstSql⟩ := agree node List.mem_cons_self
    obtain ⟨rest, restResult, restSql⟩ :=
      ih fun node mem => agree node (List.mem_cons_of_mem _ mem)
    refine ⟨first :: rest, by simp [List.mapM_cons, firstResult, restResult], fun params => ?_⟩
    obtain ⟨part, extra, compiled, partSays⟩ := firstSql params
    obtain ⟨parts, more, allCompiled, partsSay⟩ := restSql (params ++ extra)
    refine ⟨part :: parts, extra ++ more, ?_, fun later => ?_⟩
    · simp [compileAll, compiled, allCompiled]
    · obtain ⟨truth, value, same⟩ := partSays (more ++ later)
      obtain ⟨truths, values, allSame⟩ := partsSay later
      refine ⟨truth :: truths, ?_, .cons same allSame⟩
      rw [← List.append_assoc] at value
      rw [← List.append_assoc params extra more, Sql.values, value, values]
      rfl

theorem every_of_results {event : EventRecord} {nodes : List Node} {results : List Bool}
    (answered : nodes.mapM (evaluateFilter event) = some results) :
    every event nodes = some (results.all id) := by
  induction nodes generalizing results with
  | nil =>
    cases answered
    rfl
  | cons node nodes ih =>
    simp only [List.mapM_cons, Option.bind_eq_bind, Option.bind_eq_some_iff, Option.pure_def,
      Option.some.injEq] at answered
    obtain ⟨first, firstResult, rest, restResult, rfl⟩ := answered
    rw [every, firstResult]
    cases first with
    | false => rfl
    | true => simpa using ih restResult

theorem any_of_results {event : EventRecord} {nodes : List Node} {results : List Bool}
    (answered : nodes.mapM (evaluateFilter event) = some results) :
    any event nodes = some (results.any id) := by
  induction nodes generalizing results with
  | nil =>
    cases answered
    rfl
  | cons node nodes ih =>
    simp only [List.mapM_cons, Option.bind_eq_bind, Option.bind_eq_some_iff, Option.pure_def,
      Option.some.injEq] at answered
    obtain ⟨first, firstResult, rest, restResult, rfl⟩ := answered
    rw [any, firstResult]
    cases first with
    | false => simpa using ih restResult
    | true => rfl

theorem foldr_and {truths : List Truth} {results : List Bool}
    (same : List.Forall₂ (fun (truth : Truth) result => truth = some true ↔ result = true)
      truths results) :
    truths.foldr Truth.and (some true) = some true ↔ results.all id = true := by
  induction same with
  | nil => simp
  | cons first _ ih =>
    rw [List.foldr_cons, Truth.and_eq_true, first, ih]
    simp

theorem foldr_or {truths : List Truth} {results : List Bool}
    (same : List.Forall₂ (fun (truth : Truth) result => truth = some true ↔ result = true)
      truths results) :
    truths.foldr Truth.or (some false) = some true ↔ results.any id = true := by
  induction same with
  | nil => simp
  | cons first _ ih =>
    rw [List.foldr_cons, Truth.or_eq_true, first, ih]
    simp

def AllSettled (event : EventRecord) (node : Node) : Prop :=
  ∀ predicate ∈ node.predicates, Settled event predicate.field predicate.op predicate.values

theorem agrees_of_accepted {event : EventRecord} {node : Node} (accepted : Accepted node)
    (settled : AllSettled event node) : Agrees event node := by
  induction accepted with
  | @every nodes orKey notKey field op value all ih =>
    have each : ∀ node ∈ nodes, Agrees event node := fun node mem =>
      ih node mem fun predicate own =>
        settled predicate (by simpa [Node.predicates] using mem_allPredicates mem own)
    obtain ⟨results, answered, compiled⟩ := compileAll_agrees each
    refine ⟨results.all id, every_of_results answered, fun params => ?_⟩
    obtain ⟨parts, extra, success, agree⟩ := compiled params
    refine ⟨.and parts, extra, by simp [compile, success], fun later => ?_⟩
    obtain ⟨truths, values, same⟩ := agree later
    exact ⟨_, by rw [Sql.value, values]; rfl, foldr_and same⟩
  | @any andKey nodes notKey field op value absent all ih =>
    have each : ∀ node ∈ nodes, Agrees event node := fun node mem =>
      ih node mem fun predicate own => settled predicate (by
        rcases absent with rfl | rfl <;> simpa [Node.predicates] using mem_allPredicates mem own)
    obtain ⟨results, answered, compiled⟩ := compileAll_agrees each
    refine ⟨results.any id, ?_, fun params => ?_⟩
    · rcases absent with rfl | rfl <;> exact any_of_results answered
    obtain ⟨parts, extra, success, agree⟩ := compiled params
    refine ⟨.or parts, extra, ?_, fun later => ?_⟩
    · rcases absent with rfl | rfl <;> simp [compile, success]
    obtain ⟨truths, values, same⟩ := agree later
    exact ⟨_, by rw [Sql.value, values]; rfl, foldr_or same⟩
  | @not node field op value inner ih =>
    have truthy := truthy_of_accepted inner
    obtain ⟨result, answered, compiled⟩ := ih fun predicate own =>
      settled predicate (by simpa [Node.predicates] using own)
    refine ⟨!result, ?_, fun params => ?_⟩
    · simp [evaluateFilter, truthy, answered]
    obtain ⟨sql, extra, success, agree⟩ := compiled params
    refine ⟨.not sql, extra, by simp [compile, truthy, success], fun later => ?_⟩
    obtain ⟨truth, value, same⟩ := agree later
    refine ⟨Truth.notTrue truth, by rw [Sql.value, value]; rfl, ?_⟩
    rw [Truth.notTrue_eq_true, ne_eq, same]
    simp
  | @predicate source op value field parsedOp values parsed opParsed found =>
    have own : Settled event field parsedOp values := by
      apply settled ⟨field, parsedOp, values⟩
      simp [Node.predicates, predicate?, parsed, opParsed, found]
    refine ⟨answer (fieldValue event field) parsedOp values, ?_, fun params => ?_⟩
    · exact evaluatePredicate_eq event parsed opParsed found
    obtain ⟨condition, extra, compiled, agree⟩ :=
      predicate_agrees parsed opParsed found own params
    exact ⟨.condition condition, extra, by simp [compile, compiled], agree⟩

/-- The evaluator and the fragment select the same events of the settled ones. -/
theorem evaluateFilter_iff_selects (event : EventRecord) {ast : Node}
    (valid : validateFilter ast = .ok ast) (settled : AllSettled event ast) :
    evaluateFilter event ast = some true ↔ selects ast event.row := by
  obtain ⟨result, answered, compiled⟩ := agrees_of_accepted (accepted_of_validateFilter valid) settled
  obtain ⟨sql, extra, success, agree⟩ := compiled []
  obtain ⟨truth, value, same⟩ := agree []
  rw [List.append_nil] at value
  simp only [selects, filterTruth, compileFilter, success, Option.map_some, value, answered,
    Option.some.injEq, Except.ok.injEq]
  exact same.symm

/-! ### An event and two filters -/

def transferEvent : EventRecord where
  contract_id := ⟨['C', 'A'], by decide⟩
  function := ⟨['t'], by decide⟩
  tx_hash := none
  ledger := ⟨.text (js "7"), 7, by decide, by rintro _ ⟨⟩⟩
  seq := ⟨.text (js "1"), 1, by decide, by rintro _ ⟨⟩⟩
  raw_topics := some [⟨['t'], by decide⟩, ⟨['5'], by decide⟩]
  raw_data := some ⟨['\x7b', '"', 'n', '"', ':', '5', '\x7d'], by decide⟩

def leaf (field op : String) (value : Json) : Node :=
  .object .absent .absent none (some (.string (js field))) (some (.string (js op))) (some value)

/-- `ledger >= 5 and not (contract_id = "CB" or args.n > 7)` -/
def nestedFilter : Node :=
  .object (.list [leaf "ledger" "gte" (.string (js "5")),
    .object .absent .absent (some (.object .absent (.list [
      leaf "contract_id" "eq" (.string (js "CB")), leaf "args.n" "gt" (.string (js "7"))])
      none none none none)) none none none]) .absent none none none none

theorem nestedFilter_predicates : nestedFilter.predicates =
    [⟨.column (js "ledger") .number, .compare .gte, [.string (js "5")]⟩,
      ⟨.column (js "contract_id") .text, .compare .eq, [.string (js "CB")]⟩,
      ⟨.args [['n']], .compare .gt, [.string (js "7")]⟩] := rfl

theorem nestedFilter_settled : AllSettled transferEvent nestedFilter := by
  unfold AllSettled
  rw [nestedFilter_predicates]
  simp only [List.forall_mem_cons]
  have five : Sendable (.string (js "5")) := by
    unfold Sendable
    decide
  have name : Sendable (.string (js "CB")) := by
    unfold Sendable
    decide
  have seven : Sendable (.string (js "7")) := by
    unfold Sendable
    decide
  refine ⟨List.forall_mem_singleton.mpr ⟨five, 5, by decide⟩,
    ⟨trivial, Or.inr ⟨List.forall_mem_singleton.mpr name, ?_⟩⟩,
    ⟨?_, Or.inr ⟨List.forall_mem_singleton.mpr seven, ?_⟩⟩, by simp⟩
  · constructor
    · exact List.forall_mem_singleton.mpr (by decide)
    · show ∀ value ∈ [Scalar.string (js "CB")], TextSettled .eq _ (Utf16.decode value.text)
      exact List.forall_mem_singleton.mpr fun ordered => nomatch ordered
  · intro data tree stored read
    cases stored
    have parsed : Json.parse? ['\x7b', '"', 'n', '"', ':', '5', '\x7d'] =
        some (.object [(js "n", .number (.plain false 5 0))]) := rfl
    obtain rfl := Option.some.inj (parsed.symm.trans read)
    exact ⟨trivial, Or.inr (by decide +kernel)⟩
  · show NumbersSettled (.number _) _
    refine ⟨trivial, List.forall_mem_singleton.mpr ?_, List.forall_mem_singleton.mpr ?_⟩
    · rintro numeral ⟨⟩
      decide +kernel
    · rintro numeral ⟨⟩
      refine ⟨by decide +kernel, ?_⟩
      unfold OrderKept
      decide +kernel

theorem evaluateFilter_iff_selects_nested : selects nestedFilter transferEvent.row :=
  (evaluateFilter_iff_selects transferEvent rfl nestedFilter_settled).mp (by decide +kernel)

/-- `topic[1] in ["05", "abc"]` -/
def mixedList : Node := leaf "topic[1]" "in" (.array [.string (js "05"), .string (js "abc")])

/-- The members of a mixed list stay texts for SQL, but the evaluator compares the
numeral among them as a number. -/
theorem mixedList_disagrees : ¬ ∀ (event : EventRecord) (ast : Node),
    validateFilter ast = .ok ast →
      (evaluateFilter event ast = some true ↔ selects ast event.row) := by
  intro claim
  have kept : filterTruth mixedList transferEvent.row = some (.ok (some true)) :=
    (claim transferEvent mixedList rfl).mp (by decide)
  revert kept
  decide

end SorobanExplorer.Filters
