import SorobanExplorer.Filters.Fragment

/-!
Owns what a filter means once it is said what its leaves mean, and that the
evaluator and the fragment both apply a filter with that meaning: each with its
own reading of the leaves.
-/

namespace SorobanExplorer.Filters

open Library
open Library.Postgres

/-! ### Meaning -/

mutual

def Node.Means (holds : Predicate → Prop) : Node → Prop
  | .other _ => False
  | .object (.list nodes) _ _ _ _ _ => AllMean holds nodes
  | .object _ (.list nodes) _ _ _ _ => SomeMeans holds nodes
  | .object _ _ (some node) _ _ _ => ¬ node.Means holds
  | .object _ _ none field op value =>
    ∃ predicate, predicate? field op value = some predicate ∧ holds predicate

def AllMean (holds : Predicate → Prop) : List Node → Prop
  | [] => True
  | node :: nodes => node.Means holds ∧ AllMean holds nodes

def SomeMeans (holds : Predicate → Prop) : List Node → Prop
  | [] => False
  | node :: nodes => node.Means holds ∨ SomeMeans holds nodes

end

section Means

variable {holds : Predicate → Prop} {nodes : List Node}

theorem allMean_iff : AllMean holds nodes ↔ ∀ node ∈ nodes, node.Means holds := by
  induction nodes with
  | nil => simp [AllMean]
  | cons node nodes ih => simp [AllMean, ih]

theorem someMeans_iff : SomeMeans holds nodes ↔ ∃ node ∈ nodes, node.Means holds := by
  induction nodes with
  | nil => simp [SomeMeans]
  | cons node nodes ih => simp [SomeMeans, ih]

variable {andKey orKey : Branches Node} {notKey : Option Node} {field op value : Option Json}

theorem means_and : (Node.object (.list nodes) orKey notKey field op value).Means holds ↔
    ∀ node ∈ nodes, node.Means holds := by
  rw [Node.Means, allMean_iff]

theorem means_or (absent : andKey = .absent ∨ andKey = .null) :
    (Node.object andKey (.list nodes) notKey field op value).Means holds ↔
      ∃ node ∈ nodes, node.Means holds := by
  rcases absent with rfl | rfl <;> rw [Node.Means, someMeans_iff] <;> exact fun _ same => nomatch same

theorem means_not {node : Node} :
    (Node.object .absent .absent (some node) field op value).Means holds ↔ ¬ node.Means holds := by
  simp [Node.Means]

theorem means_leaf {predicate : Predicate} (parsed : predicate? field op value = some predicate) :
    (Node.object .absent .absent none field op value).Means holds ↔ holds predicate := by
  simp [Node.Means, parsed]

end Means

/-! ### The evaluator -/

def Predicate.Evaluates (event : EventRecord) (predicate : Predicate) : Prop :=
  answer (fieldValue event predicate.field) predicate.op predicate.values = true

theorem evaluateFilter_means {event : EventRecord} {node : Node} (accepted : Accepted node) :
    ∃ result, evaluateFilter event node = some result ∧
      (result = true ↔ node.Means (Predicate.Evaluates event)) := by
  have ofAll {nodes : List Node} (each : ∀ node ∈ nodes, ∃ result,
      evaluateFilter event node = some result ∧
        (result = true ↔ node.Means (Predicate.Evaluates event))) :
      ∃ results, nodes.mapM (evaluateFilter event) = some results ∧
        (results.all id = true ↔ AllMean (Predicate.Evaluates event) nodes) ∧
          (results.any id = true ↔ SomeMeans (Predicate.Evaluates event) nodes) := by
    induction nodes with
    | nil => exact ⟨[], rfl, by simp [AllMean], by simp [SomeMeans]⟩
    | cons node nodes ih =>
      obtain ⟨⟨first, answered, firstMeans⟩, others⟩ := List.forall_mem_cons.mp each
      obtain ⟨rest, restAnswered, all, some⟩ := ih others
      refine ⟨first :: rest, by simp [List.mapM_cons, answered, restAnswered], ?_, ?_⟩
      · rw [List.all_cons, Bool.and_eq_true, all, AllMean, ← firstMeans]
        rfl
      · rw [List.any_cons, Bool.or_eq_true, some, SomeMeans, ← firstMeans]
        rfl
  induction accepted with
  | every all ih =>
    obtain ⟨results, answered, means, -⟩ := ofAll ih
    refine ⟨results.all id, every_of_results answered, ?_⟩
    rw [means, Node.Means]
  | @any andKey nodes notKey field op value absent all ih =>
    obtain ⟨results, answered, -, means⟩ := ofAll ih
    refine ⟨results.any id, ?_, ?_⟩
    · rcases absent with rfl | rfl <;> exact any_of_results answered
    · rw [means, someMeans_iff, means_or absent]
  | not inner ih =>
    obtain ⟨result, answered, means⟩ := ih
    refine ⟨!result, by simp [evaluateFilter, truthy_of_accepted inner, answered], ?_⟩
    rw [means_not, ← means]
    simp
  | @predicate source op value field parsedOp values parsed opParsed found =>
    have leaf : predicate? source op value = some ⟨field, parsedOp, values⟩ := by
      simp [predicate?, parsed, opParsed, found]
    refine ⟨_, evaluatePredicate_eq event parsed opParsed found, ?_⟩
    rw [means_leaf leaf]
    rfl

theorem evaluateFilter_eq_true {event : EventRecord} {node : Node} (accepted : Accepted node) :
    evaluateFilter event node = some true ↔ node.Means (Predicate.Evaluates event) := by
  obtain ⟨result, answered, means⟩ := @evaluateFilter_means event node accepted
  rw [answered, ← means, Option.some.injEq]

/-! ### The fragment -/

def Predicate.truth (row : Row) (predicate : Predicate) : Option (Except SqlError Truth) :=
  (predicate.compile []).map fun compiled => compiled.1.value compiled.2 row

def Predicate.Selects (row : Row) (predicate : Predicate) : Prop :=
  predicate.truth row = some (.ok (some true))

theorem Predicate.truth_eq {predicate : Predicate} (fits : Fits predicate.op predicate.values)
    (params later : List Param) (row : Row) : ∃ condition,
      predicate.compile params = some (condition, params ++ predicate.parameters) ∧
        predicate.truth row = some (condition.value (params ++ predicate.parameters ++ later) row) := by
  obtain ⟨condition, compiled, numbered, -⟩ := compile_shape fits
  refine ⟨_, compiled params, ?_⟩
  have rebound (front : List Param) (back : List Param) :
      Rebound (front.length + ·) (front ++ predicate.parameters ++ back) predicate.parameters
        condition.placeholders := by
    intro placeholder member
    rw [numbered, List.mem_range'_1] at member
    have place : front.length + placeholder - 1 = front.length + (placeholder - 1) := by omega
    have inside : placeholder - 1 < predicate.parameters.length := by omega
    rw [place, List.append_assoc, List.getElem?_append_right (Nat.le_add_right _ _),
      Nat.add_sub_cancel_left, List.getElem?_append_left inside]
  have home := Condition.value_rename (rebound [] []) row
  rw [List.append_nil] at home
  rw [truth, compiled [], Option.map_some, Condition.value_rename (rebound params later) row]
  exact congrArg some home

theorem foldr_and_iff {truths : List Truth} :
    truths.foldr Truth.and (some true) = some true ↔ ∀ truth ∈ truths, truth = some true := by
  induction truths with
  | nil => simp
  | cons truth truths ih =>
    rw [List.foldr_cons, Truth.and_eq_true, ih, List.forall_mem_cons]

theorem foldr_or_iff {truths : List Truth} :
    truths.foldr Truth.or (some false) = some true ↔ ∃ truth ∈ truths, truth = some true := by
  induction truths with
  | nil => simp
  | cons truth truths ih =>
    simp only [List.foldr_cons, Truth.or_eq_true, ih, List.mem_cons,
      exists_eq_or_imp]

def FragmentMeans (row : Row) (node : Node) : Prop :=
  ∀ params, ∃ sql, compile node params = some (sql, params ++ node.parameters) ∧
    ∀ later truth, Sql.value (params ++ node.parameters ++ later) row sql = .ok truth →
      (truth = some true ↔ node.Means (Predicate.Selects row))

theorem fragmentsMean {row : Row} {nodes : List Node} (each : ∀ node ∈ nodes, FragmentMeans row node)
    (params : List Param) : ∃ parts,
      compileAll nodes params =
        some (parts, params ++ (allPredicates nodes).flatMap Predicate.parameters) ∧
      ∀ later truths,
        Sql.values (params ++ (allPredicates nodes).flatMap Predicate.parameters ++ later) row parts =
          .ok truths →
        ((∀ truth ∈ truths, truth = some true) ↔ AllMean (Predicate.Selects row) nodes) ∧
          ((∃ truth ∈ truths, truth = some true) ↔ SomeMeans (Predicate.Selects row) nodes) := by
  induction nodes generalizing params with
  | nil =>
    refine ⟨[], by simp [compileAll, allPredicates], fun later truths values => ?_⟩
    cases values
    simp [AllMean, SomeMeans]
  | cons node nodes ih =>
    obtain ⟨first, rest⟩ := List.forall_mem_cons.mp each
    obtain ⟨part, compiled, partMeans⟩ := first params
    obtain ⟨parts, allCompiled, partsMean⟩ := ih rest (params ++ node.parameters)
    have bound : params ++ (allPredicates (node :: nodes)).flatMap Predicate.parameters =
        params ++ node.parameters ++ (allPredicates nodes).flatMap Predicate.parameters := by
      rw [allPredicates, List.flatMap_append, List.append_assoc, Node.parameters]
    refine ⟨part :: parts, ?_, fun later truths values => ?_⟩
    · rw [bound]
      simp [compileAll, compiled, allCompiled]
    · rw [bound, Sql.values] at values
      obtain ⟨truth, value, values⟩ := bind_eq_ok values
      obtain ⟨others, otherValues, values⟩ := bind_eq_ok values
      cases values
      rw [List.append_assoc] at value
      have own := partMeans _ truth value
      obtain ⟨all, some⟩ := partsMean later others otherValues
      simp only [List.mem_cons, forall_eq_or_imp, exists_eq_or_imp, AllMean, SomeMeans, own, all,
        some, and_self]

theorem fragmentMeans_of_accepted {row : Row} {node : Node} (accepted : Accepted node) :
    FragmentMeans row node := by
  induction accepted with
  | @every nodes orKey notKey field op value all ih =>
    intro params
    obtain ⟨parts, compiled, means⟩ := fragmentsMean ih params
    refine ⟨.and parts, by simp [compile, compiled, Node.parameters, Node.predicates], ?_⟩
    intro later truth value
    obtain ⟨truths, values, same⟩ := bind_eq_ok value
    cases same
    rw [foldr_and_iff, Node.Means]
    exact (means later truths (by simpa [Node.parameters, Node.predicates] using values)).1
  | @any andKey nodes notKey field op value absent all ih =>
    intro params
    obtain ⟨parts, compiled, means⟩ := fragmentsMean ih params
    refine ⟨.or parts, ?_, fun later truth value => ?_⟩
    · rw [compile_or absent, compiled, Node.parameters, predicates_or absent]
      rfl
    · rw [Node.parameters, predicates_or absent] at value
      obtain ⟨truths, values, same⟩ := bind_eq_ok value
      cases same
      rw [foldr_or_iff, means_or absent, ← someMeans_iff]
      exact (means later truths values).2
  | @not node field op value inner ih =>
    intro params
    obtain ⟨sql, compiled, means⟩ := ih params
    have truthy := truthy_of_accepted inner
    refine ⟨.not sql, ?_, fun later truth value => ?_⟩
    · simp [compile, truthy, compiled, Node.parameters, Node.predicates]
    · obtain ⟨truth, partValue, same⟩ := bind_eq_ok value
      cases same
      rw [Truth.notTrue_eq_true, means_not, ne_eq,
        means later truth (by simpa [Node.parameters, Node.predicates] using partValue)]
  | @predicate source op value field parsedOp values parsed opParsed found =>
    intro params
    have leaf : predicate? source op value = some ⟨field, parsedOp, values⟩ := by
      simp [predicate?, parsed, opParsed, found]
    have own : (Node.object .absent .absent none source op value).parameters =
        Predicate.parameters ⟨field, parsedOp, values⟩ := by
      simp [Node.parameters, Node.predicates, leaf]
    obtain ⟨condition, compiled, -⟩ := @Predicate.compile_shape
      ⟨field, parsedOp, values⟩ (fits_of_operands found)
    rw [own]
    refine ⟨.condition (condition.rename (params.length + ·)), ?_, fun later truth value => ?_⟩
    · simp [compile, predicate_eq_compile, leaf, compiled]
    · obtain ⟨_, compiled', truthOf⟩ := @Predicate.truth_eq
        ⟨field, parsedOp, values⟩ (fits_of_operands found) params later row
      rw [compiled, Option.some.injEq, Prod.mk.injEq] at compiled'
      rw [means_leaf leaf, Predicate.Selects, truthOf, ← compiled'.1]
      rw [Sql.value] at value
      rw [value, Option.some.injEq, Except.ok.injEq]

theorem means_of_selects {row : Row} {node : Node} (accepted : Accepted node)
    (selected : selects node row) : node.Means (Predicate.Selects row) := by
  obtain ⟨sql, compiled, means⟩ := @fragmentMeans_of_accepted row node accepted []
  rw [selects, filterTruth, compileFilter, compiled, Option.map_some, Option.some.injEq] at selected
  refine (means [] (some true) ?_).mp rfl
  rwa [List.append_nil]

end SorobanExplorer.Filters
