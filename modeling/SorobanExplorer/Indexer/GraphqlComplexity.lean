import SorobanExplorer.Indexer.ApiKeys
import SorobanExplorer.Library.Templates

/-!
Owns the complexity limiter of GraphQL requests: the cost of selections and documents, the budget
of a tier, and what is counted of a document against what its fragments expand to.
-/

namespace SorobanExplorer.Indexer.GraphqlComplexity

open Library
open ApiKeys (Tier)

/-! ### Documents -/

abbrev Name := List Char

inductive Selection where
  | field (name : Name) (selectionSet : List Selection)
  | inlineFragment (selectionSet : List Selection)
  | fragmentSpread (name : Name)

abbrev SelectionSet := List Selection

inductive Definition where
  | operationDefinition (selectionSet : SelectionSet)
  | fragmentDefinition (name : Name) (selectionSet : SelectionSet)
  | other

abbrev Document := List Definition

/-! ### Costs -/

def tierComplexityBudgets : Tier → ℕ
  | .unauthenticated => 100
  | .free => 500
  | .pro => 2000
  | .enterprise => 10000

def defaultFieldCost : ℕ := 1

def listFieldMultiplier : ℕ := 10

def listFieldNames : List Name :=
  ["edges", "nodes", "items", "results", "data", "records", "entries", "list", "feed", "page",
    "collection"].map String.toList

def isListField (fieldName : Name) : Bool :=
  listFieldNames.contains (fieldName.map Char.toLower) ||
    1 < fieldName.length && fieldName.getLast? == some 's'

def fieldCost (fieldName : Name) : ℕ :=
  if isListField fieldName then defaultFieldCost * listFieldMultiplier else defaultFieldCost

mutual

def selectionCost : Selection → ℕ
  | .field name selectionSet => fieldCost name + calculateSelectionSetCost selectionSet
  | .inlineFragment selectionSet => calculateSelectionSetCost selectionSet
  | .fragmentSpread _ => defaultFieldCost

def calculateSelectionSetCost : SelectionSet → ℕ
  | [] => 0
  | selection :: rest => selectionCost selection + calculateSelectionSetCost rest

end

def definitionCost : Definition → ℕ
  | .operationDefinition selectionSet => calculateSelectionSetCost selectionSet
  | .fragmentDefinition _ selectionSet => calculateSelectionSetCost selectionSet
  | .other => 0

def calculateDocumentCost (document : Document) : ℕ := (document.map definitionCost).sum

/-! ### The middleware -/

structure Request where
  path : List Char
  query : Option (List Char)
  tier : Option Tier

inductive Answer where
  | next (costHeaders : Option (ℕ × ℕ))
  | complexityExceeded (cost limit : ℕ)
deriving DecidableEq

def budget (request : Request) : ℕ :=
  tierComplexityBudgets (request.tier.getD .unauthenticated)

/-- `parse` is the parser of the library, `none` where it throws. -/
def graphqlComplexityLimiter (parse : List Char → Option Document) (request : Request) : Answer :=
  if ¬ "/graphql".toList <:+: request.path then .next none
  else
    match (request.query.filter (· ≠ [])).bind parse with
    | none => .next none
    | some document =>
      let cost := calculateDocumentCost document
      if cost > budget request then .complexityExceeded cost (budget request)
      else .next (some (cost, budget request - cost))

/-! ### Fields and spreads -/

mutual

def selectionFields : Selection → ℕ
  | .field name selectionSet => fieldCost name + fieldsCost selectionSet
  | .inlineFragment selectionSet => fieldsCost selectionSet
  | .fragmentSpread _ => 0

def fieldsCost : SelectionSet → ℕ
  | [] => 0
  | selection :: rest => selectionFields selection + fieldsCost rest

end

mutual

def selectionSpreads : Selection → List Name
  | .field _ selectionSet => spreads selectionSet
  | .inlineFragment selectionSet => spreads selectionSet
  | .fragmentSpread name => [name]

def spreads : SelectionSet → List Name
  | [] => []
  | selection :: rest => selectionSpreads selection ++ spreads rest

end

mutual

/-- Every spread replaced by what `body` gives for it. -/
def substituteSelection (body : Name → SelectionSet) : Selection → Selection
  | .field name selectionSet => .field name (substitute body selectionSet)
  | .inlineFragment selectionSet => .inlineFragment (substitute body selectionSet)
  | .fragmentSpread name => .inlineFragment (body name)

def substitute (body : Name → SelectionSet) : SelectionSet → SelectionSet
  | [] => []
  | selection :: rest => substituteSelection body selection :: substitute body rest

end

mutual

theorem selectionCost_eq : ∀ selection : Selection,
    selectionCost selection = selectionFields selection + (selectionSpreads selection).length
  | .field name selectionSet => by
      rw [selectionCost, selectionFields, selectionSpreads, calculateSelectionSetCost_eq]
      omega
  | .inlineFragment selectionSet => by
      rw [selectionCost, selectionFields, selectionSpreads, calculateSelectionSetCost_eq]
  | .fragmentSpread name => rfl

theorem calculateSelectionSetCost_eq : ∀ selectionSet : SelectionSet,
    calculateSelectionSetCost selectionSet =
      fieldsCost selectionSet + (spreads selectionSet).length
  | [] => rfl
  | selection :: rest => by
      rw [calculateSelectionSetCost, fieldsCost, spreads, selectionCost_eq,
        calculateSelectionSetCost_eq rest, List.length_append]
      omega

end

mutual

/-- A replaced spread counts for what replaces it. -/
theorem selectionCost_substitute (body : Name → SelectionSet) : ∀ selection : Selection,
    selectionCost (substituteSelection body selection) = selectionFields selection +
      ((selectionSpreads selection).map fun name => calculateSelectionSetCost (body name)).sum
  | .field name selectionSet => by
      rw [substituteSelection, selectionCost, selectionFields, selectionSpreads,
        calculateSelectionSetCost_substitute]
      omega
  | .inlineFragment selectionSet => by
      rw [substituteSelection, selectionCost, selectionFields, selectionSpreads,
        calculateSelectionSetCost_substitute]
  | .fragmentSpread name => by
      rw [substituteSelection, selectionCost, selectionFields, selectionSpreads]
      simp

theorem calculateSelectionSetCost_substitute (body : Name → SelectionSet) :
    ∀ selectionSet : SelectionSet,
      calculateSelectionSetCost (substitute body selectionSet) = fieldsCost selectionSet +
        ((spreads selectionSet).map fun name => calculateSelectionSetCost (body name)).sum
  | [] => rfl
  | selection :: rest => by
      rw [substitute, calculateSelectionSetCost, fieldsCost, spreads, selectionCost_substitute,
        calculateSelectionSetCost_substitute body rest, List.map_append, List.sum_append]
      omega

end

mutual

theorem spreads_substituteSelection {body : Name → SelectionSet} : ∀ selection : Selection,
    (∀ name ∈ selectionSpreads selection, spreads (body name) = []) →
      selectionSpreads (substituteSelection body selection) = []
  | .field _ selectionSet => fun inlined => spreads_substitute selectionSet inlined
  | .inlineFragment selectionSet => fun inlined => spreads_substitute selectionSet inlined
  | .fragmentSpread name => fun inlined => inlined name (List.mem_singleton.mpr rfl)

theorem spreads_substitute {body : Name → SelectionSet} : ∀ selectionSet : SelectionSet,
    (∀ name ∈ spreads selectionSet, spreads (body name) = []) →
      spreads (substitute body selectionSet) = []
  | [] => fun _ => rfl
  | selection :: rest => fun inlined => by
      rw [substitute, spreads, spreads_substituteSelection selection fun name listed =>
          inlined name (List.mem_append_left _ listed),
        spreads_substitute rest fun name listed => inlined name (List.mem_append_right _ listed)]
      rfl

end

mutual

theorem substituteSelection_congr {left right : Name → SelectionSet} : ∀ selection : Selection,
    (∀ name ∈ selectionSpreads selection, left name = right name) →
      substituteSelection left selection = substituteSelection right selection
  | .field name selectionSet => fun same => by
      rw [substituteSelection, substituteSelection, substitute_congr selectionSet same]
  | .inlineFragment selectionSet => fun same => by
      rw [substituteSelection, substituteSelection, substitute_congr selectionSet same]
  | .fragmentSpread name => fun same => by
      rw [substituteSelection, substituteSelection, same name (List.mem_singleton.mpr rfl)]

theorem substitute_congr {left right : Name → SelectionSet} : ∀ selectionSet : SelectionSet,
    (∀ name ∈ spreads selectionSet, left name = right name) →
      substitute left selectionSet = substitute right selectionSet
  | [] => fun _ => rfl
  | selection :: rest => fun same => by
      rw [substitute, substitute, substituteSelection_congr selection fun name listed =>
          same name (List.mem_append_left _ listed),
        substitute_congr rest fun name listed => same name (List.mem_append_right _ listed)]

end

/-! ### Inlining -/

def operations (document : Document) : List SelectionSet :=
  document.filterMap fun
    | .operationDefinition selectionSet => some selectionSet
    | _ => none

def fragments (document : Document) : List (Name × SelectionSet) :=
  document.filterMap fun
    | .fragmentDefinition name selectionSet => some (name, selectionSet)
    | _ => none

def fragmentNames (document : Document) : List Name := (fragments document).map Prod.fst

def fragmentBody (document : Document) (name : Name) : SelectionSet :=
  (((fragments document).find? (·.1 = name)).map Prod.snd).getD []

def expansion (document : Document) : ℕ → Name → SelectionSet
  | 0, _ => []
  | depth + 1, name => substitute (expansion document depth) (fragmentBody document name)

def inlined (document : Document) : Name → SelectionSet :=
  expansion document (fragments document).length

def inlineDocument (document : Document) : Document :=
  (operations document).map fun selectionSet =>
    .operationDefinition (substitute (inlined document) selectionSet)

/-- The rules of a valid document about its fragments: one fragment of a name, no spread without a
fragment, and no fragment that spreads itself, also through others. -/
structure Valid (document : Document) : Prop where
  unique : (fragmentNames document).Nodup
  known : ∀ selectionSet ∈ operations document ++ (fragments document).map Prod.snd,
    ∀ name ∈ spreads selectionSet, name ∈ fragmentNames document
  acyclic : ∃ rank : Name → ℕ, ∀ fragment ∈ fragments document,
    ∀ name ∈ spreads fragment.2, rank name < rank fragment.1

/-! ### What is counted and what is expanded -/

def own (document : Document) (name : Name) : ℕ := fieldsCost (fragmentBody document name)

def refs (document : Document) (name : Name) : List Name := spreads (fragmentBody document name)

def operationSpreads (document : Document) : List Name := (operations document).flatMap spreads

def uses (document : Document) (name : Name) : ℕ :=
  ((operationSpreads document).map
    (Templates.uses (refs document) name (fragments document).length)).sum

def operationFields (document : Document) : ℕ := ((operations document).map fieldsCost).sum

def fragmentFields (document : Document) : ℕ :=
  ((fragments document).map fun fragment => fieldsCost fragment.2).sum

def spreadCount (document : Document) : ℕ :=
  (operationSpreads document).length +
    ((fragments document).map fun fragment => (spreads fragment.2).length).sum

def expandedFields (document : Document) : ℕ :=
  ((fragmentNames document).map fun name => uses document name * own document name).sum

theorem calculateDocumentCost_eq (document : Document) :
    calculateDocumentCost document =
      operationFields document + fragmentFields document + spreadCount document := by
  unfold calculateDocumentCost operationFields fragmentFields spreadCount operationSpreads
  induction document with
  | nil => rfl
  | cons definition document ih =>
    rw [List.map_cons, List.sum_cons, ih]
    cases definition with
    | operationDefinition selectionSet =>
      have here : operations (.operationDefinition selectionSet :: document) =
          selectionSet :: operations document := rfl
      have others : fragments (.operationDefinition selectionSet :: document) =
          fragments document := rfl
      rw [here, others, definitionCost, calculateSelectionSetCost_eq, List.map_cons,
        List.sum_cons, List.flatMap_cons, List.length_append]
      omega
    | fragmentDefinition name selectionSet =>
      have others : operations (.fragmentDefinition name selectionSet :: document) =
          operations document := rfl
      have here : fragments (.fragmentDefinition name selectionSet :: document) =
          (name, selectionSet) :: fragments document := rfl
      rw [here, others, definitionCost, calculateSelectionSetCost_eq, List.map_cons,
        List.sum_cons, List.map_cons, List.sum_cons]
      dsimp only
      omega
    | other =>
      rw [definitionCost, Nat.zero_add]
      rfl

theorem cost_expansion (document : Document) (depth : ℕ) (name : Name) :
    calculateSelectionSetCost (expansion document depth name) =
      Templates.size (own document) (refs document) depth name := by
  induction depth generalizing name with
  | zero => rfl
  | succ depth ih =>
    rw [expansion, calculateSelectionSetCost_substitute, Templates.size]
    congr 2
    exact List.map_congr_left fun reference _ => ih reference

theorem spreads_expansion (document : Document) (depth : ℕ) (name : Name) :
    spreads (expansion document depth name) = [] := by
  induction depth generalizing name with
  | zero => rfl
  | succ depth ih =>
    exact spreads_substitute _ fun reference _ => ih reference

theorem cost_inlineDocument_size (document : Document) :
    calculateDocumentCost (inlineDocument document) = operationFields document +
      ((operationSpreads document).map
        (Templates.size (own document) (refs document) (fragments document).length)).sum := by
  unfold calculateDocumentCost inlineDocument operationFields operationSpreads
  rw [List.map_map]
  generalize operations document = sets
  induction sets with
  | nil => rfl
  | cons selectionSet sets ih =>
    have sizes : (spreads selectionSet).map
        (fun name => calculateSelectionSetCost (inlined document name)) =
        (spreads selectionSet).map
          (Templates.size (own document) (refs document) (fragments document).length) :=
      List.map_congr_left fun name _ => cost_expansion document _ name
    have first : definitionCost
        (.operationDefinition (substitute (inlined document) selectionSet)) =
        fieldsCost selectionSet + ((spreads selectionSet).map
          (Templates.size (own document) (refs document) (fragments document).length)).sum := by
      rw [definitionCost, calculateSelectionSetCost_substitute, sizes]
    rw [List.map_cons, List.sum_cons, List.map_cons, List.sum_cons, List.flatMap_cons,
      List.map_append, List.sum_append, Function.comp_apply, first, ih]
    omega

namespace Valid

variable {document : Document}

theorem fragmentBody_eq (valid : Valid document) {fragment : Name × SelectionSet}
    (listed : fragment ∈ fragments document) : fragmentBody document fragment.1 = fragment.2 := by
  have unique := valid.unique
  unfold fragmentNames at unique
  unfold fragmentBody
  cases found : (fragments document).find? (·.1 = fragment.1) with
  | none =>
    exact absurd (decide_eq_true rfl) (List.find?_eq_none.mp found fragment listed)
  | some other =>
    have member := List.mem_of_find?_eq_some found
    have named : other.1 = fragment.1 := by simpa using List.find?_some found
    have same := List.inj_on_of_nodup_map unique member listed named
    rw [same]
    rfl

theorem exists_fragment {name : Name} (listed : name ∈ fragmentNames document) :
    ∃ fragment ∈ fragments document, fragment.1 = name :=
  List.mem_map.mp listed

theorem closed (valid : Valid document) : ∀ name ∈ fragmentNames document,
    ∀ reference ∈ refs document name, reference ∈ fragmentNames document := by
  intro name listed reference referred
  obtain ⟨fragment, member, rfl⟩ := exists_fragment listed
  rw [refs, valid.fragmentBody_eq member] at referred
  exact valid.known _ (List.mem_append_right _ (List.mem_map_of_mem member)) reference referred

theorem falls (valid : Valid document) :
    ∃ rank, Templates.Falls (fragmentNames document) (refs document) rank := by
  obtain ⟨rank, lower⟩ := valid.acyclic
  refine ⟨rank, fun name listed reference referred => ?_⟩
  obtain ⟨fragment, member, rfl⟩ := exists_fragment listed
  rw [refs, valid.fragmentBody_eq member] at referred
  exact lower fragment member reference referred

theorem inlined_eq (valid : Valid document) {fragment : Name × SelectionSet}
    (listed : fragment ∈ fragments document) :
    inlined document fragment.1 = substitute (inlined document) fragment.2 := by
  obtain ⟨rank, falls⟩ := valid.falls
  obtain ⟨depth, deeper, below⟩ := falls.compress valid.closed
  have named : fragment.1 ∈ fragmentNames document := List.mem_map_of_mem listed
  have within := below _ named
  rw [fragmentNames, List.length_map] at within
  have depends (name : Name) (left right : ℕ)
      (same : ∀ reference ∈ refs document name,
        expansion document left reference = expansion document right reference) :
      expansion document (left + 1) name = expansion document (right + 1) name :=
    substitute_congr _ same
  have stable := deeper.stable valid.closed depends _ _ named (Nat.lt_succ_self _)
    (fragments document).length ((fragments document).length + 1) within (by omega)
  rw [inlined, stable, expansion, valid.fragmentBody_eq listed]

theorem cost_inlineDocument (valid : Valid document) :
    calculateDocumentCost (inlineDocument document) =
      operationFields document + expandedFields document := by
  have known : ∀ name ∈ operationSpreads document, name ∈ fragmentNames document := by
    intro name listed
    obtain ⟨selectionSet, member, spread⟩ := List.mem_flatMap.mp listed
    exact valid.known selectionSet (List.mem_append_left _ member) name spread
  have sizes : (operationSpreads document).map
      (Templates.size (own document) (refs document) (fragments document).length) =
      (operationSpreads document).map fun reference =>
        ((fragmentNames document).map fun target => Templates.uses (refs document) target
          (fragments document).length reference * own document target).sum := by
    apply List.map_congr_left
    intro name listed
    exact Templates.size_eq_sum_uses valid.unique valid.closed _ name (known name listed)
  have swapped := @Templates.sum_swap Name (fragmentNames document)
    (fun target => Templates.uses (refs document) target (fragments document).length)
    (own document) (operationSpreads document)
  rw [cost_inlineDocument_size, sizes, swapped]
  rfl

theorem fragmentFields_eq (valid : Valid document) :
    fragmentFields document = ((fragmentNames document).map (own document)).sum := by
  rw [fragmentFields, fragmentNames, List.map_map]
  congr 1
  apply List.map_congr_left
  intro fragment listed
  rw [Function.comp_apply, own, valid.fragmentBody_eq listed]

theorem expandedFields_le (valid : Valid document)
    (single : ∀ name ∈ fragmentNames document, uses document name ≤ 1) :
    expandedFields document ≤ fragmentFields document := by
  rw [valid.fragmentFields_eq]
  apply List.sum_le_sum
  intro name listed
  exact (Nat.mul_le_mul_right _ (single name listed)).trans_eq (Nat.one_mul _)

end Valid

/-! ### The budget -/

def Refuses (request : Request) (document : Document) : Prop :=
  graphqlComplexityLimiter (fun _ => some document) request =
    .complexityExceeded (calculateDocumentCost document) (budget request)

theorem refuses_iff {request : Request} (graphql : "/graphql".toList <:+: request.path)
    {query : List Char} (asked : request.query = some query) (nonempty : query ≠ [])
    (document : Document) :
    Refuses request document ↔ budget request < calculateDocumentCost document := by
  have kept : (request.query.filter (· ≠ [])).bind (fun _ => some document) = some document := by
    rw [asked, Option.filter_some_pos (by simpa using nonempty)]
    rfl
  unfold Refuses graphqlComplexityLimiter
  rw [if_neg (not_not_intro graphql), kept]
  simp only
  split_ifs with exceeds
  · exact iff_of_true rfl exceeds
  · exact iff_of_false (fun same => by cases same) exceeds

/-- A valid document is counted for at least what its operations cost with every spread inlined
exactly where the fields of its fragments, as often as they are used, are not more than these fields
counted once and one for a spread; and a document that uses no fragment twice is refused where its
inlined operations are. -/
theorem cost_inlined_iff {document : Document} (valid : Valid document) :
    (∀ fragment ∈ fragments document,
      inlined document fragment.1 = substitute (inlined document) fragment.2) ∧
    (∀ selectionSet ∈ operations document,
      spreads (substitute (inlined document) selectionSet) = []) ∧
    (calculateDocumentCost (inlineDocument document) ≤ calculateDocumentCost document ↔
      expandedFields document ≤ fragmentFields document + spreadCount document) ∧
    ((∀ name ∈ fragmentNames document, uses document name ≤ 1) →
      calculateDocumentCost (inlineDocument document) ≤ calculateDocumentCost document ∧
        ∀ request query, "/graphql".toList <:+: request.path → request.query = some query →
          query ≠ [] → Refuses request (inlineDocument document) → Refuses request document) := by
  have counted := calculateDocumentCost_eq document
  have expanded := valid.cost_inlineDocument
  have exact : calculateDocumentCost (inlineDocument document) ≤ calculateDocumentCost document ↔
      expandedFields document ≤ fragmentFields document + spreadCount document := by
    omega
  refine ⟨fun fragment listed => valid.inlined_eq listed, ?_, exact, ?_⟩
  · intro selectionSet _
    exact spreads_substitute selectionSet fun name _ => spreads_expansion document _ name
  · intro single
    have fewer := valid.expandedFields_le single
    have enough := exact.mpr (by omega)
    refine ⟨enough, fun request query graphql asked nonempty refuses => ?_⟩
    rw [refuses_iff graphql asked nonempty] at refuses ⊢
    omega

def singleUse : Document :=
  [.operationDefinition [.field ['u', 's', 'e', 'r'] [.fragmentSpread ['F']]],
    .fragmentDefinition ['F'] [.field ['n', 'a', 'm', 'e'] []]]

theorem cost_inlined_singleUse :
    calculateDocumentCost (inlineDocument singleUse) ≤ calculateDocumentCost singleUse := by
  have valid : Valid singleUse := by
    refine ⟨by decide, by decide, fun _ => 0, ?_⟩
    intro fragment listed name spread
    cases List.mem_singleton.mp listed
    cases spread
  exact ((cost_inlined_iff valid).2.2.2 (by decide)).1

def spreadFourTimes : Document :=
  [.operationDefinition (List.replicate 4 (.fragmentSpread ['F'])),
    .fragmentDefinition ['F']
      [.field ['u', 's', 'e', 'r', 's'] [], .field ['n', 'o', 'd', 'e', 's'] [],
        .field ['f', 'e', 'e', 'd'] []]]

/-- Inlined it is over the budget of an unauthenticated caller, as it is far below. -/
theorem spreadFourTimes_accepted :
    Valid spreadFourTimes ∧ calculateDocumentCost spreadFourTimes = 34 ∧
      calculateDocumentCost (inlineDocument spreadFourTimes) = 120 ∧
      tierComplexityBudgets .unauthenticated = 100 := by
  refine ⟨⟨by decide, by decide, fun _ => 0, ?_⟩, by decide, by decide, rfl⟩
  intro fragment listed name spread
  cases List.mem_singleton.mp listed
  cases spread

end SorobanExplorer.Indexer.GraphqlComplexity
