import Mathlib.Data.List.Sort
import SorobanExplorer.Library.JsonWritten

/-!
Owns JSON values up to the order of their members: when two trees say the same, and the
canonical tree, whose members stand in a given order of names.
-/

namespace SorobanExplorer.Library.Json

/-! ### Values -/

mutual

def Distinct : Json → Prop
  | .array items => DistinctItems items
  | .object members => (members.map Prod.fst).Nodup ∧ DistinctMembers members
  | _ => True

def DistinctItems : List Json → Prop
  | [] => True
  | item :: items => Distinct item ∧ DistinctItems items

def DistinctMembers : List (List UInt16 × Json) → Prop
  | [] => True
  | (_, value) :: members => Distinct value ∧ DistinctMembers members

end

mutual

def Same : Json → Json → Prop
  | .null, .null => True
  | .boolean left, .boolean right => left = right
  | .number left, .number right => JsNumber.ofNumeral left = JsNumber.ofNumeral right
  | .string left, .string right => left = right
  | .array left, .array right => SameItems left right
  | .object left, .object right =>
    SameMembers left right ∧ ∀ name ∈ right.map Prod.fst, name ∈ left.map Prod.fst
  | _, _ => False

def SameItems : List Json → List Json → Prop
  | [], [] => True
  | left :: lefts, right :: rights => Same left right ∧ SameItems lefts rights
  | _, _ => False

def SameMembers : List (List UInt16 × Json) → List (List UInt16 × Json) → Prop
  | [], _ => True
  | (name, left) :: lefts, rights =>
    (∃ right, (name, right) ∈ rights ∧ Same left right) ∧ SameMembers lefts rights

end

section Members

variable {members : List (List UInt16 × Json)} {name : List UInt16} {value : Json}

theorem distinctMembers_iff :
    DistinctMembers members ↔ ∀ member ∈ members, Distinct member.2 := by
  induction members with
  | nil => simp [DistinctMembers]
  | cons member members ih =>
    rw [DistinctMembers, ih, List.forall_mem_cons]

theorem finiteMembers_iff : FiniteMembers members ↔ ∀ member ∈ members, Finite member.2 := by
  induction members with
  | nil => simp [FiniteMembers]
  | cons member members ih =>
    rw [FiniteMembers, ih, List.forall_mem_cons]

theorem printedMembers_iff : PrintedMembers members ↔ ∀ member ∈ members, Printed member.2 := by
  induction members with
  | nil => simp [PrintedMembers]
  | cons member members ih =>
    rw [PrintedMembers, ih, List.forall_mem_cons]

theorem sameMembers_iff {lefts rights : List (List UInt16 × Json)} : SameMembers lefts rights ↔
    ∀ left ∈ lefts, ∃ right, (left.1, right) ∈ rights ∧ Same left.2 right := by
  induction lefts with
  | nil => simp [SameMembers]
  | cons left lefts ih =>
    rw [SameMembers, ih, List.forall_mem_cons]

theorem lookup_eq_none_iff : lookup members name = none ↔ name ∉ members.map Prod.fst := by
  induction members with
  | nil => simp [lookup]
  | cons member members ih =>
    rw [lookup, List.map_cons, List.mem_cons, not_or, ← ih]
    cases lookup members name with
    | some later => simp
    | none =>
      by_cases same : member.1 = name
      · simp [same]
      · simp [same, Ne.symm same]

theorem mem_of_lookup (found : lookup members name = some value) : (name, value) ∈ members := by
  induction members with
  | nil => cases found
  | cons member members ih =>
    rw [lookup] at found
    cases later : lookup members name with
    | some other =>
      rw [later] at found
      exact List.mem_cons_of_mem _ (ih (later.trans found))
    | none =>
      rw [later] at found
      by_cases same : member.1 = name
      · simp only [same, if_true, Option.some.injEq] at found
        exact List.mem_cons.mpr (.inl (Prod.ext same.symm found.symm))
      · simp [same] at found

theorem lookup_eq_some_iff (distinct : (members.map Prod.fst).Nodup) :
    lookup members name = some value ↔ (name, value) ∈ members := by
  constructor
  · exact mem_of_lookup
  · intro listed
    cases found : lookup members name with
    | none =>
      exact absurd (List.mem_map_of_mem listed) (lookup_eq_none_iff.mp found)
    | some other =>
      have same : (name, other) = (name, value) :=
        List.inj_on_of_nodup_map distinct (mem_of_lookup found) listed rfl
      rw [(Prod.mk.inj same).2]

end Members

mutual

theorem finite_of_printed : ∀ value, Printed value → Finite value
  | .null, _ => trivial
  | .boolean _, _ => trivial
  | .string _, _ => trivial
  | .number _, printed => printed.1
  | .array items, printed => finiteItems_of_printed items printed
  | .object members, printed => finiteMembers_of_printed members printed

theorem finiteItems_of_printed : ∀ items, PrintedItems items → FiniteItems items
  | [], _ => trivial
  | item :: items, printed =>
    ⟨finite_of_printed item printed.1, finiteItems_of_printed items printed.2⟩

theorem finiteMembers_of_printed : ∀ members, PrintedMembers members → FiniteMembers members
  | [], _ => trivial
  | (_, value) :: members, printed =>
    ⟨finite_of_printed value printed.1, finiteMembers_of_printed members printed.2⟩

end

mutual

theorem finite_of_same : ∀ left right, Distinct right → Same left right → Finite left →
    Finite right
  | .null, right, _, same, _ => by
      cases right with
      | null => trivial
      | boolean | number | string | array | object => cases same
  | .boolean _, right, _, same, _ => by
      cases right with
      | boolean => trivial
      | null | number | string | array | object => cases same
  | .number left, right, _, same, finite => by
      cases right with
      | number right =>
        have value : JsNumber.ofNumeral left = JsNumber.ofNumeral right := same
        rw [Finite, ← value]
        exact finite
      | null | boolean | string | array | object => cases same
  | .string _, right, _, same, _ => by
      cases right with
      | string => trivial
      | null | boolean | number | array | object => cases same
  | .array lefts, right, distinct, same, finite => by
      cases right with
      | array rights => exact finiteItems_of_same lefts rights distinct same finite
      | null | boolean | number | string | object => cases same
  | .object lefts, right, distinct, same, finite => by
      cases right with
      | object rights =>
        refine finiteMembers_iff.mpr fun member listed => ?_
        obtain ⟨other, own, sameName⟩ := List.mem_map.mp
          (same.2 member.1 (List.mem_map_of_mem listed))
        obtain ⟨right, among, whole⟩ :=
          finite_of_sameMembers lefts rights distinct.2 same.1 finite other own
        have only := List.inj_on_of_nodup_map distinct.1 among listed sameName
        exact only ▸ whole
      | null | boolean | number | string | array => cases same

theorem finiteItems_of_same : ∀ lefts rights, DistinctItems rights → SameItems lefts rights →
    FiniteItems lefts → FiniteItems rights
  | [], [], _, _, _ => trivial
  | [], _ :: _, _, same, _ => by cases same
  | _ :: _, [], _, same, _ => by cases same
  | left :: lefts, right :: rights, distinct, same, finite =>
    ⟨finite_of_same left right distinct.1 same.1 finite.1,
      finiteItems_of_same lefts rights distinct.2 same.2 finite.2⟩

theorem finite_of_sameMembers : ∀ lefts rights, DistinctMembers rights →
    SameMembers lefts rights → FiniteMembers lefts →
      ∀ member ∈ lefts, ∃ right, (member.1, right) ∈ rights ∧ Finite right
  | [], _, _, _, _, _, listed => by cases listed
  | (name, left) :: lefts, rights, distinct, same, finite, member, listed => by
      obtain rfl | later := List.mem_cons.mp listed
      · obtain ⟨right, among, equal⟩ := same.1
        exact ⟨right, among, finite_of_same left right (distinctMembers_iff.mp distinct _ among)
          equal finite.1⟩
      · exact finite_of_sameMembers lefts rights distinct same.2 finite.2 member later

end

theorem names_writtenMembers (members : List (List UInt16 × Json)) :
    (writtenMembers members).map Prod.fst = members.map Prod.fst := by
  induction members with
  | nil => rfl
  | cons member members ih =>
    rw [writtenMembers, List.map_cons, List.map_cons, ih]

mutual

theorem distinct_written : ∀ value, Distinct value → Distinct (written value)
  | .null, _ => trivial
  | .boolean _, _ => trivial
  | .string _, _ => trivial
  | .number numeral, _ => by
      rw [written]
      split <;> trivial
  | .array items, distinct => distinctItems_written items distinct
  | .object members, distinct => by
      refine ⟨?_, distinctMembers_written members distinct.2⟩
      rw [names_writtenMembers]
      exact distinct.1

theorem distinctItems_written : ∀ items, DistinctItems items → DistinctItems (writtenItems items)
  | [], _ => trivial
  | item :: items, distinct =>
    ⟨distinct_written item distinct.1, distinctItems_written items distinct.2⟩

theorem distinctMembers_written : ∀ members, DistinctMembers members →
    DistinctMembers (writtenMembers members)
  | [], _ => trivial
  | (_, value) :: members, distinct =>
    ⟨distinct_written value distinct.1, distinctMembers_written members distinct.2⟩

end

/-! ### Order of names -/

section ByName

variable (le : List UInt16 → List UInt16 → Prop) [DecidableRel le] {α β : Type}

def byName (members : List (List UInt16 × α)) : List (List UInt16 × α) :=
  members.insertionSort fun left right => le left.1 right.1

theorem perm_byName (members : List (List UInt16 × α)) : (byName le members).Perm members :=
  List.perm_insertionSort _ members

theorem byName_map (members : List (List UInt16 × α)) (change : α → β) :
    byName le (members.map fun member => (member.1, change member.2)) =
      (byName le members).map fun member => (member.1, change member.2) := by
  rw [byName, byName]
  symm
  apply List.map_insertionSort
  intro left _ right _
  exact Iff.rfl

theorem byName_eq_of_perm [IsTrans (List UInt16) le] [Std.Antisymm le] [Std.Total le]
    {members others : List (List UInt16 × α)} (distinct : (members.map Prod.fst).Nodup)
    (permuted : members.Perm others) : byName le members = byName le others := by
  have transitive : IsTrans (List UInt16 × α) fun left right => le left.1 right.1 :=
    ⟨fun _ _ _ below above => IsTrans.trans _ _ _ below above⟩
  have total : Std.Total fun left right : List UInt16 × α => le left.1 right.1 :=
    ⟨fun left right => Std.Total.total left.1 right.1⟩
  refine List.Perm.eq_of_pairwise (fun left right among member below above => ?_)
    (List.pairwise_insertionSort _ members) (List.pairwise_insertionSort _ others)
    ((perm_byName le members).trans (permuted.trans (perm_byName le others).symm))
  refine List.inj_on_of_nodup_map distinct ((perm_byName le members).mem_iff.mp among)
    (permuted.symm.mem_iff.mp ((perm_byName le others).mem_iff.mp member)) ?_
  exact Std.Antisymm.antisymm _ _ below above

end ByName

/-! ### The canonical tree -/

section Canonical

variable (le : List UInt16 → List UInt16 → Prop) [DecidableRel le]

mutual

def canonical : Json → Json
  | .number numeral => .number (JsNumber.ofNumeral numeral).numeral
  | .array items => .array (canonicalItems items)
  | .object members => .object (byName le (canonicalMembers members))
  | .null => .null
  | .boolean value => .boolean value
  | .string units => .string units

def canonicalItems : List Json → List Json
  | [] => []
  | item :: items => canonical item :: canonicalItems items

def canonicalMembers : List (List UInt16 × Json) → List (List UInt16 × Json)
  | [] => []
  | (name, value) :: members => (name, canonical value) :: canonicalMembers members

end

theorem canonicalMembers_eq_map (members : List (List UInt16 × Json)) :
    canonicalMembers le members = members.map fun member => (member.1, canonical le member.2) := by
  induction members with
  | nil => rfl
  | cons member members ih =>
    rw [canonicalMembers, ih, List.map_cons]

theorem names_canonicalMembers (members : List (List UInt16 × Json)) :
    (canonicalMembers le members).map Prod.fst = members.map Prod.fst := by
  rw [canonicalMembers_eq_map, List.map_map]
  rfl

theorem mem_canonicalMembers {members : List (List UInt16 × Json)} {name : List UInt16}
    {json : Json} : (name, json) ∈ canonicalMembers le members ↔
      ∃ value, (name, value) ∈ members ∧ canonical le value = json := by
  rw [canonicalMembers_eq_map, List.mem_map]
  constructor
  · rintro ⟨⟨own, value⟩, listed, same⟩
    obtain ⟨rfl, rfl⟩ := Prod.mk.inj same
    exact ⟨value, listed, rfl⟩
  · rintro ⟨value, listed, rfl⟩
    exact ⟨(name, value), listed, rfl⟩

mutual

theorem printed_canonical : ∀ value, Finite value → Printed (canonical le value)
  | .null, _ => trivial
  | .boolean _, _ => trivial
  | .string _, _ => trivial
  | .number _, finite => spelled_numeral finite
  | .array items, finite => printedItems_canonicalItems items finite
  | .object members, finite => by
      rw [canonical, Printed, printedMembers_iff]
      intro member listed
      exact printedMembers_iff.mp (printedMembers_canonicalMembers members finite) member
        ((perm_byName le _).mem_iff.mp listed)

theorem printedItems_canonicalItems : ∀ items, FiniteItems items →
    PrintedItems (canonicalItems le items)
  | [], _ => trivial
  | item :: items, finite =>
    ⟨printed_canonical item finite.1, printedItems_canonicalItems items finite.2⟩

theorem printedMembers_canonicalMembers : ∀ members, FiniteMembers members →
    PrintedMembers (canonicalMembers le members)
  | [], _ => trivial
  | (_, value) :: members, finite =>
    ⟨printed_canonical value finite.1, printedMembers_canonicalMembers members finite.2⟩

end

mutual

theorem canonical_written : ∀ value, Finite value →
    canonical le (written value) = canonical le value
  | .null, _ => rfl
  | .boolean _, _ => rfl
  | .string _, _ => rfl
  | .number numeral, finite => by
      have whole : (JsNumber.ofNumeral numeral).isFinite = true := finite
      rw [written, if_pos whole, canonical, canonical, ofNumeral_numeral whole]
  | .array items, finite => by
      rw [written, canonical, canonical, canonicalItems_written items finite]
  | .object members, finite => by
      rw [written, canonical, canonical, canonicalMembers_written members finite]

theorem canonicalItems_written : ∀ items, FiniteItems items →
    canonicalItems le (writtenItems items) = canonicalItems le items
  | [], _ => rfl
  | item :: items, finite => by
      rw [writtenItems, canonicalItems, canonicalItems, canonical_written item finite.1,
        canonicalItems_written items finite.2]

theorem canonicalMembers_written : ∀ members, FiniteMembers members →
    canonicalMembers le (writtenMembers members) = canonicalMembers le members
  | [], _ => rfl
  | (name, value) :: members, finite => by
      rw [writtenMembers, canonicalMembers, canonicalMembers, canonical_written value finite.1,
        canonicalMembers_written members finite.2]

end

/-! ### What the canonical tree says -/

mutual

theorem same_of_canonical_eq : ∀ left right, Finite left → Finite right →
    canonical le left = canonical le right → Same left right
  | .null, right, _, _, same => by
      cases right with
      | null => trivial
      | boolean | number | string | array | object => cases same
  | .boolean _, right, _, _, same => by
      cases right with
      | boolean => exact Json.boolean.inj same
      | null | number | string | array | object => cases same
  | .number left, right, leftFinite, rightFinite, same => by
      cases right with
      | number right =>
        have value := congrArg JsNumber.ofNumeral (Json.number.inj same)
        rw [ofNumeral_numeral leftFinite, ofNumeral_numeral rightFinite] at value
        exact value
      | null | boolean | string | array | object => cases same
  | .string _, right, _, _, same => by
      cases right with
      | string => exact Json.string.inj same
      | null | boolean | number | array | object => cases same
  | .array lefts, right, leftFinite, rightFinite, same => by
      cases right with
      | array rights =>
        exact sameItems_of_canonical_eq lefts rights leftFinite rightFinite (Json.array.inj same)
      | null | boolean | number | string | object => cases same
  | .object lefts, right, leftFinite, rightFinite, same => by
      cases right with
      | object rights =>
        have permuted : (canonicalMembers le lefts).Perm (canonicalMembers le rights) :=
          (perm_byName le _).symm.trans
            ((List.Perm.of_eq (Json.object.inj same)).trans (perm_byName le _))
        have names := permuted.map Prod.fst
        rw [names_canonicalMembers, names_canonicalMembers] at names
        exact ⟨sameMembers_of_canonical lefts rights leftFinite rightFinite
          fun _ listed => permuted.mem_iff.mp listed, fun _ listed => names.mem_iff.mpr listed⟩
      | null | boolean | number | string | array => cases same

theorem sameItems_of_canonical_eq : ∀ lefts rights, FiniteItems lefts → FiniteItems rights →
    canonicalItems le lefts = canonicalItems le rights → SameItems lefts rights
  | [], [], _, _, _ => trivial
  | [], _ :: _, _, _, same => by cases same
  | _ :: _, [], _, _, same => by cases same
  | left :: lefts, right :: rights, leftFinite, rightFinite, same => by
      obtain ⟨first, rest⟩ := List.cons.inj same
      exact ⟨same_of_canonical_eq left right leftFinite.1 rightFinite.1 first,
        sameItems_of_canonical_eq lefts rights leftFinite.2 rightFinite.2 rest⟩

theorem sameMembers_of_canonical : ∀ lefts rights, FiniteMembers lefts → FiniteMembers rights →
    (∀ member ∈ canonicalMembers le lefts, member ∈ canonicalMembers le rights) →
      SameMembers lefts rights
  | [], _, _, _, _ => trivial
  | (name, left) :: lefts, rights, leftFinite, rightFinite, among => by
      obtain ⟨right, listed, same⟩ :=
        (mem_canonicalMembers le).mp (among (name, canonical le left) List.mem_cons_self)
      have finite := finiteMembers_iff.mp rightFinite _ listed
      exact ⟨⟨right, listed, same_of_canonical_eq left right leftFinite.1 finite same.symm⟩,
        sameMembers_of_canonical lefts rights leftFinite.2 rightFinite
          fun member other => among member (List.mem_cons_of_mem _ other)⟩

end

section Sorted

set_option linter.unusedSectionVars false

variable [IsTrans (List UInt16) le] [Std.Antisymm le] [Std.Total le]

mutual

theorem canonical_eq_of_same : ∀ left right, Distinct left → Distinct right → Same left right →
    canonical le left = canonical le right
  | .null, right, _, _, same => by
      cases right with
      | null => rfl
      | boolean | number | string | array | object => cases same
  | .boolean left, right, _, _, same => by
      cases right with
      | boolean right => exact congrArg Json.boolean same
      | null | number | string | array | object => cases same
  | .number left, right, _, _, same => by
      cases right with
      | number right =>
        exact congrArg (fun number : JsNumber => Json.number number.numeral) same
      | null | boolean | string | array | object => cases same
  | .string left, right, _, _, same => by
      cases right with
      | string right => exact congrArg Json.string same
      | null | boolean | number | array | object => cases same
  | .array lefts, right, leftDistinct, rightDistinct, same => by
      cases right with
      | array rights =>
        exact congrArg Json.array
          (canonicalItems_eq_of_same lefts rights leftDistinct rightDistinct same)
      | null | boolean | number | string | object => cases same
  | .object lefts, right, leftDistinct, rightDistinct, same => by
      cases right with
      | object rights =>
        have forth := canonicalMembers_subset_of_same lefts rights leftDistinct.2
          rightDistinct.2 same.1
        have leftNames : ((canonicalMembers le lefts).map Prod.fst).Nodup := by
          rw [names_canonicalMembers]
          exact leftDistinct.1
        have rightNames : ((canonicalMembers le rights).map Prod.fst).Nodup := by
          rw [names_canonicalMembers]
          exact rightDistinct.1
        refine congrArg Json.object (byName_eq_of_perm le leftNames ?_)
        refine (List.perm_ext_iff_of_nodup leftNames.of_map rightNames.of_map).mpr
          fun member => ⟨forth member, fun listed => ?_⟩
        -- The left object has a member of that name, which is a member on the right.
        have named : member.1 ∈ (canonicalMembers le lefts).map Prod.fst := by
          rw [names_canonicalMembers]
          apply same.2
          rw [← names_canonicalMembers le]
          exact List.mem_map_of_mem listed
        obtain ⟨other, own, sameName⟩ := List.mem_map.mp named
        have only := List.inj_on_of_nodup_map rightNames (forth other own) listed sameName
        exact only ▸ own
      | null | boolean | number | string | array => cases same

theorem canonicalItems_eq_of_same : ∀ lefts rights, DistinctItems lefts → DistinctItems rights →
    SameItems lefts rights → canonicalItems le lefts = canonicalItems le rights
  | [], [], _, _, _ => rfl
  | [], _ :: _, _, _, same => by cases same
  | _ :: _, [], _, _, same => by cases same
  | left :: lefts, right :: rights, leftDistinct, rightDistinct, same => by
      rw [canonicalItems, canonicalItems,
        canonical_eq_of_same left right leftDistinct.1 rightDistinct.1 same.1,
        canonicalItems_eq_of_same lefts rights leftDistinct.2 rightDistinct.2 same.2]

theorem canonicalMembers_subset_of_same : ∀ lefts rights, DistinctMembers lefts →
    DistinctMembers rights → SameMembers lefts rights →
      ∀ member ∈ canonicalMembers le lefts, member ∈ canonicalMembers le rights
  | [], _, _, _, _, _, listed => by cases listed
  | (name, left) :: lefts, rights, leftDistinct, rightDistinct, same, member, listed => by
      obtain rfl | later := List.mem_cons.mp listed
      · obtain ⟨right, among, equal⟩ := same.1
        have distinct := distinctMembers_iff.mp rightDistinct _ among
        exact (mem_canonicalMembers le).mpr
          ⟨right, among, (canonical_eq_of_same left right leftDistinct.1 distinct equal).symm⟩
      · exact canonicalMembers_subset_of_same lefts rights leftDistinct.2 rightDistinct same.2
          member later

end

end Sorted

end Canonical

end SorobanExplorer.Library.Json
