import SorobanExplorer.Indexer.Cursor
import SorobanExplorer.Library.JsonCanonical
import SorobanExplorer.Indexer.Signing

/-!
Owns what `JSON.parse` leaves of a tree: an object without a name twice, and of a tree without
one the same value. Canonical JSON of a JSON value is the text of its canonical tree, and any
canonical JSON can be parsed.
-/

namespace SorobanExplorer.Indexer

open Library
open Filters (JsString)

section Objects

variable {members object : List (JsString × Json)} {name : JsString} {value : Json}

theorem perm_ownOrder (members : List (JsString × Json)) : (ownOrder members).Perm members := by
  have complement : (fun member : JsString × Json => (arrayIndex? member.1).isNone) =
      fun member => !(arrayIndex? member.1).isSome := by
    funext member
    cases arrayIndex? member.1 <;> rfl
  rw [ownOrder, complement]
  exact ((List.mergeSort_perm _ _).append_right _).trans
    (List.filter_append_perm (fun member => (arrayIndex? member.1).isSome) members)

theorem names_put_of_mem (listed : name ∈ object.map Prod.fst) :
    (put object name value).map Prod.fst = object.map Prod.fst := by
  induction object with
  | nil => cases listed
  | cons member object ih =>
    rw [put]
    split
    · rfl
    · next other =>
        rw [List.map_cons, List.mem_cons] at listed
        rw [List.map_cons, List.map_cons,
          ih (listed.resolve_left (Ne.symm other))]

theorem nodup_put (distinct : (object.map Prod.fst).Nodup) :
    ((put object name value).map Prod.fst).Nodup := by
  by_cases listed : name ∈ object.map Prod.fst
  · rw [names_put_of_mem listed]
    exact distinct
  · rw [put_new listed, List.map_append, List.map_cons, List.map_nil]
    exact distinct.append (List.nodup_singleton _) (by simpa using listed)

theorem mem_put {member : JsString × Json} (listed : member ∈ put object name value) :
    member ∈ object ∨ member = (name, value) := by
  induction object with
  | nil => exact .inr (List.mem_singleton.mp listed)
  | cons first object ih =>
    rw [put] at listed
    split at listed
    · next same =>
        obtain rfl | later := List.mem_cons.mp listed
        · exact .inr (Prod.ext same rfl)
        · exact .inl (List.mem_cons_of_mem _ later)
    · obtain rfl | later := List.mem_cons.mp listed
      · exact .inl List.mem_cons_self
      · exact (ih later).imp_left (List.mem_cons_of_mem _)

theorem nodup_foldl_put (members : List (JsString × Json))
    (distinct : (object.map Prod.fst).Nodup) :
    ((members.foldl (fun object member => put object member.1 member.2) object).map
      Prod.fst).Nodup := by
  induction members generalizing object with
  | nil => exact distinct
  | cons member members ih => exact ih (nodup_put distinct)

theorem mem_foldl_put {member : JsString × Json} (listed : member ∈
    members.foldl (fun object member => put object member.1 member.2) object) :
    member ∈ object ∨ member ∈ members := by
  induction members generalizing object with
  | nil => exact .inl listed
  | cons first members ih =>
    obtain earlier | later := ih listed
    · exact (mem_put earlier).imp_right (List.mem_cons.mpr <| .inl ·)
    · exact .inr (List.mem_cons_of_mem _ later)

def ownMembers (members : List (JsString × Json)) : List (JsString × Json) :=
  ownOrder (members.foldl (fun object member => put object member.1 member.2) [])

theorem built_eq_ownMembers (members : List (JsString × Json)) :
    built (.object members) = .object (ownMembers (builtMembers members)) := rfl

theorem nodup_ownMembers : ((ownMembers members).map Prod.fst).Nodup :=
  ((perm_ownOrder _).map Prod.fst).nodup_iff.mpr (nodup_foldl_put members List.nodup_nil)

theorem mem_ownMembers {member : JsString × Json} (listed : member ∈ ownMembers members) :
    member ∈ members :=
  (mem_foldl_put ((perm_ownOrder _).mem_iff.mp listed)).resolve_left List.not_mem_nil

theorem perm_ownMembers (distinct : (members.map Prod.fst).Nodup) :
    (ownMembers members).Perm members := by
  have folded := @foldl_put members [] distinct
  rw [ownMembers, folded]
  exact perm_ownOrder members

theorem names_builtMembers (members : List (JsString × Json)) :
    (builtMembers members).map Prod.fst = members.map Prod.fst := by
  induction members with
  | nil => rfl
  | cons member members ih =>
    rw [builtMembers, List.map_cons, List.map_cons, ih]

end Objects

mutual

theorem distinct_built : ∀ tree, (built tree).Distinct
  | .null => trivial
  | .boolean _ => trivial
  | .number _ => trivial
  | .string _ => trivial
  | .array items => distinct_builtItems items
  | .object members => by
      rw [built_eq_ownMembers]
      refine ⟨nodup_ownMembers, Json.distinctMembers_iff.mpr fun member listed => ?_⟩
      exact Json.distinctMembers_iff.mp (distinct_builtMembers members) member
        (mem_ownMembers listed)

theorem distinct_builtItems : ∀ items, Json.DistinctItems (builtItems items)
  | [] => trivial
  | item :: items => ⟨distinct_built item, distinct_builtItems items⟩

theorem distinct_builtMembers : ∀ members, Json.DistinctMembers (builtMembers members)
  | [] => trivial
  | (_, value) :: members => ⟨distinct_built value, distinct_builtMembers members⟩

end

mutual

theorem finite_built : ∀ tree : Json, tree.Finite → (built tree).Finite
  | .null, _ => trivial
  | .boolean _, _ => trivial
  | .number _, finite => finite
  | .string _, _ => trivial
  | .array items, finite => finite_builtItems items finite
  | .object members, finite => by
      rw [built_eq_ownMembers]
      refine Json.finiteMembers_iff.mpr fun member listed => ?_
      exact Json.finiteMembers_iff.mp (finite_builtMembers members finite) member
        (mem_ownMembers listed)

theorem finite_builtItems : ∀ items, Json.FiniteItems items → Json.FiniteItems (builtItems items)
  | [], _ => trivial
  | item :: items, finite => ⟨finite_built item finite.1, finite_builtItems items finite.2⟩

theorem finite_builtMembers : ∀ members : List (JsString × Json), Json.FiniteMembers members →
    Json.FiniteMembers (builtMembers members)
  | [], _ => trivial
  | (_, value) :: members, finite =>
    ⟨finite_built value finite.1, finite_builtMembers members finite.2⟩

end

section Canonical

set_option linter.unusedSectionVars false

variable (le : JsString → JsString → Prop) [DecidableRel le] [IsTrans JsString le]
  [Std.Antisymm le] [Std.Total le]

mutual

theorem canonical_built : ∀ tree : Json, tree.Distinct →
    (built tree).canonical le = tree.canonical le
  | .null, _ => rfl
  | .boolean _, _ => rfl
  | .number _, _ => rfl
  | .string _, _ => rfl
  | .array items, distinct => congrArg Json.array (canonicalItems_built items distinct)
  | .object members, distinct => by
      have names : ((builtMembers members).map Prod.fst).Nodup := by
        rw [names_builtMembers]
        exact distinct.1
      have permuted : (Json.canonicalMembers le (ownMembers (builtMembers members))).Perm
          (Json.canonicalMembers le (builtMembers members)) := by
        rw [Json.canonicalMembers_eq_map, Json.canonicalMembers_eq_map]
        exact (perm_ownMembers names).map _
      rw [built_eq_ownMembers, Json.canonical, Json.canonical,
        ← canonicalMembers_built members distinct.2]
      refine congrArg Json.object (Json.byName_eq_of_perm le ?_ permuted)
      rw [Json.names_canonicalMembers]
      exact nodup_ownMembers

theorem canonicalItems_built : ∀ items : List Json, Json.DistinctItems items →
    Json.canonicalItems le (builtItems items) = Json.canonicalItems le items
  | [], _ => rfl
  | item :: items, distinct => by
      rw [builtItems, Json.canonicalItems, Json.canonicalItems, canonical_built item distinct.1,
        canonicalItems_built items distinct.2]

theorem canonicalMembers_built : ∀ members : List (JsString × Json),
    Json.DistinctMembers members →
      Json.canonicalMembers le (builtMembers members) = Json.canonicalMembers le members
  | [], _ => rfl
  | (name, value) :: members, distinct => by
      rw [builtMembers, Json.canonicalMembers, Json.canonicalMembers,
        canonical_built value distinct.1, canonicalMembers_built members distinct.2]

end

end Canonical

end SorobanExplorer.Indexer

namespace SorobanExplorer.Indexer.Signing

open Library Filters Replay

theorem stringifyMembers_eq_map (members : List (JsString × Json)) :
    Json.stringifyMembers members =
      members.map fun member => Json.quoted member.1 ++ 0x3A :: Json.stringify member.2 := by
  induction members with
  | nil => rfl
  | cons member members ih =>
    rw [Json.stringifyMembers, ih, List.map_cons]

theorem stringify_byName {members : List (JsString × Json)} {texts : List (JsString × JsString)}
    (same : texts = members.map fun member => (member.1, Json.stringify member.2)) :
    (0x7B :: Json.commaSeparated ((Json.byName TextLe texts).map fun text =>
      Json.quoted text.1 ++ 0x3A :: text.2) ++ [0x7D] : JsString) =
        Json.stringify (.object (Json.byName TextLe members)) := by
  rw [same, Json.byName_map, List.map_map, Json.stringify, stringifyMembers_eq_map]
  rfl

/-! ### JSON values -/

theorem isAbsent_ofJson (value : Json) : (Value.ofJson value).isAbsent = false := by
  cases value <;> rfl

mutual

theorem canonicalize_ofJson : ∀ value : Json, value.Finite →
    canonicalize (.ofJson value) = some (Json.stringify (value.canonical TextLe))
  | .null, _ => rfl
  | .boolean _, _ => rfl
  | .string _, _ => rfl
  | .number numeral, finite => by
      have whole : (JsNumber.ofNumeral numeral).isFinite = true := finite
      have again := Json.ofNumeral_numeral whole
      rw [Value.ofJson, canonicalize, if_pos whole, Json.canonical, Json.stringify, again,
        if_pos whole]
  | .array items, finite => by
      rw [Value.ofJson, canonicalize, canonicalizeItems_ofItems items finite]
      rfl
  | .object members, finite => by
      rw [Value.ofJson, canonicalize, canonicalizeMembers_ofMembers members finite,
        Option.map_some, Json.canonical, stringify_byName rfl]

theorem canonicalizeItems_ofItems : ∀ items : List Json, Json.FiniteItems items →
    canonicalizeItems (Value.ofItems items) =
      some (Json.stringifyItems (Json.canonicalItems TextLe items))
  | [], _ => rfl
  | item :: items, finite => by
      rw [Value.ofItems, canonicalizeItems, isAbsent_ofJson, canonicalize_ofJson item finite.1,
        canonicalizeItems_ofItems items finite.2]
      rfl

theorem canonicalizeMembers_ofMembers : ∀ members : List (JsString × Json),
    Json.FiniteMembers members →
      canonicalizeMembers (Value.ofMembers members) =
        some ((Json.canonicalMembers TextLe members).map fun member =>
          (member.1, Json.stringify member.2))
  | [], _ => rfl
  | (name, value) :: members, finite => by
      rw [Value.ofMembers, canonicalizeMembers, isAbsent_ofJson,
        canonicalize_ofJson value finite.1, canonicalizeMembers_ofMembers members finite.2]
      rfl

end

mutual

theorem finite_of_canonicalize : ∀ {value : Json} {text : JsString},
    canonicalize (.ofJson value) = some text → value.Finite
  | .null, _, _ => trivial
  | .boolean _, _, _ => trivial
  | .string _, _, _ => trivial
  | .number numeral, _, written => by
      rw [Value.ofJson, canonicalize] at written
      split at written
      · next finite => exact finite
      · cases written
  | .array items, _, written => by
      rw [Value.ofJson, canonicalize] at written
      obtain ⟨texts, each, -⟩ := Option.map_eq_some_iff.mp written
      exact finite_of_canonicalizeItems each
  | .object members, _, written => by
      rw [Value.ofJson, canonicalize] at written
      obtain ⟨texts, each, -⟩ := Option.map_eq_some_iff.mp written
      exact finite_of_canonicalizeMembers each

theorem finite_of_canonicalizeItems : ∀ {items : List Json} {texts : List JsString},
    canonicalizeItems (Value.ofItems items) = some texts → Json.FiniteItems items
  | [], _, _ => trivial
  | item :: items, _, written => by
      rw [Value.ofItems, canonicalizeItems, isAbsent_ofJson] at written
      obtain ⟨text, first, rest⟩ := Option.bind_eq_some_iff.mp written
      obtain ⟨texts, others, -⟩ := Option.bind_eq_some_iff.mp rest
      exact ⟨finite_of_canonicalize first, finite_of_canonicalizeItems others⟩

theorem finite_of_canonicalizeMembers : ∀ {members : List (JsString × Json)}
    {texts : List (JsString × JsString)},
    canonicalizeMembers (Value.ofMembers members) = some texts → Json.FiniteMembers members
  | [], _, _ => trivial
  | (name, value) :: members, _, written => by
      rw [Value.ofMembers, canonicalizeMembers, isAbsent_ofJson] at written
      obtain ⟨text, first, rest⟩ := Option.bind_eq_some_iff.mp written
      obtain ⟨texts, others, -⟩ := Option.bind_eq_some_iff.mp rest
      exact ⟨finite_of_canonicalize first, finite_of_canonicalizeMembers others⟩

end

theorem canonicalize_eq_iff {left right : Json} {text : JsString} (leftDistinct : left.Distinct)
    (rightDistinct : right.Distinct) (written : canonicalize (.ofJson left) = some text) :
    canonicalize (.ofJson right) = some text ↔ left.Same right := by
  have leftFinite := finite_of_canonicalize written
  rw [canonicalize_ofJson left leftFinite] at written
  constructor
  · intro alike
    have rightFinite := finite_of_canonicalize alike
    rw [canonicalize_ofJson right rightFinite] at alike
    refine Json.same_of_canonical_eq TextLe left right leftFinite rightFinite ?_
    exact Json.stringify_injective (Json.printed_canonical TextLe left leftFinite)
      (Json.printed_canonical TextLe right rightFinite)
      (Option.some.inj (written.trans alike.symm))
  · intro same
    rw [canonicalize_ofJson right (Json.finite_of_same left right rightDistinct same leftFinite),
      ← Json.canonical_eq_of_same TextLe left right leftDistinct rightDistinct same, written]

/-! ### Any value -/

mutual

theorem exists_tree : ∀ {value : Value} {text : JsString}, canonicalize value = some text →
    ∃ tree : Json, tree.Printed ∧ Json.stringify tree = text
  | .undefined, _, written | .function, _, written | .symbol, _, written | .nan, _, written => by
      cases written
  | .null, _, written => ⟨.null, trivial, Option.some.inj written⟩
  | .boolean value, _, written => ⟨.boolean value, trivial, Option.some.inj written⟩
  | .string units, _, written => ⟨.string units, trivial, Option.some.inj written⟩
  | .bigint value, _, written => ⟨.string (decimalText value), trivial, Option.some.inj written⟩
  | .number value, _, written => by
      rw [canonicalize] at written
      split at written
      · next finite =>
          refine ⟨.number value.numeral, Json.spelled_numeral finite, ?_⟩
          rw [Json.stringify, Json.ofNumeral_numeral finite, if_pos finite]
          exact Option.some.inj written
      · cases written
  | .date none, _, written => ⟨.null, trivial, Option.some.inj written⟩
  | .date (some time), _, written =>
    ⟨.string (Utf16.encode (IsoTime.toISOString time)), trivial, Option.some.inj written⟩
  | .encoded toJSON, _, written => exists_tree (show canonicalize toJSON = some _ from written)
  | .array items, _, written => by
      rw [canonicalize] at written
      obtain ⟨texts, each, rfl⟩ := Option.map_eq_some_iff.mp written
      obtain ⟨trees, printed, rfl⟩ := exists_items each
      exact ⟨.array trees, printed, rfl⟩
  | .object members, _, written => by
      rw [canonicalize] at written
      obtain ⟨texts, each, rfl⟩ := Option.map_eq_some_iff.mp written
      obtain ⟨trees, printed, same⟩ := exists_members each
      refine ⟨.object (Json.byName TextLe trees), ?_, (stringify_byName same).symm⟩
      exact Json.printedMembers_iff.mpr fun member listed =>
        Json.printedMembers_iff.mp printed member
          ((Json.perm_byName TextLe trees).mem_iff.mp listed)

theorem exists_items : ∀ {items : List Value} {texts : List JsString},
    canonicalizeItems items = some texts →
      ∃ trees, Json.PrintedItems trees ∧ Json.stringifyItems trees = texts
  | [], _, written => ⟨[], trivial, Option.some.inj written⟩
  | item :: items, _, written => by
      rw [canonicalizeItems] at written
      split at written
      · obtain ⟨texts, others, all⟩ :=
          (Option.bind_eq_some_iff (x := canonicalizeItems items)).mp written
        obtain ⟨trees, printed, rfl⟩ := exists_items others
        exact ⟨.null :: trees, ⟨trivial, printed⟩, Option.some.inj all⟩
      · obtain ⟨text, first, rest⟩ := Option.bind_eq_some_iff.mp written
        obtain ⟨texts, others, all⟩ := Option.bind_eq_some_iff.mp rest
        obtain ⟨trees, printed, rfl⟩ := exists_items others
        obtain ⟨tree, own, rfl⟩ := exists_tree first
        exact ⟨tree :: trees, ⟨own, printed⟩, Option.some.inj all⟩

theorem exists_members : ∀ {members : List (JsString × Value)}
    {texts : List (JsString × JsString)}, canonicalizeMembers members = some texts →
      ∃ trees, Json.PrintedMembers trees ∧
        texts = trees.map fun member => (member.1, Json.stringify member.2)
  | [], _, written => ⟨[], trivial, (Option.some.inj written).symm⟩
  | (name, value) :: members, _, written => by
      rw [canonicalizeMembers] at written
      split at written
      · exact exists_members written
      · obtain ⟨text, first, rest⟩ := Option.bind_eq_some_iff.mp written
        obtain ⟨texts, others, all⟩ := Option.bind_eq_some_iff.mp rest
        obtain ⟨trees, printed, rfl⟩ := exists_members others
        obtain ⟨tree, own, rfl⟩ := exists_tree first
        cases Option.some.inj all
        exact ⟨(name, tree) :: trees, ⟨own, printed⟩, rfl⟩

end

theorem parse?_of_printed {tree : Json} (printed : tree.Printed) :
    parse? (Json.stringify tree) = some (built tree) := by
  obtain ⟨text, wrote, read⟩ := Json.parse?_stringify printed
  rw [parse?, wrote, Utf16.decode_encode, read, Option.map_some]

theorem parse?_stringify (value : Json) :
    parse? (Json.stringify value) = some (built value.written) := by
  rw [← Json.stringify_written]
  exact parse?_of_printed (Json.printed_written value)

theorem exists_parse? {value : Value} {text : JsString} (written : canonicalize value = some text) :
    ∃ tree, parse? text = some tree ∧ tree.Distinct ∧ tree.Finite := by
  obtain ⟨tree, printed, rfl⟩ := exists_tree written
  exact ⟨built tree, parse?_of_printed printed, distinct_built tree,
    finite_built tree (Json.finite_of_printed tree printed)⟩

theorem utf8_injective {left right : Value} {leftText rightText : JsString}
    (leftWritten : canonicalize left = some leftText)
    (rightWritten : canonicalize right = some rightText)
    (same : utf8 leftText = utf8 rightText) : leftText = rightText := by
  obtain ⟨leftTree, leftPrinted, rfl⟩ := exists_tree leftWritten
  obtain ⟨rightTree, rightPrinted, rfl⟩ := exists_tree rightWritten
  obtain ⟨leftChars, leftWrote, -⟩ := Json.parse?_stringify leftPrinted
  obtain ⟨rightChars, rightWrote, -⟩ := Json.parse?_stringify rightPrinted
  rw [leftWrote, rightWrote, utf8, utf8, Utf16.decode_encode, Utf16.decode_encode] at same
  have chars := congrArg Utf8.decode same
  rw [Utf8.decode_encode, Utf8.decode_encode] at chars
  rw [leftWrote, rightWrote, chars]

end SorobanExplorer.Indexer.Signing
