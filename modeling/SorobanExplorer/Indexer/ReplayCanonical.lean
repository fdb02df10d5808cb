import Mathlib.Data.List.Sort
import SorobanExplorer.Filters.JsValue
import SorobanExplorer.Library.JsonCanonical
import SorobanExplorer.Library.JsonLines
import SorobanExplorer.Library.OrderedMap

/-!
Owns the canonical form of replayed rows: `canonicalize`, `canonicalJson`, the key of a row and
the digest of a list of rows.

`meaning` is what a value stands for, whatever the order of its keys and the way it is
represented. `canonicalize_eq` says what the canonical form leaves of it.
-/

namespace SorobanExplorer.Indexer

open Library Filters

namespace Replay

/-! ### Values -/

inductive Value where
  | undefined
  | null
  | boolean (value : Bool)
  | number (value : JsNumber)
  | nan
  | bigint (value : ℤ)
  | string (units : JsString)
  | bytes (bytes : List UInt8)
  | date (time : Option ℤ)
  | array (items : List Value)
  | object (members : List (JsString × Value))

def arrayIndex? (key : JsString) : Option ℕ :=
  (JsValue.index? key).filter (· < 2 ^ 32 - 1)

def TextLe (left right : JsString) : Prop := (compare left right).isLE = true

instance : DecidableRel TextLe := fun left right =>
  inferInstanceAs (Decidable ((compare left right).isLE = true))

def IndexLt : Option ℕ → Option ℕ → Prop
  | some first, some second => first < second
  | some _, none => True
  | none, _ => False

instance : DecidableRel IndexLt
  | some first, some second => inferInstanceAs (Decidable (first < second))
  | some _, none => inferInstanceAs (Decidable True)
  | none, _ => inferInstanceAs (Decidable False)

/-- The order that sorted keys have in the object that `Object.fromEntries` makes of them. No
two keys share an array index. -/
def KeyLe (left right : JsString) : Prop :=
  IndexLt (arrayIndex? left) (arrayIndex? right) ∨
    arrayIndex? left = arrayIndex? right ∧ TextLe left right

instance : DecidableRel KeyLe := fun left right =>
  inferInstanceAs (Decidable (IndexLt (arrayIndex? left) (arrayIndex? right) ∨
    arrayIndex? left = arrayIndex? right ∧ TextLe left right))

def keyOrder {α : Type} (members : List (JsString × α)) : List (JsString × α) :=
  members.insertionSort fun left right => KeyLe left.1 right.1

def decimalText (value : ℤ) : JsString := Utf16.encode (Numeral.ofInt value).text

def hexText (bytes : List UInt8) : JsString := Utf16.encode (Hex.encode bytes)

/-- `JSON.stringify` writes a number that is not finite as `null`. -/
def numberJson (value : JsNumber) : Json :=
  if value.isFinite then .number value.numeral else .null

mutual

/-- The canonical value, as `JSON.stringify` sees it. A date is an object without keys of its
own. -/
def canonicalize : Value → Json
  | .undefined => .null
  | .null => .null
  | .boolean value => .boolean value
  | .number value => numberJson value
  | .nan => .null
  | .bigint value => .string (decimalText value)
  | .string units => .string units
  | .bytes bytes => .string (hexText bytes)
  | .date _ => .object []
  | .array items => .array (canonicalizeItems items)
  | .object members => .object (keyOrder (canonicalizeMembers members))

def canonicalizeItems : List Value → List Json
  | [] => []
  | item :: items => canonicalize item :: canonicalizeItems items

def canonicalizeMembers : List (JsString × Value) → List (JsString × Json)
  | [] => []
  | (name, value) :: members => (name, canonicalize value) :: canonicalizeMembers members

end

def canonicalJson (value : Value) : JsString := Json.stringify (canonicalize value)

/-! ### Rows -/

abbrev Column := { name : JsString // JsValue.inherited name = false }

abbrev Row := OrderedMap Column Value

/-- `row[column]` -/
def Row.read (row : Row) (column : Column) : Value := (row.get column).getD .undefined

def Row.toValue (row : Row) : Value :=
  .object (row.entries.map fun entry => (entry.1.val, entry.2))

def rowKey (keys : List Column) (row : Row) : JsString :=
  (js "|").intercalate (keys.map fun key => key.val ++ js "=" ++ canonicalJson (row.read key))

def rowLine (row : Row) : JsString := canonicalJson row.toValue

def payload (rows : List Row) : JsString :=
  [0x0A].intercalate ((rows.map rowLine).insertionSort TextLe)

def digestRows {Digest : Type} (sha256 : JsString → Digest) (rows : List Row) : Digest :=
  sha256 (payload rows)

/-! ### Meanings -/

inductive Meaning where
  | null
  | boolean (value : Bool)
  | number (value : JsNumber)
  | nan
  | text (units : JsString)
  | date (time : Option ℤ)
  | array (items : List Meaning)
  | object (members : List (JsString × Meaning))

mutual

/-- A big integer stands for its digits, bytes for their hexadecimal digits, and `undefined` for
`null`. -/
def meaning : Value → Meaning
  | .undefined => .null
  | .null => .null
  | .boolean value => .boolean value
  | .number value => .number value
  | .nan => .nan
  | .bigint value => .text (decimalText value)
  | .string units => .text units
  | .bytes bytes => .text (hexText bytes)
  | .date time => .date time
  | .array items => .array (meaningItems items)
  | .object members => .object (keyOrder (meaningMembers members))

def meaningItems : List Value → List Meaning
  | [] => []
  | item :: items => meaning item :: meaningItems items

def meaningMembers : List (JsString × Value) → List (JsString × Meaning)
  | [] => []
  | (name, value) :: members => (name, meaning value) :: meaningMembers members

end

mutual

def blur : Meaning → Json
  | .null => .null
  | .boolean value => .boolean value
  | .number value => numberJson value
  | .nan => .null
  | .text units => .string units
  | .date _ => .object []
  | .array items => .array (blurItems items)
  | .object members => .object (blurMembers members)

def blurItems : List Meaning → List Json
  | [] => []
  | item :: items => blur item :: blurItems items

def blurMembers : List (JsString × Meaning) → List (JsString × Json)
  | [] => []
  | (name, value) :: members => (name, blur value) :: blurMembers members

end

/-! ### Orders -/

section Orders

variable {first second third : JsString}

theorem TextLe.trans (left : TextLe first second) (right : TextLe second third) :
    TextLe first third :=
  Std.TransCmp.isLE_trans left right

theorem TextLe.antisymm (left : TextLe first second) (right : TextLe second first) :
    first = second :=
  Std.LawfulEqCmp.eq_of_compare (Std.OrientedCmp.isLE_antisymm left right)

theorem TextLe.total (first second : JsString) : TextLe first second ∨ TextLe second first := by
  have swapped : compare first second = (compare second first).swap := Std.OrientedCmp.eq_swap
  rw [TextLe, TextLe, swapped]
  cases compare second first with
  | lt => exact Or.inr rfl
  | eq => exact Or.inl rfl
  | gt => exact Or.inl rfl

instance : IsTrans JsString TextLe := ⟨fun _ _ _ => TextLe.trans⟩

instance : Std.Antisymm TextLe := ⟨fun _ _ => TextLe.antisymm⟩

instance : Std.Total TextLe := ⟨TextLe.total⟩

theorem IndexLt.trans : ∀ {first second third : Option ℕ},
    IndexLt first second → IndexLt second third → IndexLt first third
  | some _, some _, some _, below, above => Nat.lt_trans below above
  | some _, _, none, _, _ => trivial
  | some _, none, some _, _, above => above.elim
  | none, _, _, below, _ => below.elim

theorem IndexLt.irrefl : ∀ {index : Option ℕ}, ¬ IndexLt index index
  | some _ => Nat.lt_irrefl _
  | none => id

theorem IndexLt.trichotomous : ∀ first second : Option ℕ,
    IndexLt first second ∨ first = second ∨ IndexLt second first
  | some first, some second => by
      rcases Nat.lt_trichotomy first second with below | same | above
      · exact Or.inl below
      · exact Or.inr (Or.inl (congrArg some same))
      · exact Or.inr (Or.inr above)
  | some _, none => Or.inl trivial
  | none, some _ => Or.inr (Or.inr trivial)
  | none, none => Or.inr (Or.inl rfl)

theorem KeyLe.trans (left : KeyLe first second) (right : KeyLe second third) :
    KeyLe first third := by
  rcases left with below | ⟨same, left⟩
  · rcases right with above | ⟨same, -⟩
    · exact Or.inl (below.trans above)
    · exact Or.inl (same ▸ below)
  · rcases right with above | ⟨equal, right⟩
    · exact Or.inl (same ▸ above)
    · exact Or.inr ⟨same.trans equal, left.trans right⟩

theorem KeyLe.antisymm (left : KeyLe first second) (right : KeyLe second first) :
    first = second := by
  rcases left with below | ⟨same, left⟩
  · rcases right with above | ⟨same, -⟩
    · exact absurd (below.trans above) IndexLt.irrefl
    · exact absurd (same ▸ below) IndexLt.irrefl
  · rcases right with above | ⟨-, right⟩
    · exact absurd (same ▸ above) IndexLt.irrefl
    · exact left.antisymm right

theorem KeyLe.total (first second : JsString) : KeyLe first second ∨ KeyLe second first := by
  rcases IndexLt.trichotomous (arrayIndex? first) (arrayIndex? second) with below | same | above
  · exact Or.inl (Or.inl below)
  · exact (TextLe.total first second).imp (fun le => Or.inr ⟨same, le⟩)
      fun le => Or.inr ⟨same.symm, le⟩
  · exact Or.inr (Or.inl above)

theorem sorted_eq_iff {left right : List JsString} :
    left.insertionSort TextLe = right.insertionSort TextLe ↔ left.Perm right := by
  constructor
  · intro same
    exact (List.perm_insertionSort TextLe left).symm.trans
      (same ▸ List.perm_insertionSort TextLe right)
  · intro permuted
    refine List.Perm.eq_of_pairwise (fun _ _ _ _ => TextLe.antisymm)
      (List.pairwise_insertionSort TextLe left) (List.pairwise_insertionSort TextLe right) ?_
    exact (List.perm_insertionSort TextLe left).trans
      (permuted.trans (List.perm_insertionSort TextLe right).symm)

end Orders

/-! ### Members -/

section Members

variable {α β : Type} {members others : List (JsString × α)}

instance : IsTrans JsString KeyLe := ⟨fun _ _ _ => KeyLe.trans⟩

instance : Std.Antisymm KeyLe := ⟨fun _ _ => KeyLe.antisymm⟩

instance : Std.Total KeyLe := ⟨KeyLe.total⟩

theorem perm_keyOrder (members : List (JsString × α)) : (keyOrder members).Perm members :=
  Json.perm_byName KeyLe members

theorem keyOrder_eq_of_perm (distinct : (members.map Prod.fst).Nodup)
    (permuted : members.Perm others) : keyOrder members = keyOrder others :=
  Json.byName_eq_of_perm KeyLe distinct permuted

theorem keyOrder_map (change : α → β) :
    keyOrder (members.map fun member => (member.1, change member.2)) =
      (keyOrder members).map fun member => (member.1, change member.2) :=
  Json.byName_map KeyLe members change

end Members

/-! ### Canonical values -/

theorem canonicalizeMembers_eq_map (members : List (JsString × Value)) :
    canonicalizeMembers members = members.map fun member => (member.1, canonicalize member.2) := by
  induction members with
  | nil => rfl
  | cons member members ih =>
    rw [canonicalizeMembers, ih, List.map_cons]

/-- The order in which an object has its keys does not matter. -/
theorem canonicalJson_eq_of_perm {members others : List (JsString × Value)}
    (distinct : (members.map Prod.fst).Nodup) (permuted : members.Perm others) :
    canonicalJson (.object members) = canonicalJson (.object others) := by
  have names : ((canonicalizeMembers members).map Prod.fst).Nodup := by
    rw [canonicalizeMembers_eq_map, List.map_map]
    exact distinct
  have canonical : (canonicalizeMembers members).Perm (canonicalizeMembers others) := by
    rw [canonicalizeMembers_eq_map, canonicalizeMembers_eq_map]
    exact permuted.map _
  rw [canonicalJson, canonicalJson, canonicalize, canonicalize,
    keyOrder_eq_of_perm names canonical]

theorem blurMembers_eq_map (members : List (JsString × Meaning)) :
    blurMembers members = members.map fun member => (member.1, blur member.2) := by
  induction members with
  | nil => rfl
  | cons member members ih =>
    rw [blurMembers, ih, List.map_cons]

mutual

theorem canonicalize_eq : ∀ value, canonicalize value = blur (meaning value)
  | .undefined => rfl
  | .null => rfl
  | .boolean _ => rfl
  | .number _ => rfl
  | .nan => rfl
  | .bigint _ => rfl
  | .string _ => rfl
  | .bytes _ => rfl
  | .date _ => rfl
  | .array items => by rw [canonicalize, meaning, blur, canonicalizeItems_eq items]
  | .object members => by
      rw [canonicalize, meaning, blur, canonicalizeMembers_eq members, blurMembers_eq_map,
        blurMembers_eq_map]
      exact congrArg Json.object (keyOrder_map blur)

theorem canonicalizeItems_eq : ∀ items, canonicalizeItems items = blurItems (meaningItems items)
  | [] => rfl
  | item :: items => by
      rw [canonicalizeItems, meaningItems, blurItems, canonicalize_eq item,
        canonicalizeItems_eq items]

theorem canonicalizeMembers_eq : ∀ members,
    canonicalizeMembers members = blurMembers (meaningMembers members)
  | [] => rfl
  | (name, value) :: members => by
      rw [canonicalizeMembers, meaningMembers, blurMembers, canonicalize_eq value,
        canonicalizeMembers_eq members]

end

theorem printed_numberJson (value : JsNumber) : Json.Printed (numberJson value) := by
  unfold numberJson
  split
  · next finite => exact Json.spelled_numeral finite
  · trivial

mutual

theorem printed_blur : ∀ value, Json.Printed (blur value)
  | .null => trivial
  | .boolean _ => trivial
  | .number value => printed_numberJson value
  | .nan => trivial
  | .text _ => trivial
  | .date _ => trivial
  | .array items => printedItems_blurItems items
  | .object members => printedMembers_blurMembers members

theorem printedItems_blurItems : ∀ items, Json.PrintedItems (blurItems items)
  | [] => trivial
  | item :: items => ⟨printed_blur item, printedItems_blurItems items⟩

theorem printedMembers_blurMembers : ∀ members, Json.PrintedMembers (blurMembers members)
  | [] => trivial
  | (_, value) :: members => ⟨printed_blur value, printedMembers_blurMembers members⟩

end

theorem canonicalJson_eq_iff {left right : Value} :
    canonicalJson left = canonicalJson right ↔ blur (meaning left) = blur (meaning right) := by
  rw [canonicalJson, canonicalJson, canonicalize_eq, canonicalize_eq]
  exact ⟨Json.stringify_injective (printed_blur _) (printed_blur _), congrArg Json.stringify⟩

/-! ### Rows up to representation -/

section Rows

variable {left right : Row} {rows others : List Row} {keys : List Column}

/-- What a row stands for, column by column. A column that is missing is `null`. -/
def rowMeaning (row : Row) (column : Column) : Meaning := meaning (row.read column)

def SameRows (rows others : List Row) : Prop :=
  (rows.map rowMeaning).Perm (others.map rowMeaning)

def Alike (left right : Row) : Prop :=
  ∀ column, blur (rowMeaning left column) = blur (rowMeaning right column)

theorem Alike.of_rowMeaning (same : rowMeaning left = rowMeaning right) : Alike left right :=
  fun column => congrArg blur (congrFun same column)

theorem alike_iff : Alike left right ↔
    ∀ column, canonicalJson (left.read column) = canonicalJson (right.read column) :=
  forall_congr' fun _ => canonicalJson_eq_iff.symm

theorem Alike.rowKey_eq (alike : Alike left right) : rowKey keys left = rowKey keys right := by
  have columns := alike_iff.mp alike
  simp only [rowKey, columns]

theorem mem_canonicalMembers {row : Row} {column : Column} {json : Json} :
    (column.val, json) ∈ canonicalizeMembers
        (row.entries.map fun entry => (entry.1.val, entry.2)) ↔
      ∃ value, row.get column = some value ∧ canonicalize value = json := by
  rw [canonicalizeMembers_eq_map, List.map_map, List.mem_map]
  constructor
  · rintro ⟨⟨name, value⟩, member, same⟩
    obtain ⟨sameName, sameValue⟩ := Prod.mk.inj same
    cases Subtype.ext sameName
    exact ⟨value, row.mem_entries_iff.mp member, sameValue⟩
  · rintro ⟨value, found, rfl⟩
    exact ⟨(column, value), row.mem_entries_iff.mpr found, rfl⟩

/-- Rows with one line are alike. -/
theorem alike_of_rowLine (same : rowLine left = rowLine right) : Alike left right := by
  have objects : canonicalize left.toValue = canonicalize right.toValue := by
    rw [canonicalize_eq, canonicalize_eq]
    exact canonicalJson_eq_iff.mp same
  rw [Row.toValue, Row.toValue, canonicalize, canonicalize] at objects
  have members := (perm_keyOrder _).symm.trans
    ((List.Perm.of_eq (Json.object.inj objects)).trans (perm_keyOrder _))
  have entry (column : Column) (json : Json) :
      (∃ value, left.get column = some value ∧ canonicalize value = json) ↔
        ∃ value, right.get column = some value ∧ canonicalize value = json := by
    rw [← mem_canonicalMembers, ← mem_canonicalMembers]
    exact members.mem_iff
  intro column
  simp only [rowMeaning, ← canonicalize_eq, Row.read]
  cases found : left.get column with
  | some value =>
    obtain ⟨other, there, equal⟩ := (entry column _).mp ⟨value, found, rfl⟩
    rw [there]
    exact equal.symm
  | none =>
    cases there : right.get column with
    | none => rfl
    | some value =>
      obtain ⟨other, shown, -⟩ := (entry column _).mpr ⟨value, there, rfl⟩
      rw [found] at shown
      cases shown

theorem payload_eq_iff : payload rows = payload others ↔
    (rows.map rowLine).Perm (others.map rowLine) := by
  have line (row : Row) : 0x0A ∉ rowLine row ∧ rowLine row ≠ [] := by
    refine ⟨Json.newline_not_mem_stringify _, ?_⟩
    rw [rowLine, canonicalJson, Row.toValue, canonicalize, Json.stringify]
    exact List.cons_ne_nil _ _
  have lines {rows : List Row} {text : JsString}
      (member : text ∈ (rows.map rowLine).insertionSort TextLe) : 0x0A ∉ text ∧ text ≠ [] := by
    obtain ⟨row, -, rfl⟩ := List.mem_map.mp ((List.mem_insertionSort _).mp member)
    exact line row
  rw [← sorted_eq_iff, payload, payload]
  constructor
  · exact lines_injective (fun _ member => (lines member).1) (fun _ member => (lines member).1)
      (fun _ member => (lines member).2) fun _ member => (lines member).2
  · exact congrArg _

theorem digestRows_eq_of_perm {Digest : Type} (sha256 : JsString → Digest)
    (permuted : rows.Perm others) : digestRows sha256 rows = digestRows sha256 others :=
  congrArg sha256 (payload_eq_iff.mpr (permuted.map rowLine))

end Rows

end Replay

end SorobanExplorer.Indexer
