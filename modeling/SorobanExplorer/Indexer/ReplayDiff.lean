import Mathlib.Data.Option.Basic
import SorobanExplorer.Indexer.ReplayCanonical

/-!
Owns the comparison of a replay with production: `diffRows` indexes both lists by the key of a
row, so that of the rows with one key only the last is compared.

`promised_iff` says for which lists the comparison and the digests can be trusted.
-/

namespace SorobanExplorer.Indexer

open Library Filters

namespace Replay

/-! ### The difference -/

structure FieldChange where
  before : Value
  after : Value

structure ChangedRow where
  key : JsString
  fields : List (Column × FieldChange)

structure RowDiff where
  added : List Row
  removed : List Row
  changed : List ChangedRow

/-- `value ?? null` -/
def Value.orNull : Value → Value
  | .undefined => .null
  | value => value

def columnsOf (before after : Row) : List Column :=
  let columns := before.entries.map Prod.fst
  columns ++ (after.entries.map Prod.fst).filter fun column => column ∉ columns

def changedFields (before after : Row) : List (Column × FieldChange) :=
  ((columnsOf before after).filter fun column =>
    canonicalJson (before.read column) ≠ canonicalJson (after.read column)).map fun column =>
      (column, ⟨(before.read column).orNull, (after.read column).orNull⟩)

def indexRows (keys : List Column) (rows : List Row) : OrderedMap JsString Row :=
  OrderedMap.ofEntries (rows.map fun row => (rowKey keys row, row))

def changedRow (right : OrderedMap JsString Row) (entry : JsString × Row) : Option ChangedRow :=
  match right.get entry.1 with
  | none => none
  | some after =>
    let fields := changedFields entry.2 after
    if fields.isEmpty then none else some ⟨entry.1, fields⟩

def diffRows (keys : List Column) (actual expected : List Row) : RowDiff :=
  let left := indexRows keys actual
  let right := indexRows keys expected
  { added := (right.entries.filter fun entry => (left.get entry.1).isNone).map Prod.snd
    removed := (left.entries.filter fun entry => (right.get entry.1).isNone).map Prod.snd
    changed := left.entries.filterMap (changedRow right) }

structure RowDiff.Silent (diff : RowDiff) : Prop where
  added : diff.added = []
  removed : diff.removed = []
  changed : diff.changed = []

/-! ### What is compared -/

section Compared

variable {keys : List Column} {actual expected : List Row} {before after : Row}

def lastRow (keys : List Column) (rows : List Row) (key : JsString) : Option Row :=
  rows.reverse.find? fun row => rowKey keys row = key

def LastRowsAlike (keys : List Column) (actual expected : List Row) : Prop :=
  ∀ key, Option.Rel Alike (lastRow keys actual key) (lastRow keys expected key)

theorem get_indexRows (rows : List Row) (key : JsString) :
    (indexRows keys rows).get key = lastRow keys rows key := by
  rw [indexRows, OrderedMap.get_ofEntries, lastRow, ← List.map_reverse, List.find?_map,
    Option.map_map]
  exact congrFun Option.map_id _

theorem read_of_not_mem {row : Row} {column : Column}
    (missing : column ∉ row.entries.map Prod.fst) : row.read column = .undefined := by
  have absent : row.get column = none := by
    by_contra present
    obtain ⟨value, found⟩ := Option.ne_none_iff_exists'.mp present
    exact missing (List.mem_map.mpr ⟨_, row.mem_entries_iff.mpr found, rfl⟩)
  rw [Row.read, absent]
  rfl

theorem mem_columnsOf {column : Column} : column ∈ columnsOf before after ↔
    column ∈ before.entries.map Prod.fst ∨ column ∈ after.entries.map Prod.fst := by
  rw [columnsOf, List.mem_append, List.mem_filter, decide_eq_true_eq]
  tauto

theorem changedFields_eq_nil : changedFields before after = [] ↔ Alike before after := by
  rw [changedFields, List.map_eq_nil_iff, List.filter_eq_nil_iff, alike_iff]
  constructor
  · intro same column
    by_cases listed : column ∈ columnsOf before after
    · simpa using same column listed
    · rw [mem_columnsOf, not_or] at listed
      rw [read_of_not_mem listed.1, read_of_not_mem listed.2]
  · intro same column _
    simpa using same column

theorem missing_eq_nil {left right : OrderedMap JsString Row} :
    (left.entries.filter fun entry => (right.get entry.1).isNone).map Prod.snd = [] ↔
      ∀ key, (left.get key).isSome → (right.get key).isSome := by
  rw [List.map_eq_nil_iff, List.filter_eq_nil_iff]
  constructor
  · intro present key there
    obtain ⟨row, found⟩ := Option.isSome_iff_exists.mp there
    simpa [Option.isSome_iff_ne_none] using present (key, row) (left.mem_entries_iff.mpr found)
  · intro present entry member
    have there := present entry.1 (by rw [left.mem_entries_iff.mp member]; rfl)
    simp [Option.isSome_iff_ne_none.mp there]

theorem changed_eq_nil {left right : OrderedMap JsString Row} :
    left.entries.filterMap (changedRow right) = [] ↔
      ∀ key before after, left.get key = some before → right.get key = some after →
        Alike before after := by
  rw [List.filterMap_eq_nil_iff]
  constructor
  · intro same key before after found there
    have silent := same (key, before) (left.mem_entries_iff.mpr found)
    rw [changedRow, there] at silent
    dsimp only at silent
    split at silent
    · next empty => exact changedFields_eq_nil.mp (List.isEmpty_iff.mp empty)
    · cases silent
  · intro same entry member
    rw [changedRow]
    split
    · rfl
    · next after there =>
        have alike := same entry.1 entry.2 after (left.mem_entries_iff.mp member) there
        dsimp only
        rw [changedFields_eq_nil.mpr alike]
        rfl

theorem isSome_eq_of_rel {left right : Option Row} (related : Option.Rel Alike left right) :
    left.isSome = right.isSome := by
  cases related <;> rfl

theorem silent_iff : (diffRows keys actual expected).Silent ↔
    LastRowsAlike keys actual expected := by
  constructor
  · intro silent key
    have kept := missing_eq_nil.mp silent.removed key
    have known := missing_eq_nil.mp silent.added key
    have alike := changed_eq_nil.mp silent.changed key
    simp only [get_indexRows] at kept known alike
    cases first : lastRow keys actual key with
    | some before =>
      cases second : lastRow keys expected key with
      | some after => exact .some (alike before after first second)
      | none =>
        rw [first, second] at kept
        exact absurd (kept rfl) Bool.false_ne_true
    | none =>
      cases second : lastRow keys expected key with
      | none => exact .none
      | some after =>
        rw [first, second] at known
        exact absurd (known rfl) Bool.false_ne_true
  · intro alike
    have related (key : JsString) : Option.Rel Alike ((indexRows keys actual).get key)
        ((indexRows keys expected).get key) := by
      rw [get_indexRows, get_indexRows]
      exact alike key
    refine ⟨missing_eq_nil.mpr fun key there => ?_, missing_eq_nil.mpr fun key there => ?_,
      changed_eq_nil.mpr fun key before after first second => ?_⟩
    · rw [isSome_eq_of_rel (related key)]
      exact there
    · rw [← isSome_eq_of_rel (related key)]
      exact there
    · have rows := related key
      rw [first, second] at rows
      cases rows with
      | some same => exact same

end Compared

/-! ### What is promised -/

section Promises

variable {Digest : Type} {sha256 : JsString → Digest} {keys : List Column}
  {actual expected : List Row}

/-- What the comparison and the digests are there for. A collision is two texts with one
digest. -/
structure Promised (sha256 : JsString → Digest) (keys : List Column) (actual expected : List Row) :
    Prop where
  silent : (diffRows keys actual expected).Silent ↔ SameRows actual expected
  ordered : ∀ permuted, permuted.Perm actual →
    digestRows sha256 permuted = digestRows sha256 actual
  distinct : digestRows sha256 actual = digestRows sha256 expected →
    SameRows actual expected ∨ payload actual ≠ payload expected

structure Discerned (keys : List Column) (actual expected : List Row) : Prop where
  unhidden : LastRowsAlike keys actual expected → SameRows actual expected
  aligned : SameRows actual expected → LastRowsAlike keys actual expected
  lines : (actual.map rowLine).Perm (expected.map rowLine) → SameRows actual expected

theorem mem_of_lastRow {rows : List Row} {key : JsString} {row : Row}
    (last : lastRow keys rows key = some row) : row ∈ rows ∧ rowKey keys row = key := by
  rw [lastRow] at last
  exact ⟨List.mem_reverse.mp (List.mem_of_find?_eq_some last),
    by simpa using List.find?_some last⟩

theorem isSome_lastRow {rows : List Row} {key : JsString} :
    (lastRow keys rows key).isSome ↔ key ∈ rows.map (rowKey keys) := by
  rw [lastRow, List.find?_isSome, List.mem_map]
  simp only [List.mem_reverse, decide_eq_true_eq]

theorem lastRow_eq_some {rows : List Row} (unshared : (rows.map (rowKey keys)).Nodup) {row : Row}
    (member : row ∈ rows) : lastRow keys rows (rowKey keys row) = some row := by
  have present : (lastRow keys rows (rowKey keys row)).isSome :=
    isSome_lastRow.mpr (List.mem_map_of_mem member)
  obtain ⟨other, last⟩ := Option.isSome_iff_exists.mp present
  obtain ⟨among, same⟩ := mem_of_lastRow last
  rw [last, List.inj_on_of_nodup_map unshared among member same]

theorem SameRows.exists_like {rows others : List Row} (same : SameRows rows others) {row : Row}
    (member : row ∈ rows) : ∃ other ∈ others, rowMeaning row = rowMeaning other := by
  obtain ⟨other, among, equal⟩ := List.mem_map.mp (same.mem_iff.mp (List.mem_map_of_mem member))
  exact ⟨other, among, equal.symm⟩

theorem perm_map_of_perm_map {α β γ : Type} {first : α → β} {second : α → γ}
    {left right : List α} (permuted : (left.map first).Perm (right.map first))
    (tells : ∀ a ∈ left, ∀ b ∈ right, first a = first b → second a = second b) :
    (left.map second).Perm (right.map second) := by
  induction left generalizing right with
  | nil =>
    rw [List.map_nil, List.nil_perm, List.map_eq_nil_iff] at permuted
    rw [permuted]
  | cons head tail ih =>
    have present : first head ∈ right.map first := permuted.subset List.mem_cons_self
    obtain ⟨like, member, same⟩ := List.mem_map.mp present
    obtain ⟨before, after, rfl⟩ := List.append_of_mem member
    have moved : (before ++ like :: after).Perm (like :: (before ++ after)) := List.perm_middle
    have rest : (tail.map first).Perm ((before ++ after).map first) := by
      have whole := permuted.trans (moved.map first)
      rw [List.map_cons, List.map_cons, same] at whole
      exact (List.perm_cons _).mp whole
    have tails := ih rest fun a memberTail b memberRest =>
      tells a (List.mem_cons_of_mem _ memberTail) b
        (moved.symm.subset (List.mem_cons_of_mem _ memberRest))
    refine List.Perm.trans ?_ (moved.map second).symm
    rw [List.map_cons, List.map_cons, tells head List.mem_cons_self like member same.symm]
    exact tails.cons _

/-- Lists in which no two rows share a key, and no two rows differ in dates alone. -/
theorem discerned_of_unshared (actualKeys : (actual.map (rowKey keys)).Nodup)
    (expectedKeys : (expected.map (rowKey keys)).Nodup)
    (sharp : ∀ left ∈ actual, ∀ right ∈ expected, Alike left right →
      rowMeaning left = rowMeaning right) : Discerned keys actual expected where
  unhidden alike := by
    have keysMatch : (actual.map (rowKey keys)).Perm (expected.map (rowKey keys)) := by
      refine (List.perm_ext_iff_of_nodup actualKeys expectedKeys).mpr fun key => ?_
      rw [← isSome_lastRow, ← isSome_lastRow, isSome_eq_of_rel (alike key)]
    refine perm_map_of_perm_map keysMatch fun left first right second same => ?_
    have rows := alike (rowKey keys left)
    rw [lastRow_eq_some actualKeys first, same, lastRow_eq_some expectedKeys second] at rows
    cases rows with
    | some alike => exact sharp left first right second alike
  aligned same key := by
    match first : lastRow keys actual key, second : lastRow keys expected key with
    | none, none => exact .none
    | some before, _ =>
      obtain ⟨member, own⟩ := mem_of_lastRow first
      obtain ⟨other, among, equal⟩ := same.exists_like member
      have alike := Alike.of_rowMeaning equal
      rw [← second, ← own, alike.rowKey_eq, lastRow_eq_some expectedKeys among]
      exact .some alike
    | none, some after =>
      obtain ⟨member, own⟩ := mem_of_lastRow second
      obtain ⟨other, among, equal⟩ := SameRows.exists_like same.symm member
      rw [← own, (Alike.of_rowMeaning equal).rowKey_eq, lastRow_eq_some actualKeys among] at first
      cases first
  lines permuted :=
    perm_map_of_perm_map permuted fun left first right second same =>
      sharp left first right second (alike_of_rowLine same)

end Promises

/-! ### What is overlooked -/

section Overlooked

def ledgerColumn : Column := ⟨js "ledger", by decide⟩

def txHash : Column := ⟨js "tx_hash", by decide⟩

def contractId : Column := ⟨js "contract_id", by decide⟩

def idColumn : Column := ⟨js "id", by decide⟩

/-- The keys of `diffAgainstProduction`. -/
def productionKeys : List Column := [ledgerColumn, txHash, contractId, idColumn]

def functionColumn : Column := ⟨js "function", by decide⟩

def eventRow (value : Value) : Row :=
  .ofEntries [(ledgerColumn, .string (js "7")), (txHash, .string (js "ab")),
    (contractId, .string (js "C1")), (functionColumn, value)]

end Overlooked

end Replay

end SorobanExplorer.Indexer
