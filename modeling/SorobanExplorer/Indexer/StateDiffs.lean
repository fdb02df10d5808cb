import SorobanExplorer.Filters.Ast
import SorobanExplorer.Library.JsonReading
import SorobanExplorer.Library.OrderedMap

/-!
Owns `extractStateDiffs`: the labels of keys and values, the two maps that a transaction's changes
fill, and the diffs that come of them, against what the changes do to the ledger.

The values of contracts and the SDK that reads them are parameters. `null` and `undefined` are one
in a diff.
-/

namespace SorobanExplorer.Indexer.StateDiffs

open Library
open Filters (js JsString)

/-! ### Labels -/

/-- What `scValToNative` returns; a buffer is the object that its `toJSON` returns. -/
inductive Native where
  | undefined
  | null
  | boolean (value : Bool)
  | number (value : JsNumber)
  | string (units : JsString)
  | bigint (value : ℤ)
  | array (items : List Native)
  | object (members : List (JsString × Native))

namespace Native

mutual

/-- What `JSON.stringify` writes, `some none` where it is undefined, `none` where it throws. -/
def json? : Native → Option (Option Json)
  | undefined => some none
  | null => some (some .null)
  | boolean value => some (some (.boolean value))
  | number value => some (some (if value.isFinite then .number value.numeral else .null))
  | string units => some (some (.string units))
  | bigint _ => none
  | array items => (items? items).map fun items => some (.array items)
  | object members => (members? members).map fun members => some (.object members)

def items? : List Native → Option (List Json)
  | [] => some []
  | item :: items => do
      let first ← json? item
      let rest ← items? items
      pure (first.getD .null :: rest)

def members? : List (JsString × Native) → Option (List (JsString × Json))
  | [] => some []
  | (name, value) :: members => do
      let first ← json? value
      let rest ← members? members
      pure (first.elim rest fun json => (name, json) :: rest)

end

end Native

/-- The functions of the SDK, for contract ids and values of contracts; `none` where they throw. -/
structure Sdk (κ σ : Type) where
  encodeContract : κ → JsString
  scValToNative : σ → Option Native
  /-- `scVal.switch().name` -/
  switchName : σ → Option JsString

section Model

variable {κ σ : Type} (sdk : Sdk κ σ)

/-- `none` is undefined. -/
def scValLabel (scVal : σ) : Option JsString :=
  let fallback := some ((sdk.switchName scVal).getD (js "?"))
  match sdk.scValToNative scVal with
  | some (.bigint value) => some (Utf16.encode (Numeral.ofInt value).text)
  | some native =>
    match native.json? with
    | some json => json.map Json.stringify
    | none => fallback
  | none => fallback

inductive Durability where
  | temporary
  | persistent
deriving DecidableEq

structure LedgerKey (κ σ : Type) where
  contract : κ
  key : σ
  durability : Durability
deriving DecidableEq

inductive Tier where
  | contractInstance
  | persistent
  | temporary
deriving DecidableEq

def deriveTier (key : LedgerKey κ σ) : Tier :=
  if key.durability = .temporary then .temporary
  else if sdk.switchName key.key = some (js "scvLedgerKeyContractInstance") then .contractInstance
  else .persistent

/-! ### Changes -/

inductive LedgerEntry (κ σ : Type) where
  | contractData (key : LedgerKey κ σ) (val : σ)
  | other

/-- A removed key is `none` where it is of something else than contract data. -/
inductive Change (κ σ : Type) where
  | state (entry : LedgerEntry κ σ)
  | created (entry : LedgerEntry κ σ)
  | updated (entry : LedgerEntry κ σ)
  | removed (key : Option (LedgerKey κ σ))

/-- `undefined` as it stands in a template. -/
def composite (key : LedgerKey κ σ) : JsString :=
  sdk.encodeContract key.contract ++ js "::" ++ (scValLabel sdk key.key).getD (js "undefined")

structure Noted where
  contractId : JsString
  keyLabel : Option JsString
  valueLabel : Option JsString
  tier : Tier
  removed : Bool

/-- What the changes leave in `before` and `after`. -/
structure Maps where
  before : OrderedMap JsString Noted
  after : OrderedMap JsString Noted

def noted (key : LedgerKey κ σ) (valueLabel : Option JsString) : Noted where
  contractId := sdk.encodeContract key.contract
  keyLabel := scValLabel sdk key.key
  valueLabel := valueLabel
  tier := deriveTier sdk key
  removed := false

def note (maps : Maps) : Change κ σ → Maps
  | .removed (some key) =>
    { before := maps.before.set (composite sdk key) (noted sdk key (some (js "(existed)")))
      after := maps.after.set (composite sdk key)
        { noted sdk key none with tier := .persistent, removed := true } }
  | .state (.contractData key val) =>
    { maps with
      before := maps.before.set (composite sdk key) (noted sdk key (scValLabel sdk val)) }
  | .created (.contractData key val) | .updated (.contractData key val) =>
    { maps with
      after := maps.after.set (composite sdk key) (noted sdk key (scValLabel sdk val)) }
  | .removed none | .state .other | .created .other | .updated .other => maps

inductive ChangeType where
  | created
  | updated
  | removed
deriving DecidableEq

structure Diff where
  contract_id : JsString
  ledger : JsNumber
  tx_hash : Option JsString
  key : Option JsString
  tier : Tier
  old_value : Option JsString
  new_value : Option JsString
  change_type : ChangeType

/-- What `extractStateDiffs` reads of an event; `changes` is `none` where the metadata has none. -/
structure Event (κ σ : Type) where
  ledger : JsNumber
  txHash : Option JsString
  changes : Option (List (Change κ σ))

def diff (event : Event κ σ) (before : OrderedMap JsString Noted) (entry : JsString × Noted) :
    Diff where
  contract_id := entry.2.contractId
  ledger := event.ledger
  tx_hash := event.txHash
  key := entry.2.keyLabel
  tier := entry.2.tier
  old_value := (before.get entry.1).bind Noted.valueLabel
  new_value := if entry.2.removed then none else entry.2.valueLabel
  change_type :=
    if entry.2.removed then .removed else if (before.get entry.1).isSome then .updated else .created

def extractStateDiffs (event : Event κ σ) : List Diff :=
  match event.changes with
  | none => []
  | some changes =>
    let maps := changes.foldl (note sdk) ⟨.empty, .empty⟩
    maps.after.entries.map (diff event maps.before)

/-! ### The last of a list -/

def last {α β : Type} (field : α → Option β) (list : List α) : Option β :=
  list.reverse.findSome? field

section Last

variable {α β γ : Type} {field : α → Option β} {list : List α}

theorem last_cons (first : α) (list : List α) :
    last field (first :: list) = (last field list).or (field first) := by
  rw [last, List.reverse_cons, List.findSome?_append]
  cases found : field first <;> simp [last, found]

theorem exists_of_last {value : β} (found : last field list = some value) :
    ∃ member ∈ list, field member = some value := by
  obtain ⟨member, listed, has⟩ := List.exists_of_findSome?_eq_some found
  exact ⟨member, List.mem_reverse.mp listed, has⟩

theorem last_ne_none {member : α} (listed : member ∈ list) (has : field member ≠ none) :
    last field list ≠ none := by
  intro none
  exact has (List.findSome?_eq_none_iff.mp none member (List.mem_reverse.mpr listed))

theorem last_congr {other : α → Option γ} {through : γ → β}
    (same : ∀ member ∈ list, field member = (other member).map through) :
    last field list = (last other list).map through := by
  induction list with
  | nil => rfl
  | cons first list ih =>
    rw [last_cons, last_cons, ih fun member listed =>
      same member (List.mem_cons_of_mem _ listed), same first List.mem_cons_self]
    cases last other list <;> rfl

end Last

/-! ### The maps -/

def Change.written? : Change κ σ → Option (LedgerKey κ σ × Option σ)
  | .created (.contractData key val) | .updated (.contractData key val) => some (key, some val)
  | .removed (some key) => some (key, none)
  | .state _ | .created .other | .updated .other | .removed none => none

/-- What a change says of the entry before it, under a composite: the label of a state, or
that a removed entry existed. -/
def Change.previous? (name : JsString) : Change κ σ → Option (Option JsString)
  | .state (.contractData key val) =>
    if composite sdk key = name then some (scValLabel sdk val) else none
  | .removed (some key) => if composite sdk key = name then some (some (js "(existed)")) else none
  | .state .other | .created _ | .updated _ | .removed none => none

/-- What `after` holds of a key and its value. -/
def writtenNoted (written : LedgerKey κ σ × Option σ) : Noted :=
  match written.2 with
  | some val => noted sdk written.1 (scValLabel sdk val)
  | none => { noted sdk written.1 none with tier := .persistent, removed := true }

/-- What a change has `after` hold under a composite. -/
def Change.notedAfter? (name : JsString) (change : Change κ σ) : Option Noted :=
  change.written?.bind fun written =>
    if composite sdk written.1 = name then some (writtenNoted sdk written) else none

section Maps

variable {sdk} {changes : List (Change κ σ)} {name : JsString}

theorem get_set_or (map : OrderedMap JsString Noted) (key : JsString) (value : Noted) :
    (map.set key value).get name = (if key = name then some value else none).or (map.get name) := by
  rw [OrderedMap.get_set]
  by_cases same : name = key
  · rw [if_pos same, if_pos same.symm]
    rfl
  · rw [if_neg same, if_neg (Ne.symm same)]
    rfl

theorem note_before (maps : Maps) (change : Change κ σ) :
    ((note sdk maps change).before.get name).map Noted.valueLabel =
      (change.previous? sdk name).or ((maps.before.get name).map Noted.valueLabel) := by
  have set (key : LedgerKey κ σ) (label : Option JsString) :
      ((maps.before.set (composite sdk key) (noted sdk key label)).get name).map Noted.valueLabel =
        (if composite sdk key = name then some label else none).or
          ((maps.before.get name).map Noted.valueLabel) := by
    rw [get_set_or, Option.map_or, apply_ite (Option.map Noted.valueLabel)]
    rfl
  cases change with
  | state entry =>
    cases entry with
    | contractData key val => exact set key _
    | other => rfl
  | created entry | updated entry => cases entry <;> rfl
  | removed key =>
    cases key with
    | some key => exact set key _
    | none => rfl

theorem note_after (maps : Maps) (change : Change κ σ) :
    (note sdk maps change).after.get name =
      (change.notedAfter? sdk name).or (maps.after.get name) := by
  cases change with
  | state entry => cases entry <;> rfl
  | created entry | updated entry =>
    cases entry with
    | contractData key val => exact get_set_or _ _ _
    | other => rfl
  | removed key =>
    cases key with
    | some key => exact get_set_or _ _ _
    | none => rfl

theorem get_before (maps : Maps) :
    ((changes.foldl (note sdk) maps).before.get name).map Noted.valueLabel =
      (last (Change.previous? sdk name) changes).or
        ((maps.before.get name).map Noted.valueLabel) := by
  induction changes generalizing maps with
  | nil => rfl
  | cons change changes ih =>
    rw [List.foldl_cons, ih, note_before, last_cons, Option.or_assoc]

theorem get_after (maps : Maps) :
    (changes.foldl (note sdk) maps).after.get name =
      (last (Change.notedAfter? sdk name) changes).or (maps.after.get name) := by
  induction changes generalizing maps with
  | nil => rfl
  | cons change changes ih =>
    rw [List.foldl_cons, ih, note_after, last_cons, Option.or_assoc]

def mapsOf (sdk : Sdk κ σ) (changes : List (Change κ σ)) : Maps :=
  changes.foldl (note sdk) ⟨.empty, .empty⟩

theorem get_mapsOf_after :
    (mapsOf sdk changes).after.get name = last (Change.notedAfter? sdk name) changes :=
  (get_after _).trans (Option.or_none ..)

theorem get_mapsOf_before :
    ((mapsOf sdk changes).before.get name).bind Noted.valueLabel =
      (last (Change.previous? sdk name) changes).join := by
  have labels := (@get_before κ σ sdk changes name ⟨.empty, .empty⟩).trans (Option.or_none ..)
  rw [← labels, mapsOf]
  cases (changes.foldl (note sdk) ⟨.empty, .empty⟩).before.get name <;> rfl

end Maps

/-! ### The ledger -/

abbrev Ledger (κ σ : Type) := LedgerKey κ σ → Option σ

def Touched (changes : List (Change κ σ)) (key : LedgerKey κ σ) : Prop :=
  ∃ change ∈ changes, ∃ val, change.written? = some (key, val)

structure Shown where
  contract_id : JsString
  key : Option JsString
  old_value : Option JsString
  new_value : Option JsString

def Diff.shown (diff : Diff) : Shown := ⟨diff.contract_id, diff.key, diff.old_value, diff.new_value⟩

def expected (before after : Ledger κ σ) (key : LedgerKey κ σ) : Shown where
  contract_id := sdk.encodeContract key.contract
  key := scValLabel sdk key.key
  old_value := (before key).bind (scValLabel sdk)
  new_value := (after key).bind (scValLabel sdk)

def Accurate (before after : Ledger κ σ) (event : Event κ σ) (changes : List (Change κ σ)) : Prop :=
  ∃ keys : List (LedgerKey κ σ), keys.Nodup ∧ (∀ key, key ∈ keys ↔ Touched changes key) ∧
    (extractStateDiffs sdk event).map Diff.shown = keys.map (expected sdk before after)

def Distinguished (changes : List (Change κ σ)) : Prop :=
  ∀ key other, Touched changes key → Touched changes other →
    composite sdk key = composite sdk other → key = other

/-- What the last state or removal under the composite of a touched entry says is the label of its
value before the transaction. -/
def Remembered (before : Ledger κ σ) (changes : List (Change κ σ)) : Prop :=
  ∀ key, Touched changes key →
    (last (Change.previous? sdk (composite sdk key)) changes).join =
      (before key).bind (scValLabel sdk)

/-! ### Accurate diffs -/

section Accurate

variable {sdk} {changes : List (Change κ σ)} {key : LedgerKey κ σ} {before after : Ledger κ σ}

theorem touched_of_mem {entry : JsString × Noted}
    (listed : entry ∈ (mapsOf sdk changes).after.entries) :
    ∃ key val, Touched changes key ∧ composite sdk key = entry.1 ∧
      entry.2 = writtenNoted sdk (key, val) := by
  have found := (OrderedMap.mem_entries_iff _).mp listed
  rw [get_mapsOf_after] at found
  obtain ⟨change, among, noted⟩ := exists_of_last found
  rw [Change.notedAfter?, Option.bind_eq_some_iff] at noted
  obtain ⟨⟨key, val⟩, written, noted⟩ := noted
  split_ifs at noted with named
  exact ⟨key, val, ⟨change, among, val, written⟩, named, (Option.some.inj noted).symm⟩

theorem shown_diff {event : Event κ σ} {name : JsString} {val : Option σ} :
    (diff event (mapsOf sdk changes).before (name, writtenNoted sdk (key, val))).shown =
      ⟨sdk.encodeContract key.contract, scValLabel sdk key.key,
        (last (Change.previous? sdk name) changes).join, val.bind (scValLabel sdk)⟩ := by
  cases val with
  | none => simp [diff, Diff.shown, writtenNoted, noted, get_mapsOf_before]
  | some val => simp [diff, Diff.shown, writtenNoted, noted, get_mapsOf_before]

def Shown.composite (shown : Shown) : JsString :=
  shown.contract_id ++ js "::" ++ shown.key.getD (js "undefined")

theorem composite_expected : (expected sdk before after key).composite = composite sdk key := rfl

theorem extractStateDiffs_eq {event : Event κ σ} (given : event.changes = some changes) :
    extractStateDiffs sdk event =
      (mapsOf sdk changes).after.entries.map (diff event (mapsOf sdk changes).before) := by
  rw [extractStateDiffs, given]
  rfl

theorem composites_of_accurate {event : Event κ σ} (given : event.changes = some changes)
    {keys : List (LedgerKey κ σ)} (same : (extractStateDiffs sdk event).map Diff.shown =
      keys.map (expected sdk before after)) :
    (mapsOf sdk changes).after.entries.map Prod.fst = keys.map (composite sdk) := by
  have composites := congrArg (List.map Shown.composite) same
  rw [extractStateDiffs_eq given, List.map_map, List.map_map, List.map_map] at composites
  refine Eq.trans (List.map_congr_left ?_) composites
  intro entry listed
  obtain ⟨name, noted⟩ := entry
  obtain ⟨key, val, -, rfl, rfl⟩ := touched_of_mem listed
  exact (congrArg Shown.composite shown_diff).symm

theorem distinguished_of_accurate {event : Event κ σ} (given : event.changes = some changes)
    (accurate : Accurate sdk before after event changes) : Distinguished sdk changes := by
  obtain ⟨keys, -, members, same⟩ := accurate
  have distinct := (mapsOf sdk changes).after.nodup
  rw [composites_of_accurate given same] at distinct
  intro key other touched alsoTouched merged
  exact List.inj_on_of_nodup_map distinct ((members key).mpr touched)
    ((members other).mpr alsoTouched) merged

theorem remembered_of_accurate {event : Event κ σ} (given : event.changes = some changes)
    (accurate : Accurate sdk before after event changes) : Remembered sdk before changes := by
  obtain ⟨keys, -, members, same⟩ := accurate
  intro key touched
  have listed := List.mem_map_of_mem (f := expected sdk before after) ((members key).mpr touched)
  rw [← same, extractStateDiffs_eq given, List.map_map] at listed
  obtain ⟨⟨name, noted⟩, among, shows⟩ := List.mem_map.mp listed
  obtain ⟨other, val, -, rfl, rfl⟩ := touched_of_mem among
  have named := (congrArg Shown.composite shown_diff).symm.trans
    (congrArg Shown.composite shows)
  have old := congrArg Shown.old_value (shown_diff.symm.trans shows)
  rw [composite_expected] at named
  rw [← named]
  exact old

end Accurate

/-! ### Transactions -/

section Transactions

variable [DecidableEq κ] [DecidableEq σ]

/-- Changes in chain order: an entry that is created was not there, one that is updated or removed
was, and a state is the value that the entry has. -/
inductive Chain : Ledger κ σ → List (Change κ σ) → Ledger κ σ → Prop
  | nil {ledger : Ledger κ σ} : Chain ledger [] ledger
  | state {ledger last : Ledger κ σ} {changes : List (Change κ σ)} {key : LedgerKey κ σ} {val : σ}
      (held : ledger key = some val) (rest : Chain ledger changes last) :
      Chain ledger (.state (.contractData key val) :: changes) last
  | created {ledger last : Ledger κ σ} {changes : List (Change κ σ)} {key : LedgerKey κ σ} {val : σ}
      (absent : ledger key = none)
      (rest : Chain (Function.update ledger key (some val)) changes last) :
      Chain ledger (.created (.contractData key val) :: changes) last
  | updated {ledger last : Ledger κ σ} {changes : List (Change κ σ)} {key : LedgerKey κ σ} {val : σ}
      (held : ledger key ≠ none)
      (rest : Chain (Function.update ledger key (some val)) changes last) :
      Chain ledger (.updated (.contractData key val) :: changes) last
  | removed {ledger last : Ledger κ σ} {changes : List (Change κ σ)} {key : LedgerKey κ σ}
      (held : ledger key ≠ none) (rest : Chain (Function.update ledger key none) changes last) :
      Chain ledger (.removed (some key) :: changes) last
  /-- An entry that is no contract data. -/
  | other {ledger last : Ledger κ σ} {changes : List (Change κ σ)} {change : Change κ σ}
      (elsewhere : change ∈ [.state .other, .created .other, .updated .other, .removed none])
      (rest : Chain ledger changes last) : Chain ledger (change :: changes) last

def Change.writes? (key : LedgerKey κ σ) (change : Change κ σ) : Option (Option σ) :=
  change.written?.bind fun written => if written.1 = key then some written.2 else none

variable {sdk} {changes : List (Change κ σ)} {key : LedgerKey κ σ} {before after : Ledger κ σ}

theorem Chain.after_eq (chain : Chain before changes after) :
    after key = (last (Change.writes? key) changes).getD (before key) := by
  have update (ledger : Ledger κ σ) (other : LedgerKey κ σ) (val : Option σ)
      (later : Option (Option σ)) :
      later.getD (Function.update ledger other val key) =
        (later.or (if other = key then some val else none)).getD (ledger key) := by
    rw [Function.update_apply]
    cases later with
    | some val => rfl
    | none =>
      by_cases same : key = other
      · rw [if_pos same, if_pos same.symm]
        rfl
      · rw [if_neg same, if_neg (Ne.symm same)]
        rfl
  induction chain with
  | nil => rfl
  | state held rest ih =>
    rw [ih, last_cons]
    exact (congrArg (Option.getD · _) (Option.or_none ..).symm)
  | created absent rest ih =>
    rw [ih, last_cons]
    exact update ..
  | updated held rest ih =>
    rw [ih, last_cons]
    exact update ..
  | removed held rest ih =>
    rw [ih, last_cons]
    exact update ..
  | other elsewhere rest ih =>
    rw [ih, last_cons]
    simp only [List.mem_cons, List.not_mem_nil, or_false] at elsewhere
    obtain rfl | rfl | rfl | rfl := elsewhere
    all_goals exact (congrArg (Option.getD · _) (Option.or_none ..).symm)

theorem writes?_eq_some_iff {change : Change κ σ} {val : Option σ} :
    change.writes? key = some val ↔ change.written? = some (key, val) := by
  rw [Change.writes?]
  cases change.written? with
  | none => exact iff_of_false nofun nofun
  | some written =>
    obtain ⟨other, val⟩ := written
    rw [Option.bind_some]
    by_cases same : other = key
    · simp [same]
    · simp [same]

theorem touched_iff :
    Touched changes key ↔ ∃ val, last (Change.writes? key) changes = some val := by
  constructor
  · rintro ⟨change, listed, val, written⟩
    have writes := writes?_eq_some_iff.mpr written
    exact Option.ne_none_iff_exists'.mp (last_ne_none listed (by simp [writes]))
  · rintro ⟨val, found⟩
    obtain ⟨change, listed, writes⟩ := exists_of_last found
    exact ⟨change, listed, val, writes?_eq_some_iff.mp writes⟩

theorem last_notedAfter? (distinguished : Distinguished sdk changes)
    (touched : Touched changes key) :
    last (Change.notedAfter? sdk (composite sdk key)) changes =
      (last (Change.writes? key) changes).map fun val => writtenNoted sdk (key, val) := by
  apply last_congr
  intro change listed
  rw [Change.notedAfter?, Change.writes?]
  cases written : change.written? with
  | none => rfl
  | some pair =>
    obtain ⟨other, val⟩ := pair
    rw [Option.bind_some, Option.bind_some]
    by_cases same : other = key
    · rw [if_pos same, if_pos (by rw [same]), same]
      rfl
    · have apart : composite sdk other ≠ composite sdk key := fun merged =>
        same (distinguished other key ⟨change, listed, val, written⟩ touched merged)
      rw [if_neg same, if_neg apart]
      rfl

theorem get_after_of_touched (chain : Chain before changes after)
    (distinguished : Distinguished sdk changes) (touched : Touched changes key) :
    (mapsOf sdk changes).after.get (composite sdk key) =
      some (writtenNoted sdk (key, after key)) := by
  obtain ⟨val, written⟩ := touched_iff.mp touched
  have final : after key = val := by rw [chain.after_eq, written, Option.getD_some]
  rw [get_mapsOf_after, last_notedAfter? distinguished touched, written, final]
  rfl

theorem accurate_of_distinguished {event : Event κ σ} (given : event.changes = some changes)
    (chain : Chain before changes after) (distinguished : Distinguished sdk changes)
    (remembered : Remembered sdk before changes) : Accurate sdk before after event changes := by
  have each : ∀ entry ∈ (mapsOf sdk changes).after.entries, ∃ key, Touched changes key ∧
      composite sdk key = entry.1 ∧
      (diff event (mapsOf sdk changes).before entry).shown = expected sdk before after key := by
    intro entry listed
    obtain ⟨name, noted⟩ := entry
    have found := (OrderedMap.mem_entries_iff _).mp listed
    obtain ⟨key, val, touched, rfl, -⟩ := touched_of_mem listed
    cases found.symm.trans (get_after_of_touched chain distinguished touched)
    refine ⟨key, touched, rfl, ?_⟩
    rw [shown_diff, remembered key touched]
    rfl
  choose pick touched named shows using each
  have fsts : ((mapsOf sdk changes).after.entries.attach.map fun entry =>
      pick entry.1 entry.2).map (composite sdk) =
        (mapsOf sdk changes).after.entries.map Prod.fst := by
    conv_rhs => rw [← List.attach_map_subtype_val (mapsOf sdk changes).after.entries]
    rw [List.map_map, List.map_map]
    exact List.map_congr_left fun entry _ => named entry.1 entry.2
  refine ⟨_, List.Nodup.of_map _ (fsts ▸ (mapsOf sdk changes).after.nodup), ?_, ?_⟩
  · intro key
    constructor
    · intro listed
      obtain ⟨entry, -, rfl⟩ := List.mem_map.mp listed
      exact touched entry.1 entry.2
    · intro isTouched
      have found := get_after_of_touched chain distinguished isTouched
      have listed := (OrderedMap.mem_entries_iff _).mpr found
      have same := distinguished _ _ (touched _ listed) isTouched (named _ listed)
      exact List.mem_map.mpr ⟨⟨_, listed⟩, List.mem_attach _ _, same⟩
  · rw [extractStateDiffs_eq given]
    conv_lhs => rw [← List.attach_map_subtype_val (mapsOf sdk changes).after.entries]
    rw [List.map_map, List.map_map, List.map_map]
    exact List.map_congr_left fun entry _ => shows entry.1 entry.2

/-- The diffs of a transaction are one for each entry that it touched, with the labels of its values
before and after, exactly where touched entries have different composites and what is said last of
each one before is its label. -/
theorem accurate_iff {event : Event κ σ} (given : event.changes = some changes)
    (chain : Chain before changes after) :
    Accurate sdk before after event changes ↔
      Distinguished sdk changes ∧ Remembered sdk before changes := by
  constructor
  · intro accurate
    exact ⟨distinguished_of_accurate given accurate, remembered_of_accurate given accurate⟩
  · rintro ⟨distinguished, remembered⟩
    exact accurate_of_distinguished given chain distinguished remembered

end Transactions

end Model

/-! ### A contract with amounts -/

/-- Values of a contract: a `u64`, and a vector of them. -/
inductive Amounts where
  | amount (value : ℕ)
  | amounts (values : List ℕ)
deriving DecidableEq

def amountsSdk : Sdk Unit Amounts where
  encodeContract _ := js "CAAAAAAAAAAAAAAAAAAAAAAAAAAAAAAAAAAAAAAAAAAAAAAAAAAABSC4"
  scValToNative
    | .amount value => some (.bigint value)
    | .amounts values => some (.array (values.map fun value => .bigint value))
  switchName
    | .amount _ => some (js "scvU64")
    | .amounts _ => some (js "scvVec")

def entryKey (key : Amounts) : LedgerKey Unit Amounts := ⟨(), key, .persistent⟩

def eventOf (changes : List (Change Unit Amounts)) : Event Unit Amounts :=
  ⟨.ofRat 5, none, some changes⟩

def update : List (Change Unit Amounts) :=
  [.state (.contractData (entryKey (.amount 1)) (.amount 5)),
    .updated (.contractData (entryKey (.amount 1)) (.amount 6))]

def oneEntry (value : ℕ) : Ledger Unit Amounts :=
  Function.update (fun _ => none) (entryKey (.amount 1)) (some (.amount value))

theorem accurate_iff_update :
    Accurate amountsSdk (oneEntry 5) (oneEntry 6) (eventOf update) update ↔
      Distinguished amountsSdk update ∧ Remembered amountsSdk (oneEntry 5) update := by
  have held : oneEntry 5 (entryKey (.amount 1)) = some (.amount 5) := Function.update_self ..
  have overwritten : Function.update (oneEntry 5) (entryKey (.amount 1)) (some (.amount 6)) =
      oneEntry 6 := Function.update_idem ..
  refine accurate_iff rfl (.state held (.updated (by simp [held]) ?_))
  rw [overwritten]
  exact .nil

def twoVectors : List (Change Unit Amounts) :=
  [.created (.contractData (entryKey (.amounts [1])) (.amount 5)),
    .created (.contractData (entryKey (.amounts [2])) (.amount 7))]

theorem vectors_merged : ¬ ∀ before after, Chain before twoVectors after →
    Accurate amountsSdk before after (eventOf twoVectors) twoVectors := by
  intro accurate
  have chain : Chain (fun _ => none) twoVectors _ :=
    .created rfl (.created (Function.update_of_ne (by decide) ..) .nil)
  have distinguished := distinguished_of_accurate rfl (accurate _ _ chain)
  have same := distinguished (entryKey (.amounts [1])) (entryKey (.amounts [2]))
    ⟨_, List.mem_cons_self, _, rfl⟩ ⟨_, List.mem_cons_of_mem _ List.mem_cons_self, _, rfl⟩ rfl
  cases same

end SorobanExplorer.Indexer.StateDiffs
