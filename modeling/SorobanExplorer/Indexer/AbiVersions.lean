import Mathlib.Data.List.Sort
import Mathlib.Logic.Function.Basic
import SorobanExplorer.Library.Run
import SorobanExplorer.Library.Table

/-!
Owns the ABI versions of one contract: `upsertContractMeta` calls, statement by statement
and in any interleaving, and `getContractAbiHistory`. The row in `contracts` gets the
version that the call computes, the history the one that was submitted.

What the property does not read is left out: the other columns, `contract_versions` and
the events to decode again.
-/

namespace SorobanExplorer.Indexer

open Library

namespace AbiVersions

/-- What `JSONB` columns do to a JSON text: the text of the value that is read back. -/
structure Jsonb where
  reread : String → String
  reread_empty : reread "[]" = "[]"
  reread_reread : ∀ text, reread (reread text) = reread text

/-- What a call submits: `functions` by its JSON text, `none` for null or undefined. -/
structure ContractMeta where
  abiVersion : Option ℤ
  functions : Option String
deriving DecidableEq, Repr

/-- The row in `contracts`, with `functions` as it is read back. -/
structure ContractRow where
  abiVersion : ℤ
  functions : Option String
deriving DecidableEq, Repr

/-- `functions ?? []` -/
def ContractMeta.functionsText (submitted : ContractMeta) : String :=
  submitted.functions.getD "[]"

def ContractRow.functionsText (row : ContractRow) : String := row.functions.getD "[]"

section Versions

variable (existing : Option ContractRow) (submitted : ContractMeta)

def previousAbiVersion : ℤ := (existing.map ContractRow.abiVersion).getD 0

def functionsChanged : Bool :=
  existing.any fun row => row.functionsText != submitted.functionsText

def incomingAbiVersion : ℤ := submitted.abiVersion.getD (previousAbiVersion existing)

def abiVersion : ℤ :=
  max (incomingAbiVersion existing submitted)
    (previousAbiVersion existing + if functionsChanged existing submitted then 1 else 0)

end Versions

/-- An `INT` column takes the number. -/
def fitsInt (version : ℤ) : Bool := -2147483648 ≤ version && version ≤ 2147483647

structure Call where
  submitted : ContractMeta
  existing : Option ContractRow
  upserted : Bool
deriving DecidableEq, Repr

structure AbiState where
  contract : Option ContractRow
  history : Table ℤ String
  calls : ℕ → Option Call

def unregistered : AbiState := ⟨none, ∅, fun _ => none⟩

def getContractAbiHistory (state : AbiState) : List (ℤ × String) :=
  (state.history.entries.map fun row => (row.1, row.2)).insertionSort fun first second =>
    first.1 ≤ second.1

namespace AbiState

def setCall (state : AbiState) (name : ℕ) (call : Option Call) : AbiState :=
  { state with calls := Function.update state.calls name call }

/-- `INSERT INTO contracts ... ON CONFLICT (id) DO UPDATE` -/
def upsert (jsonb : Jsonb) (state : AbiState) (name : ℕ) (call : Call) : AbiState :=
  { state with
    contract := some ⟨abiVersion call.existing call.submitted,
      call.submitted.functions.map jsonb.reread⟩ }.setCall name (some { call with upserted := true })

/-- `INSERT INTO contract_abi_versions ... DO NOTHING`, with the submitted version. Without
one the statement violates the `NOT NULL` of its column, and the call throws. -/
def record (jsonb : Jsonb) (state : AbiState) (name : ℕ) (call : Call) : AbiState :=
  match call.submitted.abiVersion.filter fitsInt with
  | none => state.setCall name none
  | some version =>
    { state with
      history := state.history.insertNew version
        (jsonb.reread call.submitted.functionsText) }.setCall name none

end AbiState

inductive Action where
  | start (name : ℕ) (submitted : ContractMeta)
  | upsert (name : ℕ)
  | record (name : ℕ)
  | fails (name : ℕ)

inductive Step (jsonb : Jsonb) : AbiState → Action → AbiState → Prop
  | start {state : AbiState} (name : ℕ) (submitted : ContractMeta)
      (fresh : state.calls name = none) :
      Step jsonb state (.start name submitted)
        (state.setCall name (some ⟨submitted, state.contract, false⟩))
  | upsert {state : AbiState} {call : Call} (name : ℕ) (current : state.calls name = some call)
      (waits : call.upserted = false)
      (fits : fitsInt (abiVersion call.existing call.submitted) = true) :
      Step jsonb state (.upsert name) (state.upsert jsonb name call)
  | record {state : AbiState} {call : Call} (name : ℕ) (current : state.calls name = some call)
      (done : call.upserted = true) : Step jsonb state (.record name) (state.record jsonb name call)
  | fails {state : AbiState} {call : Call} (name : ℕ) (current : state.calls name = some call) :
      Step jsonb state (.fails name) (state.setCall name none)

def Idle (state : AbiState) : Prop := ∀ name, state.calls name = none

structure Versioned (middle final : AbiState) : Prop where
  /-- The version never decreases. -/
  increases : ∀ old, middle.contract = some old →
    ∃ now, final.contract = some now ∧ old.abiVersion ≤ now.abiVersion
  /-- Other functions have a version of their own. -/
  own : ∀ old now, middle.contract = some old → final.contract = some now →
    old.functionsText ≠ now.functionsText → old.abiVersion < now.abiVersion
  /-- The history has every version, with the functions that were stored with it. -/
  recorded : Idle final → ∀ old functions, middle.contract = some old →
    ((old.abiVersion, functions) ∈ getContractAbiHistory final ↔ functions = old.functionsText)

def Numbered (existing : Option ContractRow) (submitted : ContractMeta) : Prop :=
  submitted.abiVersion = some (abiVersion existing submitted) ∨
    ∃ row, existing = some row ∧ functionsChanged existing submitted = false

def Orderly (state : AbiState) : Action → Prop
  | .start _ submitted => Idle state ∧ Numbered state.contract submitted
  | .fails name => ∀ call, state.calls name = some call → call.upserted = false
  | _ => True

def OrderlyStep (jsonb : Jsonb) (before : AbiState) (action : Action) (after : AbiState) : Prop :=
  Step jsonb before action after ∧ Orderly before action

/-! ### The numbers and texts of a call -/

section Numbers

variable {row : ContractRow} {existing : Option ContractRow} {submitted : ContractMeta}

theorem le_abiVersion : row.abiVersion ≤ abiVersion (some row) submitted := by
  apply le_max_of_le_right
  apply le_add_of_nonneg_right
  split <;> decide

theorem lt_abiVersion (changed : functionsChanged (some row) submitted = true) :
    row.abiVersion < abiVersion (some row) submitted := by
  apply lt_max_of_lt_right
  rw [if_pos changed]
  exact Int.lt_succ row.abiVersion

theorem submitted_le_abiVersion {version : ℤ} (given : submitted.abiVersion = some version) :
    version ≤ abiVersion existing submitted := by
  apply le_max_of_le_left
  rw [incomingAbiVersion, given, Option.getD_some]

theorem functionsChanged_eq_false_iff :
    functionsChanged (some row) submitted = false ↔
      row.functionsText = submitted.functionsText := by
  rw [functionsChanged, Option.any_some, bne_eq_false_iff_eq]

theorem submitted_of_unchanged (unchanged : functionsChanged (some row) submitted = false)
    (later : row.abiVersion < abiVersion (some row) submitted) :
    submitted.abiVersion = some (abiVersion (some row) submitted) := by
  unfold abiVersion at later ⊢
  rw [unchanged] at later ⊢
  cases given : submitted.abiVersion with
  | none => simp [incomingAbiVersion, given, previousAbiVersion] at later
  | some version =>
    simp only [incomingAbiVersion, given, previousAbiVersion, Option.map_some,
      Option.getD_some, Bool.false_eq_true, if_false, add_zero] at later ⊢
    rw [max_eq_left (le_of_lt ((lt_max_iff.mp later).resolve_right (lt_irrefl _)))]

theorem functionsText_map (jsonb : Jsonb) (version : ℤ) :
    ContractRow.functionsText ⟨version, submitted.functions.map jsonb.reread⟩ =
      jsonb.reread submitted.functionsText := by
  unfold ContractRow.functionsText ContractMeta.functionsText
  cases submitted.functions with
  | none => exact jsonb.reread_empty.symm
  | some text => rfl

end Numbers

theorem mem_getContractAbiHistory {state : AbiState} {version : ℤ} {functions : String} :
    (version, functions) ∈ getContractAbiHistory state ↔
      state.history.lookup version = some functions := by
  rw [getContractAbiHistory, List.mem_insertionSort, List.mem_map]
  constructor
  · rintro ⟨row, member, same⟩
    cases same
    exact AList.mem_lookup_iff.mpr member
  · intro found
    exact ⟨⟨version, functions⟩, AList.mem_lookup_iff.mp found, rfl⟩

/-! ### What orderly calls keep -/

/-- What a call that has written its row leaves to do: the history has no row of the version
yet, or has it already. -/
structure Pending (jsonb : Jsonb) (history : Table ℤ String) (row : ContractRow)
    (submitted : ContractMeta) : Prop where
  text : jsonb.reread submitted.functionsText = row.functionsText
  below : ∀ version, submitted.abiVersion = some version → version ≤ row.abiVersion
  entry : (submitted.abiVersion = some row.abiVersion ∧ fitsInt row.abiVersion = true ∧
      history.lookup row.abiVersion = none) ∨
    history.lookup row.abiVersion = some row.functionsText

structure Kept (jsonb : Jsonb) (state : AbiState) : Prop where
  canonical : ∀ row, state.contract = some row →
    jsonb.reread row.functionsText = row.functionsText
  alone : ∀ first second, state.calls first ≠ none → state.calls second ≠ none → first = second
  bounded : ∀ version text, state.history.lookup version = some text →
    ∃ row, state.contract = some row ∧ version ≤ row.abiVersion
  waiting : ∀ name call, state.calls name = some call → call.upserted = false →
    call.existing = state.contract ∧ Numbered call.existing call.submitted
  pending : ∀ name call, state.calls name = some call → call.upserted = true →
    ∃ row, state.contract = some row ∧ Pending jsonb state.history row call.submitted
  recorded : (∀ name call, state.calls name = some call → call.upserted = false) →
    ∀ row, state.contract = some row →
      state.history.lookup row.abiVersion = some row.functionsText

section Orderly

variable {jsonb : Jsonb} {state before after : AbiState} {action : Action}

theorem kept_unregistered : Kept jsonb unregistered := by
  constructor
  · intro row found
    cases found
  · intro first second known
    exact absurd rfl known
  · intro version text found
    cases found
  · intro name call found
    cases found
  · intro name call found
    cases found
  · intro none row found
    cases found

theorem calls_setCall (name other : ℕ) (call : Option Call) :
    (state.setCall name call).calls other = if other = name then call else state.calls other :=
  Function.update_apply state.calls name call other

theorem calls_record (name other : ℕ) (call : Call) :
    (state.record jsonb name call).calls other =
      if other = name then none else state.calls other := by
  unfold AbiState.record
  split <;> exact calls_setCall name other none

theorem Kept.others (kept : Kept jsonb state) {name other : ℕ} {call : Call}
    (current : state.calls name = some call) (differs : other ≠ name) :
    state.calls other = none := by
  by_contra known
  exact differs (kept.alone other name known (by simp [current]))

theorem Kept.recorded_of_waits (kept : Kept jsonb state) {name : ℕ} {call : Call}
    (current : state.calls name = some call) (waits : call.upserted = false) {row : ContractRow}
    (found : state.contract = some row) :
    state.history.lookup row.abiVersion = some row.functionsText := by
  apply kept.recorded _ row found
  intro other different known
  by_cases same : other = name
  · subst same
    cases current.symm.trans known
    exact waits
  · cases (kept.others current same).symm.trans known

theorem Kept.start (kept : Kept jsonb state) {name : ℕ} {submitted : ContractMeta}
    (idle : Idle state) (numbered : Numbered state.contract submitted) :
    Kept jsonb (state.setCall name (some ⟨submitted, state.contract, false⟩)) := by
  have only {other : ℕ} {call : Call}
      (found : (state.setCall name (some ⟨submitted, state.contract, false⟩)).calls other =
        some call) : other = name ∧ call = ⟨submitted, state.contract, false⟩ := by
    rw [calls_setCall] at found
    split at found
    · next same => exact ⟨same, (Option.some.inj found).symm⟩
    · cases (idle other).symm.trans found
  constructor
  · exact kept.canonical
  · intro first second one two
    obtain ⟨_, isFirst⟩ := Option.ne_none_iff_exists'.mp one
    obtain ⟨_, isSecond⟩ := Option.ne_none_iff_exists'.mp two
    exact (only isFirst).1.trans (only isSecond).1.symm
  · exact kept.bounded
  · intro other call found waits
    obtain ⟨-, rfl⟩ := only found
    exact ⟨rfl, numbered⟩
  · intro other call found upserted
    obtain ⟨-, rfl⟩ := only found
    cases upserted
  · intro none row found
    apply kept.recorded _ row found
    intro other call known
    cases (idle other).symm.trans known

theorem Kept.pending_upsert (kept : Kept jsonb state) {name : ℕ} {call : Call}
    (current : state.calls name = some call) (waits : call.upserted = false)
    (fits : fitsInt (abiVersion call.existing call.submitted) = true) :
    Pending jsonb state.history
      ⟨abiVersion call.existing call.submitted, call.submitted.functions.map jsonb.reread⟩
      call.submitted := by
  obtain ⟨existing, numbered⟩ := kept.waiting name call current waits
  constructor
  · exact (functionsText_map jsonb _).symm
  · intro version given
    exact submitted_le_abiVersion given
  · rw [functionsText_map]
    cases found : call.existing with
    | none =>
      rw [found] at numbered existing
      rcases numbered with given | ⟨row, same, -⟩
      · rw [found] at fits
        refine Or.inl ⟨given, fits, ?_⟩
        by_contra taken
        obtain ⟨text, lookup⟩ := Option.ne_none_iff_exists'.mp taken
        obtain ⟨row, there, -⟩ := kept.bounded _ text lookup
        cases existing.trans there
      · cases same
    | some old =>
      rw [found] at numbered existing fits
      by_cases same : abiVersion (some old) call.submitted = old.abiVersion
      · -- The version stays, so the functions do too.
        have unchanged : functionsChanged (some old) call.submitted = false := by
          rw [← Bool.not_eq_true]
          intro changed
          exact absurd same (lt_abiVersion changed).ne'
        rw [functionsChanged_eq_false_iff] at unchanged
        refine Or.inr ?_
        rw [same, ← unchanged, kept.canonical old existing.symm]
        exact kept.recorded_of_waits current waits existing.symm
      · have later : old.abiVersion < abiVersion (some old) call.submitted :=
          lt_of_le_of_ne le_abiVersion (Ne.symm same)
        refine Or.inl ⟨?_, fits, ?_⟩
        · rcases numbered with given | ⟨row, same, unchanged⟩
          · exact given
          · cases same
            exact submitted_of_unchanged unchanged later
        · by_contra taken
          obtain ⟨text, lookup⟩ := Option.ne_none_iff_exists'.mp taken
          obtain ⟨row, there, below⟩ := kept.bounded _ text lookup
          cases existing.trans there
          exact absurd below (not_le.mpr later)

theorem Kept.upsert (kept : Kept jsonb state) {name : ℕ} {call : Call}
    (current : state.calls name = some call) (waits : call.upserted = false)
    (fits : fitsInt (abiVersion call.existing call.submitted) = true) :
    Kept jsonb (state.upsert jsonb name call) := by
  have pending := kept.pending_upsert current waits fits
  have existing := (kept.waiting name call current waits).1
  have calls (other : ℕ) : (state.upsert jsonb name call).calls other =
      if other = name then some { call with upserted := true } else none := by
    refine (calls_setCall name other _).trans ?_
    split
    · rfl
    · next differs => exact kept.others current differs
  constructor
  · intro row found
    cases found
    rw [functionsText_map, jsonb.reread_reread]
  · intro first second one two
    rw [calls, ne_eq, ite_eq_right_iff, Classical.not_imp] at one two
    exact one.1.trans two.1.symm
  · intro version text lookup
    obtain ⟨row, there, below⟩ := kept.bounded version text lookup
    refine ⟨_, rfl, below.trans ?_⟩
    rw [existing, there]
    exact le_abiVersion
  · intro other later found waits
    rw [calls] at found
    split at found
    · cases found
      cases waits
    · cases found
  · intro other later found upserted
    rw [calls] at found
    split at found
    · cases found
      exact ⟨_, rfl, pending⟩
    · cases found
  · intro none row found
    cases none name { call with upserted := true } (by rw [calls, if_pos rfl])

theorem Kept.finish (kept : Kept jsonb state) {name : ℕ} {call : Call}
    (current : state.calls name = some call) {history : Table ℤ String}
    (bounded : ∀ version text, history.lookup version = some text →
      ∃ row, state.contract = some row ∧ version ≤ row.abiVersion)
    (recorded : ∀ row, state.contract = some row →
      history.lookup row.abiVersion = some row.functionsText) :
    Kept jsonb ({ state with history := history }.setCall name none) := by
  have idle : Idle ({ state with history := history }.setCall name none) := by
    intro other
    refine (calls_setCall name other _).trans ?_
    split
    · rfl
    · next differs => exact kept.others current differs
  constructor
  · exact kept.canonical
  · intro first second one
    exact absurd (idle first) one
  · exact bounded
  · intro other later found
    cases (idle other).symm.trans found
  · intro other later found
    cases (idle other).symm.trans found
  · intro _ row found
    exact recorded row found

theorem Kept.record (kept : Kept jsonb state) {name : ℕ} {call : Call}
    (current : state.calls name = some call) (done : call.upserted = true) :
    Kept jsonb (state.record jsonb name call) := by
  obtain ⟨row, found, pending⟩ := kept.pending name call current done
  have only : ∀ other, state.contract = some other → other = row := fun other there =>
    Option.some.inj (there.symm.trans found)
  unfold AbiState.record
  split
  · next unfit =>
      apply kept.finish current kept.bounded
      intro other there
      cases only other there
      rcases pending.entry with ⟨given, fits, -⟩ | recorded
      · simp [given, fits] at unfit
      · exact recorded
  · next version fits =>
      have given : call.submitted.abiVersion = some version :=
        (Option.filter_eq_some_iff.mp fits).1
      apply kept.finish current
      · intro other text lookup
        rw [Table.lookup_insertNew, Option.or_eq_some_iff] at lookup
        rcases lookup with known | ⟨-, new⟩
        · exact kept.bounded other text known
        · split at new
          · next same => exact ⟨row, found, same ▸ pending.below _ given⟩
          · cases new
      · intro other there
        cases only other there
        rcases pending.entry with ⟨same, -, absent⟩ | recorded
        · cases given.symm.trans same
          rw [Table.lookup_insertNew, absent, if_pos rfl, pending.text]
          rfl
        · exact Table.lookup_insertNew_of_some state.history recorded

theorem Kept.step (kept : Kept jsonb before) (taken : OrderlyStep jsonb before action after) :
    Kept jsonb after := by
  obtain ⟨step, orderly⟩ := taken
  cases step with
  | start name submitted fresh => exact kept.start orderly.1 orderly.2
  | upsert name current waits fits => exact kept.upsert current waits fits
  | record name current done => exact kept.record current done
  | @fails call name current =>
    apply kept.finish current kept.bounded
    intro row found
    exact kept.recorded_of_waits current (orderly call current) found

theorem contract_of_step (kept : Kept jsonb before) (step : Step jsonb before action after)
    {old : ContractRow} (found : before.contract = some old) :
    ∃ now, after.contract = some now ∧ old.abiVersion ≤ now.abiVersion ∧
      (old.functionsText ≠ now.functionsText → old.abiVersion < now.abiVersion) := by
  cases step with
  | start | fails => exact ⟨old, found, le_refl _, fun differs => absurd rfl differs⟩
  | record =>
    refine ⟨old, ?_, le_refl _, fun differs => absurd rfl differs⟩
    unfold AbiState.record
    split <;> exact found
  | @upsert call name current waits fits =>
    have existing := (kept.waiting name call current waits).1
    refine ⟨_, rfl, ?_, ?_⟩
    · rw [existing, found]
      exact le_abiVersion
    · intro differs
      rw [existing, found]
      apply lt_abiVersion
      rw [← Bool.not_eq_false, functionsChanged_eq_false_iff]
      intro unchanged
      rw [functionsText_map, ← unchanged, kept.canonical old found] at differs
      exact differs rfl

def Shown (old : ContractRow) (state : AbiState) : Prop :=
  state.history.lookup old.abiVersion = some old.functionsText ∨
    ∃ row, state.contract = some row ∧ row.abiVersion = old.abiVersion ∧
      row.functionsText = old.functionsText

theorem shown_of_step (kept : Kept jsonb before) (step : Step jsonb before action after)
    {old : ContractRow} (shown : Shown old before) : Shown old after := by
  cases step with
  | start | fails => exact shown
  | @record call name current done =>
    unfold AbiState.record
    split
    · exact shown
    · exact shown.imp (Table.lookup_insertNew_of_some _) fun still => still
  | @upsert call name current waits fits =>
    refine Or.inl ?_
    rcases shown with recorded | ⟨row, found, version, text⟩
    · exact recorded
    · have recorded := kept.recorded_of_waits current waits found
      rw [version, text] at recorded
      exact recorded

theorem contract_of_run {rest : List Action} {final : AbiState} (kept : Kept jsonb state)
    (run : Run (OrderlyStep jsonb) state rest final) {old : ContractRow}
    (found : state.contract = some old) :
    Kept jsonb final ∧ Shown old final ∧ ∃ now, final.contract = some now ∧
      old.abiVersion ≤ now.abiVersion ∧
      (old.functionsText ≠ now.functionsText → old.abiVersion < now.abiVersion) := by
  induction run with
  | nil =>
    refine ⟨kept, Or.inr ⟨old, found, rfl, rfl⟩, old, found, le_refl _, ?_⟩
    exact fun differs => absurd rfl differs
  | snoc earlier taken ih =>
    obtain ⟨keptSoFar, shown, middle, there, later, own⟩ := ih
    obtain ⟨now, last, above, strict⟩ := contract_of_step keptSoFar taken.1 there
    refine ⟨keptSoFar.step taken, shown_of_step keptSoFar taken.1 shown, now, last,
      later.trans above, ?_⟩
    intro differs
    by_cases same : old.functionsText = middle.functionsText
    · exact lt_of_le_of_lt later (strict (same ▸ differs))
    · exact lt_of_lt_of_le (own same) above

/-- In every run of orderly calls, any state of the contract and any later one are
versioned as they should be. -/
theorem versioned_of_orderly (jsonb : Jsonb) {first rest : List Action} {middle final : AbiState}
    (earlier : Run (OrderlyStep jsonb) unregistered first middle)
    (later : Run (OrderlyStep jsonb) middle rest final) : Versioned middle final := by
  have kept : Kept jsonb middle :=
    earlier.invariant kept_unregistered fun _ _ _ holds taken => holds.step taken
  constructor
  · intro old found
    obtain ⟨-, -, now, last, above, -⟩ := contract_of_run kept later found
    exact ⟨now, last, above⟩
  · intro old now found last differs
    obtain ⟨-, -, same, there, -, own⟩ := contract_of_run kept later found
    cases there.symm.trans last
    exact own differs
  · intro idle old functions found
    obtain ⟨keptLast, shown, -⟩ := contract_of_run kept later found
    have recorded : final.history.lookup old.abiVersion = some old.functionsText := by
      rcases shown with there | ⟨row, current, version, text⟩
      · exact there
      · have last := keptLast.recorded (fun name call known => by
          cases (idle name).symm.trans known) row current
        rwa [version, text] at last
    rw [mem_getContractAbiHistory, recorded, Option.some_inj, eq_comm]

end Orderly

/-! ### Registering a contract and changing its functions -/

def sameText : Jsonb := ⟨fun text => text, rfl, fun _ => rfl⟩

def registered : ContractMeta := ⟨some 0, some "[]"⟩

def changed (version : ℤ) : ContractMeta := ⟨some version, some "[\"swap\"]"⟩

def oneCall (name : ℕ) (submitted : ContractMeta) : List Action :=
  [.start name submitted, .upsert name, .record name]

def afterCall (state : AbiState) (name : ℕ) (submitted : ContractMeta) : AbiState :=
  let call : Call := ⟨submitted, state.contract, false⟩
  (((state.setCall name (some call)).upsert sameText name call).record sameText name
    { call with upserted := true })

theorem idle_afterCall {state : AbiState} (name : ℕ) (submitted : ContractMeta)
    (idle : Idle state) : Idle (afterCall state name submitted) := by
  intro other
  refine (calls_record name other _).trans ?_
  split
  · rfl
  · next differs =>
      refine (calls_setCall name other _).trans ((if_neg differs).trans ?_)
      exact (calls_setCall name other _).trans ((if_neg differs).trans (idle other))

theorem run_oneCall {state : AbiState} (name : ℕ) (submitted : ContractMeta)
    (fresh : state.calls name = none)
    (fits : fitsInt (abiVersion state.contract submitted) = true) :
    Run (Step sameText) state (oneCall name submitted) (afterCall state name submitted) := by
  have started : Run (Step sameText) state [.start name submitted] _ :=
    Run.one (.start name submitted fresh)
  have upserted := started.snoc (.upsert name (Function.update_self _ _ _) rfl fits)
  exact upserted.snoc (.record name (Function.update_self _ _ _) rfl)

theorem runOrderly_oneCall {state : AbiState} (name : ℕ) (submitted : ContractMeta)
    (idle : Idle state) (numbered : Numbered state.contract submitted)
    (fits : fitsInt (abiVersion state.contract submitted) = true) :
    Run (OrderlyStep sameText) state (oneCall name submitted) (afterCall state name submitted) := by
  have started : Run (OrderlyStep sameText) state [.start name submitted] _ :=
    Run.one ⟨.start name submitted (idle name), idle, numbered⟩
  have upserted := started.snoc
    ⟨.upsert name (Function.update_self _ _ _) rfl fits, trivial⟩
  exact upserted.snoc ⟨.record name (Function.update_self _ _ _) rfl, trivial⟩

theorem numberedChange_versioned :
    Versioned (afterCall unregistered 0 registered)
      (afterCall (afterCall unregistered 0 registered) 0 (changed 1)) :=
  versioned_of_orderly sameText
    (runOrderly_oneCall 0 registered (fun _ => rfl) (Or.inl (by decide)) (by decide))
    (runOrderly_oneCall 0 (changed 1) (idle_afterCall 0 registered fun _ => rfl)
      (Or.inl (by decide)) (by decide))

/-- Changed functions that come with the version the contract was read with are stored under
the next version, of which the history does not hear. -/
theorem unnumberedChange_unrecorded : ¬ ∀ (first rest : List Action) (middle final : AbiState),
    Run (Step sameText) unregistered first middle → Run (Step sameText) middle rest final →
      Versioned middle final := by
  intro versioned
  have registered := @run_oneCall unregistered 0 registered rfl (by decide)
  have patched := registered.append (run_oneCall 0 (changed 0) rfl (by decide))
  have current := versioned _ _ _ _ patched Run.nil
  have idle : Idle (afterCall (afterCall unregistered 0 AbiVersions.registered) 0 (changed 0)) :=
    idle_afterCall 0 (changed 0) (idle_afterCall 0 AbiVersions.registered fun _ => rfl)
  have listed := (current.recorded idle _ _ rfl).mpr rfl
  rw [mem_getContractAbiHistory] at listed
  cases listed

end AbiVersions

end SorobanExplorer.Indexer
