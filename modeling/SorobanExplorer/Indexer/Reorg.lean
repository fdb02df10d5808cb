import Mathlib
import SorobanExplorer.Indexer.Rollback
import SorobanExplorer.Library.InsertIgnore
import SorobanExplorer.Library.Run

/-!
Owns the detection of chain reorganizations. The daemon records a hash only for the
ledger that a page of events reports as latest, and `checkForReorg` rolls back to the
earliest ledger whose recorded hash is not that of the chain.
`checkForReorg_recovers_iff` says after which histories this is the fork.
-/

namespace SorobanExplorer.Indexer

open Library

/-! ### Chains -/

structure Chain where
  hash : Nat → String
  named : ∀ ledger, hash ledger ≠ ""

structure Replacement where
  orphaned : Chain
  canonical : Chain
  fork : Nat
  agree : ∀ ledger, ledger < fork → orphaned.hash ledger = canonical.hash ledger
  differ : ∀ ledger, fork ≤ ledger → orphaned.hash ledger ≠ canonical.hash ledger

inductive Side where
  | orphaned
  | canonical
deriving DecidableEq, Repr

def Replacement.chain (replacement : Replacement) : Side → Chain
  | .orphaned => replacement.orphaned
  | .canonical => replacement.canonical

/-! ### Recorded hashes -/

def recordLedgerHash (network : String) (ledger : Nat) (hash : String) (tables : ChainTables) :
    ChainTables :=
  { tables with
    ledgerHashes :=
      insertIgnore (fun row => some (row.network, row.ledger)) tables.ledgerHashes
        ⟨network, ledger, hash⟩ }

/-- `ORDER BY ledger DESC` -/
def LedgerHash.Newer (first second : LedgerHash) : Prop := second.ledger ≤ first.ledger

instance : DecidableRel LedgerHash.Newer :=
  fun first second => inferInstanceAs (Decidable (second.ledger ≤ first.ledger))

instance : Std.Total LedgerHash.Newer := ⟨fun first second => Nat.le_total second.ledger first.ledger⟩

instance : IsTrans LedgerHash LedgerHash.Newer := ⟨fun _ _ _ left right => Nat.le_trans right left⟩

def getRecentLedgerHashes (network : String) (limit : Nat) (tables : ChainTables) :
    List LedgerHash :=
  ((tables.ledgerHashes.filter fun row => row.network = network).insertionSort
    LedgerHash.Newer).take limit

def loadCursor (network : String) (tables : ChainTables) : Option String :=
  (tables.daemonState.find? fun row => row.network = network ∧ row.key = "cursor").map
    DaemonState.value

theorem loadCursor_saveDaemonState {network : String} (value : String) (tables : ChainTables) :
    loadCursor network (saveDaemonState network "cursor" value tables) = some value := by
  unfold loadCursor saveDaemonState
  dsimp only
  split
  · next present =>
      obtain ⟨row, member, keyed⟩ := List.any_eq_true.mp present
      have found : (tables.daemonState.find? fun row =>
          row.network = network ∧ row.key = "cursor").isSome :=
        List.find?_isSome.mpr ⟨row, member, keyed⟩
      obtain ⟨first, same⟩ := Option.isSome_iff_exists.mp found
      have matched : first.network = network ∧ first.key = "cursor" := by
        simpa using List.find?_some same
      have kept : (fun row : DaemonState => decide (row.network = network ∧ row.key = "cursor")) ∘
          (fun row => if row.network = network ∧ row.key = "cursor" then { row with value := value }
            else row) =
          fun row => decide (row.network = network ∧ row.key = "cursor") := by
        funext row
        dsimp only [Function.comp_apply]
        split <;> rfl
      rw [List.find?_map, kept, same]
      simp [matched]
  · next absent =>
      have missing : (tables.daemonState.find? fun row =>
          row.network = network ∧ row.key = "cursor") = none := by
        simpa using absent
      rw [List.find?_append, missing]
      simp

/-! ### The check -/

section Check

variable (faults : RollbackFaults) (network : String) (lookback : Nat)
  (getLedger : Nat → Option String)

def mismatches (stored : List LedgerHash) : List Nat :=
  (stored.filter fun row =>
    match getLedger row.ledger with
    | some networkHash => networkHash ≠ "" ∧ networkHash ≠ row.hash
    | none => false).map LedgerHash.ledger

def rollback (forkLedger : Nat) (tables : ChainTables) :
    Except String (Option Nat) × ChainTables :=
  match rollbackFromLedger faults network forkLedger tables with
  | (.ok _, after) => (.ok (some forkLedger), after)
  | (.error reason, after) => (.error reason, after)

def checkForReorg (tables : ChainTables) : Except String (Option Nat) × ChainTables :=
  match (mismatches getLedger (getRecentLedgerHashes network lookback tables)).min? with
  | none => (.ok none, tables)
  | some earliestFork => rollback faults network earliestFork tables

def checkForReorgFast (latestLedger : Nat) (latestLedgerHash : String) (tables : ChainTables) :
    Except String (Option Nat) × ChainTables :=
  let stored := getRecentLedgerHashes network lookback tables
  match stored.find? fun row => row.ledger = latestLedger with
  | none => (.ok none, tables)
  | some latestEntry =>
    if latestEntry.hash ≠ latestLedgerHash then
      rollback faults network ((mismatches getLedger stored).foldl min latestLedger) tables
    else (.ok none, tables)

end Check

/-! ### Histories -/

structure ChainEvent where
  seq : Nat
  contractId : String
  ledger : Nat
deriving DecidableEq, Repr

/-- A page of events, as the node serves it from the chain it follows. Its latest
ledger may come without a hash, and recording the hash may fail. -/
structure ChainPage where
  side : Side
  events : List ChainEvent
  latestLedger : Nat
  latestHashRecorded : Bool
deriving DecidableEq, Repr

inductive IndexerStep where
  | index (page : ChainPage)
  | saveCursor (cursor : Nat)
  | checkFast (faults : RollbackFaults) (side : Side) (latestLedger : Nat)
  | check (faults : RollbackFaults) (side : Side)

section History

variable (replacement : Replacement) (network : String) (lookback : Nat)

/-- A node that answers `getLedger` for every ledger. -/
def Replacement.getLedger (side : Side) (ledger : Nat) : Option String :=
  some ((replacement.chain side).hash ledger)

def indexPage (page : ChainPage) (tables : ChainTables) : ChainTables :=
  let stored : ChainTables :=
    { tables with
      events := tables.events ++ page.events.map fun event =>
        ⟨event.seq, "testnet", event.contractId, event.ledger,
          (replacement.chain page.side).hash event.ledger⟩ }
  if page.latestLedger ≠ 0 ∧ page.latestHashRecorded then
    recordLedgerHash network page.latestLedger
      ((replacement.chain page.side).hash page.latestLedger) stored
  else stored

def IndexerStep.run (tables : ChainTables) : IndexerStep → ChainTables
  | .index page => indexPage replacement network page tables
  | .saveCursor cursor => saveDaemonState network "cursor" (toString cursor) tables
  | .checkFast faults side latestLedger =>
    (checkForReorgFast faults network lookback (replacement.getLedger side) latestLedger
      ((replacement.chain side).hash latestLedger) tables).2
  | .check faults side =>
    (checkForReorg faults network lookback (replacement.getLedger side) tables).2

def IndexerStep.Takes (before : ChainTables) (step : IndexerStep) (after : ChainTables) : Prop :=
  after = step.run replacement network lookback before

def WithinLookback (history : List IndexerStep) : Prop :=
  ∀ page, .index page ∈ history → page.latestLedger < replacement.fork + lookback

def Replacement.Orphaned (row : EventRow) : Prop :=
  replacement.fork ≤ row.ledger ∧ row.block = replacement.orphaned.hash row.ledger

def OrphanOnRecord (tables : ChainTables) (ledger : Nat) : Prop :=
  replacement.fork ≤ ledger ∧
    ⟨network, ledger, replacement.orphaned.hash ledger⟩ ∈ tables.ledgerHashes

instance (tables : ChainTables) : DecidablePred (OrphanOnRecord replacement network tables) :=
  fun ledger => inferInstanceAs (Decidable (_ ∧ _))

def Recovers (faults : RollbackFaults) (tables : ChainTables) : Prop :=
  ∀ reported after,
    checkForReorg faults network lookback (replacement.getLedger .canonical) tables =
      (.ok (some reported), after) →
    (∀ row ∈ after.events, ¬ replacement.Orphaned row) ∧
      ∃ cursor, loadCursor network after = some (toString cursor) ∧ cursor ≤ replacement.fork

/-! ### What histories record -/

structure OnRecord (tables : ChainTables) : Prop where
  sided : ∀ row ∈ tables.ledgerHashes, row.network = network →
    ∃ side, row.hash = (replacement.chain side).hash row.ledger
  distinct : tables.ledgerHashes.Pairwise fun earlier later =>
    earlier.network = network → later.network = network → earlier.ledger ≠ later.ledger
  below : ∀ row ∈ tables.ledgerHashes, row.network = network →
    row.ledger < replacement.fork + lookback

variable {replacement network lookback}

theorem OnRecord.of_sublist {before after : ChainTables}
    (record : OnRecord replacement network lookback before)
    (kept : after.ledgerHashes.Sublist before.ledgerHashes) :
    OnRecord replacement network lookback after where
  sided row member := record.sided row (kept.subset member)
  distinct := record.distinct.sublist kept
  below row member := record.below row (kept.subset member)

theorem OnRecord.recordLedgerHash {tables : ChainTables}
    (record : OnRecord replacement network lookback tables) (side : Side) {ledger : Nat}
    (below : ledger < replacement.fork + lookback) :
    OnRecord replacement network lookback
      (Indexer.recordLedgerHash network ledger ((replacement.chain side).hash ledger) tables) := by
  unfold Indexer.recordLedgerHash
  obtain ⟨_, _, _, skipped⟩ | ⟨free, added⟩ :=
    insertIgnore_cases (fun row : LedgerHash => some (row.network, row.ledger))
      tables.ledgerHashes ⟨network, ledger, (replacement.chain side).hash ledger⟩
  · rw [skipped]
    exact record
  · rw [added]
    constructor
    · intro row member own
      obtain old | new := List.mem_append.mp member
      · exact record.sided row old own
      · cases List.mem_singleton.mp new
        exact ⟨side, rfl⟩
    · rw [List.pairwise_append]
      refine ⟨record.distinct, List.pairwise_singleton _ _, ?_⟩
      intro earlier member later new own _ same
      cases List.mem_singleton.mp new
      have absent := free _ rfl
      rw [← own, ← same] at absent
      have present : (firstWithKey (fun row : LedgerHash => some (row.network, row.ledger))
          tables.ledgerHashes (earlier.network, earlier.ledger)).isSome :=
        firstWithKey_isSome member rfl
      rw [absent] at present
      cases present
    · intro row member own
      obtain old | new := List.mem_append.mp member
      · exact record.below row old own
      · cases List.mem_singleton.mp new
        exact below

theorem rollback_sublist (faults : RollbackFaults) (forkLedger : Nat) (tables : ChainTables) :
    (rollback faults network forkLedger tables).2.ledgerHashes.Sublist tables.ledgerHashes := by
  have same : (rollback faults network forkLedger tables).2 =
      (rollbackFromLedger faults network forkLedger tables).2 := by
    unfold rollback
    split <;> simp_all
  rw [same, rollback_tables]
  split
  · exact List.Sublist.refl _
  · exact List.filter_sublist

theorem checkForReorg_sublist (faults : RollbackFaults) (getLedger : Nat → Option String)
    (tables : ChainTables) :
    (checkForReorg faults network lookback getLedger tables).2.ledgerHashes.Sublist
      tables.ledgerHashes := by
  unfold checkForReorg
  split
  · exact List.Sublist.refl _
  · exact rollback_sublist _ _ _

theorem checkForReorgFast_sublist (faults : RollbackFaults) (getLedger : Nat → Option String)
    (latestLedger : Nat) (latestLedgerHash : String) (tables : ChainTables) :
    (checkForReorgFast faults network lookback getLedger latestLedger latestLedgerHash
      tables).2.ledgerHashes.Sublist tables.ledgerHashes := by
  unfold checkForReorgFast
  dsimp only
  split
  · exact List.Sublist.refl _
  · split
    · exact rollback_sublist _ _ _
    · exact List.Sublist.refl _

theorem onRecord_of_run {start tables : ChainTables} {history : List IndexerStep}
    (fresh : ∀ row ∈ start.ledgerHashes, row.network ≠ network)
    (run : Run (IndexerStep.Takes replacement network lookback) start history tables)
    (within : WithinLookback replacement lookback history) :
    OnRecord replacement network lookback tables := by
  induction run with
  | nil =>
    constructor
    · exact fun row member own => absurd own (fresh row member)
    · exact List.pairwise_of_forall_mem_list fun earlier member _ _ own =>
        absurd own (fresh earlier member)
    · exact fun row member own => absurd own (fresh row member)
  | @snoc history step before after earlier taken ih =>
    have record := ih fun page member =>
      within page (List.mem_append_left _ member)
    cases taken
    cases step with
    | index page =>
      have below := within page (by simp)
      simp only [IndexerStep.run, indexPage]
      split
      · apply OnRecord.recordLedgerHash _ _ below
        exact record.of_sublist (List.Sublist.refl _)
      · exact record.of_sublist (List.Sublist.refl _)
    | saveCursor cursor => exact record.of_sublist (List.Sublist.refl _)
    | checkFast faults side latestLedger =>
      exact record.of_sublist (checkForReorgFast_sublist _ _ _ _ _)
    | check faults side => exact record.of_sublist (checkForReorg_sublist _ _ _)

/-! ### What the check sees -/

theorem mem_take_of_few {rows : List LedgerHash} {bound limit : Nat} {row : LedgerHash}
    (falling : rows.Pairwise fun earlier later => later.ledger ≤ earlier.ledger)
    (few : (rows.filter fun row => bound ≤ row.ledger).length ≤ limit)
    (member : row ∈ rows) (above : bound ≤ row.ledger) : row ∈ rows.take limit := by
  induction rows generalizing limit with
  | nil => cases member
  | cons head rest ih =>
    obtain ⟨tops, falls⟩ := List.pairwise_cons.mp falling
    have headAbove : bound ≤ head.ledger := by
      obtain rfl | later := List.mem_cons.mp member
      · exact above
      · exact above.trans (tops row later)
    rw [List.filter_cons_of_pos (by simpa using headAbove), List.length_cons] at few
    obtain ⟨shorter, rfl⟩ : ∃ shorter, limit = shorter + 1 := ⟨limit - 1, by omega⟩
    rw [List.take_succ_cons]
    obtain rfl | later := List.mem_cons.mp member
    · exact List.mem_cons_self
    · exact List.mem_cons_of_mem _ (ih falls (by omega) later)

theorem length_le_of_span {rows : List LedgerHash} {bound span : Nat}
    (distinct : rows.Pairwise fun earlier later => earlier.ledger ≠ later.ledger)
    (within : ∀ row ∈ rows, bound ≤ row.ledger ∧ row.ledger < bound + span) :
    rows.length ≤ span := by
  have nodup : (rows.map LedgerHash.ledger).Nodup := by
    rw [List.Nodup, List.pairwise_map]
    exact distinct
  have inside : (rows.map LedgerHash.ledger).toFinset ⊆ Finset.Ico bound (bound + span) := by
    intro ledger member
    obtain ⟨row, among, rfl⟩ := List.mem_map.mp (List.mem_toFinset.mp member)
    exact Finset.mem_Ico.mpr (within row among)
  calc rows.length = (rows.map LedgerHash.ledger).toFinset.card := by
        rw [List.toFinset_card_of_nodup nodup, List.length_map]
    _ ≤ (Finset.Ico bound (bound + span)).card := Finset.card_le_card inside
    _ = span := by simp

theorem mem_of_mem_recent {tables : ChainTables} {row : LedgerHash}
    (recent : row ∈ getRecentLedgerHashes network lookback tables) :
    row ∈ tables.ledgerHashes ∧ row.network = network := by
  have member := (List.mem_insertionSort _).mp (List.mem_of_mem_take recent)
  simpa using member

theorem mem_recent {tables : ChainTables} (record : OnRecord replacement network lookback tables)
    {row : LedgerHash} (member : row ∈ tables.ledgerHashes) (own : row.network = network)
    (above : replacement.fork ≤ row.ledger) :
    row ∈ getRecentLedgerHashes network lookback tables := by
  have sorted := List.pairwise_insertionSort LedgerHash.Newer
    (tables.ledgerHashes.filter fun row => row.network = network)
  have few : ((((tables.ledgerHashes.filter fun row => row.network = network).insertionSort
      LedgerHash.Newer).filter fun row => replacement.fork ≤ row.ledger)).length ≤ lookback := by
    rw [((List.perm_insertionSort _ _).filter _).length_eq]
    apply length_le_of_span
    · apply List.Pairwise.filter
      rw [List.pairwise_filter]
      exact record.distinct.imp fun differ left right =>
        differ (of_decide_eq_true left) (of_decide_eq_true right)
    · intro other among
      simp only [List.mem_filter, decide_eq_true_eq] at among
      exact ⟨among.2, record.below other among.1.1 among.1.2⟩
  apply mem_take_of_few sorted few _ above
  simpa using ⟨member, own⟩

theorem mem_mismatches_iff {tables : ChainTables}
    (record : OnRecord replacement network lookback tables) (ledger : Nat) :
    ledger ∈ mismatches (replacement.getLedger .canonical)
        (getRecentLedgerHashes network lookback tables) ↔
      OrphanOnRecord replacement network tables ledger := by
  unfold mismatches OrphanOnRecord
  simp only [Replacement.getLedger, Replacement.chain, List.mem_map, List.mem_filter]
  constructor
  · rintro ⟨row, ⟨recent, differs⟩, rfl⟩
    obtain ⟨member, own⟩ := mem_of_mem_recent recent
    obtain ⟨side, hashed⟩ := record.sided row member own
    have differs : replacement.canonical.hash row.ledger ≠ row.hash := by
      simpa [replacement.canonical.named] using differs
    cases side with
    | canonical => exact absurd hashed.symm differs
    | orphaned =>
      have hashed : row.hash = replacement.orphaned.hash row.ledger := hashed
      constructor
      · by_contra below
        exact differs ((replacement.agree _ (by omega)).symm.trans hashed.symm)
      · rw [← hashed, ← own]
        exact member
  · rintro ⟨above, member⟩
    have differs := replacement.differ ledger above
    refine ⟨_, ⟨mem_recent record member rfl above, ?_⟩, rfl⟩
    simpa [replacement.canonical.named] using differs.symm

/-! ### Whether the check recovers -/

theorem loadCursor_rolledBack (forkLedger : Nat) (tables : ChainTables) :
    loadCursor network (rolledBack network forkLedger tables) = some (toString forkLedger) := by
  exact loadCursor_saveDaemonState _ _

theorem checkForReorg_eq_ok_iff (faults : RollbackFaults) (getLedger : Nat → Option String)
    (tables after : ChainTables) (reported : Nat) :
    checkForReorg faults network lookback getLedger tables = (.ok (some reported), after) ↔
      (faults.aborts = false ∧ faults.answerLost = false) ∧
        (mismatches getLedger (getRecentLedgerHashes network lookback tables)).min? =
          some reported ∧ after = rolledBack network reported tables := by
  unfold checkForReorg rollback
  cases found : (mismatches getLedger (getRecentLedgerHashes network lookback tables)).min? with
  | none => simp
  | some earliest =>
    cases aborts : faults.aborts with
    | true => simp [rollbackFromLedger_aborts faults network earliest aborts]
    | false =>
      cases lost : faults.answerLost with
      | true => simp [rollbackFromLedger_commits faults network earliest aborts, lost]
      | false =>
        simp only [rollbackFromLedger_commits faults network earliest aborts, lost,
          Bool.false_eq_true, if_false, Prod.mk.injEq, Except.ok.injEq, Option.some.injEq,
          and_self, true_and]
        constructor
        · rintro ⟨rfl, rfl⟩
          exact ⟨rfl, rfl⟩
        · rintro ⟨rfl, rfl⟩
          exact ⟨rfl, rfl⟩

/-- After every history, a check recovers from the replacement if and only if its
rollback fails, no orphaned ledger is on record, or the fork itself is. -/
theorem checkForReorg_recovers_iff {start tables : ChainTables} {history : List IndexerStep}
    (fresh : ∀ row ∈ start.ledgerHashes, row.network ≠ network)
    (run : Run (IndexerStep.Takes replacement network lookback) start history tables)
    (within : WithinLookback replacement lookback history) (faults : RollbackFaults) :
    Recovers replacement network lookback faults tables ↔
      faults.aborts ∨ faults.answerLost ∨
        ((∃ ledger, OrphanOnRecord replacement network tables ledger) →
          OrphanOnRecord replacement network tables replacement.fork) := by
  have record := onRecord_of_run fresh run within
  have earliest : ∀ ledger,
      (mismatches (replacement.getLedger .canonical)
        (getRecentLedgerHashes network lookback tables)).min? = some ledger ↔
      OrphanOnRecord replacement network tables ledger ∧
        ∀ other, OrphanOnRecord replacement network tables other → ledger ≤ other := by
    intro ledger
    rw [List.min?_eq_some_iff]
    simp only [mem_mismatches_iff record]
  constructor
  · intro recovers
    cases aborts : faults.aborts with
    | true => exact Or.inl rfl
    | false =>
    cases lost : faults.answerLost with
    | true => exact Or.inr (Or.inl rfl)
    | false =>
      apply Or.inr ∘ Or.inr
      intro someOrphan
      -- The first orphaned ledger on record is where the check rolls back to.
      have first := Nat.find_spec someOrphan
      have least : ∀ other, OrphanOnRecord replacement network tables other →
          Nat.find someOrphan ≤ other := fun other orphan => Nat.find_min' someOrphan orphan
      have reports := (checkForReorg_eq_ok_iff faults (replacement.getLedger .canonical) tables
        _ _).mpr ⟨⟨aborts, lost⟩, (earliest _).mpr ⟨first, least⟩, rfl⟩
      obtain ⟨_, cursor, loaded, reaches⟩ := recovers _ _ reports
      rw [loadCursor_rolledBack] at loaded
      have same := Nat.repr_injective (Option.some.inj loaded)
      have atFork : Nat.find someOrphan = replacement.fork := by
        have := first.1
        omega
      rwa [atFork] at first
  · intro condition reported after reports
    obtain ⟨⟨commits, answered⟩, found, rfl⟩ :=
      (checkForReorg_eq_ok_iff faults _ tables after reported).mp reports
    obtain ⟨orphan, least⟩ := (earliest reported).mp found
    have onFork : OrphanOnRecord replacement network tables replacement.fork := by
      obtain aborts | lost | onRecord := condition
      · simp [aborts] at commits
      · simp [lost] at answered
      · exact onRecord ⟨reported, orphan⟩
    have atFork : reported ≤ replacement.fork := least _ onFork
    refine ⟨?_, reported, loadCursor_rolledBack _ _, atFork⟩
    intro row kept orphaned
    have below := (List.mem_filter.mp kept).2
    have above := orphaned.1
    simp at below
    omega

end History

def forkAt105 : Replacement where
  orphaned :=
    ⟨fun ledger => if ledger < 105 then "c" ++ toString ledger else "o" ++ toString ledger, by
      intro ledger
      split <;> simp⟩
  canonical := ⟨fun ledger => "c" ++ toString ledger, by simp⟩
  fork := 105
  agree ledger below := if_pos below
  differ ledger above same := by simp [Nat.not_lt.mpr above] at same

def noChain : ChainTables := ⟨[], [], []⟩

def twoPolls (latestLedger : Nat) : List IndexerStep :=
  [.index ⟨.orphaned, [⟨1, "CPAYMENT", 99⟩], 100, true⟩,
    .index ⟨.orphaned, [⟨2, "CPAYMENT", 105⟩], latestLedger, true⟩]

def afterTwoPolls (latestLedger : Nat) : ChainTables :=
  (twoPolls latestLedger).foldl (fun tables step => step.run forkAt105 "testnet" 200 tables) noChain

theorem run_twoPolls (latestLedger : Nat) :
    Run (IndexerStep.Takes forkAt105 "testnet" 200) noChain (twoPolls latestLedger)
      (afterTwoPolls latestLedger) :=
  Run.snoc (Run.one rfl) rfl

theorem within_twoPolls {latestLedger : Nat} (below : latestLedger < 305) :
    WithinLookback forkAt105 200 (twoPolls latestLedger) := by
  intro page member
  simp only [twoPolls, List.mem_cons, List.not_mem_nil, or_false, IndexerStep.index.injEq] at member
  obtain rfl | rfl := member
  · decide
  · exact below

/-- The second poll ends at the fork. -/
theorem forkPolled_recovers : Recovers forkAt105 "testnet" 200 .none (afterTwoPolls 105) :=
  (checkForReorg_recovers_iff (by decide) (run_twoPolls 105)
    (within_twoPolls (by decide)) .none).mpr (Or.inr (Or.inr fun _ => by decide))

/-- The second poll ends above the fork: an event of ledger 105 is left, and the cursor
is at 110. -/
theorem forkSkipped_stays :
    ¬ ∀ (replacement : Replacement) (network : String) (lookback : Nat)
      (start tables : ChainTables) (history : List IndexerStep),
      (∀ row ∈ start.ledgerHashes, row.network ≠ network) →
      Run (IndexerStep.Takes replacement network lookback) start history tables →
      WithinLookback replacement lookback history →
      Recovers replacement network lookback .none tables := by
  intro recovers
  have stays := recovers forkAt105 "testnet" 200 noChain _ _ (by decide) (run_twoPolls 110)
    (within_twoPolls (by decide)) 110 (rolledBack "testnet" 110 (afterTwoPolls 110)) rfl
  exact stays.1 ⟨2, "testnet", "CPAYMENT", 105, "o105"⟩ (by decide) ⟨by decide, rfl⟩

end SorobanExplorer.Indexer
