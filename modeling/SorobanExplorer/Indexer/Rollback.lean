import Mathlib.Logic.Basic
import SorobanExplorer.Library.Transaction

/-!
Owns `rollbackFromLedger`, the transaction that purges the ledgers from a fork on and
rewinds the cursor. Of its three writes the first, on `events`, does not name the
network; `rollback_isolated_iff` says for which tables this changes rows of another.

Any statement of the transaction may fail, and the answer to its `COMMIT` may be lost.
-/

namespace SorobanExplorer.Indexer

open Library

/-! ### The tables -/

/-- A row of `events`. It also names the ledger's hash in the chain it was read from,
which no column holds. -/
structure EventRow where
  seq : Nat
  network : String
  contractId : String
  ledger : Nat
  block : String
deriving DecidableEq, Repr

/-- A row of `ledger_hashes`, whose key is `(network, ledger)`. -/
structure LedgerHash where
  network : String
  ledger : Nat
  hash : String
deriving DecidableEq, Repr

/-- A row of `daemon_state`, whose key is `(network, key)`. -/
structure DaemonState where
  network : String
  key : String
  value : String
deriving DecidableEq, Repr

structure ChainTables where
  events : List EventRow
  ledgerHashes : List LedgerHash
  daemonState : List DaemonState
deriving DecidableEq, Repr

/-! ### The transaction -/

inductive RollbackStatement where
  | connect
  | begin
  | deleteEvents
  | deleteLedgerHashes
  | saveCursor
  | commit
deriving DecidableEq, Repr

/-- What goes wrong in one call: statements that fail, or a commit that takes effect
although its answer is lost. -/
structure RollbackFaults where
  fails : RollbackStatement → Bool
  answerLost : Bool

def RollbackFaults.none : RollbackFaults := ⟨fun _ => false, false⟩

def RollbackFaults.aborts (faults : RollbackFaults) : Bool :=
  [.connect, .begin, .deleteEvents, .deleteLedgerHashes, .saveCursor, .commit].any faults.fails

def deleteEventsFrom (forkLedger : Nat) (tables : ChainTables) : ChainTables :=
  { tables with events := tables.events.filter fun row => ¬ forkLedger ≤ row.ledger }

def deleteLedgerHashesFrom (network : String) (forkLedger : Nat) (tables : ChainTables) :
    ChainTables :=
  { tables with
    ledgerHashes :=
      tables.ledgerHashes.filter fun row => ¬ (row.network = network ∧ forkLedger ≤ row.ledger) }

def saveDaemonState (network key value : String) (tables : ChainTables) : ChainTables :=
  { tables with
    daemonState :=
      if tables.daemonState.any fun row => row.network = network ∧ row.key = key then
        tables.daemonState.map fun row =>
          if row.network = network ∧ row.key = key then { row with value := value } else row
      else tables.daemonState ++ [⟨network, key, value⟩] }

section Rollback

variable (faults : RollbackFaults) (network : String) (forkLedger : Nat)

def RollbackFaults.run (statement : RollbackStatement) (write : ChainTables → ChainTables) :
    Tx ChainTables String PUnit :=
  if faults.fails statement then Tx.abort "statement failed" else Tx.update write

def rollbackStatements : Tx ChainTables String PUnit := do
  faults.run .connect id
  faults.run .begin id
  faults.run .deleteEvents (deleteEventsFrom forkLedger)
  faults.run .deleteLedgerHashes (deleteLedgerHashesFrom network forkLedger)
  faults.run .saveCursor (saveDaemonState network "cursor" (toString forkLedger))
  faults.run .commit id

def rollbackFromLedger (tables : ChainTables) : Except String PUnit × ChainTables :=
  match (rollbackStatements faults network forkLedger).settle tables with
  | (.ok done, after) => (if faults.answerLost then .error "answer lost" else .ok done, after)
  | (.error reason, after) => (.error reason, after)

def rolledBack (tables : ChainTables) : ChainTables :=
  saveDaemonState network "cursor" (toString forkLedger)
    (deleteLedgerHashesFrom network forkLedger (deleteEventsFrom forkLedger tables))

/-! ### What a rollback changes -/

theorem run_bind {α : Type} (statement : RollbackStatement) (write : ChainTables → ChainTables)
    (next : PUnit → Tx ChainTables String α) (tables : ChainTables) :
    (faults.run statement write >>= next) tables =
      if faults.fails statement then .error "statement failed" else next ⟨⟩ (write tables) := by
  unfold RollbackFaults.run
  split
  · rfl
  · exact Tx.bind_ok (Tx.update_apply write tables)

theorem run_apply (statement : RollbackStatement) (write : ChainTables → ChainTables)
    (tables : ChainTables) :
    faults.run statement write tables =
      if faults.fails statement then .error "statement failed" else .ok (⟨⟩, write tables) := by
  unfold RollbackFaults.run
  split <;> rfl

theorem rollbackStatements_apply (tables : ChainTables) :
    rollbackStatements faults network forkLedger tables =
      if faults.aborts then .error "statement failed"
      else .ok (⟨⟩, rolledBack network forkLedger tables) := by
  simp only [rollbackStatements, run_bind, run_apply, RollbackFaults.aborts, List.any_cons,
    List.any_nil, Bool.or_false, Bool.or_eq_true, ite_or]
  rfl

theorem rollbackFromLedger_aborts (aborts : faults.aborts = true) (tables : ChainTables) :
    rollbackFromLedger faults network forkLedger tables = (.error "statement failed", tables) := by
  simp [rollbackFromLedger, Tx.settle, rollbackStatements_apply, aborts]

theorem rollbackFromLedger_commits (commits : faults.aborts = false) (tables : ChainTables) :
    rollbackFromLedger faults network forkLedger tables =
      (if faults.answerLost then .error "answer lost" else .ok ⟨⟩,
        rolledBack network forkLedger tables) := by
  simp [rollbackFromLedger, Tx.settle, rollbackStatements_apply, commits]

theorem rollback_tables (tables : ChainTables) :
    (rollbackFromLedger faults network forkLedger tables).2 =
      if faults.aborts then tables else rolledBack network forkLedger tables := by
  cases aborts : faults.aborts with
  | true => simp [rollbackFromLedger_aborts faults network forkLedger aborts]
  | false => simp [rollbackFromLedger_commits faults network forkLedger aborts]

structure SparesOthers (before after : ChainTables) : Prop where
  events : after.events.filter (fun row => row.network ≠ network) =
    before.events.filter fun row => row.network ≠ network
  ledgerHashes : after.ledgerHashes.filter (fun row => row.network ≠ network) =
    before.ledgerHashes.filter fun row => row.network ≠ network
  daemonState : after.daemonState.filter (fun row => row.network ≠ network) =
    before.daemonState.filter fun row => row.network ≠ network

theorem ledgerHashes_spared (tables : ChainTables) :
    (deleteLedgerHashesFrom network forkLedger tables).ledgerHashes.filter
        (fun row => row.network ≠ network) =
      tables.ledgerHashes.filter fun row => row.network ≠ network := by
  simp only [deleteLedgerHashesFrom, List.filter_filter]
  apply List.filter_congr
  intro row _
  by_cases own : row.network = network <;> simp [own]

theorem filter_map_spared {α : Type} {kept : α → Bool} {write : α → α}
    (same : ∀ row, kept (write row) = kept row) (fixes : ∀ row, kept row → write row = row)
    (rows : List α) : (rows.map write).filter kept = rows.filter kept := by
  induction rows with
  | nil => rfl
  | cons row rest ih =>
    rw [List.map_cons, List.filter_cons, List.filter_cons, same, ih]
    split
    · next keeps => rw [fixes row keeps]
    · rfl

theorem daemonState_spared (key value : String) (tables : ChainTables) :
    (saveDaemonState network key value tables).daemonState.filter
        (fun row => row.network ≠ network) =
      tables.daemonState.filter fun row => row.network ≠ network := by
  unfold saveDaemonState
  dsimp only
  split
  · apply filter_map_spared
    · intro row
      split <;> rfl
    · intro row foreign
      have other : row.network ≠ network := of_decide_eq_true foreign
      simp [other]
  · simp [List.filter_append]

theorem events_spared_iff (tables : ChainTables) :
    (deleteEventsFrom forkLedger tables).events.filter (fun row => row.network ≠ network) =
        tables.events.filter (fun row => row.network ≠ network) ↔
      ∀ row ∈ tables.events, row.network ≠ network → row.ledger < forkLedger := by
  simp only [deleteEventsFrom, List.filter_filter]
  constructor
  · intro same row member foreign
    have kept : row ∈ tables.events.filter fun row => row.network ≠ network :=
      List.mem_filter.mpr ⟨member, by simpa using foreign⟩
    rw [← same, List.mem_filter] at kept
    simp at kept
    omega
  · intro below
    apply List.filter_congr
    intro row member
    by_cases own : row.network = network
    · simp [own]
    · have := below row member own
      simp [own, this]

/-- A rollback leaves the rows of other networks alone and is all or nothing if and only
if it is aborted or no other network has an event at the fork or above. -/
theorem rollback_isolated_iff (tables : ChainTables) :
    (SparesOthers network tables (rollbackFromLedger faults network forkLedger tables).2 ∧
      ((rollbackFromLedger faults network forkLedger tables).2 = tables ∨
        (rollbackFromLedger faults network forkLedger tables).2 =
          rolledBack network forkLedger tables)) ↔
      faults.aborts ∨
        ∀ row ∈ tables.events, row.network ≠ network → row.ledger < forkLedger := by
  rw [rollback_tables]
  cases faults.aborts with
  | true => simpa using SparesOthers.mk rfl rfl rfl
  | false =>
    simp only [Bool.false_eq_true, if_false, or_true, and_true, false_or]
    constructor
    · intro spares
      exact (events_spared_iff network forkLedger tables).mp spares.events
    · intro below
      constructor
      · exact (events_spared_iff network forkLedger tables).mpr below
      · exact ledgerHashes_spared network forkLedger (deleteEventsFrom forkLedger tables)
      · exact daemonState_spared network _ _ _

end Rollback

def twoNetworks : ChainTables where
  events := [⟨1, "testnet", "CPAYMENT", 900, "c4d1"⟩, ⟨2, "mainnet", "CVAULT", 58000, "7be2"⟩]
  ledgerHashes := [⟨"testnet", 900, "c4d1"⟩, ⟨"mainnet", 58000, "7be2"⟩]
  daemonState := [⟨"testnet", "cursor", "901"⟩, ⟨"mainnet", "cursor", "58001"⟩]

/-- A rollback of the lower one purges the history of the other. -/
theorem mainnetHistory_purged :
    ¬ ∀ faults network forkLedger tables,
      SparesOthers network tables (rollbackFromLedger faults network forkLedger tables).2 ∧
        ((rollbackFromLedger faults network forkLedger tables).2 = tables ∨
          (rollbackFromLedger faults network forkLedger tables).2 =
            rolledBack network forkLedger tables) := by
  intro isolated
  have spared := (isolated .none "testnet" 899 twoNetworks).1.events
  exact absurd spared (by decide)

end SorobanExplorer.Indexer
