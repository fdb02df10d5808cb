import SorobanExplorer.Library.OrderedMap

/-!
Owns the detection of contract upgrades in the ledger changes of a transaction.
`detectUpgrade` answers with the first contract whose code hash changed, and without its name.
-/

namespace SorobanExplorer.Indexer

open Library

namespace UpgradeDetector

abbrev ContractId := String

abbrev CodeHash := BitVec 256

inductive ChangeKind where
  | state
  | updated
  | other
deriving DecidableEq, Repr

/-- A ledger change. `instance?` is there if it is about the instance of a Wasm contract:
the contract and its code hash. -/
structure LedgerChange where
  kind : ChangeKind
  instance? : Option (ContractId × CodeHash)
deriving DecidableEq, Repr

structure Upgrade where
  oldHash : CodeHash
  newHash : CodeHash
deriving DecidableEq, Repr

def instanceEntries (kind : ChangeKind) (changes : List LedgerChange) :
    List (ContractId × CodeHash) :=
  changes.filterMap fun change => if change.kind = kind then change.instance? else none

def changedHash (after : OrderedMap ContractId CodeHash) (entry : ContractId × CodeHash) :
    Option Upgrade :=
  match after.get entry.1 with
  | none => none
  | some newHash => if newHash ≠ entry.2 then some ⟨entry.2, newHash⟩ else none

def hashes (kind : ChangeKind) (changes : List LedgerChange) : OrderedMap ContractId CodeHash :=
  OrderedMap.ofEntries (instanceEntries kind changes)

def detectUpgrade (changes : List LedgerChange) : Option Upgrade :=
  (hashes .state changes).entries.findSome? (changedHash (hashes .updated changes))

/-! ### The upgrade of a contract -/

def lastHash (kind : ChangeKind) (changes : List LedgerChange) (contract : ContractId) :
    Option CodeHash :=
  ((instanceEntries kind changes).reverse.find? fun entry => entry.1 = contract).map Prod.snd

def upgradeOf (changes : List LedgerChange) (contract : ContractId) : Option Upgrade :=
  match lastHash .state changes contract, lastHash .updated changes contract with
  | some oldHash, some newHash => if newHash ≠ oldHash then some ⟨oldHash, newHash⟩ else none
  | _, _ => none

section Detection

variable {changes : List LedgerChange} {upgrade : Upgrade}

theorem get_hashes (kind : ChangeKind) (contract : ContractId) :
    (hashes kind changes).get contract = lastHash kind changes contract :=
  OrderedMap.get_ofEntries _

theorem upgradeOf_eq_some_iff {contract : ContractId} :
    upgradeOf changes contract = some upgrade ↔
      lastHash .state changes contract = some upgrade.oldHash ∧
        lastHash .updated changes contract = some upgrade.newHash ∧
          upgrade.newHash ≠ upgrade.oldHash := by
  obtain ⟨oldHash, newHash⟩ := upgrade
  unfold upgradeOf
  split
  · next first second before after =>
      rw [before, after]
      split
      · next differs =>
          simp only [Option.some.injEq, Upgrade.mk.injEq]
          constructor
          · rintro ⟨rfl, rfl⟩
            exact ⟨rfl, rfl, differs⟩
          · rintro ⟨sameOld, sameNew, -⟩
            exact ⟨sameOld, sameNew⟩
      · next same =>
          simp only [reduceCtorEq, Option.some.injEq, false_iff]
          rintro ⟨rfl, rfl, differs⟩
          exact same differs
  · next missing =>
      simp only [reduceCtorEq, false_iff]
      rintro ⟨before, after, -⟩
      exact missing _ _ before after

theorem changedHash_eq_some_iff {entry : ContractId × CodeHash}
    (before : lastHash .state changes entry.1 = some entry.2) :
    changedHash (hashes .updated changes) entry = some upgrade ↔
      upgradeOf changes entry.1 = some upgrade := by
  unfold changedHash upgradeOf
  rw [get_hashes, before]
  cases lastHash .updated changes entry.1 <;> rfl

theorem lastHash_of_mem {entry : ContractId × CodeHash}
    (member : entry ∈ (hashes .state changes).entries) :
    lastHash .state changes entry.1 = some entry.2 :=
  (get_hashes _ _).symm.trans ((OrderedMap.mem_entries_iff _).mp member)

theorem upgradeOf_of_detectUpgrade (found : detectUpgrade changes = some upgrade) :
    ∃ contract, upgradeOf changes contract = some upgrade := by
  obtain ⟨entry, member, changed⟩ := List.exists_of_findSome?_eq_some found
  exact ⟨entry.1, (changedHash_eq_some_iff (lastHash_of_mem member)).mp changed⟩

theorem detectUpgrade_eq_none_iff :
    detectUpgrade changes = none ↔ ∀ contract, upgradeOf changes contract = none := by
  rw [detectUpgrade, List.findSome?_eq_none_iff]
  constructor
  · intro unchanged contract
    rw [Option.eq_none_iff_forall_ne_some]
    intro upgrade found
    have before := (upgradeOf_eq_some_iff.mp found).1
    have member : (contract, upgrade.oldHash) ∈ (hashes .state changes).entries :=
      (OrderedMap.mem_entries_iff _).mpr ((get_hashes _ _).trans before)
    have changed := (changedHash_eq_some_iff (lastHash_of_mem member)).mpr found
    rw [unchanged _ member] at changed
    cases changed
  · intro unchanged entry member
    rw [Option.eq_none_iff_forall_ne_some]
    intro upgrade changed
    have found := (changedHash_eq_some_iff (lastHash_of_mem member)).mp changed
    rw [unchanged] at found
    cases found

end Detection

end UpgradeDetector

end SorobanExplorer.Indexer
