import SorobanExplorer.Library.OrderedMap
import SorobanExplorer.Library.Validity

/-!
Owns the history of contract state: the versions that ledger entry changes and evictions
give, `applyStateVersions`, and `snapshotAt`.

`snapshotAt_exact_iff` says at which ledgers a snapshot has the live entries of a contract.
-/

namespace SorobanExplorer.Indexer

open Library

namespace StateHistory

/-- What `entryParts` reads of a ledger entry. The decoded texts are what `String` makes of
the native values. -/
structure EntryParts where
  contractId : String
  keyXdr : String
  valueXdr : Option String
  durability : String
  decodedKey : Option String
  decodedValue : Option String
deriving DecidableEq, Repr

inductive ChangeKind where
  | ledgerEntryState
  | ledgerEntryCreated
  | ledgerEntryUpdated
  | ledgerEntryRemoved
deriving DecidableEq, Repr

structure Change where
  kind : ChangeKind
  entry : EntryParts
deriving DecidableEq, Repr

inductive ChangeType where
  | created
  | updated
  | removed
  | evicted
deriving DecidableEq, Repr

structure StateVersion extends EntryParts where
  ledgerFrom : ℤ
  ledgerTo : Option ℤ
  txHash : Option String
  txIndex : ℕ
  changeType : ChangeType
deriving DecidableEq, Repr

structure TransactionMeta where
  ledger : ℤ
  txHash : Option String
  txIndex : ℕ
  changes : List Change
deriving DecidableEq, Repr

structure Eviction where
  contractId : String
  keyXdr : String
  durability : String
  ledger : ℤ
  txHash : Option String
  expiryLedger : Option ℤ
deriving DecidableEq, Repr

/-- `kind === "ledgerEntryRemoved" ? "removed" : …`; a row of the state before is an update. -/
def ChangeKind.changeType : ChangeKind → ChangeType
  | .ledgerEntryRemoved => .removed
  | .ledgerEntryCreated => .created
  | .ledgerEntryUpdated => .updated
  | .ledgerEntryState => .updated

def Change.version (transaction : TransactionMeta) (change : Change) : StateVersion where
  toEntryParts := { change.entry with
    valueXdr := if change.kind = .ledgerEntryRemoved then none else change.entry.valueXdr }
  ledgerFrom := transaction.ledger
  ledgerTo := none
  txHash := transaction.txHash
  txIndex := transaction.txIndex
  changeType := change.kind.changeType

def extractStateVersions (transaction : TransactionMeta) : List StateVersion :=
  transaction.changes.filterMap fun change =>
    if change.entry.contractId = "" ∨ change.entry.keyXdr = "" then none
    else some (change.version transaction)

def evictionVersion (eviction : Eviction) : StateVersion where
  contractId := eviction.contractId
  keyXdr := eviction.keyXdr
  valueXdr := none
  durability := eviction.durability
  decodedKey := none
  decodedValue := none
  ledgerFrom := eviction.ledger
  ledgerTo := some (eviction.expiryLedger.getD eviction.ledger)
  txHash := eviction.txHash
  txIndex := 0
  changeType := .evicted

def validity : Validity StateVersion (String × String) where
  key version := (version.contractId, version.keyXdr)
  start := StateVersion.ledgerFrom
  stop := StateVersion.ledgerTo
  close version ledger := { version with ledgerTo := some ledger }
  key_close _ _ := rfl
  start_close _ _ := rfl
  stop_close _ _ := rfl

def applyStateVersions (history versions : List StateVersion) : List StateVersion :=
  versions.foldl validity.push history

/-- The order of `ledger_from`, then `tx_index`. -/
def inOrder (first second : StateVersion) : Bool :=
  first.ledgerFrom < second.ledgerFrom ||
    (first.ledgerFrom = second.ledgerFrom && first.txIndex ≤ second.txIndex)

/-- `prefix && !String(row.decoded_key ?? row.key_xdr).startsWith(prefix)` is skipped. -/
def StateVersion.hasPrefix (version : StateVersion) (keyPrefix : String) : Bool :=
  keyPrefix = "" || keyPrefix.toList.isPrefixOf (version.decodedKey.getD version.keyXdr).toList

def snapshotAt (history : List StateVersion) (contractId : String) (ledger : ℤ)
    (keyPrefix : String) : List StateVersion :=
  let shown := history.filter fun row => row.contractId = contractId ∧ validity.Shows ledger row
  let rows := (shown.mergeSort inOrder).filter fun row => row.hasPrefix keyPrefix
  let visible := OrderedMap.ofEntries (rows.map fun row => (row.keyXdr, row))
  (visible.entries.map Prod.snd).filter fun row => row.changeType ≠ .removed

/-! ### Histories of the chain -/

inductive Record where
  | ofTransaction (transaction : TransactionMeta)
  | ofEviction (eviction : Eviction)
deriving DecidableEq, Repr

namespace Record

def ledger : Record → ℤ
  | .ofTransaction transaction => transaction.ledger
  | .ofEviction eviction => eviction.ledger

def versions : Record → List StateVersion
  | .ofTransaction transaction => extractStateVersions transaction
  | .ofEviction eviction => [evictionVersion eviction]

end Record

def historyOf (records : List Record) : List StateVersion :=
  records.foldl (fun history record => applyStateVersions history record.versions) []

/-- What happens to an entry: its value is written, is as before, or the entry ends. -/
inductive Effect where
  | writes (value : Option String)
  | holds (value : Option String)
  | ends
deriving DecidableEq, Repr

structure Occurrence where
  key : String × String
  ledger : ℤ
  effect : Effect
deriving DecidableEq, Repr

def Change.effect (change : Change) : Effect :=
  match change.kind with
  | .ledgerEntryState => .holds change.entry.valueXdr
  | .ledgerEntryCreated => .writes change.entry.valueXdr
  | .ledgerEntryUpdated => .writes change.entry.valueXdr
  | .ledgerEntryRemoved => .ends

def Record.occurrences : Record → List Occurrence
  | .ofTransaction transaction => transaction.changes.map fun change =>
    ⟨(change.entry.contractId, change.entry.keyXdr), transaction.ledger, change.effect⟩
  | .ofEviction eviction => [⟨(eviction.contractId, eviction.keyXdr), eviction.ledger, .ends⟩]

abbrev Live := String × String → Option (Option String)

def Occurrence.apply (live : Live) (occurrence : Occurrence) : Live :=
  match occurrence.effect with
  | .writes value => Function.update live occurrence.key (some value)
  | .holds _ => live
  | .ends => Function.update live occurrence.key none

def liveAfter (occurrences : List Occurrence) : Live :=
  occurrences.foldl Occurrence.apply fun _ => none

def liveAt (records : List Record) (ledger : ℤ) : Live :=
  liveAfter ((records.flatMap Record.occurrences).filter fun occurrence =>
    occurrence.ledger ≤ ledger)

def Truthful (occurrences : List Occurrence) : Prop :=
  ∀ before occurrence after, occurrences = before ++ occurrence :: after →
    ∀ value, occurrence.effect = .holds value → liveAfter before occurrence.key = some value

/-- A sequence of the chain: ledgers do not fall, every change names a contract and a key,
and the state before a change is what is live. -/
structure ChainOrdered (records : List Record) : Prop where
  rises : records.Pairwise fun first second => first.ledger ≤ second.ledger
  named : ∀ transaction, .ofTransaction transaction ∈ records → ∀ change ∈ transaction.changes,
    change.entry.contractId ≠ "" ∧ change.entry.keyXdr ≠ ""
  truthful : Truthful (records.flatMap Record.occurrences)

structure Exact (live : Live) (contractId : String) (rows : List StateVersion) : Prop where
  contract : ∀ row ∈ rows, row.contractId = contractId
  once : (rows.map fun row => row.keyXdr).Nodup
  live : ∀ keyXdr valueXdr, (∃ row ∈ rows, row.keyXdr = keyXdr ∧ row.valueXdr = valueXdr) ↔
    live (contractId, keyXdr) = some valueXdr

def lastVersion (records : List Record) (key : String × String) (ledger : ℤ) :
    Option StateVersion :=
  ((records.flatMap Record.versions).filter fun version =>
    validity.key version = key ∧ version.ledgerFrom ≤ ledger).getLast?

def Eviction.reach (eviction : Eviction) : ℤ := eviction.expiryLedger.getD eviction.ledger

def Unhaunted (records : List Record) (contractId : String) (ledger : ℤ) : Prop :=
  ∀ eviction, .ofEviction eviction ∈ records → eviction.contractId = contractId →
    eviction.ledger ≤ ledger → ledger ≤ eviction.reach →
      ∀ version, lastVersion records (contractId, eviction.keyXdr) ledger = some version →
        version.changeType ≠ .evicted

/-! ### The rows of a key in a snapshot -/

section Visible

variable {history : List StateVersion} {contractId keyXdr : String} {ledger : ℤ}

theorem inOrder_trans (first second third : StateVersion) (left : inOrder first second = true)
    (right : inOrder second third = true) : inOrder first third = true := by
  simp only [inOrder, Bool.or_eq_true, Bool.and_eq_true, decide_eq_true_eq] at left right ⊢
  omega

theorem inOrder_total (first second : StateVersion) :
    (inOrder first second || inOrder second first) = true := by
  simp only [inOrder, Bool.or_eq_true, Bool.and_eq_true, decide_eq_true_eq]
  omega

def validRows (history : List StateVersion) (key : String × String) (ledger : ℤ) :
    List StateVersion :=
  (validity.ofKey key history).filter fun row => validity.Shows ledger row

def sortedRows (history : List StateVersion) (contractId : String) (ledger : ℤ) :
    List StateVersion :=
  (history.filter fun row => row.contractId = contractId ∧ validity.Shows ledger row).mergeSort
    inOrder

theorem filter_shown : (history.filter fun row =>
    row.contractId = contractId ∧ validity.Shows ledger row).filter (fun row => row.keyXdr = keyXdr) =
      validRows history (contractId, keyXdr) ledger := by
  rw [validRows, Validity.ofKey, List.filter_filter, List.filter_filter]
  apply List.filter_congr
  intro row _
  rw [← Bool.decide_and, ← Bool.decide_and, decide_eq_decide]
  show _ ∧ _ ∧ _ ↔ _ ∧ (row.contractId, row.keyXdr) = (contractId, keyXdr)
  rw [Prod.mk.injEq]
  tauto

theorem snapshotAt_eq : snapshotAt history contractId ledger "" =
    (((OrderedMap.ofEntries ((sortedRows history contractId ledger).map
      fun row => (row.keyXdr, row))).entries.map Prod.snd).filter
        fun row => row.changeType ≠ .removed) := by
  have all : ∀ rows : List StateVersion, (rows.filter fun row => row.hasPrefix "") = rows :=
    fun rows => List.filter_eq_self.mpr fun row _ => by simp [StateVersion.hasPrefix]
  show ((OrderedMap.ofEntries (List.map _ (List.filter _ _))).entries.map Prod.snd).filter _ = _
  rw [all]
  rfl

theorem get_ofEntries_keyXdr (rows : List StateVersion) :
    (OrderedMap.ofEntries (rows.map fun row => (row.keyXdr, row))).get keyXdr =
      (rows.filter fun row => row.keyXdr = keyXdr).getLast? := by
  rw [OrderedMap.get_ofEntries, ← List.map_reverse, List.find?_map, Option.map_map,
    List.getLast?_filter]
  exact Option.map_id'

theorem entry_ofEntries {rows : List StateVersion} {entry : String × StateVersion}
    (listed : entry ∈ (OrderedMap.ofEntries (rows.map fun row => (row.keyXdr, row))).entries) :
    entry.2 ∈ rows ∧ entry.2.keyXdr = entry.1 := by
  have found := (OrderedMap.mem_entries_iff _).mp (show (entry.1, entry.2) ∈ _ from listed)
  rw [get_ofEntries_keyXdr] at found
  simpa using List.mem_of_getLast? found

theorem mem_snapshotAt (ordered : (validRows history (contractId, keyXdr) ledger).Pairwise
    fun first second => inOrder first second = true) {row : StateVersion} :
    (row ∈ snapshotAt history contractId ledger "" ∧ row.keyXdr = keyXdr) ↔
      (validRows history (contractId, keyXdr) ledger).getLast? = some row ∧
        row.changeType ≠ .removed := by
  have last : (OrderedMap.ofEntries ((sortedRows history contractId ledger).map
      fun row => (row.keyXdr, row))).get keyXdr =
        (validRows history (contractId, keyXdr) ledger).getLast? := by
    rw [get_ofEntries_keyXdr, sortedRows, filter_mergeSort inOrder_trans inOrder_total, filter_shown]
    rw [filter_shown]
    exact ordered
  rw [snapshotAt_eq, List.mem_filter, decide_eq_true_eq, ← last, ← OrderedMap.mem_entries_iff]
  constructor
  · rintro ⟨⟨listed, kept⟩, same⟩
    obtain ⟨entry, among, rfl⟩ := List.mem_map.mp listed
    rw [← same, (entry_ofEntries among).2]
    exact ⟨among, kept⟩
  · rintro ⟨among, kept⟩
    exact ⟨⟨List.mem_map.mpr ⟨_, among, rfl⟩, kept⟩, (entry_ofEntries among).2⟩

theorem nodup_snapshotAt :
    ((snapshotAt history contractId ledger "").map fun row => row.keyXdr).Nodup := by
  rw [snapshotAt_eq]
  generalize distinct : OrderedMap.ofEntries ((sortedRows history contractId ledger).map
    fun row => (row.keyXdr, row)) = map
  have keys : (map.entries.map Prod.snd).map (fun row => row.keyXdr) = map.entries.map Prod.fst := by
    rw [List.map_map]
    apply List.map_congr_left
    intro entry listed
    exact (entry_ofEntries (distinct ▸ listed)).2
  have nodup := map.nodup
  rw [← keys] at nodup
  exact nodup.sublist (List.filter_sublist.map _)

theorem contractId_of_mem_snapshotAt {row : StateVersion}
    (shown : row ∈ snapshotAt history contractId ledger "") : row.contractId = contractId := by
  rw [snapshotAt_eq] at shown
  obtain ⟨entry, listed, rfl⟩ := List.mem_map.mp (List.mem_filter.mp shown).1
  have among := List.mem_mergeSort.mp (entry_ofEntries listed).1
  exact (of_decide_eq_true (List.mem_filter.mp among).2).1

end Visible

/-! ### What is live -/

section Live

variable {records : List Record} {contractId : String} {ledger : ℤ}

def StateVersion.result (version : StateVersion) : Option (Option String) :=
  match version.changeType with
  | .created => some version.valueXdr
  | .updated => some version.valueXdr
  | .removed => none
  | .evicted => none

def Effect.result : Effect → Option (Option String)
  | .writes value => some value
  | .holds value => some value
  | .ends => none

theorem Truthful.of_prefix {first second : List Occurrence} (truthful : Truthful second)
    (isPrefix : first <+: second) : Truthful first := by
  obtain ⟨rest, rfl⟩ := isPrefix
  intro before occurrence after split
  apply truthful before occurrence (after ++ rest)
  rw [split, List.append_assoc, List.cons_append]

theorem apply_self {live : Live} {occurrence : Occurrence}
    (held : ∀ value, occurrence.effect = .holds value → live occurrence.key = some value) :
    occurrence.apply live occurrence.key = occurrence.effect.result := by
  unfold Occurrence.apply
  cases happens : occurrence.effect with
  | writes value => exact Function.update_self _ _ _
  | holds value => exact held value happens
  | ends => exact Function.update_self _ _ _

theorem apply_other {live : Live} {occurrence : Occurrence} {key : String × String}
    (other : key ≠ occurrence.key) : occurrence.apply live key = live key := by
  unfold Occurrence.apply
  cases occurrence.effect with
  | writes value => exact Function.update_of_ne other _ _
  | holds value => rfl
  | ends => exact Function.update_of_ne other _ _

theorem liveAfter_eq {occurrences : List Occurrence} (truthful : Truthful occurrences)
    (key : String × String) : liveAfter occurrences key =
      ((occurrences.filter fun occurrence => occurrence.key = key).getLast?).bind
        fun occurrence => occurrence.effect.result := by
  induction occurrences using List.reverseRecOn with
  | nil => rfl
  | append_singleton occurrences occurrence ih =>
    have earlier := ih (truthful.of_prefix (List.prefix_append _ _))
    have last : liveAfter (occurrences ++ [occurrence]) =
        occurrence.apply (liveAfter occurrences) := List.foldl_concat ..
    rw [last, List.filter_append]
    by_cases mine : occurrence.key = key
    · rw [List.filter_cons_of_pos (by simpa using mine), List.filter_nil, List.getLast?_concat,
        ← mine]
      exact apply_self (truthful occurrences occurrence [] rfl)
    · rw [List.filter_cons_of_neg (by simpa using mine), List.filter_nil, List.append_nil,
        apply_other (Ne.symm mine), earlier]

abbrev Reading := (String × String) × ℤ × Option (Option String)

def StateVersion.reading (version : StateVersion) : Reading :=
  (validity.key version, version.ledgerFrom, version.result)

def Occurrence.reading (occurrence : Occurrence) : Reading :=
  (occurrence.key, occurrence.ledger, occurrence.effect.result)

theorem extractStateVersions_eq {transaction : TransactionMeta}
    (named : ∀ change ∈ transaction.changes,
      change.entry.contractId ≠ "" ∧ change.entry.keyXdr ≠ "") :
    extractStateVersions transaction =
      transaction.changes.map fun change => change.version transaction := by
  rw [extractStateVersions, ← List.filterMap_eq_map]
  apply List.filterMap_congr
  intro change listed
  obtain ⟨contract, key⟩ := named change listed
  exact if_neg (not_or.mpr ⟨contract, key⟩)

theorem map_reading (chain : ChainOrdered records) :
    (records.flatMap Record.versions).map StateVersion.reading =
      (records.flatMap Record.occurrences).map Occurrence.reading := by
  rw [List.map_flatMap, List.map_flatMap]
  apply List.flatMap_congr
  intro record listed
  cases record with
  | ofEviction eviction => rfl
  | ofTransaction transaction =>
    show (extractStateVersions transaction).map _ = (transaction.changes.map _).map _
    rw [extractStateVersions_eq (chain.named transaction listed), List.map_map, List.map_map]
    apply List.map_congr_left
    intro change _
    obtain ⟨kind, entry⟩ := change
    cases kind <;> rfl

theorem ledger_of_mem_occurrences {record : Record} {occurrence : Occurrence}
    (listed : occurrence ∈ record.occurrences) : occurrence.ledger = record.ledger := by
  cases record with
  | ofEviction eviction =>
    rw [List.mem_singleton.mp listed]
    rfl
  | ofTransaction transaction =>
    obtain ⟨change, -, rfl⟩ := List.mem_map.mp listed
    rfl

theorem ledgerFrom_of_mem_versions {record : Record} {version : StateVersion}
    (listed : version ∈ record.versions) : version.ledgerFrom = record.ledger := by
  cases record with
  | ofEviction eviction =>
    rw [List.mem_singleton.mp listed]
    rfl
  | ofTransaction transaction =>
    obtain ⟨change, -, kept⟩ := List.mem_filterMap.mp listed
    split_ifs at kept
    cases kept
    rfl

theorem rises_flatMap {α : Type} {pieces : Record → List α} {start : α → ℤ}
    (rises : records.Pairwise fun first second => first.ledger ≤ second.ledger)
    (starts : ∀ record, ∀ piece ∈ pieces record, start piece = record.ledger) :
    (records.flatMap pieces).Pairwise fun first second => start first ≤ start second := by
  rw [List.pairwise_flatMap]
  constructor
  · intro record _
    apply List.pairwise_iff_forall_sublist.mpr
    intro first second sublist
    have left := starts record first (sublist.subset List.mem_cons_self)
    have right := starts record second (sublist.subset (by simp))
    exact (left.trans right.symm).le
  · apply rises.imp
    intro first second before piece listed other among
    rw [starts first piece listed, starts second other among]
    exact before

theorem occurrences_take (chain : ChainOrdered records) (ledger : ℤ) :
    ((records.flatMap Record.occurrences).filter fun occurrence => occurrence.ledger ≤ ledger) <+:
      records.flatMap Record.occurrences := by
  have rises := rises_flatMap chain.rises fun _ _ => ledger_of_mem_occurrences
  exact ⟨_, filter_append_filter rises ledger⟩

theorem liveAt_eq (chain : ChainOrdered records) (key : String × String) :
    liveAt records ledger key = (lastVersion records key ledger).bind StateVersion.result := by
  have truthful := chain.truthful.of_prefix (occurrences_take chain ledger)
  have same := congrArg (List.filter fun reading : Reading => reading.1 = key ∧ reading.2.1 ≤ ledger)
    (map_reading chain)
  rw [List.filter_map, List.filter_map] at same
  have last := congrArg (fun readings : List Reading => readings.getLast?.bind fun reading =>
    reading.2.2) same
  simp only [List.getLast?_map, Option.bind_map] at last
  have past : (records.flatMap Record.occurrences).filter
      ((fun reading : Reading => decide (reading.1 = key ∧ reading.2.1 ≤ ledger)) ∘
        Occurrence.reading) =
      (records.flatMap Record.occurrences).filter fun occurrence =>
        decide (occurrence.key = key) && decide (occurrence.ledger ≤ ledger) :=
    List.filter_congr fun _ _ => Bool.decide_and _ _
  rw [past] at last
  rw [liveAt, liveAfter_eq truthful, List.filter_filter]
  exact last.symm

end Live

/-! ### The valid rows of a key -/

section Rows

variable {records : List Record} {contractId keyXdr : String} {key : String × String} {ledger : ℤ}

theorem historyOf_eq (records : List Record) :
    historyOf records = (records.flatMap Record.versions).foldl validity.push [] := by
  rw [List.foldl_flatMap]
  rfl

theorem open_or_eviction {version : StateVersion}
    (listed : version ∈ records.flatMap Record.versions) :
    (version.ledgerTo = none ∧ version.changeType ≠ .evicted) ∨
      ∃ eviction, .ofEviction eviction ∈ records ∧ version = evictionVersion eviction := by
  obtain ⟨record, among, piece⟩ := List.mem_flatMap.mp listed
  cases record with
  | ofEviction eviction => exact Or.inr ⟨eviction, among, List.mem_singleton.mp piece⟩
  | ofTransaction transaction =>
    obtain ⟨change, -, kept⟩ := List.mem_filterMap.mp piece
    split_ifs at kept
    cases kept
    obtain ⟨kind, entry⟩ := change
    refine Or.inl ⟨rfl, ?_⟩
    cases kind <;> simp [Change.version, ChangeKind.changeType]

def pastVersions (records : List Record) (key : String × String) (ledger : ℤ) : List StateVersion :=
  (validity.ofKey key (records.flatMap Record.versions)).filter fun version =>
    version.ledgerFrom ≤ ledger

def laterVersions (records : List Record) (key : String × String) (ledger : ℤ) :
    List StateVersion :=
  (validity.ofKey key (records.flatMap Record.versions)).filter fun version =>
    ledger < version.ledgerFrom

theorem mem_pastVersions {version : StateVersion} : version ∈ pastVersions records key ledger ↔
    version ∈ records.flatMap Record.versions ∧ validity.key version = key ∧
      version.ledgerFrom ≤ ledger := by
  rw [pastVersions, Validity.ofKey, List.filter_filter, List.mem_filter, Bool.and_eq_true,
    decide_eq_true_eq, decide_eq_true_eq, and_comm (a := version.ledgerFrom ≤ ledger)]

theorem lastVersion_eq : lastVersion records key ledger =
    (pastVersions records key ledger).getLast? := by
  rw [lastVersion, pastVersions, Validity.ofKey, List.filter_filter]
  congr 1
  apply List.filter_congr
  intro version _
  rw [← Bool.decide_and, decide_eq_decide]
  exact and_comm

theorem pastVersions_rises (chain : ChainOrdered records) :
    (pastVersions records key ledger).Pairwise fun first second =>
      first.ledgerFrom ≤ second.ledgerFrom :=
  ((rises_flatMap chain.rises fun _ _ => ledgerFrom_of_mem_versions).filter _).filter _

def haunts (records : List Record) (key : String × String) (ledger : ℤ) : List StateVersion :=
  (pastVersions records key ledger).filter fun version => validity.Overhangs ledger version

theorem validRows_of_none (chain : ChainOrdered records)
    (none : lastVersion records key ledger = none) :
    validRows (historyOf records) key ledger = [] := by
  have rises := rises_flatMap chain.rises fun _ _ => ledgerFrom_of_mem_versions
  rw [lastVersion_eq, List.getLast?_eq_none_iff] at none
  rw [validRows, historyOf_eq, Validity.ofKey_foldl_push key rises]
  apply Validity.filter_shows_chain_of_later
  intro version listed
  by_contra past
  have among : version ∈ pastVersions records key ledger :=
    List.mem_filter.mpr ⟨listed, decide_eq_true (not_lt.mp past)⟩
  rw [none] at among
  cases among

theorem validRows_of_some (chain : ChainOrdered records) {last : StateVersion}
    (found : lastVersion records key ledger = some last) :
    (last.ledgerTo = none → ∃ before after,
      before.Sublist (haunts records key ledger) ∧
        (∀ version ∈ before, version.ledgerFrom ≤ last.ledgerFrom) ∧
          validRows (historyOf records) key ledger = before ++ [validity.leftBy last after]) ∧
    (last.ledgerTo ≠ none →
      validRows (historyOf records) key ledger = haunts records key ledger) := by
  have rises := rises_flatMap chain.rises fun _ _ => ledgerFrom_of_mem_versions
  rw [lastVersion_eq] at found
  obtain ⟨before, past⟩ := List.getLast?_eq_some_iff.mp found
  have ofKey := rises.filter fun version => decide (validity.key version = key)
  have split : pastVersions records key ledger ++ laterVersions records key ledger =
      validity.ofKey key (records.flatMap Record.versions) := filter_append_filter ofKey ledger
  rw [past, List.append_assoc, List.singleton_append] at split
  have started : ∀ version ∈ before ++ [last], version.ledgerFrom ≤ ledger := fun version listed =>
    (mem_pastVersions.mp (past ▸ listed)).2.2
  have later : ∀ version ∈ laterVersions records key ledger, ledger < validity.start version :=
    fun version listed => of_decide_eq_true (List.mem_filter.mp listed).2
  have shown := Validity.filter_shows_chain started later
  rw [split, ← Validity.ofKey_foldl_push key rises, ← historyOf_eq] at shown
  replace shown : validRows (historyOf records) key ledger =
    if last.ledgerTo = none then _ else _ := shown
  constructor
  · intro opens
    rw [if_pos opens] at shown
    refine ⟨_, _, ?_, ?_, shown⟩
    · rw [haunts, past]
      exact (List.sublist_append_left _ _).filter _
    · intro version listed
      have among := (List.mem_filter.mp listed).1
      have rises := past ▸ @pastVersions_rises records key ledger chain
      exact (List.pairwise_append.mp rises).2.2 version among last (List.mem_singleton_self _)
  · intro closed
    rw [if_neg closed, ← past] at shown
    exact shown

theorem mem_haunts {version : StateVersion} : version ∈ haunts records key ledger ↔
    ∃ eviction, .ofEviction eviction ∈ records ∧ version = evictionVersion eviction ∧
      (eviction.contractId, eviction.keyXdr) = key ∧ eviction.ledger ≤ ledger ∧
        ledger ≤ eviction.reach := by
  rw [haunts, List.mem_filter, mem_pastVersions, decide_eq_true_eq]
  constructor
  · rintro ⟨⟨listed, own, past⟩, stop, closes, overhangs⟩
    rcases open_or_eviction listed with ⟨opens, -⟩ | ⟨eviction, among, rfl⟩
    · cases opens.symm.trans closes
    · cases closes
      exact ⟨eviction, among, rfl, own, past, overhangs⟩
  · rintro ⟨eviction, among, rfl, own, past, overhangs⟩
    have listed : evictionVersion eviction ∈ records.flatMap Record.versions :=
      List.mem_flatMap.mpr ⟨_, among, List.mem_singleton_self _⟩
    exact ⟨⟨listed, own, past⟩, _, rfl, overhangs⟩

theorem txIndex_of_haunts {version : StateVersion} (haunting : version ∈ haunts records key ledger) :
    version.txIndex = 0 := by
  obtain ⟨eviction, -, rfl, -⟩ := mem_haunts.mp haunting
  rfl

theorem inOrder_of_le {first second : StateVersion} (before : first.ledgerFrom ≤ second.ledgerFrom)
    (zero : first.txIndex = 0) : inOrder first second = true := by
  simp only [inOrder, zero, Bool.or_eq_true, Bool.and_eq_true, decide_eq_true_eq]
  omega

theorem validRows_inOrder (chain : ChainOrdered records) :
    (validRows (historyOf records) key ledger).Pairwise fun first second =>
      inOrder first second = true := by
  cases found : lastVersion records key ledger with
  | none =>
    rw [validRows_of_none chain found]
    exact List.Pairwise.nil
  | some last =>
    have haunting : (haunts records key ledger).Pairwise fun first second =>
        inOrder first second = true :=
      ((pastVersions_rises chain).filter _).imp_of_mem fun listed _ before =>
        inOrder_of_le before (txIndex_of_haunts listed)
    obtain ⟨opens, closed⟩ := validRows_of_some chain found
    by_cases open' : last.ledgerTo = none
    · obtain ⟨before, after, sublist, below, rows⟩ := opens open'
      rw [rows]
      apply List.pairwise_append.mpr
      refine ⟨haunting.sublist sublist, List.pairwise_singleton _ _, ?_⟩
      intro first listed second same
      rw [List.mem_singleton.mp same]
      have start : (validity.leftBy last after).ledgerFrom = last.ledgerFrom :=
        @Validity.start_leftBy _ _ validity last after
      exact inOrder_of_le (start ▸ below first listed)
        (txIndex_of_haunts (sublist.subset listed))
    · rw [closed open']
      exact haunting

end Rows

/-! ### Snapshots -/

section Snapshots

variable {records : List Record} {contractId keyXdr : String} {key : String × String} {ledger : ℤ}

def Shown (records : List Record) (contractId keyXdr : String) (ledger : ℤ)
    (valueXdr : Option String) : Prop :=
  ∃ row ∈ snapshotAt (historyOf records) contractId ledger "",
    row.keyXdr = keyXdr ∧ row.valueXdr = valueXdr

theorem shown_iff (chain : ChainOrdered records) {valueXdr : Option String} :
    Shown records contractId keyXdr ledger valueXdr ↔ ∃ row,
      (validRows (historyOf records) (contractId, keyXdr) ledger).getLast? = some row ∧
        row.changeType ≠ .removed ∧ row.valueXdr = valueXdr := by
  have member := fun row => @mem_snapshotAt _ contractId keyXdr ledger
    (validRows_inOrder chain) row
  constructor
  · rintro ⟨row, listed, same, value⟩
    obtain ⟨last, kept⟩ := (member row).mp ⟨listed, same⟩
    exact ⟨row, last, kept, value⟩
  · rintro ⟨row, last, kept, value⟩
    obtain ⟨listed, same⟩ := (member row).mpr ⟨last, kept⟩
    exact ⟨row, listed, same, value⟩

theorem leftBy_shows (row : StateVersion) (after : List StateVersion) :
    (validity.leftBy row after).changeType = row.changeType ∧
      (validity.leftBy row after).valueXdr = row.valueXdr := by
  cases after with
  | nil => exact ⟨rfl, rfl⟩
  | cons next rest =>
    rw [Validity.leftBy_cons, Validity.until?]
    split_ifs <;> exact ⟨rfl, rfl⟩

theorem result_eq_some_iff {version : StateVersion} {valueXdr : Option String}
    (stays : version.changeType ≠ .evicted) :
    version.result = some valueXdr ↔
      version.changeType ≠ .removed ∧ version.valueXdr = valueXdr := by
  unfold StateVersion.result
  cases kind : version.changeType <;> simp_all

theorem shown_iff_live_of_open (chain : ChainOrdered records) {last : StateVersion}
    (found : lastVersion records (contractId, keyXdr) ledger = some last)
    (opens : last.ledgerTo = none) (stays : last.changeType ≠ .evicted)
    {valueXdr : Option String} :
    Shown records contractId keyXdr ledger valueXdr ↔
      liveAt records ledger (contractId, keyXdr) = some valueXdr := by
  obtain ⟨before, after, -, -, rows⟩ := (validRows_of_some chain found).1 opens
  obtain ⟨kind, value⟩ := leftBy_shows last after
  rw [shown_iff chain, rows, List.getLast?_concat, liveAt_eq chain, found, Option.bind_some,
    result_eq_some_iff stays, ← kind, ← value]
  simp

theorem shown_iff_haunted (chain : ChainOrdered records) {eviction : Eviction}
    (found : lastVersion records (contractId, keyXdr) ledger = some (evictionVersion eviction)) :
    (∃ valueXdr, Shown records contractId keyXdr ledger valueXdr) ↔
      haunts records (contractId, keyXdr) ledger ≠ [] := by
  have rows := (validRows_of_some chain found).2 (Option.some_ne_none _)
  simp only [shown_iff chain, rows]
  constructor
  · rintro ⟨-, row, last, -⟩ empty
    rw [empty] at last
    cases last
  · intro haunted
    obtain ⟨row, last⟩ := Option.ne_none_iff_exists'.mp (mt List.getLast?_eq_none_iff.mp haunted)
    obtain ⟨other, -, rfl, -⟩ := mem_haunts.mp (List.mem_of_getLast? last)
    exact ⟨_, _, last, by simp [evictionVersion], rfl⟩

/-- A snapshot has the live entries of the contract if and only if no row of an eviction is
valid at the ledger without a later change that hides it. -/
theorem snapshotAt_exact_iff (chain : ChainOrdered records) (contractId : String) (ledger : ℤ) :
    Exact (liveAt records ledger) contractId
        (snapshotAt (historyOf records) contractId ledger "") ↔
      Unhaunted records contractId ledger := by
  constructor
  · intro exact eviction listed own past reaches version found evicted
    have haunting : evictionVersion eviction ∈ haunts records (contractId, eviction.keyXdr) ledger :=
      mem_haunts.mpr ⟨eviction, listed, rfl, by rw [own], past, reaches⟩
    have among := (mem_pastVersions.mp (List.mem_of_getLast? (lastVersion_eq ▸ found))).1
    rcases open_or_eviction among with ⟨-, stays⟩ | ⟨last, -, rfl⟩
    · exact stays evicted
    · obtain ⟨value, shown⟩ := (shown_iff_haunted chain found).mpr (List.ne_nil_of_mem haunting)
      have live := (exact.live _ _).mp shown
      rw [liveAt_eq chain, found] at live
      cases live
  · intro unhaunted
    refine ⟨fun row => contractId_of_mem_snapshotAt, nodup_snapshotAt, fun keyXdr valueXdr => ?_⟩
    show Shown records contractId keyXdr ledger valueXdr ↔ _
    cases found : lastVersion records (contractId, keyXdr) ledger with
    | none =>
      rw [shown_iff chain, validRows_of_none chain found, liveAt_eq chain, found]
      simp
    | some last =>
      have among := (mem_pastVersions.mp (List.mem_of_getLast? (lastVersion_eq ▸ found))).1
      rcases open_or_eviction among with ⟨opens, stays⟩ | ⟨eviction, -, rfl⟩
      · exact shown_iff_live_of_open chain found opens stays
      · have quiet : haunts records (contractId, keyXdr) ledger = [] := by
          apply List.eq_nil_iff_forall_not_mem.mpr
          intro version haunting
          obtain ⟨other, listed, -, own, past, reaches⟩ := mem_haunts.mp haunting
          obtain ⟨rfl, rfl⟩ := Prod.mk.inj own
          exact unhaunted other listed rfl past reaches _ found rfl
        have hidden := mt (shown_iff_haunted chain found).mp (not_not_intro quiet)
        rw [liveAt_eq chain, found]
        constructor
        · intro shown
          exact absurd ⟨valueXdr, shown⟩ hidden
        · intro live
          cases live

end Snapshots

/-! ### An eviction -/

def balance : EntryParts := ⟨"C1", "k", some "a", "temporary", none, none⟩

def evictedBalance : List Record :=
  [.ofTransaction ⟨10, some "t", 1, [⟨.ledgerEntryCreated, balance⟩]⟩,
    .ofEviction ⟨"C1", "k", "temporary", 20, none, none⟩]

theorem evictedBalance_chain : ChainOrdered evictedBalance := by
  refine ⟨by decide, ?_, ?_⟩
  · intro transaction listed
    have same : transaction = ⟨10, some "t", 1, [⟨.ledgerEntryCreated, balance⟩]⟩ := by
      simpa [evictedBalance] using listed
    rw [same]
    decide
  · intro before occurrence after split value holds
    have writes : ∀ occurrence ∈ evictedBalance.flatMap Record.occurrences,
        ∀ value, occurrence.effect ≠ .holds value := by
      simp [evictedBalance, Record.occurrences, Change.effect]
    exact absurd holds (writes occurrence (by rw [split]; simp) value)

theorem evictedBalance_exact : Exact (liveAt evictedBalance 15) "C1"
    (snapshotAt (historyOf evictedBalance) "C1" 15 "") := by
  apply (snapshotAt_exact_iff evictedBalance_chain "C1" 15).mpr
  intro eviction listed _ past
  have same : eviction = ⟨"C1", "k", "temporary", 20, none, none⟩ := by
    simpa [evictedBalance] using listed
  rw [same] at past
  exact absurd past (by decide)

/-- In the ledger of its eviction the entry is still in the snapshot, without a value. -/
theorem evictedBalance_shown : ¬ ∀ records, ChainOrdered records → ∀ contractId ledger,
    Exact (liveAt records ledger) contractId
      (snapshotAt (historyOf records) contractId ledger "") := by
  intro exact
  have found : lastVersion evictedBalance ("C1", "k") 20 =
      some (evictionVersion ⟨"C1", "k", "temporary", 20, none, none⟩) := by decide
  obtain ⟨valueXdr, shown⟩ := (shown_iff_haunted evictedBalance_chain found).mpr (by decide)
  have live := ((exact _ evictedBalance_chain "C1" 20).live "k" valueXdr).mp shown
  rw [liveAt_eq evictedBalance_chain, found] at live
  cases live

end StateHistory

end SorobanExplorer.Indexer
