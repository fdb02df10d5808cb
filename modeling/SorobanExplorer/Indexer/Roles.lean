import Mathlib.Data.Finset.Max
import Mathlib.Data.List.Sort
import SorobanExplorer.Library.Table

/-!
Owns the privileged roles of contracts: `upsertRole` and `getRoles`. The row of a role
and an address is what was applied to it last, whatever ledger that is from.
-/

namespace SorobanExplorer.Indexer

open Library

namespace Roles

structure RoleKey where
  contractId : String
  role : String
  address : String
deriving DecidableEq, Repr

structure RoleUpdate where
  key : RoleKey
  revoked : Bool := false
  ledger : Option ℤ := none
deriving DecidableEq, Repr

structure RoleRow where
  revoked : Bool
  ledger : Option ℤ
  updatedAt : ℕ
deriving DecidableEq, Repr

abbrev PrivilegedRoles := Table RoleKey RoleRow

def upsertRole (now : ℕ) (update : RoleUpdate) (roles : PrivilegedRoles) : PrivilegedRoles :=
  roles.insert update.key ⟨update.revoked, update.ledger, now⟩

/-- A row of the answer of `getRoles`. -/
structure RoleHolder where
  role : String
  address : String
  ledger : Option ℤ
  updatedAt : ℕ
deriving DecidableEq, Repr

/-- `ORDER BY role, updated_at DESC`, with the database's order of texts. -/
def holderBefore (collation : String → String → Ordering) (first second : RoleHolder) : Bool :=
  match collation first.role second.role with
  | .lt => true
  | .eq => second.updatedAt ≤ first.updatedAt
  | .gt => false

def getRoles (collation : String → String → Ordering) (contractId : String)
    (roles : PrivilegedRoles) : List RoleHolder :=
  ((roles.entries.filter fun row => row.1.contractId = contractId && row.2.revoked = false).map
    fun row => ⟨row.1.role, row.1.address, row.2.ledger, row.2.updatedAt⟩).mergeSort
      (holderBefore collation)

/-- Apply updates in order. `clock` is the time at which an update is applied. -/
def applyRoles (clock : RoleUpdate → ℕ) (updates : List RoleUpdate) : PrivilegedRoles :=
  updates.foldl (fun roles update => upsertRole (clock update) update roles) ∅

def activeHolders (collation : String → String → Ordering) (contractId : String)
    (roles : PrivilegedRoles) : Set (String × String) :=
  { holder | ∃ row ∈ getRoles collation contractId roles, (row.role, row.address) = holder }

def ledgerOrder (updates : List RoleUpdate) : List RoleUpdate :=
  updates.mergeSort fun first second => first.ledger.getD 0 ≤ second.ledger.getD 0

structure History (contractId : String) (updates : List RoleUpdate) : Prop where
  ofContract : ∀ update ∈ updates, update.key.contractId = contractId
  ledgers : ∀ update ∈ updates, update.ledger.isSome = true
  distinct : (updates.map RoleUpdate.ledger).Nodup

/-! ### The last update of a key -/

def lastFor (key : RoleKey) (updates : List RoleUpdate) : Option RoleUpdate :=
  (updates.filter fun update => update.key = key).getLast?

section Last

variable {clock : RoleUpdate → ℕ} {updates : List RoleUpdate} {update last : RoleUpdate}
  {key : RoleKey}

theorem lastFor_snoc : lastFor key (updates ++ [update]) =
    if key = update.key then some update else lastFor key updates := by
  rw [lastFor, List.filter_append]
  by_cases same : update.key = key
  · simp [same]
  · simp [lastFor, same, Ne.symm same]

theorem lookup_applyRoles : (applyRoles clock updates).lookup key =
    (lastFor key updates).map fun last => ⟨last.revoked, last.ledger, clock last⟩ := by
  induction updates using List.reverseRecOn with
  | nil => rfl
  | append_singleton updates update ih =>
    rw [applyRoles, List.foldl_append, ← applyRoles, List.foldl_cons, List.foldl_nil,
      upsertRole, Table.lookup_insert_eq, lastFor_snoc, ih]
    split <;> rfl

theorem mem_of_lastFor (found : lastFor key updates = some last) :
    last ∈ updates ∧ last.key = key := by
  have member := List.mem_filter.mp (List.mem_of_getLast? found)
  exact ⟨member.1, by simpa using member.2⟩

theorem lastFor_eq_none : lastFor key updates = none ↔ ∀ update ∈ updates, update.key ≠ key := by
  rw [lastFor, List.getLast?_eq_none_iff, List.filter_eq_nil_iff]
  simp

def Grants (key : RoleKey) (updates : List RoleUpdate) : Prop :=
  ∃ last, lastFor key updates = some last ∧ last.revoked = false

theorem mem_activeHolders {collation : String → String → Ordering} {contractId role address : String} :
    (role, address) ∈ activeHolders collation contractId (applyRoles clock updates) ↔
      Grants ⟨contractId, role, address⟩ updates := by
  have listed (row : Sigma fun _ : RoleKey => RoleRow) :
      row ∈ (applyRoles clock updates).entries ↔
        (applyRoles clock updates).lookup row.1 = some row.2 := AList.mem_lookup_iff.symm
  constructor
  · rintro ⟨holder, member, same⟩
    rw [getRoles, List.mem_mergeSort, List.mem_map] at member
    obtain ⟨row, kept, rfl⟩ := member
    rw [List.mem_filter, listed, lookup_applyRoles, Bool.and_eq_true, decide_eq_true_eq,
      decide_eq_true_eq, Option.map_eq_some_iff] at kept
    obtain ⟨⟨last, found, shown⟩, ofContract, active⟩ := kept
    cases same
    refine ⟨last, ?_, ?_⟩
    · rw [← found, ← ofContract]
    · rw [← active, ← shown]
  · rintro ⟨last, found, grants⟩
    refine ⟨⟨role, address, last.ledger, clock last⟩, ?_, rfl⟩
    rw [getRoles, List.mem_mergeSort, List.mem_map]
    refine ⟨⟨⟨contractId, role, address⟩, ⟨last.revoked, last.ledger, clock last⟩⟩, ?_, rfl⟩
    rw [List.mem_filter, listed, lookup_applyRoles, found]
    simp [grants]

end Last

/-! ### The update of the greatest ledger -/

def Newest (updates : List RoleUpdate) (newest : RoleUpdate) : Prop :=
  newest ∈ updates ∧ ∀ update ∈ updates, update.key = newest.key →
    update.ledger.getD 0 ≤ newest.ledger.getD 0

section Order

variable {contractId : String} {updates other : List RoleUpdate} {key : RoleKey}

theorem perm_ledgerOrder (updates : List RoleUpdate) : (ledgerOrder updates).Perm updates :=
  List.mergeSort_perm _ _

theorem History.perm (history : History contractId updates) (same : other.Perm updates) :
    History contractId other where
  ofContract := fun update member => history.ofContract update (same.mem_iff.mp member)
  ledgers := fun update member => history.ledgers update (same.mem_iff.mp member)
  distinct := (same.map _).nodup_iff.mpr history.distinct

theorem History.eq_of_ledger (history : History contractId updates) {first second : RoleUpdate}
    (inFirst : first ∈ updates) (inSecond : second ∈ updates)
    (same : first.ledger.getD 0 = second.ledger.getD 0) : first = second := by
  apply List.inj_on_of_nodup_map history.distinct inFirst inSecond
  obtain ⟨one, ofFirst⟩ := Option.isSome_iff_exists.mp (history.ledgers first inFirst)
  obtain ⟨two, ofSecond⟩ := Option.isSome_iff_exists.mp (history.ledgers second inSecond)
  rw [ofFirst, ofSecond] at same ⊢
  exact congrArg some same

theorem rel_of_getLast? {rows : List RoleUpdate} {relation : RoleUpdate → RoleUpdate → Prop}
    (sorted : rows.Pairwise relation) (reflexive : ∀ row, relation row row) {last : RoleUpdate}
    (found : rows.getLast? = some last) : ∀ row ∈ rows, relation row last := by
  obtain ⟨before, rfl⟩ := List.getLast?_eq_some_iff.mp found
  intro row member
  rcases List.mem_append.mp member with earlier | same
  · exact (List.pairwise_append.mp sorted).2.2 row earlier last List.mem_cons_self
  · rw [List.mem_singleton.mp same]
    exact reflexive last

theorem newest_of_lastFor {newest : RoleUpdate}
    (found : lastFor key (ledgerOrder updates) = some newest) :
    Newest updates newest ∧ newest.key = key := by
  obtain ⟨member, ofKey⟩ := mem_of_lastFor found
  have sorted : (ledgerOrder updates).Pairwise fun first second =>
      first.ledger.getD 0 ≤ second.ledger.getD 0 := by
    have ordered := @List.pairwise_mergeSort RoleUpdate
      (fun first second => first.ledger.getD 0 ≤ second.ledger.getD 0)
      (by simpa using fun a b c => le_trans) (by simpa using fun a b => le_total _ _) updates
    simpa [ledgerOrder] using ordered
  refine ⟨⟨(perm_ledgerOrder updates).mem_iff.mp member, ?_⟩, ofKey⟩
  intro update inUpdates sameKey
  apply rel_of_getLast? (sorted.filter _) (fun _ => le_refl _) found
  rw [List.mem_filter, (perm_ledgerOrder updates).mem_iff]
  exact ⟨inUpdates, by simpa [ofKey] using sameKey⟩

theorem lastFor_ledgerOrder (history : History contractId updates) {newest : RoleUpdate}
    (isNewest : Newest updates newest) :
    lastFor newest.key (ledgerOrder updates) = some newest := by
  cases found : lastFor newest.key (ledgerOrder updates) with
  | none =>
    have absent := lastFor_eq_none.mp found newest ((perm_ledgerOrder updates).mem_iff.mpr isNewest.1)
    exact absurd rfl absent
  | some last =>
    obtain ⟨lastNewest, sameKey⟩ := newest_of_lastFor found
    have below := isNewest.2 last lastNewest.1 sameKey
    have above := lastNewest.2 newest isNewest.1 sameKey.symm
    rw [history.eq_of_ledger lastNewest.1 isNewest.1 (le_antisymm below above)]

theorem lastFor_ledgerOrder_iff (history : History contractId updates) {newest : RoleUpdate} :
    lastFor key (ledgerOrder updates) = some newest ↔ Newest updates newest ∧ newest.key = key := by
  constructor
  · exact newest_of_lastFor
  · rintro ⟨isNewest, rfl⟩
    exact lastFor_ledgerOrder history isNewest

end Order

/-! ### When the order does not matter -/

section Agreement

variable {collation : String → String → Ordering} {contractId : String}
  {updates other : List RoleUpdate} {clock clock' : RoleUpdate → ℕ}

theorem activeHolders_eq_iff (history : History contractId updates)
    (historyOther : History contractId other) :
    activeHolders collation contractId (applyRoles clock updates) =
        activeHolders collation contractId (applyRoles clock' other) ↔
      ∀ key, Grants key updates ↔ Grants key other := by
  have foreign {list : List RoleUpdate} (own : History contractId list) {key : RoleKey}
      (grants : Grants key list) : key.contractId = contractId := by
    obtain ⟨last, found, -⟩ := grants
    obtain ⟨member, rfl⟩ := mem_of_lastFor found
    exact own.ofContract last member
  constructor
  · intro same key
    have atKey (ofContract : key.contractId = contractId) : Grants key updates ↔ Grants key other := by
      have shown := Set.ext_iff.mp same (key.role, key.address)
      rw [mem_activeHolders, mem_activeHolders, ← ofContract] at shown
      exact shown
    constructor
    · intro grants
      exact (atKey (foreign history grants)).mp grants
    · intro grants
      exact (atKey (foreign historyOther grants)).mpr grants
  · intro same
    ext ⟨role, address⟩
    rw [mem_activeHolders, mem_activeHolders, same]

def LastAsNewest (updates : List RoleUpdate) : Prop :=
  ∀ last newest, lastFor newest.key updates = some last → Newest updates newest →
    last.revoked = newest.revoked

theorem grants_ledgerOrder_iff (history : History contractId updates) :
    (∀ key, Grants key updates ↔ Grants key (ledgerOrder updates)) ↔ LastAsNewest updates := by
  constructor
  · intro same last newest found isNewest
    have newestLast := lastFor_ledgerOrder history isNewest
    have agree := same newest.key
    unfold Grants at agree
    rw [found, newestLast] at agree
    cases ofLast : last.revoked <;> cases ofNewest : newest.revoked <;>
      simp [ofLast, ofNewest] at agree ⊢
  · intro agree key
    cases found : lastFor key updates with
    | none =>
      have absent : lastFor key (ledgerOrder updates) = none := by
        rw [lastFor_eq_none] at found ⊢
        intro update member
        exact found update ((perm_ledgerOrder updates).mem_iff.mp member)
      simp [Grants, found, absent]
    | some last =>
      have present : lastFor key (ledgerOrder updates) ≠ none := by
        intro absent
        obtain ⟨member, ofKey⟩ := mem_of_lastFor found
        exact lastFor_eq_none.mp absent last ((perm_ledgerOrder updates).mem_iff.mpr member) ofKey
      obtain ⟨newest, newestLast⟩ := Option.ne_none_iff_exists'.mp present
      obtain ⟨isNewest, rfl⟩ := newest_of_lastFor newestLast
      have flags := agree last newest found isNewest
      simp [Grants, found, newestLast, flags]

def Unanimous (updates : List RoleUpdate) : Prop :=
  ∀ first ∈ updates, ∀ second ∈ updates, first.key = second.key → first.revoked = second.revoked

theorem lastAsNewest_of_unanimous (unanimous : Unanimous updates) : LastAsNewest updates := by
  intro last newest found isNewest
  obtain ⟨member, sameKey⟩ := mem_of_lastFor found
  exact unanimous last member newest isNewest.1 sameKey

theorem Unanimous.perm (unanimous : Unanimous updates) (same : other.Perm updates) :
    Unanimous other := by
  intro first inFirst second inSecond
  exact unanimous first (same.mem_iff.mp inFirst) second (same.mem_iff.mp inSecond)

theorem exists_perm_last {update : RoleUpdate} (member : update ∈ updates) :
    ∃ order : List RoleUpdate, order.Perm updates ∧ lastFor update.key order = some update := by
  refine ⟨updates.erase update ++ [update], ?_, ?_⟩
  · exact (List.perm_append_singleton _ _).trans (List.perm_cons_erase member).symm
  · rw [lastFor_snoc, if_pos rfl]

theorem newest_perm (same : other.Perm updates) {newest : RoleUpdate} :
    Newest other newest ↔ Newest updates newest := by
  simp only [Newest, same.mem_iff]

theorem exists_newest {update : RoleUpdate} (member : update ∈ updates) :
    ∃ newest, Newest updates newest ∧ newest.key = update.key := by
  cases found : lastFor update.key (ledgerOrder updates) with
  | none =>
    have absent := lastFor_eq_none.mp found update ((perm_ledgerOrder updates).mem_iff.mpr member)
    exact absurd rfl absent
  | some newest =>
    obtain ⟨isNewest, sameKey⟩ := newest_of_lastFor found
    exact ⟨newest, isNewest, sameKey⟩

theorem unanimous_iff : (∀ order : List RoleUpdate, order.Perm updates → LastAsNewest order) ↔
    Unanimous updates := by
  constructor
  · intro agree first inFirst second inSecond sameKey
    obtain ⟨newest, isNewest, ofFirst⟩ := exists_newest inFirst
    have flag {update : RoleUpdate} (member : update ∈ updates) (ofKey : newest.key = update.key) :
        update.revoked = newest.revoked := by
      obtain ⟨order, same, found⟩ := exists_perm_last member
      rw [← ofKey] at found
      exact agree order same update newest found ((newest_perm same).mpr isNewest)
    rw [flag inFirst ofFirst, flag inSecond (ofFirst.trans sameKey)]
  · intro unanimous order same
    exact lastAsNewest_of_unanimous (unanimous.perm same)

/-- The reported holders of an order of application are those of the ledger order if and only
if the last update of each key is as the newest; so for every order if and only if the
updates of each key all say the same. -/
theorem activeHolders_iff_unanimous (collation : String → String → Ordering)
    (history : History contractId updates) :
    (∀ clock clock', activeHolders collation contractId (applyRoles clock updates) =
        activeHolders collation contractId (applyRoles clock' (ledgerOrder updates)) ↔
      LastAsNewest updates) ∧
    ((∀ order : List RoleUpdate, order.Perm updates → ∀ clock clock',
        activeHolders collation contractId (applyRoles clock order) =
          activeHolders collation contractId (applyRoles clock' (ledgerOrder updates))) ↔
      Unanimous updates) := by
  have one (order : List RoleUpdate) (same : order.Perm updates) (clock clock' : RoleUpdate → ℕ) :
      activeHolders collation contractId (applyRoles clock order) =
          activeHolders collation contractId (applyRoles clock' (ledgerOrder updates)) ↔
        LastAsNewest order := by
    have historyOrder := history.perm same
    rw [activeHolders_eq_iff historyOrder (history.perm (perm_ledgerOrder updates)),
      ← grants_ledgerOrder_iff historyOrder]
    have sameLast (key : RoleKey) :
        lastFor key (ledgerOrder order) = lastFor key (ledgerOrder updates) := by
      apply Option.ext
      intro newest
      rw [lastFor_ledgerOrder_iff historyOrder, lastFor_ledgerOrder_iff history, newest_perm same]
    have sameOrder (key : RoleKey) :
        Grants key (ledgerOrder order) ↔ Grants key (ledgerOrder updates) := by
      rw [Grants, sameLast, Grants]
    simp only [sameOrder]
  constructor
  · exact one updates (List.Perm.refl _)
  · rw [← unanimous_iff]
    constructor
    · intro agree order same
      exact (one order same (fun _ => 0) fun _ => 0).mp (agree order same _ _)
    · intro agree order same clock clock'
      exact (one order same clock clock').mpr (agree order same)

def grantAndRevocation : List RoleUpdate :=
  [{ key := ⟨"C", "minter", "A"⟩, ledger := some 1 },
    { key := ⟨"C", "minter", "A"⟩, revoked := true, ledger := some 2 }]

theorem grantAndRevocation_history : History "C" grantAndRevocation where
  ofContract := by decide
  ledgers := by decide
  distinct := by decide

theorem oneUpdate_agrees :
    (∀ clock clock', activeHolders compare "C" (applyRoles clock [grantAndRevocation[0]]) =
        activeHolders compare "C" (applyRoles clock' (ledgerOrder [grantAndRevocation[0]])) ↔
      LastAsNewest [grantAndRevocation[0]]) ∧
    ((∀ order : List RoleUpdate, order.Perm [grantAndRevocation[0]] → ∀ clock clock',
        activeHolders compare "C" (applyRoles clock order) =
          activeHolders compare "C" (applyRoles clock' (ledgerOrder [grantAndRevocation[0]]))) ↔
      Unanimous [grantAndRevocation[0]]) :=
  activeHolders_iff_unanimous compare
    ⟨by decide, by decide, by decide⟩

/-- A grant that is applied after its revocation is reported as active. -/
theorem lateGrant_restored :
    ¬ ∀ order : List RoleUpdate, order.Perm grantAndRevocation → ∀ clock clock',
      activeHolders compare "C" (applyRoles clock order) =
        activeHolders compare "C" (applyRoles clock' (ledgerOrder grantAndRevocation)) := by
  intro same
  have late : grantAndRevocation.reverse.Perm grantAndRevocation := List.reverse_perm _
  have shown := same _ late (fun _ => 0) fun _ => 0
  rw [activeHolders_eq_iff (grantAndRevocation_history.perm late)
    (grantAndRevocation_history.perm (perm_ledgerOrder _))] at shown
  have restored : Grants ⟨"C", "minter", "A"⟩ grantAndRevocation.reverse :=
    ⟨grantAndRevocation[0], by decide, rfl⟩
  obtain ⟨last, found, grants⟩ := (shown _).mp restored
  have newest : Newest grantAndRevocation grantAndRevocation[1] := by
    refine ⟨List.mem_cons_of_mem _ List.mem_cons_self, ?_⟩
    decide
  have revoked := lastFor_ledgerOrder grantAndRevocation_history newest
  rw [show grantAndRevocation[1].key = ⟨"C", "minter", "A"⟩ from rfl, found] at revoked
  cases revoked
  cases grants

end Agreement

end Roles

end SorobanExplorer.Indexer
