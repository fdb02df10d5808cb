import SorobanExplorer.Contract.Footprint

/-!
Owns the registry as independent entries: an entry is everything stored under
one contract id. `Step.entry` projects every step of the explorer to what it
does to one entry, so that a registry invariant is proved about one entry and
the few operations that write it.
-/

namespace SorobanExplorer.Contract

open Library

variable {host : Host}

@[ext] structure Entry where
  live : Option ContractMeta
  snapshots : UInt32 → Option ContractMeta
  ownership : Option Ownership
  deployer : Option Address
  deposit : Option DepositRecord

def entryOf (storage : Storage) (id : ContractId) : Entry where
  live := storage (.contract id)
  snapshots := fun version => storage (.contractVersion ⟨id, version⟩)
  ownership := storage (.ownership id)
  deployer := storage (.deployer id)
  deposit := storage (.contractDeposit id)

namespace Entry

def vacant : Entry := ⟨none, fun _ => none, none, none, none⟩

def register (entry : Entry) (stored : ContractMeta) (taken : Option DepositRecord) : Entry :=
  { entry with
    live := some stored
    snapshots := Function.update entry.snapshots 0 (some stored)
    deposit := taken.or entry.deposit }

def update (entry : Entry) (stored : ContractMeta) : Entry :=
  { entry with
    live := some stored
    snapshots := Function.update entry.snapshots stored.abiVersion (some stored) }

def claim (entry : Entry) (details : ContractMeta) (ownership : Ownership) : Entry :=
  { entry with
    live := some { details with registeredBy := ownership.owner }
    ownership := some ownership }

/-- Remove the entry, with the versions of a history that ends at `abiVersion`. -/
def remove (entry : Entry) (abiVersion : UInt32) : Entry where
  live := none
  snapshots := fun version => if version ≤ abiVersion then none else entry.snapshots version
  ownership := none
  deployer := none
  deposit := none

end Entry

theorem entryOf_congr {left right : Storage} (agree : Store.AgreeOn registryKeys left right)
    (id : ContractId) : entryOf left id = entryOf right id := by
  ext1
  · exact agree (.contract id) trivial
  · exact funext fun version => agree (.contractVersion ⟨id, version⟩) trivial
  · exact agree (.ownership id) trivial
  · exact agree (.deployer id) trivial
  · exact agree (.contractDeposit id) trivial

/-! ### Writes under one id -/

def DataKey.entryId : DataKey → Option ContractId
  | .contract id | .ownership id | .deployer id | .contractDeposit id => some id
  | .contractVersion key => some key.contractId
  | _ => none

section Writes

variable {storage : Storage} {id other : ContractId}

theorem entryOf_agree {left right : Storage}
    (agree : ∀ key : DataKey, key.entryId = some other → left key = right key) :
    entryOf left other = entryOf right other := by
  ext1
  · exact agree (.contract other) rfl
  · exact funext fun version => agree (.contractVersion ⟨other, version⟩) rfl
  · exact agree (.ownership other) rfl
  · exact agree (.deployer other) rfl
  · exact agree (.contractDeposit other) rfl

@[simp] theorem entryOf_put_other {key : DataKey} (value : key.Value)
    (outside : key.entryId ≠ some other) :
    entryOf (storage.put key value) other = entryOf storage other :=
  entryOf_agree fun inside member => Store.put_of_ne _ _ (by rintro rfl; exact outside member)

@[simp] theorem entryOf_erase_other {key : DataKey} (outside : key.entryId ≠ some other) :
    entryOf (storage.erase key) other = entryOf storage other :=
  entryOf_agree fun inside member => Store.erase_of_ne _ (by rintro rfl; exact outside member)

@[simp] theorem entryOf_put_live (details : ContractMeta) :
    entryOf (storage.put (.contract id) details) id =
      { entryOf storage id with live := some details } := by
  ext1 <;> simp [entryOf]

@[simp] theorem entryOf_put_snapshot (version : UInt32) (details : ContractMeta) :
    entryOf (storage.put (.contractVersion ⟨id, version⟩) details) id =
      { entryOf storage id with
        snapshots := Function.update (entryOf storage id).snapshots version (some details) } := by
  ext1
  case snapshots =>
    funext at_version
    by_cases same : at_version = version
    · subst same
      simp [entryOf]
    · simp [entryOf, same]
  all_goals simp [entryOf]

@[simp] theorem entryOf_put_ownership (ownership : Ownership) :
    entryOf (storage.put (.ownership id) ownership) id =
      { entryOf storage id with ownership := some ownership } := by
  ext1 <;> simp [entryOf]

@[simp] theorem entryOf_put_deployer (deployer : Address) :
    entryOf (storage.put (.deployer id) deployer) id =
      { entryOf storage id with deployer := some deployer } := by
  ext1 <;> simp [entryOf]

@[simp] theorem entryOf_put_deposit (deposit : DepositRecord) :
    entryOf (storage.put (.contractDeposit id) deposit) id =
      { entryOf storage id with deposit := some deposit } := by
  ext1 <;> simp [entryOf]

theorem entryOf_removed (abiVersion : UInt32) :
    entryOf (((((storage.erase (.contractDeposit id)).erase (.contract id)).erase
      (.ownership id)).erase (.deployer id)).eraseAll (versionKeys id abiVersion)) id =
        (entryOf storage id).remove abiVersion := by
  have kept : ∀ (current : Storage) (key : DataKey), (∀ version, key ≠ .contractVersion version) →
      current.eraseAll (versionKeys id abiVersion) key = current key := by
    intro current key other
    refine Store.eraseAll_of_notMem _ ?_
    rw [mem_versionKeys]
    rintro ⟨version, _, same⟩
    exact other _ same
  ext1
  case snapshots =>
    funext version
    by_cases inHistory : version ≤ abiVersion
    · have member : DataKey.contractVersion ⟨id, version⟩ ∈ versionKeys id abiVersion :=
        mem_versionKeys.mpr ⟨version, inHistory, rfl⟩
      simp [entryOf, Entry.remove, inHistory, Store.eraseAll_of_mem _ member]
    · have absent : DataKey.contractVersion ⟨id, version⟩ ∉ versionKeys id abiVersion := by
        simpa using inHistory
      simp [entryOf, Entry.remove, inHistory, Store.eraseAll_of_notMem _ absent]
  all_goals simp [entryOf, Entry.remove, kept]

theorem entryOf_versionKeys_other {keys : Storage} {abiVersion : UInt32} (ne : other ≠ id) :
    entryOf (keys.eraseAll (versionKeys id abiVersion)) other = entryOf keys other := by
  refine entryOf_agree fun key member => Store.eraseAll_of_notMem _ ?_
  rw [mem_versionKeys]
  rintro ⟨version, _, rfl⟩
  exact ne (Option.some.inj member).symm

end Writes

/-! ### Steps of one entry -/

/-- What a step of the explorer can do to the entry of `id`. -/
inductive EntryStep (host : Host) (id : ContractId) (entry : Entry) : Action host → Entry → Prop
  | frame {action : Action host} (other : action.writesEntry ≠ some id) :
      EntryStep host id entry action entry
  | registered {env : Env host} {caller : Address} {details : ContractMeta}
      (taken : Option DepositRecord) (absent : entry.live = none) :
      EntryStep host id entry (.call env (.registerContract caller id details))
        (entry.register (registeredMeta env details) taken)
  | updated {env : Env host} {caller : Address} {existing details : ContractMeta}
      (registered : entry.live = some existing)
      (next : details.abiVersion.toNat = existing.abiVersion.toNat + 1) :
      EntryStep host id entry (.call env (.updateContract caller id details))
        (entry.update (updatedMeta env details))
  | claimed {env : Env host} {claimant : Address} {details : ContractMeta} {method : VerifyMethod}
      (registered : entry.live = some details) (unclaimed : entry.ownership = none) :
      EntryStep host id entry (.call env (.claimContract id claimant))
        (entry.claim details ⟨claimant, method, env.ledgerSequence⟩)
  | attested {env : Env host} {caller deployer : Address} :
      EntryStep host id entry (.call env (.attestDeployer caller id deployer))
        { entry with deployer := some deployer }
  | deregistered {env : Env host} {caller : Address} {existing : ContractMeta}
      (registered : entry.live = some existing) :
      EntryStep host id entry (.call env (.deregisterContract caller id))
        (entry.remove existing.abiVersion)

theorem DataKey.entryId_ne {key : DataKey} {id other : ContractId} (ne : other ≠ id)
    (belongs : key.entryId = some id) : key.entryId ≠ some other :=
  fun inside => ne (Option.some.inj (inside.symm.trans belongs))

theorem registerContract_entry {env : Env host} {caller : Address} {id : ContractId}
    {details : ContractMeta} {before after : World}
    (ok : registerContract env caller id details before = .ok ((), after)) (other : ContractId) :
    EntryStep host other (entryOf before.storage other)
      (.call env (.registerContract caller id details)) (entryOf after.storage other) := by
  obtain ⟨base, recorded, stored⟩ := registerContract_storage ok
  have absent := (registerContract_ok.mp ok).2.2.2.1
  rw [stored]
  by_cases same : other = id
  · subst same
    have shape : ∃ taken : Option DepositRecord, entryOf base other =
        { entryOf before.storage other with
          deposit := taken.or (entryOf before.storage other).deposit } := by
      rcases recorded with rfl | ⟨deposit, rfl⟩
      · exact ⟨none, rfl⟩
      · exact ⟨some deposit, by simp⟩
    obtain ⟨taken, shape⟩ := shape
    simp only [entryOf_put_snapshot, entryOf_put_live, shape]
    exact .registered taken absent
  · have outside {key : DataKey} : key.entryId = some id → key.entryId ≠ some other :=
      DataKey.entryId_ne same
    rw [entryOf_put_other _ (outside rfl), entryOf_put_other _ (outside rfl)]
    have kept : entryOf base other = entryOf before.storage other := by
      rcases recorded with rfl | ⟨deposit, rfl⟩
      · rfl
      · exact entryOf_put_other _ (outside rfl)
    rw [kept]
    exact .frame fun writes => same (Option.some.inj writes).symm

theorem deregisterContract_entry {env : Env host} {caller : Address} {id : ContractId}
    {before after : World} (ok : deregisterContract env caller id before = .ok ((), after))
    (other : ContractId) :
    EntryStep host other (entryOf before.storage other)
      (.call env (.deregisterContract caller id)) (entryOf after.storage other) := by
  obtain ⟨existing, registered, stored⟩ := deregisterContract_storage ok
  rw [stored]
  by_cases same : other = id
  · subst same
    rw [entryOf_removed]
    exact .deregistered registered
  · have outside {key : DataKey} : key.entryId = some id → key.entryId ≠ some other :=
      DataKey.entryId_ne same
    rw [entryOf_versionKeys_other same, entryOf_erase_other (outside rfl),
      entryOf_erase_other (outside rfl), entryOf_erase_other (outside rfl),
      entryOf_erase_other (outside rfl)]
    exact .frame fun writes => same (Option.some.inj writes).symm

theorem Step.entry {before after : World} {action : Action host}
    (step : Step host before action after) (id : ContractId) :
    EntryStep host id (entryOf before.storage id) action (entryOf after.storage id) := by
  cases step.registry with
  | frame other agree =>
    rw [entryOf_congr agree]
    refine .frame fun writes => ?_
    rw [Action.writesRegistry, writes] at other
    cases other
  | registered ok => exact registerContract_entry ok id
  | deregistered ok => exact deregisterContract_entry ok id
  | @updated env caller target details _ ok =>
    obtain ⟨_, _, existing, registered, _, _, next, _, rfl⟩ := updateContract_ok.mp ok
    by_cases same : id = target
    · subst same
      have shape : entryOf (((before.put (.contract id) (updatedMeta env details)).put
          (.contractVersion ⟨id, details.abiVersion⟩) (updatedMeta env details)).storage) id =
            (entryOf before.storage id).update (updatedMeta env details) := by
        simp [Entry.update, updatedMeta]
      exact shape ▸ .updated registered next
    · have outside {key : DataKey} : key.entryId = some target → key.entryId ≠ some id :=
        DataKey.entryId_ne same
      simp only [World.publish_storage, World.put_storage]
      rw [entryOf_put_other _ (outside rfl), entryOf_put_other _ (outside rfl)]
      exact .frame fun writes => same (Option.some.inj writes).symm
  | @attested env caller target deployer _ ok =>
    obtain ⟨_, _, _, rfl⟩ := attestDeployer_ok.mp ok
    by_cases same : id = target
    · subst same
      rw [World.put_storage, entryOf_put_deployer]
      exact .attested
    · rw [World.put_storage, entryOf_put_other _ (DataKey.entryId_ne same rfl)]
      exact .frame fun writes => same (Option.some.inj writes).symm
  | @claimed env target claimant method _ ok =>
    obtain ⟨details, registered, unclaimed, stored⟩ := claimContract_storage ok
    rw [stored]
    by_cases same : id = target
    · subst same
      rw [entryOf_put_ownership, entryOf_put_live]
      exact .claimed registered unclaimed
    · rw [entryOf_put_other _ (DataKey.entryId_ne same rfl),
        entryOf_put_other _ (DataKey.entryId_ne same rfl)]
      exact .frame fun writes => same (Option.some.inj writes).symm

end SorobanExplorer.Contract
