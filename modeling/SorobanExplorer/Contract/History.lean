import SorobanExplorer.Contract.Deployment
import SorobanExplorer.Contract.Entry

/-!
Owns the version history of the registry: every live entry has exactly the
snapshots `0..=abi_version`, each under its own number, and an id that is not
registered has no key left. The snapshot of the current version is the live
entry as long as every claim is made by the registrant itself.
-/

namespace SorobanExplorer.Contract

open Library

variable {host : Host}

/-! ### Complete histories -/

/-- The history of an entry is complete and correctly numbered, and an id
without an entry has nothing else. -/
structure Entry.HistoryComplete (entry : Entry) : Prop where
  versions : ∀ details, entry.live = some details →
    ∀ version, (entry.snapshots version).isSome = true ↔ version ≤ details.abiVersion
  numbered : ∀ version snapshot, entry.snapshots version = some snapshot →
    snapshot.abiVersion = version
  clean : entry.live = none →
    (∀ version, entry.snapshots version = none) ∧ entry.ownership = none ∧ entry.deposit = none

def World.EmptyRegistry (world : World) : Prop :=
  ∀ id, entryOf world.storage id = { Entry.vacant with deployer := world.storage (.deployer id) }

namespace Entry.HistoryComplete

variable {entry : Entry}

theorem of_vacant (deployer : Option Address) :
    HistoryComplete { Entry.vacant with deployer := deployer } where
  versions := by intro details live; cases live
  numbered := by intro version snapshot stored; cases stored
  clean := fun _ => ⟨fun _ => rfl, rfl, rfl⟩

theorem register (complete : entry.HistoryComplete) (absent : entry.live = none)
    {stored : ContractMeta} (first : stored.abiVersion = 0) (taken : Option DepositRecord) :
    (entry.register stored taken).HistoryComplete where
  versions := by
    intro details live version
    cases live
    have none_before := (complete.clean absent).1
    by_cases zero : version = 0
    · subst zero
      simp [Entry.register, first]
    · have positive : 0 < version.toNat := by
        have : version.toNat ≠ 0 := fun equal => zero (UInt32.toNat_inj.mp equal)
        omega
      simp only [Entry.register, Function.update_of_ne zero, none_before version, first,
        UInt32.le_iff_toNat_le, UInt32.toNat_zero]
      simp only [Option.isSome_none, Bool.false_eq_true, false_iff]
      omega
  numbered := by
    intro version snapshot stored_at
    by_cases zero : version = 0
    · subst zero
      simp only [Entry.register, Function.update_self] at stored_at
      cases stored_at
      exact first
    · simp only [Entry.register, Function.update_of_ne zero, (complete.clean absent).1] at stored_at
      cases stored_at
  clean := by intro live; cases live

theorem update (complete : entry.HistoryComplete) {existing stored : ContractMeta}
    (registered : entry.live = some existing)
    (next : stored.abiVersion.toNat = existing.abiVersion.toNat + 1) :
    (entry.update stored).HistoryComplete where
  versions := by
    intro details live version
    cases live
    have before := complete.versions existing registered version
    by_cases newest : version = stored.abiVersion
    · subst newest
      simp [Entry.update]
    · have different : version.toNat ≠ stored.abiVersion.toNat := fun equal =>
        newest (UInt32.toNat_inj.mp equal)
      simp only [Entry.update, Function.update_of_ne newest]
      rw [before, UInt32.le_iff_toNat_le, UInt32.le_iff_toNat_le]
      omega
  numbered := by
    intro version snapshot stored_at
    by_cases newest : version = stored.abiVersion
    · subst newest
      simp only [Entry.update, Function.update_self] at stored_at
      cases stored_at
      rfl
    · simp only [Entry.update, Function.update_of_ne newest] at stored_at
      exact complete.numbered version snapshot stored_at
  clean := by intro live; cases live

theorem claim (complete : entry.HistoryComplete) {details : ContractMeta}
    (registered : entry.live = some details) (ownership : Ownership) :
    (entry.claim details ownership).HistoryComplete where
  versions := by
    intro live_details live version
    cases live
    exact complete.versions details registered version
  numbered := complete.numbered
  clean := by intro live; cases live

theorem remove (complete : entry.HistoryComplete) {existing : ContractMeta}
    (registered : entry.live = some existing) :
    (entry.remove existing.abiVersion).HistoryComplete := by
  have gone : ∀ version, (entry.remove existing.abiVersion).snapshots version = none := by
    intro version
    by_cases inHistory : version ≤ existing.abiVersion
    · simp [Entry.remove, inHistory]
    · have absent := (complete.versions existing registered version).not.mpr inHistory
      simpa [Entry.remove, inHistory] using absent
  exact
    { versions := by intro details live; cases live
      numbered := by
        intro version snapshot stored
        rw [gone version] at stored
        cases stored
      clean := fun _ => ⟨gone, rfl, rfl⟩ }

theorem step {id : ContractId} {action : Action host} {after : Entry}
    (complete : entry.HistoryComplete) (taken : EntryStep host id entry action after) :
    after.HistoryComplete := by
  cases taken with
  | frame => exact complete
  | registered deposit absent => exact complete.register absent rfl deposit
  | updated registered next => exact complete.update registered next
  | claimed registered => exact complete.claim registered _
  | attested => exact ⟨complete.versions, complete.numbered, complete.clean⟩
  | deregistered registered => exact complete.remove registered

end Entry.HistoryComplete

theorem Run.historyComplete {start final : World} {actions : List (Action host)}
    (empty : start.EmptyRegistry) (run : Run (Step host) start actions final) (id : ContractId) :
    (entryOf final.storage id).HistoryComplete := by
  refine run.invariant (P := fun world => (entryOf world.storage id).HistoryComplete) ?_ ?_
  · rw [empty id]
    exact .of_vacant _
  · intro before action after complete step
    exact complete.step (step.entry id)

/-- From an empty registry, whatever is called, a registered contract has the
versions `0..=abi_version` and no others, each numbered as its key says, and an
id that is not registered has no version, owner or deposit. -/
theorem registry_consistent {start final : World} {actions : List (Action host)}
    (empty : start.EmptyRegistry) (run : Run (Step host) start actions final) (id : ContractId) :
    (∀ details, getContract final id = some details → ∀ version,
      ((getContractVersion final id version).isSome = true ↔ version ≤ details.abiVersion) ∧
        ∀ snapshot, getContractVersion final id version = some snapshot →
          snapshot.abiVersion = version) ∧
      (getContract final id = none → (∀ version, getContractVersion final id version = none) ∧
        getOwnership final id = none ∧ final.storage (.contractDeposit id) = none) := by
  have complete := Run.historyComplete empty run id
  refine ⟨fun details live version => ⟨complete.versions details live version, ?_⟩, complete.clean⟩
  exact complete.numbered version

/-- A registry with one entry has its version `0` and no version `1`. -/
theorem registry_consistent_registered :
    (getContractVersion exampleRegistered exampleId 0).isSome = true ∧
      ¬ (getContractVersion exampleRegistered exampleId 1).isSome = true := by
  have consistent := (registry_consistent (fun _ => rfl) exampleRegistered_run exampleId).1 _
    exampleRegistered_live
  refine ⟨(consistent 0).1.mpr (by decide), fun present => ?_⟩
  exact absurd ((consistent 1).1.mp present) (by decide)

/-! ### The snapshot of the current version -/

def Entry.SnapshotCurrent (entry : Entry) : Prop :=
  ∀ details, entry.live = some details → entry.snapshots details.abiVersion = some details

/-- `get_contract_version(id, m.abi_version)` is the `m` of `get_contract(id)`. -/
def World.SnapshotsCurrent (world : World) : Prop :=
  ∀ id details, getContract world id = some details →
    getContractVersion world id details.abiVersion = some details

theorem World.snapshotsCurrent_iff {world : World} :
    world.SnapshotsCurrent ↔ ∀ id, (entryOf world.storage id).SnapshotCurrent := Iff.rfl

def ClaimsOwnEntry (before : World) : Action host → Prop
  | .call _ (.claimContract id claimant) =>
    ∀ details, getContract before id = some details → details.registeredBy = claimant
  | _ => True

theorem Entry.SnapshotCurrent.claim_iff {entry : Entry} (current : entry.SnapshotCurrent)
    {details : ContractMeta} (registered : entry.live = some details) (ownership : Ownership) :
    (entry.claim details ownership).SnapshotCurrent ↔ details.registeredBy = ownership.owner := by
  have snapshot := current details registered
  constructor
  · intro keeps
    have same : entry.snapshots details.abiVersion =
        some { details with registeredBy := ownership.owner } := keeps _ rfl
    rw [snapshot, Option.some.injEq] at same
    exact congrArg ContractMeta.registeredBy same
  · rintro own live_details live
    cases live
    rw [← own]
    exact snapshot

theorem Entry.SnapshotCurrent.step_iff {entry after : Entry} {id : ContractId}
    {action : Action host} (current : entry.SnapshotCurrent)
    (taken : EntryStep host id entry action after) :
    after.SnapshotCurrent ↔ ∀ env claimant, action = .call env (.claimContract id claimant) →
      ∀ details, entry.live = some details → details.registeredBy = claimant := by
  have notClaim {Q : Prop} (holds : Q)
      (other : ∀ env claimant, action ≠ .call env (.claimContract id claimant)) :
      Q ↔ ∀ env claimant, action = .call env (.claimContract id claimant) →
        ∀ details, entry.live = some details → details.registeredBy = claimant :=
    iff_of_true holds fun env claimant same => absurd same (other env claimant)
  cases taken with
  | frame untouched =>
    exact notClaim current fun _ _ same => untouched (by rw [same]; rfl)
  | registered deposit absent =>
    refine notClaim (fun details live => ?_) (fun _ _ => by simp)
    cases live
    simp [Entry.register, registeredMeta]
  | updated registered next =>
    refine notClaim (fun details live => ?_) (fun _ _ => by simp)
    cases live
    exact Function.update_self ..
  | attested => exact notClaim current (fun _ _ => by simp)
  | deregistered => exact notClaim (fun details live => by cases live) (fun _ _ => by simp)
  | @claimed env claimant details method registered unclaimed =>
    rw [current.claim_iff registered]
    constructor
    · rintro own _ _ same _ live
      cases same
      rw [registered] at live
      cases live
      exact own
    · intro own
      exact own env claimant rfl details registered

theorem snapshotsCurrent_step {before after : World} {action : Action host}
    (step : Step host before action after) (current : before.SnapshotsCurrent) :
    after.SnapshotsCurrent ↔ ClaimsOwnEntry before action := by
  have each (id : ContractId) := (World.snapshotsCurrent_iff.mp current id).step_iff (step.entry id)
  rw [World.snapshotsCurrent_iff, forall_congr' each]
  constructor
  · intro guarded
    unfold ClaimsOwnEntry
    split
    next env id claimant => exact guarded id env claimant rfl
    next => trivial
  · rintro guarded id env claimant rfl
    exact guarded

theorem deployed_snapshotsCurrent (balances : Balances) :
    (World.deployed balances).SnapshotsCurrent := by
  intro id details live
  cases live

theorem snapshotsCurrent_along {balances : Balances} {actions : List (Action host)}
    (each : EachStep (Step host) (World.deployed balances) actions ClaimsOwnEntry) :
    Along (Step host) (World.deployed balances) actions fun _ world => world.SnapshotsCurrent :=
  each.along (deployed_snapshotsCurrent balances) fun _ _ _ _ _ current guarded step =>
    (snapshotsCurrent_step step current).mpr guarded

/-- In a run the current snapshots are the live entries throughout exactly when
every claim is made by the registrant of the entry. -/
theorem snapshotsCurrent_along_iff {balances : Balances} {actions : List (Action host)}
    {final : World} (run : Run (Step host) (World.deployed balances) actions final) :
    Along (Step host) (World.deployed balances) actions (fun _ world => world.SnapshotsCurrent) ↔
      EachStep (Step host) (World.deployed balances) actions ClaimsOwnEntry := by
  refine run.along_iff_eachStep (I := fun _ world => world.SnapshotsCurrent)
    (step_deterministic host) (deployed_snapshotsCurrent balances)
    (fun _ _ _ current => current) ?_ ?_
  · intro _ _ _ _ _ current guarded step
    exact (snapshotsCurrent_step step current).mpr guarded
  · intro _ _ _ _ _ current step reached
    exact (snapshotsCurrent_step step current).mp reached

/-- Before anybody claims, the snapshots are current. -/
theorem snapshotsCurrent_along_registered :
    Along (Step exampleHost) (World.deployed fun _ _ => 0)
      [.call exampleEnv (.init exampleAdmin MIN_MAX_EVENTS),
        .call exampleEnv (.registerContract exampleAdmin exampleId exampleMeta)]
      (fun _ world => world.SnapshotsCurrent) :=
  (snapshotsCurrent_along_iff exampleRegistered_run).mpr
    (EachStep.of_forall (by simp [ClaimsOwnEntry]))

/-- A claim by somebody else than the registrant leaves the old registrant in
the snapshot. -/
theorem claim_breaks_snapshot :
    ∃ final, Run (Step exampleHost) (World.deployed fun _ _ => 0)
      [.call exampleEnv (.init exampleAdmin MIN_MAX_EVENTS),
        .call exampleEnv (.registerContract exampleAdmin exampleId exampleMeta),
        .call exampleEnv (.claimContract exampleId exampleClaimant)] final ∧
      ¬ final.SnapshotsCurrent := by
  obtain ⟨final, claimed⟩ := exampleClaim_step
  have current := snapshotsCurrent_along (EachStep.of_forall (by simp [ClaimsOwnEntry])) _
    (List.prefix_refl _) _ exampleRegistered_run
  refine ⟨final, exampleRegistered_run.snoc claimed, fun reached => ?_⟩
  have own := (snapshotsCurrent_step claimed current).mp reached
  have same : exampleAdmin = exampleClaimant := own _ exampleRegistered_live
  exact absurd same (by decide)

end SorobanExplorer.Contract
