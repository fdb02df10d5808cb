import SorobanExplorer.Contract.Deposits

/-!
Owns what a moderator may do. The registry never reads the stored roles: a
moderator changes an entry exactly when it may do so for another reason, as
the admin or the registrant. Nobody else than the admin, the registrant and a
verified owner changes an entry.
-/

namespace SorobanExplorer.Contract

open Library

variable {host : Host}

/-- Two outcomes agree in storage and in every balance; published diagnostics
name their caller. -/
structure SameEffect (first second : World) : Prop where
  storage : first.storage = second.storage
  balances : first.balances = second.balances

structure ModeratedEntry (world : World) (admin moderator : Address) (id : ContractId)
    (entry : ContractMeta) : Prop where
  unpaused : isPaused world = false
  isAdmin : world.storage .admin = some admin
  role : getRole world moderator = some .moderator
  registered : getContract world id = some entry
  unverified : getOwnership world id = none

structure ActsAsAdmin (env : Env host) (world : World) (admin moderator : Address)
    (id : ContractId) (entry : ContractMeta) : Prop where
  deregisters : ∃ byModerator byAdmin,
    deregisterContract env moderator id world = .ok ((), byModerator) ∧
      deregisterContract env admin id world = .ok ((), byAdmin) ∧ SameEffect byModerator byAdmin
  updates : ∀ details, details.abiVersion.toNat = entry.abiVersion.toNat + 1 →
    validateMeta details = .ok () → ∃ byModerator byAdmin,
      updateContract env moderator id details world = .ok ((), byModerator) ∧
        updateContract env admin id details world = .ok ((), byAdmin) ∧
          SameEffect byModerator byAdmin

/-- Whoever changes or removes an entry is the admin, its registrant, its
verified owner (also one that this very call verifies) or a moderator. -/
def EntriesProtected (host : Host) (world : World) : Prop :=
  ∀ action after, Step host world action after → ∀ id entry,
    getContract world id = some entry → getContract after id ≠ some entry →
      ∃ env entrypoint caller, action = .call env entrypoint ∧
        entrypoint.caller = some caller ∧ env.authorized caller = true ∧
          (world.storage .admin = some caller ∨ caller = entry.registeredBy ∨
            (∃ ownership, getOwnership world id = some ownership ∧ ownership.owner = caller) ∨
            (∃ ownership, getOwnership after id = some ownership ∧ ownership.owner = caller) ∨
            getRole world caller = some .moderator)

def TokenPays (host : Host) (world : World) (id : ContractId) : Prop :=
  ∀ deposit, world.storage (.contractDeposit id) = some deposit → ∀ recipient,
    ∃ balances, host.transfer deposit.token host.self recipient deposit.amount world.balances =
      some balances

section Calls

variable {env : Env host} {world : World} {caller : Address} {id : ContractId}
  {entry : ContractMeta}

theorem deregister_succeeds (authorized : env.authorized caller = true)
    (unpaused : isPaused world = false) (registered : getContract world id = some entry)
    (adminSet : (world.storage .admin).isSome = true)
    (allowed : mayDeregister world caller entry = true) (tokenPays : TokenPays host world id) :
    ∃ after, deregisterContract env caller id world = .ok ((), after) := by
  have pays (deposit : DepositRecord)
      (recorded : world.storage (.contractDeposit id) = some deposit) :
      ∃ paid, payOutDeposit host caller entry.registeredBy deposit world = .ok ((), paid) := by
    cases named : payee world caller entry.registeredBy with
    | none => exact ⟨world, payOutDeposit_ok.mpr (by rw [named])⟩
    | some recipient =>
      obtain ⟨balances, moved⟩ := tokenPays deposit recorded recipient
      exact ⟨_, payOutDeposit_ok.mpr (by rw [named]; exact ⟨balances, moved, rfl⟩)⟩
  have releases : ∃ released,
      releaseDeposit host caller entry.registeredBy id world = .ok ((), released) := by
    cases recorded : world.storage (.contractDeposit id) with
    | none => exact ⟨world, releaseDeposit_ok.mpr (by rw [recorded])⟩
    | some deposit =>
      obtain ⟨paid, payment⟩ := pays deposit recorded
      exact ⟨_, releaseDeposit_ok.mpr (by rw [recorded]; exact ⟨paid, payment, rfl⟩)⟩
  obtain ⟨released, release⟩ := releases
  exact ⟨_, deregisterContract_ok.mpr ⟨authorized, unpaused, entry, registered, adminSet, allowed,
    released, release, rfl⟩⟩

theorem mayDeregister_iff :
    mayDeregister world caller entry = true ↔
      world.storage .admin = some caller ∨ caller = entry.registeredBy := by
  simp [mayDeregister, canModifyEntry]

theorem mayUpdate_unverified (unverified : getOwnership world id = none) :
    mayUpdate world caller id entry = mayDeregister world caller entry := by
  simp [mayUpdate, mayDeregister, unverified, canUpdateEntry]

theorem mayUpdate_cases (allowed : mayUpdate world caller id entry = true) :
    world.storage .admin = some caller ∨ caller = entry.registeredBy ∨
      ∃ ownership, getOwnership world id = some ownership ∧ ownership.owner = caller := by
  cases verified : getOwnership world id with
  | none =>
    rw [mayUpdate_unverified verified, mayDeregister_iff] at allowed
    rcases allowed with isAdmin | own
    · exact Or.inl isAdmin
    · exact Or.inr (Or.inl own)
  | some ownership =>
    simp only [mayUpdate, verified, Option.map_some, canUpdateEntry, beq_iff_eq] at allowed
    exact Or.inr (Or.inr ⟨ownership, rfl, allowed⟩)

theorem update_succeeds {details : ContractMeta} (authorized : env.authorized caller = true)
    (unpaused : isPaused world = false) (registered : getContract world id = some entry)
    (adminSet : (world.storage .admin).isSome = true)
    (allowed : mayUpdate world caller id entry = true)
    (next : details.abiVersion.toNat = entry.abiVersion.toNat + 1)
    (valid : validateMeta details = .ok ()) :
    ∃ after, updateContract env caller id details world = .ok ((), after) ∧
      after.storage = (world.storage.put (.contract id) (updatedMeta env details)).put
        (.contractVersion ⟨id, details.abiVersion⟩) (updatedMeta env details) ∧
        after.balances = world.balances :=
  ⟨_, updateContract_ok.mpr ⟨authorized, unpaused, entry, registered, adminSet, allowed, next, valid,
    rfl⟩, rfl, rfl⟩

end Calls

/-! ### Only these may change an entry -/

theorem entriesProtected (world : World) : EntriesProtected host world := by
  intro action after step id entry live changed
  have taken := step.entry id
  generalize written : entryOf after.storage id = afterEntry at taken
  have kept : afterEntry.live = some entry → False := by
    intro same
    rw [← written] at same
    exact changed same
  have registered : (entryOf world.storage id).live = some entry := live
  cases taken with
  | frame => exact (kept registered).elim
  | attested => exact (kept registered).elim
  | registered _ absent =>
    rw [registered] at absent
    cases absent
  | @updated env caller _ details _ _ =>
    obtain ⟨authorized, _, existing, found, _, allowed, _⟩ := updateContract_ok.mp step
    cases live.symm.trans found
    refine ⟨env, _, caller, rfl, rfl, authorized, ?_⟩
    rcases mayUpdate_cases allowed with isAdmin | own | verified
    · exact Or.inl isAdmin
    · exact Or.inr (Or.inl own)
    · exact Or.inr (Or.inr (Or.inl verified))
  | @deregistered env caller _ _ =>
    obtain ⟨authorized, _, existing, found, _, allowed, _⟩ := deregisterContract_ok.mp step
    cases live.symm.trans found
    refine ⟨env, _, caller, rfl, rfl, authorized, ?_⟩
    rcases mayDeregister_iff.mp allowed with isAdmin | own
    · exact Or.inl isAdmin
    · exact Or.inr (Or.inl own)
  | @claimed env claimant details method _ _ =>
    obtain ⟨_, _, ran⟩ := Tx.map_eq_ok.mp step
    obtain ⟨_, _, _, _, _, authorized, _⟩ := claimContract_ok.mp ran
    refine ⟨env, _, claimant, rfl, rfl, authorized, ?_⟩
    -- The claim has verified the claimant as the owner.
    exact Or.inr (Or.inr (Or.inr (Or.inl ⟨_, congrArg Entry.ownership written, rfl⟩)))

/-! ### The moderator's right -/

section Moderator

variable {env : Env host} {world : World} {admin moderator : Address} {id : ContractId}
  {entry : ContractMeta}

theorem deregister_sameEffect_iff (exact_transfers : ExactTransfers host)
    (positive : DepositsPositive world) (registered : getContract world id = some entry)
    {first second : Address} {afterFirst afterSecond : World}
    (ranFirst : deregisterContract env first id world = .ok ((), afterFirst))
    (ranSecond : deregisterContract env second id world = .ok ((), afterSecond))
    (own : first = entry.registeredBy) (other : second ≠ entry.registeredBy) :
    SameEffect afterFirst afterSecond ↔ world.storage (.contractDeposit id) = none ∨
      world.storage .registrationTreasury = some first := by
  have outsider : first ≠ host.self :=
    Env.authorized_ne_self (deregisterContract_ok.mp ranFirst).1
  obtain ⟨_, foundFirst, storageFirst⟩ := deregisterContract_storage ranFirst
  obtain ⟨_, foundSecond, storageSecond⟩ := deregisterContract_storage ranSecond
  cases foundFirst.symm.trans foundSecond
  have storage : afterFirst.storage = afterSecond.storage := storageFirst.trans storageSecond.symm
  have fundsFirst := deregisterContract_funds exact_transfers registered ranFirst
  have fundsSecond := deregisterContract_funds exact_transfers registered ranSecond
  simp only [payee, if_pos own, if_neg other] at fundsFirst fundsSecond
  cases recorded : world.storage (.contractDeposit id) with
  | none =>
    rw [recorded] at fundsFirst fundsSecond
    exact iff_of_true ⟨storage, fundsFirst.trans fundsSecond.symm⟩ (Or.inl rfl)
  | some deposit =>
    have worth := positive id deposit recorded
    simp only [recorded] at fundsFirst fundsSecond
    simp only [reduceCtorEq, false_or]
    constructor
    · intro same
      cases treasury : world.storage .registrationTreasury with
      | none =>
        -- The registrant was paid and the admin's call paid nobody.
        simp only [treasury] at fundsSecond
        have atSelf := congrFun (congrFun (fundsFirst.symm.trans
          (same.balances.trans fundsSecond)) deposit.token) host.self
        rw [Balances.move_sender outsider.symm] at atSelf
        omega
      | some recipient =>
        rw [treasury] at fundsSecond
        have moved := fundsFirst.symm.trans (same.balances.trans fundsSecond)
        rw [Balances.move_recipient_inj (Int.ne_of_gt worth) outsider moved]
    · intro treasury
      rw [treasury] at fundsSecond
      exact ⟨storage, fundsFirst.trans fundsSecond.symm⟩

/-- A moderator of a reachable explorer acts on an unverified entry as the
admin does, and nobody else can touch an entry, exactly when the moderator is
the admin, or is the registrant and the deposit could not go elsewhere. -/
theorem moderator_acts_iff (exact_transfers : ExactTransfers host) {balances : Balances}
    {history : List (Action host)}
    (reached : Run (Step host) (World.deployed balances) history world)
    (moderated : ModeratedEntry world admin moderator id entry)
    (byModerator : env.authorized moderator = true) (byAdmin : env.authorized admin = true)
    (tokenPays : TokenPays host world id) :
    (ActsAsAdmin env world admin moderator id entry ∧ EntriesProtected host world) ↔
      moderator = admin ∨ (moderator = entry.registeredBy ∧
        (world.storage (.contractDeposit id) = none ∨
          world.storage .registrationTreasury = some moderator)) := by
  have positive := reachable_depositsPositive exact_transfers reached
  have adminSet : (world.storage .admin).isSome = true := by simp [moderated.isAdmin]
  have adminMay : mayDeregister world admin entry = true :=
    mayDeregister_iff.mpr (Or.inl moderated.isAdmin)
  constructor
  · rintro ⟨acts, _⟩
    obtain ⟨afterModerator, afterAdmin, ranModerator, ranAdmin, same⟩ := acts.deregisters
    obtain ⟨_, _, existing, found, _, allowed, _⟩ := deregisterContract_ok.mp ranModerator
    cases moderated.registered.symm.trans found
    by_cases isAdmin : moderator = admin
    · exact Or.inl isAdmin
    · have own : moderator = entry.registeredBy := by
        rcases mayDeregister_iff.mp allowed with stored | own
        · exact absurd (Option.some.inj (stored.symm.trans moderated.isAdmin)) isAdmin
        · exact own
      have other : admin ≠ entry.registeredBy := fun equal => isAdmin (own.trans equal.symm)
      exact Or.inr ⟨own, (deregister_sameEffect_iff exact_transfers positive moderated.registered
        ranModerator ranAdmin own other).mp same⟩
  · intro condition
    refine ⟨?_, entriesProtected world⟩
    have moderatorMay : mayDeregister world moderator entry = true := by
      rcases condition with rfl | ⟨own, _⟩
      · exact adminMay
      · exact mayDeregister_iff.mpr (Or.inr own)
    obtain ⟨afterModerator, ranModerator⟩ := deregister_succeeds byModerator moderated.unpaused
      moderated.registered adminSet moderatorMay tokenPays
    obtain ⟨afterAdmin, ranAdmin⟩ := deregister_succeeds byAdmin moderated.unpaused
      moderated.registered adminSet adminMay tokenPays
    refine ⟨⟨afterModerator, afterAdmin, ranModerator, ranAdmin, ?_⟩, ?_⟩
    · by_cases isAdmin : moderator = admin
      · subst isAdmin
        rw [ranModerator] at ranAdmin
        cases ranAdmin
        exact ⟨rfl, rfl⟩
      · rcases condition with equal | ⟨own, paid⟩
        · exact absurd equal isAdmin
        · have other : admin ≠ entry.registeredBy := fun equal => isAdmin (own.trans equal.symm)
          exact (deregister_sameEffect_iff exact_transfers positive moderated.registered
            ranModerator ranAdmin own other).mpr paid
    · intro details next valid
      have unverified (caller : Address) : mayUpdate world caller id entry =
          mayDeregister world caller entry := mayUpdate_unverified moderated.unverified
      obtain ⟨first, ranFirst, storageFirst, fundsFirst⟩ := update_succeeds byModerator
        moderated.unpaused moderated.registered adminSet ((unverified _).trans moderatorMay) next valid
      obtain ⟨second, ranSecond, storageSecond, fundsSecond⟩ := update_succeeds byAdmin
        moderated.unpaused moderated.registered adminSet ((unverified _).trans adminMay) next valid
      exact ⟨first, second, ranFirst, ranSecond, storageFirst.trans storageSecond.symm,
        fundsFirst.trans fundsSecond.symm⟩

end Moderator

/-! ### A moderator of one entry -/

def moderatedWorld (details : ContractMeta) : World :=
  ((exampleStart.withContract exampleEnv exampleId details).put (.role exampleClaimant)
    Role.moderator).publish (.roleGrant exampleClaimant .moderator)

section Moderated

variable {details : ContractMeta}

theorem moderatedWorld_run (valid : validateMeta details = .ok ()) :
    Run (Step exampleHost) (World.deployed fun _ _ => 0)
      [.call exampleEnv (.init exampleAdmin MIN_MAX_EVENTS),
        .call exampleEnv (.registerContract exampleAdmin exampleId details),
        .call exampleEnv (.grantRole exampleAdmin exampleClaimant .moderator)]
      (moderatedWorld details) := by
  have registered : Step exampleHost exampleStart
      (.call exampleEnv (.registerContract exampleAdmin exampleId details))
      (exampleStart.withContract exampleEnv exampleId details) := by
    refine free_registration_step (exampleEnv_authorized 1) initialized_paused initialized_admin
      ?_ valid ?_ <;>
      simp [exampleStart, World.initialized, World.deployed]
  have appointed : Step exampleHost (exampleStart.withContract exampleEnv exampleId details)
      (.call exampleEnv (.grantRole exampleAdmin exampleClaimant .moderator))
      (moderatedWorld details) :=
    grantRole_ok.mpr ⟨exampleEnv_authorized 1, by simp [World.withContract, exampleStart], rfl⟩
  exact (exampleStart_run.snoc registered).snoc appointed

theorem moderatedWorld_entry :
    ModeratedEntry (moderatedWorld details) exampleAdmin exampleClaimant exampleId
      (registeredMeta exampleEnv details) := by
  constructor <;>
    simp [moderatedWorld, World.withContract, exampleStart, World.initialized, World.deployed,
      isPaused, getRole, getContract, getOwnership]

theorem moderatedWorld_deposit :
    (moderatedWorld details).storage (.contractDeposit exampleId) = none := by
  simp [moderatedWorld, World.withContract, exampleStart, World.initialized, World.deployed]

end Moderated

/-- A moderator who is the registrant, and has paid no deposit, acts as the
admin does. -/
theorem moderator_acts_registrant :
    ActsAsAdmin exampleEnv (moderatedWorld entrustedMeta) exampleAdmin exampleClaimant exampleId
      (registeredMeta exampleEnv entrustedMeta) :=
  ((moderator_acts_iff (Host.exact_transfers _) (moderatedWorld_run rfl) moderatedWorld_entry
    (exampleEnv_authorized 2) (exampleEnv_authorized 1)
    (fun _ recorded => by rw [moderatedWorld_deposit] at recorded; cases recorded)).mpr
      (Or.inr ⟨rfl, Or.inl moderatedWorld_deposit⟩)).1

/-- A moderator of somebody else's entry is turned away. -/
theorem moderator_turned_away :
    Run (Step exampleHost) (World.deployed fun _ _ => 0)
      [.call exampleEnv (.init exampleAdmin MIN_MAX_EVENTS),
        .call exampleEnv (.registerContract exampleAdmin exampleId exampleMeta),
        .call exampleEnv (.grantRole exampleAdmin exampleClaimant .moderator)]
      (moderatedWorld exampleMeta) ∧
      ModeratedEntry (moderatedWorld exampleMeta) exampleAdmin exampleClaimant exampleId
        (registeredMeta exampleEnv exampleMeta) ∧
        ¬ ActsAsAdmin exampleEnv (moderatedWorld exampleMeta) exampleAdmin exampleClaimant exampleId
          (registeredMeta exampleEnv exampleMeta) := by
  refine ⟨moderatedWorld_run rfl, moderatedWorld_entry, fun acts => ?_⟩
  obtain ⟨_, _, ranModerator, _⟩ := acts.deregisters
  obtain ⟨_, _, existing, found, _, allowed, _⟩ := deregisterContract_ok.mp ranModerator
  cases moderatedWorld_entry.registered.symm.trans found
  rcases mayDeregister_iff.mp allowed with stored | own
  · rw [moderatedWorld_entry.isAdmin] at stored
    exact absurd (Option.some.inj stored) (by decide)
  · exact absurd own (by decide)

end SorobanExplorer.Contract
