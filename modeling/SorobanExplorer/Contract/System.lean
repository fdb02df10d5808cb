import SorobanExplorer.Contract.EventLog
import SorobanExplorer.Contract.Mmr
import SorobanExplorer.Contract.Registry
import SorobanExplorer.Library.Run

/-!
Owns the explorer as a transition system: an action is a call of one of the
entrypoints, or a movement of tokens by other parties between two calls. A step
is an action that succeeds; the host rolls every other call back.

`Step.transition` sorts the steps by what they write. It is the only place that
looks at every entrypoint.
-/

namespace SorobanExplorer.Contract

open Library

inductive Entrypoint where
  | init (admin : Address) (maxEvents : UInt32)
  | setRegistrationDeposit (caller : Address) (amount : Int) (token : Address)
  | setRegistrationTreasury (caller treasury : Address)
  | depositOf (id : ContractId)
  | schemaVersion
  | migrate (caller : Address) (source target batch : UInt32)
  | transferAdmin (caller newAdmin : Address)
  | grantRole (caller account : Address) (role : Role)
  | revokeRole (caller account : Address)
  | getRole (account : Address)
  | setMaxEvents (caller : Address) (newMax : UInt32)
  | storageUtilisation
  | pause (caller : Address)
  | unpause (caller : Address)
  | isPaused
  | registerContract (caller : Address) (id : ContractId) (details : ContractMeta)
  | updateContract (caller : Address) (id : ContractId) (details : ContractMeta)
  | bumpContractTtl (id : ContractId)
  | bumpContractVersionTtl (id : ContractId) (abiVersion : UInt32)
  | bumpEventTtl (seq : UInt64)
  | getContract (id : ContractId)
  | getContractVersion (id : ContractId) (abiVersion : UInt32)
  | getLatestContract (id : ContractId)
  | deregisterContract (caller : Address) (id : ContractId)
  | attestDeployer (caller : Address) (id : ContractId) (deployer : Address)
  | claimContract (id : ContractId) (claimant : Address)
  | getOwnership (id : ContractId)
  | submitEvent (caller : Address) (input : EventInput)
  | submitEvents (caller : Address) (inputs : HostVec EventInput)
  | getEvent (seq : UInt64)
  | eventCount
  | getRoot
  | getEvents (cursor : UInt64) (limit : UInt32)

def Entrypoint.caller : Entrypoint → Option Address
  | .setRegistrationDeposit caller _ _ | .setRegistrationTreasury caller _
  | .migrate caller _ _ _ | .transferAdmin caller _ | .grantRole caller _ _
  | .revokeRole caller _ | .setMaxEvents caller _ | .pause caller | .unpause caller
  | .registerContract caller _ _ | .updateContract caller _ _ | .deregisterContract caller _
  | .attestDeployer caller _ _ | .claimContract _ caller | .submitEvent caller _
  | .submitEvents caller _ => some caller
  | _ => none

def Entrypoint.isRead : Entrypoint → Bool
  | .depositOf _ | .schemaVersion | .getRole _ | .storageUtilisation | .isPaused
  | .bumpContractTtl _ | .bumpContractVersionTtl _ _ | .bumpEventTtl _ | .getContract _
  | .getContractVersion _ _ | .getLatestContract _ | .getOwnership _ | .getEvent _
  | .eventCount | .getRoot | .getEvents _ _ => true
  | _ => false

def Entrypoint.isConfiguration : Entrypoint → Bool
  | .setRegistrationDeposit _ _ _ | .setRegistrationTreasury _ _ | .migrate _ _ _ _
  | .transferAdmin _ _ | .grantRole _ _ _ | .revokeRole _ _ => true
  | _ => false

def Entrypoint.run {host : Host} (env : Env host) : Entrypoint → Call Unit
  | .init admin maxEvents => Contract.init admin maxEvents
  | .setRegistrationDeposit caller amount token => Contract.setRegistrationDeposit env caller amount token
  | .setRegistrationTreasury caller treasury => Contract.setRegistrationTreasury env caller treasury
  | .depositOf id => (fun _ => ()) <$> Tx.read (Contract.depositOf · id)
  | .schemaVersion => (fun _ => ()) <$> Tx.read Contract.schemaVersion
  | .migrate caller source target batch => Contract.migrate env caller source target batch
  | .transferAdmin caller newAdmin => Contract.transferAdmin env caller newAdmin
  | .grantRole caller account role => Contract.grantRole env caller account role
  | .revokeRole caller account => Contract.revokeRole env caller account
  | .getRole account => (fun _ => ()) <$> Tx.read (Contract.getRole · account)
  | .setMaxEvents caller newMax => Contract.setMaxEvents env caller newMax
  | .storageUtilisation => (fun _ => ()) <$> Tx.read Contract.storageUtilisation
  | .pause caller => Contract.pause env caller
  | .unpause caller => Contract.unpause env caller
  | .isPaused => (fun _ => ()) <$> Tx.read Contract.isPaused
  | .registerContract caller id details => Contract.registerContract env caller id details
  | .updateContract caller id details => Contract.updateContract env caller id details
  | .bumpContractTtl id => Contract.bumpContractTtl id
  | .bumpContractVersionTtl id abiVersion => Contract.bumpContractVersionTtl id abiVersion
  | .bumpEventTtl seq => Contract.bumpEventTtl seq
  | .getContract id => (fun _ => ()) <$> do
      orPanicWith .notFound (← Tx.read (Contract.getContract · id))
  | .getContractVersion id abiVersion =>
    (fun _ => ()) <$> Tx.read (Contract.getContractVersion · id abiVersion)
  | .getLatestContract id => (fun _ => ()) <$> Tx.read (Contract.getContract · id)
  | .deregisterContract caller id => Contract.deregisterContract env caller id
  | .attestDeployer caller id deployer => Contract.attestDeployer env caller id deployer
  | .claimContract id claimant => (fun _ => ()) <$> Contract.claimContract env id claimant
  | .getOwnership id => (fun _ => ()) <$> Tx.read (Contract.getOwnership · id)
  | .submitEvent caller input => Contract.submitEvent env caller input
  | .submitEvents caller inputs => (fun _ => ()) <$> Contract.submitEvents env caller inputs
  | .getEvent seq => (fun _ => ()) <$> Contract.getEvent seq
  | .eventCount => (fun _ => ()) <$> Tx.read Contract.eventCount
  | .getRoot => (fun _ => ()) <$> Mmr.root host
  | .getEvents cursor limit => (fun _ => ()) <$> Tx.read (Contract.getEvents · cursor limit)

inductive Action (host : Host) where
  | call (env : Env host) (entrypoint : Entrypoint)
  | others (balances : Balances)

def Step (host : Host) (before : World) (action : Action host) (after : World) : Prop :=
  match action with
  | .call env entrypoint => entrypoint.run env before = .ok ((), after)
  | .others balances => after = { before with balances }

theorem step_deterministic (host : Host) : Deterministic (Step host) := by
  intro before action first second left right
  cases action with
  | call env entrypoint =>
    simp only [Step] at left right
    rw [left] at right
    cases right
    rfl
  | others balances =>
    simp only [Step] at left right
    rw [left, right]

/-! ### Steps by what they write -/

def configurationKeys : Set DataKey :=
  { key | match key with
    | .admin | .role _ | .schemaVersion | .migrationCursor | .registrationDepositAmount
    | .registrationDepositToken | .registrationTreasury => True
    | _ => False }

inductive Transition (host : Host) (before : World) : Action host → World → Prop
  | others (balances : Balances) :
      Transition host before (.others balances) { before with balances }
  | read {env : Env host} {entrypoint : Entrypoint} (isRead : entrypoint.isRead = true) :
      Transition host before (.call env entrypoint) before
  | configured {env : Env host} {entrypoint : Entrypoint} {after : World}
      (isConfiguration : entrypoint.isConfiguration = true)
      (frame : Store.AgreeOn configurationKeysᶜ before.storage after.storage)
      (balances : after.balances = before.balances)
      (adminSet : (before.storage .admin).isSome = true ∧ (after.storage .admin).isSome = true) :
      Transition host before (.call env entrypoint) after
  | initialized {env : Env host} {admin : Address} {capacity : UInt32} {after : World}
      (ok : init admin capacity before = .ok ((), after)) :
      Transition host before (.call env (.init admin capacity)) after
  | resized {env : Env host} {caller : Address} {newMax : UInt32} {after : World}
      (ok : setMaxEvents env caller newMax before = .ok ((), after)) :
      Transition host before (.call env (.setMaxEvents caller newMax)) after
  | paused {env : Env host} {caller : Address} {after : World}
      (ok : pause env caller before = .ok ((), after)) :
      Transition host before (.call env (.pause caller)) after
  | unpaused {env : Env host} {caller : Address} {after : World}
      (ok : unpause env caller before = .ok ((), after)) :
      Transition host before (.call env (.unpause caller)) after
  | registered {env : Env host} {caller : Address} {id : ContractId} {details : ContractMeta}
      {after : World} (ok : registerContract env caller id details before = .ok ((), after)) :
      Transition host before (.call env (.registerContract caller id details)) after
  | updated {env : Env host} {caller : Address} {id : ContractId} {details : ContractMeta}
      {after : World} (ok : updateContract env caller id details before = .ok ((), after)) :
      Transition host before (.call env (.updateContract caller id details)) after
  | deregistered {env : Env host} {caller : Address} {id : ContractId} {after : World}
      (ok : deregisterContract env caller id before = .ok ((), after)) :
      Transition host before (.call env (.deregisterContract caller id)) after
  | attested {env : Env host} {caller : Address} {id : ContractId} {deployer : Address}
      {after : World} (ok : attestDeployer env caller id deployer before = .ok ((), after)) :
      Transition host before (.call env (.attestDeployer caller id deployer)) after
  | claimed {env : Env host} {id : ContractId} {claimant : Address} {method : VerifyMethod}
      {after : World} (ok : claimContract env id claimant before = .ok (method, after)) :
      Transition host before (.call env (.claimContract id claimant)) after
  | submitted {env : Env host} {caller : Address} {input : EventInput} {after : World}
      (ok : submitEvent env caller input before = .ok ((), after)) :
      Transition host before (.call env (.submitEvent caller input)) after
  | submittedBatch {env : Env host} {caller : Address} {inputs : HostVec EventInput}
      {seqs : List UInt64} {after : World}
      (ok : submitEvents env caller inputs before = .ok (seqs, after)) :
      Transition host before (.call env (.submitEvents caller inputs)) after

section Configuration

variable {host : Host} {env : Env host} {world : World}

theorem configuration_frame {entrypoint : Entrypoint} {after : World}
    (isConfiguration : entrypoint.isConfiguration = true)
    (ran : entrypoint.run env world = .ok ((), after)) :
    Store.AgreeOn configurationKeysᶜ world.storage after.storage ∧
      after.balances = world.balances := by
  have start := Store.AgreeOn.refl configurationKeysᶜ world.storage
  cases entrypoint with
  | setRegistrationDeposit =>
    obtain ⟨_, _, _, rfl⟩ := setRegistrationDeposit_ok.mp ran
    exact ⟨(start.put_footprint (by exact trivial) _).put_footprint (by exact trivial) _, rfl⟩
  | setRegistrationTreasury =>
    obtain ⟨_, _, rfl⟩ := setRegistrationTreasury_ok.mp ran
    exact ⟨start.put_footprint (by exact trivial) _, rfl⟩
  | migrate =>
    obtain ⟨_, _, _, _, _, rfl⟩ := migrate_ok.mp ran
    exact ⟨(start.put_footprint (by exact trivial) _).put_footprint (by exact trivial) _, rfl⟩
  | transferAdmin =>
    obtain ⟨_, _, rfl⟩ := transferAdmin_ok.mp ran
    exact ⟨start.put_footprint (by exact trivial) _, rfl⟩
  | grantRole =>
    obtain ⟨_, _, rfl⟩ := grantRole_ok.mp ran
    exact ⟨start.put_footprint (by exact trivial) _, rfl⟩
  | revokeRole =>
    obtain ⟨_, _, rfl⟩ := revokeRole_ok.mp ran
    exact ⟨start.erase_footprint (by exact trivial), rfl⟩
  | _ => cases isConfiguration

theorem configuration_adminSet {entrypoint : Entrypoint} {after : World}
    (isConfiguration : entrypoint.isConfiguration = true)
    (ran : entrypoint.run env world = .ok ((), after)) :
    (world.storage .admin).isSome = true ∧ (after.storage .admin).isSome = true := by
  cases entrypoint with
  | setRegistrationDeposit =>
    obtain ⟨_, stored, _, rfl⟩ := setRegistrationDeposit_ok.mp ran
    simp [stored]
  | setRegistrationTreasury =>
    obtain ⟨_, stored, rfl⟩ := setRegistrationTreasury_ok.mp ran
    simp [stored]
  | migrate =>
    obtain ⟨_, stored, _, _, _, rfl⟩ := migrate_ok.mp ran
    simp [stored]
  | transferAdmin =>
    obtain ⟨_, stored, rfl⟩ := transferAdmin_ok.mp ran
    simp [stored]
  | grantRole =>
    obtain ⟨_, stored, rfl⟩ := grantRole_ok.mp ran
    simp [stored]
  | revokeRole =>
    obtain ⟨_, stored, rfl⟩ := revokeRole_ok.mp ran
    simp [stored]
  | _ => cases isConfiguration

theorem read_frame {entrypoint : Entrypoint} {after : World} (isRead : entrypoint.isRead = true)
    (ran : entrypoint.run env world = .ok ((), after)) : after = world := by
  cases entrypoint with
  | bumpContractTtl => exact (bumpContractTtl_ok.mp ran).2
  | bumpContractVersionTtl => exact (bumpContractVersionTtl_ok.mp ran).2
  | bumpEventTtl => exact (bumpEventTtl_ok.mp ran).2
  | getEvent =>
    obtain ⟨_, _, ran⟩ := Tx.map_eq_ok.mp ran
    exact (getEvent_ok.mp ran).2
  | getContract =>
    obtain ⟨_, _, ran⟩ := Tx.map_eq_ok.mp ran
    exact (orPanicWith_ok.mp (read_bind_ok.mp ran)).2
  | getRoot =>
    obtain ⟨_, _, ran⟩ := Tx.map_eq_ok.mp ran
    exact Mmr.root_ok ran
  | depositOf | schemaVersion | getRole | storageUtilisation | isPaused | getContractVersion
  | getLatestContract | getOwnership | eventCount | getEvents =>
    obtain ⟨_, _, ran⟩ := Tx.map_eq_ok.mp ran
    exact (Tx.read_eq_ok.mp ran).2
  | _ => cases isRead

end Configuration

theorem Step.transition {host : Host} {before after : World} {action : Action host}
    (step : Step host before action after) : Transition host before action after := by
  cases action with
  | others balances =>
    cases step
    exact .others balances
  | call env entrypoint =>
    change entrypoint.run env before = .ok ((), after) at step
    cases entrypoint with
    | init => exact .initialized step
    | setMaxEvents => exact .resized step
    | pause => exact .paused step
    | unpause => exact .unpaused step
    | registerContract => exact .registered step
    | updateContract => exact .updated step
    | deregisterContract => exact .deregistered step
    | attestDeployer => exact .attested step
    | claimContract =>
      obtain ⟨_, _, ran⟩ := Tx.map_eq_ok.mp step
      exact .claimed ran
    | submitEvent => exact .submitted step
    | submitEvents =>
      obtain ⟨_, _, ran⟩ := Tx.map_eq_ok.mp step
      exact .submittedBatch ran
    | setRegistrationDeposit | setRegistrationTreasury | migrate | transferAdmin | grantRole
    | revokeRole =>
      obtain ⟨frame, balances⟩ := configuration_frame rfl step
      exact .configured rfl frame balances (configuration_adminSet rfl step)
    | _ =>
      cases read_frame rfl step
      exact .read rfl

end SorobanExplorer.Contract
