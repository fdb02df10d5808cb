import SorobanExplorer.Contract.System

/-!
Owns what a step writes. Submissions write the event log only, and five
entrypoints write the registry only; `Step.registry` sorts the steps by these
five, and every other step leaves every registry key alone.
-/

namespace SorobanExplorer.Contract

open Library

variable {host : Host}

def registryKeys : Set DataKey :=
  { key | match key with
    | .contract _ | .contractVersion _ | .ownership _ | .deployer _ | .contractDeposit _ => True
    | _ => False }

def eventKeys : Set DataKey :=
  { key | match key with
    | .eventLog _ | .eventSeq => True
    | _ => False }

def Action.writesEntry : Action host → Option ContractId
  | .call _ (.registerContract _ id _) | .call _ (.updateContract _ id _)
  | .call _ (.deregisterContract _ id) | .call _ (.attestDeployer _ id _)
  | .call _ (.claimContract id _) => some id
  | _ => none

def Action.writesRegistry (action : Action host) : Bool := action.writesEntry.isSome

/-! ### Submissions write the event log only -/

theorem withEvent_frame {storage : Storage} {world : World} {seq : UInt64} {max : UInt32}
    {input : EventInput} (agree : Store.AgreeOn eventKeysᶜ storage world.storage) :
    Store.AgreeOn eventKeysᶜ storage (world.withEvent seq max input).storage :=
  agree.put_footprint (by exact trivial) _

theorem withEvents_frame {storage : Storage} {world : World} {max : UInt32}
    {items : List (UInt64 × EventInput)} (agree : Store.AgreeOn eventKeysᶜ storage world.storage) :
    Store.AgreeOn eventKeysᶜ storage (world.withEvents max items).storage := by
  induction items generalizing world with
  | nil => exact agree
  | cons item rest ih => exact ih (withEvent_frame agree)

theorem submitEvent_frame {env : Env host} {caller : Address} {input : EventInput}
    {before after : World} (ok : submitEvent env caller input before = .ok ((), after)) :
    Store.AgreeOn eventKeysᶜ before.storage after.storage := by
  obtain ⟨_, _, _, _, next, _, rfl⟩ := submitEvent_ok.mp ok
  exact (withEvent_frame (Store.AgreeOn.refl _ _)).put_footprint (by exact trivial) _

theorem submitEvents_frame {env : Env host} {caller : Address} {inputs : HostVec EventInput}
    {seqs : List UInt64} {before after : World}
    (ok : submitEvents env caller inputs before = .ok (seqs, after)) :
    Store.AgreeOn eventKeysᶜ before.storage after.storage := by
  obtain ⟨_, _, _, _, _, next, _, _, rfl⟩ := submitEvents_ok.mp ok
  exact (withEvents_frame (Store.AgreeOn.refl _ _)).put_footprint (by exact trivial) _

/-! ### Registry keys are none of the others -/

theorem registryKeys_compl_configuration {key : DataKey} (member : key ∈ registryKeys) :
    key ∈ configurationKeysᶜ := by
  intro inside
  cases key <;> first | exact inside | exact member

theorem registryKeys_compl_event {key : DataKey} (member : key ∈ registryKeys) :
    key ∈ eventKeysᶜ := by
  intro inside
  cases key <;> first | exact inside | exact member

theorem init_registry {admin : Address} {capacity : UInt32} {before after : World}
    (ok : init admin capacity before = .ok ((), after)) :
    Store.AgreeOn registryKeys before.storage after.storage := by
  obtain ⟨_, cap, _, _, _, rfl⟩ := init_ok.mp ok
  exact (((((Store.AgreeOn.refl _ _).put_right id _).put_right id _).put_right id _).put_right
    id _).put_right id _

/-! ### Steps by what they do to the registry -/

inductive RegistryTransition (host : Host) (before : World) : Action host → World → Prop
  | frame {action : Action host} {after : World} (other : action.writesRegistry = false)
      (agree : Store.AgreeOn registryKeys before.storage after.storage) :
      RegistryTransition host before action after
  | registered {env : Env host} {caller : Address} {id : ContractId} {details : ContractMeta}
      {after : World} (ok : registerContract env caller id details before = .ok ((), after)) :
      RegistryTransition host before (.call env (.registerContract caller id details)) after
  | updated {env : Env host} {caller : Address} {id : ContractId} {details : ContractMeta}
      {after : World} (ok : updateContract env caller id details before = .ok ((), after)) :
      RegistryTransition host before (.call env (.updateContract caller id details)) after
  | deregistered {env : Env host} {caller : Address} {id : ContractId} {after : World}
      (ok : deregisterContract env caller id before = .ok ((), after)) :
      RegistryTransition host before (.call env (.deregisterContract caller id)) after
  | attested {env : Env host} {caller : Address} {id : ContractId} {deployer : Address}
      {after : World} (ok : attestDeployer env caller id deployer before = .ok ((), after)) :
      RegistryTransition host before (.call env (.attestDeployer caller id deployer)) after
  | claimed {env : Env host} {id : ContractId} {claimant : Address} {method : VerifyMethod}
      {after : World} (ok : claimContract env id claimant before = .ok (method, after)) :
      RegistryTransition host before (.call env (.claimContract id claimant)) after

theorem Step.registry {before after : World} {action : Action host}
    (step : Step host before action after) : RegistryTransition host before action after := by
  cases step.transition with
  | others balances => exact .frame rfl (Store.AgreeOn.refl _ _)
  | read isRead =>
    rename_i env entrypoint
    refine .frame ?_ (Store.AgreeOn.refl _ _)
    cases entrypoint <;> first | rfl | cases isRead
  | configured isConfiguration frame balances adminSet =>
    rename_i env entrypoint
    refine .frame ?_ fun key member => frame key (registryKeys_compl_configuration member)
    cases entrypoint <;> first | rfl | cases isConfiguration
  | initialized ok => exact .frame rfl (init_registry ok)
  | resized ok =>
    obtain ⟨_, _, _, rfl⟩ := setMaxEvents_ok.mp ok
    exact .frame rfl ((Store.AgreeOn.refl _ _).put_right id _)
  | paused ok =>
    obtain ⟨_, _, rfl⟩ := setPaused_ok.mp ok
    exact .frame rfl ((Store.AgreeOn.refl _ _).put_right id _)
  | unpaused ok =>
    obtain ⟨_, _, rfl⟩ := setPaused_ok.mp ok
    exact .frame rfl ((Store.AgreeOn.refl _ _).put_right id _)
  | registered ok => exact .registered ok
  | updated ok => exact .updated ok
  | deregistered ok => exact .deregistered ok
  | attested ok => exact .attested ok
  | claimed ok => exact .claimed ok
  | submitted ok =>
    exact .frame rfl fun key member => submitEvent_frame ok key (registryKeys_compl_event member)
  | submittedBatch ok =>
    exact .frame rfl fun key member => submitEvents_frame ok key (registryKeys_compl_event member)

/-! ### What the five writing entrypoints leave behind -/

@[simp] theorem mem_versionKeys {id : ContractId} {abiVersion : UInt32} {key : DataKey} :
    key ∈ versionKeys id abiVersion ↔
      ∃ version, version ≤ abiVersion ∧ key = .contractVersion ⟨id, version⟩ := by
  simp [versionKeys, eq_comm]

section Written

variable {env : Env host} {caller : Address} {id : ContractId} {before after : World}

theorem registerContract_storage {details : ContractMeta}
    (ok : registerContract env caller id details before = .ok ((), after)) :
    ∃ base : Storage, (base = before.storage ∨ ∃ deposit,
        base = before.storage.put (.contractDeposit id) deposit) ∧
      after.storage = (base.put (.contract id) (registeredMeta env details)).put
        (.contractVersion ⟨id, 0⟩) (registeredMeta env details) := by
  obtain ⟨_, _, _, _, _, paid, taken, rfl⟩ := registerContract_ok.mp ok
  rcases takeDeposit_ok.mp taken with ⟨_, rfl⟩ | ⟨_, token, balances, _, _, rfl⟩
  · exact ⟨before.storage, Or.inl rfl, rfl⟩
  · let deposit : DepositRecord :=
      ⟨registrationDepositAmount (before.put (.contract id) (registeredMeta env details)), token⟩
    refine ⟨before.storage.put (.contractDeposit id) deposit, Or.inr ⟨deposit, rfl⟩, ?_⟩
    simp only [World.publish_storage, World.put_storage]
    rw [Store.put_comm _ (by simp : DataKey.contract id ≠ .contractDeposit id)]

theorem deregisterContract_storage
    (ok : deregisterContract env caller id before = .ok ((), after)) :
    ∃ existing, before.storage (.contract id) = some existing ∧
      after.storage = ((((before.storage.erase (.contractDeposit id)).erase (.contract id)).erase
        (.ownership id)).erase (.deployer id)).eraseAll (versionKeys id existing.abiVersion) := by
  obtain ⟨_, _, existing, registered, _, _, released, release, rfl⟩ :=
    deregisterContract_ok.mp ok
  refine ⟨existing, registered, ?_⟩
  have erased : released.storage = before.storage.erase (.contractDeposit id) := by
    rw [releaseDeposit_ok] at release
    split at release
    next absent =>
      subst release
      exact (Store.erase_eq_self absent).symm
    next deposit present =>
      obtain ⟨paid, payment, rfl⟩ := release
      have same : paid.storage = before.storage := by
        rw [payOutDeposit_ok] at payment
        split at payment
        next => obtain ⟨_, _, rfl⟩ := payment; rfl
        next => subst payment; rfl
      rw [World.erase_storage, same]
  simp only [erased]

theorem claimContract_storage {claimant : Address} {method : VerifyMethod}
    (ok : claimContract env id claimant before = .ok (method, after)) :
    ∃ details, before.storage (.contract id) = some details ∧ before.storage (.ownership id) = none ∧
      after.storage = (before.storage.put (.contract id)
        { details with registeredBy := claimant }).put (.ownership id)
          ⟨claimant, method, env.ledgerSequence⟩ := by
  obtain ⟨_, details, registered, unclaimed, _, _, handed, handing, rfl⟩ := claimContract_ok.mp ok
  refine ⟨details, registered, unclaimed, ?_⟩
  rw [handOver_ok] at handing
  subst handing
  split
  next same =>
    -- The claimant is the registrant already: the entry is what it was.
    subst same
    rw [World.publish_storage, World.put_storage, Store.put_eq_self registered]
  next => rfl

theorem registry_frame {action : Action host} (writes : action.writesRegistry = true)
    (step : Step host before action after) :
    Store.AgreeOn registryKeysᶜ before.storage after.storage := by
  have start := Store.AgreeOn.refl registryKeysᶜ before.storage
  cases step.registry with
  | frame other => rw [writes] at other; cases other
  | registered ok =>
    obtain ⟨base, recorded, stored⟩ := registerContract_storage ok
    rw [stored]
    have agree : Store.AgreeOn registryKeysᶜ before.storage base := by
      rcases recorded with rfl | ⟨deposit, rfl⟩
      · exact start
      · exact start.put_footprint (by exact trivial) _
    exact (agree.put_footprint (by exact trivial) _).put_footprint
      (by exact trivial) _
  | updated ok =>
    obtain ⟨_, _, _, _, _, _, _, _, rfl⟩ := updateContract_ok.mp ok
    exact (start.put_footprint (by exact trivial) _).put_footprint
      (by exact trivial) _
  | deregistered ok =>
    obtain ⟨existing, _, stored⟩ := deregisterContract_storage ok
    rw [stored]
    refine ((((start.erase_footprint (by exact trivial)).erase_footprint
      (by exact trivial)).erase_footprint (by exact trivial)).erase_footprint
        (by exact trivial)).eraseAll_right fun key erased => ?_
    obtain ⟨version, _, rfl⟩ := mem_versionKeys.mp erased
    exact fun outside => outside trivial
  | attested ok =>
    obtain ⟨_, _, _, rfl⟩ := attestDeployer_ok.mp ok
    exact start.put_footprint (by exact trivial) _
  | claimed ok =>
    obtain ⟨details, _, _, stored⟩ := claimContract_storage ok
    rw [stored]
    exact (start.put_footprint (by exact trivial) _).put_footprint
      (by exact trivial) _

end Written

end SorobanExplorer.Contract
