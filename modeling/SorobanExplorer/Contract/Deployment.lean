import SorobanExplorer.Contract.System

/-!
Owns deployments of the explorer: what it means that the token contracts of a
host transfer exactly, a host whose tokens do, an environment that authorizes
everyone but the explorer, and the state that `init` leaves behind.
-/

namespace SorobanExplorer.Contract

open Library

/-! ### Exact token contracts -/

def Balances.move (balances : Balances) (token sender recipient : Address) (amount : Int) :
    Balances := fun other holder =>
  if other = token then
    balances other holder - (if holder = sender then amount else 0) +
      (if holder = recipient then amount else 0)
  else balances other holder

namespace Balances

variable {balances : Balances} {token other sender recipient holder : Address} {amount : Int}

theorem move_other (ne : other ≠ token) :
    balances.move token sender recipient amount other holder = balances other holder :=
  if_neg ne

theorem move_sender (ne : sender ≠ recipient) :
    balances.move token sender recipient amount token sender = balances token sender - amount := by
  simp [move, ne]

theorem move_recipient (ne : sender ≠ recipient) :
    balances.move token sender recipient amount token recipient =
      balances token recipient + amount := by
  simp [move, ne.symm]

theorem move_self : balances.move token sender sender amount = balances := by
  funext other holder
  by_cases same : other = token
  · simp [move, same]
  · exact move_other same

theorem move_recipient_inj {first second : Address} (nonzero : amount ≠ 0)
    (firstOutside : first ≠ sender)
    (same : balances.move token sender first amount = balances.move token sender second amount) :
    first = second := by
  by_contra different
  have atFirst := congrFun (congrFun same token) first
  simp only [move, ↓reduceIte, firstOutside, different] at atFirst
  omega

end Balances

def ExactTransfers (host : Host) : Prop :=
  ∀ token sender recipient amount before after,
    host.transfer token sender recipient amount before = some after →
      after = before.move token sender recipient amount

def Host.exact (self : Address) : Host where
  self := self
  addressFromStringBytes := fun _ => self
  sha256 := fun _ => Vector.replicate 32 0
  transfer := fun token sender recipient amount balances =>
    if 0 ≤ amount ∧ amount ≤ balances token sender then
      some (balances.move token sender recipient amount)
    else none

theorem Host.exact_transfers (self : Address) : ExactTransfers (Host.exact self) := by
  intro token sender recipient amount before after moved
  simp only [Host.exact] at moved
  split at moved
  next => exact (Option.some.inj moved).symm
  next => cases moved

theorem Host.exact_transfer {self token sender recipient : Address} {amount : Int}
    {balances : Balances} (nonneg : 0 ≤ amount) (enough : amount ≤ balances token sender) :
    (Host.exact self).transfer token sender recipient amount balances =
      some (balances.move token sender recipient amount) :=
  if_pos ⟨nonneg, enough⟩

/-! ### Environments -/

def Env.willing (host : Host) (tryInvoke : Address → Symbol → Option Address) : Env host where
  ledgerSequence := 0
  authorized := fun address => address != host.self
  self_unauthorized := by simp
  tryInvoke := tryInvoke

@[simp] theorem Env.willing_authorized {host : Host} {tryInvoke : Address → Symbol → Option Address}
    {address : Address} :
    (Env.willing host tryInvoke).authorized address = true ↔ address ≠ host.self := by
  simp [Env.willing]

/-! ### The initialised explorer -/

/-- The explorer after `init`. -/
def World.initialized (balances : Balances) (admin : Address) (capacity : UInt32) : World :=
  (((((World.deployed balances).put .admin admin).put .schemaVersion 1).put
    .migrationCursor 0).put .eventSeq 0).put .maxEvents capacity

section Initialized

variable {host : Host} {env : Env host} {balances : Balances} {admin : Address} {capacity : UInt32}

theorem initialized_step (low : MIN_MAX_EVENTS ≤ capacity) (high : capacity ≤ MAX_MAX_EVENTS) :
    Step host (World.deployed balances) (.call env (.init admin capacity))
      (World.initialized balances admin capacity) := by
  have nonzero : capacity ≠ 0 := by
    rintro rfl
    exact absurd low (by decide)
  exact init_ok.mpr ⟨rfl, capacity, (if_neg nonzero).symm, low, high, rfl⟩

@[simp] theorem initialized_admin :
    (World.initialized balances admin capacity).storage .admin = some admin := by
  simp [World.initialized]

@[simp] theorem initialized_eventSeq :
    eventSeq (World.initialized balances admin capacity) = 0 := by
  simp [World.initialized, eventSeq]

@[simp] theorem initialized_maxEvents :
    maxEvents (World.initialized balances admin capacity) = capacity := by
  simp [World.initialized, maxEvents]

@[simp] theorem initialized_paused :
    isPaused (World.initialized balances admin capacity) = false := by
  simp [World.initialized, isPaused, World.deployed]

@[simp] theorem initialized_balances :
    (World.initialized balances admin capacity).balances = balances := rfl

end Initialized

/-! ### Registering without a deposit -/

def World.withContract {host : Host} (world : World) (env : Env host) (id : ContractId)
    (details : ContractMeta) : World :=
  (((world.put (.contract id) (registeredMeta env details)).put (.contractVersion ⟨id, 0⟩)
    (registeredMeta env details)).publish
      (.cReg id details.registeredBy details.version env.ledgerSequence)).publish
        (.register id details.name)

theorem free_registration_step {host : Host} {env : Env host} {world : World} {caller : Address}
    {id : ContractId} {details : ContractMeta} (authorized : env.authorized caller = true)
    (unpaused : isPaused world = false) (isAdmin : world.storage .admin = some caller)
    (absent : world.storage (.contract id) = none) (valid : validateMeta details = .ok ())
    (free : world.storage .registrationDepositAmount = none) :
    Step host world (.call env (.registerContract caller id details))
      (world.withContract env id details) := by
  refine registerContract_ok.mpr ⟨authorized, unpaused, isAdmin, absent, valid, _, ?_, rfl⟩
  exact takeDeposit_ok.mpr (Or.inl ⟨by simp [registrationDepositAmount, free], rfl⟩)

/-! ### A concrete deployment -/

def Address.ofByte (byte : UInt8) : Address := .account (Vector.replicate 32 byte)

def exampleId : ContractId := Vector.replicate 32 7

def exampleHost : Host := Host.exact (.contract (Vector.replicate 32 0))

def exampleEnv : Env exampleHost :=
  Env.willing exampleHost fun _ func => if func = Symbol.admin then some (.ofByte 2) else none

def exampleAdmin : Address := .ofByte 1

def exampleClaimant : Address := .ofByte 2

theorem exampleEnv_authorized (byte : UInt8) :
    exampleEnv.authorized (.ofByte byte) = true := by
  simp [exampleEnv, exampleHost, Host.exact, Address.ofByte]

/-- The explorer after `init` with the least capacity. -/
def exampleStart : World := World.initialized (fun _ _ => 0) exampleAdmin MIN_MAX_EVENTS

theorem exampleStart_run :
    Run (Step exampleHost) (World.deployed fun _ _ => 0)
      [.call exampleEnv (.init exampleAdmin MIN_MAX_EVENTS)] exampleStart :=
  Run.one (initialized_step (by decide) (by decide))

def exampleMeta : ContractMeta where
  version := 1
  abiVersion := 0
  minLedger := 0
  name := HostVec.empty
  description := HostVec.empty
  functions := HostVec.empty
  registeredBy := exampleAdmin

def exampleInput : EventInput where
  contractId := exampleId
  function := Symbol.owner
  ledger := 1
  description := HostVec.empty
  rawTopics := ⟨[], by decide⟩
  rawData := HostVec.empty

def exampleRegistered : World := exampleStart.withContract exampleEnv exampleId exampleMeta

theorem exampleRegistered_run :
    Run (Step exampleHost) (World.deployed fun _ _ => 0)
      [.call exampleEnv (.init exampleAdmin MIN_MAX_EVENTS),
        .call exampleEnv (.registerContract exampleAdmin exampleId exampleMeta)]
      exampleRegistered := by
  refine exampleStart_run.snoc (free_registration_step (exampleEnv_authorized 1)
    initialized_paused initialized_admin ?_ rfl ?_) <;>
    simp [exampleStart, World.initialized, World.deployed]

theorem exampleRegistered_live :
    getContract exampleRegistered exampleId = some (registeredMeta exampleEnv exampleMeta) := by
  simp [exampleRegistered, World.withContract, getContract]

theorem exampleRegistered_admin : exampleRegistered.storage .admin = some exampleAdmin := by
  simp [exampleRegistered, World.withContract, exampleStart]

theorem exampleRegistered_paused : isPaused exampleRegistered = false := by
  simp [exampleRegistered, World.withContract, exampleStart, isPaused, World.initialized,
    World.deployed]

theorem exampleRegistered_unclaimed : getOwnership exampleRegistered exampleId = none := by
  simp [exampleRegistered, World.withContract, exampleStart, getOwnership, World.initialized,
    World.deployed]

theorem exampleClaim_step :
    ∃ final, Step exampleHost exampleRegistered
      (.call exampleEnv (.claimContract exampleId exampleClaimant)) final := by
  have proof_of_admin : claimMethod exampleEnv (contractAddress exampleHost exampleId)
      (exampleRegistered.storage (.deployer exampleId)) exampleClaimant = some .targetAdmin := by
    simp [claimMethod, exampleEnv, Env.willing, exampleClaimant]
  have claimed := claimContract_ok.mpr ⟨exampleRegistered_paused, _, exampleRegistered_live,
    exampleRegistered_unclaimed, proof_of_admin, exampleEnv_authorized 2, _, handOver_ok.mpr rfl,
    rfl⟩
  exact ⟨_, Tx.map_eq_ok.mpr ⟨_, rfl, claimed⟩⟩

end SorobanExplorer.Contract
