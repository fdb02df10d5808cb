import SorobanExplorer.Contract.Admin
import SorobanExplorer.Contract.Strkey

/-!
Owns the registry entrypoints: registering, updating, deregistering, attesting
and claiming a contract, the registration deposit that goes with an entry, and
the reads of entries and their version history. Each writing entrypoint comes
with the lemma that says when it succeeds and what it writes.
-/

namespace SorobanExplorer.Contract

open Library

variable {host : Host} (env : Env host)

/-! ### Validation -/

/-- The body of the loop over `meta.functions`. -/
def validateFunction (func : FunctionAbi) : Except Error Unit :=
  if func.description.len > MAX_DESCRIPTION_LEN then .error .invalidInput
  else if func.params.len > MAX_PARAMS_PER_FUNCTION then .error .invalidInput
  else .ok ()

def validateMeta (details : ContractMeta) : Except Error Unit :=
  if details.name.len > MAX_NAME_LEN then .error .invalidInput
  else if details.description.len > MAX_DESCRIPTION_LEN then .error .invalidInput
  else if details.functions.len > MAX_FUNCTIONS then .error .invalidInput
  else details.functions.items.forM validateFunction

/-! ### Reads -/

/-- `get_contract`, and its alias `get_latest_contract`. -/
def getContract (world : World) (id : ContractId) : Option ContractMeta :=
  world.storage (.contract id)

/-- `get_contract_version`. -/
def getContractVersion (world : World) (id : ContractId) (abiVersion : UInt32) :
    Option ContractMeta :=
  world.storage (.contractVersion ⟨id, abiVersion⟩)

/-- `get_ownership`. -/
def getOwnership (world : World) (id : ContractId) : Option Ownership :=
  world.storage (.ownership id)

/-- `deposit_of`. -/
def depositOf (world : World) (id : ContractId) : Int :=
  ((world.storage (.contractDeposit id)).map DepositRecord.amount).getD 0

/-! ### Registering and updating -/

/-- The registration deposit in force, `0` when unset. -/
def registrationDepositAmount (world : World) : Int :=
  (world.storage .registrationDepositAmount).getD 0

/-- `if deposit_amount > 0 { .. }` in `register_contract`. -/
def takeDeposit (host : Host) (caller : Address) (id : ContractId) : Call Unit := do
  let amount ← Tx.read registrationDepositAmount
  if amount > 0 then do
    let token ← unwrap (← get .registrationDepositToken)
    transfer host token caller host.self amount
    set (.contractDeposit id) ⟨amount, token⟩
  else pure ()

/-- What `register_contract` stores for the submitted metadata. -/
def registeredMeta (details : ContractMeta) : ContractMeta :=
  { details with abiVersion := 0, minLedger := env.ledgerSequence }

def registerContract (caller : Address) (id : ContractId) (details : ContractMeta) :
    Call Unit := do
  requireAuth env caller
  ensureUnpaused
  ensureAdmin caller
  let existing ← get (.contract id)
  ensure (existing.isSome = false) .alreadyExists
  orPanic (validateMeta details)
  let stored := registeredMeta env details
  set (.contract id) stored
  extendTtl (.contract id)
  takeDeposit host caller id
  set (.contractVersion ⟨id, 0⟩) stored
  extendTtl (.contractVersion ⟨id, 0⟩)
  publish (.cReg id stored.registeredBy stored.version env.ledgerSequence)
  publish (.register id stored.name)

/-- Whether `update_contract` lets the caller change the entry. -/
def mayUpdate (world : World) (caller : Address) (id : ContractId) (entry : ContractMeta) : Bool :=
  canUpdateEntry (world.storage .admin == some caller) (caller == entry.registeredBy)
    ((getOwnership world id).map fun ownership => ownership.owner == caller)

/-- What `update_contract` stores for the submitted metadata. -/
def updatedMeta (details : ContractMeta) : ContractMeta :=
  { details with minLedger := env.ledgerSequence }

def updateContract (caller : Address) (id : ContractId) (details : ContractMeta) : Call Unit := do
  requireAuth env caller
  ensureUnpaused
  let existing ← orPanicWith .notFound (← get (.contract id))
  let _ ← unwrap (← get .admin)
  let allowed ← Tx.read fun world => mayUpdate world caller id existing
  ensure (allowed = true) .unauthorized
  let _ ← orPanic (nextAbiVersion existing.abiVersion details.abiVersion)
  orPanic (validateMeta details)
  let updated := updatedMeta env details
  set (.contract id) updated
  extendTtl (.contract id)
  set (.contractVersion ⟨id, details.abiVersion⟩) updated
  extendTtl (.contractVersion ⟨id, details.abiVersion⟩)
  publish (.cAbiu id existing.abiVersion details.abiVersion env.ledgerSequence)
  publish (.cUpd id caller existing.version updated.version env.ledgerSequence)

/-! ### Refreshing -/

def bumpContractTtl (id : ContractId) : Call Unit := do
  let existing ← orPanicWith .notFound (← get (.contract id))
  extendTtl (.contract id)
  extendTtl (.contractVersion ⟨id, existing.abiVersion⟩)

def bumpContractVersionTtl (id : ContractId) (abiVersion : UInt32) : Call Unit := do
  let existing ← get (.contractVersion ⟨id, abiVersion⟩)
  ensure (existing.isSome = true) .notFound
  extendTtl (.contractVersion ⟨id, abiVersion⟩)

/-! ### Deregistering -/

def removeAll : List DataKey → Call Unit
  | [] => pure ()
  | key :: keys => do
      remove key
      removeAll keys

def payOutDeposit (host : Host) (caller registrant : Address) (deposit : DepositRecord) :
    Call Unit := do
  let treasury ← get .registrationTreasury
  if caller = registrant then
    transfer host deposit.token host.self caller deposit.amount
  else
    match treasury with
    | some treasury => transfer host deposit.token host.self treasury deposit.amount
    | none => pure ()

/-- `if let Some(deposit) = get(ContractDeposit) { .. }` in
`deregister_contract`. -/
def releaseDeposit (host : Host) (caller registrant : Address) (id : ContractId) : Call Unit := do
  let deposit ← get (.contractDeposit id)
  match deposit with
  | some deposit => do
      payOutDeposit host caller registrant deposit
      remove (.contractDeposit id)
  | none => pure ()

def versionKeys (id : ContractId) (abiVersion : UInt32) : List DataKey :=
  (versionsToRemove abiVersion).map fun version => .contractVersion ⟨id, version⟩

/-- Whether `deregister_contract` lets the caller remove the entry. -/
def mayDeregister (world : World) (caller : Address) (entry : ContractMeta) : Bool :=
  canModifyEntry (world.storage .admin == some caller) (caller == entry.registeredBy)

def deregisterContract (caller : Address) (id : ContractId) : Call Unit := do
  requireAuth env caller
  ensureUnpaused
  let existing ← orPanicWith .notFound (← get (.contract id))
  let _ ← unwrap (← get .admin)
  let allowed ← Tx.read fun world => mayDeregister world caller existing
  ensure (allowed = true) .unauthorized
  releaseDeposit host caller existing.registeredBy id
  remove (.contract id)
  remove (.ownership id)
  remove (.deployer id)
  removeAll (versionKeys id existing.abiVersion)
  publish (.cDereg id caller env.ledgerSequence)

/-! ### Proving ownership -/

def attestDeployer (caller : Address) (id : ContractId) (deployer : Address) : Call Unit := do
  requireAuth env caller
  ensureUnpaused
  ensureAdmin caller
  set (.deployer id) deployer
  extendTtl (.deployer id)

/-- `admin`. -/
def Symbol.admin : Symbol := ⟨[97, 100, 109, 105, 110], by decide, by decide⟩

/-- `owner`. -/
def Symbol.owner : Symbol := ⟨[111, 119, 110, 101, 114], by decide, by decide⟩

def claimMethod (target : Address) (deployer : Option Address) (claimant : Address) :
    Option VerifyMethod :=
  if env.tryInvoke target Symbol.admin = some claimant then some .targetAdmin
  else if env.tryInvoke target Symbol.owner = some claimant then some .targetOwner
  else if deployer = some claimant then some .deployer
  else none

/-- `if previous != claimant { .. }` in `claim_contract`. -/
def handOver (id : ContractId) (details : ContractMeta) (claimant : Address) : Call Unit :=
  if details.registeredBy ≠ claimant then
    set (.contract id) { details with registeredBy := claimant }
  else pure ()

def claimContract (id : ContractId) (claimant : Address) : Call VerifyMethod := do
  ensureUnpaused
  let details ← orPanicWith .notFound (← get (.contract id))
  let claimed ← get (.ownership id)
  ensure (claimed.isSome = false) .alreadyClaimed
  let deployer ← get (.deployer id)
  let method ← orPanicWith .unauthorized
    (claimMethod env (contractAddress host id) deployer claimant)
  requireAuth env claimant
  handOver id details claimant
  set (.ownership id) ⟨claimant, method, env.ledgerSequence⟩
  extendTtl (.ownership id)
  publish (.cClaim id claimant details.registeredBy method)
  return method

/-! ### What a successful call writes -/

section Success

variable {env} {caller : Address} {id : ContractId} {world after : World} {result : Unit}

theorem takeDeposit_ok :
    takeDeposit host caller id world = .ok (result, after) ↔
      (registrationDepositAmount world ≤ 0 ∧ after = world) ∨
        (0 < registrationDepositAmount world ∧ ∃ token balances,
          world.storage .registrationDepositToken = some token ∧
            host.transfer token caller host.self (registrationDepositAmount world)
              world.balances = some balances ∧
              after = { world with balances }.put (.contractDeposit id)
                ⟨registrationDepositAmount world, token⟩) := by
  by_cases positive : 0 < registrationDepositAmount world
  · simp [takeDeposit, positive, Int.not_le.mpr positive, Tx.bind_eq_ok]
  · simp [takeDeposit, positive, Int.not_lt.mp positive]

theorem registerContract_ok {details : ContractMeta} :
    registerContract env caller id details world = .ok (result, after) ↔
      env.authorized caller = true ∧ isPaused world = false ∧
        world.storage .admin = some caller ∧ world.storage (.contract id) = none ∧
          validateMeta details = .ok () ∧
            ∃ paid, takeDeposit host caller id
                (world.put (.contract id) (registeredMeta env details)) = .ok ((), paid) ∧
              after = ((paid.put (.contractVersion ⟨id, 0⟩) (registeredMeta env details)).publish
                (.cReg id details.registeredBy details.version env.ledgerSequence)).publish
                  (.register id details.name) := by
  simp [registerContract, Tx.bind_eq_ok, Unique.exists_iff, registeredMeta]

theorem updateContract_ok {details : ContractMeta} :
    updateContract env caller id details world = .ok (result, after) ↔
      env.authorized caller = true ∧ isPaused world = false ∧
        ∃ existing, world.storage (.contract id) = some existing ∧
          (world.storage .admin).isSome = true ∧ mayUpdate world caller id existing = true ∧
            details.abiVersion.toNat = existing.abiVersion.toNat + 1 ∧
              validateMeta details = .ok () ∧
                after = ((((world.put (.contract id) (updatedMeta env details)).put
                  (.contractVersion ⟨id, details.abiVersion⟩) (updatedMeta env details)).publish
                    (.cAbiu id existing.abiVersion details.abiVersion env.ledgerSequence)).publish
                      (.cUpd id caller existing.version details.version env.ledgerSequence)) := by
  simp [updateContract, nextAbiVersion_ok, Unique.exists_iff, Option.isSome_iff_exists,
    updatedMeta]

theorem removeAll_ok {keys : List DataKey} :
    removeAll keys world = .ok (result, after) ↔
      after = { world with storage := world.storage.eraseAll keys } := by
  induction keys generalizing world with
  | nil => simp [removeAll, Store.eraseAll]
  | cons key keys ih =>
    simp [removeAll, ih, Store.eraseAll, World.erase]

theorem bumpContractTtl_ok :
    bumpContractTtl id world = .ok (result, after) ↔
      (∃ existing, world.storage (.contract id) = some existing ∧
        (world.storage (.contractVersion ⟨id, existing.abiVersion⟩)).isSome = true) ∧
          after = world := by
  cases stored : world.storage (.contract id) <;> simp [bumpContractTtl, stored]

theorem bumpContractVersionTtl_ok {abiVersion : UInt32} :
    bumpContractVersionTtl id abiVersion world = .ok (result, after) ↔
      (world.storage (.contractVersion ⟨id, abiVersion⟩)).isSome = true ∧ after = world := by
  simp [bumpContractVersionTtl]

def payee (world : World) (caller registrant : Address) : Option Address :=
  if caller = registrant then some caller else world.storage .registrationTreasury

theorem payOutDeposit_ok {registrant : Address} {deposit : DepositRecord} :
    payOutDeposit host caller registrant deposit world = .ok (result, after) ↔
      match payee world caller registrant with
      | some recipient => ∃ balances, host.transfer deposit.token host.self recipient
          deposit.amount world.balances = some balances ∧ after = { world with balances }
      | none => after = world := by
  unfold payee
  by_cases own : caller = registrant
  · simp [payOutDeposit, own]
  · cases treasury : world.storage .registrationTreasury <;>
      simp [payOutDeposit, own, treasury]

theorem releaseDeposit_ok {registrant : Address} :
    releaseDeposit host caller registrant id world = .ok (result, after) ↔
      match world.storage (.contractDeposit id) with
      | none => after = world
      | some deposit => ∃ paid, payOutDeposit host caller registrant deposit world = .ok ((), paid) ∧
          after = paid.erase (.contractDeposit id) := by
  cases stored : world.storage (.contractDeposit id) <;>
    simp [releaseDeposit, stored, Tx.bind_eq_ok, Unique.exists_iff]

theorem deregisterContract_ok :
    deregisterContract env caller id world = .ok (result, after) ↔
      env.authorized caller = true ∧ isPaused world = false ∧
        ∃ existing, world.storage (.contract id) = some existing ∧
          (world.storage .admin).isSome = true ∧ mayDeregister world caller existing = true ∧
            ∃ released, releaseDeposit host caller existing.registeredBy id world =
                .ok ((), released) ∧
              after = { released with
                storage := (((released.storage.erase (.contract id)).erase (.ownership id)).erase
                  (.deployer id)).eraseAll (versionKeys id existing.abiVersion)
                events := released.events ++ [.cDereg id caller env.ledgerSequence] } := by
  simp [deregisterContract, Tx.bind_eq_ok, Unique.exists_iff, Option.isSome_iff_exists,
    removeAll_ok, World.erase, World.publish]

theorem attestDeployer_ok {deployer : Address} :
    attestDeployer env caller id deployer world = .ok (result, after) ↔
      env.authorized caller = true ∧ isPaused world = false ∧
        world.storage .admin = some caller ∧ after = world.put (.deployer id) deployer := by
  simp [attestDeployer]

theorem handOver_ok {details : ContractMeta} {claimant : Address} :
    handOver id details claimant world = .ok (result, after) ↔
      after = if details.registeredBy = claimant then world
        else world.put (.contract id) { details with registeredBy := claimant } := by
  by_cases same : details.registeredBy = claimant <;> simp [handOver, same]

theorem claimContract_ok {claimant : Address} {method : VerifyMethod} :
    claimContract env id claimant world = .ok (method, after) ↔
      isPaused world = false ∧ ∃ details, world.storage (.contract id) = some details ∧
        world.storage (.ownership id) = none ∧
          claimMethod env (contractAddress host id) (world.storage (.deployer id)) claimant =
            some method ∧ env.authorized claimant = true ∧
              ∃ handed, handOver id details claimant world = .ok ((), handed) ∧
                after = (handed.put (.ownership id) ⟨claimant, method, env.ledgerSequence⟩).publish
                  (.cClaim id claimant details.registeredBy method) := by
  simp [claimContract, Tx.bind_eq_ok, Unique.exists_iff]

end Success

end SorobanExplorer.Contract
