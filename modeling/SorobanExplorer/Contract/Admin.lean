import SorobanExplorer.Contract.Host

/-!
Owns the entrypoints that configure the explorer: `init`, the admin, the
delegated roles, the pause switch, the ring capacity, the registration deposit
and the schema cursor. Each one comes with the lemma that says when it succeeds
and what it writes.
-/

namespace SorobanExplorer.Contract

open Library

variable {host : Host} (env : Env host)

/-! ### Reading the configuration -/

/-- `EventSeq`, `0` when unset. -/
def eventSeq (world : World) : UInt64 := (world.storage .eventSeq).getD 0

/-- `MaxEvents`, the default capacity when unset. -/
def maxEvents (world : World) : UInt32 := (world.storage .maxEvents).getD DEFAULT_MAX_EVENTS

/-- `is_paused`. -/
def isPaused (world : World) : Bool := (world.storage .paused).getD false

/-- `get_role`. -/
def getRole (world : World) (account : Address) : Option Role := world.storage (.role account)

/-- `schema_version`. -/
def schemaVersion (world : World) : UInt32 := (world.storage .schemaVersion).getD 1

/-- `storage_utilisation`. -/
def storageUtilisation (world : World) : UInt64 × UInt32 :=
  (retainedCount (eventSeq world) (maxEvents world), maxEvents world)

/-! ### Guards -/

/-- `let admin = get(Admin).unwrap(); if caller != admin { panic }`. -/
def ensureAdmin (caller : Address) : Call Unit := do
  let admin ← unwrap (← get .admin)
  ensure (caller = admin) .unauthorized

/-- `require_admin`. -/
def requireAdmin (caller : Address) : Call Unit := do
  requireAuth env caller
  ensureAdmin caller

/-- `state::ensure_writable(is_paused(env))`. -/
def ensureUnpaused : Call Unit := do
  let paused ← Tx.read isPaused
  orPanic (ensureWritable paused)

@[simp] theorem ensureAdmin_ok {caller : Address} {world after : World} {result : Unit} :
    ensureAdmin caller world = .ok (result, after) ↔
      world.storage .admin = some caller ∧ after = world := by
  simp [ensureAdmin]

@[simp] theorem requireAdmin_ok {caller : Address} {world after : World} {result : Unit} :
    requireAdmin env caller world = .ok (result, after) ↔
      (env.authorized caller = true ∧ world.storage .admin = some caller) ∧ after = world := by
  simp [requireAdmin, and_assoc]

@[simp] theorem ensureUnpaused_ok {world after : World} {result : Unit} :
    ensureUnpaused world = .ok (result, after) ↔ isPaused world = false ∧ after = world := by
  simp [ensureUnpaused, ensureWritable_ok]

section Sequence

variable {α : Type} {world after : World} {value : α} {next : Unit → Call α}

@[simp] theorem ensureAdmin_bind_ok {caller : Address} :
    (ensureAdmin caller >>= next) world = .ok (value, after) ↔
      world.storage .admin = some caller ∧ next () world = .ok (value, after) := by
  simp [Tx.bind_eq_ok, and_assoc, Unique.exists_iff]

@[simp] theorem requireAdmin_bind_ok {caller : Address} :
    (requireAdmin env caller >>= next) world = .ok (value, after) ↔
      (env.authorized caller = true ∧ world.storage .admin = some caller) ∧
        next () world = .ok (value, after) := by
  simp [Tx.bind_eq_ok, and_assoc, Unique.exists_iff]

@[simp] theorem ensureUnpaused_bind_ok :
    (ensureUnpaused >>= next) world = .ok (value, after) ↔
      isPaused world = false ∧ next () world = .ok (value, after) := by
  simp [Tx.bind_eq_ok, and_assoc, Unique.exists_iff]

end Sequence

/-! ### Entrypoints -/

/-- `init`: the only entrypoint that asks for no authorization. -/
def init (admin : Address) (maxEvents : UInt32) : Call Unit := do
  let existing ← get .admin
  ensure (existing.isSome = false) .alreadyExists
  let cap := if maxEvents = 0 then DEFAULT_MAX_EVENTS else maxEvents
  ensure (¬ (cap < MIN_MAX_EVENTS ∨ cap > MAX_MAX_EVENTS)) .invalidInput
  set .admin admin
  set .schemaVersion (1 : UInt32)
  set .migrationCursor (0 : UInt32)
  set .eventSeq (0 : UInt64)
  set .maxEvents cap

def setRegistrationDeposit (caller : Address) (amount : Int) (token : Address) : Call Unit := do
  requireAuth env caller
  let admin ← unwrap (← get .admin)
  ensure (¬ (caller ≠ admin ∨ amount < 0)) .unauthorized
  set .registrationDepositAmount amount
  set .registrationDepositToken token

def setRegistrationTreasury (caller treasury : Address) : Call Unit := do
  requireAdmin env caller
  set .registrationTreasury treasury

/-- `u32::saturating_add`. -/
def saturatingAdd32 (left right : UInt32) : UInt32 :=
  (checkedAdd32 left right).getD (UInt32.ofNat (UInt32.size - 1))

def migrate (caller : Address) (source target batch : UInt32) : Call Unit := do
  requireAuth env caller
  let admin ← unwrap (← get .admin)
  let current ← Tx.read schemaVersion
  ensure (¬ (caller ≠ admin ∨ source ≠ current ∨ target < source ∨ batch = 0)) .invalidInput
  let cursor ← get .migrationCursor
  set .migrationCursor (saturatingAdd32 (cursor.getD 0) batch)
  set .schemaVersion target

def transferAdmin (caller newAdmin : Address) : Call Unit := do
  requireAdmin env caller
  set .admin newAdmin
  publish (.admXfer caller newAdmin)

def grantRole (caller account : Address) (role : Role) : Call Unit := do
  requireAdmin env caller
  set (.role account) role
  publish (.roleGrant account role)

def revokeRole (caller account : Address) : Call Unit := do
  requireAdmin env caller
  remove (.role account)
  publish (.roleRevoke account)

def setMaxEvents (caller : Address) (newMax : UInt32) : Call Unit := do
  requireAdmin env caller
  let seq ← Tx.read eventSeq
  let currentMax ← Tx.read maxEvents
  orPanic (checkResize seq currentMax newMax)
  set .maxEvents newMax

/-- `pause` and `unpause` write the flag and publish their own topic. -/
def setPaused (caller : Address) (paused : Bool) (topic : Published) : Call Unit := do
  requireAdmin env caller
  set .paused paused
  publish topic

def pause (caller : Address) : Call Unit := setPaused env caller true .paused

def unpause (caller : Address) : Call Unit := setPaused env caller false .unpaused

/-! ### What a successful call writes -/

section Success

variable {env} {caller : Address} {world after : World} {result : Unit}

theorem init_ok {admin : Address} {capacity : UInt32} :
    init admin capacity world = .ok (result, after) ↔
      world.storage .admin = none ∧
        ∃ cap, cap = (if capacity = 0 then DEFAULT_MAX_EVENTS else capacity) ∧
          MIN_MAX_EVENTS ≤ cap ∧ cap ≤ MAX_MAX_EVENTS ∧
            after = ((((world.put .admin admin).put .schemaVersion 1).put .migrationCursor 0).put
              .eventSeq 0).put .maxEvents cap := by
  simp [init, and_assoc]

theorem setRegistrationDeposit_ok {amount : Int} {token : Address} :
    setRegistrationDeposit env caller amount token world = .ok (result, after) ↔
      env.authorized caller = true ∧ world.storage .admin = some caller ∧ 0 ≤ amount ∧
        after = (world.put .registrationDepositAmount amount).put
          .registrationDepositToken token := by
  simp [setRegistrationDeposit, and_assoc]

theorem setRegistrationTreasury_ok {treasury : Address} :
    setRegistrationTreasury env caller treasury world = .ok (result, after) ↔
      env.authorized caller = true ∧ world.storage .admin = some caller ∧
        after = world.put .registrationTreasury treasury := by
  simp [setRegistrationTreasury, and_assoc]

theorem migrate_ok {source target batch : UInt32} :
    migrate env caller source target batch world = .ok (result, after) ↔
      env.authorized caller = true ∧ world.storage .admin = some caller ∧
        source = schemaVersion world ∧ source ≤ target ∧ batch ≠ 0 ∧
          after = (world.put .migrationCursor
            (saturatingAdd32 ((world.storage .migrationCursor).getD 0) batch)).put
              .schemaVersion target := by
  simp [migrate, and_assoc]

theorem transferAdmin_ok {newAdmin : Address} :
    transferAdmin env caller newAdmin world = .ok (result, after) ↔
      env.authorized caller = true ∧ world.storage .admin = some caller ∧
        after = (world.put .admin newAdmin).publish (.admXfer caller newAdmin) := by
  simp [transferAdmin, and_assoc]

theorem grantRole_ok {account : Address} {role : Role} :
    grantRole env caller account role world = .ok (result, after) ↔
      env.authorized caller = true ∧ world.storage .admin = some caller ∧
        after = (world.put (.role account) role).publish (.roleGrant account role) := by
  simp [grantRole, and_assoc]

theorem revokeRole_ok {account : Address} :
    revokeRole env caller account world = .ok (result, after) ↔
      env.authorized caller = true ∧ world.storage .admin = some caller ∧
        after = (world.erase (.role account)).publish (.roleRevoke account) := by
  simp [revokeRole, and_assoc]

theorem setMaxEvents_ok {newMax : UInt32} :
    setMaxEvents env caller newMax world = .ok (result, after) ↔
      env.authorized caller = true ∧ world.storage .admin = some caller ∧
        (MIN_MAX_EVENTS ≤ newMax ∧ (eventSeq world).toNat < (maxEvents world).toNat) ∧
          after = world.put .maxEvents newMax := by
  simp [setMaxEvents, and_assoc, checkResize_ok, Unique.exists_iff]

theorem setPaused_ok {paused : Bool} {topic : Published} :
    setPaused env caller paused topic world = .ok (result, after) ↔
      env.authorized caller = true ∧ world.storage .admin = some caller ∧
        after = (world.put .paused paused).publish topic := by
  simp [setPaused, and_assoc]

end Success

end SorobanExplorer.Contract
