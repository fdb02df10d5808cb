import SorobanExplorer.Contract.State
import SorobanExplorer.Library.Transaction
import Mathlib.Logic.Unique

/-!
Owns what the explorer sees of its host: authorization, the ledger number,
views on other contracts, token transfers, storage and published diagnostics.
A contract call is a computation over the `World` that may abort; the host
rolls an aborted call back (`Tx.settle`).

What other contracts answer is a parameter. The host rejects re-entry, so no
call to another contract changes the explorer's storage, and the explorer
never authorizes itself.
-/

namespace SorobanExplorer.Contract

open Library

abbrev Balances := (token holder : Address) → Int

/-- The deployment: the explorer's own address, host functions, and the token
contracts' `transfer`, which may fail. -/
structure Host where
  self : Address
  addressFromStringBytes : Bytes → Address
  sha256 : List UInt8 → BytesN 32
  transfer : (token sender recipient : Address) → (amount : Int) → Balances → Option Balances

/-- What one invocation sees. `tryInvoke` is the address that a zero-argument
view of another contract returns, if it returns one. -/
structure Env (host : Host) where
  ledgerSequence : UInt32
  authorized : Address → Bool
  self_unauthorized : authorized host.self = false
  tryInvoke : (target : Address) → (func : Symbol) → Option Address

structure World where
  storage : Storage
  balances : Balances
  events : List Published

/-- The explorer before `init`. -/
def World.deployed (balances : Balances) : World := ⟨Store.empty, balances, []⟩

namespace World

def put (world : World) (key : DataKey) (value : key.Value) : World :=
  { world with storage := world.storage.put key value }

def erase (world : World) (key : DataKey) : World :=
  { world with storage := world.storage.erase key }

def publish (world : World) (event : Published) : World :=
  { world with events := world.events ++ [event] }

variable (world : World)

@[simp] theorem put_storage (key : DataKey) (value : key.Value) :
    (world.put key value).storage = world.storage.put key value := rfl

@[simp] theorem put_balances (key : DataKey) (value : key.Value) :
    (world.put key value).balances = world.balances := rfl

@[simp] theorem put_events (key : DataKey) (value : key.Value) :
    (world.put key value).events = world.events := rfl

@[simp] theorem erase_storage (key : DataKey) :
    (world.erase key).storage = world.storage.erase key := rfl

@[simp] theorem erase_balances (key : DataKey) : (world.erase key).balances = world.balances := rfl

@[simp] theorem erase_events (key : DataKey) : (world.erase key).events = world.events := rfl

@[simp] theorem publish_storage (event : Published) :
    (world.publish event).storage = world.storage := rfl

@[simp] theorem publish_balances (event : Published) :
    (world.publish event).balances = world.balances := rfl

@[simp] theorem publish_events (event : Published) :
    (world.publish event).events = world.events ++ [event] := rfl

end World

/-! ### Host operations -/

/-- Why a call aborts: a contract error code, a failed `require_auth`, a failed
call to another contract, or a trap. -/
inductive Failure where
  | contractError (code : UInt32)
  | authorization
  | callFailed
  | trap
deriving DecidableEq

abbrev Call (α : Type) := Tx World Failure α

/-- `panic_with_error!`. -/
def panicWithError {α : Type} (error : Error) : Call α :=
  Tx.abort (.contractError error.code)

/-- `if !condition { panic_with_error!(..) }`. -/
def ensure (condition : Prop) [Decidable condition] (error : Error) : Call Unit :=
  Tx.require condition (.contractError error.code)

/-- `if let Err(e) = result { panic_with_error!(&env, e) }`. -/
def orPanic {α : Type} : Except Error α → Call α
  | .ok value => pure value
  | .error error => panicWithError error

/-- `.unwrap_or_else(|| panic_with_error!(&env, error))`. -/
def orPanicWith {α : Type} (error : Error) (value : Option α) : Call α :=
  Tx.orAbort (.contractError error.code) value

/-- `.unwrap()`. -/
def unwrap {α : Type} (value : Option α) : Call α := Tx.orAbort .trap value

abbrev get (key : DataKey) : Call (Option key.Value) := Tx.read fun world => world.storage key

abbrev set (key : DataKey) (value : key.Value) : Call Unit :=
  Tx.update fun world => world.put key value

abbrev remove (key : DataKey) : Call Unit := Tx.update fun world => world.erase key

abbrev publish (event : Published) : Call Unit := Tx.update fun world => world.publish event

/-- `extend_ttl` of a persistent key: the host traps on a missing entry. -/
def extendTtl (key : DataKey) : Call Unit := do
  let value ← get key
  Tx.require (value.isSome = true) .trap

section Operations

variable {host : Host} (env : Env host)

def requireAuth (address : Address) : Call Unit :=
  Tx.require (env.authorized address = true) .authorization

/-- `token::Client::new(&env, &token).transfer(&sender, &recipient, &amount)`. -/
def transfer (host : Host) (token sender recipient : Address) (amount : Int) : Call Unit :=
  fun world =>
    match host.transfer token sender recipient amount world.balances with
    | some balances => .ok ((), { world with balances })
    | none => .error .callFailed

end Operations

/-! ### When an operation succeeds -/

section Success

variable {α : Type} {world after : World}

@[simp] theorem panicWithError_ok {error : Error} {value : α} :
    panicWithError error world = .ok (value, after) ↔ False := by
  simp [panicWithError]

@[simp] theorem ensure_ok {condition : Prop} [Decidable condition] {error : Error} {value : Unit} :
    ensure condition error world = .ok (value, after) ↔ condition ∧ after = world := by
  by_cases holds : condition <;> simp [ensure, Tx.require, holds]

@[simp] theorem orPanic_ok {result : Except Error α} {value : α} :
    orPanic result world = .ok (value, after) ↔ result = .ok value ∧ after = world := by
  cases result with
  | error reason => simp [orPanic]
  | ok found =>
    simp only [orPanic, Tx.pure_eq_ok, Except.ok.injEq]
    rw [eq_comm]

@[simp] theorem orPanicWith_ok {error : Error} {option : Option α} {value : α} :
    orPanicWith error option world = .ok (value, after) ↔ option = some value ∧ after = world := by
  cases option with
  | none => simp [orPanicWith, Tx.orAbort]
  | some found =>
    simp only [orPanicWith, Tx.orAbort, Tx.pure_eq_ok, Option.some.injEq]
    rw [eq_comm]

@[simp] theorem unwrap_ok {option : Option α} {value : α} :
    unwrap option world = .ok (value, after) ↔ option = some value ∧ after = world := by
  cases option with
  | none => simp [unwrap, Tx.orAbort]
  | some found =>
    simp only [unwrap, Tx.orAbort, Tx.pure_eq_ok, Option.some.injEq]
    rw [eq_comm]

@[simp] theorem extendTtl_ok {key : DataKey} {result : Unit} :
    extendTtl key world = .ok (result, after) ↔
      (world.storage key).isSome = true ∧ after = world := by
  have outcome : extendTtl key world =
      if (world.storage key).isSome = true then .ok ((), world) else .error .trap := by
    have found : get key world = .ok (world.storage key, world) := rfl
    unfold extendTtl Tx.require
    rw [Tx.bind_ok found]
    split <;> rfl
  rw [outcome]
  split
  next present => simp [present, eq_comm]
  next absent => simp [absent]

@[simp] theorem requireAuth_ok {host : Host} {env : Env host} {address : Address} {result : Unit} :
    requireAuth env address world = .ok (result, after) ↔
      env.authorized address = true ∧ after = world := by
  by_cases authorized : env.authorized address = true <;>
    simp [requireAuth, Tx.require, authorized]

@[simp] theorem transfer_ok {host : Host} {token sender recipient : Address} {amount : Int}
    {result : Unit} :
    transfer host token sender recipient amount world = .ok (result, after) ↔
      ∃ balances, host.transfer token sender recipient amount world.balances = some balances ∧
        after = { world with balances } := by
  unfold transfer
  cases host.transfer token sender recipient amount world.balances <;> simp [eq_comm]

end Success

/-! ### When a sequence that starts with an operation succeeds -/

section Sequence

variable {α β : Type} {world after : World} {value : β}

@[simp] theorem read_bind_ok {view : World → α} {next : α → Call β} :
    (Tx.read view >>= next) world = .ok (value, after) ↔
      next (view world) world = .ok (value, after) := Iff.rfl

@[simp] theorem update_bind_ok {write : World → World} {next : PUnit → Call β} :
    (Tx.update write >>= next) world = .ok (value, after) ↔
      next ⟨⟩ (write world) = .ok (value, after) := Iff.rfl

@[simp] theorem ensure_bind_ok {condition : Prop} [Decidable condition] {error : Error}
    {next : Unit → Call β} :
    (ensure condition error >>= next) world = .ok (value, after) ↔
      condition ∧ next () world = .ok (value, after) := by
  simp [Tx.bind_eq_ok, and_assoc, Unique.exists_iff]

@[simp] theorem orPanic_bind_ok {result : Except Error α} {next : α → Call β} :
    (orPanic result >>= next) world = .ok (value, after) ↔
      ∃ found, result = .ok found ∧ next found world = .ok (value, after) := by
  simp [Tx.bind_eq_ok, and_assoc]

@[simp] theorem orPanicWith_bind_ok {error : Error} {option : Option α} {next : α → Call β} :
    (orPanicWith error option >>= next) world = .ok (value, after) ↔
      ∃ found, option = some found ∧ next found world = .ok (value, after) := by
  simp [Tx.bind_eq_ok, and_assoc]

@[simp] theorem unwrap_bind_ok {option : Option α} {next : α → Call β} :
    (unwrap option >>= next) world = .ok (value, after) ↔
      ∃ found, option = some found ∧ next found world = .ok (value, after) := by
  simp [Tx.bind_eq_ok, and_assoc]

@[simp] theorem extendTtl_bind_ok {key : DataKey} {next : Unit → Call β} :
    (extendTtl key >>= next) world = .ok (value, after) ↔
      (world.storage key).isSome = true ∧ next () world = .ok (value, after) := by
  simp [Tx.bind_eq_ok, and_assoc, Unique.exists_iff]

@[simp] theorem requireAuth_bind_ok {host : Host} {env : Env host} {address : Address}
    {next : Unit → Call β} :
    (requireAuth env address >>= next) world = .ok (value, after) ↔
      env.authorized address = true ∧ next () world = .ok (value, after) := by
  simp [Tx.bind_eq_ok, and_assoc, Unique.exists_iff]

end Sequence

end SorobanExplorer.Contract
