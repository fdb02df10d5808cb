import SorobanExplorer.Library.KeyedStore

/-!
Owns the data of the explorer contract: the host values it stores, its error
codes and limits, its storage keys with the type of value under each key, and
the diagnostics it publishes.

`instance()` and `persistent()` storage never share a key, so one store holds
both. Time to live is not modelled.
-/

namespace SorobanExplorer.Contract

open Library

/-! ### Host values -/

/-- A host vector: its length is a `u32`. -/
structure HostVec (α : Type) where
  items : List α
  length_lt : items.length < UInt32.size
deriving DecidableEq

namespace HostVec

variable {α : Type}

def empty : HostVec α := ⟨[], show 0 < UInt32.size by decide⟩

/-- `Vec::len`. -/
def len (vec : HostVec α) : UInt32 := UInt32.ofNatLT vec.items.length vec.length_lt

@[simp] theorem len_toNat (vec : HostVec α) : vec.len.toNat = vec.items.length := by
  simp [len]

end HostVec

/-- `Bytes`. -/
abbrev Bytes := HostVec UInt8

/-- `String`: its length counts bytes. -/
abbrev HostString := HostVec UInt8

/-- `BytesN<N>`. -/
abbrev BytesN (count : Nat) := Vector UInt8 count

abbrev ContractId := BytesN 32

/-- `a-z`, `A-Z`, `0-9` and `_`. -/
def isSymbolByte (byte : UInt8) : Bool :=
  (97 ≤ byte && byte ≤ 122) || (65 ≤ byte && byte ≤ 90) || (48 ≤ byte && byte ≤ 57) || byte == 95

/-- `Symbol`: at most 32 bytes of the symbol alphabet. -/
structure Symbol where
  bytes : List UInt8
  length_le : bytes.length ≤ 32
  alphabet : bytes.all isSymbolByte = true
deriving DecidableEq

/-- `Symbol::new(env, "")`. -/
def Symbol.empty : Symbol := ⟨[], by decide, rfl⟩

/-- `Address`: an account or a contract. -/
inductive Address where
  | account (key : BytesN 32)
  | contract (id : ContractId)
deriving DecidableEq

/-! ### Errors and limits -/

inductive Error where
  | notFound
  | unauthorized
  | alreadyExists
  | belowFloor
  | contractPaused
  | invalidInput
  | emptyBatch
  | alreadyClaimed
deriving DecidableEq

/-- The `#[repr(u32)]` code of an error. -/
def Error.code : Error → UInt32
  | .notFound => 1
  | .unauthorized => 2
  | .alreadyExists => 3
  | .belowFloor => 4
  | .contractPaused => 5
  | .invalidInput => 6
  | .emptyBatch => 7
  | .alreadyClaimed => 8

def MIN_MAX_EVENTS : UInt32 := 1000
def DEFAULT_MAX_EVENTS : UInt32 := 50000
def MAX_MAX_EVENTS : UInt32 := 1000000
def MAX_NAME_LEN : UInt32 := 64
def MAX_DESCRIPTION_LEN : UInt32 := 512
def MAX_FUNCTIONS : UInt32 := 50
def MAX_PARAMS_PER_FUNCTION : UInt32 := 20
def MAX_BATCH : UInt32 := 20
def BATCH_ITEM_ERROR_BASE : UInt32 := 1000

/-! ### Stored records -/

inductive Role where
  | moderator
deriving DecidableEq

structure ParamDef where
  name : Symbol
  kind : Symbol
deriving DecidableEq

structure FunctionAbi where
  name : Symbol
  description : HostString
  params : HostVec ParamDef
deriving DecidableEq

structure ContractMeta where
  version : UInt32
  abiVersion : UInt32
  minLedger : UInt32
  name : HostString
  description : HostString
  functions : HostVec FunctionAbi
  registeredBy : Address
deriving DecidableEq

/-- `amount` is an `i128`; the contract compares it with zero and passes it on. -/
structure DepositRecord where
  amount : Int
  token : Address
deriving DecidableEq

inductive VerifyMethod where
  | targetAdmin
  | targetOwner
  | deployer
deriving DecidableEq

structure Ownership where
  owner : Address
  method : VerifyMethod
  ledger : UInt32
deriving DecidableEq

structure DecodedEvent where
  seq : UInt64
  contractId : ContractId
  function : Symbol
  ledger : UInt32
  description : HostString
  rawTopics : HostVec HostString
  rawData : Bytes
deriving DecidableEq

structure EventInput where
  contractId : ContractId
  function : Symbol
  ledger : UInt32
  description : HostString
  rawTopics : HostVec HostString
  rawData : Bytes
deriving DecidableEq

/-! ### Storage keys -/

structure VersionKey where
  contractId : ContractId
  abiVersion : UInt32
deriving DecidableEq

inductive DataKey where
  | admin
  | role (account : Address)
  | contract (id : ContractId)
  | eventLog (slot : UInt64)
  | eventSeq
  | maxEvents
  | paused
  | contractVersion (key : VersionKey)
  | ownership (id : ContractId)
  | deployer (id : ContractId)
  | schemaVersion
  | migrationCursor
  | registrationDepositAmount
  | registrationDepositToken
  | registrationTreasury
  | contractDeposit (id : ContractId)
  | mmrLeafCount
  | mmrPeak (level : UInt32)
deriving DecidableEq

abbrev DataKey.Value : DataKey → Type
  | .admin => Address
  | .role _ => Role
  | .contract _ => ContractMeta
  | .eventLog _ => DecodedEvent
  | .eventSeq => UInt64
  | .maxEvents => UInt32
  | .paused => Bool
  | .contractVersion _ => ContractMeta
  | .ownership _ => Ownership
  | .deployer _ => Address
  | .schemaVersion => UInt32
  | .migrationCursor => UInt32
  | .registrationDepositAmount => Int
  | .registrationDepositToken => Address
  | .registrationTreasury => Address
  | .contractDeposit _ => DepositRecord
  | .mmrLeafCount => UInt64
  | .mmrPeak _ => BytesN 32

abbrev Storage := Store DataKey.Value

/-! ### Published diagnostics -/

/-- `env.events().publish`, one constructor per topic. -/
inductive Published where
  | admXfer (caller newAdmin : Address)
  | roleGrant (account : Address) (role : Role)
  | roleRevoke (account : Address)
  | paused
  | unpaused
  | cReg (id : ContractId) (registeredBy : Address) (version ledger : UInt32)
  | register (id : ContractId) (name : HostString)
  | cAbiu (id : ContractId) (oldAbiVersion newAbiVersion minLedger : UInt32)
  | cUpd (id : ContractId) (caller : Address) (oldVersion newVersion ledger : UInt32)
  | cDereg (id : ContractId) (caller : Address) (ledger : UInt32)
  | cClaim (id : ContractId) (claimant previous : Address) (method : VerifyMethod)
  | evSub (contractId : ContractId) (function : Symbol) (seq : UInt64) (ledger : UInt32)
  | capHit (evictedSeq seq : UInt64)
  | decoded (contractId : ContractId) (function : Symbol) (description : HostString)
  | evBatch (first : UInt64) (count : UInt32)
deriving DecidableEq

end SorobanExplorer.Contract
