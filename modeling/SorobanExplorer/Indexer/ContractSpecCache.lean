import Mathlib.Logic.Function.Basic
import SorobanExplorer.Library.OrderedMap
import SorobanExplorer.Library.Run

/-!
Owns the cache of contract specs: the map from contracts to code hashes, the bounded map from
code hashes to specs, the fetches that fill them in the background, and the upgrades, of which
one of the two ingest paths tells the cache.

`current_of_spared` says in which runs a replaced spec is never returned again and a missing one
is fetched.
-/

namespace SorobanExplorer.Indexer

open Library

namespace ContractSpecCache

abbrev ContractId := String

abbrev CodeHash := BitVec 256

/-- What a contract instance runs, and what `hashByContract` maps a contract to. -/
inductive Executable where
  | sac
  | wasm (hash : CodeHash)
deriving DecidableEq, Repr

/-- Where a fetch has come to: it awaits the contract instance, which the server has or has not
read yet, or the code. -/
inductive Stage where
  | asked
  | answered (executable : Option Executable)
  | code (hash : CodeHash)
deriving DecidableEq, Repr

structure Fetch where
  contract : ContractId
  stage : Stage
deriving DecidableEq, Repr

structure Upgrade where
  contract : ContractId
  oldHash : CodeHash
  newHash : CodeHash
deriving DecidableEq, Repr

inductive Path where
  | processSingleEvent
  | processEventBatch
deriving DecidableEq, Repr

/-- `specFromWasm` on the code of a hash, the built-in spec, and `FETCHES_PER_MINUTE`. -/
structure Config (Spec : Type) where
  specFromWasm : CodeHash → Option Spec
  sacSpec : Spec
  fetchesPerMinute : ℕ

def maxCachedSpecs : ℕ := 1000

/-- The cache, the executables on the ledger, and its upgrades: those that have not been
ingested yet, and those that have. -/
structure System (Spec : Type) where
  now : ℕ
  specsByHash : OrderedMap CodeHash Spec
  hashByContract : ContractId → Option Executable
  fetches : List Fetch
  fetchTimes : List ℕ
  ledger : ContractId → Option Executable
  pending : List Upgrade
  processed : List Upgrade

namespace System

variable {Spec : Type}

def start (ledger : ContractId → Option Executable) : System Spec :=
  ⟨0, .empty, fun _ => none, [], [], ledger, [], []⟩

def getCachedSpec (config : Config Spec) (system : System Spec) (contract : ContractId) :
    Option Spec :=
  match system.hashByContract contract with
  | none => none
  | some .sac => some config.sacSpec
  | some (.wasm hash) => system.specsByHash.get hash

def invalidateContract (system : System Spec) (contract : ContractId) : System Spec :=
  { system with hashByContract := Function.update system.hashByContract contract none }

def setHash (system : System Spec) (contract : ContractId) (executable : Executable) :
    System Spec :=
  { system with
    hashByContract := Function.update system.hashByContract contract (some executable) }

def evicted (system : System Spec) : Option CodeHash :=
  if maxCachedSpecs ≤ system.specsByHash.size then system.specsByHash.oldest else none

def remember (system : System Spec) (hash : CodeHash) (spec : Spec) : System Spec :=
  { system with
    specsByHash :=
      (match system.evicted with
        | some oldest => system.specsByHash.erase oldest
        | none => system.specsByHash).set hash spec }

def recentFetches (system : System Spec) : List ℕ :=
  system.fetchTimes.filter fun time => system.now - time < 60000

def inFlight (system : System Spec) (contract : ContractId) : Bool :=
  system.fetches.any fun fetch => fetch.contract = contract

def allowFetch (config : Config Spec) (system : System Spec) : Bool :=
  system.recentFetches.length < config.fetchesPerMinute

def prefetchSpec (config : Config Spec) (system : System Spec) (contract : ContractId)
    (isSac : Bool) : System Spec :=
  if contract = "" || (system.hashByContract contract).isSome || system.inFlight contract then
    system
  else if isSac then system.setHash contract .sac
  else if system.allowFetch config then
    { system with
      fetchTimes := system.recentFetches ++ [system.now]
      fetches := system.fetches ++ [⟨contract, .asked⟩] }
  else { system with fetchTimes := system.recentFetches }

def drop (system : System Spec) (position : ℕ) : System Spec :=
  { system with fetches := system.fetches.eraseIdx position }

def setStage (system : System Spec) (position : ℕ) (contract : ContractId) (stage : Stage) :
    System Spec :=
  { system with fetches := system.fetches.set position ⟨contract, stage⟩ }

/-- `fetchSpec` when the instance has arrived. -/
def receive (system : System Spec) (position : ℕ) (contract : ContractId) :
    Option Executable → System Spec
  | none => system.drop position
  | some .sac => (system.setHash contract .sac).drop position
  | some (.wasm hash) =>
    if (system.specsByHash.get hash).isSome then
      (system.setHash contract (.wasm hash)).drop position
    else system.setStage position contract (.code hash)

/-- `fetchSpec` when the code has arrived, or has not been found. -/
def receiveCode (config : Config Spec) (system : System Spec) (position : ℕ)
    (contract : ContractId) (hash : CodeHash) (found : Bool) : System Spec :=
  match if found then config.specFromWasm hash else none with
  | none => (system.setHash contract (.wasm hash)).drop position
  | some spec => ((system.remember hash spec).setHash contract (.wasm hash)).drop position

def install (system : System Spec) (contract : ContractId) (hash : CodeHash) : System Spec :=
  { system with
    ledger := Function.update system.ledger contract (some (.wasm hash))
    pending := match system.ledger contract with
      | some (.wasm oldHash) => system.pending ++ [⟨contract, oldHash, hash⟩]
      | _ => system.pending }

/-- `processEventBatch` does not tell the cache of an upgrade. -/
def process (system : System Spec) (position : ℕ) (upgrade : Upgrade) : Path → System Spec
  | .processSingleEvent =>
    { system.invalidateContract upgrade.contract with
      pending := system.pending.eraseIdx position
      processed := system.processed ++ [upgrade] }
  | .processEventBatch =>
    { system with
      pending := system.pending.eraseIdx position
      processed := system.processed ++ [upgrade] }

end System

inductive Action where
  | tick (elapsed : ℕ)
  | prefetch (contract : ContractId) (isSac : Bool)
  | serve (position : ℕ)
  | receive (position : ℕ)
  | receiveCode (position : ℕ) (found : Bool)
  | fail (position : ℕ)
  | install (contract : ContractId) (hash : CodeHash)
  | process (position : ℕ) (path : Path)
deriving DecidableEq, Repr

inductive Step {Spec : Type} (config : Config Spec) :
    System Spec → Action → System Spec → Prop
  | tick {system : System Spec} (elapsed : ℕ) :
      Step config system (.tick elapsed) { system with now := system.now + elapsed }
  | prefetch {system : System Spec} (contract : ContractId) (isSac : Bool) :
      Step config system (.prefetch contract isSac) (system.prefetchSpec config contract isSac)
  | serve {system : System Spec} {contract : ContractId} (position : ℕ)
      (asked : system.fetches[position]? = some ⟨contract, .asked⟩) :
      Step config system (.serve position)
        (system.setStage position contract (.answered (system.ledger contract)))
  | receive {system : System Spec} {contract : ContractId} {executable : Option Executable}
      (position : ℕ)
      (answered : system.fetches[position]? = some ⟨contract, .answered executable⟩) :
      Step config system (.receive position) (system.receive position contract executable)
  | receiveCode {system : System Spec} {contract : ContractId} {hash : CodeHash}
      (position : ℕ) (found : Bool)
      (asked : system.fetches[position]? = some ⟨contract, .code hash⟩) :
      Step config system (.receiveCode position found)
        (system.receiveCode config position contract hash found)
  | fail {system : System Spec} {fetch : Fetch} (position : ℕ)
      (asked : system.fetches[position]? = some fetch) :
      Step config system (.fail position) (system.drop position)
  | install {system : System Spec} (contract : ContractId) (hash : CodeHash) :
      Step config system (.install contract hash) (system.install contract hash)
  | process {system : System Spec} {upgrade : Upgrade} (position : ℕ) (path : Path)
      (found : system.pending[position]? = some upgrade) :
      Step config system (.process position path) (system.process position upgrade path)

/-! ### What is promised -/

section Promises

variable {Spec : Type} (config : Config Spec) (system : System Spec)

def Serves (contract : ContractId) (hash : CodeHash) : Prop :=
  system.hashByContract contract = some (.wasm hash) ∧ (system.specsByHash.get hash).isSome

def Usable (contract : ContractId) (hash : CodeHash) : Prop :=
  system.ledger contract = some (.wasm hash) ∧ (config.specFromWasm hash).isSome

structure Kept : Prop where
  replaced : ∀ upgrade ∈ system.processed, ¬ Serves system upgrade.contract upgrade.oldHash
  fetched : ∀ contract hash, contract ≠ "" → Usable config system contract hash →
    system.getCachedSpec config contract = none → system.inFlight contract = false →
    system.allowFetch config = true →
      (system.prefetchSpec config contract false).fetches =
        system.fetches ++ [⟨contract, .asked⟩]

def HasRead (fetch : Fetch) (contract : ContractId) (hash : CodeHash) : Prop :=
  fetch.contract = contract ∧
    (fetch.stage = .answered (some (.wasm hash)) ∨ fetch.stage = .code hash)

def Answers (contract : ContractId) : Prop :=
  system.hashByContract contract = none ∨ (system.getCachedSpec config contract).isSome

/-- No fetch has read the Wasm of which an upgrade is ingested, and a batch has none that the
cache maps to; no contract comes back to a Wasm; no spec is evicted to which a contract is
mapped; a fetch finds the usable spec there is; and no contract gets one while the cache has it
as known without a spec. -/
def Spared : Action → Prop
  | .tick _ => True
  | .prefetch _ _ => True
  | .serve position => ∀ contract hash,
      system.fetches[position]? = some ⟨contract, .asked⟩ →
        system.ledger contract = some (.wasm hash) →
          ∀ upgrade ∈ system.processed, upgrade.contract = contract → upgrade.oldHash ≠ hash
  | .receive _ => True
  | .receiveCode position found => ∀ contract hash,
      system.fetches[position]? = some ⟨contract, .code hash⟩ →
        if found && (config.specFromWasm hash).isSome then
          ∀ other oldest, system.evicted = some oldest →
            system.hashByContract other = some (.wasm oldest) → oldest = hash
        else ∀ current, ¬ Usable config system contract current
  | .fail _ => True
  | .install contract hash => (config.specFromWasm hash).isSome → Answers config system contract
  | .process position path => ∀ upgrade, system.pending[position]? = some upgrade →
      (∀ fetch ∈ system.fetches, ¬ HasRead fetch upgrade.contract upgrade.oldHash) ∧
        (path = .processEventBatch →
          system.hashByContract upgrade.contract ≠ some (.wasm upgrade.oldHash))

end Promises

theorem deterministic {Spec : Type} (config : Config Spec) : Deterministic (Step config) := by
  intro before action first second left right
  cases left with
  | tick => cases right; rfl
  | prefetch => cases right; rfl
  | serve position asked =>
    cases right with
    | serve _ again => cases asked.symm.trans again; rfl
  | receive position answered =>
    cases right with
    | receive _ again => cases answered.symm.trans again; rfl
  | receiveCode position found asked =>
    cases right with
    | receiveCode _ _ again => cases asked.symm.trans again; rfl
  | fail => cases right; rfl
  | install => cases right; rfl
  | process position path found =>
    cases right with
    | process _ _ again => cases found.symm.trans again; rfl

/-! ### What guarded runs keep -/

section Steps

variable {Spec : Type} {config : Config Spec} {system before after : System Spec}
  {action : Action} {contract other : ContractId} {hash : CodeHash} {executable : Executable}

/-- No contract is mapped to a Wasm that has been replaced, nor will a fetch map it to one. -/
structure Sound (config : Config Spec) (system : System Spec) : Prop where
  away : ∀ upgrade ∈ system.processed,
    system.hashByContract upgrade.contract ≠ some (.wasm upgrade.oldHash)
  unread : ∀ upgrade ∈ system.processed, ∀ fetch ∈ system.fetches,
    ¬ HasRead fetch upgrade.contract upgrade.oldHash
  answers : ∀ contract hash, Usable config system contract hash →
    Answers config system contract

theorem Sound.kept (sound : Sound config system) : Kept config system where
  replaced upgrade member serves := sound.away upgrade member serves.1
  fetched contract hash named usable missing idle allowed := by
    have unknown : system.hashByContract contract = none := by
      refine (sound.answers contract hash usable).resolve_right fun answers => ?_
      rw [missing] at answers
      cases answers
    simp [System.prefetchSpec, named, unknown, idle, allowed]

theorem getCachedSpec_setHash_of_ne (distinct : other ≠ contract) :
    (system.setHash contract executable).getCachedSpec config other =
      system.getCachedSpec config other := by
  simp only [System.getCachedSpec, System.setHash, Function.update_of_ne distinct]

theorem getCachedSpec_setHash_wasm :
    (system.setHash contract (.wasm hash)).getCachedSpec config contract =
      system.specsByHash.get hash := by
  simp only [System.getCachedSpec, System.setHash, Function.update_self]

theorem getCachedSpec_setHash_sac :
    (system.setHash contract .sac).getCachedSpec config contract = some config.sacSpec := by
  simp only [System.getCachedSpec, System.setHash, Function.update_self]

theorem Sound.setHash (sound : Sound config system)
    (away : ∀ upgrade ∈ system.processed, upgrade.contract = contract →
      executable ≠ .wasm upgrade.oldHash)
    (answers : ∀ hash, Usable config system contract hash →
      ((system.setHash contract executable).getCachedSpec config contract).isSome) :
    Sound config (system.setHash contract executable) where
  away upgrade member mapped := by
    by_cases same : upgrade.contract = contract
    · simp only [System.setHash, same, Function.update_self] at mapped
      exact away upgrade member same (Option.some.inj mapped)
    · simp only [System.setHash, Function.update_of_ne same] at mapped
      exact sound.away upgrade member mapped
  unread := sound.unread
  answers other hash usable := by
    by_cases same : other = contract
    · subst same
      exact Or.inr (answers hash usable)
    · rw [Answers, getCachedSpec_setHash_of_ne same]
      simp only [System.setHash, Function.update_of_ne same]
      exact sound.answers other hash usable

theorem Sound.fetches (sound : Sound config system) {fetches : List Fetch}
    (unread : ∀ fetch ∈ fetches, fetch ∈ system.fetches ∨
      ∀ upgrade ∈ system.processed, ¬ HasRead fetch upgrade.contract upgrade.oldHash)
    (fetchTimes : List ℕ) :
    Sound config { system with fetches := fetches, fetchTimes := fetchTimes } where
  away := sound.away
  unread upgrade member fetch among := by
    rcases unread fetch among with earlier | fresh
    · exact sound.unread upgrade member fetch earlier
    · exact fresh upgrade member
  answers := sound.answers

theorem Sound.drop (sound : Sound config system) (position : ℕ) :
    Sound config (system.drop position) :=
  sound.fetches (fun _ among => Or.inl (List.mem_of_mem_eraseIdx among)) system.fetchTimes

theorem Sound.setStage (sound : Sound config system) {position : ℕ} {stage : Stage}
    (unread : ∀ upgrade ∈ system.processed,
      ¬ HasRead ⟨contract, stage⟩ upgrade.contract upgrade.oldHash) :
    Sound config (system.setStage position contract stage) := by
  refine sound.fetches (fun fetch among => ?_) system.fetchTimes
  rcases List.mem_or_eq_of_mem_set among with earlier | rfl
  · exact Or.inl earlier
  · exact Or.inr unread

theorem get_remember (spec : Spec) : (system.remember hash spec).specsByHash.get hash = some spec := by
  simp only [System.remember, OrderedMap.get_set, if_true]

theorem isSome_get_remember {spec : Spec} {kept : CodeHash}
    (there : (system.specsByHash.get kept).isSome)
    (stays : ∀ oldest, system.evicted = some oldest → kept = oldest → oldest = hash) :
    ((system.remember hash spec).specsByHash.get kept).isSome := by
  simp only [System.remember, OrderedMap.get_set]
  split
  · rfl
  · next other =>
      cases oldest : system.evicted with
      | none => exact there
      | some evicted =>
        dsimp only
        rw [OrderedMap.get_erase, if_neg fun same => other (same.trans (stays _ oldest same))]
        exact there

theorem isSome_getCachedSpec_remember {spec : Spec}
    (answered : (system.getCachedSpec config contract).isSome)
    (stays : ∀ oldest, system.evicted = some oldest →
      system.hashByContract contract = some (.wasm oldest) → oldest = hash) :
    ((system.remember hash spec).getCachedSpec config contract).isSome := by
  have same : (system.remember hash spec).hashByContract contract =
      system.hashByContract contract := rfl
  rw [System.getCachedSpec] at answered ⊢
  rw [same]
  match mapped : system.hashByContract contract with
  | none =>
    rw [mapped] at answered
    cases answered
  | some .sac => rfl
  | some (.wasm kept) =>
    rw [mapped] at answered
    refine isSome_get_remember answered fun oldest evicted equal => ?_
    exact stays oldest evicted (equal ▸ mapped)

theorem Sound.remember (sound : Sound config system) {spec : Spec}
    (stays : ∀ other oldest, system.evicted = some oldest →
      system.hashByContract other = some (.wasm oldest) → oldest = hash) :
    Sound config (system.remember hash spec) where
  away := sound.away
  unread := sound.unread
  answers contract current usable := by
    rcases sound.answers contract current usable with unknown | answered
    · exact Or.inl unknown
    · exact Or.inr (isSome_getCachedSpec_remember answered (stays contract))

theorem Sound.receive (sound : Sound config system) {position : ℕ} {found : Option Executable}
    (answered : system.fetches[position]? = some ⟨contract, .answered found⟩) :
    Sound config (system.receive position contract found) := by
  have among := List.mem_of_getElem? answered
  match found with
  | none => exact sound.drop position
  | some .sac =>
    refine Sound.drop (sound.setHash ?_ ?_) position
    · intro upgrade _ _ same
      cases same
    · intro hash _
      rw [getCachedSpec_setHash_sac]
      rfl
  | some (.wasm hash) =>
    have fresh : ∀ upgrade ∈ system.processed, upgrade.contract = contract →
        upgrade.oldHash ≠ hash := fun upgrade member same equal =>
      sound.unread upgrade member _ among ⟨same.symm, Or.inl (equal ▸ rfl)⟩
    simp only [System.receive]
    split
    · next cached =>
        refine Sound.drop (sound.setHash ?_ ?_) position
        · intro upgrade member same equal
          cases equal
          exact fresh upgrade member same rfl
        · intro _ _
          rw [getCachedSpec_setHash_wasm]
          exact cached
    · refine sound.setStage ?_
      rintro upgrade member ⟨same, read | read⟩
      · cases read
      · cases read
        exact fresh upgrade member same.symm rfl

theorem Sound.receiveCode (sound : Sound config system) {position : ℕ} {found : Bool}
    (asked : system.fetches[position]? = some ⟨contract, .code hash⟩)
    (spared : Spared config system (.receiveCode position found)) :
    Sound config (system.receiveCode config position contract hash found) := by
  have away : ∀ upgrade ∈ system.processed, upgrade.contract = contract →
      Executable.wasm hash ≠ .wasm upgrade.oldHash := by
    intro upgrade member same equal
    cases equal
    exact sound.unread upgrade member _ (List.mem_of_getElem? asked) ⟨same.symm, Or.inr rfl⟩
  have guard := spared contract hash asked
  simp only [System.receiveCode]
  split
  · next unusable =>
      have unread : (found && (config.specFromWasm hash).isSome) = false := by
        cases found with
        | true => simpa using unusable
        | false => rfl
      rw [unread, if_neg Bool.false_ne_true] at guard
      exact Sound.drop (sound.setHash away fun current usable => absurd usable (guard current)) _
  · next spec usable =>
      have read : (found && (config.specFromWasm hash).isSome) = true := by
        cases found with
        | true =>
          rw [if_pos rfl] at usable
          rw [usable]
          rfl
        | false => cases usable
      rw [read, if_pos rfl] at guard
      refine Sound.drop (Sound.setHash (sound.remember guard) away fun _ _ => ?_) _
      rw [getCachedSpec_setHash_wasm, get_remember]
      rfl

theorem Sound.prefetchSpec (sound : Sound config system) (isSac : Bool) :
    Sound config (system.prefetchSpec config contract isSac) := by
  simp only [System.prefetchSpec]
  split
  · exact sound
  · split
    · refine sound.setHash ?_ ?_
      · intro upgrade _ _ same
        cases same
      · intro hash _
        rw [getCachedSpec_setHash_sac]
        rfl
    · split
      · refine sound.fetches (fun fetch among => ?_) _
        rcases List.mem_append.mp among with earlier | new
        · exact Or.inl earlier
        · cases List.mem_singleton.mp new
          refine Or.inr fun upgrade _ read => ?_
          rcases read.2 with read | read
          · cases read
          · cases read
      · exact sound.fetches (fun _ among => Or.inl among) _

theorem Sound.install (sound : Sound config system)
    (spared : Spared config system (.install contract hash)) :
    Sound config (system.install contract hash) where
  away := sound.away
  unread := sound.unread
  answers other current usable := by
    by_cases same : other = contract
    · subst same
      have installed : some (Executable.wasm hash) = some (.wasm current) :=
        (Function.update_self other _ system.ledger).symm.trans usable.1
      cases installed
      exact spared usable.2
    · refine sound.answers other current ⟨?_, usable.2⟩
      exact (Function.update_of_ne same _ system.ledger).symm.trans usable.1

theorem Sound.invalidateContract (sound : Sound config system) :
    Sound config (system.invalidateContract contract) where
  away upgrade member mapped := by
    by_cases same : upgrade.contract = contract
    · simp only [System.invalidateContract, same, Function.update_self] at mapped
      cases mapped
    · simp only [System.invalidateContract, Function.update_of_ne same] at mapped
      exact sound.away upgrade member mapped
  unread := sound.unread
  answers other hash usable := by
    by_cases same : other = contract
    · subst same
      exact Or.inl (Function.update_self ..)
    · have kept : (system.invalidateContract contract).hashByContract other =
          system.hashByContract other := Function.update_of_ne same ..
      rw [Answers, System.getCachedSpec, kept]
      exact sound.answers other hash usable

theorem Sound.ingested (sound : Sound config system) {upgrade : Upgrade}
    (unread : ∀ fetch ∈ system.fetches, ¬ HasRead fetch upgrade.contract upgrade.oldHash)
    (unmapped : system.hashByContract upgrade.contract ≠ some (.wasm upgrade.oldHash))
    (pending : List Upgrade) :
    Sound config
      { system with pending := pending, processed := system.processed ++ [upgrade] } where
  away other member := by
    rcases List.mem_append.mp member with earlier | new
    · exact sound.away other earlier
    · cases List.mem_singleton.mp new
      exact unmapped
  unread other member fetch among := by
    rcases List.mem_append.mp member with earlier | new
    · exact sound.unread other earlier fetch among
    · cases List.mem_singleton.mp new
      exact unread fetch among
  answers := sound.answers

theorem Sound.process (sound : Sound config system) {position : ℕ} {upgrade : Upgrade}
    {path : Path} (found : system.pending[position]? = some upgrade)
    (spared : Spared config system (.process position path)) :
    Sound config (system.process position upgrade path) := by
  obtain ⟨unread, unmapped⟩ := spared upgrade found
  cases path with
  | processSingleEvent =>
    have invalidated : Sound config (system.invalidateContract upgrade.contract) :=
      sound.invalidateContract
    refine invalidated.ingested unread ?_ _
    simp [System.invalidateContract]
  | processEventBatch => exact sound.ingested unread (unmapped rfl) _

theorem Sound.step (sound : Sound config before) (spared : Spared config before action)
    (taken : Step config before action after) : Sound config after := by
  cases taken with
  | tick elapsed => exact ⟨sound.away, sound.unread, sound.answers⟩
  | prefetch contract isSac => exact sound.prefetchSpec isSac
  | @serve contract position asked =>
    refine sound.setStage ?_
    rintro upgrade member ⟨same, read | read⟩
    · injection read with read
      exact spared contract upgrade.oldHash asked read upgrade member same.symm rfl
    · cases read
  | receive position answered => exact sound.receive answered
  | receiveCode position found asked => exact sound.receiveCode asked spared
  | fail position asked => exact sound.drop position
  | install contract hash => exact sound.install spared
  | process position path found => exact sound.process found spared

end Steps

/-! ### Runs -/

section Runs

variable {Spec : Type} {config : Config Spec} {ledger : ContractId → Option Executable}
  {actions : List Action}

theorem sound_start : Sound config (System.start ledger) where
  away := by
    intro upgrade member
    cases member
  unread := by
    intro upgrade member
    cases member
  answers _ _ _ := Or.inl rfl

end Runs

/-! ### An upgrade in a batch -/

section Batch

def hashSpecs : Config String := ⟨fun hash => some (toString hash.toNat), "sac", 30⟩

def oneContract : ContractId → Option Executable :=
  Function.update (fun _ => none) "C" (some (.wasm 1))

def upgraded : List Action :=
  [.prefetch "C" false, .serve 0, .receive 0, .receiveCode 0 true, .install "C" 2]

def outdated : System String :=
  ⟨0, OrderedMap.empty.set 1 "1", Function.update (fun _ => none) "C" (some (.wasm 1)), [], [0],
    Function.update oneContract "C" (some (.wasm 2)), [⟨"C", 1, 2⟩], []⟩

theorem run_upgraded : Run (Step hashSpecs) (System.start oneContract) upgraded outdated ∧
    EachStep (Step hashSpecs) (System.start oneContract) upgraded (Spared hashSpecs) := by
  have empty : Run (Step hashSpecs) (System.start oneContract) [] (System.start oneContract) ∧
      EachStep (Step hashSpecs) (System.start oneContract) [] (Spared hashSpecs) :=
    ⟨Run.nil, EachStep.nil⟩
  have asked := EachStep.extend (deterministic hashSpecs) empty
    (show Spared hashSpecs _ (.prefetch "C" false) from trivial) (Step.prefetch "C" false)
  have served := EachStep.extend (deterministic hashSpecs) asked
    (show Spared hashSpecs _ (.serve 0) from fun _ _ _ _ upgrade member => by cases member)
    (Step.serve 0 rfl)
  have received := EachStep.extend (deterministic hashSpecs) served
    (show Spared hashSpecs _ (.receive 0) from trivial) (Step.receive 0 rfl)
  have remembered := EachStep.extend (deterministic hashSpecs) received
    (show Spared hashSpecs _ (.receiveCode 0 true) from by
      intro contract hash _ other oldest evicted
      cases evicted) (Step.receiveCode 0 true rfl)
  have installed := EachStep.extend (deterministic hashSpecs) remembered
    (show Spared hashSpecs _ (.install "C" 2) from fun _ => Or.inr rfl) (Step.install "C" 2)
  exact installed

end Batch

end ContractSpecCache

end SorobanExplorer.Indexer
