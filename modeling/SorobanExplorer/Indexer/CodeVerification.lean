import Mathlib.Logic.Function.Basic
import SorobanExplorer.Indexer.UpgradeDetector
import SorobanExplorer.Library.Run
import SorobanExplorer.Library.Slots

/-!
Owns the source verification of contracts: verification jobs of any number of instances,
from request to badge, interleaved with the events that record upgrades. Reads and builds
are steps with any outcome, and so are the statements between them.

`known` is what an observer knows who sees every processed transaction and every read of a
code hash. The code does not have it.
-/

namespace SorobanExplorer.Indexer

open Library UpgradeDetector

namespace CodeVerification

inductive Status where
  | pending
  | building
  | completed
  | failed
deriving DecidableEq, Repr

structure SourceRequest where
  contractId : ContractId
  sourceRepo : String
  sourceCommit : String
deriving DecidableEq, Repr

/-- A row of `contract_code_verifications`. -/
structure Verification extends SourceRequest where
  status : Status := .pending
  reason : Option String := none
  onchainHash : Option CodeHash := none
  builtHash : Option CodeHash := none
  reproducible : Option Bool := none
  sourceRetrievable : Bool := true
deriving DecidableEq, Repr

def SourceRequest.inserted (request : SourceRequest) : Verification :=
  { toSourceRequest := request }

/-- A row of `contract_code_state`. -/
structure CodeState where
  wasmHash : CodeHash
  ledger : Option ℕ
deriving DecidableEq, Repr

inductive Badge where
  | unverified
  | pending
  | failed (reason : String)
  | mismatch (expected actual : CodeHash) (upgraded : Bool)
  | verifiedReproducible (sourceRetrievable : Bool)
  | verifiedHashMatch (sourceRetrievable : Bool)
deriving DecidableEq, Repr

def Badge.isVerified : Badge → Bool
  | .verifiedReproducible _ | .verifiedHashMatch _ => true
  | _ => false

def computeBadge (record : Option Verification) (onchainHash : Option CodeHash) : Badge :=
  match record with
  | none => .unverified
  | some record =>
    match record.status with
    | .pending | .building => .pending
    | .failed => .failed (record.reason.getD "verification failed")
    | .completed =>
      match record.builtHash, onchainHash.or record.onchainHash with
      | some built, some actual =>
        if built ≠ actual then .mismatch built actual (record.onchainHash ≠ some actual)
        else if record.reproducible = some true then
          .verifiedReproducible record.sourceRetrievable
        else .verifiedHashMatch record.sourceRetrievable
      | _, _ => .unverified

/-- What `docker run` threw, as far as it matters: whether the source is gone. -/
abbrev BuildError := Bool

inductive Phase where
  | fetching
  | building (before : CodeHash)
  | refetching (before : CodeHash) (first second : Option CodeHash)
  | failing (reason : String) (onchainHash : Option CodeHash) (sourceRetrievable : Option Bool)
  | flagging
  | requeueing
  | completing (before first : CodeHash) (reproducible : Bool)
  | recording (before : CodeHash)
deriving DecidableEq, Repr

/-- A run of `processNextVerification`: the place of its row, the row as the claim returned
it, and where the run is. -/
structure Job where
  row : ℕ
  taken : Verification
  phase : Phase
deriving DecidableEq, Repr

def Job.contractId (job : Job) : ContractId := job.taken.contractId

structure Verifier where
  /-- In the order of their creation. -/
  verifications : List Verification
  codeState : ContractId → Option CodeState
  jobs : ℕ → Option Job
  /-- Requests that have found no open job of their contract. -/
  requests : ℕ → Option SourceRequest
  /-- The newest hash that was seen of a contract. -/
  known : ContractId → Option CodeHash

def Verifier.start : Verifier := ⟨[], fun _ => none, fun _ => none, fun _ => none, fun _ => none⟩

/-- The `status IN ('pending', 'building')` of a row. -/
def Verification.isOpen (row : Verification) : Bool :=
  row.status = .pending || row.status = .building

namespace Verifier

variable (state : Verifier)

def recordedHash (contract : ContractId) : Option CodeHash :=
  (state.codeState contract).map CodeState.wasmHash

/-- `ORDER BY created_at DESC LIMIT 1` -/
def latest (contract : ContractId) : Option Verification :=
  (state.verifications.filter fun row => row.contractId = contract).getLast?

def getCodeVerification (contract : ContractId) : Badge :=
  computeBadge (state.latest contract) (state.recordedHash contract)

def setJob (name : ℕ) (job : Option Job) : Verifier :=
  { state with jobs := Function.update state.jobs name job }

def setRequest (name : ℕ) (request : Option SourceRequest) : Verifier :=
  { state with requests := Function.update state.requests name request }

def updateRow (row : ℕ) (change : Verification → Verification) : Verifier :=
  { state with verifications := state.verifications.modify row change }

def recordOnChainHash (contract : ContractId) (wasmHash : CodeHash) (ledger : Option ℕ) :
    Verifier :=
  { state with
    codeState := Function.update state.codeState contract
      (some ⟨wasmHash, ledger.or ((state.codeState contract).bind CodeState.ledger)⟩) }

def see (contract : ContractId) (result : Option CodeHash) : Verifier :=
  { state with known := Function.update state.known contract (result.or (state.known contract)) }

end Verifier

def couldNotFetch : Phase := .failing "could not fetch on-chain code hash" none none

def buildFailed (before : CodeHash) (gone : BuildError) : Phase :=
  .failing (if gone then "source no longer retrievable" else "build failed") (some before)
    (some !gone)

def Job.fetched (job : Job) : Option CodeHash → Job
  | none => { job with phase := couldNotFetch }
  | some before => { job with phase := .building before }

def Job.built (job : Job) (before : CodeHash) :
    Except BuildError (Option CodeHash × Option CodeHash) → Job
  | .error gone => { job with phase := buildFailed before gone }
  | .ok (first, second) => { job with phase := .refetching before first second }

def Job.refetched (job : Job) (before : CodeHash) (first second after : Option CodeHash) : Job :=
  if after.any (· ≠ before) then { job with phase := .requeueing }
  else
    match first with
    | none => { job with phase := .failing "build produced no WASM" (some before) none }
    | some built => { job with phase := .completing before built (second = some built) }

def Verification.flagged (sourceRepo sourceCommit : String) (row : Verification) : Verification :=
  if row.sourceRepo = sourceRepo ∧ row.sourceCommit = sourceCommit then
    { row with sourceRetrievable := false }
  else row

def Verifier.statement (state : Verifier) (name : ℕ) (job : Job) : Verifier :=
  match job.phase with
  | .fetching | .building _ | .refetching .. => state
  | .failing reason onchainHash sourceRetrievable =>
    (state.updateRow job.row fun row =>
      { row with
        status := .failed, reason := some reason
        onchainHash := onchainHash.or row.onchainHash
        sourceRetrievable := sourceRetrievable.getD row.sourceRetrievable }).setJob name
      (if sourceRetrievable = some false then some { job with phase := .flagging } else none)
  | .flagging =>
    { state with
      verifications := state.verifications.map
        (Verification.flagged job.taken.sourceRepo job.taken.sourceCommit) }.setJob name none
  | .requeueing =>
    (state.updateRow job.row fun row =>
      { row with
        status := .pending, reason := some "stale: contract upgraded during build" }).setJob
      name none
  | .completing before first reproducible =>
    (state.updateRow job.row fun row =>
      { row with
        status := .completed
        reason := if reproducible then none
          else some "non-reproducible build: two builds produced different hashes"
        onchainHash := some before, builtHash := some first
        reproducible := some reproducible }).setJob name
      (some { job with phase := .recording before })
  | .recording before =>
    (state.recordOnChainHash job.contractId before none).setJob name none

structure Event where
  contractId : ContractId
  ledger : ℕ
  changes : List LedgerChange
deriving DecidableEq, Repr

/-- The upgrade step of `processSingleEvent`. `written` says whether the statement, whose
failure is ignored, succeeds. -/
def Verifier.processEvent (state : Verifier) (event : Event) (written : Bool) : Verifier :=
  match detectUpgrade event.changes with
  | none => state
  | some upgrade =>
    if written then
      state.recordOnChainHash event.contractId upgrade.newHash (some event.ledger)
    else state

def Verifier.seeEvent (state : Verifier) (event : Event) : Verifier :=
  { state with known := fun contract =>
      ((upgradeOf event.changes contract).map Upgrade.newHash).or (state.known contract) }

inductive Action where
  | checkRequest (name : ℕ) (request : SourceRequest)
  | insertRequest (name : ℕ)
  | claim (name row : ℕ)
  | fetched (name : ℕ) (result : Option CodeHash)
  | built (name : ℕ) (result : Except BuildError (Option CodeHash × Option CodeHash))
  | refetched (name : ℕ) (result : Option CodeHash)
  | statement (name : ℕ)
  | crash (name : ℕ)
  | event (event : Event) (written : Bool)

inductive Step : Verifier → Action → Verifier → Prop
  | checkRequest {state : Verifier} (name : ℕ) (request : SourceRequest)
      (closed : ∀ row ∈ state.verifications, row.contractId = request.contractId →
        row.isOpen = false) :
      Step state (.checkRequest name request) (state.setRequest name (some request))
  | insertRequest {state : Verifier} {request : SourceRequest} (name : ℕ)
      (checked : state.requests name = some request) :
      Step state (.insertRequest name)
        ({ state with
          verifications := state.verifications ++ [request.inserted] }.setRequest name none)
  /-- The oldest pending row that no other transaction has locked, which may be any. -/
  | claim {state : Verifier} {taken : Verification} (name row : ℕ)
      (fresh : state.jobs name = none) (there : state.verifications[row]? = some taken)
      (pending : taken.status = .pending) :
      Step state (.claim name row)
        ((state.updateRow row fun row => { row with status := .building }).setJob name
          (some ⟨row, { taken with status := .building }, .fetching⟩))
  | fetched {state : Verifier} {job : Job} (name : ℕ) (result : Option CodeHash)
      (current : state.jobs name = some job) (phase : job.phase = .fetching) :
      Step state (.fetched name result)
        ((state.see job.contractId result).setJob name (some (job.fetched result)))
  | built {state : Verifier} {job : Job} {before : CodeHash} (name : ℕ)
      (result : Except BuildError (Option CodeHash × Option CodeHash))
      (current : state.jobs name = some job) (phase : job.phase = .building before) :
      Step state (.built name result) (state.setJob name (some (job.built before result)))
  | refetched {state : Verifier} {job : Job} {before : CodeHash} {first second : Option CodeHash}
      (name : ℕ) (result : Option CodeHash) (current : state.jobs name = some job)
      (phase : job.phase = .refetching before first second) :
      Step state (.refetched name result)
        ((state.see job.contractId result).setJob name
          (some (job.refetched before first second result)))
  | statement {state : Verifier} {job : Job} (name : ℕ) (current : state.jobs name = some job) :
      Step state (.statement name) (state.statement name job)
  | crash {state : Verifier} {job : Job} (name : ℕ) (current : state.jobs name = some job) :
      Step state (.crash name) (state.setJob name none)
  | event {state : Verifier} (event : Event) (written : Bool) :
      Step state (.event event written) ((state.processEvent event written).seeEvent event)

/-! ### What a badge promises -/

def Honest (state : Verifier) : Prop :=
  ∀ contract, (state.getCodeVerification contract).isVerified = true →
    ∃ row built, state.latest contract = some row ∧ row.builtHash = some built ∧
      state.known contract = some built

structure Records (before : Verifier) (action : Action) (after : Verifier) : Prop where
  /-- A transaction that does not upgrade the contract does nothing to it. -/
  own : ∀ event written contract, action = .event event written →
    upgradeOf event.changes contract = none →
      after.recordedHash contract = before.recordedHash contract
  /-- It only changes to the newest hash that was seen of the contract. -/
  newest : ∀ contract, after.recordedHash contract ≠ before.recordedHash contract →
    after.recordedHash contract = after.known contract

/-- A transaction upgrades no contract but that of its event and the write succeeds; a job
completes only if what it built is not the hash of other code that is still recorded, and
records only the newest hash that was seen; requests for one contract do not race. -/
def Attributed (state : Verifier) : Action → Prop
  | .insertRequest name => ∀ request, state.requests name = some request →
      ∀ row ∈ state.verifications, row.contractId = request.contractId → row.isOpen = false
  | .statement name => ∀ job, state.jobs name = some job →
      match job.phase with
      | .completing before first _ =>
        state.recordedHash job.contractId = some first → first = before
      | .recording before => state.known job.contractId = some before
      | _ => True
  | .event event written => ∀ contract upgrade, upgradeOf event.changes contract = some upgrade →
      contract = event.contractId ∧ written = true
  | _ => True

def AttributedStep (before : Verifier) (action : Action) (after : Verifier) : Prop :=
  Step before action after ∧ Attributed before action

/-! ### What attributed steps keep -/

structure IsLast (rows : List Verification) (place : ℕ) (row : Verification) : Prop where
  there : rows[place]? = some row
  last : ∀ later other, place < later → rows[later]? = some other →
    other.contractId ≠ row.contractId

def Phase.isOpen : Phase → Bool
  | .flagging | .recording _ => false
  | _ => true

def Phase.before? : Phase → Option CodeHash
  | .building before | .refetching before _ _ | .completing before _ _ => some before
  | _ => none

def Fresh (state : Verifier) (contract : ContractId) (before : CodeHash) : Prop :=
  ∃ newest, state.known contract = some newest ∧
    (newest = before ∨ state.recordedHash contract = some newest)

structure Kept (state : Verifier) : Prop where
  honest : ∀ place row built, IsLast state.verifications place row → row.status = .completed →
    row.builtHash = some built →
      (state.recordedHash row.contractId).or row.onchainHash = some built →
        state.known row.contractId = some built
  opened : ∀ place row, state.verifications[place]? = some row → row.isOpen = true →
    IsLast state.verifications place row
  building : ∀ name job, state.jobs name = some job → job.phase.isOpen = true →
    ∃ row, state.verifications[job.row]? = some row ∧ row.contractId = job.contractId ∧
      row.status = .building
  alone : ∀ first second one two, state.jobs first = some one → state.jobs second = some two →
    one.phase.isOpen = true → two.phase.isOpen = true → one.row = two.row → first = second
  fresh : ∀ name job before, state.jobs name = some job → job.phase.before? = some before →
    Fresh state job.contractId before

section Attributed

variable {state before after : Verifier} {action : Action}

theorem kept_start : Kept Verifier.start := by
  constructor
  · intro place row built last
    cases last.there
  · intro place row there
    cases there
  · intro name job found
    cases found
  · intro first second one two found
    cases found
  · intro name job before found
    cases found

theorem isOpen_of_before? {phase : Phase} {hash : CodeHash} (read : phase.before? = some hash) :
    phase.isOpen = true := by
  cases phase <;> first | rfl | cases read

theorem isOpen_of_building {row : Verification} (building : row.status = .building) :
    row.isOpen = true := by
  rw [Verification.isOpen, building]
  rfl

theorem jobs_setJob (name other : ℕ) (job : Option Job) :
    (state.setJob name job).jobs other = if other = name then job else state.jobs other :=
  Function.update_apply state.jobs name job other

theorem getElem?_updateRow (row place : ℕ) (change : Verification → Verification) :
    (state.updateRow row change).verifications[place]? =
      if row = place then (state.verifications[place]?).map change
      else state.verifications[place]? := by
  rw [Verifier.updateRow, List.getElem?_modify]
  split <;> simp

namespace Kept

theorem same_job (kept : Kept state) {first second : ℕ} {one two : Job}
    (firstJob : state.jobs first = some one) (secondJob : state.jobs second = some two)
    (firstOpen : one.phase.isOpen = true) (secondOpen : two.phase.isOpen = true)
    (contract : one.contractId = two.contractId) : first = second := by
  obtain ⟨row, there, rowContract, building⟩ := kept.building first one firstJob firstOpen
  obtain ⟨other, otherThere, otherContract, otherBuilding⟩ :=
    kept.building second two secondJob secondOpen
  have same : other.contractId = row.contractId :=
    otherContract.trans (contract.symm.trans rowContract.symm)
  apply kept.alone first second one two firstJob secondJob firstOpen secondOpen
  rcases Nat.lt_trichotomy one.row two.row with earlier | equal | later
  · have last := kept.opened one.row row there (isOpen_of_building building)
    exact absurd same (last.last two.row other earlier otherThere)
  · exact equal
  · have last := kept.opened two.row other otherThere (isOpen_of_building otherBuilding)
    exact absurd same.symm (last.last one.row row later there)

theorem setJob (kept : Kept state) {name : ℕ} {job : Job} (current : state.jobs name = some job)
    (next : Option Job)
    (moves : ∀ later, next = some later → later.row = job.row ∧ later.taken = job.taken ∧
      (later.phase.isOpen = true → job.phase.isOpen = true) ∧
      ∀ hash, later.phase.before? = some hash → job.phase.before? = some hash) :
    Kept (state.setJob name next) := by
  -- Every job afterwards was there before, in the same place.
  have earlier {other : ℕ} {later : Job}
      (found : (state.setJob name next).jobs other = some later) :
      ∃ job, state.jobs other = some job ∧ later.row = job.row ∧ later.taken = job.taken ∧
        (later.phase.isOpen = true → job.phase.isOpen = true) ∧
        ∀ hash, later.phase.before? = some hash → job.phase.before? = some hash := by
    rw [jobs_setJob] at found
    split at found
    · next same => exact ⟨job, same ▸ current, moves later found⟩
    · exact ⟨later, found, rfl, rfl, fun isOpen => isOpen, fun _ read => read⟩
  constructor
  · exact kept.honest
  · exact kept.opened
  · intro other later found isOpen
    obtain ⟨job, was, row, taken, wasOpen, -⟩ := earlier found
    rw [row, Job.contractId, taken]
    exact kept.building other job was (wasOpen isOpen)
  · intro first second one two firstFound secondFound firstOpen secondOpen sameRow
    obtain ⟨firstJob, firstWas, firstRow, -, firstWasOpen, -⟩ := earlier firstFound
    obtain ⟨secondJob, secondWas, secondRow, -, secondWasOpen, -⟩ := earlier secondFound
    exact kept.alone first second firstJob secondJob firstWas secondWas (firstWasOpen firstOpen)
      (secondWasOpen secondOpen) (firstRow.symm.trans (sameRow.trans secondRow))
  · intro other later hash found read
    obtain ⟨job, was, -, taken, -, wasRead⟩ := earlier found
    rw [Job.contractId, taken]
    exact kept.fresh other job hash was (wasRead hash read)

theorem updateRow (kept : Kept state) {place : ℕ} {change : Verification → Verification}
    (ids : ∀ row, (change row).contractId = row.contractId)
    (free : ∀ name job, state.jobs name = some job → job.phase.isOpen = true → job.row ≠ place)
    (opened : ∀ row, state.verifications[place]? = some row → (change row).isOpen = true →
      row.isOpen = true)
    (honest : ∀ row built, state.verifications[place]? = some row →
      (change row).status = .completed → (change row).builtHash = some built →
        (state.recordedHash row.contractId).or (change row).onchainHash = some built →
          state.known row.contractId = some built) :
    Kept (state.updateRow place change) := by
  have earlier {other : ℕ} {row : Verification}
      (found : (state.updateRow place change).verifications[other]? = some row) :
      ∃ old, state.verifications[other]? = some old ∧ row.contractId = old.contractId ∧
        ((other = place ∧ row = change old) ∨ (other ≠ place ∧ row = old)) := by
    rw [getElem?_updateRow] at found
    split at found
    · next same =>
        obtain ⟨old, was, rfl⟩ := Option.map_eq_some_iff.mp found
        exact ⟨old, was, ids old, Or.inl ⟨same.symm, rfl⟩⟩
    · next differs => exact ⟨row, found, rfl, Or.inr ⟨Ne.symm differs, rfl⟩⟩
  have later {other : ℕ} {old : Verification} (was : state.verifications[other]? = some old) :
      ∃ row, (state.updateRow place change).verifications[other]? = some row ∧
        row.contractId = old.contractId := by
    rw [getElem?_updateRow]
    split
    · exact ⟨change old, by rw [was, Option.map_some], ids old⟩
    · exact ⟨old, was, rfl⟩
  have wasLast {other : ℕ} {row old : Verification}
      (last : IsLast (state.updateRow place change).verifications other row)
      (was : state.verifications[other]? = some old) (contract : row.contractId = old.contractId) :
      IsLast state.verifications other old := by
    refine ⟨was, ?_⟩
    intro behind next after there
    obtain ⟨now, nowThere, nowContract⟩ := later there
    rw [← nowContract, ← contract]
    exact last.last behind now after nowThere
  constructor
  · intro other row built last completed builtHash actual
    obtain ⟨old, was, contract, ⟨rfl, rfl⟩ | ⟨_, rfl⟩⟩ := earlier last.there
    · rw [contract] at actual ⊢
      exact honest old built was completed builtHash actual
    · exact kept.honest other row built (wasLast last was rfl) completed builtHash actual
  · intro other row there isOpen
    obtain ⟨old, was, contract, cases⟩ := earlier there
    have wasOpen : old.isOpen = true := by
      rcases cases with ⟨rfl, rfl⟩ | ⟨_, rfl⟩
      · exact opened old was isOpen
      · exact isOpen
    refine ⟨there, ?_⟩
    intro behind next after nextThere
    obtain ⟨oldNext, nextWas, nextContract, -⟩ := earlier nextThere
    rw [nextContract, contract]
    exact (kept.opened other old was wasOpen).last behind oldNext after nextWas
  · intro name job found isOpen
    obtain ⟨row, there, contract, building⟩ := kept.building name job found isOpen
    refine ⟨row, ?_, contract, building⟩
    rw [getElem?_updateRow, if_neg (Ne.symm (free name job found isOpen)), there]
  · exact kept.alone
  · exact kept.fresh

theorem known_see (contract other : ContractId) (result : Option CodeHash) :
    (state.see contract result).known other =
      if other = contract then result.or (state.known contract) else state.known other :=
  Function.update_apply state.known contract _ other

theorem read (kept : Kept state) {name : ℕ} {job next : Job} {result : Option CodeHash}
    (current : state.jobs name = some job) (wasOpen : job.phase.isOpen = true)
    (row : next.row = job.row) (contract : next.contractId = job.contractId)
    (fresh : ∀ hash, next.phase.before? = some hash →
      ∃ newest, result.or (state.known job.contractId) = some newest ∧
        (newest = hash ∨ state.recordedHash job.contractId = some newest)) :
    Kept ((state.see job.contractId result).setJob name (some next)) := by
  have only {other : ℕ} {later : Job}
      (found : ((state.see job.contractId result).setJob name (some next)).jobs other =
        some later) :
      (other = name ∧ later = next) ∨ (other ≠ name ∧ state.jobs other = some later) := by
    rw [jobs_setJob] at found
    split at found
    · next same => exact Or.inl ⟨same, (Option.some.inj found).symm⟩
    · next differs => exact Or.inr ⟨differs, found⟩
  obtain ⟨own, ownThere, ownContract, building⟩ := kept.building name job current wasOpen
  have ownLast := kept.opened job.row own ownThere (isOpen_of_building building)
  constructor
  · intro place later built last completed builtHash actual
    refine (known_see job.contractId later.contractId result).trans ?_
    rw [if_neg]
    · exact kept.honest place later built last completed builtHash actual
    · -- The last row of the job's contract is the job's, which is not completed.
      intro sameContract
      have same : later.contractId = own.contractId := sameContract.trans ownContract.symm
      rcases Nat.lt_trichotomy place job.row with earlier | equal | behind
      · exact last.last job.row own earlier ownThere same.symm
      · have equalRows := last.there.symm.trans (equal ▸ ownThere)
        cases equalRows
        rw [building] at completed
        cases completed
      · exact ownLast.last place later behind last.there same
  · exact kept.opened
  · intro other later found isOpen
    rcases only found with ⟨rfl, rfl⟩ | ⟨_, was⟩
    · rw [row, contract]
      exact kept.building other job current wasOpen
    · exact kept.building other later was isOpen
  · intro first second one two firstFound secondFound firstOpen secondOpen sameRow
    rcases only firstFound with ⟨rfl, rfl⟩ | ⟨_, firstWas⟩
    · rcases only secondFound with ⟨rfl, rfl⟩ | ⟨_, secondWas⟩
      · rfl
      · exact kept.alone first second job two current secondWas wasOpen secondOpen
          (row.symm.trans sameRow)
    · rcases only secondFound with ⟨rfl, rfl⟩ | ⟨_, secondWas⟩
      · exact kept.alone first second one job firstWas current firstOpen wasOpen
          (sameRow.trans row)
      · exact kept.alone first second one two firstWas secondWas firstOpen secondOpen sameRow
  · intro other later hash found read
    rcases only found with ⟨rfl, rfl⟩ | ⟨differs, was⟩
    · obtain ⟨newest, known, recorded⟩ := fresh hash read
      rw [contract]
      exact ⟨newest, (known_see _ _ result).trans ((if_pos rfl).trans known), recorded⟩
    · obtain ⟨newest, known, recorded⟩ := kept.fresh other later hash was read
      have apart : later.contractId ≠ job.contractId := fun same =>
        differs (kept.same_job was current (isOpen_of_before? read) wasOpen same)
      exact ⟨newest, (known_see _ _ result).trans ((if_neg apart).trans known), recorded⟩

theorem insertRequest (kept : Kept state) {request : SourceRequest} (name : ℕ)
    (closed : ∀ row ∈ state.verifications, row.contractId = request.contractId →
      row.isOpen = false) :
    Kept ({ state with
      verifications := state.verifications ++ [request.inserted] }.setRequest name none) := by
  constructor
  · intro place row built last completed
    rcases of_concat last.there with was | ⟨-, rfl⟩
    · apply kept.honest place row built _ completed
      exact ⟨was, fun later other behind there => last.last later other behind (concat_of there _)⟩
    · cases completed
  · intro place row there isOpen
    refine ⟨there, ?_⟩
    intro later other behind found
    rcases of_concat there with was | ⟨rfl, rfl⟩
    · rcases of_concat found with earlier | ⟨-, rfl⟩
      · exact (kept.opened place row was isOpen).last later other behind earlier
      · intro same
        rw [closed row (List.mem_of_getElem? was) same.symm] at isOpen
        cases isOpen
    · rcases of_concat found with earlier | ⟨rfl, -⟩
      · have bound := (List.getElem?_eq_some_iff.mp earlier).1
        omega
      · omega
  · intro other job found isOpen
    obtain ⟨row, there, contract, building⟩ := kept.building other job found isOpen
    exact ⟨row, concat_of there _, contract, building⟩
  · exact kept.alone
  · exact kept.fresh

theorem claim (kept : Kept state) {name place : ℕ} {taken : Verification}
    (there : state.verifications[place]? = some taken) (pending : taken.status = .pending) :
    Kept ((state.updateRow place fun row => { row with status := .building }).setJob name
      (some ⟨place, { taken with status := .building }, .fetching⟩)) := by
  have free : ∀ other job, state.jobs other = some job → job.phase.isOpen = true →
      job.row ≠ place := by
    intro other job found isOpen same
    obtain ⟨row, rowThere, -, building⟩ := kept.building other job found isOpen
    rw [same, there, Option.some_inj] at rowThere
    rw [← rowThere, pending] at building
    cases building
  have written : Kept (state.updateRow place fun row => { row with status := .building }) := by
    refine kept.updateRow (fun _ => rfl) free ?_ ?_
    · intro row found _
      rw [there, Option.some_inj] at found
      rw [← found, Verification.isOpen, pending]
      rfl
    · intro row built _ completed
      cases completed
  have only {other : ℕ} {later : Job}
      (found : ((state.updateRow place fun row => { row with status := .building }).setJob name
        (some ⟨place, { taken with status := .building }, .fetching⟩)).jobs other = some later) :
      (other = name ∧ later = ⟨place, { taken with status := .building }, .fetching⟩) ∨
        state.jobs other = some later := by
    rw [jobs_setJob] at found
    split at found
    · next same => exact Or.inl ⟨same, (Option.some.inj found).symm⟩
    · exact Or.inr found
  constructor
  · exact written.honest
  · exact written.opened
  · intro other job found isOpen
    rcases only found with ⟨-, rfl⟩ | was
    · refine ⟨{ taken with status := .building }, ?_, rfl, rfl⟩
      refine (getElem?_updateRow place place _).trans ?_
      rw [if_pos rfl, there, Option.map_some]
    · exact written.building other job was isOpen
  · intro first second one two firstFound secondFound firstOpen secondOpen sameRow
    rcases only firstFound with ⟨rfl, rfl⟩ | firstWas
    · rcases only secondFound with ⟨rfl, rfl⟩ | secondWas
      · rfl
      · exact absurd sameRow.symm (free second two secondWas secondOpen)
    · rcases only secondFound with ⟨rfl, rfl⟩ | secondWas
      · exact absurd sameRow (free first one firstWas firstOpen)
      · exact kept.alone first second one two firstWas secondWas firstOpen secondOpen sameRow
  · intro other job hash found read
    rcases only found with ⟨-, rfl⟩ | was
    · cases read
    · exact kept.fresh other job hash was read

theorem agree (kept : Kept state) (rows : after.verifications = state.verifications)
    (jobs : after.jobs = state.jobs)
    (agree : ∀ contract,
      (after.known contract = state.known contract ∧
        after.recordedHash contract = state.recordedHash contract) ∨
      ∃ hash, after.known contract = some hash ∧ after.recordedHash contract = some hash) :
    Kept after := by
  constructor
  · intro place row built last completed builtHash actual
    rw [rows] at last
    rcases agree row.contractId with ⟨known, recorded⟩ | ⟨hash, known, recorded⟩
    · rw [recorded] at actual
      rw [known]
      exact kept.honest place row built last completed builtHash actual
    · rw [recorded, Option.some_or] at actual
      rw [known, actual]
  · rw [rows]
    exact kept.opened
  · rw [rows, jobs]
    exact kept.building
  · rw [jobs]
    exact kept.alone
  · intro name job hash found read
    rw [jobs] at found
    obtain ⟨newest, wasKnown, wasRecorded⟩ := kept.fresh name job hash found read
    rcases agree job.contractId with ⟨known, recorded⟩ | ⟨now, known, recorded⟩
    · exact ⟨newest, known.trans wasKnown, by rw [recorded]; exact wasRecorded⟩
    · exact ⟨now, known, Or.inr recorded⟩

theorem free (kept : Kept state) {name : ℕ} {job : Job} (current : state.jobs name = some job)
    (isOpen : job.phase.isOpen = true) {next : Option Job}
    (closed : ∀ later, next = some later → later.phase.isOpen = false) :
    ∀ other later, (state.setJob name next).jobs other = some later →
      later.phase.isOpen = true → later.row ≠ job.row := by
  intro other later found laterOpen same
  rw [jobs_setJob] at found
  split at found
  · rw [closed later found] at laterOpen
    cases laterOpen
  · next differs =>
      exact differs (kept.alone other name later job found current laterOpen isOpen same)

theorem close (kept : Kept state) {name : ℕ} {job : Job} (current : state.jobs name = some job)
    (isOpen : job.phase.isOpen = true) {next : Option Job}
    (closed : ∀ later, next = some later →
      later.row = job.row ∧ later.taken = job.taken ∧ later.phase.isOpen = false)
    {change : Verification → Verification} (ids : ∀ row, (change row).contractId = row.contractId)
    (honest : ∀ row built, row.contractId = job.contractId →
      (change row).status = .completed → (change row).builtHash = some built →
        (state.recordedHash row.contractId).or (change row).onchainHash = some built →
          state.known row.contractId = some built) :
    Kept ((state.updateRow job.row change).setJob name next) := by
  obtain ⟨own, there, contract, building⟩ := kept.building name job current isOpen
  have moved : Kept (state.setJob name next) := by
    apply kept.setJob current next
    intro later same
    obtain ⟨row, taken, shut⟩ := closed later same
    refine ⟨row, taken, fun _ => isOpen, ?_⟩
    intro hash read
    rw [isOpen_of_before? read] at shut
    cases shut
  have isOwn {row : Verification} (found : state.verifications[job.row]? = some row) : row = own :=
    Option.some.inj (found.symm.trans there)
  refine moved.updateRow ids ?_ ?_ ?_
  · exact kept.free current isOpen fun later same => (closed later same).2.2
  · intro row found _
    rw [isOwn found]
    exact isOpen_of_building building
  · intro row built found completed builtHash actual
    have ownContract : row.contractId = job.contractId := by rw [isOwn found, contract]
    exact honest row built ownContract completed builtHash actual

theorem recordedHash_recordOnChainHash (contract other : ContractId) (hash : CodeHash)
    (ledger : Option ℕ) :
    (state.recordOnChainHash contract hash ledger).recordedHash other =
      if other = contract then some hash else state.recordedHash other := by
  simp only [Verifier.recordedHash, Verifier.recordOnChainHash, Function.update_apply]
  split <;> rfl

theorem mapRows (kept : Kept state) {change : Verification → Verification}
    (same : ∀ row, (change row).contractId = row.contractId ∧ (change row).status = row.status ∧
      (change row).builtHash = row.builtHash ∧ (change row).onchainHash = row.onchainHash) :
    Kept { state with verifications := state.verifications.map change } := by
  have earlier {place : ℕ} {row : Verification}
      (found : (state.verifications.map change)[place]? = some row) :
      ∃ old, state.verifications[place]? = some old ∧ change old = row :=
    Option.map_eq_some_iff.mp (List.getElem?_map.symm.trans found)
  have later {place : ℕ} {old : Verification} (was : state.verifications[place]? = some old) :
      (state.verifications.map change)[place]? = some (change old) := by
    rw [List.getElem?_map, was, Option.map_some]
  constructor
  · intro place row built last completed builtHash actual
    obtain ⟨old, was, rfl⟩ := earlier last.there
    obtain ⟨contract, status, builtSame, onchain⟩ := same old
    rw [contract, onchain] at actual
    rw [contract]
    apply kept.honest place old built _ (status ▸ completed) (builtSame ▸ builtHash) actual
    refine ⟨was, ?_⟩
    intro behind next after there
    rw [← (same next).1, ← contract]
    exact last.last behind (change next) after (later there)
  · intro place row there isOpen
    obtain ⟨old, was, rfl⟩ := earlier there
    have wasOpen : old.isOpen = true := by
      rw [Verification.isOpen, (same old).2.1] at isOpen
      exact isOpen
    refine ⟨there, ?_⟩
    intro behind next after nextThere
    obtain ⟨oldNext, nextWas, rfl⟩ := earlier nextThere
    rw [(same oldNext).1, (same old).1]
    exact (kept.opened place old was wasOpen).last behind oldNext after nextWas
  · intro name job found isOpen
    obtain ⟨row, there, contract, building⟩ := kept.building name job found isOpen
    exact ⟨change row, later there, (same row).1.trans contract, (same row).2.1.trans building⟩
  · exact kept.alone
  · exact kept.fresh

theorem statement (kept : Kept state) {name : ℕ} {job : Job}
    (current : state.jobs name = some job) (attributed : Attributed state (.statement name)) :
    Kept (state.statement name job) := by
  have guarded := attributed job current
  cases phase : job.phase with
  | fetching | building | refetching =>
    simpa only [Verifier.statement, phase] using kept
  | failing reason onchainHash sourceRetrievable =>
    simp only [Verifier.statement, phase]
    apply kept.close current (by rw [phase]; rfl)
    · intro later same
      split at same
      · cases same
        exact ⟨rfl, rfl, rfl⟩
      · cases same
    · intro row
      rfl
    · intro row built _ completed
      cases completed
  | flagging =>
    simp only [Verifier.statement, phase]
    have moved : Kept (state.setJob name none) := by
      apply kept.setJob current
      intro later same
      cases same
    apply moved.mapRows
    intro row
    unfold Verification.flagged
    split <;> exact ⟨rfl, rfl, rfl, rfl⟩
  | requeueing =>
    simp only [Verifier.statement, phase]
    apply kept.close current (by rw [phase]; rfl)
    · intro later same
      cases same
    · intro row
      rfl
    · intro row built _ completed
      cases completed
  | completing before first reproducible =>
    simp only [phase] at guarded
    obtain ⟨newest, known, recorded⟩ := kept.fresh name job before current (by rw [phase]; rfl)
    simp only [Verifier.statement, phase]
    apply kept.close current (by rw [phase]; rfl)
    · intro later same
      cases same
      exact ⟨rfl, rfl, rfl⟩
    · intro row
      rfl
    · intro row built contract completed builtHash actual
      cases builtHash
      rw [contract] at actual ⊢
      cases found : state.recordedHash job.contractId with
      | none =>
        rw [found] at actual recorded
        cases actual
        rcases recorded with rfl | impossible
        · exact known
        · cases impossible
      | some hash =>
        rw [found, Option.some_or] at actual
        cases actual
        cases guarded found
        rcases recorded with rfl | same
        · exact known
        · rw [known, ← same, found]
  | recording before =>
    simp only [phase] at guarded
    simp only [Verifier.statement, phase]
    have moved : Kept (state.setJob name none) := by
      apply kept.setJob current
      intro later same
      cases same
    refine Kept.agree moved rfl rfl ?_
    intro contract
    by_cases same : contract = job.contractId
    · refine Or.inr ⟨before, same ▸ guarded, ?_⟩
      exact (recordedHash_recordOnChainHash _ _ _ _).trans (if_pos same)
    · refine Or.inl ⟨rfl, ?_⟩
      exact (recordedHash_recordOnChainHash _ _ _ _).trans (if_neg same)

end Kept

/-! ### Events -/

theorem known_seeEvent (event : Event) (contract : ContractId) :
    (state.seeEvent event).known contract =
      ((upgradeOf event.changes contract).map Upgrade.newHash).or (state.known contract) := rfl

theorem event_cases {event : Event} {written : Bool}
    (attributed : Attributed state (.event event written)) :
    (detectUpgrade event.changes = none ∧ ∀ contract, upgradeOf event.changes contract = none) ∨
    ∃ upgrade, detectUpgrade event.changes = some upgrade ∧ written = true ∧
      upgradeOf event.changes event.contractId = some upgrade ∧
      ∀ contract, contract ≠ event.contractId → upgradeOf event.changes contract = none := by
  cases found : detectUpgrade event.changes with
  | none => exact Or.inl ⟨rfl, detectUpgrade_eq_none_iff.mp found⟩
  | some upgrade =>
    obtain ⟨contract, own⟩ := upgradeOf_of_detectUpgrade found
    obtain ⟨rfl, written⟩ := attributed contract upgrade own
    refine Or.inr ⟨upgrade, rfl, written, own, ?_⟩
    intro other differs
    rw [Option.eq_none_iff_forall_ne_some]
    intro foreign upgraded
    exact differs (attributed other foreign upgraded).1

theorem agree_event {event : Event} {written : Bool}
    (attributed : Attributed state (.event event written)) (contract : ContractId) :
    (((state.processEvent event written).seeEvent event).known contract = state.known contract ∧
      ((state.processEvent event written).seeEvent event).recordedHash contract =
        state.recordedHash contract) ∨
    ∃ upgrade, upgradeOf event.changes contract = some upgrade ∧
      ((state.processEvent event written).seeEvent event).known contract = some upgrade.newHash ∧
      ((state.processEvent event written).seeEvent event).recordedHash contract =
        some upgrade.newHash := by
  rcases event_cases attributed with ⟨undetected, none⟩ | ⟨upgrade, detected, rfl, own, none⟩
  · refine Or.inl ⟨?_, ?_⟩
    · rw [known_seeEvent, none contract, Verifier.processEvent, undetected]
      rfl
    · rw [Verifier.processEvent, undetected]
      rfl
  · rw [Verifier.processEvent, detected]
    by_cases same : contract = event.contractId
    · refine Or.inr ⟨upgrade, same ▸ own, ?_, ?_⟩
      · rw [known_seeEvent, same, own]
        rfl
      · exact (Kept.recordedHash_recordOnChainHash _ _ _ _).trans (if_pos same)
    · refine Or.inl ⟨?_, ?_⟩
      · rw [known_seeEvent, none contract same]
        rfl
      · exact (Kept.recordedHash_recordOnChainHash _ _ _ _).trans (if_neg same)

theorem verifications_processEvent (event : Event) (written : Bool) :
    (state.processEvent event written).verifications = state.verifications ∧
      (state.processEvent event written).jobs = state.jobs := by
  unfold Verifier.processEvent
  split
  · exact ⟨rfl, rfl⟩
  · split <;> exact ⟨rfl, rfl⟩

/-! ### Steps and runs -/

theorem Kept.step (kept : Kept before) (taken : AttributedStep before action after) :
    Kept after := by
  obtain ⟨step, attributed⟩ := taken
  cases step with
  | checkRequest name request closed =>
    exact ⟨kept.honest, kept.opened, kept.building, kept.alone, kept.fresh⟩
  | insertRequest name checked => exact kept.insertRequest name (attributed _ checked)
  | claim name row fresh there pending => exact kept.claim there pending
  | @fetched job name result current phase =>
    apply kept.read current (by rw [phase]; rfl)
    · cases result <;> rfl
    · cases result <;> rfl
    · intro hash read
      cases result with
      | none => cases read
      | some seen =>
        refine ⟨seen, rfl, Or.inl ?_⟩
        exact Option.some.inj read
  | @built job hash name result current phase =>
    apply kept.setJob current
    intro later same
    cases same
    cases result with
    | error gone => exact ⟨rfl, rfl, fun _ => by rw [phase]; rfl, fun _ read => by cases read⟩
    | ok builds =>
      refine ⟨rfl, rfl, fun _ => by rw [phase]; rfl, ?_⟩
      intro seen read
      rw [phase]
      exact read
  | @refetched job hash first second name result current phase =>
    obtain ⟨newest, known, recorded⟩ := kept.fresh name job hash current (by rw [phase]; rfl)
    apply kept.read current (by rw [phase]; rfl)
    · unfold Job.refetched
      split
      · rfl
      · split <;> rfl
    · unfold Job.refetched
      split
      · rfl
      · split <;> rfl
    · intro seen read
      unfold Job.refetched at read
      split at read
      · cases read
      · next unchanged =>
          split at read
          · cases read
          · cases read
            cases result with
            | none => exact ⟨newest, known, recorded⟩
            | some again =>
              have same : again = hash := by simpa using unchanged
              exact ⟨again, rfl, Or.inl same⟩
  | statement name current => exact kept.statement current attributed
  | crash name current =>
    apply kept.setJob current
    intro later same
    cases same
  | event event written =>
    obtain ⟨rows, jobs⟩ := @verifications_processEvent before event written
    refine Kept.agree kept rows jobs ?_
    intro contract
    refine (agree_event attributed contract).imp (fun same => same) ?_
    rintro ⟨upgrade, -, known, recorded⟩
    exact ⟨upgrade.newHash, known, recorded⟩

theorem isLast_of_latest (rows : List Verification) {contract : ContractId} {row : Verification}
    (found : (rows.filter fun row => row.contractId = contract).getLast? = some row) :
    row.contractId = contract ∧ ∃ place, IsLast rows place row := by
  induction rows using List.reverseRecOn with
  | nil => cases found
  | append_singleton rows newest ih =>
    rw [List.filter_append] at found
    by_cases own : newest.contractId = contract
    · rw [List.filter_cons_of_pos (by simpa using own), List.getLast?_append] at found
      cases found
      refine ⟨own, rows.length, ?_, ?_⟩
      · exact List.getElem?_concat_length
      · intro later other behind there
        have bound := (List.getElem?_eq_some_iff.mp there).1
        rw [List.length_append, List.length_singleton] at bound
        omega
    · rw [List.filter_cons_of_neg (by simpa using own), List.filter_nil, List.append_nil]
        at found
      obtain ⟨contractId, place, last⟩ := ih found
      refine ⟨contractId, place, ?_, ?_⟩
      · exact concat_of last.there _
      · intro later other behind there
        rcases of_concat there with earlier | ⟨-, rfl⟩
        · exact last.last later other behind earlier
        · rw [contractId]
          exact own

theorem verified_cases {record : Option Verification} {onchainHash : Option CodeHash}
    (verified : (computeBadge record onchainHash).isVerified = true) :
    ∃ row built, record = some row ∧ row.status = .completed ∧ row.builtHash = some built ∧
      onchainHash.or row.onchainHash = some built := by
  unfold computeBadge at verified
  split at verified
  · cases verified
  · next row =>
      split at verified
      · cases verified
      · cases verified
      · cases verified
      · next completed =>
          split at verified
          · next built actual isBuilt isActual =>
              split at verified
              · cases verified
              · next same =>
                  refine ⟨row, built, rfl, completed, isBuilt, ?_⟩
                  rw [isActual, not_not.mp same]
          · cases verified

theorem Kept.honest_badges (kept : Kept state) : Honest state := by
  intro contract verified
  obtain ⟨row, built, latest, completed, builtHash, actual⟩ := verified_cases verified
  obtain ⟨rfl, place, last⟩ := isLast_of_latest _ latest
  exact ⟨row, built, latest, builtHash, kept.honest place row built last completed builtHash actual⟩

theorem records_of_step (taken : AttributedStep before action after) :
    Records before action after := by
  obtain ⟨step, attributed⟩ := taken
  cases step with
  | event event written =>
    constructor
    · intro other written' contract same none
      cases same
      rcases agree_event attributed contract with ⟨-, recorded⟩ | ⟨upgrade, own, -⟩
      · exact recorded
      · cases none.symm.trans own
    · intro contract differs
      rcases agree_event attributed contract with ⟨-, recorded⟩ | ⟨upgrade, -, known, recorded⟩
      · exact absurd recorded differs
      · exact recorded.trans known.symm
  | @statement job name current =>
    constructor
    · intro event written contract same
      cases same
    · intro contract differs
      have guarded := attributed job current
      cases phase : job.phase with
      | recording hash =>
        simp only [Verifier.statement, phase] at differs guarded ⊢
        have recorded : (before.recordOnChainHash job.contractId hash none).recordedHash contract =
            if contract = job.contractId then some hash else before.recordedHash contract :=
          Kept.recordedHash_recordOnChainHash job.contractId contract hash none
        by_cases same : contract = job.contractId
        · rw [if_pos same] at recorded
          exact recorded.trans (same ▸ guarded.symm)
        · rw [if_neg same] at recorded
          exact absurd recorded differs
      | _ =>
        simp only [Verifier.statement, phase] at differs
        exact absurd rfl differs
  | _ =>
    constructor
    · intro event written contract same
      cases same
    · intro contract differs
      exact absurd rfl differs

/-- In every run of attributed steps badges are honest, and each further step records only
what was seen of the contract itself. -/
theorem honest_of_attributed {labels : List Action} {final : Verifier}
    (run : Run AttributedStep Verifier.start labels final) :
    Honest final ∧ ∀ action after, AttributedStep final action after →
      Records final action after := by
  have kept : Kept final := run.invariant kept_start fun _ _ _ holds taken => holds.step taken
  exact ⟨kept.honest_badges, fun _ _ taken => records_of_step taken⟩

end Attributed

/-! ### A transaction that upgrades another contract -/

/-- The verification of a contract whose code is 1, with a source that builds to `built`. -/
def verification (built : CodeHash) : List Action :=
  [.checkRequest 0 ⟨"A", "repo", "commit"⟩, .insertRequest 0, .claim 0 0, .fetched 0 (some 1),
    .built 0 (.ok (some built, none)), .refetched 0 (some 1), .statement 0, .statement 0]

def checked (built : CodeHash) : Verification :=
  ⟨⟨"A", "repo", "commit"⟩, .completed,
    some "non-reproducible build: two builds produced different hashes", some 1, some built,
    some false, true⟩

theorem run_verification (built : CodeHash) : ∃ final,
    Run AttributedStep Verifier.start (verification built) final ∧
      final.latest "A" = some (checked built) ∧ final.recordedHash "A" = some 1 ∧
      final.known "A" = some 1 := by
  have requested : Run AttributedStep Verifier.start
      [.checkRequest 0 ⟨"A", "repo", "commit"⟩] _ :=
    Run.one ⟨.checkRequest 0 ⟨"A", "repo", "commit"⟩ (by intro row member; cases member), trivial⟩
  have inserted := requested.snoc ⟨.insertRequest 0 rfl, by intro _ _ row member; cases member⟩
  have claimed := inserted.snoc ⟨.claim 0 0 rfl rfl rfl, trivial⟩
  have fetched := claimed.snoc ⟨.fetched 0 (some 1) rfl rfl, trivial⟩
  have builds := fetched.snoc ⟨.built 0 (.ok (some built, none)) rfl rfl, trivial⟩
  have refetched := builds.snoc ⟨.refetched 0 (some 1) rfl rfl, trivial⟩
  have completed := refetched.snoc ⟨.statement 0 rfl, by
    intro job found
    cases found
    intro recorded
    cases recorded⟩
  have recorded := completed.snoc ⟨.statement 0 rfl, by
    intro job found
    cases found
    rfl⟩
  exact ⟨_, recorded, rfl, rfl, rfl⟩

theorem sameBuild_honest : ∃ final, (final.getCodeVerification "A").isVerified = true ∧
    Honest final := by
  obtain ⟨final, run, latest, recorded, -⟩ := run_verification 1
  refine ⟨final, ?_, (honest_of_attributed run).1⟩
  rw [Verifier.getCodeVerification, latest, recorded]
  decide

/-- An event of `A` in a transaction that upgrades `B` from code 3 to code 2. -/
def foreignUpgrade : Event :=
  ⟨"A", 7, [⟨.state, some ("B", 3)⟩, ⟨.updated, some ("B", 2)⟩]⟩

/-- The hash of the other contract is recorded for the one that emitted the event, which is
thereby called verified. -/
theorem foreignUpgrade_verifies : ¬ ∀ (labels : List Action) (final : Verifier),
    Run Step Verifier.start labels final → Honest final := by
  intro honest
  obtain ⟨final, run, latest, -, known⟩ := run_verification 2
  have plain : Run Step Verifier.start (verification 2) final :=
    run.mono fun _ _ _ taken => taken.1
  have upgraded := plain.snoc (.event foreignUpgrade true)
  have detected : detectUpgrade foreignUpgrade.changes = some ⟨3, 2⟩ := by decide
  have foreign : upgradeOf foreignUpgrade.changes "A" = none := by decide
  have recorded : ((final.processEvent foreignUpgrade true).seeEvent foreignUpgrade).recordedHash
      "A" = some 2 := by
    rw [Verifier.processEvent, detected]
    exact Kept.recordedHash_recordOnChainHash "A" "A" 2 (some 7)
  have still : ((final.processEvent foreignUpgrade true).seeEvent foreignUpgrade).latest "A" =
      some (checked 2) := by
    rw [Verifier.processEvent, detected]
    exact latest
  obtain ⟨row, built, found, builtHash, newest⟩ := honest _ _ upgraded "A" (by
    rw [Verifier.getCodeVerification, still, recorded]
    decide)
  cases still.symm.trans found
  rw [known_seeEvent, foreign, Verifier.processEvent, detected] at newest
  cases newest.symm.trans known
  cases builtHash

end CodeVerification

end SorobanExplorer.Indexer
