import Mathlib.Algebra.Order.Field.Rat
import Mathlib.Tactic.NormNum
import SorobanExplorer.Library.Run
import SorobanExplorer.Library.Utf16

/-!
Owns the registry moderation workflow: submissions, user reports, moderator actions and appeals,
with every statement of a call as one step.

Which moderator action is in force for a contract, and whose reports were open when a contract was
escalated, is recorded beside the tables; no statement reads it. Times are seconds. Weights and their sums
are exact here, while the `REAL` columns round them.
-/

namespace SorobanExplorer.Indexer

open Library

namespace Moderation

abbrev ContractId := String

abbrev Submitter := String

/-- The id of an API key, or `ip:` and an address. -/
abbrev Reporter := String

abbrev AppealId := ℕ

abbrev CallId := ℕ

inductive Status where
  | published
  | pending
  | held
  | hidden
  | rejected
deriving DecidableEq, Repr

def HIDDEN_STATUSES : List Status := [.held, .hidden, .rejected]

def REPORT_REASONS : List String :=
  ["impersonation", "phishing", "offensive", "spam", "incorrect_abi", "other"]

inductive ModeratorAction where
  | approve
  | reject
  | hide
  | ban
deriving DecidableEq, Repr

/-- `ACTION_STATUS` -/
def ModeratorAction.status : ModeratorAction → Status
  | .approve => .published
  | .reject => .rejected
  | .hide => .hidden
  | .ban => .rejected

theorem status_hidden {action : ModeratorAction} (against : action ≠ .approve) :
    action.status ∈ HIDDEN_STATUSES := by
  cases action with
  | approve => exact absurd rfl against
  | reject | hide | ban => decide

/-! ### Risk scores -/

def MEDIUM : ℕ := 30

def HIGH : ℕ := 60

structure Submission where
  /-- a known token in the name -/
  impersonated : Bool
  /-- a match of `IMPERSONATION_WORDS` in the name -/
  wording : Bool
  /-- the highest `urlRisk` of the links, 0 without any -/
  worst : ℕ
  abiMismatches : ℕ
  ownershipVerified : Bool

/-- The answer of `getModerationContext`. -/
structure Context where
  priorRejections : ℕ
  priorApproved : ℕ
  recentSubmissions : ℕ
  banned : Bool

def signalPoints (submission : Submission) (context : Context) : ℕ :=
  (if context.banned then 100 else 0) +
  (if submission.impersonated ∧ ¬ submission.ownershipVerified then 35 else 0) +
  (if submission.wording ∧ ¬ submission.ownershipVerified then 30 else 0) +
  (if 50 ≤ submission.worst then HIGH else min submission.worst 45) +
  min (10 * submission.abiMismatches) 40 +
  min (20 * context.priorRejections) 40 +
  (if 10 < context.recentSubmissions then 30 else if 3 < context.recentSubmissions then 10 else 0)

def score (submission : Submission) (context : Context) : ℕ :=
  let points := signalPoints submission context
  min 100 (if 3 ≤ context.priorApproved ∧ context.priorRejections = 0 then points - 10 else points)

def scoreStatus (score : ℕ) : Status :=
  if HIGH ≤ score then .held else if MEDIUM ≤ score then .pending else .published

def scoreSubmission (submission : Submission) (context : Context) : Status :=
  scoreStatus (score submission context)

theorem scoreStatus_hidden {score : ℕ} : scoreStatus score ∈ HIDDEN_STATUSES ↔ HIGH ≤ score := by
  unfold scoreStatus
  split
  · next high => exact ⟨fun _ => high, fun _ => by decide⟩
  · next low => split <;> exact ⟨fun hidden => absurd hidden (by decide), fun high => absurd high low⟩

/-- No signal and no discount lets a banned submitter through. -/
theorem banned_held (submission : Submission) {context : Context} (banned : context.banned = true) :
    scoreSubmission submission context = .held := by
  have points : 100 ≤ signalPoints submission context := by
    unfold signalPoints
    rw [if_pos banned]
    omega
  have high : HIGH ≤ score submission context := by
    unfold score HIGH
    dsimp only
    split <;> omega
  exact if_pos high

/-! ### Reports -/

def MAX_REPORTS_PER_HOUR : ℕ := 5

def REPORT_ESCALATION_THRESHOLD : ℚ := 5

/-- A row of `moderation_reporters`. -/
structure Reputation where
  upheld : ℕ
  dismissed : ℕ

def reporterWeight (reputation : Reputation) : ℚ :=
  max (1 / 10) (min 3 ((1 + reputation.upheld) / (1 + reputation.dismissed)))

theorem reporterWeight_le (reputation : Reputation) : reporterWeight reputation ≤ 3 :=
  max_le (by norm_num) (min_le_left _ _)

/-- A row of `moderation_reports`. -/
structure Report where
  contract : ContractId
  reporter : Reporter
  reason : String
  weight : ℚ
  resolved : Bool
  createdAt : ℕ

/-! ### Tables and calls -/

/-- A row of `contracts`. -/
structure Contract where
  id : ContractId
  registeredBy : Option Submitter
  registeredByKeyId : Option Submitter
  status : Status
  createdAt : ℕ

/-- `registered_by_key_id ?? registered_by` -/
def Contract.submitter (contract : Contract) : Option Submitter :=
  contract.registeredByKeyId <|> contract.registeredBy

/-- A row of `moderation_appeals`, and its place among the moderator actions. -/
structure Appeal where
  contract : ContractId
  submitter : Submitter
  isOpen : Bool
  filedAt : ℕ

/-- How far a call of `reportContract` is. -/
inductive ReportStage where
  /-- `getContractMeta` found the contract -/
  | met
  /-- below the hourly limit, with the weight of the reporter -/
  | rated (weight : ℚ)
  /-- no open report of the reporter -/
  | cleared (weight : ℚ)
  | inserted
  /-- the total of the open reports -/
  | summed (total : ℚ)

inductive Pending where
  /-- the submission is scored -/
  | evaluate (contract : ContractId) (score : ℕ)
  | report (contract : ContractId) (reporter : Reporter) (reason : String) (status : Status)
      (stage : ReportStage)
  | moderate (contract : ContractId) (action : ModeratorAction) (submitter : Option Submitter)
  /-- the status is written, and the open reports are to be resolved -/
  | resolve (contract : ContractId) (action : ModeratorAction) (submitter : Option Submitter)
  | ban (submitter : Submitter)
  | appeal (contract : ContractId) (submitter : Submitter)
  /-- the appeal is granted, and the status is to be written -/
  | publish (contract : ContractId) (filedAt : ℕ)

structure Registry where
  now : ℕ
  contracts : List Contract
  reports : List Report
  reputation : Reporter → Reputation
  banned : List Submitter
  appeals : AppealId → Option Appeal
  calls : CallId → Option Pending
  /-- the place of the moderator action that is in force -/
  sanctions : ContractId → Option ℕ
  /-- places of actions and appeals given out so far -/
  places : ℕ
  /-- the contracts escalated by reports, and whose reports were open then -/
  escalations : List (ContractId × List Reporter)

inductive Action where
  | tick (later : ℕ)
  | upsertContractMeta (contract : ContractId) (registeredBy keyId : Option Submitter)
  | setKeyId (contract : ContractId) (keyId : Submitter)
  | getModerationContext (call : CallId) (contract : ContractId) (submitter : Option Submitter)
      (submission : Submission)
  | evaluateSubmission (call : CallId)
  | startReport (call : CallId) (contract : ContractId) (reporter : Reporter) (reason : String)
  | getReporterStats (call : CallId)
  | hasOpenReport (call : CallId)
  | insertModerationReport (call : CallId)
  | sumReports (call : CallId)
  | escalate (call : CallId)
  | startModerate (call : CallId) (contract : ContractId) (action : ModeratorAction)
  | moderate (call : CallId)
  | resolveModerationReports (call : CallId)
  | banSubmitter (call : CallId)
  | startAppeal (call : CallId) (contract : ContractId) (submitter : Submitter) (message : String)
  | insertModerationAppeal (call : CallId) (appeal : AppealId)
  | decideModerationAppeal (call : CallId) (appeal : AppealId) (granted : Bool)
  | publish (call : CallId)
  | abort (call : CallId)

namespace Registry

def start : Registry where
  now := 0
  contracts := []
  reports := []
  reputation := fun _ => ⟨0, 0⟩
  banned := []
  appeals := fun _ => none
  calls := fun _ => none
  sanctions := fun _ => none
  places := 0
  escalations := []

def setCall (registry : Registry) (call : CallId) (pending : Option Pending) : Registry :=
  { registry with calls := Function.update registry.calls call pending }

def getContractMeta (registry : Registry) (id : ContractId) : Option Contract :=
  registry.contracts.find? fun contract => contract.id = id

/-- `INSERT INTO contracts … ON CONFLICT (id) DO UPDATE SET …`, of columns that are not read here. -/
def upsertContractMeta (registry : Registry) (id : ContractId)
    (registeredBy keyId : Option Submitter) : Registry :=
  if (registry.getContractMeta id).isSome then registry
  else { registry with
    contracts := registry.contracts ++ [⟨id, registeredBy, keyId, .published, registry.now⟩] }

def updateContract (registry : Registry) (id : ContractId) (change : Contract → Contract) :
    Registry :=
  { registry with
    contracts := registry.contracts.map fun contract =>
      if contract.id = id then change contract else contract }

/-- `UPDATE contracts SET registered_by_key_id = $1 WHERE id = $2` -/
def setKeyId (registry : Registry) (id : ContractId) (keyId : Submitter) : Registry :=
  registry.updateContract id fun contract => { contract with registeredByKeyId := some keyId }

/-- `UPDATE contracts SET moderation_status = $2 … WHERE id = $1` -/
def setContractModeration (registry : Registry) (id : ContractId) (status : Status) : Registry :=
  registry.updateContract id fun contract => { contract with status }

def registrations (registry : Registry) (submitter : Submitter) : List Contract :=
  registry.contracts.filter fun contract =>
    contract.registeredByKeyId = some submitter ∨ contract.registeredBy = some submitter

def getModerationContext (registry : Registry) (submitter : Submitter) : Context where
  priorRejections := (registry.registrations submitter).countP
    fun contract => contract.status = .rejected ∨ contract.status = .hidden
  priorApproved := (registry.registrations submitter).countP
    fun contract => contract.status = .published
  recentSubmissions := (registry.registrations submitter).countP
    fun contract => registry.now < contract.createdAt + 3600
  banned := submitter ∈ registry.banned

/-- `created_at > now() - interval '1 hour'` -/
def recent (registry : Registry) (reporter : Reporter) : List Report :=
  registry.reports.filter fun report =>
    report.reporter = reporter ∧ registry.now < report.createdAt + 3600

def openReports (registry : Registry) (contract : ContractId) : List Report :=
  registry.reports.filter fun report => report.contract = contract ∧ report.resolved = false

def openReportsOf (registry : Registry) (contract : ContractId) (reporter : Reporter) :
    List Report :=
  (registry.openReports contract).filter fun report => report.reporter = reporter

def insertReport (registry : Registry) (contract : ContractId) (reporter : Reporter)
    (reason : String) (weight : ℚ) : Registry :=
  { registry with
    reports := registry.reports ++ [⟨contract, reporter, reason, weight, false, registry.now⟩] }

def resolveReports (registry : Registry) (contract : ContractId) (upheld : Bool) : Registry :=
  { registry with
    reports := registry.reports.map fun report =>
      if report.contract = contract ∧ report.resolved = false then { report with resolved := true }
      else report
    reputation := fun reporter =>
      let closed := (registry.openReportsOf contract reporter).length
      let reputation := registry.reputation reporter
      if upheld then { reputation with upheld := reputation.upheld + closed }
      else { reputation with dismissed := reputation.dismissed + closed } }

/-- `INSERT INTO moderation_banned_submitters … ON CONFLICT (submitter) DO NOTHING` -/
def ban (registry : Registry) (submitter : Submitter) : Registry :=
  { registry with banned := registry.banned.insert submitter }

/-- A moderator's write of the status: an approval ends what is in force, and any other action
is in force from now on. -/
def moderate (registry : Registry) (contract : ContractId) (action : ModeratorAction) : Registry :=
  { registry.setContractModeration contract action.status with
    sanctions := Function.update registry.sanctions contract
      (if action = .approve then none else some registry.places)
    places := registry.places + 1 }

def insertAppeal (registry : Registry) (id : AppealId) (contract : ContractId)
    (submitter : Submitter) : Registry :=
  { registry with
    appeals := Function.update registry.appeals id
      (some ⟨contract, submitter, true, registry.places⟩)
    places := registry.places + 1 }

def closeAppeal (registry : Registry) (id : AppealId) (appeal : Appeal) : Registry :=
  { registry with
    appeals := Function.update registry.appeals id (some { appeal with isOpen := false }) }

def publish (registry : Registry) (contract : ContractId) (filedAt : ℕ) : Registry :=
  { registry.setContractModeration contract .published with
    sanctions := Function.update registry.sanctions contract
      ((registry.sanctions contract).filter fun place => filedAt ≤ place) }

def escalate (registry : Registry) (contract : ContractId) : Registry :=
  { registry.setContractModeration contract .held with
    escalations := registry.escalations ++
      [(contract, (registry.openReports contract).map Report.reporter)] }

/-- What is left of a call of `moderate` after the reports are resolved. -/
def afterResolve (action : ModeratorAction) (submitter : Option Submitter) : Option Pending :=
  if action = .ban then submitter.map Pending.ban else none

/-- The statements. A call ends early where it throws, and any statement may fail: `abort`. -/
inductive Step : Registry → Action → Registry → Prop
  | tick {registry : Registry} (later : ℕ) (forward : registry.now ≤ later) :
      Step registry (.tick later) { registry with now := later }
  | upsertContractMeta {registry : Registry} (contract : ContractId)
      (registeredBy keyId : Option Submitter) :
      Step registry (.upsertContractMeta contract registeredBy keyId)
        (registry.upsertContractMeta contract registeredBy keyId)
  | setKeyId {registry : Registry} (contract : ContractId) (keyId : Submitter) :
      Step registry (.setKeyId contract keyId) (registry.setKeyId contract keyId)
  | getModerationContext {registry : Registry} (call : CallId) (contract : ContractId)
      (submitter : Option Submitter) (submission : Submission)
      (unused : registry.calls call = none) :
      Step registry (.getModerationContext call contract submitter submission)
        (registry.setCall call (some (.evaluate contract
          (score submission (registry.getModerationContext (submitter.getD ""))))))
  | evaluateSubmission {registry : Registry} (call : CallId) {contract : ContractId} {score : ℕ}
      (pending : registry.calls call = some (.evaluate contract score)) :
      Step registry (.evaluateSubmission call)
        ((registry.setCall call none).setContractModeration contract (scoreStatus score))
  | startReport {registry : Registry} (call : CallId) (contract : ContractId) (reporter : Reporter)
      (reason : String) {row : Contract} (unused : registry.calls call = none)
      (known : reason ∈ REPORT_REASONS) (found : registry.getContractMeta contract = some row) :
      Step registry (.startReport call contract reporter reason)
        (registry.setCall call (some (.report contract reporter reason row.status .met)))
  | getReporterStats {registry : Registry} (call : CallId) {contract : ContractId}
      {reporter : Reporter} {reason : String} {status : Status}
      (pending : registry.calls call = some (.report contract reporter reason status .met))
      (few : (registry.recent reporter).length < MAX_REPORTS_PER_HOUR) :
      Step registry (.getReporterStats call)
        (registry.setCall call (some (.report contract reporter reason status
          (.rated (reporterWeight (registry.reputation reporter))))))
  | hasOpenReport {registry : Registry} (call : CallId) {contract : ContractId}
      {reporter : Reporter} {reason : String} {status : Status} {weight : ℚ}
      (pending : registry.calls call =
        some (.report contract reporter reason status (.rated weight)))
      (unreported : registry.openReportsOf contract reporter = []) :
      Step registry (.hasOpenReport call)
        (registry.setCall call (some (.report contract reporter reason status (.cleared weight))))
  | insertModerationReport {registry : Registry} (call : CallId) {contract : ContractId}
      {reporter : Reporter} {reason : String} {status : Status} {weight : ℚ}
      (pending : registry.calls call =
        some (.report contract reporter reason status (.cleared weight))) :
      Step registry (.insertModerationReport call)
        ((registry.setCall call (some (.report contract reporter reason status .inserted))).insertReport
          contract reporter reason weight)
  | sumReports {registry : Registry} (call : CallId) {contract : ContractId}
      {reporter : Reporter} {reason : String} {status : Status}
      (pending : registry.calls call = some (.report contract reporter reason status .inserted)) :
      Step registry (.sumReports call)
        (registry.setCall call (some (.report contract reporter reason status
          (.summed ((registry.openReports contract).map Report.weight).sum))))
  | escalate {registry : Registry} (call : CallId) {contract : ContractId} {reporter : Reporter}
      {reason : String} {status : Status} {total : ℚ}
      (pending : registry.calls call =
        some (.report contract reporter reason status (.summed total)))
      (heavy : REPORT_ESCALATION_THRESHOLD ≤ total)
      (listed : status = .published ∨ status = .pending) :
      Step registry (.escalate call) ((registry.setCall call none).escalate contract)
  | startModerate {registry : Registry} (call : CallId) (contract : ContractId)
      (action : ModeratorAction) {row : Contract} (unused : registry.calls call = none)
      (found : registry.getContractMeta contract = some row) :
      Step registry (.startModerate call contract action)
        (registry.setCall call (some (.moderate contract action row.submitter)))
  | moderate {registry : Registry} (call : CallId) {contract : ContractId}
      {action : ModeratorAction} {submitter : Option Submitter}
      (pending : registry.calls call = some (.moderate contract action submitter)) :
      Step registry (.moderate call)
        ((registry.setCall call (some (.resolve contract action submitter))).moderate contract
          action)
  | resolveModerationReports {registry : Registry} (call : CallId) {contract : ContractId}
      {action : ModeratorAction} {submitter : Option Submitter}
      (pending : registry.calls call = some (.resolve contract action submitter)) :
      Step registry (.resolveModerationReports call)
        ((registry.setCall call (afterResolve action submitter)).resolveReports contract
          (action ≠ .approve))
  | banSubmitter {registry : Registry} (call : CallId) {submitter : Submitter}
      (pending : registry.calls call = some (.ban submitter)) :
      Step registry (.banSubmitter call) ((registry.setCall call none).ban submitter)
  | startAppeal {registry : Registry} (call : CallId) (contract : ContractId)
      (submitter : Submitter) (message : String) {row : Contract}
      (unused : registry.calls call = none) (long : 10 ≤ (Utf16.encode message.toList).length)
      (found : registry.getContractMeta contract = some row)
      (owner : submitter ≠ "" ∧ row.submitter.getD "" = submitter)
      (moderated : row.status ∈ HIDDEN_STATUSES) :
      Step registry (.startAppeal call contract submitter message)
        (registry.setCall call (some (.appeal contract submitter)))
  | insertModerationAppeal {registry : Registry} (call : CallId) (appeal : AppealId)
      {contract : ContractId} {submitter : Submitter}
      (pending : registry.calls call = some (.appeal contract submitter))
      (fresh : registry.appeals appeal = none) :
      Step registry (.insertModerationAppeal call appeal)
        ((registry.setCall call none).insertAppeal appeal contract submitter)
  | decideModerationAppeal {registry : Registry} (call : CallId) (id : AppealId) (granted : Bool)
      {appeal : Appeal} (unused : registry.calls call = none)
      (found : registry.appeals id = some appeal) (undecided : appeal.isOpen = true) :
      Step registry (.decideModerationAppeal call id granted)
        ((registry.setCall call
          (if granted then some (.publish appeal.contract appeal.filedAt) else none)).closeAppeal
            id appeal)
  | publish {registry : Registry} (call : CallId) {contract : ContractId} {filedAt : ℕ}
      (pending : registry.calls call = some (.publish contract filedAt)) :
      Step registry (.publish call) ((registry.setCall call none).publish contract filedAt)
  | abort {registry : Registry} (call : CallId) :
      Step registry (.abort call) (registry.setCall call none)

theorem deterministic : Deterministic Step := by
  intro registry action first second one two
  cases one with
  | evaluateSubmission call pending | getReporterStats call pending
  | hasOpenReport call pending | insertModerationReport call pending | sumReports call pending
  | escalate call pending | moderate call pending | resolveModerationReports call pending
  | banSubmitter call pending | publish call pending =>
    cases two
    rename_i other
    cases pending.symm.trans other
    rfl
  | insertModerationAppeal call appeal pending =>
    cases two
    rename_i other _
    cases pending.symm.trans other
    rfl
  | startReport call contract reporter reason unused known found =>
    cases two
    rename_i other _
    cases found.symm.trans other
    rfl
  | startModerate call contract action unused found
  | decideModerationAppeal call id granted unused found =>
    cases two
    rename_i other
    cases found.symm.trans other
    rfl
  | _ =>
    cases two
    rfl

end Registry

end Moderation

end SorobanExplorer.Indexer
