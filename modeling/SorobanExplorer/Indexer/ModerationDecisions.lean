import SorobanExplorer.Indexer.ModerationService
import SorobanExplorer.Library.Slots

/-!
Owns what becomes of a moderator's decision: the status writes of submissions, reports, moderator
actions and appeals in any order.

`reportContract` escalates only what it found listed, and `decideModerationAppeal` closes an appeal
only once. The writes of `evaluateSubmission` and `decideAppeal` look at nothing.
-/

namespace SorobanExplorer.Indexer.Moderation.Registry

open Library

def statusOf (registry : Registry) (id : ContractId) : Option Status :=
  (registry.getContractMeta id).map Contract.status

def Upheld (registry : Registry) : Prop :=
  ∀ contract, registry.sanctions contract ≠ none →
    ∃ status ∈ HIDDEN_STATUSES, registry.statusOf contract = some status

/-- Against an action in force, a submission is written only with a high score, and a grant only
for an appeal that was filed after the action. -/
def Respects (registry : Registry) : Action → Prop
  | .evaluateSubmission call => ∀ contract score,
      registry.calls call = some (.evaluate contract score) →
        registry.sanctions contract ≠ none → HIGH ≤ score
  | .publish call => ∀ contract filedAt place,
      registry.calls call = some (.publish contract filedAt) →
        registry.sanctions contract = some place → place < filedAt
  | _ => True

variable {registry before after : Registry} {action : Action} {id : ContractId}

/-! ### Statuses after the writes -/

theorem getContractMeta_updateContract (registry : Registry) (id other : ContractId)
    {change : Contract → Contract} (keeps : ∀ contract, (change contract).id = contract.id) :
    (registry.updateContract id change).getContractMeta other =
      (registry.getContractMeta other).map fun contract =>
        if contract.id = id then change contract else contract := by
  unfold getContractMeta updateContract
  rw [List.find?_map]
  congr 2
  funext contract
  dsimp only [Function.comp]
  split
  · rw [keeps]
  · rfl

theorem id_eq_of_found {contract : Contract} (found : registry.getContractMeta id = some contract) :
    contract.id = id :=
  of_decide_eq_true (List.find?_some (p := fun contract : Contract => contract.id = id) found)

theorem statusOf_setContractModeration (registry : Registry) (id other : ContractId)
    (status : Status) :
    (registry.setContractModeration id status).statusOf other =
      if other = id then (registry.statusOf other).map fun _ => status
      else registry.statusOf other := by
  unfold statusOf setContractModeration
  rw [getContractMeta_updateContract registry id other (by exact fun _ => rfl)]
  cases found : registry.getContractMeta other with
  | none => simp
  | some contract =>
    have same := id_eq_of_found found
    subst same
    dsimp only [Option.map_some]
    split <;> rfl

theorem statusOf_setKeyId (registry : Registry) (id other : ContractId) (keyId : Submitter) :
    (registry.setKeyId id keyId).statusOf other = registry.statusOf other := by
  unfold statusOf setKeyId
  rw [getContractMeta_updateContract registry id other (by exact fun _ => rfl), Option.map_map]
  congr 1
  funext contract
  dsimp only [Function.comp]
  split <;> rfl

theorem statusOf_upsertContractMeta {other : ContractId} {status : Status}
    (registeredBy keyId : Option Submitter) (found : registry.statusOf other = some status) :
    (registry.upsertContractMeta id registeredBy keyId).statusOf other = some status := by
  unfold upsertContractMeta
  split
  · exact found
  · obtain ⟨contract, present, rfl⟩ := Option.map_eq_some_iff.mp found
    unfold getContractMeta at present
    simp only [statusOf, getContractMeta, List.find?_append, present, Option.some_or,
      Option.map_some]

/-! ### The invariant -/

def Known (registry : Registry) : Pending → Prop
  | .moderate contract _ _ => registry.statusOf contract ≠ none
  | _ => True

structure Kept (registry : Registry) : Prop where
  upheld : registry.Upheld
  known : ∀ call pending, registry.calls call = some pending → registry.Known pending

theorem kept_start : start.Kept :=
  ⟨fun _ acted => absurd rfl acted, fun _ _ pending => nomatch pending⟩

theorem Known.mono {pending : Pending} (known : before.Known pending)
    (stays : ∀ contract, before.statusOf contract ≠ none → after.statusOf contract ≠ none) :
    after.Known pending := by
  cases pending with
  | moderate contract action submitter => exact stays contract known
  | _ => trivial

namespace Kept

theorem setCall (kept : registry.Kept) (call : CallId) {pending : Option Pending}
    (known : ∀ next, pending = some next → registry.Known next) :
    (registry.setCall call pending).Kept :=
  ⟨kept.upheld, forall_update kept.known known⟩

theorem setNone (kept : registry.Kept) (call : CallId) : (registry.setCall call none).Kept :=
  kept.setCall call fun _ same => nomatch same

theorem setSome (kept : registry.Kept) (call : CallId) (pending : Pending)
    (known : registry.Known pending) : (registry.setCall call (some pending)).Kept := by
  refine kept.setCall call fun next same => ?_
  cases same
  exact known

theorem setContractModeration (kept : registry.Kept) {status : Status}
    (sanctions : ContractId → Option ℕ) (places : ℕ)
    (escalations : List (ContractId × List Reporter))
    (others : ∀ other, other ≠ id → sanctions other = registry.sanctions other)
    (hidden : sanctions id ≠ none → status ∈ HIDDEN_STATUSES ∧ registry.statusOf id ≠ none) :
    ({ registry.setContractModeration id status with sanctions, places, escalations } :
      Registry).Kept := by
  refine ⟨?_, ?_⟩
  · intro contract acted
    change ∃ next ∈ HIDDEN_STATUSES,
      (registry.setContractModeration id status).statusOf contract = some next
    rw [statusOf_setContractModeration]
    split
    · next same =>
        subst same
        have ⟨isHidden, present⟩ := hidden acted
        obtain ⟨old, found⟩ := Option.ne_none_iff_exists'.mp present
        exact ⟨status, isHidden, by rw [found, Option.map_some]⟩
    · next differs => exact kept.upheld contract (others contract differs ▸ acted)
  · intro call pending found
    refine (kept.known call pending found).mono fun contract present => ?_
    change (registry.setContractModeration id status).statusOf contract ≠ none
    rw [statusOf_setContractModeration]
    split
    · exact mt Option.map_eq_none_iff.mp present
    · exact present

theorem upsertContractMeta (kept : registry.Kept) (registeredBy keyId : Option Submitter) :
    (registry.upsertContractMeta id registeredBy keyId).Kept := by
  have sanctions : (registry.upsertContractMeta id registeredBy keyId).sanctions =
      registry.sanctions := by
    unfold Registry.upsertContractMeta
    split <;> rfl
  have calls : (registry.upsertContractMeta id registeredBy keyId).calls = registry.calls := by
    unfold Registry.upsertContractMeta
    split <;> rfl
  refine ⟨?_, ?_⟩
  · intro contract acted
    rw [sanctions] at acted
    obtain ⟨status, hidden, found⟩ := kept.upheld contract acted
    exact ⟨status, hidden, statusOf_upsertContractMeta registeredBy keyId found⟩
  · intro call pending running
    rw [calls] at running
    refine (kept.known call pending running).mono fun contract present => ?_
    obtain ⟨status, found⟩ := Option.ne_none_iff_exists'.mp present
    rw [statusOf_upsertContractMeta registeredBy keyId found]
    exact Option.some_ne_none _

theorem setKeyId (kept : registry.Kept) (keyId : Submitter) : (registry.setKeyId id keyId).Kept := by
  refine ⟨?_, ?_⟩
  · intro contract acted
    rw [statusOf_setKeyId]
    exact kept.upheld contract acted
  · intro call pending running
    refine (kept.known call pending running).mono fun contract present => ?_
    rw [statusOf_setKeyId]
    exact present

theorem moderate (kept : registry.Kept) {action : ModeratorAction}
    (present : registry.statusOf id ≠ none) : (registry.moderate id action).Kept := by
  refine kept.setContractModeration _ _ registry.escalations (fun _ differs => Function.update_of_ne differs _ _) ?_
  intro acted
  rw [Function.update_self] at acted
  split at acted
  · exact absurd rfl acted
  · next against => exact ⟨status_hidden against, present⟩

theorem publish (kept : registry.Kept) {filedAt : ℕ}
    (later : ∀ place, registry.sanctions id = some place → place < filedAt) :
    (registry.publish id filedAt).Kept := by
  refine kept.setContractModeration _ _ registry.escalations (fun _ differs => Function.update_of_ne differs _ _) ?_
  intro acted
  rw [Function.update_self] at acted
  obtain ⟨place, found⟩ := Option.ne_none_iff_exists'.mp acted
  obtain ⟨inForce, atLeast⟩ := Option.filter_eq_some_iff.mp found
  exact absurd (later place inForce) (Nat.not_lt.mpr (of_decide_eq_true atLeast))

theorem step (kept : before.Kept) (respects : before.Respects action)
    (taken : Step before action after) : after.Kept := by
  cases taken with
  | tick later forward => exact ⟨kept.upheld, kept.known⟩
  | upsertContractMeta contract registeredBy keyId => exact kept.upsertContractMeta _ _
  | setKeyId contract keyId => exact kept.setKeyId keyId
  | @evaluateSubmission call contract score pending =>
    refine (kept.setNone call).setContractModeration before.sanctions before.places
      before.escalations (fun _ _ => rfl) fun acted => ?_
    have high := respects contract score pending acted
    obtain ⟨status, -, found⟩ := kept.upheld contract acted
    exact ⟨scoreStatus_hidden.mpr high, fun missing => nomatch found.symm.trans missing⟩
  | escalate call pending =>
    refine (kept.setNone call).setContractModeration before.sanctions before.places _
      (fun _ _ => rfl) fun acted => ?_
    obtain ⟨status, -, found⟩ := kept.upheld _ acted
    exact ⟨by decide, fun missing => nomatch found.symm.trans missing⟩
  | startModerate call contract action unused found =>
    refine kept.setSome call _ fun missing => ?_
    cases found.symm.trans (Option.map_eq_none_iff.mp missing)
  | @moderate call contract action submitter pending =>
    exact (kept.setSome call (.resolve contract action submitter) trivial).moderate
      (kept.known call _ pending)
  | @resolveModerationReports call contract action submitter pending =>
    have idle : (before.setCall call (afterResolve action submitter)).Kept := by
      unfold afterResolve
      split
      · cases submitter with
        | none => exact kept.setNone call
        | some submitter => exact kept.setSome call _ trivial
      · exact kept.setNone call
    exact ⟨idle.upheld, idle.known⟩
  | @decideModerationAppeal call id granted appeal =>
    have idle : (before.setCall call
        (if granted then some (.publish appeal.contract appeal.filedAt) else none)).Kept := by
      split
      · exact kept.setSome call _ trivial
      · exact kept.setNone call
    exact ⟨idle.upheld, idle.known⟩
  | @publish call contract filedAt pending =>
    exact (kept.setNone call).publish
      fun place inForce => respects contract filedAt place pending inForce
  | @insertModerationReport call contract reporter reason status =>
    have idle := kept.setSome call (.report contract reporter reason status .inserted) trivial
    exact ⟨idle.upheld, idle.known⟩
  | banSubmitter call | insertModerationAppeal call =>
    exact ⟨(kept.setNone call).upheld, (kept.setNone call).known⟩
  | abort call => exact kept.setNone call
  | getModerationContext call | startReport call | getReporterStats call | hasOpenReport call
  | sumReports call | startAppeal call => exact kept.setSome call _ trivial

end Kept

/-! ### Whole runs -/

theorem respects_of_upheld (taken : Step before action after)
    (upheld : after.Upheld) : before.Respects action := by
  cases taken with
  | @evaluateSubmission call contract score pending =>
    intro other value same acted
    cases pending.symm.trans same
    obtain ⟨status, hidden, found⟩ := upheld contract acted
    rw [statusOf_setContractModeration, if_pos rfl] at found
    obtain ⟨_, _, rfl⟩ := Option.map_eq_some_iff.mp found
    exact scoreStatus_hidden.mp hidden
  | @publish call contract filedAt pending =>
    intro other value place same inForce
    cases pending.symm.trans same
    by_contra early
    have stays : (before.sanctions contract).filter (fun place => filedAt ≤ place) ≠ none := by
      rw [inForce, Option.filter_some, if_pos (decide_eq_true (Nat.not_lt.mp early))]
      exact Option.some_ne_none _
    obtain ⟨status, hidden, found⟩ := upheld contract
      (by simpa only [publish, setCall, Function.update_self] using stays)
    change ((before.setCall call none).setContractModeration contract .published).statusOf
      contract = some status at found
    rw [statusOf_setContractModeration, if_pos rfl] at found
    obtain ⟨_, _, rfl⟩ := Option.map_eq_some_iff.mp found
    exact absurd hidden (by decide)
  | _ => trivial

/-- Along a run, what moderators acted against stays out of the listings exactly when every
submission and every grant respects the actions in force. -/
theorem upheld_iff_eachStep {actions : List Action} (run : Run Step start actions registry) :
    (Along Step start actions fun _ registry => registry.Upheld) ↔
      EachStep Step start actions Respects :=
  run.along_iff_eachStep deterministic (I := fun _ registry => registry.Kept) kept_start
    (fun _ _ _ kept => kept.upheld)
    (fun _ _ _ _ _ kept respects taken => kept.step respects taken)
    (fun _ _ _ _ _ _ taken upheld => respects_of_upheld taken upheld)

section OneContract

def message : String := "please look at it again"

def plain : Submission := ⟨false, false, 0, 0, false⟩

def suspicious : Submission := ⟨true, true, 0, 0, false⟩

def appealed : List Action :=
  [.upsertContractMeta "C" none (some "7"), .startModerate 0 "C" .hide, .moderate 0,
    .resolveModerationReports 0, .startAppeal 1 "C" "7" message, .insertModerationAppeal 1 0,
    .decideModerationAppeal 2 0 true, .publish 2]

def resubmitted : List Action :=
  [.upsertContractMeta "C" none (some "7"), .getModerationContext 0 "C" (some "7") plain,
    .startModerate 1 "C" .ban, .moderate 1, .resolveModerationReports 1, .banSubmitter 1,
    .evaluateSubmission 0]

def olderAppeal : List Action :=
  [.upsertContractMeta "C" none (some "7"), .getModerationContext 0 "C" (some "7") suspicious,
    .evaluateSubmission 0, .startAppeal 1 "C" "7" message, .insertModerationAppeal 1 0,
    .startModerate 2 "C" .reject, .moderate 2, .resolveModerationReports 2,
    .decideModerationAppeal 3 0 true, .publish 3]

theorem appealed_upheld : Along Step start appealed fun _ registry => registry.Upheld := by
  have empty : Run Step start [] start ∧ EachStep Step start [] Respects := ⟨Run.nil, EachStep.nil⟩
  have registered := EachStep.extend deterministic empty
    (show Respects _ (.upsertContractMeta "C" none (some "7")) from trivial)
    (.upsertContractMeta "C" none (some "7"))
  have found := EachStep.extend deterministic registered
    (show Respects _ (.startModerate 0 "C" .hide) from trivial) (.startModerate 0 "C" .hide rfl rfl)
  have hidden := EachStep.extend deterministic found
    (show Respects _ (.moderate 0) from trivial) (.moderate 0 rfl)
  have resolved := EachStep.extend deterministic hidden
    (show Respects _ (.resolveModerationReports 0) from trivial) (.resolveModerationReports 0 rfl)
  have met := EachStep.extend deterministic resolved
    (show Respects _ (.startAppeal 1 "C" "7" message) from trivial)
    (.startAppeal 1 "C" "7" message rfl (by decide) rfl (by decide) (by decide))
  have filed := EachStep.extend deterministic met
    (show Respects _ (.insertModerationAppeal 1 0) from trivial)
    (.insertModerationAppeal 1 0 rfl rfl)
  have granted := EachStep.extend deterministic filed
    (show Respects _ (.decideModerationAppeal 2 0 true) from trivial)
    (.decideModerationAppeal 2 0 true rfl rfl rfl)
  have published := EachStep.extend deterministic granted
    (show Respects _ (.publish 2) from by
      intro contract filedAt place pending inForce
      cases pending
      cases inForce
      decide)
    (.publish 2 rfl)
  exact (upheld_iff_eachStep published.1).mpr published.2

theorem banned_listed :
    (∃ registry, Run Step start resubmitted registry ∧ ¬ registry.Upheld) ∧
      ∃ registry, Run Step start olderAppeal registry ∧ ¬ registry.Upheld := by
  have registered : Run Step start [.upsertContractMeta "C" none (some "7")] _ :=
    Run.one (.upsertContractMeta "C" none (some "7"))
  have scored := registered.snoc (.getModerationContext 0 "C" (some "7") plain rfl)
  have found := scored.snoc (.startModerate 1 "C" .ban rfl rfl)
  have banned := found.snoc (.moderate 1 rfl)
  have resolved := banned.snoc (.resolveModerationReports 1 rfl)
  have barred := resolved.snoc (.banSubmitter 1 rfl)
  have relisted := barred.snoc (.evaluateSubmission 0 rfl)
  have suspected := registered.snoc (.getModerationContext 0 "C" (some "7") suspicious rfl)
  have held := suspected.snoc (.evaluateSubmission 0 rfl)
  have met := held.snoc (.startAppeal 1 "C" "7" message rfl (by decide) rfl (by decide) (by decide))
  have filed := met.snoc (.insertModerationAppeal 1 0 rfl rfl)
  have seen := filed.snoc (.startModerate 2 "C" .reject rfl rfl)
  have rejected := seen.snoc (.moderate 2 rfl)
  have closed := rejected.snoc (.resolveModerationReports 2 rfl)
  have granted := closed.snoc (.decideModerationAppeal 3 0 true rfl rfl rfl)
  have published := granted.snoc (.publish 3 rfl)
  refine ⟨⟨_, relisted, fun upheld => ?_⟩, ⟨_, published, fun upheld => ?_⟩⟩
  · obtain ⟨status, hidden, found⟩ := upheld "C" (by decide)
    cases found
    revert hidden
    decide
  · obtain ⟨status, hidden, found⟩ := upheld "C" (by decide)
    cases found
    revert hidden
    decide

end OneContract

end SorobanExplorer.Indexer.Moderation.Registry
