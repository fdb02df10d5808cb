import SorobanExplorer.Indexer.ModerationService
import SorobanExplorer.Library.Slots

/-!
Owns what reports can do: how many a reporter has open, how many they make in an hour, and whose
reports a contract is escalated by.

The checks of `reportContract` and its insert are separate statements, and the table has no
constraint. A moderator's decision closes the reports of a contract.
-/

namespace SorobanExplorer.Indexer.Moderation

open Library

def Several (reports : List Report) : Prop :=
  ∃ one ∈ reports, ∃ other ∈ reports, one.reporter ≠ other.reporter

theorem Several.mono {before after : List Report} (several : Several before)
    (stays : ∀ report ∈ before, report ∈ after) : Several after := by
  obtain ⟨one, first, other, second, differ⟩ := several
  exact ⟨one, stays one first, other, stays other second, differ⟩

namespace Registry

/-- No reporter has two open reports for a contract or too many reports within an hour, and no
contract was escalated by the reports of one reporter. -/
structure Sound (registry : Registry) : Prop where
  single : ∀ contract reporter, (registry.openReportsOf contract reporter).length ≤ 1
  few : ∀ reporter, (registry.recent reporter).length ≤ MAX_REPORTS_PER_HOUR
  supported : ∀ escalation ∈ registry.escalations,
    ∃ one ∈ escalation.2, ∃ other ∈ escalation.2, one ≠ other

/-- What `getReporterStats` and `hasOpenReport` found is still so when the report is inserted, and
reports are not closed between the sum and the escalation of another call. -/
def Checked (registry : Registry) : Action → Prop
  | .insertModerationReport call => ∀ contract reporter reason status weight,
      registry.calls call = some (.report contract reporter reason status (.cleared weight)) →
        registry.openReportsOf contract reporter = [] ∧
          (registry.recent reporter).length < MAX_REPORTS_PER_HOUR
  | .resolveModerationReports call => ∀ contract action submitter,
      registry.calls call = some (.resolve contract action submitter) →
        ∀ other reporter reason status total,
          registry.calls other = some (.report contract reporter reason status (.summed total)) →
            total < REPORT_ESCALATION_THRESHOLD
  | _ => True

variable {registry before after : Registry} {action : Action} {id contract : ContractId}
  {reporter : Reporter}

/-- What a call of `reportContract` knows. -/
def Weighed (registry : Registry) : Pending → Prop
  | .report _ _ _ _ (.rated weight) => weight ≤ 3
  | .report _ _ _ _ (.cleared weight) => weight ≤ 3
  | .report contract _ _ _ (.summed total) =>
    REPORT_ESCALATION_THRESHOLD ≤ total → Several (registry.openReports contract)
  | _ => True

structure Balanced (registry : Registry) : Prop where
  sound : registry.Sound
  light : ∀ report ∈ registry.reports, report.weight ≤ 3
  weighed : ∀ call pending, registry.calls call = some pending → registry.Weighed pending

theorem balanced_start : start.Balanced where
  sound := ⟨fun _ _ => Nat.zero_le _, fun _ => Nat.zero_le _, fun _ member => nomatch member⟩
  light := fun _ member => nomatch member
  weighed := fun _ _ pending => nomatch pending

/-! ### Sums -/

theorem several_of_heavy (single : ∀ reporter, (registry.openReportsOf contract reporter).length ≤ 1)
    (light : ∀ report ∈ registry.reports, report.weight ≤ 3)
    (heavy : REPORT_ESCALATION_THRESHOLD ≤ ((registry.openReports contract).map Report.weight).sum) :
    Several (registry.openReports contract) := by
  cases reports : registry.openReports contract with
  | nil =>
    rw [reports] at heavy
    exact absurd heavy (by decide)
  | cons first rest =>
    by_contra alone
    have same : ∀ report ∈ first :: rest, report.reporter = first.reporter := by
      intro report member
      by_contra differs
      exact alone ⟨report, member, first, List.mem_cons_self, differs⟩
    have whole : registry.openReportsOf contract first.reporter = first :: rest := by
      unfold openReportsOf
      rw [reports]
      exact List.filter_eq_self.mpr fun report member => decide_eq_true (same report member)
    have short := single first.reporter
    rw [whole, List.length_cons] at short
    have empty : rest = [] := List.length_eq_zero_iff.mp (by omega)
    subst empty
    have weight : first.weight ≤ 3 := by
      apply light
      apply List.mem_of_mem_filter
      change first ∈ registry.openReports contract
      rw [reports]
      exact List.mem_cons_self
    rw [reports] at heavy
    simp only [List.map_cons, List.map_nil, List.sum_cons, List.sum_nil, add_zero,
      REPORT_ESCALATION_THRESHOLD] at heavy
    exact absurd (heavy.trans weight) (by norm_num)

/-! ### Counts of reports after the writes -/

theorem length_openReportsOf (registry : Registry) (id : ContractId) (reporter : Reporter) :
    (registry.openReportsOf id reporter).length = registry.reports.countP fun report =>
      report.reporter = reporter ∧ report.contract = id ∧ report.resolved = false := by
  unfold openReportsOf openReports
  rw [List.filter_filter, List.countP_eq_length_filter]
  congr 2
  funext report
  simp

theorem length_recent (registry : Registry) (reporter : Reporter) :
    (registry.recent reporter).length = registry.reports.countP fun report =>
      report.reporter = reporter ∧ registry.now < report.createdAt + 3600 :=
  (List.countP_eq_length_filter ..).symm

theorem mem_openReports {report : Report} : report ∈ registry.openReports id ↔
    report ∈ registry.reports ∧ report.contract = id ∧ report.resolved = false := by
  unfold openReports
  rw [List.mem_filter, decide_eq_true_iff]

theorem length_openReportsOf_insertReport (registry : Registry) (id : ContractId)
    (other : Reporter) (reason : String) (weight : ℚ) :
    ((registry.insertReport contract reporter reason weight).openReportsOf id other).length =
      (registry.openReportsOf id other).length +
        if reporter = other ∧ contract = id then 1 else 0 := by
  rw [length_openReportsOf, length_openReportsOf]
  simp only [insertReport, List.countP_append, List.countP_singleton, and_true, decide_eq_true_iff]

theorem length_recent_insertReport (registry : Registry) (other : Reporter) (reason : String)
    (weight : ℚ) :
    ((registry.insertReport contract reporter reason weight).recent other).length =
      (registry.recent other).length + if reporter = other then 1 else 0 := by
  rw [length_recent, length_recent]
  have now : registry.now < registry.now + 3600 := by omega
  simp only [insertReport, List.countP_append, List.countP_singleton, now, and_true,
    decide_eq_true_iff]
  congr

theorem length_openReportsOf_resolveReports (registry : Registry) (id : ContractId)
    (other : Reporter) (upheld : Bool) :
    ((registry.resolveReports contract upheld).openReportsOf id other).length ≤
      (registry.openReportsOf id other).length := by
  rw [length_openReportsOf, length_openReportsOf]
  unfold resolveReports
  rw [List.countP_map]
  refine List.countP_mono_left fun report _ counted => ?_
  dsimp only [Function.comp] at counted
  split at counted
  · simp at counted
  · exact counted

theorem length_recent_resolveReports (registry : Registry) (other : Reporter) (upheld : Bool) :
    ((registry.resolveReports contract upheld).recent other).length =
      (registry.recent other).length := by
  rw [length_recent, length_recent]
  unfold resolveReports
  rw [List.countP_map]
  congr 1
  funext report
  dsimp only [Function.comp]
  split <;> rfl

theorem mem_openReports_resolveReports {report : Report} (upheld : Bool) (differs : id ≠ contract)
    (member : report ∈ registry.openReports id) :
    report ∈ (registry.resolveReports contract upheld).openReports id := by
  obtain ⟨present, about, isOpen⟩ := mem_openReports.mp member
  refine mem_openReports.mpr ⟨List.mem_map.mpr ⟨report, present, if_neg ?_⟩, about, isOpen⟩
  exact fun closed => differs (about.symm.trans closed.1)

/-! ### What each statement keeps -/

theorem Weighed.mono {pending : Pending} (weighed : before.Weighed pending)
    (stays : ∀ contract reporter reason status total,
      pending = .report contract reporter reason status (.summed total) →
        REPORT_ESCALATION_THRESHOLD ≤ total →
          ∀ report ∈ before.openReports contract, report ∈ after.openReports contract) :
    after.Weighed pending := by
  cases pending with
  | report contract reporter reason status stage =>
    cases stage with
    | met | inserted => trivial
    | rated | cleared => exact weighed
    | summed total => exact fun heavy => (weighed heavy).mono (stays _ _ _ _ _ rfl heavy)
  | _ => trivial

namespace Balanced

theorem congr (balanced : before.Balanced) (now : after.now = before.now)
    (reports : after.reports = before.reports) (escalations : after.escalations = before.escalations)
    (calls : after.calls = before.calls) : after.Balanced := by
  have same : ∀ id, after.openReports id = before.openReports id := by
    intro id
    unfold openReports
    rw [reports]
  refine ⟨⟨?_, ?_, ?_⟩, ?_, ?_⟩
  · intro id reporter
    unfold openReportsOf
    rw [same]
    exact balanced.sound.single id reporter
  · intro reporter
    unfold recent
    rw [reports, now]
    exact balanced.sound.few reporter
  · rw [escalations]
    exact balanced.sound.supported
  · rw [reports]
    exact balanced.light
  · intro call pending running
    rw [calls] at running
    refine (balanced.weighed call pending running).mono fun contract _ _ _ _ _ _ report member => ?_
    rw [same]
    exact member

theorem setCall (balanced : registry.Balanced) (call : CallId) {pending : Option Pending}
    (weighed : ∀ next, pending = some next → registry.Weighed next) :
    (registry.setCall call pending).Balanced :=
  ⟨⟨balanced.sound.single, balanced.sound.few, balanced.sound.supported⟩, balanced.light,
    forall_update balanced.weighed weighed⟩

theorem setNone (balanced : registry.Balanced) (call : CallId) :
    (registry.setCall call none).Balanced :=
  balanced.setCall call fun _ same => nomatch same

theorem setSome (balanced : registry.Balanced) (call : CallId) (pending : Pending)
    (weighed : registry.Weighed pending) : (registry.setCall call (some pending)).Balanced := by
  refine balanced.setCall call fun next same => ?_
  cases same
  exact weighed

theorem tick (balanced : registry.Balanced) {later : ℕ} (forward : registry.now ≤ later) :
    ({ registry with now := later } : Registry).Balanced := by
  refine ⟨⟨balanced.sound.single, ?_, balanced.sound.supported⟩, balanced.light,
    balanced.weighed⟩
  intro reporter
  refine Nat.le_trans ?_ (balanced.sound.few reporter)
  rw [length_recent, length_recent]
  refine List.countP_mono_left fun report _ counted => ?_
  rw [decide_eq_true_iff] at counted ⊢
  exact ⟨counted.1, forward.trans_lt counted.2⟩

theorem upsertContractMeta (balanced : registry.Balanced) (registeredBy keyId : Option Submitter) :
    (registry.upsertContractMeta id registeredBy keyId).Balanced := by
  unfold Registry.upsertContractMeta
  split
  · exact balanced
  · exact balanced.congr rfl rfl rfl rfl

theorem insertReport (balanced : registry.Balanced) (reason : String) {weight : ℚ}
    (unreported : registry.openReportsOf contract reporter = [])
    (few : (registry.recent reporter).length < MAX_REPORTS_PER_HOUR) (light : weight ≤ 3) :
    (registry.insertReport contract reporter reason weight).Balanced := by
  refine ⟨⟨?_, ?_, balanced.sound.supported⟩, ?_, ?_⟩
  · intro id other
    rw [length_openReportsOf_insertReport]
    split
    · next same =>
        obtain ⟨rfl, rfl⟩ := same
        rw [unreported, List.length_nil]
    · exact balanced.sound.single id other
  · intro other
    rw [length_recent_insertReport]
    split
    · next same =>
        subst same
        exact few
    · exact balanced.sound.few other
  · intro report member
    obtain earlier | new := List.mem_append.mp member
    · exact balanced.light report earlier
    · cases List.mem_singleton.mp new
      exact light
  · intro call pending running
    refine (balanced.weighed call pending running).mono fun _ _ _ _ _ _ _ report member => ?_
    obtain ⟨present, isOpen⟩ := mem_openReports.mp member
    exact mem_openReports.mpr ⟨List.mem_append_left _ present, isOpen⟩

theorem resolveReports (balanced : registry.Balanced) (upheld : Bool)
    (idle : ∀ call reporter reason status total,
      registry.calls call = some (.report contract reporter reason status (.summed total)) →
        total < REPORT_ESCALATION_THRESHOLD) :
    (registry.resolveReports contract upheld).Balanced := by
  refine ⟨⟨?_, ?_, balanced.sound.supported⟩, ?_, ?_⟩
  · intro id other
    exact (length_openReportsOf_resolveReports registry id other upheld).trans
      (balanced.sound.single id other)
  · intro other
    rw [length_recent_resolveReports]
    exact balanced.sound.few other
  · intro report member
    obtain ⟨old, present, rfl⟩ := List.mem_map.mp member
    split <;> exact balanced.light old present
  · intro call pending running
    refine (balanced.weighed call pending running).mono
      fun id reporter reason status total same heavy report member => ?_
    refine mem_openReports_resolveReports upheld ?_ member
    rintro rfl
    subst same
    exact absurd heavy (not_le.mpr (idle call _ _ _ _ running))

theorem escalate (balanced : registry.Balanced)
    (several : Several (registry.openReports contract)) : (registry.escalate contract).Balanced := by
  refine ⟨⟨balanced.sound.single, balanced.sound.few, ?_⟩, balanced.light, balanced.weighed⟩
  intro escalation member
  obtain earlier | new := List.mem_append.mp member
  · exact balanced.sound.supported escalation earlier
  · cases List.mem_singleton.mp new
    obtain ⟨one, first, other, second, differ⟩ := several
    exact ⟨one.reporter, List.mem_map_of_mem first, other.reporter, List.mem_map_of_mem second,
      differ⟩

theorem step (balanced : before.Balanced) (checked : before.Checked action)
    (taken : Step before action after) : after.Balanced := by
  cases taken with
  | tick later forward => exact balanced.tick forward
  | upsertContractMeta contract registeredBy keyId => exact balanced.upsertContractMeta _ _
  | setKeyId => exact balanced.congr rfl rfl rfl rfl
  | @getReporterStats call contract reporter reason status =>
    exact balanced.setSome call (.report contract reporter reason status (.rated _))
      (reporterWeight_le _)
  | @hasOpenReport call contract reporter reason status weight pending =>
    have light : weight ≤ 3 := balanced.weighed call _ pending
    exact balanced.setSome call (.report contract reporter reason status (.cleared weight)) light
  | @insertModerationReport call contract reporter reason status weight pending =>
    have ⟨unreported, few⟩ := checked contract reporter reason status weight pending
    exact (balanced.setSome call (.report contract reporter reason status .inserted)
      trivial).insertReport reason unreported few (balanced.weighed call _ pending)
  | @sumReports call contract reporter reason status =>
    exact balanced.setSome call (.report contract reporter reason status (.summed _))
      (several_of_heavy (balanced.sound.single contract) balanced.light)
  | @escalate call contract reporter reason status total pending heavy =>
    exact (balanced.setNone call).escalate (balanced.weighed call _ pending heavy)
  | @moderate call contract action submitter =>
    exact (balanced.setSome call (.resolve contract action submitter) trivial).congr rfl rfl rfl rfl
  | @resolveModerationReports call contract action submitter pending =>
    have resolved := balanced.resolveReports (action ≠ .approve)
      (checked contract action submitter pending)
    have next : ((before.resolveReports contract (action ≠ .approve)).setCall call
        (afterResolve action submitter)).Balanced := by
      unfold afterResolve
      split
      · cases submitter with
        | none => exact resolved.setNone call
        | some submitter => exact resolved.setSome call _ trivial
      · exact resolved.setNone call
    exact next.congr rfl rfl rfl rfl
  | @decideModerationAppeal call id granted appeal =>
    have next : (before.setCall call
        (if granted then some (.publish appeal.contract appeal.filedAt) else none)).Balanced := by
      split
      · exact balanced.setSome call _ trivial
      · exact balanced.setNone call
    exact next.congr rfl rfl rfl rfl
  | evaluateSubmission call | banSubmitter call | insertModerationAppeal call | publish call =>
    exact (balanced.setNone call).congr rfl rfl rfl rfl
  | abort call => exact balanced.setNone call
  | getModerationContext call | startReport call | startModerate call | startAppeal call =>
    exact balanced.setSome call _ trivial

end Balanced

/-! ### Whole runs -/

/-- In every run whose inserts and closings are checked, reports keep to their limits and one
reporter alone escalates nothing. -/
theorem reports_sound_of_eachStep {actions : List Action}
    (checked : EachStep Step start actions Checked) :
    Along Step start actions fun _ registry => registry.Sound := by
  have balanced := checked.along (P := fun _ registry => registry.Balanced) balanced_start
    fun _ _ _ _ _ holds guard taken => holds.step guard taken
  exact fun history isPrefix registry run => (balanced history isPrefix registry run).sound

/-- An insert that keeps the limits was checked. -/
theorem checked_of_sound {call : CallId} (sound : after.Sound)
    (taken : Step before (.insertModerationReport call) after) :
    before.Checked (.insertModerationReport call) := by
  cases taken with
  | @insertModerationReport call contract reporter reason status weight pending =>
    intro id other why known light same
    cases pending.symm.trans same
    have single := sound.single contract reporter
    have few := sound.few reporter
    rw [length_openReportsOf_insertReport, if_pos ⟨rfl, rfl⟩] at single
    rw [length_recent_insertReport, if_pos rfl] at few
    exact ⟨List.length_eq_zero_iff.mp (Nat.le_zero.mp (Nat.le_of_succ_le_succ single)), few⟩

section OneContract

def reported : List Action :=
  [.upsertContractMeta "C" none none, .startReport 0 "C" "a" "spam", .getReporterStats 0,
    .hasOpenReport 0, .insertModerationReport 0, .sumReports 0, .startReport 1 "C" "b" "phishing",
    .getReporterStats 1, .hasOpenReport 1, .insertModerationReport 1, .sumReports 1]

def brigade : List Action :=
  .upsertContractMeta "C" none none ::
    ((List.range 5).flatMap fun call =>
      [.startReport call "C" "a" "spam", .getReporterStats call, .hasOpenReport call]) ++
    (List.range 5).map .insertModerationReport ++ [.sumReports 4, .escalate 4]

theorem reported_sound : (∃ registry, Run Step start reported registry) ∧
    Along Step start reported fun _ registry => registry.Sound := by
  have empty : Run Step start [] start ∧ EachStep Step start [] Checked := ⟨Run.nil, EachStep.nil⟩
  have registered := EachStep.extend deterministic empty
    (show Checked _ (.upsertContractMeta "C" none none) from trivial)
    (.upsertContractMeta "C" none none)
  have met := EachStep.extend deterministic registered
    (show Checked _ (.startReport 0 "C" "a" "spam") from trivial)
    (.startReport 0 "C" "a" "spam" rfl (by decide) rfl)
  have rated := EachStep.extend deterministic met
    (show Checked _ (.getReporterStats 0) from trivial) (.getReporterStats 0 rfl (by decide))
  have cleared := EachStep.extend deterministic rated
    (show Checked _ (.hasOpenReport 0) from trivial) (.hasOpenReport 0 rfl (by decide))
  have inserted := EachStep.extend deterministic cleared
    (show Checked _ (.insertModerationReport 0) from by
      intro contract reporter reason status weight pending
      cases pending
      exact ⟨by decide, by decide⟩)
    (.insertModerationReport 0 rfl)
  have summed := EachStep.extend deterministic inserted
    (show Checked _ (.sumReports 0) from trivial) (.sumReports 0 rfl)
  have metAgain := EachStep.extend deterministic summed
    (show Checked _ (.startReport 1 "C" "b" "phishing") from trivial)
    (.startReport 1 "C" "b" "phishing" rfl (by decide) rfl)
  have ratedAgain := EachStep.extend deterministic metAgain
    (show Checked _ (.getReporterStats 1) from trivial) (.getReporterStats 1 rfl (by decide))
  have clearedAgain := EachStep.extend deterministic ratedAgain
    (show Checked _ (.hasOpenReport 1) from trivial) (.hasOpenReport 1 rfl (by decide))
  have insertedAgain := EachStep.extend deterministic clearedAgain
    (show Checked _ (.insertModerationReport 1) from by
      intro contract reporter reason status weight pending
      cases pending
      exact ⟨by decide, by decide⟩)
    (.insertModerationReport 1 rfl)
  have summedAgain := EachStep.extend deterministic insertedAgain
    (show Checked _ (.sumReports 1) from trivial) (.sumReports 1 rfl)
  exact ⟨⟨_, summedAgain.1⟩, reports_sound_of_eachStep summedAgain.2⟩

/-- One reporter has five reports open for a contract, and escalates it alone. -/
theorem brigade_escalated : ∃ registry, Run Step start brigade registry ∧
    registry.escalations = [("C", ["a", "a", "a", "a", "a"])] ∧
    (registry.getContractMeta "C").map Contract.status = some .held ∧ ¬ registry.Sound := by
  have registered : Run Step start [.upsertContractMeta "C" none none] _ :=
    Run.one (.upsertContractMeta "C" none none)
  have firstMet := registered.snoc (.startReport 0 "C" "a" "spam" rfl (by decide) rfl)
  have firstRated := firstMet.snoc (.getReporterStats 0 rfl (by decide))
  have firstCleared := firstRated.snoc (.hasOpenReport 0 rfl (by decide))
  have secondMet := firstCleared.snoc (.startReport 1 "C" "a" "spam" rfl (by decide) rfl)
  have secondRated := secondMet.snoc (.getReporterStats 1 rfl (by decide))
  have secondCleared := secondRated.snoc (.hasOpenReport 1 rfl (by decide))
  have thirdMet := secondCleared.snoc (.startReport 2 "C" "a" "spam" rfl (by decide) rfl)
  have thirdRated := thirdMet.snoc (.getReporterStats 2 rfl (by decide))
  have thirdCleared := thirdRated.snoc (.hasOpenReport 2 rfl (by decide))
  have fourthMet := thirdCleared.snoc (.startReport 3 "C" "a" "spam" rfl (by decide) rfl)
  have fourthRated := fourthMet.snoc (.getReporterStats 3 rfl (by decide))
  have fourthCleared := fourthRated.snoc (.hasOpenReport 3 rfl (by decide))
  have fifthMet := fourthCleared.snoc (.startReport 4 "C" "a" "spam" rfl (by decide) rfl)
  have fifthRated := fifthMet.snoc (.getReporterStats 4 rfl (by decide))
  have fifthCleared := fifthRated.snoc (.hasOpenReport 4 rfl (by decide))
  have firstInserted := fifthCleared.snoc (.insertModerationReport 0 rfl)
  have secondInserted := firstInserted.snoc (.insertModerationReport 1 rfl)
  have thirdInserted := secondInserted.snoc (.insertModerationReport 2 rfl)
  have fourthInserted := thirdInserted.snoc (.insertModerationReport 3 rfl)
  have fifthInserted := fourthInserted.snoc (.insertModerationReport 4 rfl)
  have summed := fifthInserted.snoc (.sumReports 4 rfl)
  have escalated := summed.snoc (.escalate 4 rfl (by decide +kernel) (by decide))
  refine ⟨_, escalated, rfl, rfl, fun sound => ?_⟩
  have single := sound.single "C" "a"
  exact absurd single (by decide)

end OneContract

end Registry

end SorobanExplorer.Indexer.Moderation
