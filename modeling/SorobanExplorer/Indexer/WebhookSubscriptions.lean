import Mathlib.Algebra.Group.Nat.Defs
import Mathlib.Data.List.Infix
import SorobanExplorer.Library.Run

/-!
Owns whether webhook subscriptions are active: `deactivateWebhookSubscription`, and the
attempts to deliver with the outcomes that `recordWebhookDelivery` records. An attempt that
started before a subscription was deactivated can fail after it.

`kept_iff_spared` says for which runs a subscription that is disabled stays so.
-/

namespace SorobanExplorer.Indexer

open Library

namespace WebhookSubscriptions

def webhookMaxConsecutiveFailures : ℕ := 5

/-- A row of `webhook_subscriptions`, and its past: whether the owner deactivated it, and the
outcomes that were recorded of it. -/
structure Subscription where
  apiKeyId : String
  active : Bool
  failureCount : ℕ
  deactivated : Bool
  recorded : List Bool
deriving DecidableEq, Repr

namespace Subscription

def create (apiKeyId : String) : Subscription := ⟨apiKeyId, true, 0, false, []⟩

/-- `SET active = FALSE WHERE … api_key_id = $2` -/
def deactivate (subscription : Subscription) (apiKeyId : String) : Subscription :=
  if subscription.apiKeyId = apiKeyId then
    { subscription with active := false, deactivated := true }
  else subscription

/-- The `UPDATE` of `recordWebhookDelivery`, at which an outcome counts as recorded. -/
def record (subscription : Subscription) (success : Bool) : Subscription :=
  if success then
    { subscription with failureCount := 0, recorded := subscription.recorded ++ [true] }
  else
    { subscription with
      failureCount := subscription.failureCount + 1
      active := subscription.failureCount + 1 < webhookMaxConsecutiveFailures
      recorded := subscription.recorded ++ [false] }

end Subscription

/-- A live event, a retry of the dead letter queue, a manual retry, or a test event. -/
inductive AttemptKind where
  | live
  | deadLetter
  | manual
  | test
deriving DecidableEq, Repr

def AttemptKind.admits : AttemptKind → Subscription → Bool
  | .live, subscription => subscription.active
  | .deadLetter, subscription => subscription.active
  | .manual, subscription => subscription.active
  | .test, _ => true

structure Attempt where
  kind : AttemptKind
  webhookId : String
deriving DecidableEq, Repr

structure System where
  subscriptions : String → Option Subscription
  attempts : List Attempt

namespace System

def start : System := ⟨fun _ => none, []⟩

def write (system : System) (webhookId : String) (subscription : Subscription) : System :=
  { system with
    subscriptions := Function.update system.subscriptions webhookId (some subscription) }

end System

inductive Action where
  | create (webhookId apiKeyId : String)
  | deactivate (webhookId apiKeyId : String)
  | attempt (attempt : Attempt)
  | record (index : ℕ) (success : Bool)
deriving DecidableEq, Repr

/-- `failure_count` is an `INT`: a greater one fails to be written. -/
def maxFailureCount : ℕ := 2 ^ 31 - 1

inductive Step : System → Action → System → Prop
  | create {system : System} (webhookId apiKeyId : String)
      (fresh : system.subscriptions webhookId = none) :
      Step system (.create webhookId apiKeyId)
        (system.write webhookId (Subscription.create apiKeyId))
  | deactivate {system : System} {subscription : Subscription} (webhookId apiKeyId : String)
      (found : system.subscriptions webhookId = some subscription) :
      Step system (.deactivate webhookId apiKeyId)
        (system.write webhookId (subscription.deactivate apiKeyId))
  | attempt {system : System} {subscription : Subscription} (attempt : Attempt)
      (found : system.subscriptions attempt.webhookId = some subscription)
      (admitted : attempt.kind.admits subscription = true) :
      Step system (.attempt attempt) { system with attempts := system.attempts ++ [attempt] }
  | record {system : System} {attempt : Attempt} {subscription : Subscription} (index : ℕ)
      (success : Bool) (started : system.attempts[index]? = some attempt)
      (found : system.subscriptions attempt.webhookId = some subscription)
      (fits : success = true ∨ subscription.failureCount < maxFailureCount) :
      Step system (.record index success)
        (System.write { system with attempts := system.attempts.eraseIdx index }
          attempt.webhookId (subscription.record success))

/-! ### What is promised -/

def FailedInARow (count : ℕ) (recorded : List Bool) : Prop :=
  List.replicate count false <:+: recorded

/-- A subscription is active until its owner deactivates it, or until as many consecutive
recorded attempts have failed, and never again. -/
def Kept (subscription : Subscription) : Prop :=
  subscription.active = true ↔ subscription.deactivated = false ∧
    ¬ FailedInARow webhookMaxConsecutiveFailures subscription.recorded

def AllKept (system : System) : Prop :=
  ∀ webhookId subscription, system.subscriptions webhookId = some subscription → Kept subscription

/-- No failed attempt is recorded of an inactive subscription that is, counting this one,
below the limit of consecutive failures. -/
def Spared (system : System) : Action → Prop
  | .record index false => ∀ attempt subscription, system.attempts[index]? = some attempt →
      system.subscriptions attempt.webhookId = some subscription → subscription.active = false →
        webhookMaxConsecutiveFailures ≤ subscription.failureCount + 1
  | _ => True

theorem deterministic : Deterministic Step := by
  intro before action first second left right
  cases left with
  | create => cases right; rfl
  | deactivate webhookId apiKeyId found =>
    cases right with
    | deactivate _ _ again => cases found.symm.trans again; rfl
  | attempt => cases right; rfl
  | record index success started found =>
    cases right with
    | record _ _ startedAgain foundAgain =>
      cases started.symm.trans startedAgain
      cases found.symm.trans foundAgain
      rfl

/-! ### One subscription -/

section OneSubscription

variable {subscription : Subscription} {recorded : List Bool} {count : ℕ}

def Counts (subscription : Subscription) : Prop :=
  ∀ count, List.replicate count false <:+ subscription.recorded ↔
    count ≤ subscription.failureCount

theorem replicate_suffix_true : List.replicate count false <:+ recorded ++ [true] ↔ count = 0 := by
  rw [List.suffix_concat_iff]
  constructor
  · rintro (empty | ⟨front, ends, -⟩)
    · exact by simpa using empty
    · have listed : true ∈ List.replicate count false := by
        rw [ends]
        exact List.mem_append_right _ (List.mem_singleton_self true)
      cases (List.mem_replicate.mp listed).2
  · intro zero
    exact Or.inl (by rw [zero]; rfl)

theorem replicate_suffix_false : List.replicate (count + 1) false <:+ recorded ++ [false] ↔
    List.replicate count false <:+ recorded := by
  rw [List.replicate_succ', List.suffix_concat_iff]
  constructor
  · rintro (empty | ⟨front, ends, suffix⟩)
    · cases List.append_eq_nil_iff.mp empty |>.2
    · rwa [List.append_cancel_right ends]
  · intro suffix
    exact Or.inr ⟨_, rfl, suffix⟩

theorem counts_create (apiKeyId : String) : Counts (Subscription.create apiKeyId) := by
  intro count
  show List.replicate count false <:+ [] ↔ count ≤ 0
  rw [List.suffix_nil, Nat.le_zero]
  simp

theorem Counts.deactivate (counts : Counts subscription) (apiKeyId : String) :
    Counts (subscription.deactivate apiKeyId) := by
  unfold Subscription.deactivate
  split_ifs
  · exact counts
  · exact counts

theorem Counts.record (counts : Counts subscription) (success : Bool) :
    Counts (subscription.record success) := by
  intro count
  cases success with
  | true =>
    show List.replicate count false <:+ subscription.recorded ++ [true] ↔ count ≤ 0
    rw [replicate_suffix_true, Nat.le_zero]
  | false =>
    show List.replicate count false <:+ subscription.recorded ++ [false] ↔
      count ≤ subscription.failureCount + 1
    cases count with
    | zero => simp
    | succ count => rw [replicate_suffix_false, counts count, Nat.add_le_add_iff_right]

theorem Counts.failedInARow_append (counts : Counts subscription) :
    FailedInARow webhookMaxConsecutiveFailures (subscription.recorded ++ [false]) ↔
      webhookMaxConsecutiveFailures ≤ subscription.failureCount + 1 ∨
        FailedInARow webhookMaxConsecutiveFailures subscription.recorded := by
  unfold FailedInARow
  rw [List.infix_concat_iff]
  have completes : List.replicate webhookMaxConsecutiveFailures false <:+
      subscription.recorded ++ [false] ↔ 4 ≤ subscription.failureCount :=
    replicate_suffix_false.trans (counts 4)
  rw [completes]
  exact or_congr_left (Nat.add_le_add_iff_right (n := 1)).symm

theorem failedInARow_append_true :
    FailedInARow webhookMaxConsecutiveFailures (recorded ++ [true]) ↔
      FailedInARow webhookMaxConsecutiveFailures recorded := by
  unfold FailedInARow
  rw [List.infix_concat_iff, replicate_suffix_true]
  exact or_iff_right (by decide)

theorem kept_create (apiKeyId : String) : Kept (Subscription.create apiKeyId) := by
  have none : ¬ FailedInARow webhookMaxConsecutiveFailures [] := by
    intro failed
    cases List.infix_nil.mp failed
  exact iff_of_true rfl ⟨rfl, none⟩

theorem Kept.deactivate (kept : Kept subscription) (apiKeyId : String) :
    Kept (subscription.deactivate apiKeyId) := by
  unfold Subscription.deactivate
  split_ifs
  · exact iff_of_false Bool.false_ne_true fun both => Bool.noConfusion both.1
  · exact kept

theorem Kept.record_success (kept : Kept subscription) : Kept (subscription.record true) := by
  show subscription.active = true ↔ subscription.deactivated = false ∧
    ¬ FailedInARow _ (subscription.recorded ++ [true])
  rw [failedInARow_append_true]
  exact kept

theorem Kept.record_failure_iff (kept : Kept subscription) (counts : Counts subscription) :
    Kept (subscription.record false) ↔ (subscription.active = false →
      webhookMaxConsecutiveFailures ≤ subscription.failureCount + 1) := by
  have after : Kept (subscription.record false) ↔
      (subscription.failureCount + 1 < webhookMaxConsecutiveFailures ↔
        subscription.deactivated = false ∧
          ¬ FailedInARow webhookMaxConsecutiveFailures (subscription.recorded ++ [false])) := by
    unfold Kept
    rw [← decide_eq_true_eq (p := subscription.failureCount + 1 < webhookMaxConsecutiveFailures)]
    rfl
  rw [after, counts.failedInARow_append]
  unfold Kept at kept
  cases active : subscription.active with
  | true =>
    obtain ⟨owned, row⟩ := kept.mp active
    simp [owned, row]
  | false =>
    have ended : ¬ (subscription.deactivated = false ∧
        ¬ FailedInARow webhookMaxConsecutiveFailures subscription.recorded) := by
      intro both
      rw [kept.mpr both] at active
      cases active
    constructor
    · intro same _
      by_contra below
      have again := same.mp (not_le.mp below)
      exact ended ⟨again.1, fun row => again.2 (Or.inr row)⟩
    · intro stays
      have above := stays rfl
      exact iff_of_false (not_lt.mpr above) fun both => both.2 (Or.inl above)

end OneSubscription

/-! ### All subscriptions -/

section Systems

variable {before after : System} {action : Action}

structure Sound (system : System) : Prop where
  kept : AllKept system
  counts : ∀ webhookId subscription, system.subscriptions webhookId = some subscription →
    Counts subscription

theorem sound_start : Sound System.start :=
  ⟨fun _ _ found => absurd found (Option.some_ne_none _).symm,
    fun _ _ found => absurd found (Option.some_ne_none _).symm⟩

theorem forall_write {system : System} {webhookId : String} {subscription : Subscription}
    {holds : Subscription → Prop}
    (others : ∀ other found, system.subscriptions other = some found → holds found)
    (written : holds subscription) (other : String) (found : Subscription)
    (listed : (system.write webhookId subscription).subscriptions other = some found) :
    holds found := by
  have update : Function.update system.subscriptions webhookId (some subscription) other =
      some found := listed
  by_cases same : other = webhookId
  · rw [same, Function.update_self] at update
    cases update
    exact written
  · rw [Function.update_of_ne same] at update
    exact others other found update

theorem Sound.write {system : System} (sound : Sound system) {webhookId : String}
    {subscription : Subscription} (kept : Kept subscription) (counts : Counts subscription) :
    Sound (system.write webhookId subscription) :=
  ⟨forall_write sound.kept kept, forall_write sound.counts counts⟩

theorem Sound.step (sound : Sound before) (spared : Spared before action)
    (taken : Step before action after) : Sound after := by
  cases taken with
  | create webhookId apiKeyId fresh => exact sound.write (kept_create _) (counts_create _)
  | deactivate webhookId apiKeyId found =>
    exact sound.write ((sound.kept _ _ found).deactivate _) ((sound.counts _ _ found).deactivate _)
  | attempt => exact ⟨sound.kept, sound.counts⟩
  | @record attempt subscription index success started found fits =>
    have kept := sound.kept _ _ found
    have counts := sound.counts _ _ found
    have records : Kept (subscription.record success) := by
      cases success with
      | true => exact kept.record_success
      | false =>
        exact (kept.record_failure_iff counts).mpr (spared attempt subscription started found)
    have rest : Sound { before with attempts := before.attempts.eraseIdx index } :=
      ⟨sound.kept, sound.counts⟩
    exact rest.write records (counts.record success)

theorem spared_of_allKept (sound : Sound before) (taken : Step before action after)
    (kept : AllKept after) : Spared before action := by
  cases taken with
  | create => trivial
  | deactivate => trivial
  | attempt => trivial
  | @record attempt subscription index success started found fits =>
    cases success with
    | true => trivial
    | false =>
      intro other same startedAgain foundAgain
      cases started.symm.trans startedAgain
      cases found.symm.trans foundAgain
      have written := kept attempt.webhookId (subscription.record false)
        (Function.update_self _ _ _)
      exact ((sound.kept _ _ found).record_failure_iff (sound.counts _ _ found)).mp written

variable {actions : List Action} {final : System}

/-- A subscription is active exactly until its owner deactivates it or the limit of consecutive
failures is reached, along a run, if and only if no failure below that limit is recorded of an
inactive one. -/
theorem kept_iff_spared (run : Run Step System.start actions final) :
    Along Step System.start actions (fun _ system => AllKept system) ↔
      EachStep Step System.start actions Spared :=
  run.along_iff_eachStep (I := fun _ system => Sound system) deterministic sound_start
    (fun _ _ _ sound => sound.kept)
    (fun _ _ _ _ _ sound spared taken => sound.step spared taken)
    (fun _ _ _ _ _ sound taken kept => spared_of_allKept sound taken kept)

end Systems

/-! ### An attempt that fails late -/

def lateFailure : List Action :=
  [.create "w" "k", .attempt ⟨.live, "w"⟩, .deactivate "w" "k", .record 0 false]

def earlyFailure : List Action :=
  [.create "w" "k", .attempt ⟨.live, "w"⟩, .record 0 false, .deactivate "w" "k"]

theorem earlyFailure_kept : Along Step System.start earlyFailure
    (fun _ system => AllKept system) := by
  have none : Run Step System.start [] System.start ∧ EachStep Step System.start [] Spared :=
    ⟨Run.nil, EachStep.nil⟩
  have created := EachStep.extend deterministic none
    (show Spared _ (.create "w" "k") from trivial) (Step.create "w" "k" rfl)
  have attempted := EachStep.extend deterministic created
    (show Spared _ (.attempt ⟨.live, "w"⟩) from trivial) (Step.attempt ⟨.live, "w"⟩ rfl rfl)
  have recorded := EachStep.extend deterministic attempted
    (show Spared _ (.record 0 false) from by
      intro attempt subscription started found inactive
      cases started
      cases found
      cases inactive)
    (Step.record 0 false rfl rfl (Or.inr (by decide)))
  have deactivated := EachStep.extend deterministic recorded
    (show Spared _ (.deactivate "w" "k") from trivial) (Step.deactivate "w" "k" rfl)
  exact (kept_iff_spared deactivated.1).mpr deactivated.2

/-- The attempt fails after that, and the subscription is active again. -/
theorem lateFailure_reactivates : ∃ final, Run Step System.start lateFailure final ∧
    (final.subscriptions "w").map (fun subscription => subscription.active) = some true ∧
      ¬ AllKept final := by
  have created : Run Step System.start [.create "w" "k"] _ := Run.one (Step.create "w" "k" rfl)
  have attempted := created.snoc (Step.attempt ⟨.live, "w"⟩ rfl rfl)
  have deactivated := attempted.snoc (Step.deactivate "w" "k" rfl)
  have recorded := deactivated.snoc (Step.record 0 false rfl rfl (Or.inr (by decide)))
  refine ⟨_, recorded, rfl, fun kept => ?_⟩
  have owned := ((kept "w" _ rfl).mp rfl).1
  exact absurd owned (by decide)

end WebhookSubscriptions

end SorobanExplorer.Indexer
