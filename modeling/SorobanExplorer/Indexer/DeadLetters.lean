import Mathlib.Data.List.Sort
import Mathlib.Logic.Function.Basic
import SorobanExplorer.Library.Run
import SorobanExplorer.Library.Table

/-!
Owns the dead letter queue: any number of `processRetries` runs, of several instances,
with handlers of any duration, interleaved with `enqueue`, `resolve`, `replay` and
`requeueByErrorClass`. Every statement is one step; what a run does between its
statements is part of the step before.

The event of an entry, which only a handler reads, is left out.
-/

namespace SorobanExplorer.Indexer

open Library

namespace DeadLetters

/-! ### Entries -/

inductive DlqState where
  | queued
  | retrying
  | quarantined
  | resolved
deriving DecidableEq, Repr

/-- An error, with what `classifyError` makes of it. -/
structure DlqError where
  message : String
  code : Option String
  errorClass : String
  stackHash : String
deriving DecidableEq, Repr

/-- A row of `dead_letter_queue`; times are in milliseconds. -/
structure Entry where
  state : DlqState
  resolved : Bool
  resolvedReason : Option String
  retryCount : ℕ
  nextRetryAt : Option ℕ
  updatedAt : ℕ
  errorMessage : String
  errorClass : String
  stackHash : String
deriving DecidableEq, Repr

abbrev Queue := Table ℕ Entry

structure Config where
  backoffBase : ℕ := 30000
  backoffMax : ℕ := 3600000
  maxAttempts : ℕ := 6
  poisonThreshold : ℕ := 50
  batchSize : ℕ := 100

def staleClaimMs : ℕ := 10 * 60000

def replayChunk : ℕ := 500

def computeBackoff (config : Config) (attempts : ℕ) : ℕ :=
  min config.backoffMax (config.backoffBase * 2 ^ (attempts - 1))

def nextStateAfterFailure (config : Config) (attempts sameHashCount : ℕ) : DlqState :=
  if config.maxAttempts ≤ attempts then .quarantined
  else if config.poisonThreshold ≤ sameHashCount then .quarantined
  else .queued

def isContractGone (error : DlqError) : Bool :=
  error.code = some "CONTRACT_DELETED" || error.code = some "CONTRACT_NOT_FOUND"

/-! ### Statements -/

def enqueued (config : Config) (now : ℕ) (error : DlqError) : Entry where
  state := .queued
  resolved := false
  resolvedReason := none
  retryCount := 0
  nextRetryAt := some (now + computeBackoff config 1)
  updatedAt := now
  errorMessage := error.message
  errorClass := error.errorClass
  stackHash := error.stackHash

/-- `UPDATE dead_letter_queue SET ... WHERE ...` -/
def updateWhere (condition : ℕ → Entry → Bool) (change : Entry → Entry) (queue : Queue) : Queue :=
  queue.mapRows fun id entry => if condition id entry then change entry else entry

def markResolved (id : ℕ) (reason : Option String) (now : ℕ) : Queue → Queue :=
  updateWhere (fun other _ => other = id) fun entry =>
    { entry with
      state := .resolved, resolved := true, resolvedReason := reason, nextRetryAt := none
      updatedAt := now }

def sameHashCount (error : DlqError) (queue : Queue) : ℕ :=
  (queue.entries.filter fun row =>
    row.2.stackHash = error.stackHash && row.2.state ≠ .resolved).length

/-- The row that `recordFailure` writes, whatever the state of the row it replaces. -/
def recordedFailure (config : Config) (now attempts sameHashCount : ℕ) (error : DlqError)
    (entry : Entry) : Entry :=
  let state := nextStateAfterFailure config attempts sameHashCount
  { entry with
    retryCount := attempts
    nextRetryAt := if state = .queued then some (now + computeBackoff config attempts) else none
    errorMessage := error.message, errorClass := error.errorClass, stackHash := error.stackHash
    state := state, updatedAt := now }

def quarantineGroup (id now : ℕ) (error : DlqError) : Queue → Queue :=
  updateWhere
    (fun other entry => entry.stackHash = error.stackHash &&
      (entry.state = .queued || entry.state = .retrying) && other ≠ id)
    fun entry => { entry with state := .quarantined, nextRetryAt := none, updatedAt := now }

def Entry.isClaimable (now : ℕ) (entry : Entry) : Bool :=
  (entry.state = .queued && entry.nextRetryAt.any (· ≤ now)) ||
    (entry.state = .retrying && entry.updatedAt + staleClaimMs < now)

def claimable (config : Config) (now : ℕ) (skipped : List ℕ) (queue : Queue) : List ℕ :=
  (((queue.entries.filter fun row =>
      row.2.isClaimable now && !skipped.contains row.1).insertionSort fun first second =>
    first.2.nextRetryAt.getD 0 ≤ second.2.nextRetryAt.getD 0).map Sigma.fst).take config.batchSize

def claimEntries (now : ℕ) (ids : List ℕ) : Queue → Queue :=
  updateWhere (fun id _ => ids.contains id) fun entry =>
    { entry with state := .retrying, updatedAt := now }

/-- The entries that a chunk of `requeueByErrorClass` may take. -/
def Entry.isRequeueable (errorClass : String) (now : ℕ) (entry : Entry) : Bool :=
  entry.errorClass = errorClass && (entry.state = .queued || entry.state = .quarantined) &&
    entry.nextRetryAt.all (now < ·)

def requeueEntries (now : ℕ) (ids : List ℕ) : Queue → Queue :=
  updateWhere (fun id _ => ids.contains id) fun entry =>
    { entry with state := .queued, retryCount := 0, nextRetryAt := some now, updatedAt := now }

def recordReplayFailure (id now : ℕ) (error : DlqError) : Queue → Queue :=
  updateWhere (fun other _ => other = id) fun entry =>
    { entry with
      retryCount := entry.retryCount + 1, errorMessage := error.message, updatedAt := now }

/-! ### Runs -/

inductive Phase where
  | handling
  /-- `handled`: the handler has succeeded. Otherwise the contract is gone. -/
  | resolving (handled : Bool)
  | counting (error : DlqError)
  | recording (error : DlqError) (sameHashCount : ℕ)
  | quarantining (error : DlqError)
deriving DecidableEq, Repr

structure Claimed where
  id : ℕ
  retryCount : ℕ
deriving DecidableEq, Repr

/-- A run of `processRetries`: the entries of its claim that it has not finished, of which
it has the first in hand. -/
structure RetryRun where
  claimedAt : ℕ
  rows : List Claimed
  phase : Phase
deriving DecidableEq, Repr

def RetryRun.ids (run : RetryRun) : List ℕ := run.rows.map Claimed.id

structure Dlq where
  queue : Queue
  runs : ℕ → Option RetryRun

def Dlq.start (queue : Queue) : Dlq := ⟨queue, fun _ => none⟩

namespace Dlq

def setRun (dlq : Dlq) (name : ℕ) (run : Option RetryRun) : Dlq :=
  { dlq with runs := Function.update dlq.runs name run }

def write (dlq : Dlq) (change : Queue → Queue) : Dlq := { dlq with queue := change dlq.queue }

def claim (dlq : Dlq) (name now : ℕ) (order : List ℕ) : Dlq :=
  (dlq.write (claimEntries now order)).setRun name
    (some ⟨now, order.map fun id => ⟨id, ((dlq.queue.lookup id).map Entry.retryCount).getD 0⟩,
      .handling⟩)

end Dlq

def RetryRun.next (run : RetryRun) : RetryRun :=
  { run with rows := run.rows.tail, phase := .handling }

/-- The `catch` of an attempt. -/
def RetryRun.caught (run : RetryRun) (error : DlqError) : RetryRun :=
  { run with phase := if isContractGone error then .resolving false else .counting error }

def RetryRun.handled (run : RetryRun) : Option DlqError → RetryRun
  | none => { run with phase := .resolving true }
  | some error => run.caught error

def Dlq.statement (config : Config) (dlq : Dlq) (name now : ℕ) (run : RetryRun) (row : Claimed) :
    Dlq :=
  match run.phase with
  | .handling => dlq
  | .resolving handled =>
    (dlq.write (markResolved row.id (if handled then none else some "contract deleted")
      now)).setRun name (some run.next)
  | .counting error =>
    dlq.setRun name
      (some { run with phase := .recording error (sameHashCount error dlq.queue) })
  | .recording error count =>
    (dlq.write (updateWhere (fun other _ => other = row.id)
      (recordedFailure config now (row.retryCount + 1) count error))).setRun name
      (some (if nextStateAfterFailure config (row.retryCount + 1) count = .quarantined then
        { run with phase := .quarantining error } else run.next))
  | .quarantining error =>
    (dlq.write (quarantineGroup row.id now error)).setRun name (some run.next)

def RetryRun.statementFailed (run : RetryRun) (error : DlqError) : Option RetryRun :=
  match run.phase with
  | .resolving true => some (run.caught error)
  | _ => none

inductive Action where
  | enqueue (id now : ℕ) (error : DlqError)
  | claim (name now : ℕ) (skipped order : List ℕ)
  | handled (name : ℕ) (outcome : Option DlqError)
  | statement (name now : ℕ)
  | statementFails (name : ℕ) (error : DlqError)
  | crash (name : ℕ)
  | resolve (id now : ℕ) (reason : Option String)
  | replayFails (id now : ℕ) (error : DlqError)
  | requeue (errorClass : String) (now : ℕ) (ids : List ℕ)

inductive Step (config : Config) : Dlq → Action → Dlq → Prop
  | enqueue {dlq : Dlq} (id now : ℕ) (error : DlqError) (fresh : dlq.queue.lookup id = none) :
      Step config dlq (.enqueue id now error)
        (dlq.write fun queue => queue.insert id (enqueued config now error))
  | claim {dlq : Dlq} (name now : ℕ) (skipped order : List ℕ) (fresh : dlq.runs name = none)
      (taken : order.Perm (claimable config now skipped dlq.queue)) :
      Step config dlq (.claim name now skipped order) (dlq.claim name now order)
  | handled {dlq : Dlq} {run : RetryRun} (name : ℕ) (outcome : Option DlqError)
      (current : dlq.runs name = some run) (inHand : run.rows ≠ []) (phase : run.phase = .handling) :
      Step config dlq (.handled name outcome) (dlq.setRun name (some (run.handled outcome)))
  | statement {dlq : Dlq} {run : RetryRun} {row : Claimed} {rest : List Claimed} (name now : ℕ)
      (current : dlq.runs name = some run) (inHand : run.rows = row :: rest)
      (phase : run.phase ≠ .handling) :
      Step config dlq (.statement name now) (dlq.statement config name now run row)
  | statementFails {dlq : Dlq} {run : RetryRun} (name : ℕ) (error : DlqError)
      (current : dlq.runs name = some run) (inHand : run.rows ≠ [])
      (phase : run.phase ≠ .handling) :
      Step config dlq (.statementFails name error) (dlq.setRun name (run.statementFailed error))
  | crash {dlq : Dlq} {run : RetryRun} (name : ℕ) (current : dlq.runs name = some run) :
      Step config dlq (.crash name) (dlq.setRun name none)
  | resolve {dlq : Dlq} (id now : ℕ) (reason : Option String) :
      Step config dlq (.resolve id now reason) (dlq.write (markResolved id reason now))
  | replayFails {dlq : Dlq} (id now : ℕ) (error : DlqError) :
      Step config dlq (.replayFails id now error) (dlq.write (recordReplayFailure id now error))
  | requeue {dlq : Dlq} (errorClass : String) (now : ℕ) (ids : List ℕ)
      (few : ids.length ≤ replayChunk)
      (taken : ∀ id ∈ ids, ∃ entry, dlq.queue.lookup id = some entry ∧
        entry.isRequeueable errorClass now = true) :
      Step config dlq (.requeue errorClass now ids) (dlq.write (requeueEntries now ids))

/-! ### What a step does to an entry -/

section Entries

variable {config : Config} {queue : Queue} {id : ℕ} {entry : Entry}

theorem lookup_updateWhere (condition : ℕ → Entry → Bool) (change : Entry → Entry) :
    (updateWhere condition change queue).lookup id =
      (queue.lookup id).map fun entry => if condition id entry then change entry else entry :=
  Table.lookup_mapRows _ queue

theorem lookup_of_mem {row : Sigma fun _ : ℕ => Entry} (member : row ∈ queue.entries) :
    queue.lookup row.1 = some row.2 := AList.mem_lookup_iff.mpr member

theorem lookup_of_claimable {now : ℕ} {skipped : List ℕ}
    (taken : id ∈ claimable config now skipped queue) :
    ∃ entry, queue.lookup id = some entry ∧ entry.isClaimable now = true := by
  obtain ⟨row, among, rfl⟩ := List.mem_map.mp (List.mem_of_mem_take taken)
  have kept := List.mem_filter.mp ((List.mem_insertionSort _).mp among)
  exact ⟨row.2, lookup_of_mem kept.1, (Bool.and_eq_true_iff.mp kept.2).1⟩

theorem Entry.state_of_isClaimable {now : ℕ} (claimable : entry.isClaimable now = true) :
    entry.state = .queued ∨ entry.state = .retrying := by
  rw [Entry.isClaimable, Bool.or_eq_true, Bool.and_eq_true, Bool.and_eq_true, decide_eq_true_eq,
    decide_eq_true_eq] at claimable
  exact claimable.imp And.left And.left

theorem Entry.state_of_isRequeueable {errorClass : String} {now : ℕ}
    (requeueable : entry.isRequeueable errorClass now = true) :
    entry.state = .queued ∨ entry.state = .quarantined := by
  rw [Entry.isRequeueable, Bool.and_eq_true, Bool.and_eq_true, Bool.or_eq_true] at requeueable
  exact requeueable.1.2.imp decide_eq_true_eq.mp decide_eq_true_eq.mp

theorem nextState_ne_resolved (attempts count : ℕ) :
    nextStateAfterFailure config attempts count ≠ .resolved := by
  unfold nextStateAfterFailure
  split_ifs <;> decide

end Entries

/-- The action puts an entry back in the queue by `requeueByErrorClass`. -/
def Action.Requeues (id : ℕ) : Action → Prop
  | .requeue _ _ ids => id ∈ ids
  | _ => False

def Action.Hands (id : ℕ) : Action → Prop
  | .claim _ _ _ order => id ∈ order
  | _ => False

def Entry.Flagged (entry : Entry) : Prop := entry.resolved = true ↔ entry.state = .resolved

structure Entry.Kept (before after : Entry) : Prop where
  flagged : before.Flagged → after.Flagged
  resolved : before.state = .resolved → after.state = .resolved
  quarantined : before.state = .quarantined → after.state = .quarantined ∨ after.state = .resolved

namespace Entry.Kept

variable {before after later : Entry}

theorem refl (entry : Entry) : entry.Kept entry := ⟨id, id, Or.inl⟩

theorem trans (first : before.Kept after) (second : after.Kept later) : before.Kept later where
  flagged := second.flagged ∘ first.flagged
  resolved := second.resolved ∘ first.resolved
  quarantined := fun quarantined =>
    (first.quarantined quarantined).elim second.quarantined fun resolved =>
      Or.inr (second.resolved resolved)

theorem of_open (flag : after.resolved = before.resolved) (wasOpen : before.state ≠ .resolved)
    (isOpen : after.state ≠ .resolved)
    (quarantined : before.state = .quarantined → after.state = .quarantined) :
    before.Kept after where
  flagged := fun flagged => by
    unfold Flagged at flagged ⊢
    simpa [flag, wasOpen, isOpen] using flagged
  resolved := fun resolved => absurd resolved wasOpen
  quarantined := fun was => Or.inl (quarantined was)

end Entry.Kept

def RecordsOpen (config : Config) (dlq : Dlq) : Action → Prop
  | .statement name _ => ∀ run row rest error count entry,
      dlq.runs name = some run → run.rows = row :: rest → run.phase = .recording error count →
      dlq.queue.lookup row.id = some entry →
        entry.state ≠ .resolved ∧ (entry.state = .quarantined →
          nextStateAfterFailure config (row.retryCount + 1) count = .quarantined)
  | _ => True

def GuardedStep (config : Config) (before : Dlq) (action : Action) (after : Dlq) : Prop :=
  Step config before action after ∧ RecordsOpen config before action

section LifeCycle

variable {config : Config} {before after : Dlq} {action : Action} {id : ℕ} {entry : Entry}

theorem kept_updateWhere {queue : Queue} {condition : ℕ → Entry → Bool} {change : Entry → Entry}
    (known : queue.lookup id = some entry)
    (keeps : condition id entry = true → entry.Kept (change entry)) :
    ∃ next, (updateWhere condition change queue).lookup id = some next ∧ entry.Kept next := by
  rw [lookup_updateWhere, known, Option.map_some]
  refine ⟨_, rfl, ?_⟩
  cases applies : condition id entry with
  | true => exact keeps applies
  | false => exact Entry.Kept.refl entry

theorem kept_markResolved {queue : Queue} (known : queue.lookup id = some entry) (other : ℕ)
    (reason : Option String) (now : ℕ) :
    ∃ next, (markResolved other reason now queue).lookup id = some next ∧ entry.Kept next := by
  apply kept_updateWhere known
  intro _
  constructor
  · intro _
    exact ⟨fun _ => rfl, fun _ => rfl⟩
  · intro _
    rfl
  · intro _
    exact Or.inr rfl

theorem kept_quarantineGroup {queue : Queue} (known : queue.lookup id = some entry) (other now : ℕ)
    (error : DlqError) :
    ∃ next, (quarantineGroup other now error queue).lookup id = some next ∧ entry.Kept next := by
  apply kept_updateWhere known
  intro applies
  have wasOpen : entry.state = .queued ∨ entry.state = .retrying := by
    rw [Bool.and_eq_true, Bool.and_eq_true, Bool.or_eq_true] at applies
    exact applies.1.2.imp decide_eq_true_eq.mp decide_eq_true_eq.mp
  refine Entry.Kept.of_open rfl ?_ ?_ ?_
  · rcases wasOpen with queued | retrying
    · simp [queued]
    · simp [retrying]
  · exact DlqState.noConfusion
  · intro _
    rfl

theorem kept_recordedFailure {queue : Queue} (known : queue.lookup id = some entry)
    {row : Claimed} {count : ℕ} (now : ℕ) (error : DlqError)
    (isOpen : row.id = id → entry.state ≠ .resolved ∧ (entry.state = .quarantined →
      nextStateAfterFailure config (row.retryCount + 1) count = .quarantined)) :
    ∃ next, (updateWhere (fun other _ => other = row.id)
      (recordedFailure config now (row.retryCount + 1) count error) queue).lookup id = some next ∧
        entry.Kept next := by
  apply kept_updateWhere known
  intro applies
  have guarded := isOpen (decide_eq_true_eq.mp applies).symm
  exact Entry.Kept.of_open rfl guarded.1 (nextState_ne_resolved _ _) guarded.2

theorem kept_statement {name now : ℕ} {run : RetryRun} {row : Claimed} {rest : List Claimed}
    (guarded : RecordsOpen config before (.statement name now))
    (current : before.runs name = some run) (inHand : run.rows = row :: rest)
    (known : before.queue.lookup id = some entry) :
    ∃ next, (before.statement config name now run row).queue.lookup id = some next ∧
      entry.Kept next := by
  unfold Dlq.statement
  split
  next => exact ⟨entry, known, Entry.Kept.refl entry⟩
  next handled phase => exact kept_markResolved known row.id _ now
  next error phase => exact ⟨entry, known, Entry.Kept.refl entry⟩
  next error count phase =>
    apply kept_recordedFailure known now error
    rintro rfl
    exact guarded run row rest error count entry current inHand phase known
  next error phase => exact kept_quarantineGroup known row.id now error

theorem kept_claimEntries {queue : Queue} {now : ℕ} {skipped order : List ℕ}
    (claimed : order.Perm (claimable config now skipped queue))
    (known : queue.lookup id = some entry) :
    ∃ next, (claimEntries now order queue).lookup id = some next ∧ entry.Kept next := by
  apply kept_updateWhere known
  intro member
  have listed := claimed.mem_iff.mp (List.contains_iff_mem.mp member)
  obtain ⟨same, lookup, claimable⟩ := lookup_of_claimable listed
  rw [known] at lookup
  cases lookup
  refine Entry.Kept.of_open rfl ?_ DlqState.noConfusion ?_
  · rcases Entry.state_of_isClaimable claimable with queued | retrying
    · simp [queued]
    · simp [retrying]
  · rcases Entry.state_of_isClaimable claimable with queued | retrying
    · simp [queued]
    · simp [retrying]

theorem kept_of_step (taken : GuardedStep config before action after)
    (known : before.queue.lookup id = some entry) (own : ¬ action.Requeues id) :
    ∃ next, after.queue.lookup id = some next ∧ entry.Kept next := by
  obtain ⟨step, guarded⟩ := taken
  cases step with
  | enqueue other now error fresh =>
    refine ⟨entry, ?_, Entry.Kept.refl entry⟩
    have differs : id ≠ other := by
      rintro rfl
      rw [fresh] at known
      cases known
    exact (AList.lookup_insert_ne differs).trans known
  | claim name now skipped order fresh claimed => exact kept_claimEntries claimed known
  | handled | statementFails | crash => exact ⟨entry, known, Entry.Kept.refl entry⟩
  | statement name now current inHand phase => exact kept_statement guarded current inHand known
  | resolve other now reason => exact kept_markResolved known other reason now
  | replayFails other now error =>
    apply kept_updateWhere known
    intro _
    exact ⟨fun flagged => flagged, fun resolved => resolved, Or.inl⟩
  | requeue errorClass now ids few requeued =>
    apply kept_updateWhere known
    intro member
    exact absurd (List.contains_iff_mem.mp member) own

theorem flagged_of_step (taken : GuardedStep config before action after)
    (known : before.queue.lookup id = some entry) :
    ∃ next, after.queue.lookup id = some next ∧ (entry.Flagged → next.Flagged) ∧
      (entry.state = .resolved → next.state = .resolved) := by
  by_cases own : action.Requeues id
  · obtain ⟨step, -⟩ := taken
    cases step with
    | requeue errorClass now ids few requeued =>
      obtain ⟨same, lookup, requeueable⟩ := requeued id own
      rw [known] at lookup
      cases lookup
      have isOpen : entry.state ≠ .resolved := by
        rcases Entry.state_of_isRequeueable requeueable with queued | quarantined
        · simp [queued]
        · simp [quarantined]
      refine ⟨{ entry with
        state := .queued, retryCount := 0, nextRetryAt := some now, updatedAt := now }, ?_, ?_, ?_⟩
      · have member : ids.contains id = true := List.contains_iff_mem.mpr own
        exact (lookup_updateWhere _ _).trans (by rw [known, Option.map_some, if_pos member])
      · intro flagged
        unfold Entry.Flagged at flagged ⊢
        simpa [isOpen] using flagged
      · intro resolved
        exact absurd resolved isOpen
    | _ => exact False.elim own
  · obtain ⟨next, found, kept⟩ := kept_of_step taken known own
    exact ⟨next, found, kept.flagged, kept.resolved⟩

theorem flagged_of_fresh (taken : GuardedStep config before action after)
    (unknown : before.queue.lookup id = none) {next : Entry}
    (found : after.queue.lookup id = some next) : next.Flagged := by
  have absent {condition : ℕ → Entry → Bool} {change : Entry → Entry}
      (shown : (updateWhere condition change before.queue).lookup id = some next) :
      next.Flagged := by
    rw [lookup_updateWhere, unknown] at shown
    cases shown
  obtain ⟨step, -⟩ := taken
  cases step with
  | enqueue other now error fresh =>
    by_cases same : id = other
    · subst same
      rw [Dlq.write, AList.lookup_insert] at found
      cases found
      exact ⟨Bool.noConfusion, DlqState.noConfusion⟩
    · have shown := (AList.lookup_insert_ne same).symm.trans found
      rw [unknown] at shown
      cases shown
  | claim | resolve | replayFails | requeue => exact absent found
  | handled | statementFails | crash =>
    have shown := unknown.symm.trans found
    cases shown
  | @statement run row rest name now current inHand phase =>
    unfold Dlq.statement at found
    split at found
    all_goals first
      | exact absent found
      | exact absurd (unknown.symm.trans found) (by simp)

theorem kept_of_run {start final : Dlq} {rest : List Action}
    (run : Run (GuardedStep config) start rest final) (known : start.queue.lookup id = some entry) :
    ∃ later, final.queue.lookup id = some later ∧ (entry.Flagged → later.Flagged) ∧
      (entry.state = .resolved → later.state = .resolved) ∧
      ((∀ action ∈ rest, ¬ action.Requeues id) → entry.Kept later) := by
  induction run with
  | nil =>
    refine ⟨entry, known, ?_, ?_, ?_⟩
    · exact fun flagged => flagged
    · exact fun resolved => resolved
    · exact fun _ => Entry.Kept.refl entry
  | snoc earlier taken ih =>
    obtain ⟨middle, found, flagged, resolved, kept⟩ := ih
    obtain ⟨later, lookup, stillFlagged, stillResolved⟩ := flagged_of_step taken found
    refine ⟨later, lookup, stillFlagged ∘ flagged, stillResolved ∘ resolved, ?_⟩
    intro own
    obtain ⟨next, same, keptLast⟩ := kept_of_step taken found (own _ (by simp))
    rw [lookup] at same
    cases same
    exact (kept fun action member => own action (List.mem_append_left _ member)).trans keptLast

theorem flagged_of_run {final : Dlq} {labels : List Action}
    (run : Run (GuardedStep config) (Dlq.start ∅) labels final)
    (known : final.queue.lookup id = some entry) : entry.Flagged := by
  induction run generalizing entry with
  | nil => cases known
  | @snoc _ _ middle _ earlier taken ih =>
    cases found : middle.queue.lookup id with
    | none => exact flagged_of_fresh taken found known
    | some old =>
      obtain ⟨next, lookup, flagged, -⟩ := flagged_of_step taken found
      rw [known] at lookup
      cases lookup
      exact flagged (ih found)

theorem state_of_hands (step : Step config before action after) (hands : action.Hands id) :
    ∃ entry, before.queue.lookup id = some entry ∧
      (entry.state = .queued ∨ entry.state = .retrying) := by
  cases step with
  | claim name now skipped order fresh claimed =>
    obtain ⟨entry, lookup, claimable⟩ := lookup_of_claimable (claimed.mem_iff.mp hands)
    exact ⟨entry, lookup, Entry.state_of_isClaimable claimable⟩
  | _ => exact False.elim hands

structure LifeCycle (config : Config) (rest : List Action) (final : Dlq) (id : ℕ)
    (entry : Entry) : Prop where
  flagged : entry.Flagged
  /-- The entry is still there, and stays resolved once it is. -/
  lasts : ∃ now, final.queue.lookup id = some now ∧
    (entry.state = .resolved → now.state = .resolved)
  /-- A quarantined entry is not handed out before it is requeued. -/
  closed : entry.state = .quarantined → (∀ action ∈ rest, ¬ action.Requeues id) →
    ∀ action after, Step config final action after → ¬ action.Hands id

/-- In every run in which failures are recorded for open entries only, every entry lives as
it should from any state of the run to any later one. -/
theorem life_cycle (config : Config) {first rest : List Action} {middle final : Dlq}
    (earlier : Run (GuardedStep config) (Dlq.start ∅) first middle)
    (later : Run (GuardedStep config) middle rest final) (id : ℕ) {entry : Entry}
    (known : middle.queue.lookup id = some entry) : LifeCycle config rest final id entry := by
  obtain ⟨now, found, -, resolved, kept⟩ := kept_of_run later known
  constructor
  · exact flagged_of_run earlier known
  · exact ⟨now, found, resolved⟩
  · intro quarantined own action after step hands
    obtain ⟨handed, lookup, isOpen⟩ := state_of_hands step hands
    rw [found] at lookup
    cases lookup
    rcases (kept own).quarantined quarantined with still | done
    · simp [still] at isOpen
    · simp [done] at isOpen

end LifeCycle

/-! ### An entry that is closed while its handler runs -/

def timeout : DlqError := ⟨"timeout", none, "TimeoutError", "5ca1ab1e"⟩

def oneEntry : Dlq := (Dlq.start ∅).write fun queue => queue.insert 1 (enqueued {} 0 timeout)

def oneResolved : Dlq := oneEntry.write (markResolved 1 (some "manually resolved") 5)

theorem run_oneEntry : Run (GuardedStep {}) (Dlq.start ∅) [.enqueue 1 0 timeout] oneEntry :=
  Run.one ⟨.enqueue 1 0 timeout rfl, trivial⟩

theorem oneResolved_lives : LifeCycle {} [.resolve 1 5 (some "manually resolved")] oneResolved 1
    (enqueued {} 0 timeout) :=
  life_cycle {} run_oneEntry (Run.one ⟨.resolve 1 5 _, trivial⟩) 1 rfl

/-- The entry is claimed, its handler fails, and an administrator resolves it before the
failure is counted and recorded. -/
def lateFailure : List Action :=
  [.claim 0 30000 [] [1], .handled 0 (some timeout), .resolve 1 30001 (some "manually resolved"),
    .statement 0 30002, .statement 0 30003]

def reopened : Entry :=
  ⟨.queued, true, some "manually resolved", 1, some 60003, 30003, "timeout", "TimeoutError",
    "5ca1ab1e"⟩

theorem run_lateFailure : ∃ final, Run (Step {}) oneEntry lateFailure final ∧
    final.queue.lookup 1 = some reopened := by
  have claimed : Run (Step {}) oneEntry [.claim 0 30000 [] [1]] _ :=
    Run.one (.claim 0 30000 [] [1] rfl (by decide))
  have failed := claimed.snoc (.handled 0 (some timeout) rfl (by decide) rfl)
  have resolved := failed.snoc (.resolve 1 30001 (some "manually resolved"))
  have counted := resolved.snoc (.statement 0 30002 rfl rfl (by decide))
  have recorded := counted.snoc (.statement 0 30003 rfl rfl (by decide))
  exact ⟨_, recorded, rfl⟩

/-- A failure that is recorded late puts a resolved entry back in the queue. -/
theorem lateFailure_reopens : ¬ ∀ (first rest : List Action) (middle final : Dlq),
    Run (Step {}) (Dlq.start ∅) first middle → Run (Step {}) middle rest final →
      ∀ id entry, middle.queue.lookup id = some entry → LifeCycle {} rest final id entry := by
  intro lives
  obtain ⟨final, run, found⟩ := run_lateFailure
  have enqueued : Run (Step {}) (Dlq.start ∅) [.enqueue 1 0 timeout] oneEntry :=
    Run.one (.enqueue 1 0 timeout rfl)
  have life := lives _ [] final final (enqueued.append run) Run.nil 1 reopened found
  exact absurd (life.flagged.mp rfl) (by decide)

end DeadLetters

end SorobanExplorer.Indexer
