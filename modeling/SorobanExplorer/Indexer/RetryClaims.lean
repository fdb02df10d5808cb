import SorobanExplorer.Indexer.DeadLetters

/-!
Owns the mutual exclusion of `processRetries` runs. A run claims its whole batch at once
and replays it entry by entry. While claims leave alone what unfinished runs still have to
replay, no entry is in the hands of two runs. A run that outlives `STALE_CLAIM_MS` loses
that protection, and `exclusive_of_timely` is what is left for runs that do not.
-/

namespace SorobanExplorer.Indexer

open Library

namespace DeadLetters

variable {config : Config} {dlq after : Dlq} {action : Action}

def Dlq.Holds (dlq : Dlq) (name id : ℕ) : Prop :=
  ∃ run, dlq.runs name = some run ∧ id ∈ run.ids

def Dlq.Handles (dlq : Dlq) (name id : ℕ) : Prop :=
  ∃ run, dlq.runs name = some run ∧ run.phase = .handling ∧ run.ids.head? = some id

def Exclusive (dlq : Dlq) : Prop :=
  ∀ first second id, dlq.Handles first id → dlq.Handles second id → first = second

/-- Of what unfinished runs hold, a claim takes nothing as stale and
`requeueByErrorClass` takes nothing. -/
def ClaimsOrphans (dlq : Dlq) : Action → Prop
  | .claim _ _ _ order => ∀ id ∈ order, ∀ name entry, dlq.Holds name id →
      dlq.queue.lookup id = some entry → entry.state ≠ .retrying
  | .requeue _ _ ids => ∀ id ∈ ids, ∀ name, ¬ dlq.Holds name id
  | _ => True

def OrphanStep (config : Config) (before : Dlq) (action : Action) (after : Dlq) : Prop :=
  Step config before action after ∧ ClaimsOrphans before action

/-! ### What runs hold -/

structure Apart (dlq : Dlq) : Prop where
  nodup : ∀ name run, dlq.runs name = some run → run.ids.Nodup
  apart : ∀ first second id, dlq.Holds first id → dlq.Holds second id → first = second
  claimed : ∀ name id, dlq.Holds name id →
    ∃ entry, dlq.queue.lookup id = some entry ∧ entry.state ≠ .queued

theorem apart_start (queue : Queue) : Apart (Dlq.start queue) := by
  constructor
  · intro name run found
    cases found
  · intro first second id ⟨run, found, _⟩
    cases found
  · intro name id ⟨run, found, _⟩
    cases found

theorem runs_setRun (name other : ℕ) (run : Option RetryRun) :
    (dlq.setRun name run).runs other = if other = name then run else dlq.runs other :=
  Function.update_apply dlq.runs name run other

theorem setRun_write (name : ℕ) (run : Option RetryRun) (change : Queue → Queue) :
    (dlq.write change).setRun name run = (dlq.setRun name run).write change := rfl

theorem Dlq.Handles.holds {name id : ℕ} (handles : dlq.Handles name id) : dlq.Holds name id := by
  obtain ⟨run, found, -, first⟩ := handles
  exact ⟨run, found, List.mem_of_head? first⟩

theorem nodup_claimable (now : ℕ) (skipped : List ℕ) (queue : Queue) :
    (claimable config now skipped queue).Nodup := by
  have keys : (queue.entries.map Sigma.fst).Nodup := queue.nodupKeys
  apply List.Nodup.sublist (List.take_sublist _ _)
  apply ((List.perm_insertionSort _ _).map _).nodup_iff.mpr
  exact keys.sublist (List.filter_sublist.map _)

namespace Apart

theorem exclusive (apart : Apart dlq) : Exclusive dlq := fun first second id one two =>
  apart.apart first second id one.holds two.holds

theorem setRun (apart : Apart dlq) {name : ℕ} {run : RetryRun}
    (current : dlq.runs name = some run) (next : Option RetryRun)
    (fewer : ∀ later, next = some later → later.ids.Sublist run.ids) :
    Apart (dlq.setRun name next) := by
  have before {other : ℕ} {later : RetryRun}
      (found : (dlq.setRun name next).runs other = some later) :
      ∃ earlier, dlq.runs other = some earlier ∧ later.ids.Sublist earlier.ids := by
    rw [runs_setRun] at found
    split at found
    · next same => exact ⟨run, same ▸ current, fewer later found⟩
    · exact ⟨later, found, List.Sublist.refl _⟩
  have held {other id : ℕ} (holds : (dlq.setRun name next).Holds other id) :
      dlq.Holds other id := by
    obtain ⟨later, found, member⟩ := holds
    obtain ⟨earlier, was, rows⟩ := before found
    exact ⟨earlier, was, rows.subset member⟩
  constructor
  · intro other later found
    obtain ⟨earlier, was, rows⟩ := before found
    exact (apart.nodup other earlier was).sublist rows
  · intro first second id one two
    exact apart.apart first second id (held one) (held two)
  · intro other id holds
    exact apart.claimed other id (held holds)

theorem write (apart : Apart dlq) {condition : ℕ → Entry → Bool} {change : Entry → Entry}
    (keeps : ∀ name id entry, dlq.Holds name id → condition id entry = true →
      entry.state ≠ .queued → (change entry).state ≠ .queued) :
    Apart (dlq.write (updateWhere condition change)) := by
  constructor
  · exact apart.nodup
  · exact apart.apart
  · intro name id holds
    obtain ⟨entry, found, waiting⟩ := apart.claimed name id holds
    refine ⟨_, (lookup_updateWhere condition change).trans (by rw [found, Option.map_some]), ?_⟩
    split
    · next applies => exact keeps name id entry holds applies waiting
    · exact waiting

theorem enqueue (apart : Apart dlq) {id : ℕ} (fresh : dlq.queue.lookup id = none)
    (entry : Entry) : Apart (dlq.write fun queue => queue.insert id entry) := by
  constructor
  · exact apart.nodup
  · exact apart.apart
  · intro name other holds
    obtain ⟨known, found, waiting⟩ := apart.claimed name other holds
    have differs : other ≠ id := by
      rintro rfl
      rw [fresh] at found
      cases found
    exact ⟨known, (AList.lookup_insert_ne differs).trans found, waiting⟩

theorem unheld (apart : Apart dlq) {now : ℕ} {skipped order : List ℕ} {id other : ℕ} {name : ℕ}
    (taken : order.Perm (claimable config now skipped dlq.queue))
    (guarded : ClaimsOrphans dlq (.claim name now skipped order)) (member : id ∈ order) :
    ¬ dlq.Holds other id := by
  intro holds
  obtain ⟨entry, found, claimable⟩ := lookup_of_claimable (taken.mem_iff.mp member)
  obtain ⟨same, lookup, waiting⟩ := apart.claimed other id holds
  rw [found] at lookup
  cases lookup
  rcases Entry.state_of_isClaimable claimable with queued | retrying
  · exact waiting queued
  · exact guarded id member other entry holds found retrying

theorem claim (apart : Apart dlq) {name now : ℕ} {skipped order : List ℕ}
    (fresh : dlq.runs name = none) (taken : order.Perm (claimable config now skipped dlq.queue))
    (guarded : ClaimsOrphans dlq (.claim name now skipped order)) :
    Apart (dlq.claim name now order) := by
  have ids {other id : ℕ} (holds : (dlq.claim name now order).Holds other id) :
      (other = name ∧ id ∈ order) ∨ (other ≠ name ∧ dlq.Holds other id) := by
    obtain ⟨run, found, member⟩ := holds
    rw [Dlq.claim, runs_setRun] at found
    split at found
    · next same =>
        cases found
        refine Or.inl ⟨same, ?_⟩
        simpa [RetryRun.ids, Function.comp_def] using member
    · next differs => exact Or.inr ⟨differs, run, found, member⟩
  constructor
  · intro other run found
    rw [Dlq.claim, runs_setRun] at found
    split at found
    · cases found
      have unique : order.Nodup := taken.nodup_iff.mpr (nodup_claimable now skipped dlq.queue)
      simpa [RetryRun.ids, Function.comp_def] using unique
    · exact apart.nodup other run found
  · intro first second id one two
    rcases ids one with ⟨rfl, member⟩ | ⟨_, held⟩
    · rcases ids two with ⟨rfl, _⟩ | ⟨_, held⟩
      · rfl
      · exact absurd held (apart.unheld taken guarded member)
    · rcases ids two with ⟨_, member⟩ | ⟨_, also⟩
      · exact absurd held (apart.unheld taken guarded member)
      · exact apart.apart first second id held also
  · intro other id holds
    have written : ∃ entry, (claimEntries now order dlq.queue).lookup id = some entry ∧
        (id ∈ order → entry.state = .retrying) ∧ (id ∉ order → entry.state ≠ .queued) := by
      unfold claimEntries
      rw [lookup_updateWhere]
      rcases ids holds with ⟨_, member⟩ | ⟨_, held⟩
      · obtain ⟨entry, found, -⟩ := lookup_of_claimable (taken.mem_iff.mp member)
        simp [found, member]
      · obtain ⟨entry, found, waiting⟩ := apart.claimed other id held
        have foreign : id ∉ order := fun member => apart.unheld taken guarded member held
        simp [found, foreign, waiting]
    obtain ⟨entry, found, claimed, kept⟩ := written
    refine ⟨entry, found, ?_⟩
    by_cases member : id ∈ order
    · simp [claimed member]
    · exact kept member

theorem finish (apart : Apart dlq) {name : ℕ} {run : RetryRun} {row : Claimed}
    {rest : List Claimed} (current : dlq.runs name = some run) (inHand : run.rows = row :: rest)
    (change : Entry → Entry) :
    Apart ((dlq.write (updateWhere (fun other _ => other = row.id) change)).setRun name
      (some run.next)) := by
  have left : ∀ other, ¬ (dlq.setRun name (some run.next)).Holds other row.id := by
    intro other ⟨later, found, member⟩
    have first : dlq.Holds name row.id := ⟨run, current, by simp [RetryRun.ids, inHand]⟩
    rw [runs_setRun] at found
    split at found
    · cases found
      have unique := apart.nodup name run current
      simp only [RetryRun.ids, inHand, List.map_cons, List.nodup_cons] at unique
      exact unique.1 (by simpa [RetryRun.ids, RetryRun.next, inHand] using member)
    · next differs => exact differs (apart.apart other name row.id ⟨later, found, member⟩ first)
  have moved : Apart (dlq.setRun name (some run.next)) := by
    apply apart.setRun current
    intro later same
    cases same
    exact (List.tail_sublist run.rows).map _
  rw [setRun_write]
  apply moved.write
  intro other id entry holds applies
  exact absurd (of_decide_eq_true applies ▸ holds) (left other)

theorem statement (apart : Apart dlq) {name now : ℕ} {run : RetryRun} {row : Claimed}
    {rest : List Claimed} (current : dlq.runs name = some run)
    (inHand : run.rows = row :: rest) : Apart (dlq.statement config name now run row) := by
  have still (phase : Phase) : Apart (dlq.setRun name (some { run with phase := phase })) := by
    apply apart.setRun current
    intro later same
    cases same
    exact List.Sublist.refl _
  unfold Dlq.statement
  split
  next => exact apart
  next handled phase => exact apart.finish current inHand _
  next error phase => exact still _
  next error count phase =>
    split
    · next quarantined =>
        rw [setRun_write]
        apply (still (.quarantining error)).write
        intro other id entry holds applies waiting
        simp [recordedFailure, quarantined]
    · exact apart.finish current inHand _
  next error phase =>
    have quarantined : Apart (dlq.write (quarantineGroup row.id now error)) :=
      apart.write fun _ _ _ _ _ _ => DlqState.noConfusion
    apply quarantined.setRun current
    intro later same
    cases same
    exact (List.tail_sublist run.rows).map _

theorem step (apart : Apart dlq) (taken : OrphanStep config dlq action after) : Apart after := by
  obtain ⟨step, guarded⟩ := taken
  cases step with
  | enqueue id now error fresh => exact apart.enqueue fresh _
  | claim name now skipped order fresh claimed => exact apart.claim fresh claimed guarded
  | handled name outcome current inHand phase =>
    apply apart.setRun current
    intro later same
    cases same
    cases outcome <;> exact List.Sublist.refl _
  | statement name now current inHand phase => exact apart.statement current inHand
  | @statementFails run name error current inHand phase =>
    apply apart.setRun current
    intro later same
    unfold RetryRun.statementFailed at same
    split at same
    · cases same
      exact List.Sublist.refl _
    · cases same
  | crash name current =>
    apply apart.setRun current
    intro later same
    cases same
  | resolve id now reason => exact apart.write fun _ _ _ _ _ _ => DlqState.noConfusion
  | replayFails id now error => exact apart.write fun _ _ _ _ _ waiting => waiting
  | requeue errorClass now ids few requeued =>
    apply apart.write
    intro name id entry holds applies
    exact absurd holds (guarded id (List.contains_iff_mem.mp applies) name)

end Apart

/-- In every run whose claims leave alone what unfinished runs hold, no two runs execute the
handler on the same entry at the same time. -/
theorem exclusive_of_run {queue : Queue} {labels : List Action} {final : Dlq}
    (run : Run (OrphanStep config) (Dlq.start queue) labels final) : Exclusive final := by
  have apart : Apart final := run.invariant (apart_start queue) fun _ _ _ holds => holds.step
  exact apart.exclusive

theorem oneReplay_excludes : ∃ final,
    Run (OrphanStep {}) (Dlq.start oneEntry.queue) [.claim 0 30000 [] [1]] final ∧
      Exclusive final := by
  have claimed : Run (OrphanStep {}) (Dlq.start oneEntry.queue) [.claim 0 30000 [] [1]] _ :=
    Run.one ⟨.claim 0 30000 [] [1] rfl (by decide), by
      intro id _ name entry ⟨run, found, _⟩
      cases found⟩
  exact ⟨_, claimed, exclusive_of_run claimed⟩

/-! ### Runs that finish in time -/

def Action.now? : Action → Option ℕ
  | .enqueue _ now _ | .claim _ now _ _ | .statement _ now | .resolve _ now _
  | .replayFails _ now _ | .requeue _ now _ => some now
  | .handled .. | .statementFails .. | .crash _ => none

/-- The clock does not go back behind the claim of a run, and at a claim no unfinished run is
older than `STALE_CLAIM_MS`. -/
def Timely (dlq : Dlq) (action : Action) : Prop :=
  (∀ now, action.now? = some now → ∀ name run, dlq.runs name = some run → run.claimedAt ≤ now) ∧
    match action with
    | .claim _ now _ _ => ∀ name run, dlq.runs name = some run → run.rows ≠ [] →
        now ≤ run.claimedAt + staleClaimMs
    | .requeue _ _ ids => ∀ id ∈ ids, ∀ name, ¬ dlq.Holds name id
    | _ => True

def Young (dlq : Dlq) : Prop :=
  ∀ name run id entry, dlq.runs name = some run → id ∈ run.ids →
    dlq.queue.lookup id = some entry → run.claimedAt ≤ entry.updatedAt

namespace Young

theorem setRun (young : Young dlq) {name : ℕ} {run : RetryRun}
    (current : dlq.runs name = some run) (next : Option RetryRun)
    (fewer : ∀ later, next = some later →
      later.claimedAt = run.claimedAt ∧ later.ids.Sublist run.ids) :
    Young (dlq.setRun name next) := by
  intro other later id entry found member lookup
  rw [runs_setRun] at found
  split at found
  · obtain ⟨time, ids⟩ := fewer later found
    rw [time]
    exact young name run id entry current (ids.subset member) lookup
  · exact young other later id entry found member lookup

theorem write (young : Young dlq) {now : ℕ} {condition : ℕ → Entry → Bool}
    {change : Entry → Entry} (time : ∀ entry, (change entry).updatedAt = now)
    (late : ∀ name run, dlq.runs name = some run → run.claimedAt ≤ now) :
    Young (dlq.write (updateWhere condition change)) := by
  intro name run id entry found member lookup
  obtain ⟨earlier, was, rfl⟩ := Option.map_eq_some_iff.mp
    ((lookup_updateWhere condition change).symm.trans lookup)
  split
  · rw [time]
    exact late name run found
  · exact young name run id earlier found member was

theorem enqueue (young : Young dlq) {id now : ℕ} {error : DlqError}
    (late : ∀ name run, dlq.runs name = some run → run.claimedAt ≤ now) :
    Young (dlq.write fun queue => queue.insert id (enqueued config now error)) := by
  intro name run other entry found member lookup
  replace lookup := (Table.lookup_insert_eq dlq.queue).symm.trans lookup
  split at lookup
  · cases lookup
    exact late name run found
  · exact young name run other entry found member lookup

theorem claim (young : Young dlq) {name now : ℕ} {order : List ℕ}
    (late : ∀ name run, dlq.runs name = some run → run.claimedAt ≤ now) :
    Young (dlq.claim name now order) := by
  intro other run id entry found member lookup
  rw [Dlq.claim, runs_setRun] at found
  split at found
  · cases found
    obtain ⟨earlier, was, rfl⟩ := Option.map_eq_some_iff.mp
      ((lookup_updateWhere _ _).symm.trans lookup)
    have taken : order.contains id = true :=
      List.contains_iff_mem.mpr (by simpa [RetryRun.ids, Function.comp_def] using member)
    rw [if_pos taken]
  · have written : Young (dlq.write (claimEntries now order)) := by
      refine young.write ?_ late
      intro earlier
      rfl
    exact written other run id entry found member lookup

theorem statement (young : Young dlq) {name now : ℕ} {run : RetryRun} {row : Claimed}
    (current : dlq.runs name = some run)
    (late : ∀ name run, dlq.runs name = some run → run.claimedAt ≤ now) :
    Young (dlq.statement config name now run row) := by
  have moved (phase : Phase) : ∀ later, some { run with phase := phase } = some later →
      later.claimedAt = run.claimedAt ∧ later.ids.Sublist run.ids := by
    intro later same
    cases same
    exact ⟨rfl, List.Sublist.refl _⟩
  have next : ∀ later, some run.next = some later →
      later.claimedAt = run.claimedAt ∧ later.ids.Sublist run.ids := by
    intro later same
    cases same
    exact ⟨rfl, (List.tail_sublist run.rows).map _⟩
  unfold Dlq.statement
  split
  next => exact young
  next handled phase =>
    refine Young.setRun (young.write ?_ late) current _ next
    intro entry
    rfl
  next error phase => exact young.setRun current _ (moved _)
  next error count phase =>
    refine Young.setRun (young.write ?_ late) current _ ?_
    · intro entry
      rfl
    · split
      · exact moved _
      · exact next
  next error phase =>
    refine Young.setRun (young.write ?_ late) current _ next
    intro entry
    rfl

theorem step (young : Young dlq) (step : Step config dlq action after)
    (timely : Timely dlq action) : Young after := by
  obtain ⟨clock, -⟩ := timely
  cases step with
  | enqueue id now error fresh => exact young.enqueue (clock now rfl)
  | claim name now skipped order fresh claimed => exact young.claim (clock now rfl)
  | @handled run name outcome current inHand phase =>
    apply young.setRun current
    intro later same
    cases same
    cases outcome <;> exact ⟨rfl, List.Sublist.refl _⟩
  | statement name now current inHand phase => exact young.statement current (clock now rfl)
  | statementFails name error current inHand phase =>
    apply young.setRun current
    intro later same
    unfold RetryRun.statementFailed at same
    split at same
    · cases same
      exact ⟨rfl, List.Sublist.refl _⟩
    · cases same
  | crash name current =>
    apply young.setRun current
    intro later same
    cases same
  | resolve id now reason => exact young.write (fun _ => rfl) (clock now rfl)
  | replayFails id now error => exact young.write (fun _ => rfl) (clock now rfl)
  | requeue errorClass now ids few requeued => exact young.write (fun _ => rfl) (clock now rfl)

/-- A claim that finds no unfinished run too old takes nothing that one holds as stale. -/
theorem claimsOrphans (young : Young dlq) (step : Step config dlq action after)
    (timely : Timely dlq action) : ClaimsOrphans dlq action := by
  cases step with
  | claim name now skipped order fresh claimed =>
    intro id member other entry ⟨run, current, held⟩ found retrying
    have early := timely.2 other run current (by
      intro none
      simp [RetryRun.ids, none] at held)
    have written := young other run id entry current held found
    obtain ⟨same, lookup, claimable⟩ := lookup_of_claimable (claimed.mem_iff.mp member)
    rw [found] at lookup
    cases lookup
    simp only [Entry.isClaimable, retrying, Bool.or_eq_true, Bool.and_eq_true,
      decide_eq_true_eq] at claimable
    rcases claimable with ⟨queued, -⟩ | ⟨-, stale⟩
    · cases queued
    · omega
  | requeue errorClass now ids few requeued => exact timely.2
  | _ => trivial

end Young

/-- Runs that finish within `STALE_CLAIM_MS` of their claim exclude each other. -/
theorem exclusive_of_timely {queue : Queue} {labels : List Action} {final : Dlq}
    (run : Run (fun before action after => Step config before action after ∧ Timely before action)
      (Dlq.start queue) labels final) : Exclusive final := by
  have initial : Apart (Dlq.start queue) ∧ Young (Dlq.start queue) := by
    refine ⟨apart_start queue, ?_⟩
    intro name run id entry found
    cases found
  have both : Apart final ∧ Young final :=
    run.invariant (P := fun dlq => Apart dlq ∧ Young dlq) initial
      fun before action after ⟨apart, young⟩ ⟨step, timely⟩ =>
        ⟨apart.step ⟨step, young.claimsOrphans step timely⟩, young.step step timely⟩
  exact both.1.exclusive

/-! ### A batch that takes longer than a claim lasts -/

/-- The handler of the first run is still running when the second run claims its entry. -/
theorem staleClaim_overlaps : ¬ ∀ (queue : Queue) (labels : List Action) (final : Dlq),
    Run (Step {}) (Dlq.start queue) labels final → Exclusive final := by
  intro exclusive
  have claimed : Run (Step {}) (Dlq.start oneEntry.queue) [.claim 0 30000 [] [1]] _ :=
    Run.one (.claim 0 30000 [] [1] rfl (by decide))
  have again := claimed.snoc (.claim 1 630001 [] [1] rfl (by decide))
  have same := exclusive _ _ _ again 0 1 1 ⟨_, rfl, rfl, rfl⟩ ⟨_, rfl, rfl, rfl⟩
  cases same

end DeadLetters

end SorobanExplorer.Indexer
