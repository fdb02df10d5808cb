import SorobanExplorer.Indexer.QueryJobs
import SorobanExplorer.Library.Slots

/-!
Owns what a submission promises: an API key has no more active jobs than its tier allows, and the
same idempotency key always gives the same job.

The second holds in every run, by the unique index. The first depends on what happens between the
count and the insert of a submission, and on workers that start jobs which are not active any more.
-/

namespace SorobanExplorer.Indexer.QueryJobs

open Library

namespace State

def WithinQuota (config : Config) (state : State) : Prop :=
  ∀ apiKeyId, state.active apiKeyId ≤ quotaFor (config.tierOf apiKeyId)

def Idempotent (state : State) : Prop :=
  ∀ one two job other key, .returned one job ∈ state.tasks → .returned two other ∈ state.tasks →
    one.apiKeyId = two.apiKeyId → one.idempotencyKey = some key →
      two.idempotencyKey = some key → job ≠ none ∧ job = other

end State

/-- The next query of the task makes a job of the API key active: it inserts one, or it starts one
that is not active any more. -/
def Task.Activates (state : State) (apiKeyId : String) : Task → Prop
  | .insert _ request =>
    request.apiKeyId = apiKeyId ∧ state.byIdempotencyKey request = none
  | .markRunning _ job => ∃ row, state.jobs[job]? = some row ∧ row.isActive = false ∧
      row.apiKeyId = apiKeyId
  | _ => False

def State.Admitted (config : Config) (state : State) : Action → Prop
  | .proceed id => ∀ task, state.tasks[id]? = some task → ∀ apiKeyId,
      task.Activates state apiKeyId →
        state.active apiKeyId < quotaFor (config.tierOf apiKeyId)
  | _ => True

def Owns (jobs : List Job) (apiKeyId key : String) (id : JobId) : Prop :=
  ∃ row, jobs[id]? = some row ∧ row.apiKeyId = apiKeyId ∧ row.idempotencyKey = some key

def Task.Answers (jobs : List Job) : Task → Prop
  | .returned request job => ∀ key, request.idempotencyKey = some key →
      ∃ id, job = some id ∧ Owns jobs request.apiKeyId key id
  | .fallback request => ∃ key id, request.idempotencyKey = some key ∧
      Owns jobs request.apiKeyId key id
  | _ => True

namespace State

structure Indexed (state : State) : Prop where
  unique : ∀ apiKeyId key one two, Owns state.jobs apiKeyId key one →
    Owns state.jobs apiKeyId key two → one = two
  tasks : ∀ task ∈ state.tasks, task.Answers state.jobs

end State

/-! ### Looking up an idempotency key -/

section LookUp

variable {state : State} {request : Request} {jobs later : List Job} {task : Task}

theorem owns_of_byIdempotencyKey {id : JobId} (found : state.byIdempotencyKey request = some id) :
    ∃ key, request.idempotencyKey = some key ∧ Owns state.jobs request.apiKeyId key id := by
  unfold State.byIdempotencyKey at found
  split at found
  · nomatch found
  · next key given =>
      obtain ⟨inside, same, -⟩ := List.findIdx?_eq_some_iff_getElem.mp found
      rw [Bool.and_eq_true, beq_iff_eq, beq_iff_eq] at same
      exact ⟨key, given, _, List.getElem?_eq_getElem inside, same.1, same.2⟩

theorem not_owns_of_byIdempotencyKey {key : String} (given : request.idempotencyKey = some key)
    (free : state.byIdempotencyKey request = none) (id : JobId) :
    ¬ Owns state.jobs request.apiKeyId key id := by
  intro owns
  obtain ⟨row, found, owner, same⟩ := owns
  unfold State.byIdempotencyKey at free
  rw [given] at free
  have other := List.findIdx?_eq_none_iff.mp free row (List.mem_of_getElem? found)
  rw [owner, same, beq_self_eq_true, beq_self_eq_true] at other
  nomatch other

theorem Task.Answers.mono (answers : task.Answers jobs)
    (keeps : ∀ apiKeyId key id, Owns jobs apiKeyId key id → Owns later apiKeyId key id) :
    task.Answers later := by
  cases task with
  | returned request job =>
    intro key given
    obtain ⟨id, same, owns⟩ := answers key given
    exact ⟨id, same, keeps _ _ _ owns⟩
  | fallback request =>
    obtain ⟨key, id, given, owns⟩ := answers
    exact ⟨key, id, given, keeps _ _ _ owns⟩
  | lookUp | count | insert | refused | readToCancel | cancel | markCancelled | readToRun | start
  | markRunning | iterate | finish | clear | listRunning | failRunning | listQueued | listExpired
  | expire | ended => trivial

end LookUp

/-! ### One step of the index -/

namespace State.Indexed

variable {config : Config} {state before after : State} {id : TaskId} {task : Task}

theorem init : Indexed State.init where
  unique _ _ _ _ owns := by
    obtain ⟨row, found, -⟩ := owns
    nomatch found
  tasks := nofun

theorem idempotent (indexed : state.Indexed) : state.Idempotent := by
  intro one two job other key answered again same given also
  obtain ⟨first, rfl, owns⟩ := indexed.tasks _ answered key given
  obtain ⟨second, rfl, owns'⟩ := indexed.tasks _ again key also
  rw [← same] at owns'
  exact ⟨Option.some_ne_none _, congrArg some (indexed.unique _ _ _ _ owns owns')⟩

theorem owns_update {job : JobId} {status : Status} {expiresAt : Option ℕ} {apiKeyId key : String}
    {other : JobId} : Owns (state.update job status expiresAt).jobs apiKeyId key other ↔
      Owns state.jobs apiKeyId key other := by
  unfold update
  split
  · exact Iff.rfl
  · next row found =>
      have inside := (List.getElem?_eq_some_iff.mp found).1
      unfold Owns
      obtain rfl | apart := eq_or_ne other job
      · dsimp only
        rw [List.getElem?_set_self inside, found]
        constructor
        · intro owns
          obtain ⟨other, same, owner⟩ := owns
          cases same
          exact ⟨row, rfl, owner⟩
        · intro owns
          obtain ⟨other, same, owner⟩ := owns
          cases same
          exact ⟨_, rfl, owner⟩
      · dsimp only
        rw [List.getElem?_set_ne apart.symm]

theorem update (indexed : state.Indexed) (job : JobId) (status : Status) (expiresAt : Option ℕ) :
    (state.update job status expiresAt).Indexed where
  unique apiKeyId key one two owns owns' :=
    indexed.unique apiKeyId key one two (owns_update.mp owns) (owns_update.mp owns')
  tasks task listed := by
    have earlier : task ∈ state.tasks := by
      unfold State.update at listed
      split at listed
      · exact listed
      · exact listed
    exact (indexed.tasks task earlier).mono fun _ _ _ owns => owns_update.mpr owns

theorem same (indexed : state.Indexed) {next : State} (jobs : next.jobs = state.jobs)
    (tasks : ∀ task ∈ next.tasks, task ∈ state.tasks ∨ task.Answers state.jobs) :
    next.Indexed where
  unique := jobs ▸ indexed.unique
  tasks task listed := jobs ▸ (tasks task listed).elim (indexed.tasks task) id

theorem turn (indexed : state.Indexed) (answers : task.Answers state.jobs) :
    (state.turn id task).Indexed := by
  refine indexed.same rfl fun other listed => ?_
  obtain earlier | rfl := List.mem_or_eq_of_mem_set listed
  · exact .inl earlier
  · exact .inr answers

theorem answers_of_derived (indexed : state.Indexed) (derived : task.Derived state) :
    task.Answers state.jobs := by
  cases task with
  | returned request job =>
    intro key given
    obtain ⟨rfl, answered⟩ := derived
    have found : state.byIdempotencyKey request ≠ none := by
      obtain present | waiting := answered
      · exact present
      · obtain ⟨key', id, given', owns⟩ := indexed.tasks _ waiting
        exact fun free => not_owns_of_byIdempotencyKey given' free id owns
    obtain ⟨id, same⟩ := Option.ne_none_iff_exists'.mp found
    obtain ⟨key', given', owns⟩ := owns_of_byIdempotencyKey same
    cases given.symm.trans given'
    exact ⟨id, same, owns⟩
  | fallback request =>
    obtain ⟨id, same⟩ := Option.ne_none_iff_exists'.mp derived
    obtain ⟨key, given, owns⟩ := owns_of_byIdempotencyKey same
    exact ⟨key, id, given, owns⟩
  | lookUp | count | insert | refused | readToCancel | cancel | markCancelled | readToRun | start
  | markRunning | iterate | finish | clear | listRunning | failRunning | listQueued | listExpired
  | expire | ended => trivial

theorem answers_rest {write : JobId × Status × Status} (writes : task.write = some write)
    (jobs : List Job) : task.rest.Answers jobs := by
  cases task with
  | failRunning _ listed | expire listed =>
    cases listed with
    | nil => trivial
    | cons => trivial
  | fallback | returned => nomatch writes
  | lookUp | count | insert | refused | readToCancel | cancel | markCancelled | readToRun | start
  | markRunning | iterate | finish | clear | listRunning | listQueued | listExpired
  | ended => trivial

theorem owns_append {request : Request} {apiKeyId key : String} {other : JobId} :
    Owns (state.append config request).jobs apiKeyId key other ↔
      Owns state.jobs apiKeyId key other ∨ other = state.jobs.length ∧
        request.apiKeyId = apiKeyId ∧ request.idempotencyKey = some key := by
  unfold Owns append
  dsimp only
  by_cases inside : other < state.jobs.length
  · rw [List.getElem?_append_left inside]
    refine ⟨.inl, fun either => either.elim id fun last => ?_⟩
    exact absurd (last.1 ▸ inside) (Nat.lt_irrefl _)
  · rw [List.getElem?_append_right (not_lt.mp inside), List.getElem?_singleton]
    constructor
    · intro owns
      obtain ⟨row, found, owner⟩ := owns
      split at found
      · next last =>
          cases found
          exact .inr ⟨le_antisymm (Nat.sub_eq_zero_iff_le.mp last) (not_lt.mp inside), owner⟩
      · nomatch found
    · intro either
      obtain earlier | ⟨rfl, owner⟩ := either
      · obtain ⟨row, found, -⟩ := earlier
        exact absurd (List.getElem?_eq_some_iff.mp found).1 inside
      · exact ⟨_, if_pos (Nat.sub_self _), owner⟩

theorem insert (indexed : state.Indexed) {process : ProcessId} {request : Request}
    (free : state.byIdempotencyKey request = none) :
    (((state.append config request).push process [state.jobs.length]).turn id
      (.returned request (some state.jobs.length))).Indexed := by
  have inserted : ((state.append config request).push process [state.jobs.length]).Indexed := by
    refine ⟨fun apiKeyId key one two owns owns' => ?_, fun task listed =>
      (indexed.tasks task listed).mono fun _ _ _ owns => owns_append.mpr (.inl owns)⟩
    have unowned : request.apiKeyId = apiKeyId → request.idempotencyKey = some key →
        ∀ other, ¬ Owns state.jobs apiKeyId key other := by
      intro same given
      cases same
      exact not_owns_of_byIdempotencyKey given free
    obtain first | ⟨rfl, owner, given⟩ := owns_append.mp owns
    · obtain second | ⟨rfl, owner, given⟩ := owns_append.mp owns'
      · exact indexed.unique apiKeyId key one two first second
      · exact absurd first (unowned owner given one)
    · obtain second | ⟨rfl, -⟩ := owns_append.mp owns'
      · exact absurd second (unowned owner given two)
      · rfl
  refine inserted.turn fun key given => ⟨_, rfl, owns_append.mpr (.inr ⟨rfl, rfl, given⟩)⟩

theorem step {action : Action} (indexed : before.Indexed)
    (taken : Step config before action after) : after.Indexed := by
  cases effect_of_step taken with
  | still _ jobs _ tasks =>
    exact indexed.same jobs fun task listed =>
      (tasks task listed).imp_right indexed.answers_of_derived
  | write found writes => exact (indexed.update _ _ _).turn (answers_rest writes _)
  | insert found free => exact indexed.insert free

end State.Indexed

/-! ### One step of the count -/

namespace State

variable {config : Config} {state before after : State} {id : TaskId} {task : Task}
  {apiKeyId : String}

theorem active_append (request : Request) : (state.append config request).active apiKeyId =
    state.active apiKeyId + if request.apiKeyId = apiKeyId then 1 else 0 := by
  unfold append active
  rw [List.countP_append, List.countP_singleton]
  simp [Job.isActive]

theorem active_update {job : JobId} {new : Status} {expiresAt : Option ℕ} {row : Job}
    (found : state.jobs[job]? = some row) : (state.update job new expiresAt).active apiKeyId +
      (row.apiKeyId == apiKeyId && row.isActive).toNat = state.active apiKeyId +
        (row.apiKeyId == apiKeyId && (new == .queued || new == .running)).toNat := by
  rw [update_eq_of_found found]
  exact countP_set_add found _ _

theorem active_of_missing {job : JobId} {new : Status} {expiresAt : Option ℕ}
    (missing : state.jobs[job]? = none) :
    (state.update job new expiresAt).active apiKeyId = state.active apiKeyId := by
  unfold update
  rw [missing]

theorem activates_iff {job : JobId} {seen new : Status}
    (write : task.write = some (job, seen, new)) : task.Activates state apiKeyId ↔
      new = .running ∧ ∃ row, state.jobs[job]? = some row ∧ row.isActive = false ∧
        row.apiKeyId = apiKeyId := by
  cases task with
  | markRunning process job =>
    cases write
    exact ⟨fun activates => ⟨rfl, activates⟩, And.right⟩
  | markCancelled =>
    cases write
    exact ⟨False.elim, fun both => nomatch both.1⟩
  | finish process job outcome =>
    cases write
    refine ⟨False.elim, fun both => ?_⟩
    cases outcome with
    | cancelled | succeeded | failed => nomatch both.1
  | failRunning process listed =>
    cases listed with
    | nil => nomatch write
    | cons =>
      cases write
      exact ⟨False.elim, fun both => nomatch both.1⟩
  | expire listed =>
    cases listed with
    | nil => nomatch write
    | cons =>
      cases write
      exact ⟨False.elim, fun both => nomatch both.1⟩
  | lookUp | count | insert | fallback | returned | refused | readToCancel | cancel | readToRun | start
  | iterate | clear | listRunning | listQueued | listExpired | ended => nomatch write

theorem active_write_of_activates {job : JobId} {seen new : Status} {expiresAt : Option ℕ}
    (write : task.write = some (job, seen, new)) (activates : task.Activates state apiKeyId) :
    (state.update job new expiresAt).active apiKeyId = state.active apiKeyId + 1 := by
  obtain ⟨rfl, row, found, inactive, rfl⟩ := (activates_iff write).mp activates
  have counts : (state.update job .running expiresAt).active row.apiKeyId + _ = _ :=
    active_update found
  simpa [inactive] using counts

theorem active_write_le {job : JobId} {seen new : Status} {expiresAt : Option ℕ}
    (write : task.write = some (job, seen, new)) (idle : ¬ task.Activates state apiKeyId) :
    (state.update job new expiresAt).active apiKeyId ≤ state.active apiKeyId := by
  cases found : state.jobs[job]? with
  | none => exact (active_of_missing found).le
  | some row =>
    have counts : (state.update job new expiresAt).active apiKeyId + _ = _ := active_update found
    have fewer : (row.apiKeyId == apiKeyId && (new == .queued || new == .running)).toNat ≤
        (row.apiKeyId == apiKeyId && row.isActive).toNat := by
      cases counted : row.apiKeyId == apiKeyId && (new == .queued || new == .running) with
      | false => exact Nat.zero_le _
      | true =>
        rw [Bool.and_eq_true, beq_iff_eq, Bool.or_eq_true, beq_iff_eq, beq_iff_eq] at counted
        have running := counted.2.resolve_left (Task.started_of_write write)
        cases active : row.isActive with
        | true =>
          rw [counted.1, beq_self_eq_true]
          exact le_rfl
        | false =>
          exact absurd ((activates_iff write).mpr ⟨running, row, found, active, counted.1⟩)
            idle
    omega

/-! ### The quota -/

theorem WithinQuota.step {action : Action} (within : before.WithinQuota config)
    (admitted : before.Admitted config action) (taken : Step config before action after) :
    after.WithinQuota config := by
  intro apiKeyId
  have bound := within apiKeyId
  cases effect_of_step taken with
  | still _ jobs =>
    unfold active
    rw [jobs]
    exact bound
  | @write id task job seen new expiresAt found write =>
    change (before.update job new expiresAt).active apiKeyId ≤ _
    by_cases activates : task.Activates before apiKeyId
    · rw [active_write_of_activates write activates]
      exact admitted task found apiKeyId activates
    · exact (active_write_le write activates).trans bound
  | @insert id process request found free =>
    change (before.append config request).active apiKeyId ≤ _
    rw [active_append]
    split
    · next same => exact admitted _ found apiKeyId ⟨same, free⟩
    · exact bound

theorem admitted_of_within {action : Action} (taken : Step config before action after)
    (within : after.WithinQuota config) : before.Admitted config action := by
  cases effect_of_step taken with
  | still quiet =>
    cases action with
    | proceed id =>
      intro task found apiKeyId activates
      obtain ⟨silent, conflicts⟩ := quiet task found
      cases task with
      | insert process request => exact absurd activates.2 (conflicts process request rfl)
      | markRunning => nomatch silent
      | lookUp | count | fallback | returned | refused | readToCancel | cancel | markCancelled
      | readToRun | start | iterate | finish | clear | listRunning | failRunning | listQueued
      | listExpired | expire | ended => exact activates.elim
    | submit | cancel | pump | maintain | sweep | advance | batch | exhausted | broken =>
      trivial
  | @write id task job seen new expiresAt found write =>
    intro other same apiKeyId activates
    cases found.symm.trans same
    have bound : (before.update job new expiresAt).active apiKeyId ≤ _ := within apiKeyId
    rw [active_write_of_activates write activates] at bound
    exact bound
  | @insert id process request found free =>
    intro other same apiKeyId activates
    cases found.symm.trans same
    obtain ⟨rfl, -⟩ := activates
    have bound : (before.append config request).active request.apiKeyId ≤ _ :=
      within request.apiKeyId
    rw [active_append, if_pos rfl] at bound
    exact bound

end State

/-! ### Whole runs -/

/-- The quota and the idempotency keys hold in exactly the runs in which everything that makes a
job active finds a free place in the quota. -/
theorem quota_iff_eachStep (config : Config) {actions : List Action} {final : State}
    (run : Run (Step config) .init actions final) :
    (Along (Step config) .init actions fun _ state =>
      state.WithinQuota config ∧ state.Idempotent) ↔
        EachStep (Step config) .init actions (State.Admitted config) :=
  Run.along_iff_eachStep (I := fun _ state => state.WithinQuota config ∧ state.Indexed)
    (deterministic config) run ⟨fun _ => Nat.zero_le _, State.Indexed.init⟩
    (fun _ _ _ kept => ⟨kept.1, kept.2.idempotent⟩)
    (fun _ _ _ _ _ kept admitted taken => ⟨kept.1.step admitted taken, kept.2.step taken⟩)
    (fun _ _ _ _ _ _ taken within => State.admitted_of_within taken within.1)

def onceRequest : Request := ⟨"key", some "once"⟩

def submittedAgain : List Action :=
  [.submit 0 onceRequest, .proceed 0, .proceed 0, .proceed 0, .submit 0 onceRequest, .proceed 1]

def countedTwice : List Action :=
  [.submit 0 exampleRequest, .submit 0 exampleRequest, .proceed 0, .proceed 1, .proceed 0,
    .proceed 1]

theorem submittedAgain_within : ∃ final, Run (Step exampleConfig) .init submittedAgain final ∧
    Along (Step exampleConfig) .init submittedAgain fun _ state =>
      state.WithinQuota exampleConfig ∧ state.Idempotent := by
  have submitted := EachStep.extend (deterministic exampleConfig) ⟨Run.nil, EachStep.nil⟩
    (show State.Admitted exampleConfig .init (.submit 0 onceRequest) from trivial) rfl
  have looked := EachStep.extend (deterministic _) submitted
    (show State.Admitted exampleConfig _ (.proceed 0) from fun task found _ activates => by
      cases found
      exact activates.elim) rfl
  have counted := EachStep.extend (deterministic _) looked
    (show State.Admitted exampleConfig _ (.proceed 0) from fun task found _ activates => by
      cases found
      exact activates.elim) rfl
  have inserted := EachStep.extend (deterministic _) counted
    (show State.Admitted exampleConfig _ (.proceed 0) from fun task found _ activates => by
      cases found
      obtain ⟨rfl, -⟩ := activates
      decide) rfl
  have again := EachStep.extend (deterministic _) inserted
    (show State.Admitted exampleConfig _ (.submit 0 onceRequest) from trivial) rfl
  have answered := EachStep.extend (deterministic _) again
    (show State.Admitted exampleConfig _ (.proceed 1) from fun task found _ activates => by
      cases found
      exact activates.elim) rfl
  exact ⟨_, answered.1, (quota_iff_eachStep _ answered.1).mpr answered.2⟩

theorem countedTwice_exceeds : ∃ final, Run (Step exampleConfig) .init countedTwice final ∧
    ¬ final.WithinQuota exampleConfig := by
  have possible : (countedTwice.foldlM (State.step exampleConfig) .init).map
      (fun state => state.active "key") = some 2 := rfl
  obtain ⟨final, reached, active⟩ := Option.map_eq_some_iff.mp possible
  refine ⟨final, run_of_foldlM reached, fun within => ?_⟩
  have bound := within "key"
  rw [active] at bound
  exact absurd bound (by decide)

end SorobanExplorer.Indexer.QueryJobs
