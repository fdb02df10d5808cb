import Mathlib.Data.List.Infix
import Mathlib.Data.List.Nodup
import SorobanExplorer.Library.Run
import SorobanExplorer.Library.Slots

/-!
Owns the job queue: claims, heartbeats, the finishing writes and cancellations of any number
of workers, whose handlers run for any time. A claim first re-queues every running job whose
heartbeat is too old.

`kept_of_spared` says in which runs a finished job stays finished, a job is executed by one
worker and a job is started at most `max_attempts` times.
-/

namespace SorobanExplorer.Indexer

open Library

namespace JobScheduler

/-! ### The table -/

inductive PriorityClass where
  | live
  | interactive
  | maintenance
  | bulk
deriving DecidableEq, Repr

def PriorityClass.weight : PriorityClass → ℕ
  | .live => 40
  | .interactive => 30
  | .maintenance => 20
  | .bulk => 10

inductive Status where
  | queued
  | running
  | completed
  | failed
  | cancelled
deriving DecidableEq, Repr

def Status.terminal : Status → Bool
  | .completed | .failed | .cancelled => true
  | .queued | .running => false

/-- A row of `jobs`. Times are in milliseconds. -/
structure Job where
  priorityClass : PriorityClass
  tenantId : Option String
  status : Status
  attempts : ℕ
  maxAttempts : ℤ
  availableAt : ℤ
  heartbeatAt : Option ℤ
  workerId : Option String
  createdAt : ℤ
deriving DecidableEq, Repr

abbrev Jobs := ℕ → Option Job

/-- `JOB_HEARTBEAT_MS`, and the order of texts in the database. -/
structure Config where
  heartbeatMs : ℤ
  textBefore : String → String → Prop

/-- `UPDATE jobs SET … WHERE …`. -/
def Jobs.update (jobs : Jobs) (condition : ℕ → Job → Bool) (change : Job → Job) : Jobs :=
  fun id => (jobs id).map fun job => if condition id job then change job else job

/-! ### The operations -/

/-- The row that `enqueueJob` inserts. -/
def enqueueJob (now : ℤ) (priorityClass : PriorityClass) (tenantId : Option String)
    (maxAttempts availableAt : ℤ) : Job :=
  ⟨priorityClass, tenantId, .queued, 0, maxAttempts, availableAt, none, none, now⟩

/-- `heartbeat_at` is `NULL` in a job that is not running, and compares with nothing. -/
def stale (config : Config) (now : ℤ) (job : Job) : Bool :=
  job.status = .running && job.heartbeatAt.any fun heartbeatAt =>
    heartbeatAt < now - config.heartbeatMs

def requeueStale (config : Config) (now : ℤ) (jobs : Jobs) : Jobs :=
  jobs.update (fun _ job => stale config now job) fun job =>
    { job with status := .queued, heartbeatAt := none }

def claimable (now : ℤ) (classes : List PriorityClass) (job : Job) : Bool :=
  job.status = .queued && job.availableAt ≤ now && job.priorityClass ∈ classes

def Job.tenantKey (job : Job) : String :=
  if job.priorityClass = .interactive then job.tenantId.getD "" else ""

def Job.Precedes (config : Config) (job other : Job) : Prop :=
  other.priorityClass.weight < job.priorityClass.weight ∨
    other.priorityClass.weight = job.priorityClass.weight ∧
      (config.textBefore job.tenantKey other.tenantKey ∨
        job.tenantKey = other.tenantKey ∧ job.createdAt < other.createdAt)

structure Picks (config : Config) (now : ℤ) (classes : List PriorityClass) (locked : List ℕ)
    (jobs : Jobs) (id : ℕ) (job : Job) : Prop where
  found : jobs id = some job
  claimable : claimable now classes job = true
  unlocked : id ∉ locked
  first : ∀ other row, jobs other = some row → JobScheduler.claimable now classes row = true →
    other ∉ locked → ¬ row.Precedes config job

def start (now : ℤ) (workerId : String) (id : ℕ) (jobs : Jobs) : Jobs :=
  jobs.update (fun other _ => other = id) fun job =>
    { job with
      status := .running
      attempts := job.attempts + 1
      heartbeatAt := some now
      workerId := some workerId }

def heartbeatJob (now : ℤ) (id : ℕ) (jobs : Jobs) : Jobs :=
  jobs.update (fun other job => other = id && job.status = .running) fun job =>
    { job with heartbeatAt := some now }

def completeJob (id : ℕ) (jobs : Jobs) : Jobs :=
  jobs.update (fun other _ => other = id) fun job =>
    { job with status := .completed, heartbeatAt := none }

def failJob (now : ℤ) (id : ℕ) (retry : Bool) (jobs : Jobs) : Jobs :=
  jobs.update (fun other _ => other = id) fun job =>
    { job with
      status := if retry && job.attempts < job.maxAttempts then .queued else .failed
      availableAt := now + min job.attempts 8 * 60000
      heartbeatAt := none }

def cancelJob (id : ℕ) (jobs : Jobs) : Jobs :=
  jobs.update (fun other job => other = id && (job.status = .queued || job.status = .running))
    fun job => { job with status := .cancelled, heartbeatAt := none }

/-! ### Workers -/

structure Execution where
  workerId : String
  id : ℕ
deriving DecidableEq, Repr

structure System where
  now : ℤ
  jobs : Jobs
  executing : List Execution

def System.initial : System := ⟨0, fun _ => none, []⟩

inductive Action where
  | tick (elapsed : ℕ)
  | enqueue (id : ℕ) (priorityClass : PriorityClass) (tenantId : Option String)
      (maxAttempts availableAt : ℤ)
  | claim (workerId : String) (classes : List PriorityClass) (locked : List ℕ)
      (picked : Option ℕ)
  | heartbeat (id : ℕ)
  | complete (position : ℕ)
  | fail (position : ℕ) (retry : Bool)
  | cancel (id : ℕ)
deriving DecidableEq, Repr

/-- A worker writes the end of a job when the handler is done, whatever the row says by then. -/
inductive Step (config : Config) : System → Action → System → Prop
  | tick {system : System} (elapsed : ℕ) :
      Step config system (.tick elapsed) { system with now := system.now + elapsed }
  | enqueue {system : System} (id : ℕ) (priorityClass : PriorityClass)
      (tenantId : Option String) (maxAttempts availableAt : ℤ) (fresh : system.jobs id = none) :
      Step config system (.enqueue id priorityClass tenantId maxAttempts availableAt)
        { system with
          jobs := Function.update system.jobs id
            (some (enqueueJob system.now priorityClass tenantId maxAttempts availableAt)) }
  | claimNone {system : System} (workerId : String) (classes : List PriorityClass)
      (locked : List ℕ)
      (nothing : ∀ id job, requeueStale config system.now system.jobs id = some job →
        claimable system.now classes job = true → id ∈ locked) :
      Step config system (.claim workerId classes locked none)
        { system with jobs := requeueStale config system.now system.jobs }
  | claim {system : System} {job : Job} (workerId : String) (classes : List PriorityClass)
      (locked : List ℕ) (id : ℕ)
      (picks : Picks config system.now classes locked
        (requeueStale config system.now system.jobs) id job) :
      Step config system (.claim workerId classes locked (some id))
        { system with
          jobs := start system.now workerId id (requeueStale config system.now system.jobs)
          executing := system.executing ++ [⟨workerId, id⟩] }
  | heartbeat {system : System} (id : ℕ) :
      Step config system (.heartbeat id)
        { system with jobs := heartbeatJob system.now id system.jobs }
  | complete {system : System} {execution : Execution} (position : ℕ)
      (found : system.executing[position]? = some execution) :
      Step config system (.complete position)
        { system with
          jobs := completeJob execution.id system.jobs
          executing := system.executing.eraseIdx position }
  | fail {system : System} {execution : Execution} (position : ℕ) (retry : Bool)
      (found : system.executing[position]? = some execution) :
      Step config system (.fail position retry)
        { system with
          jobs := failJob system.now execution.id retry system.jobs
          executing := system.executing.eraseIdx position }
  | cancel {system : System} (id : ℕ) :
      Step config system (.cancel id) { system with jobs := cancelJob id system.jobs }

/-! ### What is promised -/

def Action.starts : Action → Option ℕ
  | .claim _ _ _ picked => picked
  | _ => none

def starts (id : ℕ) (history : List Action) : ℕ :=
  history.countP fun action => action.starts = some id

def Settled (config : Config) (history : List Action) (system : System) : Prop :=
  ∀ earlier before, earlier <+: history → Run (Step config) System.initial earlier before →
    ∀ id job, before.jobs id = some job → job.status.terminal = true →
      (system.jobs id).map Job.status = some job.status

structure Kept (config : Config) (history : List Action) (system : System) : Prop where
  settled : Settled config history system
  exclusive : ∀ first ∈ system.executing, ∀ second ∈ system.executing, first.id = second.id →
    first.workerId = second.workerId
  bounded : ∀ id job, system.jobs id = some job → starts id history ≤ job.maxAttempts

def Executing (system : System) (id : ℕ) : Prop :=
  id ∈ system.executing.map Execution.id

/-- A job may be started at all; one that is re-queued is no longer executed and has attempts
left; one that is cancelled is not being executed. -/
def Spared (config : Config) (system : System) : Action → Prop
  | .enqueue _ _ _ maxAttempts _ => 0 < maxAttempts
  | .claim _ _ _ _ => ∀ id job, system.jobs id = some job → stale config system.now job = true →
      ¬ Executing system id ∧ job.attempts < job.maxAttempts
  | .cancel id => ¬ Executing system id
  | _ => True

theorem deterministic (config : Config) : Deterministic (Step config) := by
  intro before action first second left right
  cases left with
  | tick => cases right; rfl
  | enqueue => cases right; rfl
  | claimNone => cases right; rfl
  | claim => cases right; rfl
  | heartbeat => cases right; rfl
  | complete position found =>
    cases right with
    | complete _ again => cases found.symm.trans again; rfl
  | fail position retry found =>
    cases right with
    | fail _ _ again => cases found.symm.trans again; rfl
  | cancel => cases right; rfl

/-! ### What guarded runs keep -/

/-- What is executed is running, and is executed once; what is queued has attempts left. -/
structure Sound (history : List Action) (system : System) : Prop where
  running : ∀ execution ∈ system.executing,
    (system.jobs execution.id).map Job.status = some .running
  alone : (system.executing.map Execution.id).Nodup
  room : ∀ id job, system.jobs id = some job → job.status = .queued →
    job.attempts < job.maxAttempts
  bounded : ∀ id job, system.jobs id = some job → job.attempts ≤ job.maxAttempts
  counted : ∀ id, starts id history = ((system.jobs id).map Job.attempts).getD 0

section Updates

variable {jobs : Jobs} {condition : ℕ → Job → Bool} {change : Job → Job} {id : ℕ} {job after : Job}

theorem update_eq_some_iff : jobs.update condition change id = some after ↔
    ∃ job, jobs id = some job ∧ (if condition id job then change job else job) = after :=
  Option.map_eq_some_iff

theorem map_update {α : Type*} (column : Job → α)
    (same : ∀ job, jobs id = some job → condition id job = true →
      column (change job) = column job) :
    (jobs.update condition change id).map column = (jobs id).map column := by
  cases found : jobs id with
  | none => simp [Jobs.update, found]
  | some job =>
    rw [Jobs.update, found, Option.map_some, Option.map_some, Option.map_some]
    split
    · next applies => exact congrArg some (same job found applies)
    · rfl

theorem start_self {now : ℤ} {workerId : String} (found : jobs id = some job) :
    start now workerId id jobs id = some { job with
      status := .running
      attempts := job.attempts + 1
      heartbeatAt := some now
      workerId := some workerId } := by
  simp [start, Jobs.update, found]

theorem start_of_ne {now : ℤ} {workerId : String} {other : ℕ} (distinct : other ≠ id) :
    start now workerId id jobs other = jobs other := by
  simp [start, Jobs.update, distinct]

end Updates

section Steps

variable {config : Config} {history : List Action} {before after system : System}
  {action : Action}

theorem starts_snoc (id : ℕ) : starts id (history ++ [action]) =
    starts id history + if action.starts = some id then 1 else 0 := by
  rw [starts, List.countP_append, List.countP_singleton]
  simp only [starts, decide_eq_true_eq]

theorem starts_snoc_of_none (id : ℕ) (none : action.starts = none) :
    starts id (history ++ [action]) = starts id history := by
  rw [starts_snoc, none, if_neg (by simp)]
  rfl

theorem Sound.executing_running (sound : Sound history system) {id : ℕ} {job : Job}
    (executing : Executing system id) (found : system.jobs id = some job) :
    job.status = .running := by
  obtain ⟨execution, member, rfl⟩ := List.mem_map.mp executing
  have running := sound.running execution member
  rw [found] at running
  exact Option.some.inj running

theorem Sound.update (sound : Sound history system) {later : List Action}
    {condition : ℕ → Job → Bool} {change : Job → Job} {executing : List Execution}
    (fewer : executing.Sublist system.executing)
    (attempts : ∀ job, (change job).attempts = job.attempts)
    (maxAttempts : ∀ job, (change job).maxAttempts = job.maxAttempts)
    (running : ∀ execution ∈ executing, ∀ job, system.jobs execution.id = some job →
      condition execution.id job = true → job.status = .running → (change job).status = .running)
    (room : ∀ id job, system.jobs id = some job → condition id job = true →
      (change job).status = .queued → job.attempts < job.maxAttempts)
    (same : ∀ id, starts id later = starts id history) :
    Sound later
      { system with jobs := system.jobs.update condition change, executing := executing } where
  running execution member := by
    have before := sound.running execution (fewer.subset member)
    rw [map_update Job.status]
    · exact before
    · intro job found applies
      rw [found] at before
      rw [running execution member job found applies (Option.some.inj before),
        Option.some.inj before]
  alone := sound.alone.sublist (fewer.map _)
  room id after found queued := by
    obtain ⟨job, earlier, rfl⟩ := update_eq_some_iff.mp found
    split at queued
    · next applies =>
        rw [if_pos applies, attempts, maxAttempts]
        exact room id job earlier applies queued
    · next skipped =>
        rw [if_neg skipped]
        exact sound.room id job earlier queued
  bounded id after found := by
    obtain ⟨job, earlier, rfl⟩ := update_eq_some_iff.mp found
    split
    · rw [attempts, maxAttempts]
      exact sound.bounded id job earlier
    · exact sound.bounded id job earlier
  counted id := by
    rw [same, sound.counted id]
    exact congrArg (·.getD 0) (map_update Job.attempts fun job _ _ => attempts job).symm

theorem stale_running {now : ℤ} {job : Job} (old : stale config now job = true) :
    job.status = .running := by
  simp only [stale, Bool.and_eq_true, decide_eq_true_eq] at old
  exact old.1

theorem Sound.requeueStale (sound : Sound history system)
    (spared : ∀ id job, system.jobs id = some job → stale config system.now job = true →
      ¬ Executing system id ∧ job.attempts < job.maxAttempts) {later : List Action}
    (same : ∀ id, starts id later = starts id history) :
    Sound later { system with
      jobs := JobScheduler.requeueStale config system.now system.jobs } := by
  refine sound.update (List.Sublist.refl _) (fun _ => rfl) (fun _ => rfl) ?_ ?_ same
  · intro execution member job found old
    exact absurd (List.mem_map_of_mem member) (spared _ _ found old).1
  · intro id job found old _
    exact (spared id job found old).2

theorem Sound.start (sound : Sound history system) {workerId : String} {id : ℕ} {job : Job}
    (found : system.jobs id = some job) (queued : job.status = .queued)
    (starting : action.starts = some id) :
    Sound (history ++ [action]) { system with
      jobs := JobScheduler.start system.now workerId id system.jobs
      executing := system.executing ++ [⟨workerId, id⟩] } where
  running execution member := by
    dsimp only at member ⊢
    by_cases same : execution.id = id
    · rw [same, start_self found]
      rfl
    · have earlier : execution ∈ system.executing := by
        refine (List.mem_append.mp member).resolve_right fun new => same ?_
        rw [List.mem_singleton.mp new]
      rw [start_of_ne same]
      exact sound.running execution earlier
  alone := by
    have idle : id ∉ system.executing.map Execution.id := fun executing => by
      have running := sound.executing_running executing found
      rw [queued] at running
      cases running
    rw [List.map_append, List.map_singleton, ← List.concat_eq_append]
    exact (List.nodup_concat _ _).mpr ⟨idle, sound.alone⟩
  room other after there waits := by
    dsimp only at there
    by_cases same : other = id
    · rw [same, start_self found] at there
      cases there
      cases waits
    · rw [start_of_ne same] at there
      exact sound.room other after there waits
  bounded other after there := by
    dsimp only at there
    by_cases same : other = id
    · rw [same, start_self found] at there
      cases there
      exact sound.room id job found queued
    · rw [start_of_ne same] at there
      exact sound.bounded other after there
  counted other := by
    dsimp only
    rw [starts_snoc, starting, sound.counted other]
    by_cases same : other = id
    · rw [same, start_self found, found]
      simp
    · rw [start_of_ne same, if_neg fun equal => same (Option.some.inj equal).symm, Nat.add_zero]

theorem Sound.enqueue (sound : Sound history system) {id : ℕ} {priorityClass : PriorityClass}
    {tenantId : Option String} {maxAttempts availableAt : ℤ} (fresh : system.jobs id = none)
    (positive : 0 < maxAttempts) (same : ∀ id, starts id (history ++ [action]) = starts id history) :
    Sound (history ++ [action]) { system with
      jobs := Function.update system.jobs id
        (some (enqueueJob system.now priorityClass tenantId maxAttempts availableAt)) } := by
  have others {other : ℕ} {after : Job} (found : Function.update system.jobs id
      (some (enqueueJob system.now priorityClass tenantId maxAttempts availableAt)) other =
        some after) :
      after = enqueueJob system.now priorityClass tenantId maxAttempts availableAt ∨
        system.jobs other = some after :=
    (of_update found).imp (fun new => (Option.some.inj new.2).symm) And.right
  constructor
  · intro execution member
    have running := sound.running execution member
    have apart : execution.id ≠ id := by
      intro same
      rw [same, fresh] at running
      cases running
    dsimp only
    rw [Function.update_of_ne apart]
    exact running
  · exact sound.alone
  · intro other after found queued
    rcases others found with rfl | earlier
    · exact positive
    · exact sound.room other after earlier queued
  · intro other after found
    rcases others found with rfl | earlier
    · exact Int.le_of_lt positive
    · exact sound.bounded other after earlier
  · intro other
    dsimp only
    rw [same, sound.counted other, Function.update_apply]
    split
    · next equal => rw [equal, fresh]; rfl
    · rfl

theorem eraseIdx_apart {executions : List Execution} {position : ℕ} {execution other : Execution}
    (alone : (executions.map Execution.id).Nodup)
    (found : executions[position]? = some execution)
    (member : other ∈ executions.eraseIdx position) : other.id ≠ execution.id := by
  obtain ⟨place, apart, there⟩ := List.mem_eraseIdx_iff_getElem?.mp member
  intro same
  have inside : place < (executions.map Execution.id).length := by
    rw [List.length_map]
    exact (List.getElem?_eq_some_iff.mp there).1
  refine apart ((List.getElem?_inj inside alone).mp ?_)
  rw [List.getElem?_map, List.getElem?_map, there, found, Option.map_some, Option.map_some, same]

theorem Sound.finish (sound : Sound history system) {position : ℕ} {execution : Execution}
    {change : Job → Job} (found : system.executing[position]? = some execution)
    (attempts : ∀ job, (change job).attempts = job.attempts)
    (maxAttempts : ∀ job, (change job).maxAttempts = job.maxAttempts)
    (room : ∀ job, (change job).status = .queued → job.attempts < job.maxAttempts)
    (none : action.starts = none) :
    Sound (history ++ [action]) { system with
      jobs := system.jobs.update (fun other _ => other = execution.id) change
      executing := system.executing.eraseIdx position } := by
  refine sound.update (List.eraseIdx_sublist ..) attempts maxAttempts ?_ ?_
    fun id => starts_snoc_of_none id none
  · intro other member job _ same _
    exact absurd (of_decide_eq_true same) (eraseIdx_apart sound.alone found member)
  · intro id job _ _ queued
    exact room job queued

theorem Sound.step (sound : Sound history before) (spared : Spared config before action)
    (taken : Step config before action after) : Sound (history ++ [action]) after := by
  cases taken with
  | tick elapsed =>
    exact ⟨sound.running, sound.alone, sound.room, sound.bounded, fun id =>
      (starts_snoc_of_none id rfl).trans (sound.counted id)⟩
  | enqueue id priorityClass tenantId maxAttempts availableAt fresh =>
    exact sound.enqueue fresh spared fun id => starts_snoc_of_none id rfl
  | claimNone workerId classes locked nothing =>
    exact sound.requeueStale spared fun id => starts_snoc_of_none id rfl
  | claim workerId classes locked id picks =>
    have requeued := sound.requeueStale spared fun id => Eq.refl (starts id history)
    have claimable := picks.claimable
    simp only [JobScheduler.claimable, Bool.and_eq_true, decide_eq_true_eq] at claimable
    exact requeued.start picks.found claimable.1.1 rfl
  | heartbeat id =>
    refine sound.update (List.Sublist.refl _) (fun _ => rfl) (fun _ => rfl) ?_ ?_
      fun id => starts_snoc_of_none id rfl
    · intro _ _ _ _ _ running
      exact running
    · intro other job found _ queued
      exact sound.room other job found queued
  | complete position found =>
    refine sound.finish found (fun _ => rfl) (fun _ => rfl) ?_ rfl
    intro job queued
    cases queued
  | fail position retry found =>
    refine sound.finish found (fun _ => rfl) (fun _ => rfl) ?_ rfl
    intro job queued
    dsimp only at queued
    split at queued
    · next again =>
        simp only [Bool.and_eq_true, decide_eq_true_eq] at again
        exact again.2
    · cases queued
  | cancel id =>
    refine sound.update (List.Sublist.refl _) (fun _ => rfl) (fun _ => rfl) ?_ ?_
      fun id => starts_snoc_of_none id rfl
    · intro execution member job _ applies _
      simp only [Bool.and_eq_true, decide_eq_true_eq] at applies
      exact absurd (applies.1 ▸ List.mem_map_of_mem member) spared
    · intro _ _ _ _ queued
      cases queued

/-! ### Terminal states -/

theorem terminal_update {jobs : Jobs} {condition : ℕ → Job → Bool} {change : Job → Job} {id : ℕ}
    {status : Status} (found : (jobs id).map Job.status = some status)
    (terminal : status.terminal = true)
    (unfinished : ∀ job, jobs id = some job → condition id job = true →
      (change job).status = job.status ∨ job.status.terminal = false) :
    (jobs.update condition change id).map Job.status = some status := by
  rw [map_update Job.status]
  · exact found
  · intro job there applies
    refine (unfinished job there applies).resolve_right fun ongoing => ?_
    rw [there] at found
    cases found
    rw [terminal] at ongoing
    cases ongoing

theorem terminal_requeueStale {now : ℤ} {jobs : Jobs} {id : ℕ} {status : Status}
    (found : (jobs id).map Job.status = some status) (terminal : status.terminal = true) :
    (requeueStale config now jobs id).map Job.status = some status := by
  apply terminal_update found terminal
  intro job there old
  rw [stale_running old]
  exact Or.inr rfl

theorem Sound.terminal_step (sound : Sound history before) (taken : Step config before action after)
    {id : ℕ} {status : Status} (found : (before.jobs id).map Job.status = some status)
    (terminal : status.terminal = true) : (after.jobs id).map Job.status = some status := by
  have executed {execution : Execution} {position : ℕ} {job : Job}
      (there : before.executing[position]? = some execution)
      (row : before.jobs id = some job) (same : decide (id = execution.id) = true) :
      job.status.terminal = false := by
    cases of_decide_eq_true same
    rw [sound.executing_running (List.mem_map_of_mem (List.mem_of_getElem? there)) row]
    rfl
  cases taken with
  | tick elapsed => exact found
  | enqueue other priorityClass tenantId maxAttempts availableAt fresh =>
    dsimp only
    rw [Function.update_of_ne]
    · exact found
    · rintro rfl
      rw [fresh] at found
      cases found
  | claimNone workerId classes locked nothing => exact terminal_requeueStale found terminal
  | claim workerId classes locked other picks =>
    have requeued : (JobScheduler.requeueStale config before.now before.jobs id).map Job.status =
        some status := terminal_requeueStale found terminal
    dsimp only [JobScheduler.start]
    refine terminal_update requeued terminal ?_
    intro job there same
    have claimable := picks.claimable
    simp only [JobScheduler.claimable, Bool.and_eq_true, decide_eq_true_eq] at claimable
    cases of_decide_eq_true same
    cases picks.found.symm.trans there
    exact Or.inr (claimable.1.1 ▸ rfl)
  | heartbeat other =>
    dsimp only [heartbeatJob]
    refine terminal_update found terminal ?_
    intro _ _ _
    exact Or.inl rfl
  | complete position there =>
    dsimp only [completeJob]
    refine terminal_update found terminal ?_
    intro job row same
    exact Or.inr (executed there row same)
  | fail position retry there =>
    dsimp only [failJob]
    refine terminal_update found terminal ?_
    intro job row same
    exact Or.inr (executed there row same)
  | cancel other =>
    dsimp only [cancelJob]
    refine terminal_update found terminal ?_
    intro job there applies
    simp only [Bool.and_eq_true, Bool.or_eq_true, decide_eq_true_eq] at applies
    rcases applies.2 with queued | running
    · exact Or.inr (queued ▸ rfl)
    · exact Or.inr (running ▸ rfl)

end Steps

/-! ### Runs -/

section Runs

variable {config : Config} {actions : List Action}

theorem sound_initial : Sound [] System.initial where
  running := by
    intro execution member
    cases member
  alone := List.nodup_nil
  room := by
    intro id job found
    cases found
  bounded := by
    intro id job found
    cases found
  counted _ := rfl

theorem Sound.kept {history : List Action} {system : System} (sound : Sound history system)
    (settled : Settled config history system) : Kept config history system where
  settled := settled
  exclusive first left second right same :=
    congrArg Execution.workerId (List.inj_on_of_nodup_map sound.alone left right same)
  bounded id job found := by
    have counted := sound.counted id
    rw [found] at counted
    rw [counted]
    exact sound.bounded id job found

theorem settled_initial : Settled config [] System.initial := by
  intro earlier before isPrefix run id job found
  cases List.prefix_nil.mp isPrefix
  rw [run.nil_inv] at found
  cases found

theorem Sound.settled_step {history : List Action} {action : Action} {before after : System}
    (sound : Sound history before) (settled : Settled config history before)
    (run : Run (Step config) System.initial history before)
    (taken : Step config before action after) : Settled config (history ++ [action]) after := by
  intro earlier start isPrefix reached id job found finished
  rcases List.prefix_concat_iff.mp isPrefix with same | earlier
  · rw [same] at reached
    rw [Run.deterministic (deterministic config) (run.snoc taken) reached, found]
    rfl
  · exact sound.terminal_step taken (settled _ _ earlier reached id job found finished) finished

/-- In a run whose steps are spared every job that is finished stays so, is executed by one
worker and is started at most as often as it may be. -/
theorem kept_of_spared
    (spared : EachStep (Step config) System.initial actions (Spared config)) :
    Along (Step config) System.initial actions (Kept config) := by
  have both := spared.along
    (P := fun history system => Sound history system ∧ Settled config history system)
    ⟨sound_initial, settled_initial⟩ fun history action before after run kept guarded taken =>
      ⟨kept.1.step guarded taken, kept.1.settled_step kept.2 run taken⟩
  intro history isPrefix system run
  have kept := both history isPrefix system run
  exact kept.1.kept kept.2

end Runs

/-! ### One job -/

section OneJob

def tenSeconds : Config := ⟨10000, (· < ·)⟩

theorem Picks.only {now : ℤ} {classes : List PriorityClass} {jobs : Jobs} {id : ℕ} {job : Job}
    (alone : ∀ other, other ≠ id → jobs other = none)
    (found : requeueStale tenSeconds now jobs id = some job)
    (claimable : JobScheduler.claimable now classes job = true) :
    Picks tenSeconds now classes [] (requeueStale tenSeconds now jobs) id job where
  found := found
  claimable := claimable
  unlocked := List.not_mem_nil
  first other rival there _ _ := by
    have same : other = id := by
      obtain ⟨earlier, present, -⟩ := update_eq_some_iff.mp there
      by_contra distinct
      rw [alone other distinct] at present
      cases present
    rw [same, found] at there
    cases there
    rintro (heavier | ⟨-, tenant | ⟨-, older⟩⟩)
    · exact Nat.lt_irrefl _ heavier
    · exact String.lt_irrefl _ tenant
    · exact Int.lt_irrefl _ older

def timely : List Action :=
  [.enqueue 0 .live none 1 0, .claim "worker-1" [.live] [] (some 0), .tick 10000, .heartbeat 0,
    .complete 0, .cancel 0]

theorem timely_kept : Along (Step tenSeconds) System.initial timely (Kept tenSeconds) := by
  have empty : Run (Step tenSeconds) System.initial [] System.initial ∧
      EachStep (Step tenSeconds) System.initial [] (Spared tenSeconds) := ⟨Run.nil, EachStep.nil⟩
  have enqueued := EachStep.extend (deterministic tenSeconds) empty
    (show Spared tenSeconds _ (.enqueue 0 .live none 1 0) from Int.one_pos)
    (Step.enqueue 0 .live none 1 0 rfl)
  have claimed := EachStep.extend (deterministic tenSeconds) enqueued
    (show Spared tenSeconds _ (.claim "worker-1" [.live] [] (some 0)) from by
      intro id job found old
      dsimp only at found
      rw [Function.update_apply] at found
      split at found
      · cases found
        cases stale_running old
      · cases found)
    (Step.claim "worker-1" [.live] [] 0
      (Picks.only (fun _ distinct => Function.update_of_ne distinct ..) rfl rfl))
  have waited := EachStep.extend (deterministic tenSeconds) claimed
    (show Spared tenSeconds _ (.tick 10000) from trivial) (Step.tick 10000)
  have renewed := EachStep.extend (deterministic tenSeconds) waited
    (show Spared tenSeconds _ (.heartbeat 0) from trivial) (Step.heartbeat 0)
  have completed := EachStep.extend (deterministic tenSeconds) renewed
    (show Spared tenSeconds _ (.complete 0) from trivial) (Step.complete 0 rfl)
  have refused := EachStep.extend (deterministic tenSeconds) completed
    (show Spared tenSeconds _ (.cancel 0) from by
      intro executing
      cases executing) (Step.cancel 0)
  exact kept_of_spared refused.2

def overlapping : List Action :=
  [.enqueue 0 .live none 1 0, .claim "worker-1" [.live] [] (some 0), .tick 10001,
    .claim "worker-2" [.live] [] (some 0)]

theorem overlapping_unkept : ∃ system, Run (Step tenSeconds) System.initial overlapping system ∧
    ¬ Kept tenSeconds overlapping system := by
  have enqueued : Run (Step tenSeconds) System.initial [.enqueue 0 .live none 1 0] _ :=
    Run.one (Step.enqueue 0 .live none 1 0 rfl)
  have claimed := enqueued.snoc (Step.claim "worker-1" [.live] [] 0
    (Picks.only (fun _ distinct => Function.update_of_ne distinct ..) rfl rfl))
  have waited := claimed.snoc (Step.tick 10001)
  have again := waited.snoc (Step.claim "worker-2" [.live] [] 0
    (Picks.only (fun other distinct => by
      simp [start, requeueStale, Jobs.update, System.initial, distinct]) rfl rfl))
  refine ⟨_, again, fun kept => ?_⟩
  exact absurd (kept.bounded 0 _ rfl) (by decide)

end OneJob

end JobScheduler

end SorobanExplorer.Indexer
