import SorobanExplorer.Library.Run
import Mathlib.Logic.Function.Basic
import Mathlib.Tactic.Common

/-!
Owns the asynchronous query jobs: the rows of `query_jobs`, the queue and the set `cancelled` of
each process, and the tasks that read and write the rows.

Every query of a task is a step of its own, and other tasks may come between any two. An `UPDATE`
names its row by the id alone. The worker pool is not bounded here.
-/

namespace SorobanExplorer.Indexer.QueryJobs

open Library

inductive Status where
  | queued
  | running
  | succeeded
  | failed
  | cancelled
  | expired
deriving DecidableEq

/-- `TIER_QUOTAS[tier].concurrent` -/
def TIER_QUOTAS : String → Option ℕ
  | "free" => some 1
  | "pro" => some 3
  | "enterprise" => some 10
  | _ => none

/-- Unknown tiers get the `free` quota. -/
def quotaFor (tier : String) : ℕ := (TIER_QUOTAS tier).getD ((TIER_QUOTAS "free").getD 0)

structure Config where
  tierOf : String → String
  RETENTION_MS : ℕ

abbrev JobId := ℕ

abbrev ProcessId := ℕ

abbrev TaskId := ℕ

structure Job where
  apiKeyId : String
  tier : String
  idempotencyKey : Option String
  status : Status
  expiresAt : Option ℕ
deriving DecidableEq

/-- `status IN ('queued', 'running')` -/
def Job.isActive (job : Job) : Bool := job.status == .queued || job.status == .running

structure Request where
  apiKeyId : String
  idempotencyKey : Option String
deriving DecidableEq

/-- How a worker leaves its job. A job that was revoked is cancelled, and one that reached its row
or byte quota succeeds. -/
inductive Outcome where
  | cancelled
  | succeeded
  | failed
deriving DecidableEq

def Outcome.status : Outcome → Status
  | .cancelled => .cancelled
  | .succeeded => .succeeded
  | .failed => .failed

/-- Where a task stands: what it does next, with what it knows. `returned` and `refused` are the
answers of `submitJob`. -/
inductive Task where
  | lookUp (process : ProcessId) (request : Request)
  | count (process : ProcessId) (request : Request)
  | insert (process : ProcessId) (request : Request)
  | fallback (request : Request)
  | returned (request : Request) (job : Option JobId)
  | refused (request : Request)
  | readToCancel (process : ProcessId) (job : JobId)
  | cancel (process : ProcessId) (job : JobId) (seen : Option Status)
  | markCancelled (job : JobId)
  | readToRun (process : ProcessId) (job : JobId)
  | start (process : ProcessId) (job : JobId) (seen : Option Status)
  | markRunning (process : ProcessId) (job : JobId)
  | iterate (process : ProcessId) (job : JobId)
  | finish (process : ProcessId) (job : JobId) (outcome : Outcome)
  | clear (process : ProcessId) (job : JobId)
  | listRunning (process : ProcessId)
  | failRunning (process : ProcessId) (jobs : List JobId)
  | listQueued (process : ProcessId)
  | listExpired
  | expire (jobs : List (JobId × Status))
  | ended
deriving DecidableEq

/-- Beside the rows and the processes stand all changes of a status, the last one first. -/
structure State where
  jobs : List Job
  now : ℕ
  queue : ProcessId → List JobId
  cancelled : ProcessId → JobId → Bool
  tasks : List Task
  moves : List (Status × Status)

inductive Action where
  | submit (process : ProcessId) (request : Request)
  | cancel (process : ProcessId) (job : JobId)
  | pump (process : ProcessId)
  | maintain (process : ProcessId)
  | sweep
  | advance (elapsed : ℕ)
  | proceed (task : TaskId)
  | batch (task : TaskId) (active full : Bool)
  | exhausted (task : TaskId)
  | broken (task : TaskId)

namespace State

def init : State := ⟨[], 0, fun _ => [], fun _ _ => false, [], []⟩

/-! ### Queries -/

def statusOf (state : State) (job : JobId) : Option Status := (state.jobs[job]?).map Job.status

def jobsWith (state : State) (p : Job → Bool) : List JobId :=
  (List.range state.jobs.length).filter fun job => (state.jobs[job]?).any p

theorem mem_jobsWith {state : State} {p : Job → Bool} {job : JobId} :
    job ∈ state.jobsWith p ↔ ∃ row, state.jobs[job]? = some row ∧ p row = true := by
  unfold jobsWith
  rw [List.mem_filter, List.mem_range]
  cases found : state.jobs[job]? with
  | none => simp
  | some row =>
    have inside := (List.getElem?_eq_some_iff.mp found).1
    simp [inside]

/-- `getQueryJobByIdempotencyKey` -/
def byIdempotencyKey (state : State) (request : Request) : Option JobId :=
  match request.idempotencyKey with
  | none => none
  | some key => state.jobs.findIdx? fun job =>
    job.apiKeyId == request.apiKeyId && job.idempotencyKey == some key

/-- `countActiveQueryJobs` -/
def active (state : State) (apiKeyId : String) : ℕ :=
  state.jobs.countP fun job => job.apiKeyId == apiKeyId && job.isActive

/-- `listExpiredQueryJobs`, with the statuses at that time. -/
def expiredJobs (state : State) : List (JobId × Status) :=
  (state.jobsWith fun job => job.expiresAt.any (· < state.now) && job.status != .expired).map
    fun job => (job, (state.statusOf job).getD .expired)

/-- `updateQueryJob` -/
def update (state : State) (id : JobId) (status : Status) (expiresAt : Option ℕ) : State :=
  match state.jobs[id]? with
  | none => state
  | some job =>
    { state with
      jobs := state.jobs.set id { job with status, expiresAt := expiresAt.or job.expiresAt }
      moves := (job.status, status) :: state.moves }

section Update

variable {state : State} {job : JobId} {new : Status} {expiresAt : Option ℕ}

theorem update_eq_of_found {row : Job} (found : state.jobs[job]? = some row) :
    state.update job new expiresAt = { state with
      jobs := state.jobs.set job
        { row with status := new, expiresAt := expiresAt.or row.expiresAt }
      moves := (row.status, new) :: state.moves } := by
  unfold update
  rw [found]

theorem tasks_update : (state.update job new expiresAt).tasks = state.tasks := by
  unfold update
  split
  · rfl
  · rfl

end Update

/-! ### Tasks -/

def spawn (state : State) (task : Task) : State := { state with tasks := state.tasks ++ [task] }

def turn (state : State) (id : TaskId) (task : Task) : State :=
  { state with tasks := state.tasks.set id task }

def push (state : State) (process : ProcessId) (jobs : List JobId) : State :=
  { state with queue := Function.update state.queue process (state.queue process ++ jobs) }

def flag (state : State) (process : ProcessId) (job : JobId) (value : Bool) : State :=
  { state with
    cancelled := Function.update state.cancelled process
      (Function.update (state.cancelled process) job value) }

def append (config : Config) (state : State) (request : Request) : State :=
  { state with
    jobs := state.jobs ++
      [⟨request.apiKeyId, config.tierOf request.apiKeyId, request.idempotencyKey, .queued, none⟩] }

/-- `createQueryJob`; a job with the same idempotency key is a conflict. -/
def insert (config : Config) (state : State) (id : TaskId) (process : ProcessId)
    (request : Request) : State :=
  match state.byIdempotencyKey request with
  | some _ => state.turn id (.fallback request)
  | none =>
    ((state.append config request).push process [state.jobs.length]).turn id
      (.returned request (some state.jobs.length))

def proceed (config : Config) (state : State) (id : TaskId) : Task → Option State
  | .lookUp process request =>
    match state.byIdempotencyKey request with
    | some job => some (state.turn id (.returned request (some job)))
    | none => some (state.turn id (.count process request))
  | .count process request =>
    if state.active request.apiKeyId ≥ quotaFor (config.tierOf request.apiKeyId) then
      some (state.turn id (.refused request))
    else some (state.turn id (.insert process request))
  | .insert process request => some (state.insert config id process request)
  | .fallback request => some (state.turn id (.returned request (state.byIdempotencyKey request)))
  | .readToCancel process job => some (state.turn id (.cancel process job (state.statusOf job)))
  | .cancel process job seen =>
    if seen = some .queued then some ((state.flag process job true).turn id (.markCancelled job))
    else if seen = some .running then some ((state.flag process job true).turn id .ended)
    else some (state.turn id .ended)
  | .markCancelled job => some ((state.update job .cancelled none).turn id .ended)
  | .readToRun process job => some (state.turn id (.start process job (state.statusOf job)))
  | .start process job seen =>
    if seen ≠ some .queued ∨ state.cancelled process job = true then some (state.turn id .ended)
    else some (state.turn id (.markRunning process job))
  | .markRunning process job =>
    some ((state.update job .running none).turn id (.iterate process job))
  | .finish process job outcome =>
    some ((state.update job outcome.status
      (if outcome = .succeeded then some (state.now + config.RETENTION_MS) else none)).turn id
        (.clear process job))
  | .clear process job => some ((state.flag process job false).turn id .ended)
  | .listRunning process =>
    some (state.turn id (.failRunning process (state.jobsWith fun job => job.status == .running)))
  | .failRunning process (job :: jobs) =>
    some ((state.update job .failed none).turn id (.failRunning process jobs))
  | .failRunning process [] => some (state.turn id (.listQueued process))
  | .listQueued process =>
    some ((state.push process (state.jobsWith fun job => job.status == .queued)).turn id .ended)
  | .listExpired => some (state.turn id (.expire state.expiredJobs))
  | .expire ((job, _) :: jobs) => some ((state.update job .expired none).turn id (.expire jobs))
  | .expire [] => some (state.turn id .ended)
  | .iterate .. | .returned .. | .refused .. | .ended => none

def batch (state : State) (id : TaskId) (active full : Bool) : Task → Option State
  | .iterate process job =>
    if state.cancelled process job = true ∨ active = false then
      some (state.turn id (.finish process job .cancelled))
    else if full then some (state.turn id (.finish process job .succeeded))
    else some state
  | _ => none

/-- `none` where the action is not possible. -/
def step (config : Config) (state : State) : Action → Option State
  | .submit process request =>
    if request.idempotencyKey.any (· ≠ "") then some (state.spawn (.lookUp process request))
    else some (state.spawn (.count process request))
  | .cancel process job => some (state.spawn (.readToCancel process job))
  | .pump process =>
    match state.queue process with
    | [] => none
    | job :: jobs =>
      some ({ state with queue := Function.update state.queue process jobs }.spawn
        (.readToRun process job))
  | .maintain process => some (state.spawn (.listRunning process))
  | .sweep => some (state.spawn .listExpired)
  | .advance elapsed => some { state with now := state.now + elapsed }
  | .proceed id => (state.tasks[id]?).bind (state.proceed config id)
  | .batch id active full => (state.tasks[id]?).bind (state.batch id active full)
  | .exhausted id =>
    match state.tasks[id]? with
    | some (.iterate process job) => some (state.turn id (.finish process job .succeeded))
    | _ => none
  | .broken id =>
    match state.tasks[id]? with
    | some (.iterate process job) | some (.finish process job _) =>
      some (state.turn id (.finish process job .failed))
    | _ => none

end State

def Step (config : Config) (before : State) (action : Action) (after : State) : Prop :=
  before.step config action = some after

theorem deterministic (config : Config) : Deterministic (Step config) := by
  intro before action first second one two
  exact Option.some.inj (one.symm.trans two)

theorem run_of_foldlM {config : Config} {actions : List Action} {final : State}
    (possible : actions.foldlM (State.step config) .init = some final) :
    Run (Step config) .init actions final := by
  induction actions using List.reverseRecOn generalizing final with
  | nil =>
    cases possible
    exact .nil
  | append_singleton actions action ih =>
    rw [List.foldlM_append] at possible
    obtain ⟨before, earlier, last⟩ := Option.bind_eq_some_iff.mp possible
    refine (ih earlier).snoc (show before.step config action = some final from ?_)
    simpa using last

/-! ### What a step does -/

namespace Task

def write : Task → Option (JobId × Status × Status)
  | .markCancelled job => some (job, .queued, .cancelled)
  | .markRunning _ job => some (job, .queued, .running)
  | .finish _ job outcome => some (job, .running, outcome.status)
  | .failRunning _ (job :: _) => some (job, .running, .failed)
  | .expire ((job, seen) :: _) => some (job, seen, .expired)
  | _ => none

theorem started_of_write {task : Task} {job : JobId} {seen new : Status}
    (write : task.write = some (job, seen, new)) : new ≠ .queued := by
  cases task with
  | markCancelled | markRunning =>
    cases write
    exact nofun
  | finish _ _ outcome =>
    cases write
    cases outcome with
    | cancelled | succeeded | failed => exact nofun
  | failRunning _ jobs =>
    cases jobs with
    | nil => nomatch write
    | cons =>
      cases write
      exact nofun
  | expire jobs =>
    cases jobs with
    | nil => nomatch write
    | cons =>
      cases write
      exact nofun
  | start | iterate | lookUp | count | insert | fallback | returned | refused | readToCancel | cancel
  | readToRun | clear | listRunning | listQueued | listExpired | ended => nomatch write

def rest : Task → Task
  | .markRunning process job => .iterate process job
  | .finish process job _ => .clear process job
  | .failRunning process (_ :: jobs) => .failRunning process jobs
  | .expire (_ :: jobs) => .expire jobs
  | _ => .ended

def Derived (state : State) : Task → Prop
  | .returned request job => job = state.byIdempotencyKey request ∧
      (job ≠ none ∨ .fallback request ∈ state.tasks)
  | .fallback request => state.byIdempotencyKey request ≠ none
  | .start _ job seen => seen = state.statusOf job
  | .markRunning process job => .start process job (some .queued) ∈ state.tasks
  | .iterate .. => False
  | .finish process job _ => .iterate process job ∈ state.tasks ∨
      ∃ outcome, .finish process job outcome ∈ state.tasks
  | .failRunning _ jobs => jobs = state.jobsWith fun job => job.status == .running
  | .expire jobs => jobs = state.expiredJobs
  | _ => True

end Task

def Action.Quiet (state : State) : Action → Prop
  | .proceed id => ∀ task, state.tasks[id]? = some task → task.write = none ∧
      ∀ process request, task = .insert process request → state.byIdempotencyKey request ≠ none
  | _ => True

inductive Effect (config : Config) (before : State) : Action → State → Prop
  | still {action : Action} {after : State} (quiet : action.Quiet before)
      (jobs : after.jobs = before.jobs) (moves : after.moves = before.moves)
      (tasks : ∀ task ∈ after.tasks, task ∈ before.tasks ∨ task.Derived before) :
      Effect config before action after
  | write {id : TaskId} {task : Task} {job : JobId} {seen new : Status} {expiresAt : Option ℕ}
      (found : before.tasks[id]? = some task) (write : task.write = some (job, seen, new))
      (sets : expiresAt ≠ none → new = .succeeded) :
      Effect config before (.proceed id) ((before.update job new expiresAt).turn id task.rest)
  | insert {id : TaskId} {process : ProcessId} {request : Request}
      (found : before.tasks[id]? = some (.insert process request))
      (free : before.byIdempotencyKey request = none) :
      Effect config before (.proceed id)
        (((before.append config request).push process [before.jobs.length]).turn id
          (.returned request (some before.jobs.length)))

namespace Effect

variable {config : Config} {before after : State} {action : Action} {id : TaskId} {task new : Task}

theorem spawn (quiet : action.Quiet before) (derived : new.Derived before) :
    Effect config before action (before.spawn new) := by
  refine still quiet rfl rfl fun other listed => ?_
  obtain earlier | same := List.mem_append.mp listed
  · exact .inl earlier
  · cases List.mem_singleton.mp same
    exact .inr derived

theorem turn {middle : State} (quiet : action.Quiet before) (jobs : middle.jobs = before.jobs)
    (moves : middle.moves = before.moves) (tasks : middle.tasks = before.tasks)
    (derived : new.Derived before) : Effect config before action (middle.turn id new) := by
  refine still quiet jobs moves fun other listed => ?_
  obtain earlier | rfl := List.mem_or_eq_of_mem_set listed
  · exact .inl (tasks ▸ earlier)
  · exact .inr derived

theorem proceed (found : before.tasks[id]? = some task)
    (taken : before.proceed config id task = some after) :
    Effect config before (.proceed id) after := by
  have quiet (silent : task.write = none)
      (kept : ∀ process request, task = .insert process request →
        before.byIdempotencyKey request ≠ none) : (Action.proceed id).Quiet before := by
    intro other same
    cases found.symm.trans same
    exact ⟨silent, kept⟩
  have listed := List.mem_of_getElem? found
  cases task with
  | lookUp process request =>
    dsimp only [State.proceed] at taken
    split at taken
    · next job answer =>
        cases taken
        exact turn (quiet rfl nofun) rfl rfl rfl ⟨answer.symm, .inl (Option.some_ne_none _)⟩
    · cases taken
      exact turn (quiet rfl nofun) rfl rfl rfl trivial
  | count =>
    dsimp only [State.proceed] at taken
    split at taken
    · cases taken
      exact turn (quiet rfl nofun) rfl rfl rfl trivial
    · cases taken
      exact turn (quiet rfl nofun) rfl rfl rfl trivial
  | insert process request =>
    cases taken
    unfold State.insert
    split
    · next job conflict =>
        have present : before.byIdempotencyKey request ≠ none :=
          conflict ▸ Option.some_ne_none job
        refine turn (quiet rfl fun _ _ same => ?_) rfl rfl rfl present
        cases same
        exact present
    · next free => exact insert found free
  | fallback request =>
    cases taken
    exact turn (quiet rfl nofun) rfl rfl rfl ⟨rfl, .inr listed⟩
  | cancel process job seen =>
    dsimp only [State.proceed] at taken
    split at taken
    · cases taken
      exact turn (quiet rfl nofun) rfl rfl rfl trivial
    · split at taken
      · cases taken
        exact turn (quiet rfl nofun) rfl rfl rfl trivial
      · cases taken
        exact turn (quiet rfl nofun) rfl rfl rfl trivial
  | readToRun =>
    cases taken
    exact turn (quiet rfl nofun) rfl rfl rfl rfl
  | start process job seen =>
    dsimp only [State.proceed] at taken
    split at taken
    · cases taken
      exact turn (quiet rfl nofun) rfl rfl rfl trivial
    · next passed =>
        cases taken
        obtain ⟨queued, -⟩ := not_or.mp passed
        cases not_not.mp queued
        exact turn (quiet rfl nofun) rfl rfl rfl listed
  | readToCancel | clear | listQueued =>
    cases taken
    exact turn (quiet rfl nofun) rfl rfl rfl trivial
  | listRunning | listExpired =>
    cases taken
    exact turn (quiet rfl nofun) rfl rfl rfl rfl
  | markCancelled | markRunning =>
    cases taken
    exact write found rfl (absurd rfl)
  | finish process job outcome =>
    cases taken
    refine write found rfl fun set => ?_
    split at set
    · next success =>
        cases success
        rfl
    · exact absurd rfl set
  | failRunning process jobs =>
    cases jobs with
    | nil =>
      cases taken
      exact turn (quiet rfl nofun) rfl rfl rfl trivial
    | cons =>
      cases taken
      exact write found rfl (absurd rfl)
  | expire jobs =>
    cases jobs with
    | nil =>
      cases taken
      exact turn (quiet rfl nofun) rfl rfl rfl trivial
    | cons =>
      cases taken
      exact write found rfl (absurd rfl)
  | iterate | returned | refused | ended => nomatch taken

end Effect

theorem effect_of_step {config : Config} {before after : State} {action : Action}
    (taken : Step config before action after) : Effect config before action after := by
  change before.step config action = some after at taken
  cases action with
  | submit =>
    dsimp only [State.step] at taken
    split at taken
    · cases taken
      exact .spawn trivial trivial
    · cases taken
      exact .spawn trivial trivial
  | cancel | maintain | sweep =>
    cases taken
    exact .spawn trivial trivial
  | pump process =>
    dsimp only [State.step] at taken
    split at taken
    · nomatch taken
    · cases taken
      refine .still trivial rfl rfl fun task listed => ?_
      obtain earlier | new := List.mem_append.mp listed
      · exact .inl earlier
      · cases List.mem_singleton.mp new
        exact .inr trivial
  | advance =>
    cases taken
    exact .still trivial rfl rfl fun _ => .inl
  | proceed id =>
    obtain ⟨task, found, goes⟩ := Option.bind_eq_some_iff.mp taken
    exact .proceed found goes
  | batch id active full =>
    obtain ⟨task, found, goes⟩ := Option.bind_eq_some_iff.mp taken
    cases task with
    | iterate process job =>
      have derived (outcome : Outcome) : (Task.finish process job outcome).Derived before :=
        .inl (List.mem_of_getElem? found)
      dsimp only [State.batch] at goes
      split at goes
      · cases goes
        exact .turn trivial rfl rfl rfl (derived _)
      · split at goes
        · cases goes
          exact .turn trivial rfl rfl rfl (derived _)
        · cases goes
          exact .still trivial rfl rfl fun _ => .inl
    | lookUp | count | insert | fallback | returned | refused | readToCancel | cancel
    | markCancelled | readToRun | start | markRunning | finish | clear | listRunning | failRunning
    | listQueued | listExpired | expire | ended => nomatch goes
  | exhausted id =>
    dsimp only [State.step] at taken
    split at taken
    · next process job found =>
        cases taken
        exact .turn trivial rfl rfl rfl (.inl (List.mem_of_getElem? found))
    · nomatch taken
  | broken id =>
    dsimp only [State.step] at taken
    split at taken
    · next process job found =>
        cases taken
        exact .turn trivial rfl rfl rfl (.inl (List.mem_of_getElem? found))
    · next process job outcome found =>
        cases taken
        exact .turn trivial rfl rfl rfl (.inr ⟨outcome, List.mem_of_getElem? found⟩)
    · nomatch taken

/-! ### Jobs of the examples -/

def exampleConfig : Config := ⟨fun _ => "free", 7 * 86400000⟩

def exampleRequest : Request := ⟨"key", none⟩

end SorobanExplorer.Indexer.QueryJobs
