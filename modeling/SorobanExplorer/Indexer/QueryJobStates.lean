import SorobanExplorer.Indexer.QueryJobs
import Mathlib.Logic.Relation

/-!
Owns the states of query jobs: a status goes on from queued to running to an outcome and to expired,
or from queued to cancelled, exactly as long as no status is written over one that its writer has
not seen.

Every writer reads the status first, or has written it itself, and checks it. The row may have
changed by the time of the write, and the write does not look.
-/

namespace SorobanExplorer.Indexer.QueryJobs

open Library

namespace Status

def next : Status → List Status
  | .queued => [.running, .cancelled]
  | .running => [.succeeded, .failed, .cancelled]
  | .succeeded | .failed | .cancelled => [.expired]
  | .expired => []

def Leads (old new : Status) : Prop := new = old ∨ new ∈ old.next

instance (old new : Status) : Decidable (old.Leads new) := inferInstanceAs (Decidable (_ ∨ _))

/-- What was cancelled never runs and never succeeds. -/
theorem cancelled_leads {status : Status} (leads : Relation.ReflTransGen Leads .cancelled status) :
    status = .cancelled ∨ status = .expired := by
  induction leads with
  | refl => exact .inl rfl
  | tail _ last ih =>
    obtain rfl | rfl := ih
    · obtain rfl | listed := last
      · exact .inl rfl
      · exact .inr (List.mem_singleton.mp listed)
    · obtain rfl | listed := last
      · exact .inr rfl
      · nomatch listed

end Status

namespace State

def Lawful (state : State) : Prop := ∀ move ∈ state.moves, move.1.Leads move.2

instance (state : State) : Decidable state.Lawful :=
  inferInstanceAs (Decidable (∀ move ∈ state.moves, _))

/-- A write finds the status that its writer has seen, or the one that it writes. A cancellation may
also find that the job has started since. -/
def Unraced (state : State) : Action → Prop
  | .proceed id => ∀ task, state.tasks[id]? = some task → ∀ job seen new,
      task.write = some (job, seen, new) → ∀ row, state.jobs[job]? = some row →
        row.status = seen ∨ row.status = new ∨ (new = .cancelled ∧ row.status = .running)
  | _ => True

end State

def Task.Knows (jobs : List Job) : Task → Prop
  | .start _ job seen => seen ≠ none → ∃ row, jobs[job]? = some row
  | .markRunning _ job => ∃ row, jobs[job]? = some row
  | .iterate _ job | .finish _ job _ => ∃ row, jobs[job]? = some row ∧ row.status ≠ .queued
  | .failRunning _ listed => ∀ job ∈ listed, ∃ row, jobs[job]? = some row ∧ row.status ≠ .queued
  | .expire listed => ∀ entry ∈ listed, entry.2 = .succeeded ∧
      ∃ row, jobs[entry.1]? = some row ∧ row.expiresAt ≠ none
  | _ => True

def Grows (jobs later : List Job) : Prop :=
  ∀ (id : JobId) row, jobs[id]? = some row → ∃ row', later[id]? = some row' ∧
    (row.status ≠ .queued → row'.status ≠ .queued) ∧ (row.expiresAt ≠ none → row'.expiresAt ≠ none)

namespace State

structure Kept (state : State) : Prop where
  lawful : state.Lawful
  expires : ∀ (id : JobId) row, state.jobs[id]? = some row → row.expiresAt ≠ none →
    row.status = .succeeded ∨ row.status = .expired
  tasks : ∀ task ∈ state.tasks, task.Knows state.jobs

end State

/-! ### One write -/

section Write

variable {jobs later : List Job} {task : Task} {job : JobId} {seen new : Status} {row : Job}

theorem Task.Knows.grow (knows : task.Knows jobs) (grows : Grows jobs later) :
    task.Knows later := by
  have started : ∀ (job : JobId), (∃ row, jobs[job]? = some row ∧ row.status ≠ .queued) →
      ∃ row, later[job]? = some row ∧ row.status ≠ .queued := by
    intro job known
    obtain ⟨row, found, status⟩ := known
    obtain ⟨row', found', keeps, -⟩ := grows job row found
    exact ⟨row', found', keeps status⟩
  cases task with
  | start process job seen =>
    intro read
    obtain ⟨row, found⟩ := knows read
    obtain ⟨row', found', -⟩ := grows job row found
    exact ⟨row', found'⟩
  | markRunning process job =>
    obtain ⟨row, found⟩ := knows
    obtain ⟨row', found', -⟩ := grows job row found
    exact ⟨row', found'⟩
  | iterate process job | finish process job => exact started job knows
  | failRunning process listed => exact fun job member => started job (knows job member)
  | expire listed =>
    intro entry member
    obtain ⟨status, row, found, expires⟩ := knows entry member
    obtain ⟨row', found', -, keeps⟩ := grows entry.1 row found
    exact ⟨status, row', found', keeps expires⟩
  | lookUp | count | insert | fallback | returned | refused | readToCancel | cancel | markCancelled
  | readToRun | clear | listRunning | listQueued | listExpired | ended => trivial

theorem leads_iff (knows : task.Knows jobs) (write : task.write = some (job, seen, new))
    (found : jobs[job]? = some row)
    (expires : row.expiresAt ≠ none → row.status = .succeeded ∨ row.status = .expired) :
    row.status.Leads new ↔
      row.status = seen ∨ row.status = new ∨ (new = .cancelled ∧ row.status = .running) := by
  have started : (∃ row, jobs[job]? = some row ∧ row.status ≠ .queued) → row.status ≠ .queued := by
    intro known
    obtain ⟨other, same, status⟩ := known
    cases found.symm.trans same
    exact status
  unfold Status.Leads
  cases task with
  | markCancelled | markRunning =>
    cases write
    cases row.status with
    | queued | running | succeeded | failed | cancelled | expired => decide
  | finish _ _ outcome =>
    cases write
    have status := started knows
    cases current : row.status with
    | queued => exact absurd current status
    | running | succeeded | failed | cancelled | expired =>
      cases outcome with
      | cancelled | succeeded | failed => decide
  | failRunning process listed =>
    cases listed with
    | nil => nomatch write
    | cons first rest =>
      cases write
      have status := started (knows job List.mem_cons_self)
      cases current : row.status with
      | queued => exact absurd current status
      | running | succeeded | failed | cancelled | expired => decide
  | expire listed =>
    cases listed with
    | nil => nomatch write
    | cons entry rest =>
      cases write
      obtain ⟨same, other, found', set⟩ := knows entry List.mem_cons_self
      cases found.symm.trans found'
      rw [same]
      obtain current | current := expires set
      · rw [current]
        decide
      · rw [current]
        decide
  | start | iterate | lookUp | count | insert | fallback | returned | refused | readToCancel | cancel
  | readToRun | clear | listRunning | listQueued | listExpired | ended => nomatch write

end Write

/-! ### One step -/

namespace State

variable {config : Config} {state before after : State} {job : JobId} {new : Status}
  {expiresAt : Option ℕ}

theorem getElem?_update {row : Job} (found : state.jobs[job]? = some row) :
    (state.update job new expiresAt).jobs[job]? =
      some { row with status := new, expiresAt := expiresAt.or row.expiresAt } := by
  rw [update_eq_of_found found]
  exact List.getElem?_set_self (List.getElem?_eq_some_iff.mp found).1

theorem grows_update (started : new ≠ .queued) :
    Grows state.jobs (state.update job new expiresAt).jobs := by
  intro id row found
  obtain rfl | apart := eq_or_ne id job
  · refine ⟨_, getElem?_update found, fun _ => started, fun set => ?_⟩
    cases expiresAt with
    | none => exact set
    | some time => exact Option.some_ne_none time
  · refine ⟨row, ?_, fun status => status, fun set => set⟩
    unfold update
    split
    · exact found
    · rw [← found]
      exact List.getElem?_set_ne apart.symm

namespace Kept

theorem init : Kept State.init := ⟨nofun, nofun, nofun⟩

theorem same (kept : state.Kept) {next : State} (jobs : next.jobs = state.jobs)
    (moves : next.moves = state.moves)
    (tasks : ∀ task ∈ next.tasks, task ∈ state.tasks ∨ task.Knows state.jobs) : next.Kept where
  lawful := fun move listed => kept.lawful move (moves ▸ listed)
  expires := jobs ▸ kept.expires
  tasks task listed := jobs ▸ (tasks task listed).elim (kept.tasks task) id

theorem turn (kept : state.Kept) {id : TaskId} {task : Task}
    (knows : task.Knows state.jobs) : (state.turn id task).Kept := by
  refine kept.same rfl rfl fun other listed => ?_
  obtain earlier | rfl := List.mem_or_eq_of_mem_set listed
  · exact .inl earlier
  · exact .inr knows

theorem update (kept : state.Kept) (started : new ≠ .queued)
    (leads : ∀ row, state.jobs[job]? = some row → row.status.Leads new)
    (sets : expiresAt ≠ none → new = .succeeded) : (state.update job new expiresAt).Kept := by
  have tasks : ∀ task ∈ (state.update job new expiresAt).tasks,
      task.Knows (state.update job new expiresAt).jobs := by
    intro task listed
    rw [tasks_update] at listed
    exact (kept.tasks task listed).grow (grows_update started)
  cases found : state.jobs[job]? with
  | none =>
    have still : state.update job new expiresAt = state := by
      unfold State.update
      rw [found]
    exact still.symm ▸ kept
  | some row =>
    refine ⟨?_, ?_, tasks⟩
    · rw [update_eq_of_found found]
      intro move listed
      obtain rfl | earlier := List.mem_cons.mp listed
      · exact leads row found
      · exact kept.lawful move earlier
    · intro id other listed set
      obtain rfl | apart := eq_or_ne id job
      · rw [getElem?_update found] at listed
        cases listed
        cases expiresAt with
        | some time => exact .inl (sets (Option.some_ne_none time))
        | none =>
          obtain rfl | onward := leads row found
          · exact kept.expires id row found set
          · obtain current | current := kept.expires id row found set
            · rw [current] at onward
              exact .inr (List.mem_singleton.mp onward)
            · rw [current] at onward
              nomatch onward
      · rw [update_eq_of_found found] at listed
        have before : state.jobs[id]? = some other := by
          rw [← listed]
          exact (List.getElem?_set_ne apart.symm).symm
        exact kept.expires id other before set

theorem insert (kept : state.Kept) (request : Request) :
    (state.append config request).Kept := by
  have grows : Grows state.jobs (state.append config request).jobs := fun other row found =>
    ⟨row, (List.getElem?_append_left (List.getElem?_eq_some_iff.mp found).1).trans found,
      fun status => status, fun set => set⟩
  refine ⟨kept.lawful, fun other row found set => ?_,
    fun task listed => (kept.tasks task listed).grow grows⟩
  obtain earlier | new := List.mem_append.mp (List.mem_of_getElem? found)
  · obtain ⟨place, same⟩ := List.mem_iff_getElem?.mp earlier
    exact kept.expires place row same set
  · cases List.mem_singleton.mp new
    exact absurd rfl set

theorem knows_of_derived (kept : state.Kept) {task : Task} (derived : task.Derived state) :
    task.Knows state.jobs := by
  cases task with
  | start process job seen =>
    intro read
    cases present : state.jobs[job]? with
    | some row => exact ⟨row, rfl⟩
    | none =>
      rw [show seen = state.statusOf job from derived, statusOf, present] at read
      exact absurd rfl read
  | markRunning => exact kept.tasks _ derived (Option.some_ne_none _)
  | iterate => exact derived.elim
  | finish process job outcome =>
    obtain iterating | ⟨earlier, finishing⟩ := derived
    · exact kept.tasks (.iterate process job) iterating
    · exact kept.tasks (.finish process job earlier) finishing
  | failRunning process jobs =>
    cases derived
    intro job listed
    obtain ⟨row, present, status⟩ := mem_jobsWith.mp listed
    refine ⟨row, present, fun queued => ?_⟩
    rw [queued] at status
    nomatch status
  | expire jobs =>
    cases derived
    intro entry listed
    obtain ⟨job, past, rfl⟩ := List.mem_map.mp listed
    obtain ⟨row, present, due⟩ := mem_jobsWith.mp past
    rw [Bool.and_eq_true, bne_iff_ne] at due
    have set : row.expiresAt ≠ none := fun unset => by
      rw [unset] at due
      nomatch due.1
    have status := (kept.expires job row present set).resolve_right due.2
    refine ⟨?_, row, present, set⟩
    rw [statusOf, present]
    exact status
  | lookUp | count | insert | fallback | returned | refused | readToCancel | cancel | markCancelled
  | readToRun | clear | listRunning | listQueued | listExpired | ended => trivial

theorem knows_rest {task : Task} {seen : Status} (knows : task.Knows state.jobs)
    (write : task.write = some (job, seen, new)) (started : new ≠ .queued) :
    task.rest.Knows (state.update job new expiresAt).jobs := by
  cases task with
  | markRunning process job =>
    cases write
    obtain ⟨row, present⟩ := knows
    exact ⟨_, getElem?_update present, started⟩
  | failRunning process jobs =>
    cases jobs with
    | nil => nomatch write
    | cons first rest =>
      have known : (Task.failRunning process rest).Knows state.jobs :=
        fun other member => knows other (List.mem_cons_of_mem _ member)
      exact known.grow (grows_update started)
  | expire jobs =>
    cases jobs with
    | nil => nomatch write
    | cons first rest =>
      have known : (Task.expire rest).Knows state.jobs :=
        fun other member => knows other (List.mem_cons_of_mem _ member)
      exact known.grow (grows_update started)
  | lookUp | count | insert | fallback | returned | refused | readToCancel | cancel | markCancelled
  | readToRun | start | iterate | finish | clear | listRunning | listQueued | listExpired
  | ended => trivial

theorem step {action : Action} (kept : before.Kept) (unraced : before.Unraced action)
    (taken : Step config before action after) : after.Kept := by
  cases effect_of_step taken with
  | still quiet jobs moves tasks =>
    exact kept.same jobs moves fun task listed =>
      (tasks task listed).imp_right kept.knows_of_derived
  | @write id task job seen new expiresAt found write sets =>
    have knows := kept.tasks task (List.mem_of_getElem? found)
    have started := Task.started_of_write write
    have written : (before.update job new expiresAt).Kept :=
      kept.update started (fun row present =>
        (leads_iff knows write present (kept.expires job row present)).mpr
          (unraced task found job seen new write row present)) sets
    exact written.turn (knows_rest knows write started)
  | @insert id process request =>
    have inserted : ((before.append config request).push process [before.jobs.length]).Kept :=
      (kept.insert request).same rfl rfl fun _ => .inl
    exact inserted.turn trivial

end Kept

theorem unraced_of_lawful {action : Action} (kept : before.Kept)
    (taken : Step config before action after) (lawful : after.Lawful) : before.Unraced action := by
  cases effect_of_step taken with
  | still quiet =>
    cases action with
    | proceed id =>
      intro task found job seen new write
      nomatch (quiet task found).1.symm.trans write
    | submit | cancel | pump | maintain | sweep | advance | batch | exhausted | broken =>
      trivial
  | @write id task job seen new expiresAt found write =>
    intro other same job' seen' new' write' row present
    cases found.symm.trans same
    cases write.symm.trans write'
    have remembered : (row.status, new) ∈ (before.update job new expiresAt).moves := by
      rw [update_eq_of_found present]
      exact List.mem_cons_self
    exact (leads_iff (kept.tasks task (List.mem_of_getElem? found)) write present
      (kept.expires job row present)).mp (lawful _ remembered)
  | insert found =>
    intro task same job seen new write
    cases found.symm.trans same
    nomatch write

end State

/-! ### Whole runs -/

/-- The statuses of all jobs go their way in exactly the runs in which no status is written over one
that its writer has not seen. -/
theorem lawful_iff_eachStep (config : Config) {actions : List Action} {final : State}
    (run : Run (Step config) .init actions final) :
    (Along (Step config) .init actions fun _ state => state.Lawful) ↔
      EachStep (Step config) .init actions State.Unraced :=
  Run.along_iff_eachStep (I := fun _ state => state.Kept) (deterministic config) run State.Kept.init
    (fun _ _ _ kept => kept.lawful) (fun _ _ _ _ _ kept unraced taken => kept.step unraced taken)
    (fun _ _ _ _ _ kept taken lawful => State.unraced_of_lawful kept taken lawful)

def completed : List Action :=
  [.submit 0 exampleRequest, .proceed 0, .proceed 0, .pump 0, .proceed 1, .proceed 1, .proceed 1,
    .exhausted 1, .proceed 1]

def startedCancelled : List Action :=
  [.submit 0 exampleRequest, .proceed 0, .proceed 0, .pump 0, .proceed 1, .proceed 1,
    .cancel 0 0, .proceed 2, .proceed 2, .proceed 2, .proceed 1]

theorem completed_lawful : ∃ final, Run (Step exampleConfig) .init completed final ∧
    Along (Step exampleConfig) .init completed fun _ state => state.Lawful := by
  have submitted := EachStep.extend (deterministic exampleConfig) ⟨Run.nil, EachStep.nil⟩
    (show State.Unraced .init (.submit 0 exampleRequest) from trivial) rfl
  have counted := EachStep.extend (deterministic _) submitted
    (show State.Unraced _ (.proceed 0) from fun task found job seen new write => by
      cases found
      nomatch write) rfl
  have inserted := EachStep.extend (deterministic _) counted
    (show State.Unraced _ (.proceed 0) from fun task found job seen new write => by
      cases found
      nomatch write) rfl
  have pumped := EachStep.extend (deterministic _) inserted
    (show State.Unraced _ (.pump 0) from trivial) rfl
  have read := EachStep.extend (deterministic _) pumped
    (show State.Unraced _ (.proceed 1) from fun task found job seen new write => by
      cases found
      nomatch write) rfl
  have checked := EachStep.extend (deterministic _) read
    (show State.Unraced _ (.proceed 1) from fun task found job seen new write => by
      cases found
      nomatch write) rfl
  have started := EachStep.extend (deterministic _) checked
    (show State.Unraced _ (.proceed 1) from fun task found job seen new write row present => by
      cases found
      cases write
      cases present
      exact .inl rfl) rfl
  have exhausted := EachStep.extend (deterministic _) started
    (show State.Unraced _ (.exhausted 1) from trivial) rfl
  have finished := EachStep.extend (deterministic _) exhausted
    (show State.Unraced _ (.proceed 1) from fun task found job seen new write row present => by
      cases found
      cases write
      cases present
      exact .inl rfl) rfl
  exact ⟨_, finished.1, (lawful_iff_eachStep _ finished.1).mpr finished.2⟩

theorem startedCancelled_unlawful : ∃ final,
    Run (Step exampleConfig) .init startedCancelled final ∧ ¬ final.Lawful := by
  have possible : (startedCancelled.foldlM (State.step exampleConfig) .init).map State.moves =
      some [(.cancelled, .running), (.queued, .cancelled)] := rfl
  obtain ⟨final, reached, moves⟩ := Option.map_eq_some_iff.mp possible
  refine ⟨final, run_of_foldlM reached, fun lawful => ?_⟩
  have leads := lawful (.cancelled, .running) (moves ▸ List.mem_cons_self)
  exact absurd leads (by decide)

end SorobanExplorer.Indexer.QueryJobs
