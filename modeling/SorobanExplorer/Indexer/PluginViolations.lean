import SorobanExplorer.Indexer.PluginSandbox
import SorobanExplorer.Library.Slots

/-!
Owns what a plugin is charged with: in which runs every call settles exactly once and no call is
rejected, and the plugin charged for it, because of the end of a worker that did not run it.
-/

namespace SorobanExplorer.Indexer

open Library

namespace PluginSandbox

/-! ### Statement -/

def Cause.own : Cause → Bool
  | .timer own | .failure _ own => own
  | .start | .answer _ => true
  | .exit | .unposted => false

def Outcome.fair : Outcome → Bool
  | .answered _ => true
  | .rejected cause => cause.own

def Phase.work : Phase → ℕ
  | .awaiting _ => 9
  | .ready => 8
  | .posted _ => 2
  | .settled => 1
  | .concluded => 0

def Call.work (call : Call) : ℕ := call.phase.work

def Stage.work : Stage → ℕ
  | .booting | .executing _ => 4
  | .idle => 2
  | .dead _ => 0

def Worker.work (worker : Worker) : ℕ :=
  worker.stage.work + 3 * worker.inbox.length + worker.messages.length +
    (worker.failure.isSome.toNat + worker.exits.toNat)

def State.work (state : State) : ℕ :=
  (state.calls.map Call.work).sum + (state.workers.map Worker.work).sum + state.pending.length

/-- Every call settles exactly once, and the plugin is charged only for what its own execution of a
call did. -/
structure Sound (violationLimit : ℕ) (state : State) : Prop where
  once : ∀ call ∈ state.calls, call.outcomes.length ≤ 1
  /-- What comes of the calls that were made comes to an end. -/
  ends : ∀ actions after, Run (Step violationLimit) state actions after →
    (∀ action ∈ actions, action.internal = true) → actions.length ≤ state.work
  settles : (∀ action after, Step violationLimit state action after → action.due = false) →
    ∀ call ∈ state.calls, call.outcomes.length = 1
  fair : ∀ call ∈ state.calls, ∀ outcome ∈ call.outcomes, outcome.fair = true
  charged : ∀ id ∈ state.violations, ∃ call outcome, state.calls[id]? = some call ∧
    outcome ∈ call.outcomes ∧ outcome.violates = true ∧ outcome.fair = true

/-! ### Guarded steps -/

/-- The host can take the answer: a text that `JSON.parse` accepts or an error text. -/
def Answer.readable : Answer → Bool
  | .output parsed => parsed.isSome
  | .error message _ => message ≠ []

/-- The worker of the sandbox is there when a call is posted, a timer fires while its call is
executed, an answer is readable, a worker crashes with no call pending but its own and exits with
none pending, and no call waits for a worker that is stopped at its start. -/
def Guarded (state : State) : Action → Prop
  | .proceed _ => state.worker.isSome = true
  | .timer id => state.runs id = true
  | .message w => ∀ worker, state.workers[w]? = some worker → ∀ id answer rest,
      worker.messages = .reply id answer :: rest → id ∈ state.pending → answer.readable = true
  | .failure w => ∀ worker, state.workers[w]? = some worker → ∀ id ∈ state.pending,
      worker.crashedIn id = true
  | .exit _ => state.pending = []
  | .stop w => ∀ worker, state.workers[w]? = some worker → worker.stage = .booting →
      ∀ call ∈ state.calls, call.phase ≠ .awaiting w
  | .call | .boot _ | .begin _ | .answer .. | .crash .. | .conclude _ | .close => True

/-! ### The work that is left -/

theorem Phase.work_settle_le (phase : Phase) : phase.settle.work ≤ phase.work := by
  cases phase with
  | awaiting | posted => exact Nat.le_add_left 1 _
  | ready | settled | concluded => decide

theorem Call.work_settle_le (outcome : Outcome) (call : Call) :
    (call.settle outcome).work ≤ call.work := call.phase.work_settle_le

theorem Call.work_wake_le (w : WorkerId) (call : Call) : (call.wake w).work ≤ call.work := by
  unfold Call.wake
  split
  · next awaits =>
      rw [Call.work, Call.work, awaits]
      exact Nat.le_succ 8
  · exact le_rfl

theorem Call.work_refuse_le (w : WorkerId) (call : Call) : (call.refuse w).work ≤ call.work := by
  unfold Call.refuse
  split
  · exact call.work_settle_le _
  · exact le_rfl

theorem Stage.two_le_work {stage : Stage} (alive : stage.alive = true) : 2 ≤ stage.work := by
  cases stage with
  | dead => cases alive
  | idle => exact Nat.le_refl 2
  | booting | executing => exact Nat.le_add_left 2 2

section Work

variable {state : State} {w : WorkerId} {worker : Worker} {id : CallId} {call : Call}

theorem work_onWorker (found : state.workers[w]? = some worker) (effect : Worker → Worker) :
    (state.onWorker w effect).work + worker.work = state.work + (effect worker).work := by
  have replaced := weight_modify Worker.work found effect
  unfold State.work State.onWorker
  dsimp only
  omega

theorem work_onWorker_lt {effect : Worker → Worker} (found : state.workers[w]? = some worker)
    (less : (effect worker).work < worker.work) : (state.onWorker w effect).work < state.work := by
  have replaced := work_onWorker found effect
  omega

theorem work_onWorker_le {effect : Worker → Worker} {more : ℕ}
    (heavier : ∀ worker, (effect worker).work ≤ worker.work + more) (state : State) (w : WorkerId) :
    (state.onWorker w effect).work ≤ state.work + more := by
  cases there : state.workers[w]? with
  | none =>
    have same := List.modify_eq_self (f := effect) (List.getElem?_eq_none_iff.mp there)
    unfold State.work State.onWorker
    rw [same]
    exact Nat.le_add_right _ _
  | some worker =>
    have replaced := work_onWorker there effect
    have most := heavier worker
    omega

theorem work_onCall (found : state.calls[id]? = some call) (effect : Call → Call) :
    (state.onCall id effect).work + call.work = state.work + (effect call).work := by
  have replaced := weight_modify Call.work found effect
  unfold State.work State.onCall
  dsimp only
  omega

theorem work_settle_le (state : State) (id : CallId) (outcome : Outcome) :
    (state.onCall id (Call.settle · outcome)).work ≤ state.work := by
  have lighter := weight_modify_le Call.work (Call.work_settle_le outcome) state.calls id
  unfold State.work State.onCall
  dsimp only
  omega

theorem work_delete_le (state : State) (id : CallId) : (state.delete id).work ≤ state.work := by
  have shorter := List.length_filter_le (fun other => decide (other ≠ id)) state.pending
  unfold State.work State.delete
  dsimp only
  omega

theorem work_delete_lt (armed : id ∈ state.pending) : (state.delete id).work < state.work := by
  have shorter : (state.pending.filter fun other => decide (other ≠ id)).length <
      state.pending.length := by
    refine List.length_filter_lt_length_iff_exists.mpr ⟨id, armed, ?_⟩
    simp
  unfold State.work State.delete
  dsimp only
  omega

theorem work_restart_le (state : State) : state.restart.work ≤ state.work := by
  unfold State.restart
  split
  · next w _ =>
      have same (worker : Worker) : worker.terminate.work ≤ worker.work + 0 := Nat.le_refl _
      exact work_onWorker_le same state w
  · exact le_rfl

theorem work_fail_le (state : State) (cause : CallId → Cause) :
    (state.fail cause).work ≤ state.work := by
  have settled (id : CallId) (call : Call) : Call.work
      (if id ∈ state.pending then call.settle (.rejected (cause id)) else call) ≤ call.work := by
    split
    · exact call.work_settle_le _
    · exact le_rfl
  have lighter := weight_mapIdx_le Call.work settled state.calls
  unfold State.work State.fail
  simp only [List.length_nil]
  omega

theorem work_reply_le (state : State) (id : CallId) (answer : Answer) :
    (state.reply id answer).work ≤ state.work := by
  have deleted := work_delete_le state id
  unfold State.reply
  split
  · cases answer with
    | output parsed =>
      cases parsed with
      | none => exact deleted
      | some output => exact (work_settle_le _ _ _).trans deleted
    | error message kind =>
      dsimp only
      split
      · exact deleted
      · exact (work_settle_le _ _ _).trans deleted
  · exact le_rfl

theorem work_enter (state : State) (id : CallId) : (state.enter id).work = state.work + 1 := by
  unfold State.work State.enter
  rw [List.length_append]
  rfl

theorem reply_workers (state : State) (id : CallId) (answer : Answer) :
    (state.reply id answer).workers = state.workers := by
  unfold State.reply
  split
  · cases answer with
    | output parsed => cases parsed <;> rfl
    | error message kind =>
      dsimp only
      split <;> rfl
  · rfl

theorem work_proceed_lt (found : state.calls[id]? = some call) (ready : call.phase = .ready) :
    (state.proceed id).work < state.work := by
  have entered := work_enter state id
  have inside : (state.enter id).calls[id]? = some call := found
  have before : call.work = 8 := by rw [Call.work, ready]; rfl
  unfold State.proceed
  split
  · next w _ =>
      have posted := work_onCall inside (Call.post w)
      have heavier (worker : Worker) : (worker.post id).work ≤ worker.work + 3 := by
        unfold Worker.post Worker.work
        simp only [List.length_append, List.length_singleton]
        omega
      have sent := work_onWorker_le heavier ((state.enter id).onCall id (Call.post w)) w
      have after : (Call.post w call).work = 2 := rfl
      omega
  · have settled := work_onCall inside (Call.settle · (.rejected .unposted))
    have after : (call.settle (.rejected .unposted)).work = 1 := by
      rw [Call.work, Call.settle, ready]
      rfl
    omega

theorem work_timer_lt (armed : id ∈ state.pending) : (state.timer id).work < state.work := by
  have deleted := work_delete_lt armed
  have settled := work_settle_le (state.delete id) id (.rejected (.timer (state.runs id)))
  have restarted := work_restart_le
    ((state.delete id).onCall id (Call.settle · (.rejected (.timer (state.runs id)))))
  unfold State.timer
  omega

theorem work_conclude_lt (found : state.calls[id]? = some call) (settled : call.phase = .settled)
    (violationLimit : ℕ) (outcome : Outcome) :
    (state.conclude violationLimit id outcome).work < state.work := by
  have concluded := work_onCall found .conclude
  have before : call.work = 1 := by rw [Call.work, settled]; rfl
  have after : call.conclude.work = 0 := rfl
  have less : (state.onCall id .conclude).work < state.work := by omega
  unfold State.conclude
  dsimp only
  split
  · split
    · exact (work_restart_le _).trans_lt less
    · exact less
  · exact less

theorem work_wakeAll_le (state : State) (w : WorkerId) : (state.ready w).work ≤ state.work := by
  have lighter := weight_map_le Call.work (Call.work_wake_le w) state.calls
  unfold State.work State.ready
  dsimp only
  omega

theorem work_failure_le (state : State) (w : WorkerId) (worker : Worker) (kind : Kind) :
    (state.failure w worker kind).work ≤ state.work := by
  have lighter := weight_map_le Call.work (Call.work_refuse_le w) state.calls
  refine (work_fail_le _ _).trans ?_
  unfold State.work
  dsimp only
  omega

theorem Step.work_lt {violationLimit : ℕ} {action : Action} {after : State}
    (taken : Step violationLimit state action after) (internal : action.internal = true) :
    after.work < state.work := by
  cases taken with
  | call | crash | close => cases internal
  | proceed found ready => exact work_proceed_lt found ready
  | timer armed => exact work_timer_lt armed
  | conclude found settled => exact work_conclude_lt found settled _ _
  | ready found first =>
    refine (@work_onWorker_lt (state.ready _) _ _ _ found ?_).trans_le (work_wakeAll_le state _)
    simp only [Worker.work, first, List.length_cons]
    omega
  | reply found first =>
    refine (work_onWorker_lt ((reply_workers state _ _).symm ▸ found) ?_).trans_le
      (work_reply_le state _ _)
    simp only [Worker.work, first, List.length_cons]
    omega
  | failure found reported =>
    refine (@work_onWorker_lt (state.failure _ _ _) _ _ _ found ?_).trans_le
      (work_failure_le state _ _ _)
    simp only [Worker.work, reported, Option.isSome_some, Option.isSome_none, Bool.toNat_true,
      Bool.toNat_false]
    omega
  | exit found exits =>
    refine (@work_onWorker_lt (state.exit _) _ _ _ found ?_).trans_le (work_fail_le _ _)
    simp only [Worker.work, exits, Bool.toNat_true, Bool.toNat_false]
    omega
  | boot found booting =>
    refine work_onWorker_lt found ?_
    simp only [Worker.work, Worker.boot, booting, Stage.work, List.length_append,
      List.length_singleton]
    omega
  | begin found idle first =>
    refine work_onWorker_lt found ?_
    simp only [Worker.work, Worker.begin, idle, first, Stage.work, List.length_cons]
    omega
  | answer found executing =>
    refine work_onWorker_lt found ?_
    simp only [Worker.work, Worker.answer, executing, Stage.work, List.length_append,
      List.length_singleton]
    omega
  | @stop w worker found _ alive =>
    have least := Stage.two_le_work alive
    have dead : Stage.work (.dead none) = 0 := rfl
    refine work_onWorker_lt found ?_
    simp only [Worker.work, Worker.stop, dead, Bool.toNat_true]
    omega

theorem ends_of_internal {violationLimit : ℕ} {actions : List Action} {after : State}
    (run : Run (Step violationLimit) state actions after)
    (internal : ∀ action ∈ actions, action.internal = true) : actions.length ≤ state.work := by
  have bound : (∀ action ∈ actions, action.internal = true) →
      actions.length + after.work ≤ state.work := by
    refine run.induct (P := fun history state' => (∀ action ∈ history, action.internal = true) →
      history.length + state'.work ≤ state.work) (fun _ => by simp) ?_
    intro history action before after _ holds taken internal
    have earlier := holds fun other among => internal other (List.mem_append_left _ among)
    have less := taken.work_lt (internal action (by simp))
    rw [List.length_append, List.length_singleton]
    omega
  exact (Nat.le_add_right _ _).trans (bound internal)

end Work

/-! ### The invariant -/

def Worker.Starts (worker : Worker) : Prop :=
  .ready ∈ worker.messages ∨ worker.failure.isSome = true ∨ worker.stage = .booting

/-- `ready` of the worker is pending and will be settled. -/
def Awaited (workers : List Worker) (w : WorkerId) : Prop :=
  ∃ worker, workers[w]? = some worker ∧ worker.ready = none ∧ worker.Starts

def Phase.done : Phase → Bool
  | .settled | .concluded => true
  | .awaiting _ | .ready | .posted _ => false

structure Call.Fits (workers : List Worker) (pending : List CallId) (id : CallId) (call : Call) :
    Prop where
  armed : id ∈ pending ↔ ∃ w, call.phase = .posted w
  awaited : ∀ w, call.phase = .awaiting w → Awaited workers w
  unsettled : call.phase.done = false → call.outcomes = []
  settled : call.phase.done = true → ∃ outcome, call.outcomes = [outcome] ∧ outcome.fair = true

structure Consistent (state : State) : Prop where
  current : ∀ w, state.worker = some w →
    ∃ worker : Worker, state.workers[w]? = some worker ∧ worker.terminated = false
  starting : ∀ (w : WorkerId) (worker : Worker), state.workers[w]? = some worker →
    worker.ready = none → worker.terminated = false → worker.Starts
  fits : ∀ (id : CallId) (call : Call), state.calls[id]? = some call →
    call.Fits state.workers state.pending id
  inside : ∀ id ∈ state.pending, id < state.calls.length
  charged : ∀ id ∈ state.violations, ∃ (call : Call) (outcome : Outcome),
    state.calls[id]? = some call ∧ call.phase = .concluded ∧ outcome ∈ call.outcomes ∧
      outcome.violates = true

section Fits

variable {workers workers' : List Worker} {pending pending' : List CallId} {id : CallId}
  {call : Call} {outcome : Outcome}

theorem Call.Fits.frame (fits : call.Fits workers pending id)
    (same : id ∈ pending' ↔ id ∈ pending)
    (awaited : ∀ w, call.phase = .awaiting w → Awaited workers w → Awaited workers' w) :
    call.Fits workers' pending' id where
  armed := same.trans fits.armed
  awaited := fun w phase => awaited w phase (fits.awaited w phase)
  unsettled := fits.unsettled
  settled := fits.settled

theorem Call.Fits.not_done (fits : call.Fits workers pending id) (armed : id ∈ pending) :
    call.phase.done = false := by
  obtain ⟨w, phase⟩ := fits.armed.mp armed
  rw [phase]
  rfl

theorem Call.Fits.waiting {w : WorkerId} (fits : call.Fits workers pending id)
    (awaits : call.phase = .awaiting w) : call.phase.done = false ∧ id ∉ pending := by
  refine ⟨by rw [awaits]; rfl, fun armed => ?_⟩
  obtain ⟨other, posted⟩ := fits.armed.mp armed
  exact nomatch awaits.symm.trans posted

theorem Phase.settle_of_not_done {phase : Phase} (unsettled : phase.done = false) :
    phase.settle = .settled := by
  cases phase with
  | concluded => cases unsettled
  | awaiting | ready | posted | settled => rfl

theorem Phase.settle_ne_awaiting {phase : Phase} {w : WorkerId} : phase.settle ≠ .awaiting w := by
  cases phase <;> nofun

theorem Call.Fits.settle (fits : call.Fits workers pending id) (unsettled : call.phase.done = false)
    (gone : id ∉ pending') (fair : outcome.fair = true) :
    (call.settle outcome).Fits workers' pending' id := by
  have phase : (call.settle outcome).phase = .settled := Phase.settle_of_not_done unsettled
  have outcomes : (call.settle outcome).outcomes = [outcome] := by
    rw [Call.settle, fits.unsettled unsettled]
    rfl
  refine ⟨⟨fun armed => absurd armed gone, ?_⟩, ?_, ?_, fun _ => ⟨outcome, outcomes, fair⟩⟩
  · rintro ⟨w, posted⟩
    exact nomatch phase.symm.trans posted
  · intro w awaits
    exact nomatch phase.symm.trans awaits
  · intro open_
    rw [phase] at open_
    cases open_

theorem Call.Fits.once (fits : call.Fits workers pending id) : call.outcomes.length ≤ 1 := by
  cases done : call.phase.done with
  | false =>
    rw [fits.unsettled done]
    exact Nat.zero_le 1
  | true =>
    obtain ⟨outcome, same, -⟩ := fits.settled done
    rw [same]
    exact le_rfl

theorem Call.Fits.fair (fits : call.Fits workers pending id) (given : outcome ∈ call.outcomes) :
    outcome.fair = true := by
  cases done : call.phase.done with
  | false =>
    rw [fits.unsettled done] at given
    cases given
  | true =>
    obtain ⟨only, same, fair⟩ := fits.settled done
    rw [same] at given
    cases List.mem_singleton.mp given
    exact fair

end Fits

/-! ### What keeps it -/

section Invariant

variable {state : State} {w : WorkerId} {worker : Worker} {id : CallId} {call : Call}
  {effect : Worker → Worker}

theorem Awaited.onWorker {other : WorkerId} (awaited : Awaited state.workers other)
    (found : state.workers[w]? = some worker)
    (keeps : other = w → worker.ready = none → worker.Starts →
      (effect worker).ready = none ∧ (effect worker).Starts) :
    Awaited (state.onWorker w effect).workers other := by
  obtain ⟨waiting, there, ready, starts⟩ := awaited
  by_cases same : w = other
  · subst same
    cases found.symm.trans there
    have kept := keeps rfl ready starts
    exact ⟨effect worker, by rw [State.onWorker, List.getElem?_modify_eq, found]; rfl, kept⟩
  · exact ⟨waiting, (List.getElem?_modify_ne _ _ same).trans there, ready, starts⟩

theorem Consistent.onWorker (consistent : Consistent state)
    (found : state.workers[w]? = some worker)
    (terminated : (effect worker).terminated = worker.terminated)
    (starting : (effect worker).ready = none → worker.terminated = false →
      worker.ready = none ∧ (worker.Starts → (effect worker).Starts))
    (awaited : ∀ call ∈ state.calls, call.phase = .awaiting w → worker.ready = none →
      worker.Starts → (effect worker).ready = none ∧ (effect worker).Starts) :
    Consistent (state.onWorker w effect) where
  current := by
    intro other same
    obtain ⟨current, there, alive⟩ := consistent.current other same
    by_cases here : w = other
    · subst here
      cases found.symm.trans there
      exact ⟨effect worker, by rw [State.onWorker, List.getElem?_modify_eq, found]; rfl,
        terminated.trans alive⟩
    · exact ⟨current, (List.getElem?_modify_ne _ _ here).trans there, alive⟩
  starting := by
    intro other moved there ready alive
    obtain ⟨old, before, ⟨rfl, rfl⟩ | ⟨-, rfl⟩⟩ := of_modify there
    · cases found.symm.trans before
      rw [terminated] at alive
      obtain ⟨readyOld, keeps⟩ := starting ready alive
      exact keeps (consistent.starting _ _ found readyOld alive)
    · exact consistent.starting _ _ before ready alive
  fits := by
    intro id call there
    refine (consistent.fits id call there).frame Iff.rfl fun other awaits held => ?_
    refine held.onWorker found ?_
    rintro rfl
    exact awaited call (List.mem_of_getElem? there) awaits
  inside := consistent.inside
  charged := consistent.charged

theorem Consistent.onWorker_started (consistent : Consistent state)
    (found : state.workers[w]? = some worker)
    (terminated : (effect worker).terminated = worker.terminated)
    (ready : (effect worker).ready = worker.ready)
    (starts : worker.Starts → (effect worker).Starts) : Consistent (state.onWorker w effect) :=
  consistent.onWorker found terminated (fun none _ => ⟨ready.symm.trans none, starts⟩)
    fun _ _ _ none held => ⟨ready.trans none, starts held⟩

theorem Consistent.onCalls {calls : List Call} {pending : List CallId}
    {moves : CallId → Call → Call} (consistent : Consistent state)
    (moved : ∀ id, calls[id]? = state.calls[id]?.map (moves id))
    (inside : ∀ id ∈ pending, id < state.calls.length)
    (fits : ∀ id call, state.calls[id]? = some call →
      call.Fits state.workers state.pending id → (moves id call).Fits state.workers pending id)
    (kept : ∀ id call, state.calls[id]? = some call → call.phase = .concluded →
      id ∉ state.pending → moves id call = call) :
    Consistent { state with calls := calls, pending := pending } where
  current := consistent.current
  starting := consistent.starting
  fits := by
    intro id call there
    obtain ⟨old, before, rfl⟩ := Option.map_eq_some_iff.mp ((moved id).symm.trans there)
    exact fits id old before (consistent.fits id old before)
  inside := by
    intro id armed
    obtain ⟨call, there⟩ : ∃ call, state.calls[id]? = some call :=
      ⟨_, List.getElem?_eq_getElem (inside id armed)⟩
    have after : calls[id]? = some (moves id call) := by
      rw [moved id, there]
      rfl
    exact (List.getElem?_eq_some_iff.mp after).1
  charged := by
    intro id charged
    obtain ⟨call, outcome, there, concluded, given, violates⟩ := consistent.charged id charged
    refine ⟨call, outcome, ?_, concluded, given, violates⟩
    have free : id ∉ state.pending := by
      intro armed
      have unsettled := (consistent.fits id call there).not_done armed
      rw [concluded] at unsettled
      cases unsettled
    change calls[id]? = some call
    rw [moved id, there, Option.map_some, kept id call there concluded free]

theorem Consistent.onCall {pending : List CallId} {move : Call → Call}
    (consistent : Consistent state) (found : state.calls[id]? = some call)
    (inside : ∀ id ∈ pending, id < state.calls.length)
    (others : ∀ other, other ≠ id → (other ∈ pending ↔ other ∈ state.pending))
    (fits : call.Fits state.workers state.pending id → (move call).Fits state.workers pending id)
    (kept : call.phase = .concluded → id ∉ state.pending → move call = call) :
    Consistent { state with calls := state.calls.modify id move, pending := pending } := by
  refine consistent.onCalls (fun other => List.getElem?_modify move id state.calls other) inside
    ?_ ?_
  · intro other old there held
    by_cases same : id = other
    · subst same
      cases found.symm.trans there
      rw [if_pos rfl]
      exact fits held
    · rw [if_neg same]
      exact held.frame (others other (Ne.symm same)) fun _ _ awaited => awaited
  · intro other old there concluded free
    by_cases same : id = other
    · subst same
      cases found.symm.trans there
      rw [if_pos rfl]
      exact kept concluded free
    · exact if_neg same

/-! ### What the host does -/

theorem Consistent.settle (consistent : Consistent state) (armed : id ∈ state.pending)
    {outcome : Outcome} (fair : outcome.fair = true) :
    Consistent ((state.delete id).onCall id (Call.settle · outcome)) := by
  obtain ⟨call, found⟩ : ∃ call, state.calls[id]? = some call :=
    ⟨_, List.getElem?_eq_getElem (consistent.inside id armed)⟩
  refine consistent.onCall found ?_ ?_ ?_ ?_
  · exact fun other among => consistent.inside other (List.mem_of_mem_filter among)
  · intro other apart
    simp [State.delete, apart]
  · intro fits
    exact fits.settle (fits.not_done armed) (by simp [State.delete]) fair
  · exact fun _ free => absurd armed free

theorem Consistent.post (consistent : Consistent state) (found : state.calls[id]? = some call)
    (ready : call.phase = .ready) (w : WorkerId) :
    Consistent ((state.enter id).onCall id (Call.post w)) := by
  refine consistent.onCall found ?_ ?_ ?_ ?_
  · intro other among
    rcases List.mem_append.mp among with old | new
    · exact consistent.inside other old
    · cases List.mem_singleton.mp new
      exact (List.getElem?_eq_some_iff.mp found).1
  · intro other apart
    simp [State.enter, apart]
  · intro fits
    have unsettled : call.phase.done = false := by rw [ready]; rfl
    exact ⟨⟨fun _ => ⟨w, rfl⟩, fun _ => by simp [State.enter]⟩, nofun,
      fun _ => fits.unsettled unsettled, nofun⟩
  · exact fun concluded => nomatch ready.symm.trans concluded

/-- The calls that wait for a worker are moved on, each to a call that fits, and no others. -/
theorem Consistent.moveOn (consistent : Consistent state) {w : WorkerId} {move : Call → Call}
    (fits : ∀ id call, call.Fits state.workers state.pending id → call.phase = .awaiting w →
      (move call).Fits state.workers state.pending id)
    (moved : ∀ call, call.phase = .awaiting w → (move call).phase ≠ .awaiting w)
    (stays : ∀ call, call.phase ≠ .awaiting w → move call = call) :
    Consistent { state with calls := state.calls.map move } ∧
      ∀ call ∈ state.calls.map move, call.phase ≠ .awaiting w := by
  constructor
  · refine consistent.onCalls (fun _ => List.getElem?_map) consistent.inside ?_ ?_
    · intro id call _ old
      by_cases awaits : call.phase = .awaiting w
      · exact fits id call old awaits
      · rwa [stays call awaits]
    · intro id call _ concluded _
      exact stays call fun awaits => nomatch concluded.symm.trans awaits
  · intro call among
    obtain ⟨old, -, rfl⟩ := List.mem_map.mp among
    by_cases awaits : old.phase = .awaiting w
    · exact moved old awaits
    · rwa [stays old awaits]

theorem Consistent.ready (consistent : Consistent state) (w : WorkerId) :
    Consistent (state.ready w) ∧ ∀ call ∈ (state.ready w).calls, call.phase ≠ .awaiting w := by
  refine consistent.moveOn ?_ ?_ fun call other => if_neg other
  · intro id call fits awaits
    obtain ⟨unsettled, free⟩ := fits.waiting awaits
    rw [Call.wake, if_pos awaits]
    exact ⟨⟨fun armed => absurd armed free, nofun⟩, nofun, fun _ => fits.unsettled unsettled,
      nofun⟩
  · intro call awaits
    rw [Call.wake, if_pos awaits]
    nofun

theorem Consistent.refuse (consistent : Consistent state) (w : WorkerId) :
    Consistent { state with calls := state.calls.map (Call.refuse w) } ∧
      ∀ call ∈ state.calls.map (Call.refuse w), call.phase ≠ .awaiting w := by
  refine consistent.moveOn ?_ ?_ fun call other => if_neg other
  · intro id call fits awaits
    obtain ⟨unsettled, free⟩ := fits.waiting awaits
    rw [Call.refuse, if_pos awaits]
    exact fits.settle unsettled free rfl
  · intro call awaits
    have settled : (call.settle (.rejected .start)).phase = .settled :=
      Phase.settle_of_not_done (by rw [awaits]; rfl)
    rw [Call.refuse, if_pos awaits, settled]
    nofun

theorem not_awaiting_fail (free : ∀ call ∈ state.calls, call.phase ≠ .awaiting w)
    (cause : CallId → Cause) : ∀ call ∈ (state.fail cause).calls, call.phase ≠ .awaiting w := by
  intro call among awaits
  obtain ⟨id, inside, rfl⟩ := List.mem_mapIdx.mp among
  split at awaits
  · exact Phase.settle_ne_awaiting awaits
  · exact free _ (List.getElem_mem inside) awaits

theorem Consistent.fail (consistent : Consistent state) {cause : CallId → Cause}
    (own : ∀ id ∈ state.pending, (cause id).own = true) : Consistent (state.fail cause) := by
  refine consistent.onCalls (fun _ => List.getElem?_mapIdx) nofun ?_ ?_
  · intro id call _ fits
    split
    · next armed => exact fits.settle (fits.not_done armed) nofun (own id armed)
    · next free =>
        exact fits.frame ⟨nofun, fun armed => absurd armed free⟩ fun _ _ awaited => awaited
  · exact fun id call _ _ free => if_neg free

theorem Consistent.leave (consistent : Consistent state) :
    Consistent { state with worker := none } where
  current := nofun
  starting := consistent.starting
  fits := consistent.fits
  inside := consistent.inside
  charged := consistent.charged

theorem Consistent.restart (consistent : Consistent state) : Consistent state.restart := by
  unfold State.restart
  split
  · next w current =>
      obtain ⟨worker, found, -⟩ := consistent.current w current
      refine ⟨nofun, ?starting, ?fits, consistent.inside, consistent.charged⟩
      case starting =>
        intro other moved there ready alive
        obtain ⟨old, before, ⟨-, rfl⟩ | ⟨-, rfl⟩⟩ := of_modify there
        · cases alive
        · exact consistent.starting other _ before ready alive
      case fits =>
        intro id call there
        refine (consistent.fits id call there).frame Iff.rfl fun other _ awaited => ?_
        exact awaited.onWorker found fun _ ready starts => ⟨ready, starts⟩
  · exact consistent

theorem Consistent.start (consistent : Consistent state) : Consistent state.start := by
  refine ⟨?current, ?starting, ?fits, consistent.inside, consistent.charged⟩
  case current =>
    intro w same
    cases same
    exact ⟨.fresh, List.getElem?_concat_length, rfl⟩
  case starting =>
    intro w worker there ready alive
    rcases of_concat there with old | ⟨-, rfl⟩
    · exact consistent.starting w worker old ready alive
    · exact .inr (.inr rfl)
  case fits =>
    intro id call there
    refine (consistent.fits id call there).frame Iff.rfl fun other _ awaited => ?_
    obtain ⟨worker, found, held⟩ := awaited
    exact ⟨worker, concat_of found _, held⟩

theorem Consistent.arrive (consistent : Consistent state) (current : state.worker = some w) :
    Consistent { state with calls := state.calls ++ [state.arriving w] } := by
  have free : state.calls.length ∉ state.pending := fun armed =>
    absurd (consistent.inside _ armed) (lt_irrefl _)
  have fits : (state.arriving w).Fits state.workers state.pending state.calls.length := by
    obtain ⟨worker, found, alive⟩ := consistent.current w current
    unfold State.arriving
    rw [found, Option.bind_some]
    cases ready : worker.ready with
    | none =>
      have starts := consistent.starting w worker found ready alive
      refine ⟨⟨fun armed => absurd armed free, nofun⟩, ?_, fun _ => rfl, nofun⟩
      rintro other ⟨⟩
      exact ⟨worker, found, ready, starts⟩
    | some resolved =>
      cases resolved with
      | true =>
        exact ⟨⟨fun armed => absurd armed free, nofun⟩, nofun, fun _ => rfl, nofun⟩
      | false =>
        exact ⟨⟨fun armed => absurd armed free, nofun⟩, nofun, nofun, fun _ => ⟨_, rfl, rfl⟩⟩
  refine ⟨consistent.current, consistent.starting, ?fits, ?inside, ?charged⟩
  case fits =>
    intro id call there
    rcases of_concat there with old | ⟨rfl, rfl⟩
    · exact consistent.fits id call old
    · exact fits
  case inside =>
    intro id armed
    rw [List.length_append]
    exact (consistent.inside id armed).trans (Nat.lt_succ_self _)
  case charged =>
    intro id charged
    obtain ⟨call, outcome, there, rest⟩ := consistent.charged id charged
    exact ⟨call, outcome, concat_of there _, rest⟩

theorem Consistent.called (consistent : Consistent state) : Consistent state.call := by
  unfold State.call
  split
  · next w current => exact consistent.arrive current
  · exact consistent.start.arrive rfl

theorem Consistent.reply (consistent : Consistent state) {answer : Answer}
    (readable : id ∈ state.pending → answer.readable = true) :
    Consistent (state.reply id answer) := by
  unfold State.reply
  split
  · next armed =>
      cases answer with
      | output parsed =>
        cases parsed with
        | none => cases readable armed
        | some output => exact consistent.settle armed rfl
      | error message kind =>
        have nonempty : message ≠ [] := of_decide_eq_true (readable armed)
        dsimp only
        rw [if_neg nonempty]
        exact consistent.settle armed rfl
  · exact consistent

theorem Consistent.conclude (consistent : Consistent state) (found : state.calls[id]? = some call)
    (settled : call.phase = .settled) {outcome : Outcome}
    (result : call.outcomes.head? = some outcome) (violationLimit : ℕ) : Consistent (state.conclude violationLimit id outcome) := by
  have concluded : Consistent (state.onCall id .conclude) := by
    refine consistent.onCall found consistent.inside (fun _ _ => Iff.rfl) ?_ ?_
    · intro fits
      have done : call.phase.done = true := by rw [settled]; rfl
      refine ⟨⟨fun armed => ?_, nofun⟩, nofun, nofun, fun _ => fits.settled done⟩
      exact absurd ((fits.not_done armed).symm.trans done) Bool.false_ne_true
    · exact fun already => nomatch settled.symm.trans already
  have charge : outcome.violates = true → Consistent { state.onCall id .conclude with
      violations := state.violations ++ [id] } := by
    intro violates
    refine ⟨concluded.current, concluded.starting, concluded.fits, concluded.inside, ?_⟩
    intro other among
    rcases List.mem_append.mp among with old | new
    · exact concluded.charged other old
    · cases List.mem_singleton.mp new
      refine ⟨call.conclude, outcome, ?_, rfl, List.mem_of_head? result, violates⟩
      change (state.calls.modify id Call.conclude)[id]? = some call.conclude
      rw [List.getElem?_modify_eq, found]
      rfl
  unfold State.conclude
  dsimp only
  split
  · next violates =>
      have charged := charge violates
      split
      · refine Consistent.restart ?_
        exact ⟨charged.current, charged.starting, charged.fits, charged.inside, charged.charged⟩
      · exact charged
  · exact concluded

/-! ### What the workers do -/

theorem Worker.Starts.of_same {after : Worker} (starts : worker.Starts)
    (messages : worker.messages ⊆ after.messages) (failure : after.failure = worker.failure)
    (stage : worker.stage ≠ .booting) : after.Starts := by
  rcases starts with told | failed | booting
  · exact .inl (messages told)
  · exact .inr (.inl (failure ▸ failed))
  · exact absurd booting stage

theorem Consistent.step (consistent : Consistent state) {violationLimit : ℕ} {action : Action}
    {after : State} (guarded : Guarded state action)
    (taken : Step violationLimit state action after) : Consistent after := by
  cases taken with
  | call => exact consistent.called
  | close => exact consistent.restart
  | conclude found settled result => exact consistent.conclude found settled result _
  | proceed found ready =>
    obtain ⟨w, current⟩ := Option.isSome_iff_exists.mp guarded
    obtain ⟨worker, there, -⟩ := consistent.current w current
    unfold State.proceed
    rw [current]
    exact (consistent.post found ready w).onWorker_started there rfl rfl id
  | @timer id armed =>
    have fair : (Outcome.rejected (.timer (state.runs id))).fair = true := guarded
    exact (consistent.settle armed fair).restart
  | ready found first =>
    obtain ⟨woken, free⟩ := consistent.ready _
    refine woken.onWorker found rfl (fun none _ => ?_) fun call among awaits => ?_
    · exact absurd none (by simp)
    · exact absurd awaits (free call among)
  | @reply w worker id answer rest found first =>
    have replied := consistent.reply (guarded worker found id answer rest first)
    refine replied.onWorker_started ((reply_workers _ _ _).symm ▸ found) rfl rfl ?_
    rintro (told | other)
    · rw [first] at told
      exact .inl ((List.mem_cons.mp told).resolve_left nofun)
    · exact .inr other
  | @failure w worker kind found reported =>
    obtain ⟨refused, free⟩ := consistent.refuse w
    have failed : Consistent (state.failure w worker kind) :=
      refused.fail fun id armed => guarded worker found id armed
    refine failed.onWorker found rfl (fun none _ => ?_) fun call among awaits => ?_
    · exact absurd none (by simp)
    · exact absurd awaits (not_awaiting_fail free _ call among)
  | @exit w worker found exits drained reported =>
    have left : Consistent { state with
        worker := if state.worker = some w then none else state.worker } := by
      split
      · exact consistent.leave
      · exact consistent
    have none : state.pending = [] := guarded
    have failed : Consistent (state.exit w) := left.fail fun id armed =>
      absurd (none ▸ armed : id ∈ []) List.not_mem_nil
    exact failed.onWorker_started found rfl rfl fun starts => starts
  | boot found booting =>
    exact consistent.onWorker_started found rfl rfl fun _ => .inl (by simp [Worker.boot])
  | begin found idle first =>
    refine consistent.onWorker_started found rfl rfl fun starts => ?_
    exact starts.of_same (fun _ => id) rfl (by simp [idle])
  | answer found executing =>
    refine consistent.onWorker_started found rfl rfl fun starts => ?_
    exact starts.of_same (List.subset_append_left _ _) rfl (by simp [executing])
  | crash found alive =>
    exact consistent.onWorker_started found rfl rfl fun _ => .inr (.inl rfl)
  | @stop w worker found terminated alive =>
    refine consistent.onWorker found rfl (fun _ kept => ?_) ?_
    · exact absurd (kept.symm.trans terminated) Bool.false_ne_true
    · intro call among awaits ready starts
      refine ⟨ready, starts.of_same (fun _ => id) rfl fun booting => ?_⟩
      exact guarded worker found booting call among awaits

end Invariant

/-! ### Runs -/

theorem consistent_empty : Consistent .empty where
  current := nofun
  starting := nofun
  fits := nofun
  inside := nofun
  charged := nofun

theorem Consistent.settled {state : State} (consistent : Consistent state) {violationLimit : ℕ}
    (rests : ∀ action after, Step violationLimit state action after → action.due = false) :
    ∀ call ∈ state.calls, call.outcomes.length = 1 := by
  intro call among
  obtain ⟨id, found⟩ := List.mem_iff_getElem?.mp among
  have fits := consistent.fits id call found
  have still : ∀ {action : Action} {after : State}, Step violationLimit state action after →
      action.due = true → False := fun taken due =>
    Bool.false_ne_true ((rests _ _ taken).symm.trans due)
  cases phase : call.phase with
  | awaiting w =>
    obtain ⟨worker, there, -, starts⟩ := fits.awaited w phase
    exfalso
    cases messages : worker.messages with
    | cons message rest =>
      cases message with
      | ready => exact still (.ready there messages) rfl
      | reply id answer => exact still (.reply there messages) rfl
    | nil =>
      rcases starts with told | failed | booting
      · rw [messages] at told
        cases told
      · obtain ⟨kind, reported⟩ := Option.isSome_iff_exists.mp failed
        exact still (.failure there reported) rfl
      · exact still (.boot there booting) rfl
  | ready => exact (still (.proceed found phase) rfl).elim
  | posted w => exact (still (.timer (fits.armed.mpr ⟨w, phase⟩)) rfl).elim
  | settled | concluded =>
    obtain ⟨outcome, same, -⟩ := fits.settled (by rw [phase]; rfl)
    rw [same]
    rfl

theorem Consistent.sound {state : State} (consistent : Consistent state) (violationLimit : ℕ) :
    Sound violationLimit state where
  once := by
    intro call among
    obtain ⟨id, found⟩ := List.mem_iff_getElem?.mp among
    exact (consistent.fits id call found).once
  ends := fun _ _ => ends_of_internal
  settles := consistent.settled
  fair := by
    intro call among outcome given
    obtain ⟨id, found⟩ := List.mem_iff_getElem?.mp among
    exact (consistent.fits id call found).fair given
  charged := by
    intro id charged
    obtain ⟨call, outcome, found, -, given, violates⟩ := consistent.charged id charged
    exact ⟨call, outcome, found, given, violates, (consistent.fits id call found).fair given⟩

/-- In every run of guarded steps, every call settles exactly once, and the plugin is charged only
for what its own execution of a call did. -/
theorem sound_along (violationLimit : ℕ) {actions : List Action}
    (guarded : EachStep (Step violationLimit) .empty actions Guarded) :
    Along (Step violationLimit) .empty actions fun _ state => Sound violationLimit state := by
  have consistent : Along (Step violationLimit) .empty actions fun _ state => Consistent state :=
    guarded.along consistent_empty
      fun _ _ _ _ _ consistent guarded taken => consistent.step guarded taken
  intro history below state run
  exact (consistent history below state run).sound violationLimit

theorem deterministic (violationLimit : ℕ) : Deterministic (Step violationLimit) := by
  intro before action first second one two
  cases one with
  | call | proceed | timer | boot | crash | stop | close | exit =>
    cases two
    rfl
  | ready found messages =>
    cases two with
    | ready other again =>
      cases found.symm.trans other
      cases messages.symm.trans again
      rfl
    | reply other again =>
      cases found.symm.trans other
      nomatch messages.symm.trans again
  | reply found messages =>
    cases two with
    | ready other again =>
      cases found.symm.trans other
      nomatch messages.symm.trans again
    | reply other again =>
      cases found.symm.trans other
      cases messages.symm.trans again
      rfl
  | failure found reported =>
    cases two with
    | failure other again =>
      cases found.symm.trans other
      cases reported.symm.trans again
      rfl
  | begin found _ first =>
    cases two with
    | begin other _ again =>
      cases found.symm.trans other
      cases first.symm.trans again
      rfl
  | answer found executing =>
    cases two with
    | answer other again =>
      cases found.symm.trans other
      cases executing.symm.trans again
      rfl
  | conclude found _ result =>
    cases two with
    | conclude other _ again =>
      cases found.symm.trans other
      cases result.symm.trans again
      rfl

def timedOut : List Action :=
  [.call, .boot 0, .message 0, .proceed 0, .begin 0, .timer 0, .stop 0, .exit 0, .conclude 0]

/-- The plugin is charged for that call alone. -/
theorem sound_along_timedOut : (∃ state, Run (Step 3) .empty timedOut state) ∧
    Along (Step 3) .empty timedOut fun _ state => Sound 3 state := by
  have unique := deterministic 3
  have empty : Run (Step 3) .empty [] .empty ∧ EachStep (Step 3) .empty [] Guarded :=
    ⟨Run.nil, EachStep.nil⟩
  have called := EachStep.extend unique empty
    (show Guarded _ .call from trivial) (.call rfl)
  have booted := EachStep.extend unique called
    (show Guarded _ (.boot 0) from trivial) (.boot rfl rfl)
  have told := EachStep.extend unique booted
    (show Guarded _ (.message 0) from by rintro _ ⟨⟩ _ _ _ ⟨⟩) (.ready rfl rfl)
  have posted := EachStep.extend unique told
    (show Guarded _ (.proceed 0) from rfl) (.proceed rfl rfl)
  have begun := EachStep.extend unique posted
    (show Guarded _ (.begin 0) from trivial) (.begin rfl rfl rfl)
  have expired := EachStep.extend unique begun
    (show Guarded _ (.timer 0) from rfl) (.timer List.mem_cons_self)
  have stopped := EachStep.extend unique expired
    (show Guarded _ (.stop 0) from by rintro _ ⟨⟩ ⟨⟩) (.stop rfl rfl rfl)
  have exited := EachStep.extend unique stopped
    (show Guarded _ (.exit 0) from rfl) (.exit rfl rfl rfl rfl)
  have concluded := EachStep.extend unique exited
    (show Guarded _ (.conclude 0) from trivial)
    (.conclude rfl rfl rfl)
  exact ⟨⟨_, concluded.1⟩, sound_along 3 concluded.2⟩

def overtaken : List Action :=
  [.call, .boot 0, .message 0, .proceed 0, .begin 0, .timer 0, .call, .boot 1, .message 1,
    .proceed 1, .stop 0, .exit 0, .conclude 1]

def textless : List Action :=
  [.call, .boot 0, .message 0, .proceed 0, .begin 0, .answer 0 (.error [] .error), .message 0]

def lost : State where
  workers := [⟨.idle, false, some true, [], [], none, false⟩]
  worker := some 0
  calls := [⟨.posted 0, []⟩]
  pending := []
  violations := []
  disabled := false

theorem lost_rests {action : Action} {after : State} (taken : Step 3 lost action after) :
    action.due = false := by
  have one {worker : Worker} {w : WorkerId} (found : lost.workers[w]? = some worker) :
      worker = ⟨.idle, false, some true, [], [], none, false⟩ := by
    have among := List.mem_of_getElem? found
    exact List.mem_singleton.mp among
  have posted {call : Call} {id : CallId} (found : lost.calls[id]? = some call) :
      call = ⟨.posted 0, []⟩ := by
    have among := List.mem_of_getElem? found
    exact List.mem_singleton.mp among
  cases taken with
  | call | crash | close | begin | answer => rfl
  | proceed found ready =>
    cases posted found
    cases ready
  | timer armed => cases armed
  | ready found first | reply found first =>
    cases one found
    cases first
  | failure found reported =>
    cases one found
    cases reported
  | exit found exits =>
    cases one found
    cases exits
  | boot found booting =>
    cases one found
    cases booting
  | stop found terminated =>
    cases one found
    cases terminated
  | conclude found settled =>
    cases posted found
    cases settled

theorem unsound :
    (∃ state, Run (Step 3) .empty overtaken state ∧ ¬ Sound 3 state) ∧
      ∃ state, Run (Step 3) .empty textless state ∧ ¬ Sound 3 state := by
  refine ⟨⟨_, ((((((((((((Run.nil.snoc (.call rfl)).snoc (.boot rfl rfl)).snoc
      (.ready rfl rfl)).snoc (.proceed rfl rfl)).snoc (.begin rfl rfl rfl)).snoc
      (.timer List.mem_cons_self)).snoc (.call rfl)).snoc (.boot rfl rfl)).snoc
      (.ready rfl rfl)).snoc (.proceed rfl rfl)).snoc (.stop rfl rfl rfl)).snoc
      (.exit rfl rfl rfl rfl)).snoc (.conclude rfl rfl rfl), fun sound => ?overtaken⟩,
    ⟨_, ((((((Run.nil.snoc (.call rfl)).snoc (.boot rfl rfl)).snoc (.ready rfl rfl)).snoc
      (.proceed rfl rfl)).snoc (.begin rfl rfl rfl)).snoc (.answer rfl rfl)).snoc (.reply rfl rfl),
      fun sound => ?textless⟩⟩
  case overtaken =>
    obtain ⟨call, outcome, found, given, -, fair⟩ := sound.charged 1 List.mem_cons_self
    cases Option.some.inj found
    cases List.mem_singleton.mp given
    cases fair
  case textless =>
    have rested : Sound 3 lost := sound
    have settled := rested.settles (fun _ _ => lost_rests) ⟨.posted 0, []⟩ List.mem_cons_self
    cases settled

end PluginSandbox

end SorobanExplorer.Indexer
