import SorobanExplorer.Indexer.IngestPipeline
import SorobanExplorer.Library.Run
import Mathlib.Data.List.InsertIdx

/-!
Owns the worker pool with the calls of `processBatch` left open: such a call may throw,
may call `enqueue` and `drain` itself, and returns a promise that settles at any time. What
the pool guarantees is an invariant of every run (`Sound`), and where no exception gets past
its handlers, nothing it accepted is left behind (`Ready`).

User code runs in `processBatch` and in the logger alone, so that the stack of calls that
have not returned is a stack of these. Handlers of promises run when it is empty.
-/

namespace SorobanExplorer.Indexer

open Library

universe u

variable {α : Type u}

namespace IngestWorkers

/-! ### State -/

/-- Who runs the loop of `schedule`: `enqueue`, the handler of a fulfilled batch or the
handler of a rejected one. -/
inductive Origin where
  | enqueue
  | fulfilled
  | rejected
deriving DecidableEq, Repr

inductive Frame (α : Type u) where
  | processBatch (batch : List α) (origin : Origin)
  | loggerError
deriving DecidableEq, Repr

/-- The calls of `processBatch` that have not returned. -/
def processing : List (Frame α) → Nat
  | [] => 0
  | .processBatch _ _ :: stack => processing stack + 1
  | .loggerError :: stack => processing stack

inductive Outcome where
  | fulfilled
  | rejected
deriving DecidableEq, Repr

structure Work (α : Type u) where
  batch : List α
  settled : Option Outcome
deriving DecidableEq, Repr

/-- A call of `enqueue` and what it reports. A call that throws has accepted as much. -/
structure Call (α : Type u) where
  input : List α
  result : EnqueueResult
deriving DecidableEq, Repr

def Call.accepted (call : Call α) : List α := call.input.take call.result.accepted

/-- The pool. `rethrown` counts the handlers of fulfilled batches that threw and are to be
caught. `calls` and `started` record the calls and the batches so far, `leaked` the batches
that threw where `activeWorkers` is not taken back, and `unhandled` the calls of the logger
that threw. -/
structure Pool (α : Type u) where
  queue : List α
  activeWorkers : Int
  pendingDrains : Nat
  stack : List (Frame α)
  promises : List (Work α)
  rethrown : Nat
  calls : List (Call α)
  started : List (List α)
  leaked : Nat
  unhandled : Nat
deriving DecidableEq, Repr

namespace Pool

def create : Pool α := ⟨[], 0, 0, [], [], 0, [], [], 0, 0⟩

def inFlight (pool : Pool α) : Nat :=
  pool.promises.countP (fun work => work.settled.isNone) + processing pool.stack

/-! ### Operations -/

def notifyDrain (pool : Pool α) : Pool α :=
  if pool.queue.length = 0 ∧ pool.activeWorkers = 0 then { pool with pendingDrains := 0 }
  else pool

/-- The loop of `schedule`, up to its next call of `processBatch`. -/
def schedule (options : PipelineOptions) (origin : Origin) (pool : Pool α) : Pool α :=
  if 0 < pool.queue.length ∧ pool.activeWorkers < options.concurrency then
    let size := min options.batchSize pool.queue.length
    let batch := pool.queue.take size
    if batch.length = 0 then pool
    else
      { pool with
        queue := pool.queue.drop size
        activeWorkers := pool.activeWorkers + 1
        started := pool.started ++ [batch]
        stack := .processBatch batch origin :: pool.stack }
  else pool

def report (input : List α) (result : EnqueueResult) (pool : Pool α) : Pool α :=
  { pool with calls := pool.calls ++ [⟨input, result⟩] }

def enqueue (options : PipelineOptions) (input : List α) (pool : Pool α) : Pool α :=
  if input.length = 0 then pool.report input ⟨0, 0⟩
  else
    let overflow := pool.queue.length + input.length - options.maxQueue
    let accepted := input.length - overflow
    let dropped := input.length - accepted
    if 0 < accepted then
      schedule options .enqueue
        { pool.report input ⟨accepted, dropped⟩ with
          queue := pool.queue ++ input.take accepted }
    else pool.report input ⟨accepted, dropped⟩

def drain (pool : Pool α) : Pool α :=
  if pool.queue.length = 0 ∧ pool.activeWorkers = 0 then pool
  else { pool with pendingDrains := pool.pendingDrains + 1 }

/-- `processBatch` has returned: its promise gets its handlers, and the loop goes on. -/
def returned (options : PipelineOptions) (batch : List α) (origin : Origin)
    (stack : List (Frame α)) (pool : Pool α) : Pool α :=
  schedule options origin
    { pool with stack := stack, promises := pool.promises ++ [⟨batch, none⟩] }

/-- `processBatch` has thrown, and so does `schedule`. The handler of a fulfilled batch is
followed by the one of a rejected batch; the others are followed by nothing. -/
def threw (origin : Origin) (stack : List (Frame α)) (pool : Pool α) : Pool α :=
  match origin with
  | .fulfilled => { pool with stack := stack, rethrown := pool.rethrown + 1 }
  | .enqueue | .rejected => { pool with stack := stack, leaked := pool.leaked + 1 }

def settle (index : Nat) (work : Work α) (outcome : Outcome) (pool : Pool α) : Pool α :=
  { pool with promises := pool.promises.set index { work with settled := some outcome } }

def handleFulfilled (options : PipelineOptions) (index : Nat) (pool : Pool α) : Pool α :=
  schedule options .fulfilled
    (notifyDrain
      { pool with
        promises := pool.promises.eraseIdx index
        activeWorkers := pool.activeWorkers - 1 })

def handleRejected (index : Nat) (pool : Pool α) : Pool α :=
  { pool with
    promises := pool.promises.eraseIdx index
    activeWorkers := pool.activeWorkers - 1
    stack := [.loggerError] }

def handleRethrown (pool : Pool α) : Pool α :=
  { pool with
    rethrown := pool.rethrown - 1
    activeWorkers := pool.activeWorkers - 1
    stack := [.loggerError] }

def logged (options : PipelineOptions) (stack : List (Frame α)) (pool : Pool α) : Pool α :=
  schedule options .rejected (notifyDrain { pool with stack := stack })

def logThrew (stack : List (Frame α)) (pool : Pool α) : Pool α :=
  { pool with stack := stack, unhandled := pool.unhandled + 1 }

end Pool

/-! ### Steps -/

inductive Event (α : Type u) where
  | enqueue (input : List α)
  | drain
  | returned
  | threw
  | settle (index : Nat) (outcome : Outcome)
  | handleFulfilled (index : Nat)
  | handleRejected (index : Nat)
  | handleRethrown
  | logged
  | logThrew
deriving DecidableEq, Repr

/-- The items of a call of `enqueue`. -/
def Event.input? : Event α → Option (List α)
  | .enqueue input => some input
  | _ => none

open Pool in
inductive Step (options : PipelineOptions) : Pool α → Event α → Pool α → Prop
  | enqueue {pool : Pool α} {input : List α} :
      Step options pool (.enqueue input) (pool.enqueue options input)
  | drain {pool : Pool α} : Step options pool .drain pool.drain
  | returned {pool : Pool α} {batch : List α} {origin : Origin} {stack : List (Frame α)}
      (running : pool.stack = .processBatch batch origin :: stack) :
      Step options pool .returned (pool.returned options batch origin stack)
  | threw {pool : Pool α} {batch : List α} {origin : Origin} {stack : List (Frame α)}
      (running : pool.stack = .processBatch batch origin :: stack) :
      Step options pool .threw (pool.threw origin stack)
  | settle {pool : Pool α} {index : Nat} {work : Work α} {outcome : Outcome}
      (pending : pool.promises[index]? = some work) (unsettled : work.settled = none) :
      Step options pool (.settle index outcome) (pool.settle index work outcome)
  | handleFulfilled {pool : Pool α} {index : Nat} {work : Work α} (idle : pool.stack = [])
      (due : pool.promises[index]? = some work) (settled : work.settled = some .fulfilled) :
      Step options pool (.handleFulfilled index) (pool.handleFulfilled options index)
  | handleRejected {pool : Pool α} {index : Nat} {work : Work α} (idle : pool.stack = [])
      (due : pool.promises[index]? = some work) (settled : work.settled = some .rejected) :
      Step options pool (.handleRejected index) (pool.handleRejected index)
  | handleRethrown {pool : Pool α} (idle : pool.stack = []) (due : 0 < pool.rethrown) :
      Step options pool .handleRethrown pool.handleRethrown
  | logged {pool : Pool α} {stack : List (Frame α)}
      (running : pool.stack = .loggerError :: stack) :
      Step options pool .logged (pool.logged options stack)
  | logThrew {pool : Pool α} {stack : List (Frame α)}
      (running : pool.stack = .loggerError :: stack) :
      Step options pool .logThrew (pool.logThrew stack)

/-! ### The invariant -/

structure Sound (options : PipelineOptions) (pool : Pool α) : Prop where
  fifo : pool.started.flatten ++ pool.queue = pool.calls.flatMap Call.accepted
  sized : ∀ batch ∈ pool.started, 0 < batch.length ∧ batch.length ≤ options.batchSize
  counted : pool.activeWorkers =
    (pool.promises.length + processing pool.stack + pool.rethrown + pool.leaked : Nat)
  bounded : pool.activeWorkers ≤ options.concurrency
  short : pool.queue.length ≤ options.maxQueue
  reported : ∀ call ∈ pool.calls,
    call.result.accepted + call.result.dropped = call.input.length

def Ready (options : PipelineOptions) (pool : Pool α) : Prop :=
  pool.leaked = 0 → pool.unhandled = 0 → pool.stack = [] → pool.rethrown = 0 →
    pool.queue = [] ∨ (options.concurrency : Int) ≤ pool.activeWorkers

section Invariant

variable {options : PipelineOptions} {pool : Pool α}

theorem sound_create : Sound options (Pool.create : Pool α) where
  fifo := rfl
  sized := List.forall_mem_nil _
  counted := rfl
  bounded := Int.natCast_nonneg _
  short := Nat.zero_le _
  reported := List.forall_mem_nil _

theorem Sound.notifyDrain (sound : Sound options pool) : Sound options pool.notifyDrain := by
  unfold Pool.notifyDrain
  split_ifs
  · exact ⟨sound.fifo, sound.sized, sound.counted, sound.bounded, sound.short, sound.reported⟩
  · exact sound

theorem Sound.schedule (sound : Sound options pool) (origin : Origin) :
    Sound options (pool.schedule options origin) := by
  unfold Pool.schedule
  split_ifs with free
  · dsimp only
    split_ifs with none
    · exact sound
    · refine ⟨?_, ?_, ?_, ?_, ?_, sound.reported⟩
      · rw [← sound.fifo, List.flatten_append, List.flatten_singleton, List.append_assoc,
          List.take_append_drop]
      · intro batch mem
        rcases List.mem_append.mp mem with earlier | same
        · exact sound.sized batch earlier
        · rw [List.mem_singleton.mp same]
          refine ⟨Nat.pos_of_ne_zero none, ?_⟩
          rw [List.length_take]
          omega
      · have counted := sound.counted
        simp only [processing]
        omega
      · have few := free.2
        dsimp only
        omega
      · have short := sound.short
        simp only [List.length_drop]
        omega
  · exact sound

theorem ready_schedule (positive : 1 ≤ options.batchSize) (origin : Origin) :
    Ready options (pool.schedule options origin) := by
  unfold Pool.schedule
  split_ifs with free
  · dsimp only
    split_ifs with none
    · rw [List.length_take] at none
      omega
    · exact nofun
  · intro _ _ _ _
    by_cases waiting : 0 < pool.queue.length
    · exact Or.inr (Int.not_lt.mp fun few => free ⟨waiting, few⟩)
    · exact Or.inl (List.length_eq_zero_iff.mp (Nat.eq_zero_of_not_pos waiting))

/-! ### What each operation keeps -/

theorem Sound.accept (sound : Sound options pool) {input : List α} {accepted dropped : Nat}
    (total : accepted + dropped = input.length)
    (room : pool.queue.length + accepted ≤ options.maxQueue) :
    Sound options
      { pool.report input ⟨accepted, dropped⟩ with
        queue := pool.queue ++ input.take accepted } := by
  refine ⟨?_, sound.sized, sound.counted, sound.bounded, ?_, ?_⟩
  · simp only [Pool.report, List.flatMap_append, List.flatMap_singleton, ← sound.fifo,
      Call.accepted, List.append_assoc]
  · simp only [List.length_append, List.length_take]
    omega
  · intro call mem
    rcases List.mem_append.mp mem with earlier | same
    · exact sound.reported call earlier
    · rw [List.mem_singleton.mp same]
      exact total

theorem Sound.acceptNothing (sound : Sound options pool) {input : List α} {dropped : Nat}
    (total : dropped = input.length) : Sound options (pool.report input ⟨0, dropped⟩) := by
  have accepted := sound.accept ((Nat.zero_add dropped).trans total) sound.short
  rw [List.take_zero, List.append_nil] at accepted
  exact accepted

theorem Sound.enqueue (sound : Sound options pool) (input : List α) :
    Sound options (pool.enqueue options input) := by
  have short := sound.short
  unfold Pool.enqueue
  split_ifs with empty
  · exact sound.acceptNothing empty.symm
  · dsimp only
    split_ifs with some
    · apply Sound.schedule
      exact sound.accept (by omega) (by omega)
    · have nothing : input.length - (pool.queue.length + input.length - options.maxQueue) = 0 := by
        omega
      rw [nothing]
      exact sound.acceptNothing (Nat.sub_zero _)

theorem Sound.drain (sound : Sound options pool) : Sound options pool.drain := by
  unfold Pool.drain
  split_ifs
  · exact sound
  · exact ⟨sound.fifo, sound.sized, sound.counted, sound.bounded, sound.short, sound.reported⟩

theorem Sound.returned (sound : Sound options pool) {batch : List α} {origin : Origin}
    {stack : List (Frame α)} (running : pool.stack = .processBatch batch origin :: stack) :
    Sound options (pool.returned options batch origin stack) := by
  apply Sound.schedule
  refine ⟨sound.fifo, sound.sized, ?_, sound.bounded, sound.short, sound.reported⟩
  have counted := sound.counted
  rw [running, processing] at counted
  simp only [List.length_append, List.length_singleton]
  omega

theorem Sound.threw (sound : Sound options pool) {batch : List α} {origin : Origin}
    {stack : List (Frame α)} (running : pool.stack = .processBatch batch origin :: stack) :
    Sound options (pool.threw origin stack) := by
  have counted := sound.counted
  rw [running, processing] at counted
  cases origin with
  | enqueue | fulfilled | rejected =>
    refine ⟨sound.fifo, sound.sized, ?_, sound.bounded, sound.short, sound.reported⟩
    simp only [Pool.threw]
    omega

theorem Sound.settle (sound : Sound options pool) (index : Nat) (work : Work α)
    (outcome : Outcome) : Sound options (pool.settle index work outcome) := by
  refine ⟨sound.fifo, sound.sized, ?_, sound.bounded, sound.short, sound.reported⟩
  simpa only [Pool.settle, List.length_set] using sound.counted

theorem Sound.finish (sound : Sound options pool) {index : Nat} {work : Work α}
    (due : pool.promises[index]? = some work) :
    Sound options
      { pool with
        promises := pool.promises.eraseIdx index
        activeWorkers := pool.activeWorkers - 1 } := by
  have counted := sound.counted
  have bounded := sound.bounded
  have inside : index < pool.promises.length := (List.getElem?_eq_some_iff.mp due).1
  refine ⟨sound.fifo, sound.sized, ?_, by dsimp only; omega, sound.short, sound.reported⟩
  simp only [List.length_eraseIdx_of_lt inside]
  omega

theorem Sound.onStack (sound : Sound options pool) {stack : List (Frame α)}
    (same : processing stack = processing pool.stack) :
    Sound options { pool with stack := stack } := by
  refine ⟨sound.fifo, sound.sized, ?_, sound.bounded, sound.short, sound.reported⟩
  rw [same]
  exact sound.counted

theorem Sound.handleRethrown (sound : Sound options pool) (idle : pool.stack = [])
    (due : 0 < pool.rethrown) : Sound options pool.handleRethrown := by
  have counted := sound.counted
  have bounded := sound.bounded
  rw [idle, processing] at counted
  refine ⟨sound.fifo, sound.sized, ?_, ?_, sound.short, sound.reported⟩
  · simp only [Pool.handleRethrown, processing]
    omega
  · simp only [Pool.handleRethrown]
    omega

theorem Sound.step (sound : Sound options pool) {event : Event α} {after : Pool α}
    (step : Step options pool event after) : Sound options after := by
  cases step with
  | enqueue => exact sound.enqueue _
  | drain => exact sound.drain
  | returned running => exact sound.returned running
  | threw running => exact sound.threw running
  | settle pending unsettled => exact sound.settle _ _ _
  | handleFulfilled idle due settled => exact (sound.finish due).notifyDrain.schedule _
  | handleRejected idle due settled => exact (sound.finish due).onStack (by rw [idle]; rfl)
  | handleRethrown idle due => exact sound.handleRethrown idle due
  | logged running => exact (sound.onStack (by rw [running]; rfl)).notifyDrain.schedule _
  | @logThrew stack running =>
    have popped := @Sound.onStack _ _ _ sound stack (by rw [running]; rfl)
    exact ⟨popped.fifo, popped.sized, popped.counted, popped.bounded, popped.short,
      popped.reported⟩

theorem Ready.step (positive : 1 ≤ options.batchSize) (ready : Ready options pool)
    {event : Event α} {after : Pool α} (step : Step options pool event after) :
    Ready options after := by
  cases step with
  | @enqueue input =>
    unfold Pool.enqueue
    split_ifs
    · exact ready
    · dsimp only
      split_ifs
      · exact ready_schedule positive _
      · exact ready
  | drain =>
    unfold Pool.drain
    split_ifs
    · exact ready
    · exact ready
  | returned running => exact ready_schedule positive _
  | @threw batch origin stack running =>
    cases origin with
    | fulfilled => exact fun _ _ _ caught => absurd caught (Nat.succ_ne_zero _)
    | enqueue | rejected => exact fun kept => absurd kept (Nat.succ_ne_zero _)
  | settle pending unsettled => exact ready
  | handleFulfilled idle due settled => exact ready_schedule positive _
  | handleRejected idle due settled => exact nofun
  | handleRethrown idle due => exact nofun
  | logged running => exact ready_schedule positive _
  | logThrew running => exact fun _ handled => absurd handled (Nat.succ_ne_zero _)

/-! ### Waiting -/

theorem Sound.inFlight_le (sound : Sound options pool) : (pool.inFlight : Int) ≤ pool.activeWorkers := by
  have counted := sound.counted
  have unsettled := pool.promises.countP_le_length (p := fun work => work.settled.isNone)
  rw [Pool.inFlight]
  omega

@[simp]
theorem pendingDrains_schedule (origin : Origin) :
    (pool.schedule options origin).pendingDrains = pool.pendingDrains := by
  unfold Pool.schedule
  split_ifs
  · dsimp only
    split_ifs <;> rfl
  · rfl

theorem resolves_of_notifyDrain {origin : Origin}
    (fewer : (pool.notifyDrain.schedule options origin).pendingDrains < pool.pendingDrains) :
    (pool.notifyDrain.schedule options origin).queue = [] ∧
      (pool.notifyDrain.schedule options origin).activeWorkers = 0 := by
  rw [pendingDrains_schedule, Pool.notifyDrain] at fewer
  split_ifs at fewer with idle
  · have empty : pool.notifyDrain = { pool with pendingDrains := 0 } := by
      rw [Pool.notifyDrain, if_pos idle]
    have nothing : ¬ (0 < pool.queue.length ∧ pool.activeWorkers < options.concurrency) := by
      omega
    rw [empty, Pool.schedule, if_neg nothing]
    exact ⟨List.length_eq_zero_iff.mp idle.1, idle.2⟩
  · exact absurd fewer (Nat.lt_irrefl _)

theorem resolves_of_step {event : Event α} {after : Pool α} (step : Step options pool event after)
    (fewer : after.pendingDrains < pool.pendingDrains) :
    after.queue = [] ∧ after.activeWorkers = 0 := by
  cases step with
  | @enqueue input =>
    have kept : (pool.enqueue options input).pendingDrains = pool.pendingDrains := by
      unfold Pool.enqueue
      split_ifs
      · rfl
      · dsimp only
        split_ifs
        · exact pendingDrains_schedule _
        · rfl
    exact absurd (kept ▸ fewer) (Nat.lt_irrefl _)
  | drain =>
    unfold Pool.drain at fewer
    split_ifs at fewer
    · exact absurd fewer (Nat.lt_irrefl _)
    · exact absurd fewer (by dsimp only; omega)
  | returned running =>
    rw [Pool.returned, pendingDrains_schedule] at fewer
    exact absurd fewer (Nat.lt_irrefl _)
  | @threw batch origin stack running =>
    cases origin <;> exact absurd fewer (Nat.lt_irrefl _)
  | handleFulfilled | logged => exact resolves_of_notifyDrain fewer
  | settle | handleRejected | handleRethrown | logThrew =>
    exact absurd fewer (Nat.lt_irrefl _)

end Invariant

/-! ### Every run -/

def Recorded (history : List (Event α)) (pool : Pool α) : Prop :=
  pool.calls.map Call.input = history.filterMap Event.input?

section Runs

variable {options : PipelineOptions} {history : List (Event α)} {pool : Pool α}

@[simp]
theorem calls_schedule (origin : Origin) : (pool.schedule options origin).calls = pool.calls := by
  unfold Pool.schedule
  split_ifs
  · dsimp only
    split_ifs <;> rfl
  · rfl

@[simp]
theorem calls_notifyDrain : pool.notifyDrain.calls = pool.calls := by
  unfold Pool.notifyDrain
  split_ifs <;> rfl

theorem queue_schedule (origin : Origin) (pool : Pool α) :
    (pool.schedule options origin).queue.length ≤ pool.queue.length := by
  unfold Pool.schedule
  split_ifs
  · dsimp only
    split_ifs
    · exact le_rfl
    · simp only [List.length_drop]
      omega
  · exact le_rfl

@[simp]
theorem queue_notifyDrain : pool.notifyDrain.queue.length = pool.queue.length := by
  unfold Pool.notifyDrain
  split_ifs <;> rfl

theorem inputs_enqueue (input : List α) :
    (pool.enqueue options input).calls.map Call.input = pool.calls.map Call.input ++ [input] := by
  unfold Pool.enqueue
  split_ifs
  · simp [Pool.report]
  · dsimp only
    split_ifs <;> simp [Pool.report]

theorem calls_of_step {event : Event α} {after : Pool α} (step : Step options pool event after)
    (noCall : event.input? = none) : after.calls = pool.calls := by
  cases step with
  | enqueue => cases noCall
  | drain =>
    unfold Pool.drain
    split_ifs <;> rfl
  | @threw batch origin stack running => cases origin <;> rfl
  | returned => exact calls_schedule _
  | handleFulfilled | logged => exact (calls_schedule _).trans calls_notifyDrain
  | settle | handleRejected | handleRethrown | logThrew => rfl

theorem queue_of_step {event : Event α} {after : Pool α} (step : Step options pool event after)
    (noCall : event.input? = none) : after.queue.length ≤ pool.queue.length := by
  cases step with
  | enqueue => cases noCall
  | drain =>
    unfold Pool.drain
    split_ifs <;> exact le_rfl
  | @threw batch origin stack running => cases origin <;> exact le_rfl
  | returned => exact queue_schedule _ _
  | handleFulfilled | logged => exact (queue_schedule _ _).trans_eq queue_notifyDrain
  | settle | handleRejected | handleRethrown | logThrew => exact le_rfl

theorem Recorded.step (recorded : Recorded history pool) {event : Event α} {after : Pool α}
    (step : Step options pool event after) : Recorded (history ++ [event]) after := by
  unfold Recorded at recorded ⊢
  rw [List.filterMap_append, ← recorded]
  cases noCall : event.input? with
  | none => simp [calls_of_step step noCall, noCall]
  | some input =>
    cases step with
    | enqueue =>
      cases noCall
      exact inputs_enqueue _
    | _ => cases noCall

theorem sound_of_run (run : Run (Step options) Pool.create history pool) : Sound options pool :=
  run.invariant sound_create fun _ _ _ sound step => sound.step step

theorem ready_of_run (positive : 1 ≤ options.batchSize)
    (run : Run (Step options) Pool.create history pool) : Ready options pool :=
  run.invariant (fun _ _ _ _ => Or.inl rfl) fun _ _ _ ready step => ready.step positive step

theorem recorded_of_run (run : Run (Step options) Pool.create history pool) :
    Recorded history pool :=
  run.induct (P := Recorded) (show Recorded [] (Pool.create : Pool α) from rfl)
    fun _ _ _ _ _ recorded step => recorded.step step

end Runs

/-- The pool where no user code runs, as the pool of promises that have not settled. -/
structure Matches (pipeline : IngestPipeline α (List α)) (pool : Pool α) : Prop where
  queue : pool.queue = pipeline.queue
  active : pool.promises = pipeline.active.map fun batch => ⟨batch, none⟩
  counted : pool.activeWorkers = pipeline.activeWorkers
  pending : pool.pendingDrains = pipeline.pendingDrains
  idle : pool.stack = []

section Matching

variable {options : PipelineOptions} {pipeline : IngestPipeline α (List α)} {pool : Pool α}

theorem Matches.isIdle_iff (same : Matches pipeline pool) :
    pipeline.isIdle = true ↔ pool.queue.length = 0 ∧ pool.activeWorkers = 0 := by
  rw [IngestPipeline.isIdle, same.queue, same.counted]
  simp

theorem Matches.notifyDrain (same : Matches pipeline pool) :
    Matches pipeline.notifyDrain pool.notifyDrain := by
  unfold IngestPipeline.notifyDrain Pool.notifyDrain
  by_cases idle : pipeline.isIdle = true
  · rw [if_pos idle, if_pos (same.isIdle_iff.mp idle)]
    exact ⟨same.queue, same.active, same.counted, rfl, same.idle⟩
  · rw [if_neg idle, if_neg fun waiting => idle (same.isIdle_iff.mpr waiting)]
    exact same

theorem Matches.scheduleFree (same : Matches pipeline pool) (origin : Origin) {free : Nat}
    (left : options.concurrency - pipeline.activeWorkers = free) :
    ∃ history after, Run (Step options) (pool.schedule options origin) history after ∧
      (∀ event ∈ history, event = .returned) ∧
        Matches (IngestPipeline.scheduleFree options id free pipeline) after := by
  induction free generalizing pipeline pool with
  | zero =>
    have full : ¬ (0 < pool.queue.length ∧ pool.activeWorkers < options.concurrency) := by
      rw [same.counted]
      omega
    rw [Pool.schedule, if_neg full]
    exact ⟨[], pool, .nil, nofun, same⟩
  | succ free ih =>
    rw [IngestPipeline.scheduleFree, Pool.schedule, ← same.queue]
    have few : pool.activeWorkers < options.concurrency := by
      rw [same.counted]
      omega
    by_cases waiting : 0 < pool.queue.length
    · rw [if_pos waiting, if_pos ⟨waiting, few⟩]
      dsimp only
      split_ifs with nothing
      · exact ⟨[], pool, .nil, nofun, same⟩
      · set batch := pool.queue.take (min options.batchSize pool.queue.length) with cut
        have next : Matches
            { pipeline with
              queue := pool.queue.drop (min options.batchSize pool.queue.length)
              active := pipeline.active ++ [id batch] }
            { pool with
              queue := pool.queue.drop (min options.batchSize pool.queue.length)
              activeWorkers := pool.activeWorkers + 1
              started := pool.started ++ [batch]
              promises := pool.promises ++ [⟨batch, none⟩] } := by
          refine ⟨rfl, ?_, ?_, same.pending, same.idle⟩
          · rw [same.active, List.map_append]
            rfl
          · simp only [same.counted, IngestPipeline.activeWorkers, List.length_append,
              List.length_singleton]
            omega
        obtain ⟨history, after, run, only, matched⟩ := ih next (by
          simp only [IngestPipeline.activeWorkers, List.length_append, List.length_singleton]
            at left ⊢
          omega)
        refine ⟨.returned :: history, after, ?_, List.forall_mem_cons.mpr ⟨rfl, only⟩, matched⟩
        let opened : Pool α := { pool with
          queue := pool.queue.drop (min options.batchSize pool.queue.length)
          activeWorkers := pool.activeWorkers + 1
          started := pool.started ++ [batch]
          stack := .processBatch batch origin :: pool.stack }
        have first : Step options opened .returned
            (opened.returned options batch origin pool.stack) := .returned rfl
        exact (Run.one first).append run
    · rw [if_neg waiting, if_neg fun both => waiting both.1]
      exact ⟨[], pool, .nil, nofun, same⟩

theorem Matches.enqueue (same : Matches pipeline pool) (input : List α) :
    ∃ history after, Run (Step options) pool (.enqueue input :: history) after ∧
      (∀ event ∈ history, event = .returned) ∧
        Matches (IngestPipeline.enqueue options id input pipeline).2 after := by
  have called : Step options pool (.enqueue input) (pool.enqueue options input) := .enqueue
  suffices later : ∃ history after, Run (Step options) (pool.enqueue options input) history after ∧
      (∀ event ∈ history, event = .returned) ∧
        Matches (IngestPipeline.enqueue options id input pipeline).2 after by
    obtain ⟨history, after, run, only, matched⟩ := later
    exact ⟨history, after, (Run.one called).append run, only, matched⟩
  rw [Pool.enqueue, IngestPipeline.enqueue, ← same.queue]
  split_ifs
  · exact ⟨[], _, .nil, nofun, ⟨same.queue, same.active, same.counted, same.pending, same.idle⟩⟩
  · dsimp only
    split_ifs
    · refine Matches.scheduleFree ?_ .enqueue rfl
      exact ⟨rfl, same.active, same.counted, same.pending, same.idle⟩
    · exact ⟨[], _, .nil, nofun, ⟨same.queue, same.active, same.counted, same.pending, same.idle⟩⟩

theorem Matches.drain (same : Matches pipeline pool) : Matches pipeline.drain pool.drain := by
  unfold IngestPipeline.drain Pool.drain
  by_cases idle : pipeline.isIdle = true
  · rw [if_pos idle, if_pos (same.isIdle_iff.mp idle)]
    exact ⟨same.queue, same.active, same.counted, same.pending, same.idle⟩
  · rw [if_neg idle, if_neg fun waiting => idle (same.isIdle_iff.mpr waiting)]
    refine ⟨same.queue, same.active, same.counted, ?_, same.idle⟩
    dsimp only
    rw [same.pending]

theorem Matches.finish (same : Matches pipeline pool) {index : Nat}
    (running : index < pipeline.active.length) :
    Matches { pipeline with active := pipeline.active.eraseIdx index }
      { pool with
        promises := pool.promises.eraseIdx index
        activeWorkers := pool.activeWorkers - 1 } := by
  refine ⟨same.queue, ?_, ?_, same.pending, same.idle⟩
  · simp only [same.active, List.eraseIdx_map]
  · have counted := same.counted
    simp only [IngestPipeline.activeWorkers, List.length_eraseIdx_of_lt running] at counted ⊢
    omega

def handlerOf : Outcome → Origin
  | .fulfilled => .fulfilled
  | .rejected => .rejected

theorem Matches.settle (same : Matches pipeline pool) {index : Nat}
    (running : index < pipeline.active.length) (outcome : Outcome) :
    ∃ history after, Run (Step options) pool (.settle index outcome :: history) after ∧
      (∀ event ∈ history, event ≠ .threw ∧ event ≠ .logThrew ∧ event.input? = none) ∧
        Matches (pipeline.settle options id index) after := by
  let work : Work α := ⟨pipeline.active[index], none⟩
  have pending : pool.promises[index]? = some work := by
    simp [same.active, work, running]
  have inside : index < pool.promises.length := (List.getElem?_eq_some_iff.mp pending).1
  have settles : Step options pool (.settle index outcome) (pool.settle index work outcome) :=
    .settle pending rfl
  have due : (pool.settle index work outcome).promises[index]? =
      some { work with settled := some outcome } := by
    simp [Pool.settle, inside]
  have erased : (pool.settle index work outcome).promises.eraseIdx index =
      pool.promises.eraseIdx index := List.eraseIdx_set_eq
  have finished := (same.finish running).notifyDrain
  obtain ⟨history, after, run, only, matched⟩ :=
    @Matches.scheduleFree _ options _ _ finished (handlerOf outcome) _ rfl
  have quiet : ∀ event ∈ history, event ≠ .threw ∧ event ≠ .logThrew ∧ event.input? = none := by
    intro event mem
    rw [only event mem]
    exact ⟨nofun, nofun, rfl⟩
  cases outcome with
  | fulfilled =>
    have handled : Step options (pool.settle index work .fulfilled) (.handleFulfilled index)
        ((pool.settle index work .fulfilled).handleFulfilled options index) :=
      .handleFulfilled same.idle due rfl
    rw [Pool.handleFulfilled, erased] at handled
    exact ⟨.handleFulfilled index :: history, after,
      (Run.one settles).append ((Run.one handled).append run),
      List.forall_mem_cons.mpr ⟨⟨nofun, nofun, rfl⟩, quiet⟩, matched⟩
  | rejected =>
    have handled : Step options (pool.settle index work .rejected) (.handleRejected index)
        ((pool.settle index work .rejected).handleRejected index) :=
      .handleRejected same.idle due rfl
    have logs : Step options ((pool.settle index work .rejected).handleRejected index) .logged
        (((pool.settle index work .rejected).handleRejected index).logged options []) :=
      .logged rfl
    have popped : ((pool.settle index work .rejected).handleRejected index).logged options [] =
        Pool.schedule options .rejected (Pool.notifyDrain
          { pool with
            promises := pool.promises.eraseIdx index
            activeWorkers := pool.activeWorkers - 1 }) := by
      simp only [Pool.logged, Pool.handleRejected, erased, same.idle]
      rfl
    rw [popped] at logs
    exact ⟨.handleRejected index :: .logged :: history, after,
      (Run.one settles).append ((Run.one handled).append ((Run.one logs).append run)),
      List.forall_mem_cons.mpr ⟨⟨nofun, nofun, rfl⟩,
        List.forall_mem_cons.mpr ⟨⟨nofun, nofun, rfl⟩, quiet⟩⟩, matched⟩

end Matching

end IngestWorkers

end SorobanExplorer.Indexer
