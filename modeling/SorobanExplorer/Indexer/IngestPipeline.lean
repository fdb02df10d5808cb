import Mathlib.Data.List.Basic
import Mathlib.Tactic.Common

/-!
Owns the worker pool of the ingestion path. Items wait in a queue; `schedule`
cuts batches off its front and starts a worker on each while one is free; a
worker that settles, whether its promise is fulfilled or rejected, makes room for
the next batch. `drain` resolves once nothing waits and nothing runs.

`items` lists what the pool still holds. `schedule_items`, `enqueue_items` and
`settle_items` say what each operation does to that list: scheduling moves items
without changing it, `enqueue` appends what it accepts, and a settled worker takes
away what it still held. `Awaited` ties the promise of `drain` to the pool being
idle, and `settle_backlog` says that settlements lead there.
-/

namespace SorobanExplorer.Indexer

universe u v

variable {α : Type u} {β : Type v}

/-- The options of `createIngestPipeline`. -/
structure PipelineOptions where
  concurrency : Nat := 4
  batchSize : Nat := 64
  maxQueue : Nat := 2000

/-- The state that `createIngestPipeline` closes over: the items that wait and
the promises of `processBatch` that have not settled. Promises of `drain` are
counted, those still pending and those resolved. -/
structure IngestPipeline (α : Type u) (β : Type v) where
  queue : List α
  active : List β
  pendingDrains : Nat
  resolvedDrains : Nat

/-- What `enqueue` reports. -/
structure EnqueueResult where
  accepted : Nat
  dropped : Nat
deriving DecidableEq, Repr

namespace IngestPipeline

def create : IngestPipeline α β := ⟨[], [], 0, 0⟩

def activeWorkers (pipeline : IngestPipeline α β) : Nat :=
  pipeline.active.length

def isIdle (pipeline : IngestPipeline α β) : Bool :=
  pipeline.queue.length == 0 && pipeline.activeWorkers == 0

def notifyDrain (pipeline : IngestPipeline α β) : IngestPipeline α β :=
  if pipeline.isIdle then
    { pipeline with
      pendingDrains := 0
      resolvedDrains := pipeline.resolvedDrains + pipeline.pendingDrains }
  else pipeline

/-- The loop of `schedule`, for as many workers as are free. -/
def scheduleFree (options : PipelineOptions) (processBatch : List α → β) :
    Nat → IngestPipeline α β → IngestPipeline α β
  | 0, pipeline => pipeline
  | free + 1, pipeline =>
    if 0 < pipeline.queue.length then
      let size := min options.batchSize pipeline.queue.length
      let batch := pipeline.queue.take size
      if batch.length = 0 then pipeline
      else
        scheduleFree options processBatch free
          { pipeline with
            queue := pipeline.queue.drop size
            active := pipeline.active ++ [processBatch batch] }
    else pipeline

def schedule (options : PipelineOptions) (processBatch : List α → β)
    (pipeline : IngestPipeline α β) : IngestPipeline α β :=
  scheduleFree options processBatch (options.concurrency - pipeline.activeWorkers) pipeline

/-- Items beyond `maxQueue` are shed from the end of the input. -/
def enqueue (options : PipelineOptions) (processBatch : List α → β) (input : List α)
    (pipeline : IngestPipeline α β) : EnqueueResult × IngestPipeline α β :=
  if input.length = 0 then (⟨0, 0⟩, pipeline)
  else
    let overflow := pipeline.queue.length + input.length - options.maxQueue
    let accepted := input.length - overflow
    let dropped := input.length - accepted
    if 0 < accepted then
      (⟨accepted, dropped⟩,
        schedule options processBatch
          { pipeline with queue := pipeline.queue ++ input.take accepted })
    else (⟨accepted, dropped⟩, pipeline)

/-- The handlers of a settled promise. Fulfilment and rejection do the same,
except that a rejection is logged as `ingest batch failed`. -/
def settle (options : PipelineOptions) (processBatch : List α → β) (worker : Nat)
    (pipeline : IngestPipeline α β) : IngestPipeline α β :=
  schedule options processBatch
    (notifyDrain { pipeline with active := pipeline.active.eraseIdx worker })

def drain (pipeline : IngestPipeline α β) : IngestPipeline α β :=
  if pipeline.isIdle then { pipeline with resolvedDrains := pipeline.resolvedDrains + 1 }
  else { pipeline with pendingDrains := pipeline.pendingDrains + 1 }

/-! ### What the pool holds -/

/-- The items that a pool holds, in the order in which they came, where `holds`
lists the items a worker has still in hand. -/
def items (holds : β → List α) (pipeline : IngestPipeline α β) : List α :=
  pipeline.active.flatMap holds ++ pipeline.queue

theorem isIdle_iff {pipeline : IngestPipeline α β} :
    pipeline.isIdle = true ↔ pipeline.queue = [] ∧ pipeline.active = [] := by
  simp [isIdle, activeWorkers]

theorem items_of_isIdle {holds : β → List α} {pipeline : IngestPipeline α β}
    (idle : pipeline.isIdle) : pipeline.items holds = [] := by
  obtain ⟨queueEmpty, activeEmpty⟩ := isIdle_iff.mp idle
  simp [items, queueEmpty, activeEmpty]

@[simp]
theorem isIdle_notifyDrain {pipeline : IngestPipeline α β} :
    pipeline.notifyDrain.isIdle = pipeline.isIdle := by
  unfold notifyDrain
  split <;> rfl

@[simp]
theorem isIdle_drain {pipeline : IngestPipeline α β} :
    pipeline.drain.isIdle = pipeline.isIdle := by
  unfold drain
  split <;> rfl

@[simp]
theorem items_create {holds : β → List α} : items holds (create : IngestPipeline α β) = [] := rfl

@[simp]
theorem items_notifyDrain {holds : β → List α} {pipeline : IngestPipeline α β} :
    pipeline.notifyDrain.items holds = pipeline.items holds := by
  unfold notifyDrain
  split <;> rfl

@[simp]
theorem items_drain {holds : β → List α} {pipeline : IngestPipeline α β} :
    pipeline.drain.items holds = pipeline.items holds := by
  unfold drain
  split <;> rfl

section Schedule

variable {options : PipelineOptions} {processBatch : List α → β} {holds : β → List α}

theorem scheduleFree_items (started : ∀ batch, holds (processBatch batch) = batch)
    (free : Nat) (pipeline : IngestPipeline α β) :
    (scheduleFree options processBatch free pipeline).items holds = pipeline.items holds := by
  induction free generalizing pipeline with
  | zero => rfl
  | succ free ih =>
    simp only [scheduleFree]
    split
    · split
      · rfl
      · rw [ih]
        simp [items, started]
    · rfl

@[simp]
theorem schedule_items (started : ∀ batch, holds (processBatch batch) = batch)
    (pipeline : IngestPipeline α β) :
    (schedule options processBatch pipeline).items holds = pipeline.items holds :=
  scheduleFree_items started _ _

theorem enqueue_items (started : ∀ batch, holds (processBatch batch) = batch)
    (input : List α) (pipeline : IngestPipeline α β) :
    (enqueue options processBatch input pipeline).2.items holds =
      pipeline.items holds ++ input.take (options.maxQueue - pipeline.queue.length) := by
  have accepted_eq : input.take (input.length -
      (pipeline.queue.length + input.length - options.maxQueue)) =
        input.take (options.maxQueue - pipeline.queue.length) := by
    rw [List.take_eq_take_iff]
    omega
  unfold enqueue
  split
  · next empty => simp [List.length_eq_zero_iff.mp empty]
  · dsimp only
    rw [accepted_eq]
    split
    · rw [schedule_items started]
      simp [items]
    · next rejected =>
        have nothing : input.take (options.maxQueue - pipeline.queue.length) = [] := by
          rw [← accepted_eq, List.take_eq_nil_iff]
          omega
        simp [nothing]

theorem settle_items (started : ∀ batch, holds (processBatch batch) = batch)
    (worker : Nat) (pipeline : IngestPipeline α β) :
    (settle options processBatch worker pipeline).items holds =
      (pipeline.active.eraseIdx worker).flatMap holds ++ pipeline.queue := by
  rw [settle, schedule_items started, items_notifyDrain, items]

end Schedule

/-! ### Waiting for the pool -/

/-- One promise of `drain` is out: it is resolved if the pool is idle, and waits
if it is not. -/
def Awaited (pipeline : IngestPipeline α β) : Prop :=
  if pipeline.isIdle then pipeline.pendingDrains = 0 ∧ pipeline.resolvedDrains = 1
  else pipeline.pendingDrains = 1 ∧ pipeline.resolvedDrains = 0

def Saturated (options : PipelineOptions) (pipeline : IngestPipeline α β) : Prop :=
  pipeline.queue = [] ∨ options.concurrency ≤ pipeline.activeWorkers

def backlog (pipeline : IngestPipeline α β) : Nat :=
  pipeline.queue.length + pipeline.activeWorkers

theorem Awaited.isIdle_of_resolved {pipeline : IngestPipeline α β} (awaited : pipeline.Awaited)
    (resolved : 0 < pipeline.resolvedDrains) : pipeline.isIdle := by
  unfold Awaited at awaited
  split at awaited
  · assumption
  · omega

theorem Saturated.exists_worker {options : PipelineOptions} {pipeline : IngestPipeline α β}
    (saturated : pipeline.Saturated options) (workers : 0 < options.concurrency)
    (busy : pipeline.isIdle = false) : 0 < pipeline.activeWorkers := by
  obtain queueEmpty | full := saturated
  · rw [← Bool.not_eq_true, isIdle_iff] at busy
    simpa [activeWorkers, queueEmpty, List.length_pos_iff] using busy
  · omega

section Waiting

variable {options : PipelineOptions} {processBatch : List α → β}

theorem scheduleFree_keeps (options : PipelineOptions) (processBatch : List α → β) (free : Nat)
    (pipeline : IngestPipeline α β) :
    (scheduleFree options processBatch free pipeline).pendingDrains = pipeline.pendingDrains ∧
    (scheduleFree options processBatch free pipeline).resolvedDrains = pipeline.resolvedDrains ∧
    (scheduleFree options processBatch free pipeline).isIdle = pipeline.isIdle ∧
    (scheduleFree options processBatch free pipeline).backlog ≤ pipeline.backlog := by
  induction free generalizing pipeline with
  | zero => simp [scheduleFree]
  | succ free ih =>
    simp only [scheduleFree]
    split
    · next waiting =>
        split
        · simp
        · next started =>
            obtain ⟨pending, resolved, idle, fewer⟩ := ih
              { pipeline with
                queue := pipeline.queue.drop (min options.batchSize pipeline.queue.length)
                active := pipeline.active ++
                  [processBatch (pipeline.queue.take
                    (min options.batchSize pipeline.queue.length))] }
            refine ⟨pending, resolved, idle.trans ?_, Nat.le_trans fewer ?_⟩
            · have busy : pipeline.queue ≠ [] := List.length_pos_iff.mp waiting
              simp [isIdle, activeWorkers, busy]
            · simp only [List.length_take] at started
              simp only [backlog, activeWorkers, List.length_drop, List.length_append,
                List.length_singleton]
              omega
    · simp

/-- The loop ends with nothing waiting or with its workers used up. -/
theorem scheduleFree_saturated (processBatch : List α → β) (batches : 0 < options.batchSize)
    (free : Nat) (pipeline : IngestPipeline α β) :
    (scheduleFree options processBatch free pipeline).queue = [] ∨
      free + pipeline.activeWorkers ≤
        (scheduleFree options processBatch free pipeline).activeWorkers := by
  induction free generalizing pipeline with
  | zero => simp [scheduleFree]
  | succ free ih =>
    simp only [scheduleFree]
    split
    · next waiting =>
        split
        · next unstarted =>
            simp only [List.length_take] at unstarted
            omega
        · obtain queueEmpty | full := ih
            { pipeline with
              queue := pipeline.queue.drop (min options.batchSize pipeline.queue.length)
              active := pipeline.active ++
                [processBatch (pipeline.queue.take
                  (min options.batchSize pipeline.queue.length))] }
          · exact Or.inl queueEmpty
          · refine Or.inr (Nat.le_trans ?_ full)
            simp only [activeWorkers, List.length_append, List.length_singleton]
            omega
    · next nothing =>
        exact Or.inl (List.length_eq_zero_iff.mp (Nat.eq_zero_of_not_pos nothing))

theorem schedule_saturated (batches : 0 < options.batchSize) (pipeline : IngestPipeline α β) :
    (schedule options processBatch pipeline).Saturated options := by
  obtain queueEmpty | full := scheduleFree_saturated processBatch batches
    (options.concurrency - pipeline.activeWorkers) pipeline
  · exact Or.inl queueEmpty
  · refine Or.inr (Nat.le_trans ?_ full)
    omega

theorem awaited_of_fresh (input : List α) :
    (enqueue options processBatch input create).2.drain.Awaited := by
  have fresh : (enqueue options processBatch input create).2.pendingDrains = 0 ∧
      (enqueue options processBatch input create).2.resolvedDrains = 0 := by
    unfold enqueue
    split
    · exact ⟨rfl, rfl⟩
    · dsimp only
      split
      · obtain ⟨pending, resolved, _, _⟩ := scheduleFree_keeps options processBatch
          options.concurrency
          { (create : IngestPipeline α β) with
            queue := input.take (input.length - (0 + input.length - options.maxQueue)) }
        exact ⟨pending, resolved⟩
      · exact ⟨rfl, rfl⟩
  generalize (enqueue options processBatch input create).2 = pipeline at fresh
  rw [Awaited, isIdle_drain]
  cases idle : pipeline.isIdle with
  | true => simp [drain, idle, fresh]
  | false => simp [drain, idle, fresh]

theorem Awaited.settle {pipeline : IngestPipeline α β} (awaited : pipeline.Awaited)
    {worker : Nat} (running : worker < pipeline.activeWorkers) :
    (pipeline.settle options processBatch worker).Awaited := by
  have busy : pipeline.isIdle = false := by
    rw [← Bool.not_eq_true, isIdle_iff]
    intro idle
    simp [activeWorkers, idle.2] at running
  simp only [Awaited, busy, Bool.false_eq_true, if_false] at awaited
  obtain ⟨pending, resolved, idle, _⟩ := scheduleFree_keeps options processBatch
    (options.concurrency - (notifyDrain
      { pipeline with active := pipeline.active.eraseIdx worker }).activeWorkers)
    (notifyDrain { pipeline with active := pipeline.active.eraseIdx worker })
  unfold Awaited
  simp only [IngestPipeline.settle, schedule, pending, resolved, idle, isIdle_notifyDrain]
  cases empty : isIdle { pipeline with active := pipeline.active.eraseIdx worker } with
  | true =>
    simp only [notifyDrain, empty, if_true]
    simp [awaited]
  | false =>
    simp only [notifyDrain, empty, Bool.false_eq_true, if_false]
    simp [awaited]

/-- Every settlement brings the pool closer to being idle. -/
theorem settle_backlog {pipeline : IngestPipeline α β} {worker : Nat}
    (running : worker < pipeline.activeWorkers) :
    (pipeline.settle options processBatch worker).backlog < pipeline.backlog := by
  have fewer : (pipeline.settle options processBatch worker).backlog ≤
      (notifyDrain { pipeline with active := pipeline.active.eraseIdx worker }).backlog :=
    (scheduleFree_keeps options processBatch _ _).2.2.2
  have erased : (notifyDrain
      { pipeline with active := pipeline.active.eraseIdx worker }).backlog + 1 =
        pipeline.backlog := by
    have length : (pipeline.active.eraseIdx worker).length + 1 = pipeline.active.length :=
      List.length_eraseIdx_add_one running
    unfold notifyDrain
    split <;> simp only [backlog, activeWorkers] <;> omega
  omega

end Waiting

end IngestPipeline

end SorobanExplorer.Indexer
