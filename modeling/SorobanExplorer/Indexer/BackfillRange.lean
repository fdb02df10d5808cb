import SorobanExplorer.Indexer.Ingestion
import SorobanExplorer.Indexer.IngestWorkers

/-!
Owns `indexLedger` over a range of ledgers, as the backfill calls it: which events of its
pages reach `processEventBatch`, and where its page loop stops.

A page is handed to a pool of its own whose batches settle in any order. `processBatch` is an
async function that uses no pool, so that it neither throws nor calls `enqueue`, and the
console does not throw. A call that fails stops where it stands.
-/

namespace SorobanExplorer.Indexer.BackfillRange

open Library
open Indexer.IngestWorkers

/-! ### The call -/

/-- A call of `indexLedger`, the pool of its page, and the events of the pages before that
reached `processEventBatch`. -/
structure IndexCall where
  phase : Phase
  pool : Pool ContractEvent
  handed : List ContractEvent
deriving DecidableEq

def start : IndexCall := ⟨.polling none, .create, []⟩

/-- A page arrives. Its events within the range are filtered out for the other consumers; the
pool is given all of them. -/
def receivePage (page : Page) (call : IndexCall) : IndexCall :=
  { call with
    phase := .draining page
    pool := (Pool.create.enqueue ingestOptions page.events).drain }

def finishPage (endLedger : Nat) (page : Page) (call : IndexCall) : IndexCall where
  phase :=
    match nextPageCursor (some endLedger) page with
    | some pageCursor => .polling (some pageCursor)
    | none => .returned
  pool := .create
  handed := call.handed ++ call.pool.started.flatten

/-! ### Steps -/

inductive Answer where
  | received (page : Page)
  | pool (event : Event ContractEvent)
  | resume
deriving DecidableEq

def Answer.page? : Answer → Option Page
  | .received page => some page
  | _ => none

def allowed : Event ContractEvent → Bool
  | .enqueue _ | .drain | .threw | .logThrew => false
  | _ => true

inductive Step (endLedger : Nat) : IndexCall → Answer → IndexCall → Prop
  | received {call : IndexCall} {pageCursor : Option String} {page : Page}
      (polling : call.phase = .polling pageCursor) :
      Step endLedger call (.received page) (receivePage page call)
  | pool {call : IndexCall} {page : Page} {event : Event ContractEvent} {pool : Pool ContractEvent}
      (draining : call.phase = .draining page) (mayHappen : allowed event = true)
      (step : IngestWorkers.Step ingestOptions call.pool event pool) :
      Step endLedger call (.pool event) { call with pool := pool }
  | resume {call : IndexCall} {page : Page} (draining : call.phase = .draining page)
      (resolved : call.pool.pendingDrains = 0) :
      Step endLedger call .resume (finishPage endLedger page call)

/-! ### What is handed on -/

def pagesOf (history : List Answer) : List Page := history.filterMap Answer.page?

def accepted (page : Page) : List ContractEvent := page.events.take ingestOptions.maxQueue

/-- The pool of a page: it has accepted the page, and its drain resolves where nothing
waits. -/
structure Draining (page : Page) (pool : Pool ContractEvent) : Prop where
  sound : Sound ingestOptions pool
  accepts : pool.calls.flatMap Call.accepted = accepted page
  waits : pool.pendingDrains = 0 → pool.queue = []

theorem accepted_enqueue (page : Page) :
    ((Pool.create.enqueue ingestOptions page.events).calls.flatMap Call.accepted) =
      accepted page := by
  have fits : page.events.take
      (page.events.length - (0 + page.events.length - ingestOptions.maxQueue)) = accepted page := by
    rw [accepted, List.take_eq_take_iff]
    omega
  unfold Pool.enqueue
  split_ifs with empty
  · rw [accepted, List.length_eq_zero_iff.mp empty]
    rfl
  · dsimp only
    split_ifs with some
    · rw [calls_schedule]
      simpa [Pool.report, Pool.create, Call.accepted] using fits
    · simpa [Pool.report, Pool.create, Call.accepted] using fits

theorem draining_receivePage (page : Page) (call : IndexCall) :
    Draining page (receivePage page call).pool := by
  have sound : Sound ingestOptions (Pool.create.enqueue ingestOptions page.events) :=
    sound_create.enqueue page.events
  have drained : IngestWorkers.Step ingestOptions (Pool.create.enqueue ingestOptions page.events)
      .drain (receivePage page call).pool := .drain
  refine ⟨sound.drain, (congrArg _ (calls_of_step drained rfl)).trans (accepted_enqueue page), ?_⟩
  intro resolved
  simp only [receivePage, Pool.drain] at resolved ⊢
  split_ifs at resolved ⊢ with idle
  exact List.length_eq_zero_iff.mp idle.1

theorem Draining.step {page : Page} {pool after : Pool ContractEvent} (draining : Draining page pool)
    {event : Event ContractEvent} (mayHappen : allowed event = true)
    (step : IngestWorkers.Step ingestOptions pool event after) : Draining page after := by
  have noCall : event.input? = none := by
    cases event with
    | enqueue => cases mayHappen
    | _ => rfl
  refine ⟨draining.sound.step step, by rw [calls_of_step step noCall, draining.accepts], ?_⟩
  intro resolved
  by_cases before : pool.pendingDrains = 0
  · have shorter := queue_of_step step noCall
    rw [draining.waits before] at shorter
    exact List.length_eq_zero_iff.mp (Nat.le_zero.mp shorter)
  · exact (resolves_of_step step (by omega)).1

theorem Draining.started {page : Page} {pool : Pool ContractEvent} (draining : Draining page pool)
    (resolved : pool.pendingDrains = 0) : pool.started.flatten = accepted page := by
  rw [← draining.accepts, ← draining.sound.fifo, draining.waits resolved, List.append_nil]

/-! ### Every run -/

def Stands (pages : List Page) (call : IndexCall) : Prop :=
  match call.phase with
  | .draining page =>
    ∃ earlier, pages = earlier ++ [page] ∧ call.handed = earlier.flatMap accepted ∧
      Draining page call.pool
  | _ => call.handed = pages.flatMap accepted ∧ call.pool = .create

def StopsBeyond (endLedger : Nat) (pages : List Page) (call : IndexCall) : Prop :=
  ∀ earlier page later, pages = earlier ++ page :: later →
    beyondEndLedger (some endLedger) page = true →
      later = [] ∧ ∀ pageCursor, call.phase ≠ .polling pageCursor

section Runs

variable {endLedger : Nat} {history : List Answer} {call : IndexCall}

theorem Stands.step (stands : Stands (pagesOf history) call) {answer : Answer}
    {after : IndexCall} (step : Step endLedger call answer after) :
    Stands (pagesOf (history ++ [answer])) after := by
  rw [pagesOf, List.filterMap_append, ← pagesOf]
  cases step with
  | @received pageCursor page polling =>
    rw [Stands, polling] at stands
    exact ⟨pagesOf history, rfl, stands.1, draining_receivePage page call⟩
  | @pool page event pool draining mayHappen step =>
    rw [Stands, draining] at stands
    obtain ⟨earlier, pages, handed, kept⟩ := stands
    have none : [Answer.pool event].filterMap Answer.page? = [] := rfl
    rw [none, List.append_nil, Stands]
    simp only [draining]
    exact ⟨earlier, pages, handed, kept.step mayHappen step⟩
  | @resume page draining resolved =>
    rw [Stands, draining] at stands
    obtain ⟨earlier, pages, handed, kept⟩ := stands
    have given : call.handed ++ call.pool.started.flatten = (pagesOf history).flatMap accepted := by
      rw [kept.started resolved, handed, pages, List.flatMap_append, List.flatMap_singleton]
    have none : [Answer.resume].filterMap Answer.page? = [] := rfl
    rw [none, List.append_nil, Stands, finishPage]
    cases nextPageCursor (some endLedger) page <;> exact ⟨given, rfl⟩

theorem StopsBeyond.step (stands : Stands (pagesOf history) call)
    (stops : StopsBeyond endLedger (pagesOf history) call) {answer : Answer} {after : IndexCall}
    (step : Step endLedger call answer after) :
    StopsBeyond endLedger (pagesOf (history ++ [answer])) after := by
  rw [pagesOf, List.filterMap_append, ← pagesOf]
  cases step with
  | @received pageCursor page polling =>
    intro earlier last later same beyond
    refine ⟨?_, nofun⟩
    rcases List.eq_nil_or_concat later with none | ⟨between, newest, rfl⟩
    · exact none
    · rw [List.concat_eq_append, ← List.cons_append, ← List.append_assoc] at same
      have before := List.append_inj_left' same rfl
      exact absurd polling ((stops earlier last between before beyond).2 pageCursor)
  | @pool page event pool draining mayHappen step =>
    have none : [Answer.pool event].filterMap Answer.page? = [] := rfl
    rw [none, List.append_nil]
    exact stops
  | @resume page draining resolved =>
    have none : [Answer.resume].filterMap Answer.page? = [] := rfl
    rw [none, List.append_nil]
    intro earlier last later same beyond
    obtain ⟨rfl, -⟩ := stops earlier last later same beyond
    rw [Stands, draining] at stands
    obtain ⟨before, pages, -⟩ := stands
    obtain rfl : last = page := List.singleton_inj.mp (List.append_inj_right' (same.symm.trans pages) rfl)
    have ends : nextPageCursor (some endLedger) last = .none := by
      rw [nextPageCursor, beyond]
      rfl
    refine ⟨rfl, fun pageCursor => ?_⟩
    rw [finishPage, ends]
    exact nofun

theorem stands_of_run (run : Run (Step endLedger) start history call) :
    Stands (pagesOf history) call ∧ StopsBeyond endLedger (pagesOf history) call := by
  refine run.induct (P := fun history call =>
    Stands (pagesOf history) call ∧ StopsBeyond endLedger (pagesOf history) call)
    ⟨show Stands [] start from ⟨rfl, rfl⟩, ?_⟩ ?_
  · intro earlier page later same
    exact absurd same (by simp [pagesOf])
  · exact fun _ _ _ _ _ both step => ⟨both.1.step step, both.2.step both.1 step⟩

/-! ### The range -/

def inRange (ledger endLedger : Nat) (event : ContractEvent) : Bool :=
  ledger ≤ event.ledger && event.ledger ≤ endLedger

def HandsRange (ledger endLedger : Nat) (pages : List Page) (call : IndexCall) : Prop :=
  call.handed = (pages.flatMap Page.events).filter (inRange ledger endLedger)

instance (ledger endLedger : Nat) (pages : List Page) (call : IndexCall) :
    Decidable (HandsRange ledger endLedger pages call) :=
  inferInstanceAs (Decidable (_ = _))

/-- No event of the page is out of the range among those the pool accepts, and none is in it
among those the pool sheds. -/
def Within (ledger endLedger : Nat) (page : Page) : Prop :=
  (∀ event ∈ page.events.take ingestOptions.maxQueue, inRange ledger endLedger event = true) ∧
    ∀ event ∈ page.events.drop ingestOptions.maxQueue, inRange ledger endLedger event = false

instance (ledger endLedger : Nat) (page : Page) : Decidable (Within ledger endLedger page) :=
  inferInstanceAs (Decidable (_ ∧ _))

theorem filter_events (ledger : Nat) (page : Page) :
    page.events.filter (inRange ledger endLedger) =
      (accepted page).filter (inRange ledger endLedger) ++
        (page.events.drop ingestOptions.maxQueue).filter (inRange ledger endLedger) := by
  rw [accepted, ← List.filter_append, List.take_append_drop]

theorem length_flatMap_append (pages : List Page) (first second : Page → List ContractEvent) :
    (pages.flatMap fun page => first page ++ second page).length =
      (pages.flatMap first).length + (pages.flatMap second).length := by
  induction pages with
  | nil => rfl
  | cons page pages ih =>
    simp only [List.flatMap_cons, List.length_append, ih]
    omega

theorem shed_nothing {ledger : Nat} {pages : List Page}
    (allIn : ∀ page ∈ pages, ∀ event ∈ accepted page, inRange ledger endLedger event = true)
    (same : pages.flatMap accepted =
      pages.flatMap fun page => page.events.filter (inRange ledger endLedger)) :
    ∀ page ∈ pages,
      (page.events.drop ingestOptions.maxQueue).filter (inRange ledger endLedger) = [] := by
  have split : (pages.flatMap fun page => page.events.filter (inRange ledger endLedger)) =
      pages.flatMap fun page => accepted page ++
        (page.events.drop ingestOptions.maxQueue).filter (inRange ledger endLedger) :=
    List.flatMap_congr fun page mem => by
      rw [filter_events, List.filter_eq_self.mpr (allIn page mem)]
  have lengths := congrArg List.length (same.trans split)
  rw [length_flatMap_append] at lengths
  have none : (pages.flatMap fun page =>
      (page.events.drop ingestOptions.maxQueue).filter (inRange ledger endLedger)) = [] :=
    List.length_eq_zero_iff.mp (by omega)
  exact List.flatMap_eq_nil_iff.mp none

theorem accepted_eq_filter_iff {ledger : Nat} {pages : List Page} :
    pages.flatMap accepted = (pages.flatMap Page.events).filter (inRange ledger endLedger) ↔
      ∀ page ∈ pages, Within ledger endLedger page := by
  have filtered : (pages.flatMap Page.events).filter (inRange ledger endLedger) =
      pages.flatMap fun page => page.events.filter (inRange ledger endLedger) := by
    rw [List.filter_flatMap]
  rw [filtered]
  constructor
  · intro same page mem
    have allIn : ∀ page ∈ pages, ∀ event ∈ accepted page, inRange ledger endLedger event = true := by
      intro page mem event inside
      have listed := List.mem_flatMap.mpr ⟨page, mem, inside⟩
      rw [same, List.mem_flatMap] at listed
      obtain ⟨other, -, kept⟩ := listed
      exact (List.mem_filter.mp kept).2
    refine ⟨allIn page mem, fun event inside => ?_⟩
    have none := shed_nothing allIn same page mem
    exact Bool.not_eq_true _ ▸ List.filter_eq_nil_iff.mp none event inside
  · intro within
    refine List.flatMap_congr fun page mem => ?_
    have none : (page.events.drop ingestOptions.maxQueue).filter (inRange ledger endLedger) = [] :=
      List.filter_eq_nil_iff.mpr fun event inside => by
        rw [(within page mem).2 event inside]
        exact Bool.false_ne_true
    have all : (accepted page).filter (inRange ledger endLedger) = accepted page :=
      List.filter_eq_self.mpr (within page mem).1
    rw [filter_events, none, List.append_nil, all]

/-- Between two pages, and when it has returned, the call has handed on what it should and
has stopped where it should exactly if no page held an event of another ledger. -/
theorem handsRange_iff (ledger : Nat) (run : Run (Step endLedger) start history call)
    (settled : ∀ page, call.phase ≠ .draining page) :
    (HandsRange ledger endLedger (pagesOf history) call ∧
        StopsBeyond endLedger (pagesOf history) call) ↔
      ∀ page ∈ pagesOf history, Within ledger endLedger page := by
  obtain ⟨stands, stops⟩ := stands_of_run run
  have handed : call.handed = (pagesOf history).flatMap accepted := by
    rw [Stands] at stands
    split at stands
    next page draining => exact absurd draining (settled page)
    next => exact stands.1
  rw [← accepted_eq_filter_iff, ← handed]
  exact ⟨And.left, fun hands => ⟨hands, stops⟩⟩

end Runs

def answers (event : ContractEvent) : List Answer :=
  [.received ⟨[event], none, none⟩, .pool .returned, .pool (.settle 0 .fulfilled),
    .pool (.handleFulfilled 0), .resume]

theorem receivePage_one (event : ContractEvent) :
    receivePage ⟨[event], none, none⟩ start =
      { start with
        phase := .draining ⟨[event], none, none⟩
        pool := {
          queue := []
          activeWorkers := 1
          pendingDrains := 1
          stack := [.processBatch [event] .enqueue]
          promises := []
          rethrown := 0
          calls := [⟨[event], ⟨1, 0⟩⟩]
          started := [[event]]
          leaked := 0
          unhandled := 0 } } := by
  simp [receivePage, start, Pool.enqueue, Pool.schedule, Pool.drain, Pool.report, Pool.create,
    ingestOptions]

theorem run_answers (endLedger : Nat) (event : ContractEvent) :
    Run (Step endLedger) start (answers event) ⟨.returned, .create, [event]⟩ := by
  have received : Step endLedger start (.received ⟨[event], none, none⟩) _ := .received rfl
  rw [receivePage_one] at received
  have settled : Run (Step endLedger) start
      [.received ⟨[event], none, none⟩, .pool .returned, .pool (.settle 0 .fulfilled)] _ :=
    ((Run.one received).snoc (.pool rfl rfl (.returned rfl))).snoc (.pool rfl rfl (.settle rfl rfl))
  have worked := settled.snoc (.pool rfl rfl
    (@IngestWorkers.Step.handleFulfilled _ _ _ 0 ⟨[event], some .fulfilled⟩ rfl rfl rfl))
  have resumed := worked.snoc (.resume rfl rfl)
  have ends : nextPageCursor (some endLedger) ⟨[event], none, none⟩ = none := by
    simp [nextPageCursor, pageLimit]
  rw [finishPage, ends] at resumed
  exact resumed

theorem handsRange_one : HandsRange 5 10 (pagesOf (answers ⟨"e", "C", 10, none⟩))
    ⟨.returned, .create, [⟨"e", "C", 10, none⟩]⟩ :=
  ((handsRange_iff 5 (run_answers 10 ⟨"e", "C", 10, none⟩) nofun).mpr (by decide)).1

/-- A page that runs past the range hands on a later event. -/
theorem hands_later_event :
    ¬ ∀ (ledger endLedger : Nat) (history : List Answer) (call : IndexCall),
      Run (Step endLedger) start history call → call.phase = .returned →
        HandsRange ledger endLedger (pagesOf history) call := by
  intro all
  have handed := all 5 10 _ _ (run_answers 10 ⟨"e", "C", 11, none⟩) rfl
  exact absurd handed (by decide)

end SorobanExplorer.Indexer.BackfillRange
