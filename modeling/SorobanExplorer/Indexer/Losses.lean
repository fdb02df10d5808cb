import SorobanExplorer.Indexer.Ingestion

/-!
Owns where ingestion loses events. An event of a page is kept once it is in one of
the two tables, and until then it is in the hands of the pool. Three steps let go
of events that they do not keep: `enqueue` sheds the tail of a page that is too
long, an insert skips the events whose key another row has, and a batch that is
rejected before its insert is dropped, since the pool's rejection handler logs the
error and goes on.

`nothingLost_iff_eachStep` is exact: nothing is ever lost in a run if and only if
no step of it lets go of an event that is not kept or held besides.
`Daemon.lost_forever` says that such an event does not come back by itself.
-/

namespace SorobanExplorer.Indexer

open Library

/-- The insert of a batch skips the event: the first row with its key, in the
table or in the batch, is another event's. -/
def displaced (rows batch : List ContractEvent) (event : ContractEvent) : Bool :=
  match event.conflictKey with
  | none => false
  | some key =>
    firstWithKey ContractEvent.conflictKey (rows ++ batch) key != some event

theorem mem_of_upsertEventsValidatedBatch {index : DedupIndex}
    {rows batch after : List ContractEvent} {event : ContractEvent}
    (accepted : upsertEventsValidatedBatch index rows batch = .ok after) :
    event ∈ after ↔
      event ∈ rows ∨ (event ∈ batch ∧ displaced rows batch event = false) := by
  unfold upsertEventsValidatedBatch at accepted
  split at accepted
  · next empty =>
      cases accepted
      simp [List.length_eq_zero_iff.mp empty]
  · cases index with
    | eventsDedup =>
      cases accepted
      rw [mem_insertAll_iff, displaced]
      cases event.conflictKey with
      | none => simp
      | some key => simp
    | eventsDedupLegacy => cases accepted

namespace Daemon

variable {index : DedupIndex}

def Kept (daemon : Daemon) (event : ContractEvent) : Prop :=
  event ∈ daemon.events ∨ event ∈ daemon.deadLetters

def held (daemon : Daemon) : List ContractEvent :=
  daemon.pipeline.items BatchRun.pending

def heldBesides (daemon : Daemon) (worker : Nat) : List ContractEvent :=
  (daemon.pipeline.active.eraseIdx worker).flatMap BatchRun.pending ++ daemon.pipeline.queue

def KeepsEvents (daemon : Daemon) : Prop :=
  (∀ event ∈ daemon.passed, daemon.Kept event) ∧
    (daemon.phase = .returned → ∀ event ∈ daemon.polled, daemon.Kept event)

def NothingLost (daemon : Daemon) : Prop :=
  (∀ event ∈ daemon.passed, daemon.Kept event) ∧
    ∀ event ∈ daemon.polled, daemon.Kept event ∨ event ∈ daemon.held

/-- The step lets go of no event but those that are kept already or held besides:
a page is not longer than the queue, no event of an inserted batch is displaced,
and no batch is rejected before its insert, up to events that are safe elsewhere. -/
def Spares (daemon : Daemon) : Action → Prop
  | .page page =>
    ∀ event ∈ page.events.drop ingestOptions.maxQueue,
      daemon.Kept event ∨ event ∈ page.events.take ingestOptions.maxQueue
  | .insert worker =>
    ∀ run, daemon.pipeline.active[worker]? = some run →
      ∀ event ∈ run.batch, displaced daemon.events run.batch event = true →
        daemon.Kept event ∨ event ∈ daemon.heldBesides worker
  | .reject worker =>
    ∀ run, daemon.pipeline.active[worker]? = some run →
      ∀ event ∈ run.pending, daemon.Kept event ∨ event ∈ daemon.heldBesides worker
  | _ => True

/-- What holds of the daemon in every run: while a page is drained the pool is
awaited and holds events of the current call alone; otherwise the pool is idle. -/
def Coherent (daemon : Daemon) : Prop :=
  match daemon.phase with
  | .draining _ => daemon.pipeline.Awaited ∧ daemon.held ⊆ daemon.polled
  | .idle => daemon.pipeline.isIdle ∧ daemon.polled = []
  | .polling _ | .returned => daemon.pipeline.isIdle

/-! ### What each step does to the events in hand -/

theorem held_of_isIdle {daemon : Daemon} (idle : daemon.pipeline.isIdle) : daemon.held = [] :=
  IngestPipeline.items_of_isIdle idle

theorem mem_held_iff {daemon : Daemon} {worker : Nat} {run : BatchRun}
    (running : daemon.pipeline.active[worker]? = some run) (event : ContractEvent) :
    event ∈ daemon.held ↔ event ∈ run.pending ∨ event ∈ daemon.heldBesides worker := by
  obtain ⟨inRange, rfl⟩ := List.getElem?_eq_some_iff.mp running
  have split : daemon.pipeline.active =
      daemon.pipeline.active.take worker ++
        daemon.pipeline.active[worker] :: daemon.pipeline.active.drop (worker + 1) := by
    rw [← List.drop_eq_getElem_cons inRange, List.take_append_drop]
  rw [held, IngestPipeline.items, heldBesides, List.eraseIdx_eq_take_drop_succ]
  conv_lhs => rw [split]
  simp only [List.flatMap_append, List.flatMap_cons, List.mem_append]
  tauto

theorem held_settle (daemon : Daemon) (worker : Nat) :
    (daemon.settle worker).held = daemon.heldBesides worker :=
  IngestPipeline.settle_items pending_processEventBatch worker daemon.pipeline

theorem held_recordInsert {daemon : Daemon} {worker : Nat} {run : BatchRun}
    {rows : List ContractEvent} (running : daemon.pipeline.active[worker]? = some run) :
    (daemon.recordInsert worker run rows).held = daemon.heldBesides worker := by
  obtain ⟨inRange, rfl⟩ := List.getElem?_eq_some_iff.mp running
  simp only [held, IngestPipeline.items, recordInsert, heldBesides,
    List.set_eq_take_append_cons_drop, inRange, if_true, List.eraseIdx_eq_take_drop_succ]
  simp [BatchRun.pending]

theorem held_receivePage (daemon : Daemon) (page : Page) :
    (daemon.receivePage page).held = page.events.take ingestOptions.maxQueue := by
  simp only [held, receivePage, IngestPipeline.items_drain]
  rw [IngestPipeline.enqueue_items pending_processEventBatch]
  rw [IngestPipeline.items_create]
  simp [IngestPipeline.create]

/-! ### Invariants of a run -/

theorem coherent_start (cursor : Nat) (events deadLetters : List ContractEvent) :
    (start cursor events deadLetters).Coherent :=
  ⟨rfl, rfl⟩

theorem Coherent.of_draining {daemon : Daemon} (coherent : daemon.Coherent) {page : Page}
    (draining : daemon.phase = .draining page) :
    daemon.pipeline.Awaited ∧ daemon.held ⊆ daemon.polled := by
  simpa [Coherent, draining] using coherent

theorem Coherent.of_idle {daemon : Daemon} (coherent : daemon.Coherent)
    (idle : daemon.phase = .idle) : daemon.pipeline.isIdle ∧ daemon.polled = [] := by
  simpa [Coherent, idle] using coherent

theorem Coherent.of_polling {daemon : Daemon} (coherent : daemon.Coherent)
    {pageCursor : Option String} (polling : daemon.phase = .polling pageCursor) :
    daemon.pipeline.isIdle := by
  simpa [Coherent, polling] using coherent

theorem Coherent.of_returned {daemon : Daemon} (coherent : daemon.Coherent)
    (returned : daemon.phase = .returned) : daemon.pipeline.isIdle := by
  simpa [Coherent, returned] using coherent

theorem Coherent.of_running {daemon : Daemon} (coherent : daemon.Coherent) {worker : Nat}
    {run : BatchRun} (running : daemon.pipeline.active[worker]? = some run) :
    ∃ page, daemon.phase = .draining page := by
  have busy : ¬ daemon.pipeline.isIdle := by
    intro idle
    simp [(IngestPipeline.isIdle_iff.mp idle).2] at running
  cases phase : daemon.phase with
  | draining page => exact ⟨page, rfl⟩
  | idle => exact absurd (coherent.of_idle phase).1 busy
  | polling => exact absurd (coherent.of_polling phase) busy
  | returned => exact absurd (coherent.of_returned phase) busy

/-- A run that lets go of its events leaves the daemon waiting for its page. -/
theorem Coherent.of_run {daemon next : Daemon} (coherent : daemon.Coherent) {worker : Nat}
    {run : BatchRun} (running : daemon.pipeline.active[worker]? = some run)
    (phase : next.phase = daemon.phase) (polled : next.polled = daemon.polled)
    (awaited : daemon.pipeline.Awaited → next.pipeline.Awaited)
    (held : next.held = daemon.heldBesides worker) : next.Coherent := by
  obtain ⟨page, draining⟩ := coherent.of_running running
  obtain ⟨before, held_subset⟩ := coherent.of_draining draining
  rw [Coherent, phase, draining]
  refine ⟨awaited before, ?_⟩
  rw [held, polled]
  exact fun event member => held_subset ((mem_held_iff running event).mpr (Or.inr member))

theorem Coherent.recordInsert {daemon : Daemon} (coherent : daemon.Coherent) {worker : Nat}
    {run : BatchRun} (running : daemon.pipeline.active[worker]? = some run)
    (rows : List ContractEvent) : (daemon.recordInsert worker run rows).Coherent := by
  refine coherent.of_run running rfl rfl ?_ (held_recordInsert running)
  intro awaited
  simpa [IngestPipeline.Awaited, IngestPipeline.isIdle, IngestPipeline.activeWorkers,
    Daemon.recordInsert] using awaited

theorem Coherent.settle {daemon : Daemon} (coherent : daemon.Coherent) {worker : Nat}
    {run : BatchRun} (running : daemon.pipeline.active[worker]? = some run) :
    (daemon.settle worker).Coherent := by
  refine coherent.of_run running rfl rfl ?_ (held_settle daemon worker)
  intro awaited
  exact awaited.settle (List.getElem?_eq_some_iff.mp running).1

theorem Coherent.finishPage {daemon : Daemon} (coherent : daemon.Coherent) {page : Page}
    (draining : daemon.phase = .draining page)
    (resolved : 0 < daemon.pipeline.resolvedDrains) : (daemon.finishPage page).Coherent := by
  have idle := (coherent.of_draining draining).1.isIdle_of_resolved resolved
  unfold Coherent Daemon.finishPage
  cases nextPageCursor daemon.endLedger page with
  | none => exact idle
  | some pageCursor => exact idle

theorem Coherent.step {before after : Daemon} {action : Action} (coherent : before.Coherent)
    (taken : Daemon.Step index before action after) : after.Coherent := by
  cases taken with
  | call idle => exact (coherent.of_idle idle).1
  | @page pageCursor page polling =>
    refine ⟨IngestPipeline.awaited_of_fresh page.events, ?_⟩
    rw [held_receivePage]
    exact fun event member => List.mem_append_right _ (List.mem_of_mem_take member)
  | insert running fresh accepted => exact coherent.recordInsert running _
  | fulfil running inserted => exact coherent.settle running
  | reject running => exact coherent.settle running
  | resume draining resolved => exact coherent.finishPage draining resolved
  | fail calm =>
    obtain ⟨pageCursor, polling⟩ | returned := calm
    · exact ⟨coherent.of_polling polling, rfl⟩
    · exact ⟨coherent.of_returned returned, rfl⟩
  | closeGap returned => exact ⟨coherent.of_returned returned, rfl⟩
  | saveCursor returned forward => exact ⟨coherent.of_returned returned, rfl⟩
  | rollback returned => exact ⟨coherent.of_returned returned, rfl⟩
  | deadLetter => exact coherent

/-! ### Which steps lose an event -/

theorem NothingLost.kept_of_isIdle {daemon : Daemon} (sound : daemon.NothingLost)
    (idle : daemon.pipeline.isIdle) : ∀ event ∈ daemon.polled, daemon.Kept event := by
  intro event member
  have accounted := sound.2 event member
  simpa [held_of_isIdle idle] using accounted

theorem nothingLost_receivePage {daemon : Daemon} (sound : daemon.NothingLost)
    (idle : daemon.pipeline.isIdle) (page : Page) :
    (daemon.receivePage page).NothingLost ↔ daemon.Spares (.page page) := by
  rw [NothingLost, held_receivePage]
  constructor
  · intro accounted event shed
    exact accounted.2 event (List.mem_append_right _ (List.mem_of_mem_drop shed))
  · intro spares
    refine ⟨sound.1, fun event member => ?_⟩
    obtain earlier | answered := List.mem_append.mp member
    · exact Or.inl (sound.kept_of_isIdle idle event earlier)
    · rw [← List.take_append_drop ingestOptions.maxQueue page.events] at answered
      obtain accepted | shed := List.mem_append.mp answered
      · exact Or.inr accepted
      · exact spares event shed

theorem nothingLost_recordInsert {daemon : Daemon} (sound : daemon.NothingLost)
    (held_subset : daemon.held ⊆ daemon.polled) {worker : Nat} {run : BatchRun}
    (running : daemon.pipeline.active[worker]? = some run) (fresh : run.inserted = false)
    {rows : List ContractEvent}
    (accepted : upsertEventsValidatedBatch index daemon.events run.batch = .ok rows) :
    (daemon.recordInsert worker run rows).NothingLost ↔ daemon.Spares (.insert worker) := by
  have inserts := fun event => @mem_of_upsertEventsValidatedBatch _ _ _ _ event accepted
  have pending : run.pending = run.batch := by simp [BatchRun.pending, fresh]
  have kept_iff : ∀ event, (daemon.recordInsert worker run rows).Kept event ↔
      daemon.Kept event ∨ (event ∈ run.batch ∧ displaced daemon.events run.batch event = false) := by
    intro event
    change event ∈ rows ∨ event ∈ daemon.deadLetters ↔ _
    rw [inserts, Kept]
    tauto
  rw [NothingLost, held_recordInsert running]
  constructor
  · intro accounted other same event member skipped
    cases Option.some.inj (running.symm.trans same)
    have polled : event ∈ daemon.polled := by
      apply held_subset
      rw [mem_held_iff running, pending]
      exact Or.inl member
    obtain kept | besides := accounted.2 event polled
    · obtain already | ⟨_, unskipped⟩ := (kept_iff event).mp kept
      · exact Or.inl already
      · simp [skipped] at unskipped
    · exact Or.inr besides
  · intro spares
    refine ⟨fun event member => (kept_iff event).mpr (Or.inl (sound.1 event member)),
      fun event member => ?_⟩
    rw [kept_iff]
    obtain kept | inHand := sound.2 event member
    · exact Or.inl (Or.inl kept)
    rw [mem_held_iff running, pending] at inHand
    obtain inBatch | besides := inHand
    · cases skipped : displaced daemon.events run.batch event with
      | false => exact Or.inl (Or.inr ⟨inBatch, rfl⟩)
      | true => exact (spares run running event inBatch skipped).imp_left Or.inl
    · exact Or.inr besides

theorem nothingLost_settle {daemon : Daemon} (sound : daemon.NothingLost)
    (held_subset : daemon.held ⊆ daemon.polled) {worker : Nat} {run : BatchRun}
    (running : daemon.pipeline.active[worker]? = some run) :
    (daemon.settle worker).NothingLost ↔
      ∀ event ∈ run.pending, daemon.Kept event ∨ event ∈ daemon.heldBesides worker := by
  rw [NothingLost, held_settle]
  constructor
  · intro accounted event member
    exact accounted.2 event (held_subset ((mem_held_iff running event).mpr (Or.inl member)))
  · intro spares
    refine ⟨sound.1, fun event member => ?_⟩
    obtain kept | inHand := sound.2 event member
    · exact Or.inl kept
    · obtain pending | besides := (mem_held_iff running event).mp inHand
      · exact spares event pending
      · exact Or.inr besides

theorem NothingLost.finishCall {daemon : Daemon} (sound : daemon.NothingLost)
    (idle : daemon.pipeline.isIdle) : daemon.finishCall.NothingLost := by
  refine ⟨fun event member => ?_, fun event member => nomatch member⟩
  obtain passed | polled := List.mem_append.mp member
  · exact sound.1 event passed
  · exact sound.kept_of_isIdle idle event polled

theorem NothingLost.rollbackFromLedger {daemon : Daemon} (sound : daemon.NothingLost)
    (forkLedger : Nat) : (daemon.rollbackFromLedger forkLedger).NothingLost := by
  refine ⟨fun event member => ?_, fun event member => nomatch member⟩
  obtain ⟨passed, earlier⟩ := List.mem_filter.mp member
  exact (sound.1 event passed).imp_left fun stored => List.mem_filter.mpr ⟨stored, earlier⟩

theorem NothingLost.deadLetter {daemon : Daemon} (sound : daemon.NothingLost)
    (event : ContractEvent) : (daemon.deadLetter event).NothingLost := by
  have kept : ∀ other, daemon.Kept other → (daemon.deadLetter event).Kept other :=
    fun other => Or.imp_right (List.mem_append_left _)
  exact ⟨fun other member => kept other (sound.1 other member),
    fun other member => (sound.2 other member).imp_left (kept other)⟩

theorem nothingLost_step {before after : Daemon} {action : Action}
    (coherent : before.Coherent) (sound : before.NothingLost)
    (taken : Daemon.Step index before action after) :
    after.NothingLost ↔ before.Spares action := by
  cases taken with
  | call idle =>
    refine iff_of_true ⟨sound.1, fun event member => ?_⟩ trivial
    exact sound.2 event member
  | @page pageCursor page polling =>
    exact nothingLost_receivePage sound (coherent.of_polling polling) page
  | insert running fresh accepted =>
    obtain ⟨page, draining⟩ := coherent.of_running running
    exact nothingLost_recordInsert sound (coherent.of_draining draining).2 running fresh accepted
  | @fulfil worker run running inserted =>
    obtain ⟨page, draining⟩ := coherent.of_running running
    rw [nothingLost_settle sound (coherent.of_draining draining).2 running]
    simp [BatchRun.pending, inserted, Spares]
  | @reject worker run running =>
    obtain ⟨page, draining⟩ := coherent.of_running running
    rw [nothingLost_settle sound (coherent.of_draining draining).2 running]
    simp [Spares, running]
  | resume draining resolved => exact iff_of_true sound trivial
  | fail calm => exact iff_of_true ⟨sound.1, fun event member => nomatch member⟩ trivial
  | closeGap returned =>
    exact iff_of_true (sound.finishCall (coherent.of_returned returned)) trivial
  | saveCursor returned forward =>
    exact iff_of_true (sound.finishCall (coherent.of_returned returned)) trivial
  | rollback returned => exact iff_of_true (sound.rollbackFromLedger _) trivial
  | deadLetter => exact iff_of_true (sound.deadLetter _) trivial

/-! ### Whole runs -/

theorem nothingLost_start (cursor : Nat) (events deadLetters : List ContractEvent) :
    (start cursor events deadLetters).NothingLost :=
  ⟨fun _ member => absurd member (by simp [start]), fun _ member => absurd member (by simp [start])⟩

def BringsIn (event : ContractEvent) : Action → Prop
  | .page page => event ∈ page.events
  | .deadLetter recorded => recorded = event
  | _ => False

theorem lost_step {before after : Daemon} {action : Action} {event : ContractEvent}
    (lost : ¬ before.Kept event ∧ event ∉ before.held) (absent : ¬ BringsIn event action)
    (taken : Daemon.Step index before action after) :
    ¬ after.Kept event ∧ event ∉ after.held := by
  obtain ⟨unkept, unheld⟩ := lost
  cases taken with
  | @page pageCursor page polling =>
    refine ⟨unkept, ?_⟩
    rw [held_receivePage]
    exact fun member => absent (List.mem_of_mem_take member)
  | @insert worker run rows running fresh accepted =>
    have outside : event ∉ run.batch ∧ event ∉ before.heldBesides worker := by
      rw [mem_held_iff running, BatchRun.pending, fresh] at unheld
      simpa using unheld
    rw [held_recordInsert running]
    refine ⟨?_, outside.2⟩
    rintro (stored | recorded)
    · obtain already | ⟨inBatch, _⟩ := (mem_of_upsertEventsValidatedBatch accepted).mp stored
      · exact unkept (Or.inl already)
      · exact outside.1 inBatch
    · exact unkept (Or.inr recorded)
  | @fulfil worker run running inserted =>
    rw [held_settle]
    exact ⟨unkept, fun member => unheld ((mem_held_iff running event).mpr (Or.inr member))⟩
  | @reject worker run running =>
    rw [held_settle]
    exact ⟨unkept, fun member => unheld ((mem_held_iff running event).mpr (Or.inr member))⟩
  | rollback returned =>
    refine ⟨?_, unheld⟩
    rintro (stored | recorded)
    · exact unkept (Or.inl (List.mem_of_mem_filter stored))
    · exact unkept (Or.inr recorded)
  | @deadLetter recorded =>
    refine ⟨?_, unheld⟩
    rintro (stored | inQueue)
    · exact unkept (Or.inl stored)
    · obtain already | same := List.mem_append.mp inQueue
      · exact unkept (Or.inr already)
      · exact absent (List.mem_singleton.mp same).symm
  | _ => exact ⟨unkept, unheld⟩

/-- Nothing in the daemon brings a lost event back. -/
theorem lost_forever {before after : Daemon} {labels : List Action} {event : ContractEvent}
    (run : Run (Daemon.Step index) before labels after)
    (lost : ¬ before.Kept event ∧ event ∉ before.held)
    (absent : ∀ action ∈ labels, ¬ BringsIn event action) : ¬ after.Kept event := by
  suffices stillLost : ¬ after.Kept event ∧ event ∉ after.held from stillLost.1
  induction run with
  | nil => exact lost
  | snoc earlier taken ih =>
    apply lost_step _ (absent _ (by simp)) taken
    exact ih fun action member => absent action (by simp [member])

theorem NothingLost.keepsEvents {daemon : Daemon} (sound : daemon.NothingLost)
    (coherent : daemon.Coherent) : daemon.KeepsEvents :=
  ⟨sound.1, fun returned => sound.kept_of_isIdle (coherent.of_returned returned)⟩

end Daemon

section Runs

variable {index : DedupIndex} {cursor : Nat} {events deadLetters : List ContractEvent}
  {labels : List Action} {final : Daemon}

theorem Daemon.coherent_of_run
    (run : Run (Daemon.Step index) (Daemon.start cursor events deadLetters) labels final) :
    final.Coherent :=
  run.invariant (Daemon.coherent_start cursor events deadLetters)
    fun _ _ _ coherent taken => coherent.step taken

/-- Nothing is lost anywhere in a run if and only if every step of it spares the
events it lets go of. -/
theorem nothingLost_iff_eachStep
    (run : Run (Daemon.Step index) (Daemon.start cursor events deadLetters) labels final) :
    Along (Daemon.Step index) (Daemon.start cursor events deadLetters) labels
        (fun _ daemon => daemon.NothingLost) ↔
      EachStep (Daemon.Step index) (Daemon.start cursor events deadLetters) labels
        Daemon.Spares := by
  apply run.along_iff_eachStep (I := fun _ daemon => daemon.NothingLost)
    (Daemon.Step.deterministic index)
  · exact Daemon.nothingLost_start cursor events deadLetters
  · exact fun _ _ _ sound => sound
  · intro history label before after earlier sound spares taken
    exact (Daemon.nothingLost_step (Daemon.coherent_of_run earlier) sound taken).mpr spares
  · intro history label before after earlier sound taken lost
    exact (Daemon.nothingLost_step (Daemon.coherent_of_run earlier) sound taken).mp lost

/-- Ingestion loses no event in a run whose steps spare the events they let go of:
in every state of the run, each event of a page is stored or in the dead letter
queue once the call that polled it has returned. -/
theorem ingestion_keepsEvents
    (each : EachStep (Daemon.Step index) (Daemon.start cursor events deadLetters) labels
      Daemon.Spares) :
    Along (Daemon.Step index) (Daemon.start cursor events deadLetters) labels
      (fun _ daemon => daemon.KeepsEvents) := by
  have coherent : ∀ history daemon,
      Run (Daemon.Step index) (Daemon.start cursor events deadLetters) history daemon →
        daemon.Coherent := fun _ _ => Daemon.coherent_of_run
  have sound : Along (Daemon.Step index) (Daemon.start cursor events deadLetters) labels
      (fun _ daemon => daemon.NothingLost) := by
    refine EachStep.along (P := fun _ daemon => daemon.NothingLost) ?_ ?_ each
    · exact Daemon.nothingLost_start cursor events deadLetters
    · intro history label before after earlier holds spares taken
      exact (Daemon.nothingLost_step (coherent _ _ earlier) holds taken).mpr spares
  intro history isPrefix daemon earlier
  exact (sound history isPrefix daemon earlier).keepsEvents (coherent _ _ earlier)

end Runs

/-! ### One page with one event -/

def paymentPage : Page where
  events := [⟨"0000000030064775168-0000000001", "CPAYMENT", 7, some "9f3a"⟩]
  latestLedger := some 7
  cursor := none

/-- The insert succeeds, what follows it is rejected, and the cursor moves past a
stored event. -/
theorem storedPayment_kept :
    Along (Daemon.Step .eventsDedup) (Daemon.start 7 [] [])
      [.call 7 none, .page paymentPage, .insert 0, .reject 0, .resume, .saveCursor]
      (fun _ daemon => daemon.KeepsEvents) := by
  apply ingestion_keepsEvents
  have unique := Daemon.Step.deterministic .eventsDedup
  have initial : Run (Daemon.Step .eventsDedup) (Daemon.start 7 [] []) [] (Daemon.start 7 [] []) ∧
      EachStep (Daemon.Step .eventsDedup) (Daemon.start 7 [] []) [] Daemon.Spares :=
    ⟨.nil, .nil⟩
  have called := EachStep.extend unique initial (by trivial) (@Daemon.Step.call _ _ 7 none rfl)
  have answered := EachStep.extend unique called
    (by simp [Daemon.Spares, paymentPage, ingestOptions])
    (@Daemon.Step.page _ _ none paymentPage rfl)
  have undisplaced : Daemon.Spares
      (((Daemon.start 7 [] []).call 7 none).receivePage paymentPage) (.insert 0) := by
    intro run running event member skipped
    cases Option.some.inj running
    cases List.mem_singleton.mp member
    exact absurd skipped (by decide)
  have inserted := EachStep.extend unique answered undisplaced
    (@Daemon.Step.insert _ _ 0 (processEventBatch paymentPage.events)
      paymentPage.events rfl rfl rfl)
  have settled := EachStep.extend unique inserted
    (by
      intro run running event member
      cases Option.some.inj running
      cases member)
    (@Daemon.Step.reject _ _ 0 ⟨paymentPage.events, true⟩ rfl)
  have resumed := EachStep.extend unique settled (by trivial)
    (@Daemon.Step.resume _ _ paymentPage rfl (by decide))
  have saved := EachStep.extend unique resumed (by trivial)
    (Daemon.Step.saveCursor rfl ⟨rfl, rfl⟩)
  exact saved.2

/-- The batch is rejected, and the cursor moves past an event that is nowhere. -/
theorem rejectedPayment_lost :
    ¬ ∀ (index : DedupIndex) (cursor : Nat) (events deadLetters : List ContractEvent)
      (labels : List Action) (final : Daemon),
      Run (Daemon.Step index) (Daemon.start cursor events deadLetters) labels final →
        final.KeepsEvents := by
  intro keeps
  have called := Run.one (@Daemon.Step.call .eventsDedup (Daemon.start 7 [] []) 7 none rfl)
  have answered := called.snoc (@Daemon.Step.page _ _ none paymentPage rfl)
  have rejected := answered.snoc
    (@Daemon.Step.reject _ _ 0 (processEventBatch paymentPage.events) rfl)
  have resumed := rejected.snoc (@Daemon.Step.resume _ _ paymentPage rfl (by decide))
  have saved := resumed.snoc (Daemon.Step.saveCursor rfl ⟨rfl, rfl⟩)
  obtain stored | recorded := (keeps _ _ _ _ _ _ saved).1
    ⟨"0000000030064775168-0000000001", "CPAYMENT", 7, some "9f3a"⟩ (by decide)
  · exact absurd stored (by decide)
  · exact absurd recorded (by decide)

end SorobanExplorer.Indexer
