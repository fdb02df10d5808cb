import SorobanExplorer.Contract.Admin

/-!
Owns the event-log entrypoints: submitting events one by one and in batches,
and reading them back one by one, by page, and by count. Each writing
entrypoint comes with the lemma that says when it succeeds and what it writes.
-/

namespace SorobanExplorer.Contract

open Library

variable {host : Host} (env : Env host)

/-! ### Validation -/

def validateEventDescription (description : HostString) : Except Error Unit :=
  if description.len > MAX_DESCRIPTION_LEN then .error .invalidInput else .ok ()

def validateEventInput (input : EventInput) : Except Error Unit :=
  if input.function = Symbol.empty then .error .invalidInput
  else validateEventDescription input.description

/-! ### Storing one event -/

def decodedEvent (seq : UInt64) (input : EventInput) : DecodedEvent where
  seq := seq
  contractId := input.contractId
  function := input.function
  ledger := input.ledger
  description := input.description
  rawTopics := input.rawTopics
  rawData := input.rawData

/-- `if let Some(evicted_seq) = evicted_seq(seq, max) { publish(cap_hit) }`. -/
def publishEviction (seq : UInt64) (max : UInt32) : Call Unit :=
  match evictedSeq seq max with
  | some evicted => publish (.capHit evicted seq)
  | none => pure ()

def storeEvent (seq : UInt64) (max : UInt32) (input : EventInput) : Call Unit := do
  set (.eventLog (ringSlot seq max)) (decodedEvent seq input)
  extendTtl (.eventLog (ringSlot seq max))
  publish (.evSub input.contractId input.function seq input.ledger)
  publishEviction seq max
  publish (.decoded input.contractId input.function input.description)

/-! ### Submitting -/

def submitEvent (caller : Address) (input : EventInput) : Call Unit := do
  requireAuth env caller
  orPanic (validateEventInput input)
  ensureUnpaused
  ensureAdmin caller
  let seq ← Tx.read eventSeq
  let max ← Tx.read maxEvents
  let next ← orPanic (reserveSeqs seq 1)
  storeEvent seq max input
  set .eventSeq next

/-- The loop over the items of a batch, from index `index` on. -/
def validateItems : UInt32 → List EventInput → Call Unit
  | _, [] => pure ()
  | index, input :: rest =>
    match validateEventInput input with
    | .error _ => Tx.abort (.contractError (BATCH_ITEM_ERROR_BASE + index))
    | .ok () => validateItems (index + 1) rest

/-- `first..next`. -/
def seqRange (first next : UInt64) : List UInt64 :=
  (List.range (next.toNat - first.toNat)).map fun offset => first + UInt64.ofNat offset

def storeEvents (max : UInt32) : List (UInt64 × EventInput) → Call (List UInt64)
  | [] => pure []
  | (seq, input) :: rest => do
      storeEvent seq max input
      let seqs ← storeEvents max rest
      return seq :: seqs

/-- The second half of `submit_events`, once every item is validated. -/
def storeBatch (max : UInt32) (inputs : HostVec EventInput) : Call (List UInt64) := do
  let first ← Tx.read eventSeq
  let next ← orPanic (reserveSeqs first inputs.len)
  let seqs ← storeEvents max ((seqRange first next).zip inputs.items)
  set .eventSeq next
  publish (.evBatch first inputs.len)
  return seqs

def submitEvents (caller : Address) (inputs : HostVec EventInput) : Call (List UInt64) := do
  requireAuth env caller
  ensureUnpaused
  ensureAdmin caller
  let max ← Tx.read maxEvents
  orPanic (checkBatch inputs.len max)
  validateItems 0 inputs.items
  storeBatch max inputs

/-! ### Reading -/

def slotEvent (world : World) (seq : UInt64) : Option DecodedEvent :=
  world.storage (.eventLog (ringSlot seq (maxEvents world)))

def getEvent (seq : UInt64) : Call DecodedEvent := do
  let slot ← Tx.read fun world => slotEvent world seq
  let stored ← orPanicWith .notFound slot
  ensure (stored.seq = seq) .notFound
  return stored

def eventCount (world : World) : UInt64 := retainedCount (eventSeq world) (maxEvents world)

def bumpEventTtl (seq : UInt64) : Call Unit := do
  let slot ← Tx.read fun world => slotEvent world seq
  let event ← orPanicWith .notFound slot
  ensure (event.seq = seq) .notFound
  let max ← Tx.read maxEvents
  extendTtl (.eventLog (ringSlot seq max))

/-- The body of the loop in `get_events`: a slot that holds another event is
skipped. -/
def pushEvent (world : World) (seq : UInt64) (out : List DecodedEvent) : List DecodedEvent :=
  match slotEvent world seq with
  | some event => if event.seq = seq then out ++ [event] else out
  | none => out

/-- The loop in `get_events`; `remaining` is `total_seq - seq`. -/
def collectEvents (world : World) (limit : UInt32) :
    (remaining : Nat) → UInt64 → List DecodedEvent → List DecodedEvent
  | 0, _, out => out
  | remaining + 1, seq, out =>
    if out.length < limit.toNat then
      collectEvents world limit remaining (seq + 1) (pushEvent world seq out)
    else out

def getEvents (world : World) (cursor : UInt64) (limit : UInt32) : List DecodedEvent :=
  let total := eventSeq world
  let start := max cursor (oldestRetained total (maxEvents world))
  collectEvents world limit (total.toNat - start.toNat) start []

/-! ### What a successful call writes -/

def eventDiagnostics (seq : UInt64) (max : UInt32) (input : EventInput) : List Published :=
  [.evSub input.contractId input.function seq input.ledger] ++
    ((evictedSeq seq max).map fun evicted => Published.capHit evicted seq).toList ++
      [.decoded input.contractId input.function input.description]

/-- The world after an event is stored; `EventSeq` is not touched. -/
def World.withEvent (world : World) (seq : UInt64) (max : UInt32) (input : EventInput) : World :=
  { world with
    storage := world.storage.put (.eventLog (ringSlot seq max)) (decodedEvent seq input)
    events := world.events ++ eventDiagnostics seq max input }

section Success

variable {env} {caller : Address} {world after : World} {result : Unit}

theorem storeEvent_ok {seq : UInt64} {max : UInt32} {input : EventInput} :
    storeEvent seq max input world = .ok (result, after) ↔
      after = world.withEvent seq max input := by
  cases evicted : evictedSeq seq max <;>
    simp [storeEvent, publishEviction, evicted, World.withEvent, eventDiagnostics, World.put,
      World.publish]

theorem submitEvent_ok {input : EventInput} :
    submitEvent env caller input world = .ok (result, after) ↔
      env.authorized caller = true ∧ validateEventInput input = .ok () ∧
        isPaused world = false ∧ world.storage .admin = some caller ∧
          ∃ next : UInt64, next.toNat = (eventSeq world).toNat + 1 ∧
            after = (world.withEvent (eventSeq world) (maxEvents world) input).put
              .eventSeq next := by
  simp [submitEvent, Tx.bind_eq_ok, Unique.exists_iff, storeEvent_ok, reserveSeqs_ok]

theorem validateItems_ok {index : UInt32} {inputs : List EventInput} :
    validateItems index inputs world = .ok (result, after) ↔
      (∀ input ∈ inputs, validateEventInput input = .ok ()) ∧ after = world := by
  induction inputs generalizing index with
  | nil => simp [validateItems]
  | cons input rest ih =>
    cases valid : validateEventInput input with
    | error reason => simp [validateItems, valid]
    | ok _ => simp [validateItems, valid, ih]

def World.withEvents (world : World) (max : UInt32) (items : List (UInt64 × EventInput)) : World :=
  items.foldl (fun current item => current.withEvent item.1 max item.2) world

theorem storeEvents_ok {max : UInt32} {items : List (UInt64 × EventInput)} {seqs : List UInt64} :
    storeEvents max items world = .ok (seqs, after) ↔
      seqs = items.map Prod.fst ∧ after = world.withEvents max items := by
  induction items generalizing world after seqs with
  | nil => simp [storeEvents, World.withEvents]
  | cons item rest ih =>
    obtain ⟨seq, input⟩ := item
    simp only [storeEvents, Tx.bind_eq_ok, storeEvent_ok, ih, Tx.pure_eq_ok,
      List.map_cons, World.withEvents, List.foldl_cons]
    constructor
    · rintro ⟨_, _, rfl, _, _, ⟨rfl, rfl⟩, rfl, rfl⟩
      exact ⟨rfl, rfl⟩
    · rintro ⟨rfl, rfl⟩
      exact ⟨(), _, rfl, _, _, ⟨rfl, rfl⟩, rfl, rfl⟩

theorem submitEvents_ok {inputs : HostVec EventInput} {seqs : List UInt64} :
    submitEvents env caller inputs world = .ok (seqs, after) ↔
      env.authorized caller = true ∧ isPaused world = false ∧
        world.storage .admin = some caller ∧
          (inputs.len ≠ 0 ∧ inputs.len ≤ MAX_BATCH ∧ inputs.len ≤ maxEvents world) ∧
            (∀ input ∈ inputs.items, validateEventInput input = .ok ()) ∧
              ∃ next : UInt64, next.toNat = (eventSeq world).toNat + inputs.items.length ∧
                ((seqRange (eventSeq world) next).zip inputs.items).map Prod.fst = seqs ∧
                  after = ((world.withEvents (maxEvents world)
                    ((seqRange (eventSeq world) next).zip inputs.items)).put .eventSeq next).publish
                      (.evBatch (eventSeq world) inputs.len) := by
  simp [submitEvents, storeBatch, Tx.bind_eq_ok, Unique.exists_iff, validateItems_ok,
    storeEvents_ok, reserveSeqs_ok, checkBatch_ok]

theorem getEvent_ok {seq : UInt64} {event : DecodedEvent} :
    getEvent seq world = .ok (event, after) ↔
      (slotEvent world seq = some event ∧ event.seq = seq) ∧ after = world := by
  simp only [getEvent, read_bind_ok, orPanicWith_bind_ok, ensure_bind_ok, Tx.pure_eq_ok]
  constructor
  · rintro ⟨_, stored, tagged, rfl, rfl⟩
    exact ⟨⟨stored, tagged⟩, rfl⟩
  · rintro ⟨⟨stored, tagged⟩, rfl⟩
    exact ⟨_, stored, tagged, rfl, rfl⟩

theorem bumpEventTtl_ok {seq : UInt64} :
    bumpEventTtl seq world = .ok (result, after) ↔
      (∃ event, slotEvent world seq = some event ∧ event.seq = seq) ∧ after = world := by
  cases stored : slotEvent world seq with
  | none => simp [bumpEventTtl, stored]
  | some event =>
    have present : (world.storage (.eventLog (ringSlot seq (maxEvents world)))).isSome = true := by
      simp only [slotEvent] at stored
      rw [stored]
      rfl
    simp [bumpEventTtl, stored, present]

end Success

end SorobanExplorer.Contract
