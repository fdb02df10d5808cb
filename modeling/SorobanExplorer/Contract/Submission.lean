import SorobanExplorer.Contract.Deployment

/-!
Owns the two write paths of the event log. `World.submitted` is the effect of
one `submit_event`; submitting a list one by one folds it, and a batch has the
effect of that fold plus one diagnostic. A batch that fails on an item names the
first invalid one.
-/

namespace SorobanExplorer.Contract

open Library

variable {host : Host}

/-! ### One submission -/

def World.submitted (world : World) (input : EventInput) : World :=
  (world.withEvent (eventSeq world) (maxEvents world) input).put .eventSeq (eventSeq world + 1)

section WithEvent

variable {world : World} {seq next : UInt64} {max : UInt32} {input : EventInput}

@[simp] theorem withEvent_maxEvents : maxEvents (world.withEvent seq max input) = maxEvents world := by
  simp [maxEvents, World.withEvent]

@[simp] theorem withEvent_eventSeq : eventSeq (world.withEvent seq max input) = eventSeq world := by
  simp [eventSeq, World.withEvent]

@[simp] theorem withEvent_isPaused : isPaused (world.withEvent seq max input) = isPaused world := by
  simp [isPaused, World.withEvent]

@[simp] theorem withEvent_admin :
    (world.withEvent seq max input).storage .admin = world.storage .admin := by
  simp [World.withEvent]

theorem put_eventSeq_withEvent :
    (world.put .eventSeq next).withEvent seq max input =
      (world.withEvent seq max input).put .eventSeq next := by
  simp only [World.withEvent, World.put]
  rw [Store.put_comm _ (by simp : DataKey.eventSeq ≠ .eventLog (ringSlot seq max))]

theorem put_put_eventSeq {later : UInt64} :
    (world.put .eventSeq next).put .eventSeq later = world.put .eventSeq later := by
  simp only [World.put, Store.put_put]

@[simp] theorem submitted_maxEvents : maxEvents (world.submitted input) = maxEvents world := by
  simp [World.submitted, maxEvents, World.withEvent]

@[simp] theorem submitted_eventSeq :
    eventSeq (world.submitted input) = eventSeq world + 1 := by
  simp [World.submitted, eventSeq]

@[simp] theorem submitted_isPaused : isPaused (world.submitted input) = isPaused world := by
  simp [World.submitted, isPaused, World.withEvent]

@[simp] theorem submitted_admin :
    (world.submitted input).storage .admin = world.storage .admin := by
  simp [World.submitted]

end WithEvent

theorem submitEvent_ok_submitted {env : Env host} {caller : Address} {input : EventInput}
    {world after : World} {result : Unit} :
    submitEvent env caller input world = .ok (result, after) ↔
      env.authorized caller = true ∧ validateEventInput input = .ok () ∧
        isPaused world = false ∧ world.storage .admin = some caller ∧
          (eventSeq world).toNat + 1 < UInt64.size ∧ after = world.submitted input := by
  rw [submitEvent_ok]
  have counted : (∃ next : UInt64, next.toNat = (eventSeq world).toNat + 1 ∧
      after = (world.withEvent (eventSeq world) (maxEvents world) input).put .eventSeq next) ↔
        (eventSeq world).toNat + 1 < UInt64.size ∧ after = world.submitted input := by
    constructor
    · rintro ⟨next, value, rfl⟩
      have below := next.toNat_lt_size
      have same : next = eventSeq world + 1 := by
        apply UInt64.toNat_inj.mp
        rw [UInt64.toNat_add, value, UInt64.toNat_one, Nat.mod_eq_of_lt (by
          simp only [UInt64.size] at below; omega)]
      exact ⟨by omega, by rw [same]; rfl⟩
    · rintro ⟨below, rfl⟩
      refine ⟨eventSeq world + 1, ?_, rfl⟩
      rw [UInt64.toNat_add, UInt64.toNat_one, Nat.mod_eq_of_lt (by
        simp only [UInt64.size] at below; omega)]
  rw [counted]

/-! ### Submitting one by one -/

/-- `submit_event` for one input after the other; the sequence numbers are the
ones the calls assign. -/
def submitOneByOne (env : Env host) (caller : Address) : List EventInput → Call (List UInt64)
  | [] => pure []
  | input :: rest => do
      let seq ← Tx.read eventSeq
      submitEvent env caller input
      let seqs ← submitOneByOne env caller rest
      return seq :: seqs

/-- `count` sequence numbers from `first` on. -/
def seqsFrom (first : UInt64) (count : Nat) : List UInt64 :=
  (List.range count).map fun offset => first + UInt64.ofNat offset

@[simp] theorem seqsFrom_zero (first : UInt64) : seqsFrom first 0 = [] := rfl

@[simp] theorem seqsFrom_length (first : UInt64) (count : Nat) :
    (seqsFrom first count).length = count := by
  simp [seqsFrom]

theorem seqsFrom_succ (first : UInt64) (count : Nat) :
    seqsFrom first (count + 1) = first :: seqsFrom (first + 1) count := by
  simp only [seqsFrom, List.range_succ_eq_map, List.map_cons, List.map_map]
  congr 1
  · simp
  · refine List.map_congr_left fun offset _ => ?_
    simp only [Function.comp_apply, Nat.succ_eq_add_one, UInt64.ofNat_add]
    rw [UInt64.add_assoc, UInt64.add_comm (UInt64.ofNat offset)]
    rfl

theorem seqRange_eq_seqsFrom {first next : UInt64} {count : Nat}
    (value : next.toNat = first.toNat + count) : seqRange first next = seqsFrom first count := by
  rw [seqRange, value, Nat.add_sub_cancel_left]
  rfl

theorem submitOneByOne_cons_ok {env : Env host} {caller : Address} {input : EventInput}
    {rest : List EventInput} {world after : World} {seqs : List UInt64} :
    submitOneByOne env caller (input :: rest) world = .ok (seqs, after) ↔
      (env.authorized caller = true ∧ validateEventInput input = .ok () ∧
        isPaused world = false ∧ world.storage .admin = some caller ∧
          (eventSeq world).toNat + 1 < UInt64.size) ∧
        ∃ later, submitOneByOne env caller rest (world.submitted input) = .ok (later, after) ∧
          seqs = eventSeq world :: later := by
  rw [submitOneByOne, read_bind_ok]
  simp only [Tx.bind_eq_ok, submitEvent_ok_submitted, Tx.pure_eq_ok]
  constructor
  · rintro ⟨_, _, ⟨authorized, valid, unpaused, isAdmin, left, rfl⟩, later, _, submitted, rfl, rfl⟩
    exact ⟨⟨authorized, valid, unpaused, isAdmin, left⟩, later, submitted, rfl⟩
  · rintro ⟨⟨authorized, valid, unpaused, isAdmin, left⟩, later, submitted, rfl⟩
    exact ⟨(), _, ⟨authorized, valid, unpaused, isAdmin, left, rfl⟩, later, _, submitted, rfl, rfl⟩

theorem submitOneByOne_ok {env : Env host} {caller : Address} {inputs : List EventInput}
    {world after : World} {seqs : List UInt64} :
    submitOneByOne env caller inputs world = .ok (seqs, after) ↔
      (inputs ≠ [] → env.authorized caller = true ∧ isPaused world = false ∧
        world.storage .admin = some caller) ∧
        (∀ input ∈ inputs, validateEventInput input = .ok ()) ∧
          (eventSeq world).toNat + inputs.length < UInt64.size ∧
            seqs = seqsFrom (eventSeq world) inputs.length ∧
              after = inputs.foldl World.submitted world := by
  induction inputs generalizing world after seqs with
  | nil =>
    have := (eventSeq world).toNat_lt_size
    simp [submitOneByOne, this]
  | cons input rest ih =>
    rw [submitOneByOne_cons_ok]
    simp only [ih, submitted_isPaused, submitted_admin, submitted_eventSeq,
      List.forall_mem_cons, List.length_cons, List.foldl_cons, seqsFrom_succ]
    have advanced (left : (eventSeq world).toNat + 1 < UInt64.size) :
        (eventSeq world + 1).toNat = (eventSeq world).toNat + 1 := by
      rw [UInt64.toNat_add, UInt64.toNat_one, Nat.mod_eq_of_lt left]
    constructor
    · rintro ⟨⟨authorized, valid, unpaused, isAdmin, left⟩, _,
        ⟨_, restValid, restLeft, rfl, rfl⟩, rfl⟩
      rw [advanced left] at restLeft
      exact ⟨fun _ => ⟨authorized, unpaused, isAdmin⟩, ⟨valid, restValid⟩, by omega, rfl, rfl⟩
    · rintro ⟨admitted, ⟨valid, restValid⟩, left, rfl, rfl⟩
      obtain ⟨authorized, unpaused, isAdmin⟩ := admitted (List.cons_ne_nil _ _)
      have one : (eventSeq world).toNat + 1 < UInt64.size := by omega
      refine ⟨⟨authorized, valid, unpaused, isAdmin, one⟩, _,
        ⟨fun _ => ⟨authorized, unpaused, isAdmin⟩, restValid, ?_, rfl, rfl⟩, rfl⟩
      rw [advanced one]
      omega

theorem foldl_submitted_put (world : World) (first : UInt64) (inputs : List EventInput) :
    inputs.foldl World.submitted (world.put .eventSeq first) =
      (world.withEvents (maxEvents world) ((seqsFrom first inputs.length).zip inputs)).put
        .eventSeq (first + UInt64.ofNat inputs.length) := by
  induction inputs generalizing world first with
  | nil => simp [World.withEvents]
  | cons input rest ih =>
    have one : (world.put .eventSeq first).submitted input =
        (world.withEvent first (maxEvents world) input).put .eventSeq (first + 1) := by
      have seq : eventSeq (world.put .eventSeq first) = first := by simp [eventSeq]
      have max : maxEvents (world.put .eventSeq first) = maxEvents world := by simp [maxEvents]
      rw [World.submitted, seq, max, put_eventSeq_withEvent, put_put_eventSeq]
    have count : first + 1 + UInt64.ofNat rest.length =
        first + UInt64.ofNat (rest.length + 1) := by
      rw [UInt64.ofNat_add, UInt64.add_assoc, UInt64.add_comm (UInt64.ofNat rest.length)]
      rfl
    rw [List.foldl_cons, one, ih, withEvent_maxEvents, List.length_cons,
      seqsFrom_succ, List.zip_cons_cons, count]
    rfl

theorem foldl_submitted (world : World) {inputs : List EventInput} (nonempty : inputs ≠ []) :
    inputs.foldl World.submitted world =
      (world.withEvents (maxEvents world)
        ((seqsFrom (eventSeq world) inputs.length).zip inputs)).put
          .eventSeq (eventSeq world + UInt64.ofNat inputs.length) := by
  cases inputs with
  | nil => exact absurd rfl nonempty
  | cons input rest =>
    have count : eventSeq world + 1 + UInt64.ofNat rest.length =
        eventSeq world + UInt64.ofNat (rest.length + 1) := by
      rw [UInt64.ofNat_add, UInt64.add_assoc, UInt64.add_comm (UInt64.ofNat rest.length)]
      rfl
    rw [List.foldl_cons, World.submitted, foldl_submitted_put, withEvent_maxEvents,
      List.length_cons, seqsFrom_succ, List.zip_cons_cons, count]
    rfl

section Fold

variable {world : World} {inputs : List EventInput}

theorem foldl_submitted_eventSeq (left : (eventSeq world).toNat + inputs.length < UInt64.size) :
    (eventSeq (inputs.foldl World.submitted world)).toNat =
      (eventSeq world).toNat + inputs.length := by
  induction inputs generalizing world with
  | nil => rfl
  | cons input rest ih =>
    rw [List.length_cons] at left
    have one : (eventSeq (world.submitted input)).toNat = (eventSeq world).toNat + 1 := by
      rw [submitted_eventSeq, UInt64.toNat_add, UInt64.toNat_one,
        Nat.mod_eq_of_lt (by simp only [UInt64.size] at left; omega)]
    rw [List.foldl_cons, ih (by rw [one]; omega), one, List.length_cons]
    omega

theorem foldl_submitted_keeps {α : Type} (view : World → α)
    (keeps : ∀ world input, view (World.submitted world input) = view world) :
    view (inputs.foldl World.submitted world) = view world := by
  induction inputs generalizing world with
  | nil => rfl
  | cons input rest ih =>
    rw [List.foldl_cons, ih, keeps]

theorem foldl_submitted_maxEvents :
    maxEvents (inputs.foldl World.submitted world) = maxEvents world :=
  foldl_submitted_keeps maxEvents fun _ _ => submitted_maxEvents

theorem foldl_submitted_admin :
    (inputs.foldl World.submitted world).storage .admin = world.storage .admin :=
  foldl_submitted_keeps (fun world => world.storage .admin) fun _ _ => submitted_admin

theorem submitted_run {env : Env host} {caller : Address} {input : EventInput}
    (authorized : env.authorized caller = true) (valid : validateEventInput input = .ok ())
    (unpaused : isPaused world = false) (isAdmin : world.storage .admin = some caller)
    (count : Nat) (left : (eventSeq world).toNat + count < UInt64.size) :
    Run (Step host) world (List.replicate count (.call env (.submitEvent caller input)))
      ((List.replicate count input).foldl World.submitted world) := by
  induction count generalizing world with
  | zero => exact Run.nil
  | succ count ih =>
    have first : Step host world (.call env (.submitEvent caller input))
        (world.submitted input) :=
      submitEvent_ok_submitted.mpr ⟨authorized, valid, unpaused, isAdmin, by omega, rfl⟩
    have one : (eventSeq (world.submitted input)).toNat = (eventSeq world).toNat + 1 := by
      rw [submitted_eventSeq, UInt64.toNat_add, UInt64.toNat_one,
        Nat.mod_eq_of_lt (by simp only [UInt64.size] at left; omega)]
    exact (Run.one first).append (ih (by simpa using unpaused)
      (by simpa using isAdmin) (by rw [one]; omega))

end Fold

/-! ### Submitting a batch -/

section Batch

variable {env : Env host} {caller : Address} {world : World} {inputs : HostVec EventInput}

theorem checkBatch_fits_iff :
    (inputs.len ≠ 0 ∧ inputs.len ≤ MAX_BATCH ∧ inputs.len ≤ maxEvents world) ↔
      1 ≤ inputs.items.length ∧
        inputs.items.length ≤ min MAX_BATCH.toNat (maxEvents world).toNat := by
  have zero : inputs.len ≠ 0 ↔ 1 ≤ inputs.items.length := by
    rw [ne_eq, ← UInt32.toNat_inj, HostVec.len_toNat, UInt32.toNat_zero]
    omega
  rw [zero, UInt32.le_iff_toNat_le, UInt32.le_iff_toNat_le, HostVec.len_toNat]
  omega

theorem checkBatch_fits (nonempty : 1 ≤ inputs.items.length)
    (small : inputs.items.length ≤ min MAX_BATCH.toNat (maxEvents world).toNat) :
    checkBatch inputs.len (maxEvents world) = .ok () :=
  checkBatch_ok.mpr (checkBatch_fits_iff.mpr ⟨nonempty, small⟩)

theorem submitEvents_ok_iff (isAdmin : world.storage .admin = some caller)
    (nonempty : 1 ≤ inputs.items.length)
    (small : inputs.items.length ≤ min MAX_BATCH.toNat (maxEvents world).toNat)
    {seqs : List UInt64} {after : World} :
    submitEvents env caller inputs world = .ok (seqs, after) ↔
      ∃ single, submitOneByOne env caller inputs.items world = .ok (seqs, single) ∧
        after = single.publish (.evBatch (eventSeq world) inputs.len) := by
  have some_input : inputs.items ≠ [] := List.ne_nil_of_length_pos nonempty
  have firsts : ((seqsFrom (eventSeq world) inputs.items.length).zip inputs.items).map Prod.fst =
      seqsFrom (eventSeq world) inputs.items.length :=
    List.map_fst_zip (by simp)
  simp only [submitEvents_ok, submitOneByOne_ok, foldl_submitted world some_input]
  constructor
  · rintro ⟨authorized, unpaused, _, _, valid, next, value, rfl, rfl⟩
    have below := next.toNat_lt_size
    have same : next = eventSeq world + UInt64.ofNat inputs.items.length := by
      apply UInt64.toNat_inj.mp
      rw [UInt64.toNat_add, value, UInt64.toNat_ofNat_of_lt' (by omega), Nat.mod_eq_of_lt (by
        simp only [UInt64.size] at below; omega)]
    rw [seqRange_eq_seqsFrom value, firsts, same]
    exact ⟨_, ⟨fun _ => ⟨authorized, unpaused, isAdmin⟩, valid, by omega, rfl, rfl⟩, rfl⟩
  · rintro ⟨_, ⟨admitted, valid, left, rfl, rfl⟩, rfl⟩
    obtain ⟨authorized, unpaused, _⟩ := admitted some_input
    have value : (eventSeq world + UInt64.ofNat inputs.items.length).toNat =
        (eventSeq world).toNat + inputs.items.length := by
      rw [UInt64.toNat_add, UInt64.toNat_ofNat_of_lt' (by omega), Nat.mod_eq_of_lt (by
        simp only [UInt64.size] at left; omega)]
    have fits : checkBatch inputs.len (maxEvents world) = .ok () := checkBatch_fits nonempty small
    refine ⟨authorized, unpaused, isAdmin, checkBatch_ok.mp fits, valid, _, value, ?_, ?_⟩
    · rw [seqRange_eq_seqsFrom value, firsts]
    · rw [seqRange_eq_seqsFrom value]

/-- An input that `validate_event_input` rejects. -/
def isInvalid (input : EventInput) : Bool :=
  match validateEventInput input with
  | .ok _ => false
  | .error _ => true

theorem validateItems_apply (index : UInt32) (items : List EventInput) (world : World) :
    validateItems index items world =
      match items.findIdx? isInvalid with
      | some position =>
        .error (.contractError (BATCH_ITEM_ERROR_BASE + (index + UInt32.ofNat position)))
      | none => .ok ((), world) := by
  induction items generalizing index with
  | nil => rfl
  | cons input rest ih =>
    cases valid : validateEventInput input with
    | error reason =>
      have invalid : isInvalid input = true := by simp [isInvalid, valid]
      simp [validateItems, valid, List.findIdx?_cons, invalid]
    | ok _ =>
      have notInvalid : isInvalid input = false := by simp [isInvalid, valid]
      simp only [validateItems, valid, ih, List.findIdx?_cons, notInvalid]
      cases rest.findIdx? isInvalid with
      | none => rfl
      | some position =>
        simp only [Bool.false_eq_true, ↓reduceIte, Option.map_some, UInt32.ofNat_add]
        rw [UInt32.add_assoc, UInt32.add_comm 1]
        rfl

theorem storeBatch_error {max : UInt32} {reason : Failure}
    (fails : storeBatch max inputs world = .error reason) :
    reason = .contractError Error.invalidInput.code := by
  rw [storeBatch, Tx.bind_ok (Tx.read_apply _ _)] at fails
  cases reserved : reserveSeqs (eventSeq world) inputs.len with
  | error error =>
    have panicked : (orPanic (Except.error error) : Call UInt64) world =
        .error (.contractError error.code) := rfl
    have overflow : error = .invalidInput := by
      unfold reserveSeqs at reserved
      split at reserved
      next => exact (Except.error.inj reserved).symm
      next => cases reserved
    rw [reserved, Tx.bind_error panicked, overflow] at fails
    exact (Except.error.inj fails).symm
  | ok next =>
    rw [reserved, Tx.bind_ok (orPanic_ok.mpr ⟨rfl, rfl⟩),
      Tx.bind_ok (storeEvents_ok.mpr ⟨rfl, rfl⟩)] at fails
    cases fails

theorem submitEvents_validated (authorized : env.authorized caller = true)
    (unpaused : isPaused world = false) (isAdmin : world.storage .admin = some caller)
    (fits : checkBatch inputs.len (maxEvents world) = .ok ()) :
    submitEvents env caller inputs world =
      (validateItems 0 inputs.items >>= fun _ => storeBatch (maxEvents world) inputs) world := by
  have asked : requireAuth env caller world = .ok ((), world) := requireAuth_ok.mpr ⟨authorized, rfl⟩
  have writable : ensureUnpaused world = .ok ((), world) := ensureUnpaused_ok.mpr ⟨unpaused, rfl⟩
  have admitted : ensureAdmin caller world = .ok ((), world) := ensureAdmin_ok.mpr ⟨isAdmin, rfl⟩
  have checked : orPanic (checkBatch inputs.len (maxEvents world)) world = .ok ((), world) :=
    orPanic_ok.mpr ⟨fits, rfl⟩
  rw [submitEvents, Tx.bind_ok asked, Tx.bind_ok writable, Tx.bind_ok admitted,
    Tx.bind_ok (Tx.read_apply _ _), Tx.bind_ok checked]

theorem itemError_ne {index : Nat} (below : index < MAX_BATCH.toNat) (error : Error) :
    BATCH_ITEM_ERROR_BASE + UInt32.ofNat index ≠ error.code := by
  intro same
  have value := congrArg UInt32.toNat same
  have small : error.code.toNat ≤ 8 := by cases error <;> decide
  have limit : MAX_BATCH.toNat = 20 := rfl
  rw [UInt32.toNat_add, UInt32.toNat_ofNat_of_lt' (by simp only [UInt32.size]; omega),
    show BATCH_ITEM_ERROR_BASE.toNat = 1000 from rfl, Nat.mod_eq_of_lt (by omega)] at value
  omega

theorem submitEvents_invalid_iff (isAdmin : world.storage .admin = some caller)
    (nonempty : 1 ≤ inputs.items.length)
    (small : inputs.items.length ≤ min MAX_BATCH.toNat (maxEvents world).toNat) {index : Nat}
    (below : index < inputs.items.length) :
    submitEvents env caller inputs world =
        .error (.contractError (BATCH_ITEM_ERROR_BASE + UInt32.ofNat index)) ↔
      env.authorized caller = true ∧ isPaused world = false ∧
        inputs.items.findIdx? isInvalid = some index := by
  have index_small : index < MAX_BATCH.toNat := by omega
  have fits : checkBatch inputs.len (maxEvents world) = .ok () := checkBatch_fits nonempty small
  by_cases authorized : env.authorized caller = true
  case neg =>
    have refused : requireAuth env caller world = .error .authorization := by
      simp [requireAuth, Tx.require, authorized]
    simp [submitEvents, Tx.bind_error refused, authorized]
  by_cases paused : isPaused world = true
  case pos =>
    have asked : requireAuth env caller world = .ok ((), world) :=
      requireAuth_ok.mpr ⟨authorized, rfl⟩
    have refused : ensureUnpaused world = .error (.contractError Error.contractPaused.code) := by
      rw [ensureUnpaused, Tx.bind_ok (Tx.read_apply _ _), paused]
      rfl
    rw [submitEvents, Tx.bind_ok asked, Tx.bind_error refused]
    simp only [paused, Except.error.injEq, Failure.contractError.injEq, Bool.true_eq_false,
      false_and, and_false, iff_false]
    exact fun same => itemError_ne index_small .contractPaused same.symm
  have unpaused : isPaused world = false := by simpa using paused
  rw [submitEvents_validated authorized unpaused isAdmin fits]
  simp only [authorized, unpaused, true_and]
  cases found : inputs.items.findIdx? isInvalid with
  | none =>
    have validated : validateItems 0 inputs.items world = .ok ((), world) := by
      rw [validateItems_apply, found]
    rw [Tx.bind_ok validated]
    simp only [reduceCtorEq, iff_false]
    intro fails
    have overflow := Failure.contractError.inj (storeBatch_error fails)
    exact itemError_ne index_small .invalidInput overflow
  | some position =>
    have stopped : validateItems 0 inputs.items world =
        .error (.contractError (BATCH_ITEM_ERROR_BASE + UInt32.ofNat position)) := by
      rw [validateItems_apply, found]
      simp
    have inBatch : position < inputs.items.length :=
      (List.findIdx?_eq_some_iff_findIdx_eq.mp found).1
    rw [Tx.bind_error stopped]
    simp only [Except.error.injEq, Failure.contractError.injEq, Option.some.injEq]
    constructor
    · intro same
      have value := congrArg UInt32.toNat ((UInt32.add_right_inj _).mp same)
      have limit : MAX_BATCH.toNat = 20 := rfl
      rwa [UInt32.toNat_ofNat_of_lt' (by simp only [UInt32.size]; omega),
        UInt32.toNat_ofNat_of_lt' (by simp only [UInt32.size]; omega)] at value
    · rintro rfl
      rfl

/-- A batch of the admin that the limits admit is its items submitted one by
one: it succeeds when they all do, with their sequence numbers, storage and
diagnostics; when it fails nothing is kept, and an invalid item is named. -/
theorem submitEvents_refines_oneByOne (isAdmin : world.storage .admin = some caller)
    (nonempty : 1 ≤ inputs.items.length)
    (small : inputs.items.length ≤ min MAX_BATCH.toNat (maxEvents world).toNat) :
    (∀ seqs after, submitEvents env caller inputs world = .ok (seqs, after) ↔
      ∃ single, submitOneByOne env caller inputs.items world = .ok (seqs, single) ∧
        after = single.publish (.evBatch (eventSeq world) inputs.len)) ∧
    (∀ reason, submitEvents env caller inputs world = .error reason →
      ((submitEvents env caller inputs).settle world).2 = world) ∧
    (∀ index, index < inputs.items.length →
      (submitEvents env caller inputs world =
          .error (.contractError (BATCH_ITEM_ERROR_BASE + UInt32.ofNat index)) ↔
        env.authorized caller = true ∧ isPaused world = false ∧
          inputs.items.findIdx? isInvalid = some index)) := by
  refine ⟨fun seqs after => submitEvents_ok_iff isAdmin nonempty small, ?_,
    fun index below => submitEvents_invalid_iff isAdmin nonempty small below⟩
  intro reason fails
  rw [Tx.settle_error fails]

end Batch

def mixedBatch : HostVec EventInput :=
  ⟨[exampleInput, { exampleInput with function := Symbol.empty }], by decide⟩

/-- The second item is named: `1001`. -/
theorem mixedBatch_fails :
    submitEvents exampleEnv exampleAdmin mixedBatch exampleStart = .error (.contractError 1001) := by
  have capacity : maxEvents exampleStart = MIN_MAX_EVENTS := initialized_maxEvents
  have small : mixedBatch.items.length ≤ min MAX_BATCH.toNat (maxEvents exampleStart).toNat := by
    rw [capacity]
    decide
  exact ((submitEvents_refines_oneByOne initialized_admin (by decide) small).2.2 1
    (by decide)).mpr ⟨exampleEnv_authorized 1, initialized_paused, by decide⟩

end SorobanExplorer.Contract
