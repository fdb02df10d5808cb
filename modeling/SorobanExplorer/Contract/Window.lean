import SorobanExplorer.Contract.Pausing
import SorobanExplorer.Contract.Submission
import SorobanExplorer.Library.RingLog
import Mathlib.Data.Set.Card
import Mathlib.Order.Interval.Finset.Nat

/-!
Owns the window of the event log. The history of a run determines the list of
submitted events; `EventSeq` counts it and the slots are a ring buffer over it,
as long as no `set_max_events` shrinks the capacity below the events stored.
Then `get_event` reads back exactly the last `MaxEvents` events.
-/

namespace SorobanExplorer.Contract

open Library

variable {host : Host}

/-! ### The submitted events -/

def Action.submissions : Action host → List EventInput
  | .call _ (.submitEvent _ input) => [input]
  | .call _ (.submitEvents _ inputs) => inputs.items
  | _ => []

/-- The inputs submitted so far: the one at position `s` got sequence number `s`. -/
def submissions (history : List (Action host)) : List EventInput :=
  history.flatMap Action.submissions

@[simp] theorem submissions_snoc (history : List (Action host)) (action : Action host) :
    submissions (history ++ [action]) = submissions history ++ action.submissions := by
  simp [submissions]

/-- The events of a list of inputs, numbered from `0`. -/
def numbered (inputs : List EventInput) : List DecodedEvent :=
  inputs.mapIdx fun index input => decodedEvent (UInt64.ofNat index) input

@[simp] theorem numbered_length (inputs : List EventInput) :
    (numbered inputs).length = inputs.length := by
  simp [numbered]

theorem numbered_getElem? (inputs : List EventInput) (index : Nat) :
    (numbered inputs)[index]? = inputs[index]?.map (decodedEvent (UInt64.ofNat index)) := by
  simp [numbered]

theorem numbered_snoc (inputs : List EventInput) (input : EventInput) :
    numbered (inputs ++ [input]) =
      numbered inputs ++ [decodedEvent (UInt64.ofNat inputs.length) input] := by
  simp [numbered, List.mapIdx_append]

/-! ### What a step does to the event log -/

def logKeys : Set DataKey :=
  { key | match key with
    | .eventLog _ | .eventSeq | .maxEvents => True
    | _ => False }

def ResizeFits (before : World) : Action host → Prop
  | .call _ (.setMaxEvents _ newMax) => (eventSeq before).toNat ≤ newMax.toNat
  | _ => True

inductive LogStep (host : Host) (before : World) : Action host → World → Prop
  | frame {action : Action host} {after : World} (silent : action.submissions = [])
      (admitted : ResizeFits before action)
      (agree : Store.AgreeOn logKeys before.storage after.storage) :
      LogStep host before action after
  | initialized {env : Env host} {admin : Address} {capacity cap : UInt32} {after : World}
      (unset : before.storage .admin = none) (floor : MIN_MAX_EVENTS ≤ cap)
      (slots : ∀ slot, after.storage (.eventLog slot) = before.storage (.eventLog slot))
      (seq : eventSeq after = 0) (max : maxEvents after = cap) :
      LogStep host before (.call env (.init admin capacity)) after
  | resized {env : Env host} {caller : Address} {newMax : UInt32}
      (floor : MIN_MAX_EVENTS ≤ newMax)
      (unwrapped : (eventSeq before).toNat < (maxEvents before).toNat) :
      LogStep host before (.call env (.setMaxEvents caller newMax)) (before.put .maxEvents newMax)
  | submitted {action : Action host} {after : World} (admitted : ResizeFits before action)
      (isAdmin : (before.storage .admin).isSome = true)
      (left : (eventSeq before).toNat + action.submissions.length < UInt64.size)
      (stored : after.storage = (action.submissions.foldl World.submitted before).storage) :
      LogStep host before action after

theorem logKeys_compl_configuration {key : DataKey} (member : key ∈ logKeys) :
    key ∈ configurationKeysᶜ := by
  intro inside
  cases key <;> first | exact inside | exact member

theorem logKeys_compl_registry {key : DataKey} (member : key ∈ logKeys) :
    key ∈ registryKeysᶜ := by
  intro inside
  cases key <;> first | exact inside | exact member

theorem Step.log {before after : World} {action : Action host}
    (step : Step host before action after) : LogStep host before action after := by
  have start := Store.AgreeOn.refl logKeys before.storage
  cases step.transition with
  | others => exact .frame rfl trivial start
  | read isRead =>
    rename_i env entrypoint
    refine .frame ?_ ?_ start <;> cases entrypoint <;>
      first | rfl | exact trivial | cases isRead
  | configured isConfiguration frame balances adminSet =>
    rename_i env entrypoint
    refine .frame ?_ ?_ fun key member => frame key (logKeys_compl_configuration member)
    · cases entrypoint <;> first | rfl | cases isConfiguration
    · cases entrypoint <;> first | exact trivial | cases isConfiguration
  | initialized ok =>
    obtain ⟨unset, cap, _, floor, _, rfl⟩ := init_ok.mp ok
    exact .initialized unset floor (fun slot => by simp) (by simp [eventSeq]) (by simp [maxEvents])
  | resized ok =>
    obtain ⟨_, _, ⟨floor, unwrapped⟩, rfl⟩ := setMaxEvents_ok.mp ok
    exact .resized floor unwrapped
  | paused ok | unpaused ok =>
    obtain ⟨_, _, rfl⟩ := setPaused_ok.mp ok
    exact .frame rfl trivial (start.put_right id _)
  | registered | updated | deregistered | attested | claimed =>
    exact .frame rfl trivial fun key member =>
      registry_frame rfl step key (logKeys_compl_registry member)
  | submitted ok =>
    obtain ⟨_, _, _, isAdmin, left, rfl⟩ := submitEvent_ok_submitted.mp ok
    exact .submitted trivial (by simp [isAdmin]) (by simpa [Action.submissions] using left) rfl
  | submittedBatch ok =>
    obtain ⟨_, _, isAdmin, fits, _⟩ := submitEvents_ok.mp ok
    obtain ⟨nonempty, small⟩ := checkBatch_fits_iff.mp fits
    obtain ⟨single, oneByOne, rfl⟩ := (submitEvents_ok_iff isAdmin nonempty small).mp ok
    obtain ⟨_, _, left, _, rfl⟩ := submitOneByOne_ok.mp oneByOne
    exact .submitted trivial (by simp [isAdmin]) left rfl

/-! ### `EventSeq` counts the submissions -/

/-- `EventSeq` is the number of submissions, and there are none before `init`. -/
structure Counted (history : List (Action host)) (world : World) : Prop where
  counted : (eventSeq world).toNat = (submissions history).length
  fresh : world.storage .admin = none → submissions history = []

theorem eventSeq_congr {left right : World} (same : left.storage .eventSeq = right.storage .eventSeq) :
    eventSeq left = eventSeq right := by
  rw [eventSeq, eventSeq, same]

theorem maxEvents_congr {left right : World}
    (same : left.storage .maxEvents = right.storage .maxEvents) :
    maxEvents left = maxEvents right := by
  rw [maxEvents, maxEvents, same]

section Steps

variable {history : List (Action host)} {before after : World} {action : Action host}

theorem Counted.step (counted : Counted history before) (step : Step host before action after) :
    Counted (history ++ [action]) after := by
  have stillUnset (unset : after.storage .admin = none) : before.storage .admin = none := by
    by_contra set
    have isSome := step.admin_isSome (Option.isSome_iff_ne_none.mpr set)
    rw [unset] at isSome
    cases isSome
  cases step.log with
  | frame silent _ agree =>
    refine ⟨?_, fun unset => ?_⟩
    · rw [← eventSeq_congr (agree .eventSeq trivial), submissions_snoc, silent, List.append_nil]
      exact counted.counted
    · rw [submissions_snoc, silent, List.append_nil]
      exact counted.fresh (stillUnset unset)
  | initialized unset _ _ seq =>
    have none_before := counted.fresh unset
    refine ⟨?_, fun _ => ?_⟩ <;> rw [submissions_snoc, none_before]
    · rw [seq]
      rfl
    · rfl
  | @resized env caller newMax =>
    have silent : submissions (history ++ [.call env (.setMaxEvents caller newMax)]) =
        submissions history := by simp [Action.submissions]
    refine ⟨?_, fun unset => ?_⟩ <;> rw [silent]
    · rw [← counted.counted]
      simp [eventSeq]
    · exact counted.fresh (stillUnset unset)
  | submitted _ isAdmin left stored =>
    refine ⟨?_, fun unset => ?_⟩
    · rw [eventSeq_congr (congrFun stored .eventSeq), foldl_submitted_eventSeq left,
        submissions_snoc, List.length_append, counted.counted]
    · rw [stillUnset unset] at isAdmin
      cases isAdmin

theorem reachable_counted {balances : Balances} {world : World}
    (reached : Run (Step host) (World.deployed balances) history world) :
    Counted history world :=
  reached.induct (P := Counted) ⟨rfl, fun _ => rfl⟩
    fun _ _ _ _ _ counted step => counted.step step

end Steps

/-! ### The slots are a ring buffer -/

def eventSlots (storage : Storage) (slot : Nat) : Option DecodedEvent :=
  if slot < UInt64.size then storage (.eventLog (UInt64.ofNat slot)) else none

def RingHolds (inputs : List EventInput) (world : World) : Prop :=
  RingLog.Holds (eventSlots world.storage) (maxEvents world).toNat (numbered inputs)

theorem eventSlots_toNat (storage : Storage) (slot : UInt64) :
    eventSlots storage slot.toNat = storage (.eventLog slot) := by
  rw [eventSlots, if_pos slot.toNat_lt_size, UInt64.ofNat_toNat]

theorem eventSlots_congr {left right : Storage}
    (same : ∀ slot, left (.eventLog slot) = right (.eventLog slot)) :
    eventSlots left = eventSlots right := by
  funext slot
  simp only [eventSlots, same]

theorem eventSlots_put (storage : Storage) (slot : UInt64) (event : DecodedEvent) :
    eventSlots (storage.put (.eventLog slot) event) =
      Function.update (eventSlots storage) slot.toNat (some event) := by
  funext index
  by_cases same : index = slot.toNat
  · subst same
    rw [Function.update_self, eventSlots_toNat, Store.put_same]
  · rw [Function.update_of_ne same, eventSlots, eventSlots]
    split
    next below =>
      refine Store.put_of_ne _ _ fun equal => same ?_
      have value := congrArg UInt64.toNat (DataKey.eventLog.inj equal)
      rwa [UInt64.toNat_ofNat_of_lt' below] at value
    next => rfl

@[simp] theorem eventSlots_resize (world : World) (newMax : UInt32) :
    eventSlots (world.put .maxEvents newMax).storage = eventSlots world.storage :=
  eventSlots_congr fun slot => by rw [World.put_storage, Store.put_of_ne _ _ (by simp)]

theorem slotEvent_eq (world : World) (seq : UInt64) :
    slotEvent world seq = eventSlots world.storage (seq.toNat % (maxEvents world).toNat) := by
  rw [slotEvent, ← ringSlot_toNat, eventSlots_toNat]

theorem RingHolds.submitted {inputs : List EventInput} {world : World}
    (holds : RingHolds inputs world) (counted : (eventSeq world).toNat = inputs.length)
    (input : EventInput) : RingHolds (inputs ++ [input]) (world.submitted input) := by
  have slots : eventSlots (world.submitted input).storage =
      Function.update (eventSlots world.storage)
        ((numbered inputs).length % (maxEvents world).toNat)
        (some (decodedEvent (UInt64.ofNat inputs.length) input)) := by
    have counting : eventSlots (world.submitted input).storage =
        eventSlots (world.withEvent (eventSeq world) (maxEvents world) input).storage :=
      eventSlots_congr fun slot => by
        rw [World.submitted, World.put_storage, Store.put_of_ne _ _ (by simp)]
    rw [counting, World.withEvent, eventSlots_put, ringSlot_toNat, counted, numbered_length,
      ← counted, UInt64.ofNat_toNat]
  rw [RingHolds, submitted_maxEvents, numbered_snoc, slots]
  exact holds.append _

theorem RingHolds.foldl_submitted {inputs later : List EventInput} {world : World}
    (holds : RingHolds inputs world) (counted : (eventSeq world).toNat = inputs.length)
    (left : (eventSeq world).toNat + later.length < UInt64.size) :
    RingHolds (inputs ++ later) (later.foldl World.submitted world) := by
  induction later generalizing inputs world with
  | nil => simpa using holds
  | cons input rest ih =>
    rw [List.length_cons] at left
    have one : (eventSeq (world.submitted input)).toNat = (inputs ++ [input]).length := by
      rw [submitted_eventSeq, UInt64.toNat_add, UInt64.toNat_one,
        Nat.mod_eq_of_lt (by simp only [UInt64.size] at left; omega), counted,
        List.length_append, List.length_singleton]
    have next := ih (holds.submitted counted input) one (by
      rw [one, List.length_append, List.length_singleton]
      omega)
    rwa [List.append_assoc, List.singleton_append] at next

/-! ### Reading the window -/

/-- `get_event` reads exactly the retained events, each as it was submitted,
and `event_count` counts them. -/
structure WindowExact (history : List (Action host)) (world : World) : Prop where
  counted : (eventSeq world).toNat = (submissions history).length
  succeeds : ∀ seq, (∃ event after, getEvent seq world = .ok (event, after)) ↔
    oldestRetained (eventSeq world) (maxEvents world) ≤ seq ∧ seq < eventSeq world
  returns : ∀ seq event after, getEvent seq world = .ok (event, after) →
    ∃ input, (submissions history)[seq.toNat]? = some input ∧ event = decodedEvent seq input
  count : (eventCount world).toNat =
    Set.ncard { seq | ∃ event after, getEvent seq world = .ok (event, after) }

section Reading

variable {inputs : List EventInput} {world : World}

theorem RingHolds.getEvent_iff (holds : RingHolds inputs world)
    (counted : (eventSeq world).toNat = inputs.length) (seq : UInt64) (event : DecodedEvent) :
    (∃ after, getEvent seq world = .ok (event, after)) ↔
      (eventSeq world).toNat ≤ seq.toNat + (maxEvents world).toNat ∧
        ∃ input, inputs[seq.toNat]? = some input ∧ event = decodedEvent seq input := by
  have length : (numbered inputs).length = inputs.length := numbered_length inputs
  have stored (index : Nat) (below : index < (numbered inputs).length) :
      ∃ input, inputs[index]? = some input ∧
        (numbered inputs)[index] = decodedEvent (UInt64.ofNat index) input := by
    have entry := numbered_getElem? inputs index
    rw [List.getElem?_eq_getElem below] at entry
    obtain ⟨input, present, same⟩ := Option.map_eq_some_iff.mp entry.symm
    exact ⟨input, present, same.symm⟩
  have bound := (eventSeq world).toNat_lt_size
  constructor
  · rintro ⟨after, ok⟩
    obtain ⟨⟨slot, tagged⟩, _⟩ := getEvent_ok.mp ok
    rw [slotEvent_eq] at slot
    rcases holds.slot_cases seq.toNat with ⟨unused, _⟩ | ⟨resident, below, lower, _, entry⟩
    · rw [unused] at slot
      cases slot
    · rw [entry] at slot
      obtain ⟨input, present, decoded⟩ := stored resident below
      rw [decoded] at slot
      cases slot
      -- The tag of the resident event is its own number.
      have own : resident = seq.toNat := by
        rw [← tagged]
        exact (UInt64.toNat_ofNat_of_lt' (by omega)).symm
      subst own
      rw [length] at lower
      refine ⟨by omega, input, present, ?_⟩
      rw [UInt64.ofNat_toNat]
  · rintro ⟨lower, input, present, rfl⟩
    have below : seq.toNat < (numbered inputs).length := by
      rw [length]
      exact (List.getElem?_eq_some_iff.mp present).1
    obtain ⟨same_input, same_present, decoded⟩ := stored seq.toNat below
    cases present.symm.trans same_present
    refine ⟨world, getEvent_ok.mpr ⟨⟨?_, rfl⟩, rfl⟩⟩
    rw [slotEvent_eq, holds.resident seq.toNat below (by omega), decoded, UInt64.ofNat_toNat]

theorem window_iff (world : World) (seq : UInt64) :
    (oldestRetained (eventSeq world) (maxEvents world) ≤ seq ∧ seq < eventSeq world) ↔
      (eventSeq world).toNat ≤ seq.toNat + (maxEvents world).toNat ∧
        seq.toNat < (eventSeq world).toNat := by
  rw [UInt64.le_iff_toNat_le, UInt64.lt_iff_toNat_lt, oldestRetained_toNat]
  omega

theorem window_ncard (world : World) :
    Set.ncard { seq | oldestRetained (eventSeq world) (maxEvents world) ≤ seq ∧
      seq < eventSeq world } = (eventCount world).toNat := by
  have numbers : UInt64.toNat '' { seq | oldestRetained (eventSeq world) (maxEvents world) ≤ seq ∧
      seq < eventSeq world } =
        Set.Ico ((eventSeq world).toNat - (maxEvents world).toNat) (eventSeq world).toNat := by
    ext number
    simp only [Set.mem_image, Set.mem_ofPred_eq, window_iff, Set.mem_Ico]
    constructor
    · rintro ⟨seq, ⟨lower, upper⟩, rfl⟩
      omega
    · rintro ⟨lower, upper⟩
      have below := (eventSeq world).toNat_lt_size
      have value : (UInt64.ofNat number).toNat = number := UInt64.toNat_ofNat_of_lt' (by omega)
      exact ⟨UInt64.ofNat number, by omega, value⟩
  rw [← Set.ncard_image_of_injective _ (fun _ _ same => UInt64.toNat_inj.mp same), numbers,
    ← Finset.coe_Ico, Set.ncard_coe_finset, Nat.card_Ico, eventCount, retainedCount_toNat]
  omega

theorem RingHolds.windowExact {history : List (Action host)}
    (holds : RingHolds (submissions history) world) (counted : Counted history world) :
    WindowExact history world := by
  have succeeds (seq : UInt64) : (∃ event after, getEvent seq world = .ok (event, after)) ↔
      oldestRetained (eventSeq world) (maxEvents world) ≤ seq ∧ seq < eventSeq world := by
    rw [window_iff, exists_congr (holds.getEvent_iff counted.counted seq)]
    constructor
    · rintro ⟨_, lower, input, present, _⟩
      have below := (List.getElem?_eq_some_iff.mp present).1
      rw [← counted.counted] at below
      exact ⟨lower, below⟩
    · rintro ⟨lower, upper⟩
      rw [counted.counted] at upper
      exact ⟨_, lower, _, List.getElem?_eq_getElem upper, rfl⟩
  refine ⟨counted.counted, succeeds, ?_, ?_⟩
  · intro seq event after ok
    exact ((holds.getEvent_iff counted.counted seq event).mp ⟨after, ok⟩).2
  · simp only [succeeds]
    exact (window_ncard world).symm

end Reading

/-! ### Runs -/

section Runs

variable {history : List (Action host)} {before after : World} {action : Action host}

theorem ringHolds_congr {inputs : List EventInput} {left right : World}
    (slots : ∀ slot, left.storage (.eventLog slot) = right.storage (.eventLog slot))
    (max : maxEvents left = maxEvents right) (holds : RingHolds inputs left) :
    RingHolds inputs right := by
  rwa [RingHolds, ← eventSlots_congr slots, ← max]

theorem RingHolds.step (holds : RingHolds (submissions history) before)
    (counted : Counted history before) (admitted : ResizeFits before action)
    (step : Step host before action after) :
    RingHolds (submissions (history ++ [action])) after := by
  rw [submissions_snoc]
  cases step.log with
  | frame silent _ agree =>
    rw [silent, List.append_nil]
    exact ringHolds_congr (fun slot => agree (.eventLog slot) trivial)
      (maxEvents_congr (agree .maxEvents trivial)) holds
  | initialized unset floor slots seq max =>
    -- Before `init` nothing is stored: any capacity will do.
    have none_before := counted.fresh unset
    rw [none_before] at holds ⊢
    have unused (slot : Nat) : eventSlots after.storage slot = none := by
      rw [eventSlots_congr slots]
      exact holds.vacant slot (Nat.zero_le _)
    have positive : 0 < (maxEvents after).toNat := by
      rw [max]
      exact Nat.lt_of_lt_of_le (by decide) (UInt32.le_iff_toNat_le.mp floor)
    exact RingLog.Holds.empty unused positive
  | @resized env caller newMax floor unwrapped =>
    have fits : (eventSeq before).toNat ≤ newMax.toNat := admitted
    have max : maxEvents (before.put .maxEvents newMax) = newMax := by simp [maxEvents]
    have positive : 0 < newMax.toNat :=
      Nat.lt_of_lt_of_le (by decide) (UInt32.le_iff_toNat_le.mp floor)
    have length : (numbered (submissions history)).length = (eventSeq before).toNat := by
      rw [numbered_length, counted.counted]
    rw [Action.submissions, List.append_nil, RingHolds, eventSlots_resize, max]
    · exact RingLog.Holds.resize holds (by omega) (by omega) positive
    all_goals simp
  | submitted _ _ left stored =>
    have appended := holds.foldl_submitted counted.counted left
    exact ringHolds_congr (fun slot => (congrFun stored (.eventLog slot)).symm)
      (maxEvents_congr (congrFun stored .maxEvents).symm) appended

theorem RingHolds.resize_misses {caller : Address} {newMax : UInt32} {env : Env host}
    (holds : RingHolds (submissions history) before) (counted : Counted history before)
    (ok : setMaxEvents env caller newMax before = .ok ((), after))
    (short : newMax.toNat < (eventSeq before).toNat)
    {later : List (Action host)} : ¬ WindowExact later after := by
  obtain ⟨_, _, ⟨floor, unwrapped⟩, rfl⟩ := setMaxEvents_ok.mp ok
  intro window
  have bound := (eventSeq before).toNat_lt_size
  have positive : 0 < newMax.toNat :=
    Nat.lt_of_lt_of_le (by decide) (UInt32.le_iff_toNat_le.mp floor)
  have length : (numbered (submissions history)).length = (eventSeq before).toNat := by
    rw [numbered_length, counted.counted]
  have seq : eventSeq (before.put .maxEvents newMax) = eventSeq before := by simp [eventSeq]
  have max : maxEvents (before.put .maxEvents newMax) = newMax := by simp [maxEvents]
  let last := UInt64.ofNat ((eventSeq before).toNat - 1)
  have last_value : last.toNat = (eventSeq before).toNat - 1 :=
    UInt64.toNat_ofNat_of_lt' (by omega)
  -- The window promises the last event, whose slot holds an older one.
  have promised : ∃ event after, getEvent last (before.put .maxEvents newMax) =
      .ok (event, after) := by
    rw [window.succeeds, window_iff, seq, max, last_value]
    omega
  obtain ⟨event, _, found⟩ := promised
  obtain ⟨⟨slot, tagged⟩, _⟩ := getEvent_ok.mp found
  have tight : newMax.toNat < (numbered (submissions history)).length := by omega
  obtain ⟨index, below, older, entry⟩ :=
    RingLog.Holds.shrink_misses holds (by omega) tight positive
  rw [slotEvent_eq, eventSlots_resize, max, last_value, ← length, entry] at slot
  have numbered_at := numbered_getElem? (submissions history) index
  rw [List.getElem?_eq_getElem below, slot] at numbered_at
  obtain ⟨input, _, decoded⟩ := Option.map_eq_some_iff.mp numbered_at.symm
  rw [← decoded] at tagged
  have same := congrArg UInt64.toNat tagged
  change (UInt64.ofNat index).toNat = last.toNat at same
  rw [UInt64.toNat_ofNat_of_lt' (by omega), last_value] at same
  omega

theorem deployed_ringHolds (balances : Balances) : RingHolds [] (World.deployed balances) :=
  have capacity : maxEvents (World.deployed balances) = DEFAULT_MAX_EVENTS := rfl
  RingLog.Holds.empty (fun slot => by simp [eventSlots, World.deployed]) (by rw [capacity]; decide)

theorem ringHolds_along {balances : Balances} {actions : List (Action host)}
    (each : EachStep (Step host) (World.deployed balances) actions ResizeFits) :
    Along (Step host) (World.deployed balances) actions
      fun history world => RingHolds (submissions history) world :=
  each.along (deployed_ringHolds balances) fun _ _ _ _ reached holds admitted step =>
    holds.step (reachable_counted reached) admitted step

/-- In a run `get_event` reads exactly the window throughout if and only if
every `set_max_events` has room for the events submitted so far. -/
theorem windowExact_along_iff {balances : Balances} {actions : List (Action host)}
    {final : World} (run : Run (Step host) (World.deployed balances) actions final) :
    Along (Step host) (World.deployed balances) actions WindowExact ↔
      EachStep (Step host) (World.deployed balances) actions ResizeFits := by
  refine run.along_iff_eachStep (I := fun history world => RingHolds (submissions history) world)
    (step_deterministic host) (deployed_ringHolds balances) ?_ ?_ ?_
  · intro _ _ reached holds
    exact holds.windowExact (reachable_counted reached)
  · intro _ _ _ _ reached holds admitted step
    exact holds.step (reachable_counted reached) admitted step
  · intro history action before after reached holds step window
    unfold ResizeFits
    split
    next env caller newMax =>
      by_contra short
      exact holds.resize_misses (reachable_counted reached) step (Nat.lt_of_not_le short) window
    next => trivial

end Runs

/-! ### A shrunk window -/

def submitAction : Action exampleHost := .call exampleEnv (.submitEvent exampleAdmin exampleInput)

def fillActions : List (Action exampleHost) :=
  [.call exampleEnv (.init exampleAdmin 2000)] ++ List.replicate 1001 submitAction

def filledWorld : World :=
  (List.replicate 1001 exampleInput).foldl World.submitted
    (World.initialized (fun _ _ => 0) exampleAdmin 2000)

theorem fillActions_run :
    Run (Step exampleHost) (World.deployed fun _ _ => 0) fillActions filledWorld :=
  (Run.one (initialized_step (by decide) (by decide))).append
    (submitted_run (exampleEnv_authorized 1) rfl initialized_paused initialized_admin 1001
      (by rw [initialized_eventSeq]; decide))

theorem fillActions_admitted :
    EachStep (Step exampleHost) (World.deployed fun _ _ => 0) fillActions ResizeFits := by
  refine EachStep.of_forall fun action member state => ?_
  rcases List.mem_append.mp member with first | later
  · rw [List.mem_singleton.mp first]
    exact trivial
  · rw [List.eq_of_mem_replicate later]
    exact trivial

/-- Filling the log keeps the window exact. -/
theorem windowExact_along_fill :
    Along (Step exampleHost) (World.deployed fun _ _ => 0) fillActions WindowExact :=
  (windowExact_along_iff fillActions_run).mpr fillActions_admitted

/-- Shrinking the capacity to a thousand loses the last event. -/
theorem resize_breaks_window :
    ∃ final, Run (Step exampleHost) (World.deployed fun _ _ => 0)
      (fillActions ++ [.call exampleEnv (.setMaxEvents exampleAdmin 1000)]) final ∧
        ¬ WindowExact (fillActions ++ [.call exampleEnv (.setMaxEvents exampleAdmin 1000)])
          final := by
  have seq : (eventSeq filledWorld).toNat = 1001 := by
    have left : (eventSeq (World.initialized (fun _ _ => 0) exampleAdmin 2000)).toNat +
        (List.replicate 1001 exampleInput).length < UInt64.size := by
      rw [initialized_eventSeq, List.length_replicate]
      decide
    rw [filledWorld, foldl_submitted_eventSeq left, initialized_eventSeq, List.length_replicate]
    rfl
  have max : maxEvents filledWorld = 2000 := by
    rw [filledWorld, foldl_submitted_maxEvents, initialized_maxEvents]
  have isAdmin : filledWorld.storage .admin = some exampleAdmin := by
    rw [filledWorld, foldl_submitted_admin, initialized_admin]
  have shrunk : setMaxEvents exampleEnv exampleAdmin 1000 filledWorld = .ok ((), _) :=
    setMaxEvents_ok.mpr ⟨exampleEnv_authorized 1, isAdmin, ⟨by decide, by rw [seq, max]; decide⟩, rfl⟩
  have holds := ringHolds_along fillActions_admitted _ (List.prefix_refl _) _ fillActions_run
  exact ⟨_, fillActions_run.snoc shrunk,
    holds.resize_misses (reachable_counted fillActions_run) shrunk (by rw [seq]; decide)⟩

end SorobanExplorer.Contract
