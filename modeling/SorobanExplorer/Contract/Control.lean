import SorobanExplorer.Contract.History

/-!
Owns who controls an entry. The history of a run determines the holder of every
entry: the registrant it was registered with, then whoever claims it. The
stored registrant is that holder as long as every update submits it again;
`update_contract` takes the field from its caller.
-/

namespace SorobanExplorer.Contract

open Library

variable {host : Host}

/-! ### The holder of an entry -/

def holderAfter (id : ContractId) (holder : Option Address) : Action host → Option Address
  | .call _ (.registerContract _ other details) =>
    if other = id then some details.registeredBy else holder
  | .call _ (.claimContract other claimant) => if other = id then some claimant else holder
  | .call _ (.deregisterContract _ other) => if other = id then none else holder
  | _ => holder

def holder (id : ContractId) (history : List (Action host)) : Option Address :=
  history.foldl (holderAfter id) none

@[simp] theorem holder_snoc (id : ContractId) (history : List (Action host)) (action : Action host) :
    holder id (history ++ [action]) = holderAfter id (holder id history) action := by
  simp [holder]

structure Entry.HeldBy (entry : Entry) (holder : Option Address) : Prop where
  registrant : entry.live.map ContractMeta.registeredBy = holder
  owner : ∀ details ownership, entry.live = some details → entry.ownership = some ownership →
    details.registeredBy = ownership.owner

def ControlTracked (history : List (Action host)) (world : World) : Prop :=
  ∀ id, (entryOf world.storage id).HeldBy (holder id history)

def SubmitsRegistrant (before : World) : Action host → Prop
  | .call _ (.updateContract _ id details) =>
    ∀ existing, getContract before id = some existing →
      details.registeredBy = existing.registeredBy
  | _ => True

/-! ### One entry -/

namespace Entry.HeldBy

variable {entry after : Entry} {id : ContractId} {held : Option Address}

theorem update_iff (heldBy : entry.HeldBy held) {existing stored : ContractMeta}
    (registered : entry.live = some existing) :
    (entry.update stored).HeldBy held ↔ stored.registeredBy = existing.registeredBy := by
  have holds : some existing.registeredBy = held := by
    rw [← heldBy.registrant, registered, Option.map_some]
  constructor
  · intro updated
    have submitted : some stored.registeredBy = held := updated.registrant
    exact Option.some.inj (submitted.trans holds.symm)
  · intro same
    refine ⟨?_, ?_⟩
    · exact (congrArg some same).trans holds
    · rintro details ownership live owned
      cases live
      rw [same]
      exact heldBy.owner existing ownership registered owned

theorem step_iff {action : Action host} (heldBy : entry.HeldBy held)
    (clean : entry.live = none → entry.ownership = none)
    (taken : EntryStep host id entry action after) :
    after.HeldBy (holderAfter id held action) ↔
      ∀ env caller details, action = .call env (.updateContract caller id details) →
        ∀ existing, entry.live = some existing →
          details.registeredBy = existing.registeredBy := by
  have notUpdate {Q : Prop} (holds : Q)
      (other : ∀ env caller details, action ≠ .call env (.updateContract caller id details)) :
      Q ↔ ∀ env caller details, action = .call env (.updateContract caller id details) →
        ∀ existing, entry.live = some existing → details.registeredBy = existing.registeredBy :=
    iff_of_true holds fun env caller details same => absurd same (other env caller details)
  cases taken with
  | frame untouched =>
    have kept : holderAfter id held action = held := by
      unfold holderAfter
      split <;> first | rfl | exact if_neg fun same => untouched (by rw [same]; rfl)
    rw [kept]
    exact notUpdate heldBy fun _ _ _ same => untouched (by rw [same]; rfl)
  | registered deposit absent =>
    refine notUpdate ⟨?_, ?_⟩ (fun _ _ _ => by simp)
    · simp [Entry.register, registeredMeta, holderAfter]
    · intro details ownership _ owned
      rw [show entry.ownership = some ownership from owned] at clean
      cases clean absent
  | attested => exact notUpdate ⟨heldBy.registrant, heldBy.owner⟩ (fun _ _ _ => by simp)
  | deregistered =>
    refine notUpdate ⟨?_, ?_⟩ (fun _ _ _ => by simp)
    · simp [Entry.remove, holderAfter]
    · intro details _ live
      cases live
  | claimed =>
    refine notUpdate ⟨?_, ?_⟩ (fun _ _ _ => by simp)
    · simp [Entry.claim, holderAfter]
    · intro details ownership live owned
      cases live
      cases owned
      rfl
  | @updated env caller existing details registered next =>
    have kept : holderAfter id held
        (.call env (.updateContract caller id details) : Action host) = held := rfl
    rw [kept, heldBy.update_iff registered]
    constructor
    · rintro same _ _ _ equal _ live
      cases equal
      rw [registered] at live
      cases live
      exact same
    · intro guarded
      exact guarded env caller details rfl existing registered

end Entry.HeldBy

/-! ### Runs -/

theorem controlTracked_step {balances : Balances} {history : List (Action host)}
    {before after : World} {action : Action host}
    (reached : Run (Step host) (World.deployed balances) history before)
    (tracked : ControlTracked history before) (step : Step host before action after) :
    ControlTracked (history ++ [action]) after ↔ SubmitsRegistrant before action := by
  have each (id : ContractId) := (tracked id).step_iff
    (fun absent => ((Run.historyComplete (fun _ => rfl) reached id).clean absent).2.1)
    (step.entry id)
  unfold ControlTracked
  simp only [holder_snoc]
  rw [forall_congr' each]
  constructor
  · intro guarded
    unfold SubmitsRegistrant
    split
    next env caller id details => exact guarded id env caller details rfl
    next => trivial
  · rintro guarded id env caller details rfl
    exact guarded

theorem deployed_controlTracked (balances : Balances) :
    ControlTracked ([] : List (Action host)) (World.deployed balances) := by
  refine fun id => ⟨rfl, ?_⟩
  intro details ownership live
  cases live

def UpdateKeepsControl (before : World) (action : Action host) : Prop :=
  ∀ after env caller updated details, action = .call env (.updateContract caller updated details) →
    Step host before action after → ∀ id existing, getContract before id = some existing →
      ∃ entry, getContract after id = some entry ∧ ∀ anyone,
        mayUpdate after anyone id entry = mayUpdate before anyone id existing ∧
          mayDeregister after anyone entry = mayDeregister before anyone existing

theorem updateKeepsControl_of_submitsRegistrant {before : World} {action : Action host}
    (guarded : SubmitsRegistrant before action) : UpdateKeepsControl before action := by
  rintro after env caller updated details rfl step id existing registered
  obtain ⟨_, _, found, live, _, _, _, _, rfl⟩ := updateContract_ok.mp step
  by_cases same : id = updated
  · subst same
    have own : details.registeredBy = existing.registeredBy := guarded existing registered
    refine ⟨updatedMeta env details, by simp [getContract], fun anyone => ?_⟩
    simp [mayUpdate, mayDeregister, getOwnership, updatedMeta, own]
  · refine ⟨existing, by simpa [getContract, same] using registered, fun anyone => ?_⟩
    simp [mayUpdate, mayDeregister, getOwnership]

/-- In a run every registrant is the recorded holder, and no update changes who
controls an entry, exactly when every update submits the stored registrant. -/
theorem control_along_iff {balances : Balances} {actions : List (Action host)} {final : World}
    (run : Run (Step host) (World.deployed balances) actions final) :
    (Along (Step host) (World.deployed balances) actions ControlTracked ∧
      EachStep (Step host) (World.deployed balances) actions UpdateKeepsControl) ↔
        EachStep (Step host) (World.deployed balances) actions SubmitsRegistrant := by
  have tracked_iff : Along (Step host) (World.deployed balances) actions ControlTracked ↔
      EachStep (Step host) (World.deployed balances) actions SubmitsRegistrant :=
    run.along_iff_eachStep (I := ControlTracked) (step_deterministic host)
      (deployed_controlTracked balances) (fun _ _ _ tracked => tracked)
      (fun _ _ _ _ reached tracked guarded step =>
        (controlTracked_step reached tracked step).mpr guarded)
      (fun _ _ _ _ reached tracked step kept =>
        (controlTracked_step reached tracked step).mp kept)
  constructor
  · exact fun both => tracked_iff.mp both.1
  · intro guarded
    refine ⟨tracked_iff.mpr guarded, ?_⟩
    intro history action below state reached
    exact updateKeepsControl_of_submitsRegistrant (guarded history action below state reached)

/-- Registering alone keeps the holder. -/
theorem control_along_registered :
    Along (Step exampleHost) (World.deployed fun _ _ => 0)
      [.call exampleEnv (.init exampleAdmin MIN_MAX_EVENTS),
        .call exampleEnv (.registerContract exampleAdmin exampleId exampleMeta)]
      ControlTracked :=
  ((control_along_iff exampleRegistered_run).mpr
    (EachStep.of_forall (by simp [SubmitsRegistrant]))).1

def handingMeta : ContractMeta :=
  { exampleMeta with abiVersion := 1, registeredBy := exampleClaimant }

def handingActions : List (Action exampleHost) :=
  [.call exampleEnv (.init exampleAdmin MIN_MAX_EVENTS),
    .call exampleEnv (.registerContract exampleAdmin exampleId exampleMeta),
    .call exampleEnv (.updateContract exampleAdmin exampleId handingMeta)]

/-- An update that names another registrant hands the entry to it. -/
theorem update_breaks_control :
    ∃ final, Run (Step exampleHost) (World.deployed fun _ _ => 0) handingActions final ∧
      ¬ ControlTracked handingActions final := by
  have allowed : mayUpdate exampleRegistered exampleAdmin exampleId
      (registeredMeta exampleEnv exampleMeta) = true := by
    simp [mayUpdate, exampleRegistered_admin, exampleRegistered_unclaimed, canUpdateEntry,
      canModifyEntry]
  have updated : Step exampleHost exampleRegistered
      (.call exampleEnv (.updateContract exampleAdmin exampleId handingMeta)) _ :=
    updateContract_ok.mpr ⟨exampleEnv_authorized 1, exampleRegistered_paused, _,
      exampleRegistered_live, by simp [exampleRegistered_admin], allowed, rfl, rfl, rfl⟩
  refine ⟨_, exampleRegistered_run.snoc updated, fun tracked => ?_⟩
  have registrant := (tracked exampleId).registrant
  rw [show holder exampleId handingActions = some exampleAdmin by decide] at registrant
  simp only [entryOf, World.publish_storage, World.put_storage, ne_eq, reduceCtorEq,
    not_false_eq_true, Store.put_of_ne, Store.put_same, Option.map_some] at registrant
  exact absurd (Option.some.inj registrant) (by decide)

end SorobanExplorer.Contract
