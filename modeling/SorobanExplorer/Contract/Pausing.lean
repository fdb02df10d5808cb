import SorobanExplorer.Contract.Deployment
import SorobanExplorer.Contract.Footprint

/-!
Owns the pause switch: while the explorer is paused and nobody unpauses it,
every step leaves the registry keys, the event log and `EventSeq` alone.
-/

namespace SorobanExplorer.Contract

open Library

variable {host : Host}

def frozenKeys : Set DataKey :=
  { key | match key with
    | .contract _ | .contractVersion _ | .ownership _ | .deployer _ | .contractDeposit _
    | .eventLog _ | .eventSeq => True
    | _ => False }

def Action.isUnpause : Action host → Bool
  | .call _ (.unpause _) => true
  | _ => false

theorem frozenKeys_compl_configuration {key : DataKey} (frozen : key ∈ frozenKeys) :
    key ∈ configurationKeysᶜ := by
  intro inside
  cases key <;> first | exact inside | exact frozen

section Steps

variable {before after : World} {action : Action host}

theorem Step.admin_isSome (step : Step host before action after)
    (adminSet : (before.storage .admin).isSome = true) :
    (after.storage .admin).isSome = true := by
  have kept : before.storage .admin = after.storage .admin →
      (after.storage .admin).isSome = true := fun same => same ▸ adminSet
  cases step.transition with
  | others | read => exact adminSet
  | configured _ _ _ stays => exact stays.2
  | initialized ok =>
    obtain ⟨_, _, _, _, _, rfl⟩ := init_ok.mp ok
    simp
  | resized ok =>
    obtain ⟨_, _, _, rfl⟩ := setMaxEvents_ok.mp ok
    exact kept (by simp)
  | paused ok | unpaused ok =>
    obtain ⟨_, _, rfl⟩ := setPaused_ok.mp ok
    exact kept (by simp)
  | registered | updated | deregistered | attested | claimed =>
    exact kept (registry_frame rfl step .admin id)
  | submitted ok => exact kept (submitEvent_frame ok .admin id)
  | submittedBatch ok => exact kept (submitEvents_frame ok .admin id)

theorem Step.unpaused_without_admin (step : Step host before action after)
    (unpaused : isPaused before = false) :
    (after.storage .admin).isSome = true ∨ isPaused after = false := by
  have kept : before.storage .paused = after.storage .paused → isPaused after = false := by
    intro same
    rwa [isPaused, ← same]
  cases step.transition with
  | others | read => exact Or.inr unpaused
  | configured _ _ _ stays => exact Or.inl stays.2
  | initialized ok =>
    obtain ⟨_, _, _, _, _, rfl⟩ := init_ok.mp ok
    exact Or.inl (by simp)
  | resized ok =>
    obtain ⟨_, _, _, rfl⟩ := setMaxEvents_ok.mp ok
    exact Or.inr (kept (by simp))
  | paused ok | unpaused ok =>
    obtain ⟨_, stored, rfl⟩ := setPaused_ok.mp ok
    exact Or.inl (by simp [stored])
  | registered | updated | deregistered | attested | claimed =>
    exact Or.inr (kept (registry_frame rfl step .paused id))
  | submitted ok => exact Or.inr (kept (submitEvent_frame ok .paused id))
  | submittedBatch ok => exact Or.inr (kept (submitEvents_frame ok .paused id))

theorem Step.frozen (step : Step host before action after)
    (adminSet : (before.storage .admin).isSome = true) (paused : isPaused before = true)
    (notUnpause : action.isUnpause = false) :
    Store.AgreeOn frozenKeys before.storage after.storage ∧ isPaused after = true := by
  have start := Store.AgreeOn.refl frozenKeys before.storage
  -- Every writing entrypoint of the registry and the event log checks the flag.
  have checked : isPaused before = false → False := by simp [paused]
  cases step.transition with
  | others | read => exact ⟨start, paused⟩
  | configured _ frame =>
    refine ⟨fun key frozen => frame key (frozenKeys_compl_configuration frozen), ?_⟩
    rwa [isPaused, ← frame .paused id]
  | initialized ok =>
    obtain ⟨unset, _⟩ := init_ok.mp ok
    rw [unset] at adminSet
    cases adminSet
  | resized ok =>
    obtain ⟨_, _, _, rfl⟩ := setMaxEvents_ok.mp ok
    exact ⟨start.put_right id _, by simpa [isPaused] using paused⟩
  | paused ok =>
    obtain ⟨_, _, rfl⟩ := setPaused_ok.mp ok
    exact ⟨start.put_right id _, by simp [isPaused]⟩
  | unpaused => cases notUnpause
  | registered ok => exact (checked (registerContract_ok.mp ok).2.1).elim
  | updated ok => exact (checked (updateContract_ok.mp ok).2.1).elim
  | deregistered ok => exact (checked (deregisterContract_ok.mp ok).2.1).elim
  | attested ok => exact (checked (attestDeployer_ok.mp ok).2.1).elim
  | claimed ok => exact (checked (claimContract_ok.mp ok).1).elim
  | submitted ok => exact (checked (submitEvent_ok.mp ok).2.2.1).elim
  | submittedBatch ok => exact (checked (submitEvents_ok.mp ok).2.1).elim

end Steps

/-! ### Runs -/

section Runs

variable {balances : Balances} {history continuation : List (Action host)} {paused final : World}

theorem reachable_admin_or_unpaused
    (reached : Run (Step host) (World.deployed balances) history final) :
    (final.storage .admin).isSome = true ∨ isPaused final = false := by
  refine reached.invariant (P := fun state =>
    (state.storage .admin).isSome = true ∨ isPaused state = false) (Or.inr rfl) ?_
  rintro before action after (adminSet | unpaused) step
  · exact Or.inl (step.admin_isSome adminSet)
  · exact step.unpaused_without_admin unpaused

/-- Whatever is called after a pause, the frozen keys keep their values until
somebody unpauses. -/
theorem pause_freezes (reached : Run (Step host) (World.deployed balances) history paused)
    (isPaused_paused : isPaused paused = true) (continued : Run (Step host) paused continuation final)
    (noUnpause : ∀ action ∈ continuation, action.isUnpause = false) :
    Store.AgreeOn frozenKeys paused.storage final.storage := by
  have adminSet : (paused.storage .admin).isSome = true := by
    rcases reachable_admin_or_unpaused reached with adminSet | unpaused
    · exact adminSet
    · rw [isPaused_paused] at unpaused
      cases unpaused
  -- The frame, the flag and the admin are carried along the continuation together.
  suffices frozen : (∀ action ∈ continuation, action.isUnpause = false) →
      Store.AgreeOn frozenKeys paused.storage final.storage ∧ isPaused final = true ∧
        (final.storage .admin).isSome = true from (frozen noUnpause).1
  refine continued.induct (P := fun actions state =>
    (∀ action ∈ actions, action.isUnpause = false) →
      Store.AgreeOn frozenKeys paused.storage state.storage ∧ isPaused state = true ∧
        (state.storage .admin).isSome = true) ?_ ?_
  · exact fun _ => ⟨Store.AgreeOn.refl _ _, isPaused_paused, adminSet⟩
  · intro earlier action before after _ ih step none
    obtain ⟨frozen, stillPaused, stillSet⟩ :=
      ih fun action member => none action (List.mem_append_left _ member)
    have notUnpause := none action (by simp)
    obtain ⟨agree, flag⟩ := step.frozen stillSet stillPaused notUnpause
    exact ⟨frozen.trans agree, flag, step.admin_isSome stillSet⟩

end Runs

/-- A paused explorer whose admin hands over. -/
theorem pause_freezes_handover :
    Store.AgreeOn frozenKeys
      ((exampleStart.put .paused true).publish .paused).storage
      ((((exampleStart.put .paused true).publish .paused).put .admin exampleClaimant).publish
        (.admXfer exampleAdmin exampleClaimant)).storage := by
  have authorized : exampleEnv.authorized exampleAdmin = true := exampleEnv_authorized 1
  have paused : Step exampleHost exampleStart (.call exampleEnv (.pause exampleAdmin))
      ((exampleStart.put .paused true).publish .paused) :=
    setPaused_ok.mpr ⟨authorized, initialized_admin, rfl⟩
  have handed : Step exampleHost ((exampleStart.put .paused true).publish .paused)
      (.call exampleEnv (.transferAdmin exampleAdmin exampleClaimant)) _ :=
    transferAdmin_ok.mpr ⟨authorized, by simp [exampleStart], rfl⟩
  exact pause_freezes (exampleStart_run.snoc paused) (by simp [isPaused]) (Run.one handed)
    (by simp [Action.isUnpause])

end SorobanExplorer.Contract
