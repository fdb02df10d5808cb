import SorobanExplorer.Contract.History
import Mathlib.Algebra.BigOperators.Finprod
import Mathlib.Algebra.BigOperators.Pi

/-!
Owns the registration deposits: what a step does to the deposit records and to
the explorer's balances, and when the explorer holds exactly what the records
say. A deregistration by somebody else than the registrant pays the treasury;
without a treasury the record goes and the tokens stay.
-/

namespace SorobanExplorer.Contract

open Library

variable {host : Host}

/-! ### What the records say -/

def depositIn (token : Address) : Option DepositRecord → Int
  | some deposit => if deposit.token = token then deposit.amount else 0
  | none => 0

noncomputable def depositTotal (storage : Storage) (token : Address) : Int :=
  finsum fun id => depositIn token (storage (.contractDeposit id))

def Solvent (host : Host) (world : World) : Prop :=
  ∀ token, world.balances token host.self = depositTotal world.storage token

instance : Finite ContractId := by
  refine Finite.of_injective (fun (id : ContractId) (index : Fin 32) => id[index].toFin) ?_
  intro left right same
  refine Vector.ext fun index below => ?_
  exact UInt8.toFin_inj.mp (congrFun same ⟨index, below⟩)

theorem finsum_change {κ : Type} [Finite κ] {first second : κ → Int} {index : κ}
    (elsewhere : ∀ other, other ≠ index → second other = first other) :
    finsum second = finsum first - first index + second index := by
  classical
  have := Fintype.ofFinite κ
  rw [finsum_eq_sum_of_fintype, finsum_eq_sum_of_fintype,
    ← Finset.add_sum_erase _ first (Finset.mem_univ index),
    ← Finset.add_sum_erase _ second (Finset.mem_univ index)]
  have rest : (Finset.univ.erase index).sum second = (Finset.univ.erase index).sum first :=
    Finset.sum_congr rfl fun other member => elsewhere other (Finset.ne_of_mem_erase member)
  rw [rest, add_sub_cancel_left, add_comm]

theorem depositTotal_change {before after : Storage} {id : ContractId} (token : Address)
    (elsewhere : ∀ other, other ≠ id →
      after (.contractDeposit other) = before (.contractDeposit other)) :
    depositTotal after token = depositTotal before token -
      depositIn token (before (.contractDeposit id)) +
        depositIn token (after (.contractDeposit id)) :=
  finsum_change fun other ne => by rw [elsewhere other ne]

/-! ### What a step does to the deposits -/

/-- A deregistration, if the action is one that removes a deposit, pays it out:
the caller is the registrant, or a treasury other than the explorer is set. -/
def DepositHasPayee (host : Host) (before : World) : Action host → Prop
  | .call _ (.deregisterContract caller id) =>
    ∀ existing deposit, getContract before id = some existing →
      before.storage (.contractDeposit id) = some deposit →
        caller = existing.registeredBy ∨
          ∃ treasury, before.storage .registrationTreasury = some treasury ∧
            treasury ≠ host.self
  | _ => True

/-- The deposit record of `id` is the only one a step touches. -/
def OnlyDeposit (before after : World) (id : ContractId) : Prop :=
  ∀ other, other ≠ id →
    after.storage (.contractDeposit other) = before.storage (.contractDeposit other)

inductive DepositStep (host : Host) (before : World) : Action host → World → Prop
  | moved (balances : Balances) :
      DepositStep host before (.others balances) { before with balances }
  | quiet {env : Env host} {entrypoint : Entrypoint} {after : World}
      (records : ∀ id, after.storage (.contractDeposit id) = before.storage (.contractDeposit id))
      (funds : after.balances = before.balances)
      (admitted : DepositHasPayee host before (.call env entrypoint)) :
      DepositStep host before (.call env entrypoint) after
  | taken {env : Env host} {caller token : Address} {id : ContractId} {details : ContractMeta}
      {amount : Int} {after : World} (positive : 0 < amount) (outsider : caller ≠ host.self)
      (absent : before.storage (.contractDeposit id) = none)
      (recorded : after.storage (.contractDeposit id) = some ⟨amount, token⟩)
      (only : OnlyDeposit before after id)
      (funds : after.balances = before.balances.move token caller host.self amount) :
      DepositStep host before (.call env (.registerContract caller id details)) after
  | released {env : Env host} {caller : Address} {id : ContractId} {existing : ContractMeta}
      {deposit : DepositRecord} {after : World} (outsider : caller ≠ host.self)
      (registered : getContract before id = some existing)
      (recorded : before.storage (.contractDeposit id) = some deposit)
      (gone : after.storage (.contractDeposit id) = none)
      (only : OnlyDeposit before after id)
      (funds : after.balances = match payee before caller existing.registeredBy with
        | some recipient =>
          before.balances.move deposit.token host.self recipient deposit.amount
        | none => before.balances) :
      DepositStep host before (.call env (.deregisterContract caller id)) after

theorem Env.authorized_ne_self {env : Env host} {caller : Address}
    (authorized : env.authorized caller = true) : caller ≠ host.self := by
  rintro rfl
  rw [env.self_unauthorized] at authorized
  cases authorized

theorem registerContract_deposit (exact_transfers : ExactTransfers host) {env : Env host}
    {caller : Address} {id : ContractId} {details : ContractMeta} {before after : World}
    (clean : before.storage (.contract id) = none → before.storage (.contractDeposit id) = none)
    (ok : registerContract env caller id details before = .ok ((), after)) :
    DepositStep host before (.call env (.registerContract caller id details)) after := by
  obtain ⟨authorized, _, _, absent, _, paid, taken, rfl⟩ := registerContract_ok.mp ok
  rcases takeDeposit_ok.mp taken with ⟨_, rfl⟩ | ⟨positive, token, balances, _, moved, rfl⟩
  · exact .quiet (fun other => by simp) rfl trivial
  · refine .taken positive (Env.authorized_ne_self authorized) (clean absent) (by simp)
      (fun other ne => ?_) (exact_transfers _ _ _ _ _ _ moved)
    simp [ne]

theorem deregisterContract_funds (exact_transfers : ExactTransfers host) {env : Env host}
    {caller : Address} {id : ContractId} {existing : ContractMeta} {before after : World}
    (registered : getContract before id = some existing)
    (ok : deregisterContract env caller id before = .ok ((), after)) :
    after.balances = match before.storage (.contractDeposit id) with
      | some deposit =>
        match payee before caller existing.registeredBy with
        | some recipient =>
          before.balances.move deposit.token host.self recipient deposit.amount
        | none => before.balances
      | none => before.balances := by
  obtain ⟨_, _, found, live, _, _, released, release, rfl⟩ := deregisterContract_ok.mp ok
  cases registered.symm.trans live
  rw [releaseDeposit_ok] at release
  cases recorded : before.storage (.contractDeposit id) with
  | none =>
    rw [recorded] at release
    have unpaid : released = before := release
    rw [unpaid]
  | some deposit =>
    rw [recorded] at release
    obtain ⟨paid, payment, rfl⟩ := release
    rw [payOutDeposit_ok] at payment
    cases named : payee before caller existing.registeredBy with
    | none =>
      rw [named] at payment
      have unpaid : paid = before := payment
      rw [unpaid]
      rfl
    | some recipient =>
      rw [named] at payment
      obtain ⟨balances, moved, rfl⟩ := payment
      exact exact_transfers _ _ _ _ _ _ moved

theorem deregisterContract_deposit (exact_transfers : ExactTransfers host) {env : Env host}
    {caller : Address} {id : ContractId} {before after : World}
    (ok : deregisterContract env caller id before = .ok ((), after)) :
    DepositStep host before (.call env (.deregisterContract caller id)) after := by
  obtain ⟨existing, registered, stored⟩ := deregisterContract_storage ok
  have records (other : ContractId) : after.storage (.contractDeposit other) =
      before.storage.erase (.contractDeposit id) (.contractDeposit other) := by
    rw [stored, Store.eraseAll_of_notMem _ (by simp)]
    simp
  have authorized := (deregisterContract_ok.mp ok).1
  have funds := deregisterContract_funds exact_transfers registered ok
  cases recorded : before.storage (.contractDeposit id) with
  | none =>
    rw [recorded] at funds
    refine .quiet (fun other => ?_) funds ?_
    · rw [records, Store.erase_eq_self recorded]
    · intro _ deposit _ present
      rw [recorded] at present
      cases present
  | some deposit =>
    rw [recorded] at funds
    refine .released (Env.authorized_ne_self authorized) registered recorded ?_ ?_ funds
    · rw [records, Store.erase_same]
    · intro other ne
      rw [records, Store.erase_of_ne _ (by simpa using ne)]

theorem depositKey (id : ContractId) : DataKey.contractDeposit id ∈ registryKeys := trivial

theorem claimContract_funds {env : Env host} {id : ContractId} {claimant : Address}
    {method : VerifyMethod} {before after : World}
    (ok : claimContract env id claimant before = .ok (method, after)) :
    after.balances = before.balances := by
  obtain ⟨_, details, _, _, _, _, handed, handing, rfl⟩ := claimContract_ok.mp ok
  rw [handOver_ok] at handing
  subst handing
  split <;> rfl

theorem withEvents_balances {world : World} {max : UInt32} {items : List (UInt64 × EventInput)} :
    (world.withEvents max items).balances = world.balances := by
  induction items generalizing world with
  | nil => rfl
  | cons item rest ih => exact ih

theorem Step.deposit (exact_transfers : ExactTransfers host) {before after : World}
    {action : Action host}
    (clean : ∀ id, before.storage (.contract id) = none →
      before.storage (.contractDeposit id) = none)
    (step : Step host before action after) : DepositStep host before action after := by
  cases step.transition with
  | others balances => exact .moved balances
  | read isRead =>
    rename_i env entrypoint
    refine .quiet (fun _ => rfl) rfl ?_
    cases entrypoint <;> first | exact trivial | cases isRead
  | configured isConfiguration frame funds adminSet =>
    rename_i env entrypoint
    refine .quiet (fun id => (frame (.contractDeposit id) ?_).symm) funds ?_
    · exact registryKeys_compl_configuration (depositKey id)
    · cases entrypoint <;> first | exact trivial | cases isConfiguration
  | initialized ok =>
    obtain ⟨_, _, _, _, _, rfl⟩ := init_ok.mp ok
    exact .quiet (fun id => by simp) rfl trivial
  | resized ok =>
    obtain ⟨_, _, _, rfl⟩ := setMaxEvents_ok.mp ok
    exact .quiet (fun id => by simp) rfl trivial
  | paused ok | unpaused ok =>
    obtain ⟨_, _, rfl⟩ := setPaused_ok.mp ok
    exact .quiet (fun id => by simp) rfl trivial
  | registered ok => exact registerContract_deposit exact_transfers (clean _) ok
  | updated ok =>
    obtain ⟨_, _, _, _, _, _, _, _, rfl⟩ := updateContract_ok.mp ok
    exact .quiet (fun id => by simp) rfl trivial
  | deregistered ok => exact deregisterContract_deposit exact_transfers ok
  | attested ok =>
    obtain ⟨_, _, _, rfl⟩ := attestDeployer_ok.mp ok
    exact .quiet (fun id => by simp) rfl trivial
  | claimed ok =>
    obtain ⟨_, _, _, stored⟩ := claimContract_storage ok
    exact .quiet (fun id => by simp [stored]) (claimContract_funds ok) trivial
  | submitted ok =>
    refine .quiet (fun id => (submitEvent_frame ok (.contractDeposit id) ?_).symm) ?_ trivial
    · exact registryKeys_compl_event (depositKey id)
    · obtain ⟨_, _, _, _, _, _, rfl⟩ := submitEvent_ok.mp ok
      rfl
  | submittedBatch ok =>
    refine .quiet (fun id => (submitEvents_frame ok (.contractDeposit id) ?_).symm) ?_ trivial
    · exact registryKeys_compl_event (depositKey id)
    · obtain ⟨_, _, _, _, _, _, _, _, rfl⟩ := submitEvents_ok.mp ok
      exact withEvents_balances

/-! ### Solvency -/

def DepositsPositive (world : World) : Prop :=
  ∀ id deposit, world.storage (.contractDeposit id) = some deposit → 0 < deposit.amount

section Steps

variable {before after : World} {action : Action host}

theorem DepositStep.positive (step : DepositStep host before action after)
    (positive : DepositsPositive before) : DepositsPositive after := by
  cases step with
  | moved => exact positive
  | quiet records =>
    intro id deposit recorded
    exact positive id deposit (records id ▸ recorded)
  | @taken env caller token id details amount _ amount_positive outsider absent recorded only =>
    intro other deposit present
    by_cases same : other = id
    · subst same
      rw [recorded] at present
      cases present
      exact amount_positive
    · exact positive other deposit (only other same ▸ present)
  | @released env caller id existing deposit _ outsider registered recorded gone only =>
    intro other record present
    by_cases same : other = id
    · subst same
      rw [gone] at present
      cases present
    · exact positive other record (only other same ▸ present)

theorem depositHasPayee_iff {env : Env host} {caller : Address} {id : ContractId}
    {existing : ContractMeta} {deposit : DepositRecord} (outsider : caller ≠ host.self)
    (registered : getContract before id = some existing)
    (recorded : before.storage (.contractDeposit id) = some deposit) :
    DepositHasPayee host before (.call env (.deregisterContract caller id)) ↔
      ∃ recipient, payee before caller existing.registeredBy = some recipient ∧
        recipient ≠ host.self := by
  have named : (caller = existing.registeredBy ∨ ∃ treasury,
      before.storage .registrationTreasury = some treasury ∧ treasury ≠ host.self) ↔
        ∃ recipient, payee before caller existing.registeredBy = some recipient ∧
          recipient ≠ host.self := by
    unfold payee
    by_cases own : caller = existing.registeredBy
    · simp only [own, true_or, ↓reduceIte, true_iff]
      exact ⟨existing.registeredBy, rfl, own ▸ outsider⟩
    · simp [own]
  rw [← named]
  constructor
  · exact fun admitted => admitted existing deposit registered recorded
  · intro has entry record live _
    rw [registered] at live
    cases live
    exact has

theorem released_funds {caller registrant : Address} {deposit : DepositRecord}
    (funds : after.balances = match payee before caller registrant with
      | some recipient => before.balances.move deposit.token host.self recipient deposit.amount
      | none => before.balances) :
    (∃ recipient, payee before caller registrant = some recipient ∧ recipient ≠ host.self ∧
      after.balances = before.balances.move deposit.token host.self recipient deposit.amount) ∨
      ((¬ ∃ recipient, payee before caller registrant = some recipient ∧ recipient ≠ host.self) ∧
        after.balances = before.balances) := by
  cases named : payee before caller registrant with
  | none =>
    rw [named] at funds
    exact Or.inr ⟨by simp, funds⟩
  | some recipient =>
    rw [named] at funds
    by_cases toSelf : recipient = host.self
    · subst toSelf
      exact Or.inr ⟨by simp, funds.trans Balances.move_self⟩
    · exact Or.inl ⟨recipient, rfl, toSelf, funds⟩

def Undisturbed (host : Host) (before : World) : Action host → Prop
  | .others balances => ∀ token, balances token host.self = before.balances token host.self
  | .call _ _ => True

theorem DepositStep.solvent_iff (step : DepositStep host before action after)
    (undisturbed : Undisturbed host before action) (positive : DepositsPositive before)
    (solvent : Solvent host before) : Solvent host after ↔ DepositHasPayee host before action := by
  cases step with
  | moved balances =>
    refine iff_of_true (fun token => ?_) trivial
    exact (undisturbed token).trans (solvent token)
  | quiet records funds admitted =>
    refine iff_of_true (fun token => ?_) admitted
    rw [funds, solvent token, depositTotal, depositTotal]
    simp only [records]
  | @taken env caller token id details amount _ _ outsider absent recorded only funds =>
    refine iff_of_true (fun other => ?_) trivial
    rw [depositTotal_change other only, absent, recorded, ← solvent other, funds]
    by_cases same : other = token
    · subst same
      rw [Balances.move_recipient outsider]
      simp [depositIn]
    · rw [Balances.move_other same]
      simp [depositIn, Ne.symm same]
  | @released env caller id existing deposit _ outsider registered recorded gone only funds =>
    have total (token : Address) : depositTotal after.storage token =
        before.balances token host.self - depositIn token (some deposit) := by
      rw [depositTotal_change token only, recorded, gone, solvent token]
      simp [depositIn]
    rw [depositHasPayee_iff outsider registered recorded]
    rcases released_funds funds with ⟨recipient, named, other, paid⟩ | ⟨unnamed, kept⟩
    · refine iff_of_true (fun token => ?_) ⟨recipient, named, other⟩
      rw [total, paid]
      by_cases same : token = deposit.token
      · subst same
        rw [Balances.move_sender other.symm]
        simp [depositIn]
      · rw [Balances.move_other same]
        simp [depositIn, Ne.symm same]
    · refine iff_of_false (fun stays => ?_) unnamed
      -- The record is gone but its tokens are still here.
      have short := stays deposit.token
      rw [total, kept] at short
      have worth := positive id deposit recorded
      simp only [depositIn, ↓reduceIte] at short
      omega

def PaidOut (host : Host) (before after : World) : Prop :=
  ∀ id deposit, before.storage (.contractDeposit id) = some deposit →
    after.storage (.contractDeposit id) = none →
      ∃! recipient, recipient ≠ host.self ∧
        after.balances = before.balances.move deposit.token host.self recipient deposit.amount

theorem DepositStep.paidOut_iff (step : DepositStep host before action after)
    (positive : DepositsPositive before) :
    PaidOut host before after ↔ DepositHasPayee host before action := by
  cases step with
  | moved =>
    refine iff_of_true (fun id deposit recorded gone => ?_) trivial
    rw [recorded] at gone
    cases gone
  | quiet records _ admitted =>
    refine iff_of_true (fun id deposit recorded gone => ?_) admitted
    rw [records, recorded] at gone
    cases gone
  | @taken env caller token id details amount _ _ outsider absent present only funds =>
    refine iff_of_true (fun other deposit recorded gone => ?_) trivial
    by_cases same : other = id
    · subst same
      rw [absent] at recorded
      cases recorded
    · rw [only other same, recorded] at gone
      cases gone
  | @released env caller id existing deposit _ outsider registered recorded gone only funds =>
    have worth := positive id deposit recorded
    rw [depositHasPayee_iff outsider registered recorded]
    rcases released_funds funds with ⟨recipient, named, other, paid⟩ | ⟨unnamed, kept⟩
    · refine iff_of_true (fun removed record present vanished => ?_) ⟨recipient, named, other⟩
      have same : removed = id := by
        by_contra ne
        rw [only removed ne, present] at vanished
        cases vanished
      subst same
      rw [recorded] at present
      cases present
      refine ⟨recipient, ⟨other, paid⟩, ?_⟩
      rintro another ⟨notSelf, alsoPaid⟩
      exact Balances.move_recipient_inj (Int.ne_of_gt worth) notSelf (alsoPaid.symm.trans paid)
    · refine iff_of_false (fun paysOut => ?_) unnamed
      obtain ⟨recipient, ⟨notSelf, paid⟩, _⟩ := paysOut id deposit recorded gone
      -- Nothing has left the explorer's account.
      have unpaid := congrFun (congrFun (kept.symm.trans paid) deposit.token) host.self
      rw [Balances.move_sender notSelf.symm] at unpaid
      omega

end Steps

/-! ### Runs -/

def UndisturbedStep (host : Host) (before : World) (action : Action host) (after : World) : Prop :=
  Step host before action after ∧ Undisturbed host before action

theorem undisturbedStep_deterministic (host : Host) : Deterministic (UndisturbedStep host) :=
  fun before action first second left right =>
    step_deterministic host before action first second left.1 right.1

section Runs

variable {balances : Balances} {history : List (Action host)} {world after : World}
  {action : Action host}

theorem reachable_depositClean
    (reached : Run (Step host) (World.deployed balances) history world) (id : ContractId)
    (absent : world.storage (.contract id) = none) :
    world.storage (.contractDeposit id) = none :=
  ((Run.historyComplete (fun _ => rfl) reached id).clean absent).2.2

theorem reachable_depositStep (exact_transfers : ExactTransfers host)
    (reached : Run (Step host) (World.deployed balances) history world)
    (step : Step host world action after) : DepositStep host world action after :=
  step.deposit exact_transfers (reachable_depositClean reached)

theorem reachable_depositsPositive (exact_transfers : ExactTransfers host)
    (reached : Run (Step host) (World.deployed balances) history world) :
    DepositsPositive world := by
  refine reached.induct (P := fun _ state => DepositsPositive state) ?_ ?_
  · intro id deposit recorded
    cases recorded
  · intro _ action before after earlier positive step
    exact (reachable_depositStep exact_transfers earlier step).positive positive

theorem deployed_solvent (unfunded : ∀ token, balances token host.self = 0) :
    Solvent host (World.deployed balances) := by
  intro token
  simp [World.deployed, depositTotal, depositIn, unfunded token]

theorem solvent_along (exact_transfers : ExactTransfers host)
    (unfunded : ∀ token, balances token host.self = 0) {actions : List (Action host)}
    (each : EachStep (UndisturbedStep host) (World.deployed balances) actions
      (DepositHasPayee host)) :
    Along (UndisturbedStep host) (World.deployed balances) actions
      fun _ world => Solvent host world :=
  each.along (deployed_solvent unfunded) fun _ _ _ _ reached solvent guarded step =>
    have earlier := reached.mono fun _ _ _ step => step.1
    ((reachable_depositStep exact_transfers earlier step.1).solvent_iff step.2
      (reachable_depositsPositive exact_transfers earlier) solvent).mpr guarded

/-- In an undisturbed run with exact tokens the explorer holds exactly the
recorded deposits throughout, and every removed deposit is paid out to exactly
one recipient, if and only if every deregistration of an entry with a deposit
is made by the registrant or has a treasury to pay. -/
theorem solvent_along_iff (exact_transfers : ExactTransfers host)
    (unfunded : ∀ token, balances token host.self = 0) {actions : List (Action host)}
    {final : World} (run : Run (UndisturbedStep host) (World.deployed balances) actions final) :
    (Along (UndisturbedStep host) (World.deployed balances) actions
        (fun _ world => Solvent host world) ↔
      EachStep (UndisturbedStep host) (World.deployed balances) actions (DepositHasPayee host)) ∧
    (EachStep (UndisturbedStep host) (World.deployed balances) actions
        (fun before action => ∀ after, Step host before action after →
          PaidOut host before after) ↔
      EachStep (UndisturbedStep host) (World.deployed balances) actions
        (DepositHasPayee host)) := by
  have weaken {labels : List (Action host)} {state : World}
      (reached : Run (UndisturbedStep host) (World.deployed balances) labels state) :
      Run (Step host) (World.deployed balances) labels state :=
    reached.mono fun _ _ _ step => step.1
  have exact_step {labels : List (Action host)} {label : Action host} {before after : World}
      (reached : Run (UndisturbedStep host) (World.deployed balances) labels before)
      (solvent : Solvent host before) (step : UndisturbedStep host before label after) :
      Solvent host after ↔ DepositHasPayee host before label :=
    (reachable_depositStep exact_transfers (weaken reached) step.1).solvent_iff step.2
      (reachable_depositsPositive exact_transfers (weaken reached)) solvent
  constructor
  · exact run.along_iff_eachStep (I := fun _ world => Solvent host world)
      (undisturbedStep_deterministic host) (deployed_solvent unfunded)
      (fun _ _ _ solvent => solvent)
      (fun _ _ _ _ reached solvent guarded step => (exact_step reached solvent step).mpr guarded)
      (fun _ _ _ _ reached solvent step kept => (exact_step reached solvent step).mp kept)
  · have each {labels : List (Action host)} {label : Action host} {before after : World}
        (reached : Run (UndisturbedStep host) (World.deployed balances) labels before)
        (step : Step host before label after) :
        PaidOut host before after ↔ DepositHasPayee host before label :=
      (reachable_depositStep exact_transfers (weaken reached) step).paidOut_iff
        (reachable_depositsPositive exact_transfers (weaken reached))
    constructor
    · intro paid labels label below before reached
      obtain ⟨after, whole⟩ := run.prefix_exists below
      obtain ⟨before', earlier, taken⟩ := whole.snoc_inv
      cases Run.deterministic (undisturbedStep_deterministic host) reached earlier
      exact (each reached taken.1).mp (paid labels label below before reached after taken.1)
    · intro guarded labels label below before reached after step
      exact (each reached step).mpr (guarded labels label below before reached)

end Runs

/-! ### A deposit without a payee -/

def fundedBalances : Balances := fun _ holder => if holder = exampleAdmin then 100 else 0

def exampleToken : Address := .contract (Vector.replicate 32 3)

def pricedWorld : World :=
  ((World.initialized fundedBalances exampleAdmin MIN_MAX_EVENTS).put
    .registrationDepositAmount 10).put .registrationDepositToken exampleToken

def entrustedMeta : ContractMeta := { exampleMeta with registeredBy := exampleClaimant }

def depositActions : List (Action exampleHost) :=
  [.call exampleEnv (.init exampleAdmin MIN_MAX_EVENTS),
    .call exampleEnv (.setRegistrationDeposit exampleAdmin 10 exampleToken),
    .call exampleEnv (.registerContract exampleAdmin exampleId entrustedMeta)]

theorem deposit_run : ∃ world,
    Run (UndisturbedStep exampleHost) (World.deployed fundedBalances) depositActions world ∧
      isPaused world = false ∧ world.storage .admin = some exampleAdmin ∧
        getContract world exampleId = some (registeredMeta exampleEnv entrustedMeta) ∧
          world.storage (.contractDeposit exampleId) = some ⟨10, exampleToken⟩ ∧
            world.storage .registrationTreasury = none := by
  have authorized : exampleEnv.authorized exampleAdmin = true := exampleEnv_authorized 1
  have started : UndisturbedStep exampleHost (World.deployed fundedBalances)
      (.call exampleEnv (.init exampleAdmin MIN_MAX_EVENTS))
      (World.initialized fundedBalances exampleAdmin MIN_MAX_EVENTS) :=
    ⟨initialized_step (by decide) (by decide), trivial⟩
  have priced : UndisturbedStep exampleHost
      (World.initialized fundedBalances exampleAdmin MIN_MAX_EVENTS)
      (.call exampleEnv (.setRegistrationDeposit exampleAdmin 10 exampleToken)) pricedWorld :=
    ⟨setRegistrationDeposit_ok.mpr ⟨authorized, initialized_admin, by decide, rfl⟩, trivial⟩
  have moves : exampleHost.transfer exampleToken exampleAdmin exampleHost.self 10 fundedBalances =
      some (fundedBalances.move exampleToken exampleAdmin exampleHost.self 10) :=
    Host.exact_transfer (by decide) (by decide)
  have taken : takeDeposit exampleHost exampleAdmin exampleId
      (pricedWorld.put (.contract exampleId) (registeredMeta exampleEnv entrustedMeta)) =
        .ok ((), _) :=
    takeDeposit_ok.mpr (Or.inr ⟨by simp [registrationDepositAmount, pricedWorld], exampleToken, _,
      by simp [pricedWorld], by simpa [registrationDepositAmount, pricedWorld] using moves, rfl⟩)
  have registered : UndisturbedStep exampleHost pricedWorld
      (.call exampleEnv (.registerContract exampleAdmin exampleId entrustedMeta)) _ :=
    ⟨registerContract_ok.mpr ⟨authorized, by
        simp [isPaused, pricedWorld, World.initialized, World.deployed], by simp [pricedWorld], by
        simp [pricedWorld, World.initialized, World.deployed], rfl, _, taken, rfl⟩, trivial⟩
  refine ⟨_, ((Run.one started).snoc priced).snoc registered, ?_, ?_, ?_, ?_, ?_⟩
  · simp [isPaused, pricedWorld, World.initialized, World.deployed]
  · simp [pricedWorld]
  · simp [getContract]
  · simp [registrationDepositAmount, pricedWorld]
  · simp [pricedWorld, World.initialized, World.deployed]

theorem fundedBalances_explorer (token : Address) : fundedBalances token exampleHost.self = 0 :=
  if_neg (by decide)

theorem depositActions_admitted :
    EachStep (UndisturbedStep exampleHost) (World.deployed fundedBalances) depositActions
      (DepositHasPayee exampleHost) := by
  refine EachStep.of_forall fun label member state => ?_
  simp only [depositActions, List.mem_cons, List.not_mem_nil, or_false] at member
  rcases member with rfl | rfl | rfl <;> exact trivial

/-- After the registration the explorer holds the deposit. -/
theorem solvent_along_deposit :
    Along (UndisturbedStep exampleHost) (World.deployed fundedBalances) depositActions
      fun _ world => Solvent exampleHost world := by
  obtain ⟨world, reached, _⟩ := deposit_run
  exact (solvent_along_iff (Host.exact_transfers _) fundedBalances_explorer reached).1.mpr
    depositActions_admitted

/-- The admin deregisters somebody else's contract without a treasury: the
record goes, the tokens stay. -/
theorem deregister_locks_deposit :
    ∃ final, Run (UndisturbedStep exampleHost) (World.deployed fundedBalances)
      (depositActions ++ [.call exampleEnv (.deregisterContract exampleAdmin exampleId)]) final ∧
        ¬ Solvent exampleHost final := by
  obtain ⟨world, reached, unpaused, isAdmin, live, recorded, noTreasury⟩ := deposit_run
  have authorized : exampleEnv.authorized exampleAdmin = true := exampleEnv_authorized 1
  have notRegistrant : exampleAdmin ≠ (registeredMeta exampleEnv entrustedMeta).registeredBy := by
    decide
  have unpaid : payee world exampleAdmin
      (registeredMeta exampleEnv entrustedMeta).registeredBy = none := by
    rw [payee, if_neg notRegistrant, noTreasury]
  have released : releaseDeposit exampleHost exampleAdmin
      (registeredMeta exampleEnv entrustedMeta).registeredBy exampleId world =
        .ok ((), world.erase (.contractDeposit exampleId)) := by
    refine releaseDeposit_ok.mpr ?_
    rw [recorded]
    exact ⟨world, payOutDeposit_ok.mpr (by rw [unpaid]), rfl⟩
  have removed : UndisturbedStep exampleHost world
      (.call exampleEnv (.deregisterContract exampleAdmin exampleId)) _ :=
    ⟨deregisterContract_ok.mpr ⟨authorized, unpaused, _, live, by simp [isAdmin],
      by simp [mayDeregister, canModifyEntry, isAdmin], _, released, rfl⟩, trivial⟩
  have earlier := reached.mono fun _ _ _ step => step.1
  have solvent := solvent_along (Host.exact_transfers _) fundedBalances_explorer
    depositActions_admitted _ (List.prefix_refl _) _ reached
  refine ⟨_, reached.snoc removed, fun stays => ?_⟩
  -- The step would have to have a payee, but it has none.
  have admitted := ((reachable_depositStep (Host.exact_transfers _) earlier removed.1).solvent_iff
    removed.2 (reachable_depositsPositive (Host.exact_transfers _) earlier) solvent).mp stays
  rcases admitted _ _ live recorded with own | ⟨treasury, set, _⟩
  · exact notRegistrant own
  · rw [noTreasury] at set
    cases set

end SorobanExplorer.Contract
