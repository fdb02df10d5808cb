import Mathlib.Logic.Function.Basic
import SorobanExplorer.Library.Run

/-!
Owns the leader election by a lease in Redis: the polls and renewals of any number of
instances, the calls that are on their way to the server and back, and the lease, which
expires by the server's clock. An instance that has been granted the lease takes itself for
the leader until a reply tells it otherwise.

`safe_of_spared` says in which runs there is at most one leader.
-/

namespace SorobanExplorer.Indexer

open Library

namespace LeaderElection

abbrev Index := ℕ

/-- `SET … NX EX`, and the scripts that renew and release. -/
inductive Command where
  | tryAcquire
  | renew
  | release
deriving DecidableEq, Repr

/-- A call of an instance; `reply` is there once the server has served it. -/
structure Call where
  caller : Index
  command : Command
  reply : Option Bool
deriving DecidableEq, Repr

structure Lease where
  instanceId : String
  expires : ℕ
deriving DecidableEq, Repr

structure Config where
  instanceId : Index → String
  leaseTtl : ℕ

structure Cluster where
  now : ℕ
  lease : Option Lease
  isLeader : Index → Bool
  calls : List Call

namespace Cluster

def start : Cluster := ⟨0, none, fun _ => false, []⟩

/-- `GET`: an expired key is gone. -/
def held (cluster : Cluster) : Option String :=
  (cluster.lease.filter fun lease => cluster.now < lease.expires).map Lease.instanceId

def setLeader (cluster : Cluster) (index : Index) (isLeader : Bool) : Cluster :=
  { cluster with isLeader := Function.update cluster.isLeader index isLeader }

def serve (config : Config) (cluster : Cluster) (caller : Index) : Command → Cluster × Bool
  | .tryAcquire =>
    if cluster.held.isNone then
      ({ cluster with
        lease := some ⟨config.instanceId caller, cluster.now + config.leaseTtl⟩ }, true)
    else (cluster, false)
  | .renew =>
    if cluster.held = some (config.instanceId caller) then
      ({ cluster with
        lease := some ⟨config.instanceId caller, cluster.now + config.leaseTtl⟩ }, true)
    else (cluster, false)
  | .release =>
    if cluster.held = some (config.instanceId caller) then
      ({ cluster with lease := none }, true)
    else (cluster, false)

def handle (cluster : Cluster) (caller : Index) : Command → Bool → Cluster
  | .tryAcquire, true => cluster.setLeader caller true
  | .tryAcquire, false => cluster
  | .renew, true => cluster
  | .renew, false => cluster.setLeader caller false
  | .release, _ => cluster.setLeader caller false

def handleError (cluster : Cluster) (caller : Index) : Command → Cluster
  | .tryAcquire => cluster
  | .renew => cluster.setLeader caller false
  | .release => cluster

end Cluster

inductive Action where
  | tick (elapsed : ℕ)
  | call (caller : Index) (command : Command)
  | serve (position : ℕ)
  | reply (position : ℕ)
  | error (position : ℕ)
deriving DecidableEq, Repr

def mayCall (cluster : Cluster) (caller : Index) : Command → Prop
  | .tryAcquire => cluster.isLeader caller = false
  | .renew => cluster.isLeader caller = true
  | .release => cluster.isLeader caller = true

inductive Step (config : Config) : Cluster → Action → Cluster → Prop
  | tick {cluster : Cluster} (elapsed : ℕ) :
      Step config cluster (.tick elapsed) { cluster with now := cluster.now + elapsed }
  | call {cluster : Cluster} (caller : Index) (command : Command)
      (may : mayCall cluster caller command) :
      Step config cluster (.call caller command)
        { cluster with calls := cluster.calls ++ [⟨caller, command, none⟩] }
  | serve {cluster : Cluster} {caller : Index} {command : Command} (position : ℕ)
      (sent : cluster.calls[position]? = some ⟨caller, command, none⟩) :
      Step config cluster (.serve position)
        { (cluster.serve config caller command).1 with
          calls := cluster.calls.set position
            ⟨caller, command, some (cluster.serve config caller command).2⟩ }
  | reply {cluster : Cluster} {caller : Index} {command : Command} {answer : Bool}
      (position : ℕ) (served : cluster.calls[position]? = some ⟨caller, command, some answer⟩) :
      Step config cluster (.reply position)
        { cluster.handle caller command answer with calls := cluster.calls.eraseIdx position }
  | error {cluster : Cluster} {call : Call} (position : ℕ)
      (lost : cluster.calls[position]? = some call) :
      Step config cluster (.error position)
        { cluster.handleError call.caller call.command with
          calls := cluster.calls.eraseIdx position }

/-! ### What is promised -/

def Safe (cluster : Cluster) : Prop :=
  ∀ first second, cluster.isLeader first = true → cluster.isLeader second = true → first = second

def Holds (cluster : Cluster) (index : Index) : Prop :=
  cluster.isLeader index = true ∨ ⟨index, .tryAcquire, some true⟩ ∈ cluster.calls

def Spared (cluster : Cluster) : Action → Prop
  | .serve position => ∀ caller,
      cluster.calls[position]? = some ⟨caller, .tryAcquire, none⟩ → cluster.held = none →
        ∀ other, Holds cluster other → other = caller
  | _ => True

theorem deterministic (config : Config) : Deterministic (Step config) := by
  intro before action first second left right
  cases left with
  | tick => cases right; rfl
  | call => cases right; rfl
  | serve position sent =>
    cases right with
    | serve _ again => cases sent.symm.trans again; rfl
  | reply position served =>
    cases right with
    | reply _ again => cases served.symm.trans again; rfl
  | error position lost =>
    cases right with
    | error _ again => cases lost.symm.trans again; rfl

/-! ### One holder -/

section Steps

variable {config : Config} {before after cluster : Cluster} {action : Action}
  {caller index : Index}

def OneHolder (cluster : Cluster) : Prop :=
  ∀ first second, Holds cluster first → Holds cluster second → first = second

theorem OneHolder.safe (one : OneHolder cluster) : Safe cluster :=
  fun first second left right => one first second (Or.inl left) (Or.inl right)

theorem OneHolder.mono (one : OneHolder before)
    (holds : ∀ index, Holds after index → Holds before index) : OneHolder after :=
  fun first second left right => one first second (holds first left) (holds second right)

theorem isLeader_serve (command : Command) :
    (cluster.serve config caller command).1.isLeader = cluster.isLeader := by
  cases command <;> simp only [Cluster.serve] <;> split_ifs <;> rfl

@[simp] theorem isLeader_setLeader_self (isLeader : Bool) :
    (cluster.setLeader caller isLeader).isLeader caller = isLeader :=
  Function.update_self ..

theorem isLeader_setLeader_of_ne (isLeader : Bool) (distinct : index ≠ caller) :
    (cluster.setLeader caller isLeader).isLeader index = cluster.isLeader index :=
  Function.update_of_ne distinct ..

theorem isLeader_of_setLeader_false
    (leads : (cluster.setLeader caller false).isLeader index = true) :
    cluster.isLeader index = true := by
  by_cases same : index = caller
  · rw [same, isLeader_setLeader_self] at leads
    cases leads
  · rwa [isLeader_setLeader_of_ne false same] at leads

theorem isLeader_of_handleError {command : Command}
    (leads : (cluster.handleError caller command).isLeader index = true) :
    cluster.isLeader index = true := by
  cases command with
  | tryAcquire => exact leads
  | renew => exact isLeader_of_setLeader_false leads
  | release => exact leads

theorem isLeader_of_handle {command : Command} {answer : Bool}
    (leads : (cluster.handle caller command answer).isLeader index = true) :
    cluster.isLeader index = true ∨
      index = caller ∧ command = .tryAcquire ∧ answer = true := by
  match command, answer with
  | .tryAcquire, true =>
    by_cases same : index = caller
    · exact Or.inr ⟨same, rfl, rfl⟩
    · exact Or.inl (isLeader_setLeader_of_ne true same ▸ leads)
  | .tryAcquire, false => exact Or.inl leads
  | .renew, true => exact Or.inl leads
  | .renew, false => exact Or.inl (isLeader_of_setLeader_false leads)
  | .release, _ => exact Or.inl (isLeader_of_setLeader_false leads)

theorem serve_tryAcquire_granted
    (granted : (cluster.serve config caller .tryAcquire).2 = true) : cluster.held = none := by
  simp only [Cluster.serve] at granted
  split_ifs at granted with free
  exact Option.isNone_iff_eq_none.mp free

theorem OneHolder.step (one : OneHolder before) (spared : Spared before action)
    (taken : Step config before action after) : OneHolder after := by
  cases taken with
  | tick => exact one
  | call caller command may =>
    apply one.mono
    rintro index (leads | granted)
    · exact Or.inl leads
    · refine Or.inr ((List.mem_append.mp granted).resolve_right fun new => ?_)
      cases List.mem_singleton.mp new
  | @serve caller command position sent =>
    have holds : ∀ index, Holds { (before.serve config caller command).1 with
        calls := before.calls.set position
          ⟨caller, command, some (before.serve config caller command).2⟩ } index →
        Holds before index ∨ (index = caller ∧ command = .tryAcquire ∧ before.held = none) := by
      rintro index (leads | granted)
      · exact Or.inl (Or.inl (isLeader_serve command ▸ leads))
      · rcases List.mem_or_eq_of_mem_set granted with earlier | new
        · exact Or.inl (Or.inr earlier)
        · injection new with same acquires answer
          subst acquires
          exact Or.inr ⟨same, rfl, serve_tryAcquire_granted (Option.some.inj answer).symm⟩
    intro first second left right
    rcases holds first left with earlier | ⟨rfl, rfl, free⟩
    · rcases holds second right with earlierOther | ⟨rfl, rfl, free⟩
      · exact one first second earlier earlierOther
      · exact spared second sent free first earlier
    · rcases holds second right with earlierOther | ⟨same, -, -⟩
      · exact (spared first sent free second earlierOther).symm
      · exact same.symm
  | @reply caller command answer position served =>
    apply one.mono
    rintro index (leads | granted)
    · rcases isLeader_of_handle leads with earlier | ⟨rfl, rfl, rfl⟩
      · exact Or.inl earlier
      · exact Or.inr (List.mem_of_getElem? served)
    · exact Or.inr (List.mem_of_mem_eraseIdx granted)
  | error position lost =>
    apply one.mono
    rintro index (leads | granted)
    · exact Or.inl (isLeader_of_handleError leads)
    · exact Or.inr (List.mem_of_mem_eraseIdx granted)

end Steps

/-! ### Runs -/

section Runs

variable {config : Config} {actions : List Action}

theorem oneHolder_start : OneHolder Cluster.start := by
  rintro first second (leads | granted) -
  · cases leads
  · cases granted

theorem exists_reply {cluster : Cluster} {index : Index} (holds : Holds cluster index) :
    ∃ actions final, Run (Step config) cluster actions final ∧ final.isLeader index = true ∧
      ∀ other, other ≠ index →
        (cluster.isLeader other = true → final.isLeader other = true) ∧
          (Holds cluster other → Holds final other) := by
  rcases holds with leads | granted
  · exact ⟨[], cluster, Run.nil, leads, fun _ _ => ⟨id, id⟩⟩
  · obtain ⟨position, found⟩ := List.mem_iff_getElem?.mp granted
    refine ⟨[.reply position], _, Run.one (Step.reply position found),
      isLeader_setLeader_self true, fun other distinct => ?_⟩
    have stays : cluster.isLeader other = true →
        (cluster.setLeader index true).isLeader other = true :=
      fun leads => (isLeader_setLeader_of_ne true distinct).trans leads
    refine ⟨stays, ?_⟩
    rintro (leads | granted)
    · exact Or.inl (stays leads)
    · obtain ⟨place, there⟩ := List.mem_iff_getElem?.mp granted
      have apart : place ≠ position := by
        rintro rfl
        cases there.symm.trans found
        exact distinct rfl
      exact Or.inr (List.mem_eraseIdx_iff_getElem?.mpr ⟨place, apart, there⟩)

theorem exists_not_safe {cluster : Cluster} (two : ¬ OneHolder cluster) :
    ∃ actions final, Run (Step config) cluster actions final ∧ ¬ Safe final := by
  simp only [OneHolder, not_forall] at two
  obtain ⟨first, second, holdsFirst, holdsSecond, distinct⟩ := two
  obtain ⟨earlier, middle, arrive, leadsFirst, others⟩ := exists_reply holdsFirst
  obtain ⟨later, final, arriveNext, leadsSecond, stays⟩ :=
    exists_reply ((others second (Ne.symm distinct)).2 holdsSecond)
  refine ⟨earlier ++ later, final, arrive.append arriveNext, fun safe => distinct ?_⟩
  exact safe first second ((stays first distinct).1 leadsFirst) leadsSecond

theorem not_oneHolder_of_not_spared {before after : Cluster} {action : Action}
    (unspared : ¬ Spared before action) (taken : Step config before action after) :
    ¬ OneHolder after := by
  cases taken with
  | @serve caller command position sent =>
    simp only [Spared, not_forall] at unspared
    obtain ⟨acquirer, found, free, other, holds, distinct⟩ := unspared
    cases found.symm.trans sent
    have granted : (before.serve config caller .tryAcquire).2 = true := by
      simp [Cluster.serve, free]
    intro one
    refine distinct (one other caller ?_ (Or.inr ?_))
    · rcases holds with leads | earlier
      · exact Or.inl ((congrFun (isLeader_serve .tryAcquire) other).trans leads)
      · obtain ⟨place, there⟩ := List.mem_iff_getElem?.mp earlier
        have apart : position ≠ place := by
          rintro rfl
          cases there.symm.trans sent
        refine Or.inr (List.mem_iff_getElem?.mpr ⟨place, ?_⟩)
        exact (List.getElem?_set_ne apart).trans there
    · rw [granted]
      exact List.mem_set (List.getElem?_eq_some_iff.mp sent).1 _
  | tick => exact absurd trivial unspared
  | call => exact absurd trivial unspared
  | reply => exact absurd trivial unspared
  | error => exact absurd trivial unspared

/-- The condition cannot be weaker: exactly the runs that meet it never have two holders, who
would both be leaders once the replies have arrived. -/
theorem oneHolder_iff_spared {final : Cluster}
    (run : Run (Step config) Cluster.start actions final) :
    Along (Step config) Cluster.start actions (fun _ cluster => OneHolder cluster) ↔
      EachStep (Step config) Cluster.start actions Spared := by
  refine Run.along_iff_eachStep (I := fun _ cluster => OneHolder cluster) (deterministic config)
    run oneHolder_start (fun _ _ _ one => one) ?_ ?_
  · intro _ _ _ _ _ one spared taken
    exact one.step spared taken
  · intro _ _ _ _ _ _ taken one
    by_contra unspared
    exact not_oneHolder_of_not_spared unspared taken one

/-- In a run in which the lease is only granted while no other instance takes itself for the
leader, or will, there is never more than one leader. -/
theorem safe_of_spared (spared : EachStep (Step config) Cluster.start actions Spared) :
    Along (Step config) Cluster.start actions (fun _ cluster => Safe cluster) := by
  have one := spared.along (P := fun _ cluster => OneHolder cluster) oneHolder_start
    fun _ _ _ _ _ one spared taken => one.step spared taken
  exact fun history isPrefix cluster run => (one history isPrefix cluster run).safe

end Runs

/-! ### Two instances -/

section Instances

def twoInstances : Config := ⟨fun index => if index = 0 then "1-1" else "2-1", 10⟩

def elected : Cluster :=
  ⟨0, some ⟨"1-1", 10⟩, Function.update (fun _ => false) 0 true, []⟩

theorem run_elected :
    Run (Step twoInstances) Cluster.start [.call 0 .tryAcquire, .serve 0, .reply 0] elected ∧
      EachStep (Step twoInstances) Cluster.start [.call 0 .tryAcquire, .serve 0, .reply 0]
        Spared := by
  have none : Run (Step twoInstances) Cluster.start [] Cluster.start ∧
      EachStep (Step twoInstances) Cluster.start [] Spared := ⟨Run.nil, EachStep.nil⟩
  have asked := EachStep.extend (deterministic twoInstances) none
    (show Spared _ (.call 0 .tryAcquire) from trivial) (Step.call 0 .tryAcquire rfl)
  have granted := EachStep.extend (deterministic twoInstances) asked
    (show Spared _ (.serve 0) from by
      rintro caller sent - other (leads | granted)
      · cases leads
      · cases granted with
        | tail _ absent => cases absent)
    (Step.serve 0 rfl)
  have told := EachStep.extend (deterministic twoInstances) granted
    (show Spared _ (.reply 0) from trivial) (Step.reply 0 rfl)
  exact told

/-- The second instance polls in vain while the lease of the first is held. -/
theorem heldLease_safe : Along (Step twoInstances) Cluster.start
    [.call 0 .tryAcquire, .serve 0, .reply 0, .call 1 .tryAcquire, .serve 0]
    (fun _ cluster => Safe cluster) := by
  have polls := EachStep.extend (deterministic twoInstances) run_elected
    (show Spared _ (.call 1 .tryAcquire) from trivial) (Step.call 1 .tryAcquire rfl)
  have refused := EachStep.extend (deterministic twoInstances) polls
    (show Spared _ (.serve 0) from fun _ _ free => absurd free (by decide)) (Step.serve 0 rfl)
  exact safe_of_spared refused.2

/-- The lease runs out, and the second instance is elected before the first asks for a
renewal. -/
theorem lapsedLease_twoLeaders : ∃ config actions cluster,
    Run (Step config) Cluster.start actions cluster ∧ ¬ Safe cluster := by
  have lapsed := run_elected.1.snoc (Step.tick 10)
  have polls := lapsed.snoc (Step.call 1 .tryAcquire rfl)
  have second := (polls.snoc (Step.serve 0 rfl)).snoc (Step.reply 0 rfl)
  refine ⟨_, _, _, second, fun safe => ?_⟩
  exact absurd (safe 0 1 rfl rfl) (by decide)

end Instances

end LeaderElection

end SorobanExplorer.Indexer
