import Mathlib.Data.List.Sort
import Mathlib.Logic.Function.Basic
import SorobanExplorer.Library.Run
import SorobanExplorer.Library.Slots

/-!
Owns the relay of the outbox: any number of `relayOutboxOnce` runs, of several timer
ticks and processes, with handlers of any duration that may fail anywhere. A run claims
some rows in one transaction and then dispatches them one after another.

A claim is a time stamp that other claims respect for five minutes, whether its run has
finished by then or not. `relay_keeps` says what holds in every interleaving. The times
of the claims are arbitrary, which leaves the handlers any duration.
-/

namespace SorobanExplorer.Indexer

open Library

namespace Outbox

/-! ### Rows and runs -/

/-- A row of `indexer_outbox`; times are in milliseconds. -/
structure Row where
  id : Nat
  lockedAt : Option Nat
  dispatched : Bool
deriving DecidableEq, Repr

/-- `INTERVAL '5 minutes'` -/
def lease : Nat := 5 * 60 * 1000

inductive Phase where
  | claimed
  | published
  | delivered
deriving DecidableEq, Repr

/-- A run of `relayOutboxOnce`: the rows of its claim that it has not finished, of which
it dispatches the first. -/
structure RelayRun where
  process : Nat
  claimedAt : Nat
  rows : List Nat
  phase : Phase
deriving DecidableEq, Repr

/-- What runs have done: tried to publish a row, delivered it to all webhooks, marked it
as dispatched. -/
inductive Entry where
  | published (run id : Nat) (completed : Bool)
  | delivered (run id : Nat)
  | marked (run id : Nat)
deriving DecidableEq, Repr

structure Relay where
  rows : List Row
  runs : Nat → Option RelayRun
  log : List Entry

def Relay.start (rows : List Row) : Relay := ⟨rows, fun _ => none, []⟩

/-! ### Statements -/

def Row.isClaimable (now : Nat) (row : Row) : Bool :=
  !row.dispatched && row.lockedAt.all fun lockedAt => lockedAt + lease < now

def claimable (now limit : Nat) (skipped : List Nat) (rows : List Row) : List Nat :=
  (((rows.filter fun row => row.isClaimable now && !skipped.contains row.id).map
    Row.id).insertionSort (· ≤ ·)).take limit

def lockRows (now : Nat) (ids : List Nat) (rows : List Row) : List Row :=
  rows.map fun row => if row.id ∈ ids then { row with lockedAt := some now } else row

/-- `SET dispatched_at = NOW(), locked_at = NULL WHERE id = $1 AND dispatched_at IS NULL` -/
def markDispatched (id : Nat) (rows : List Row) : List Row :=
  rows.map fun row =>
    if row.id = id ∧ row.dispatched = false then ⟨row.id, none, true⟩ else row

/-! ### Steps -/

namespace Relay

def setRun (relay : Relay) (name : Nat) (run : RelayRun) : Relay :=
  { relay with runs := Function.update relay.runs name (some run) }

def record (relay : Relay) (entry : Entry) : Relay :=
  { relay with log := relay.log ++ [entry] }

def lockClaim (relay : Relay) (now limit : Nat) (skipped : List Nat) : Relay :=
  { relay with rows := lockRows now (claimable now limit skipped relay.rows) relay.rows }

def claim (relay : Relay) (name process now limit : Nat) (skipped : List Nat) : Relay :=
  (relay.lockClaim now limit skipped).setRun name
    ⟨process, now, claimable now limit skipped relay.rows, .claimed⟩

/-- `publish` returns or throws; it may have reached consumers in either case. -/
def publish (relay : Relay) (name : Nat) (run : RelayRun) (id : Nat) (rest : List Nat)
    (completed : Bool) : Relay :=
  (relay.setRun name
    (if completed then { run with phase := .published }
      else { run with rows := rest })).record (.published name id completed)

def deliver (relay : Relay) (name : Nat) (run : RelayRun) (id : Nat) : Relay :=
  (relay.setRun name { run with phase := .delivered }).record (.delivered name id)

def mark (relay : Relay) (name : Nat) (run : RelayRun) (id : Nat) (rest : List Nat) : Relay :=
  ({ relay with rows := markDispatched id relay.rows }.setRun name
    { run with rows := rest, phase := .claimed }).record (.marked name id)

def abandon (relay : Relay) (name : Nat) (run : RelayRun) (rest : List Nat) : Relay :=
  relay.setRun name { run with rows := rest, phase := .claimed }

end Relay

inductive Action where
  | enqueue (id : Nat)
  | claim (name process now limit : Nat) (skipped : List Nat)
  | claimUnanswered (now limit : Nat) (skipped : List Nat)
  | publish (name : Nat) (completed : Bool)
  | deliver (name : Nat)
  | mark (name : Nat)
  | fail (name : Nat)
  | crash (name : Nat)
deriving DecidableEq, Repr

inductive Step : Relay → Action → Relay → Prop
  | enqueue {relay : Relay} (id : Nat) (fresh : ∀ row ∈ relay.rows, row.id ≠ id) :
      Step relay (.enqueue id) { relay with rows := relay.rows ++ [⟨id, none, false⟩] }
  | claim {relay : Relay} (name process now limit : Nat) (skipped : List Nat)
      (fresh : relay.runs name = none) :
      Step relay (.claim name process now limit skipped)
        (relay.claim name process now limit skipped)
  | claimUnanswered (relay : Relay) (now limit : Nat) (skipped : List Nat) :
      Step relay (.claimUnanswered now limit skipped) (relay.lockClaim now limit skipped)
  | publish {relay : Relay} {run : RelayRun} {id : Nat} {rest : List Nat} (name : Nat)
      (completed : Bool) (current : relay.runs name = some run) (head : run.rows = id :: rest)
      (phase : run.phase = .claimed) :
      Step relay (.publish name completed) (relay.publish name run id rest completed)
  | deliver {relay : Relay} {run : RelayRun} {id : Nat} {rest : List Nat} (name : Nat)
      (current : relay.runs name = some run) (head : run.rows = id :: rest)
      (phase : run.phase = .published) :
      Step relay (.deliver name) (relay.deliver name run id)
  | mark {relay : Relay} {run : RelayRun} {id : Nat} {rest : List Nat} (name : Nat)
      (current : relay.runs name = some run) (head : run.rows = id :: rest)
      (phase : run.phase = .delivered) :
      Step relay (.mark name) (relay.mark name run id rest)
  | fail {relay : Relay} {run : RelayRun} {id : Nat} {rest : List Nat} (name : Nat)
      (current : relay.runs name = some run) (head : run.rows = id :: rest)
      (phase : run.phase ≠ .claimed) :
      Step relay (.fail name) (relay.abandon name run rest)
  | crash {relay : Relay} {run : RelayRun} (name : Nat) (current : relay.runs name = some run) :
      Step relay (.crash name) (relay.abandon name run [])

/-! ### What is asked of the relay -/

def Dispatches (relay : Relay) (name id : Nat) : Prop :=
  ∃ run, relay.runs name = some run ∧ run.rows.head? = some id

def Exclusive (relay : Relay) : Prop :=
  ∀ first second id, Dispatches relay first id → Dispatches relay second id → first = second

def MarkedAfter (relay : Relay) : Prop :=
  ∀ history name id, history ++ [.marked name id] <+: relay.log →
    .published name id true ∈ history ∧ .delivered name id ∈ history

def publishedBy (select : Nat → Bool) (log : List Entry) : List Nat :=
  log.filterMap fun
    | .published name id _ => if select name then some id else none
    | _ => none

def Relay.ofProcess (relay : Relay) (process name : Nat) : Bool :=
  (relay.runs name).any fun run => run.process = process

def OrderedPerProcess (relay : Relay) : Prop :=
  ∀ process, (publishedBy (relay.ofProcess process) relay.log).Pairwise (· < ·)

def OrderedPerRun (relay : Relay) : Prop :=
  ∀ name, (publishedBy (· == name) relay.log).Pairwise (· < ·)

def ExclusiveWithinLease (relay : Relay) : Prop :=
  ∀ first second firstRun secondRun id, first ≠ second →
    relay.runs first = some firstRun → relay.runs second = some secondRun →
    firstRun.rows.head? = some id → secondRun.rows.head? = some id →
      firstRun.claimedAt + lease < secondRun.claimedAt ∨
        secondRun.claimedAt + lease < firstRun.claimedAt

/-! ### Rows and their locks -/

theorem mem_claimable {now limit id : Nat} {skipped : List Nat} {rows : List Row}
    (claimed : id ∈ claimable now limit skipped rows) :
    ∃ row ∈ rows, row.id = id ∧ row.isClaimable now := by
  have member := (List.mem_insertionSort _).mp (List.mem_of_mem_take claimed)
  obtain ⟨row, among, same⟩ := List.mem_map.mp member
  have kept := List.mem_filter.mp among
  exact ⟨row, kept.1, same, (Bool.and_eq_true_iff.mp kept.2).1⟩

theorem ids_lockRows (now : Nat) (ids : List Nat) (rows : List Row) :
    (lockRows now ids rows).map Row.id = rows.map Row.id := by
  rw [lockRows, List.map_map]
  apply List.map_congr_left
  intro row _
  dsimp only [Function.comp_apply]
  split <;> rfl

def Row.HeldSince (row : Row) (claimedAt : Nat) : Prop :=
  row.dispatched = true ∨ ∃ lockedAt, row.lockedAt = some lockedAt ∧ claimedAt ≤ lockedAt

theorem Row.HeldSince.expired {row : Row} {claimedAt now : Nat} (held : row.HeldSince claimedAt)
    (claimable : row.isClaimable now) : claimedAt + lease < now := by
  rw [Row.isClaimable, Bool.and_eq_true, Bool.not_eq_true'] at claimable
  obtain dispatched | ⟨lockedAt, locked, since⟩ := held
  · exact absurd (claimable.1.symm.trans dispatched) Bool.false_ne_true
  · rw [locked, Option.all_some, decide_eq_true_iff] at claimable
    exact lt_of_le_of_lt (Nat.add_le_add_right since lease) claimable.2

structure Held (relay : Relay) : Prop where
  keyed : (relay.rows.map Row.id).Nodup
  known : ∀ name run id, relay.runs name = some run → id ∈ run.rows →
    id ∈ relay.rows.map Row.id
  locked : ∀ name run row, relay.runs name = some run → row ∈ relay.rows → row.id ∈ run.rows →
    row.HeldSince run.claimedAt
  apart : ∀ first second firstRun secondRun id, first ≠ second →
    relay.runs first = some firstRun → relay.runs second = some secondRun →
    id ∈ firstRun.rows → id ∈ secondRun.rows →
      firstRun.claimedAt + lease < secondRun.claimedAt ∨
        secondRun.claimedAt + lease < firstRun.claimedAt

namespace Held

variable {relay : Relay}

theorem setRun (held : Held relay) {name : Nat} {run : RelayRun}
    (current : relay.runs name = some run) (next : RelayRun)
    (time : next.claimedAt = run.claimedAt) (fewer : ∀ id ∈ next.rows, id ∈ run.rows) :
    Held (relay.setRun name next) := by
  -- Every run afterwards has a run before, with the same time and at least its rows.
  have before : ∀ other run', (relay.setRun name next).runs other = some run' →
      ∃ run, relay.runs other = some run ∧ run'.claimedAt = run.claimedAt ∧
        ∀ id ∈ run'.rows, id ∈ run.rows := by
    refine forall_update (fun other run' there => ⟨run', there, rfl, fun _ member => member⟩)
      fun run' new => ?_
    cases new
    exact ⟨run, current, time, fewer⟩
  constructor
  · exact held.keyed
  · intro other run' id found member
    obtain ⟨earlier, was, _, rows⟩ := before other run' found
    exact held.known other earlier id was (rows id member)
  · intro other run' row found among member
    obtain ⟨earlier, was, same, rows⟩ := before other run' found
    rw [same]
    exact held.locked other earlier row was among (rows _ member)
  · intro first second firstRun secondRun id differ firstFound secondFound inFirst inSecond
    obtain ⟨firstEarlier, firstWas, firstTime, firstRows⟩ := before first firstRun firstFound
    obtain ⟨secondEarlier, secondWas, secondTime, secondRows⟩ :=
      before second secondRun secondFound
    rw [firstTime, secondTime]
    exact held.apart first second _ _ id differ firstWas secondWas (firstRows id inFirst)
      (secondRows id inSecond)

theorem setRows (held : Held relay) (write : Row → Row) (ids : ∀ row, (write row).id = row.id)
    (keeps : ∀ name run row, relay.runs name = some run → row ∈ relay.rows → row.id ∈ run.rows →
      row.HeldSince run.claimedAt → (write row).HeldSince run.claimedAt) :
    Held { relay with rows := relay.rows.map write } := by
  have sameIds : (relay.rows.map write).map Row.id = relay.rows.map Row.id := by
    rw [List.map_map]
    exact List.map_congr_left fun row _ => ids row
  constructor
  · exact sameIds ▸ held.keyed
  · intro name run id found member
    exact sameIds ▸ held.known name run id found member
  · intro name run row found among member
    obtain ⟨earlier, was, rfl⟩ := List.mem_map.mp among
    rw [ids] at member
    exact keeps name run earlier found was member (held.locked name run earlier found was member)
  · exact held.apart

theorem expired (held : Held relay) {name now limit id : Nat} {skipped : List Nat}
    {run : RelayRun} (found : relay.runs name = some run) (member : id ∈ run.rows)
    (claimed : id ∈ claimable now limit skipped relay.rows) : run.claimedAt + lease < now := by
  obtain ⟨row, among, rfl, isClaimable⟩ := mem_claimable claimed
  exact (held.locked name run row found among member).expired isClaimable

theorem lockClaim (held : Held relay) (now limit : Nat) (skipped : List Nat) :
    Held (relay.lockClaim now limit skipped) := by
  apply held.setRows
  · intro row
    split <;> rfl
  · intro name run row found among member since
    split
    · next claimed =>
        have late := held.expired found member claimed
        exact Or.inr ⟨now, rfl, by omega⟩
    · exact since

theorem mark (held : Held relay) (id : Nat) :
    Held { relay with rows := markDispatched id relay.rows } := by
  apply held.setRows
  · intro row
    split <;> rfl
  · intro name run row found among member since
    split
    · exact Or.inl rfl
    · exact since

theorem claim (held : Held relay) {name : Nat} (process now limit : Nat) (skipped : List Nat)
    (fresh : relay.runs name = none) : Held (relay.claim name process now limit skipped) := by
  have locked := held.lockClaim now limit skipped
  have ids : (relay.lockClaim now limit skipped).rows.map Row.id = relay.rows.map Row.id :=
    ids_lockRows _ _ _
  -- The new run is the only one that was not there before.
  have cases_run : ∀ other run, (relay.claim name process now limit skipped).runs other = some run →
      (other = name ∧ run = ⟨process, now, claimable now limit skipped relay.rows, .claimed⟩) ∨
        (other ≠ name ∧ relay.runs other = some run) := by
    intro other run found
    exact (of_update found).imp_left fun new => ⟨new.1, (Option.some.inj new.2).symm⟩
  constructor
  · exact locked.keyed
  · intro other run id found member
    obtain ⟨rfl, rfl⟩ | ⟨_, was⟩ := cases_run other run found
    · obtain ⟨row, among, same, _⟩ := mem_claimable member
      change id ∈ (relay.lockClaim now limit skipped).rows.map Row.id
      rw [ids, ← same]
      exact List.mem_map_of_mem among
    · exact locked.known other run id was member
  · intro other run row found among member
    obtain ⟨rfl, rfl⟩ | ⟨_, was⟩ := cases_run other run found
    · obtain ⟨earlier, _, rfl⟩ := List.mem_map.mp among
      have taken : earlier.id ∈ claimable now limit skipped relay.rows := by
        split at member <;> exact member
      rw [if_pos taken]
      exact Or.inr ⟨now, rfl, le_refl _⟩
    · exact locked.locked other run row was among member
  · intro first second firstRun secondRun id differ firstFound secondFound inFirst inSecond
    obtain ⟨rfl, rfl⟩ | ⟨_, firstWas⟩ := cases_run first firstRun firstFound
    · obtain ⟨rfl, rfl⟩ | ⟨_, secondWas⟩ := cases_run second secondRun secondFound
      · exact absurd rfl differ
      · exact Or.inr (held.expired secondWas inSecond inFirst)
    · obtain ⟨rfl, rfl⟩ | ⟨_, secondWas⟩ := cases_run second secondRun secondFound
      · exact Or.inl (held.expired firstWas inFirst inSecond)
      · exact held.apart first second _ _ id differ firstWas secondWas inFirst inSecond

theorem enqueue (held : Held relay) {id : Nat} (fresh : ∀ row ∈ relay.rows, row.id ≠ id) :
    Held { relay with rows := relay.rows ++ [⟨id, none, false⟩] } := by
  have unknown : id ∉ relay.rows.map Row.id := by
    intro member
    obtain ⟨row, among, same⟩ := List.mem_map.mp member
    exact fresh row among same
  constructor
  · rw [List.map_append]
    exact held.keyed.append (List.nodup_singleton _) (by simpa using unknown)
  · intro name run other found member
    rw [List.map_append]
    exact List.mem_append_left _ (held.known name run other found member)
  · intro name run row found among member
    obtain old | new := List.mem_append.mp among
    · exact held.locked name run row found old member
    · cases List.mem_singleton.mp new
      exact absurd (held.known name run id found member) unknown
  · exact held.apart

theorem abandon (held : Held relay) {name : Nat} {run : RelayRun}
    (current : relay.runs name = some run) {rest : List Nat} (suffix : rest <:+ run.rows) :
    Held (relay.abandon name run rest) :=
  held.setRun current _ rfl fun _ member => suffix.subset member

theorem record (held : Held relay) (entry : Entry) : Held (relay.record entry) :=
  ⟨held.keyed, held.known, held.locked, held.apart⟩

theorem step {after : Relay} {action : Action} (held : Held relay)
    (taken : Step relay action after) : Held after := by
  cases taken with
  | enqueue id fresh => exact held.enqueue fresh
  | claim name process now limit skipped fresh => exact held.claim process now limit skipped fresh
  | claimUnanswered now limit skipped => exact held.lockClaim now limit skipped
  | publish name completed current head phase =>
    apply record
    apply held.setRun current
    · cases completed <;> rfl
    · intro id member
      cases completed with
      | true => exact member
      | false => exact head ▸ List.mem_cons_of_mem _ member
  | deliver name current head phase =>
    apply record
    exact held.setRun current _ rfl fun _ member => member
  | mark name current head phase =>
    apply record
    apply (held.mark _).abandon current
    rw [head]
    exact List.suffix_cons _ _
  | fail name current head phase =>
    apply held.abandon current
    rw [head]
    exact List.suffix_cons _ _
  | crash name current => exact held.abandon current (List.nil_suffix)

end Held

/-! ### The order of a run -/

def RelayRun.pending (run : RelayRun) : List Nat :=
  match run.phase with
  | .claimed => run.rows
  | _ => run.rows.tail

theorem publishedBy_append (select : Nat → Bool) (first second : List Entry) :
    publishedBy select (first ++ second) = publishedBy select first ++ publishedBy select second :=
  List.filterMap_append

structure InOrder (relay : Relay) : Prop where
  absent : ∀ name, relay.runs name = none → publishedBy (· == name) relay.log = []
  rising : ∀ name run, relay.runs name = some run →
    (publishedBy (· == name) relay.log ++ run.pending).Pairwise (· < ·)

theorem claimable_sorted {rows : List Row} (keyed : (rows.map Row.id).Nodup) (now limit : Nat)
    (skipped : List Nat) : (claimable now limit skipped rows).Pairwise (· < ·) := by
  have sorted := List.pairwise_insertionSort (· ≤ ·) ((rows.filter fun row =>
    row.isClaimable now && !skipped.contains row.id).map Row.id)
  have distinct : (((rows.filter fun row =>
      row.isClaimable now && !skipped.contains row.id).map Row.id).insertionSort
        (· ≤ ·)).Nodup :=
    (List.perm_insertionSort _ _).nodup_iff.mpr
      (keyed.sublist (List.filter_sublist.map _))
  have strict := (sorted.and distinct).imp fun both => Nat.lt_of_le_of_ne both.1 both.2
  exact strict.sublist (List.take_sublist _ _)

namespace InOrder

variable {relay : Relay}

theorem advance (order : InOrder relay) {name : Nat} {run : RelayRun}
    (current : relay.runs name = some run) (rows : List Row) (next : RelayRun)
    (entries : List Entry)
    (others : ∀ other, other ≠ name → publishedBy (· == other) entries = [])
    (goesOn : (publishedBy (· == name) entries ++ next.pending).Sublist run.pending) :
    InOrder ⟨rows, Function.update relay.runs name (some next), relay.log ++ entries⟩ := by
  constructor
  · intro other missing
    simp only [Function.update_apply] at missing
    split at missing
    · cases missing
    · next differs =>
        rw [publishedBy_append, order.absent other missing, others other differs, List.append_nil]
  · intro other run' found
    simp only [Function.update_apply] at found
    rw [publishedBy_append]
    split at found
    · next same =>
        cases found
        subst same
        rw [List.append_assoc]
        exact (order.rising other run current).sublist (List.Sublist.append_left goesOn _)
    · next differs =>
        rw [others other differs, List.append_nil]
        exact order.rising other run' found

theorem abandon (order : InOrder relay) {name : Nat} {run : RelayRun}
    (current : relay.runs name = some run) {rest : List Nat} (fewer : rest.Sublist run.pending) :
    InOrder (relay.abandon name run rest) := by
  have advanced := order.advance current relay.rows { run with rows := rest, phase := .claimed } []
    (fun _ _ => rfl) fewer
  rwa [List.append_nil] at advanced

theorem claim (order : InOrder relay) (keyed : (relay.rows.map Row.id).Nodup) {name : Nat}
    (process now limit : Nat) (skipped : List Nat) (fresh : relay.runs name = none) :
    InOrder (relay.claim name process now limit skipped) := by
  constructor
  · intro other missing
    simp only [Relay.claim, Relay.setRun, Function.update_apply] at missing
    split at missing
    · cases missing
    · exact order.absent other missing
  · intro other run found
    simp only [Relay.claim, Relay.setRun, Function.update_apply] at found
    split at found
    · next same =>
        cases found
        change (publishedBy (· == other) relay.log ++ claimable now limit skipped relay.rows).Pairwise
          (· < ·)
        rw [order.absent other (same ▸ fresh), List.nil_append]
        exact claimable_sorted keyed now limit skipped
    · exact order.rising other run found

theorem step {after : Relay} {action : Action} (order : InOrder relay)
    (keyed : (relay.rows.map Row.id).Nodup) (taken : Step relay action after) :
    InOrder after := by
  cases taken with
  | enqueue id fresh => exact ⟨order.absent, order.rising⟩
  | claim name process now limit skipped fresh =>
    exact order.claim keyed process now limit skipped fresh
  | claimUnanswered now limit skipped => exact ⟨order.absent, order.rising⟩
  | @publish run id rest name completed current head phase =>
    apply order.advance current relay.rows _ [.published name id completed]
    · intro other differs
      simp [publishedBy, differs.symm]
    · cases completed <;> simp [publishedBy, RelayRun.pending, phase, head]
  | @deliver run id rest name current head phase =>
    apply order.advance current relay.rows _ [.delivered name id]
    · exact fun _ _ => rfl
    · simp [publishedBy, RelayRun.pending, phase]
  | @mark run id rest name current head phase =>
    apply order.advance current (markDispatched id relay.rows) _ [.marked name id]
    · exact fun _ _ => rfl
    · simp [publishedBy, RelayRun.pending, phase, head]
  | @fail run id rest name current head phase =>
    apply order.abandon current
    unfold RelayRun.pending
    split
    · contradiction
    · rw [head, List.tail_cons]
  | crash name current => exact order.abandon current (List.nil_sublist _)

end InOrder

/-! ### What precedes a mark -/

structure Logged (relay : Relay) : Prop where
  published : ∀ name run id, relay.runs name = some run → run.rows.head? = some id →
    run.phase ≠ .claimed → .published name id true ∈ relay.log
  delivered : ∀ name run id, relay.runs name = some run → run.rows.head? = some id →
    run.phase = .delivered → .delivered name id ∈ relay.log
  marked : MarkedAfter relay

namespace Logged

variable {relay : Relay}

theorem markedAfter_append (marked : MarkedAfter relay) {entry : Entry} {after : Relay}
    (log : after.log = relay.log ++ [entry])
    (needs : ∀ name id, entry = .marked name id →
      .published name id true ∈ relay.log ∧ .delivered name id ∈ relay.log) :
    MarkedAfter after := by
  intro history name id isPrefix
  rw [log] at isPrefix
  obtain whole | before := List.prefix_concat_iff.mp isPrefix
  · obtain ⟨rfl, same⟩ := List.append_inj' whole rfl
    exact needs name id (List.singleton_inj.mp same).symm
  · exact marked history name id before

theorem advance (logged : Logged relay) (rows : List Row) (name : Nat) (next : RelayRun)
    (entries : List Entry)
    (published : ∀ id, next.rows.head? = some id → next.phase ≠ .claimed →
      .published name id true ∈ relay.log ++ entries)
    (delivered : ∀ id, next.rows.head? = some id → next.phase = .delivered →
      .delivered name id ∈ relay.log ++ entries)
    (marked : MarkedAfter ⟨rows, relay.runs, relay.log ++ entries⟩) :
    Logged ⟨rows, Function.update relay.runs name (some next), relay.log ++ entries⟩ := by
  constructor
  · intro other run id found head phase
    simp only [Function.update_apply] at found
    split at found
    · next same =>
        cases found
        exact same ▸ published id head phase
    · exact List.mem_append_left _ (logged.published other run id found head phase)
  · intro other run id found head phase
    simp only [Function.update_apply] at found
    split at found
    · next same =>
        cases found
        exact same ▸ delivered id head phase
    · exact List.mem_append_left _ (logged.delivered other run id found head phase)
  · exact marked

theorem restart (logged : Logged relay) (rows : List Row) (name : Nat) (next : RelayRun)
    (claimed : next.phase = .claimed) :
    Logged ⟨rows, Function.update relay.runs name (some next), relay.log⟩ := by
  have advanced := logged.advance rows name next [] (fun _ _ phase => absurd claimed phase)
    (fun _ _ phase => by simp [claimed] at phase) (by rw [List.append_nil]; exact logged.marked)
  rwa [List.append_nil] at advanced

theorem step {after : Relay} {action : Action} (logged : Logged relay)
    (taken : Step relay action after) : Logged after := by
  cases taken with
  | enqueue id fresh => exact ⟨logged.published, logged.delivered, logged.marked⟩
  | claim name process now limit skipped fresh => exact logged.restart _ _ _ rfl
  | claimUnanswered now limit skipped =>
    exact ⟨logged.published, logged.delivered, logged.marked⟩
  | @publish run id rest name completed current head phase =>
    have marked : MarkedAfter (relay.record (.published name id completed)) :=
      markedAfter_append logged.marked rfl fun _ _ same => by cases same
    cases completed with
    | true =>
      apply logged.advance relay.rows name _ [.published name id true] _ _ marked
      · intro other found _
        simp [head] at found
        simp [found]
      · intro _ _ wrong
        cases wrong
    | false =>
      apply logged.advance relay.rows name _ [.published name id false] _ _ marked
      · intro _ _ wrong
        exact absurd phase wrong
      · intro _ _ wrong
        simp [phase] at wrong
  | @deliver run id rest name current head phase =>
    have marked : MarkedAfter (relay.record (.delivered name id)) :=
      markedAfter_append logged.marked rfl fun _ _ same => by cases same
    apply logged.advance relay.rows name _ [.delivered name id] _ _ marked
    · intro other found _
      exact List.mem_append_left _
        (logged.published name run other current found (by simp [phase]))
    · intro other found _
      simp [head] at found
      simp [found]
  | @mark run id rest name current head phase =>
    have marked : MarkedAfter (relay.record (.marked name id)) := by
      apply markedAfter_append logged.marked rfl
      intro other row same
      cases same
      have first : run.rows.head? = some id := by simp [head]
      exact ⟨logged.published name run id current first (by simp [phase]),
        logged.delivered name run id current first phase⟩
    apply logged.advance (markDispatched id relay.rows) name _ [.marked name id] _ _ marked
    · intro _ _ wrong
      exact absurd rfl wrong
    · intro _ _ wrong
      cases wrong
  | fail name current head phase => exact logged.restart _ _ _ rfl
  | crash name current => exact logged.restart _ _ _ rfl

end Logged

/-! ### Every interleaving -/

/-- In every interleaving, two runs dispatch one row at the same time only if their
claims are more than the lease apart, a row is marked only after it has been published
and delivered, and every run publishes in increasing order. -/
theorem relay_keeps {rows : List Row} {relay : Relay} {actions : List Action}
    (keyed : (rows.map Row.id).Nodup) (run : Run Step (Relay.start rows) actions relay) :
    ExclusiveWithinLease relay ∧ MarkedAfter relay ∧ OrderedPerRun relay := by
  have kept : Held relay ∧ InOrder relay ∧ Logged relay := by
    apply run.invariant
    · constructor
      · exact ⟨keyed, by simp [Relay.start], by simp [Relay.start], by simp [Relay.start]⟩
      · constructor
        · exact ⟨fun _ _ => rfl, by simp [Relay.start]⟩
        · exact ⟨by simp [Relay.start], by simp [Relay.start], by simp [MarkedAfter, Relay.start]⟩
    · intro before action after kept taken
      exact ⟨kept.1.step taken, kept.2.1.step kept.1.keyed taken, kept.2.2.step taken⟩
  obtain ⟨held, order, logged⟩ := kept
  refine ⟨?_, logged.marked, ?_⟩
  · intro first second firstRun secondRun id differ firstFound secondFound firstHead secondHead
    exact held.apart first second firstRun secondRun id differ firstFound secondFound
      (List.mem_of_head? firstHead) (List.mem_of_head? secondHead)
  · intro name
    cases found : relay.runs name with
    | none =>
      rw [order.absent name found]
      exact List.Pairwise.nil
    | some run => exact (List.pairwise_append.mp (order.rising name run found)).1

def twoRows : List Row := [⟨1, none, false⟩, ⟨2, none, false⟩]

/-- One run dispatches both rows. -/
theorem twoRows_keep : ∃ relay, relay.log.length = 6 ∧
    ExclusiveWithinLease relay ∧ MarkedAfter relay ∧ OrderedPerRun relay := by
  have start : Run Step (.start twoRows) [] (.start twoRows) := .nil
  have claimed := start.snoc (.claim 0 0 0 100 [] rfl)
  have first := ((claimed.snoc (.publish 0 true rfl rfl rfl)).snoc (.deliver 0 rfl rfl rfl)).snoc
    (.mark 0 rfl rfl rfl)
  have second := ((first.snoc (.publish 0 true rfl rfl rfl)).snoc (.deliver 0 rfl rfl rfl)).snoc
    (.mark 0 rfl rfl rfl)
  exact ⟨_, rfl, relay_keeps (by decide) second⟩

/-- A delivery that takes more than five minutes is joined by another run, and a timer
tick that overlaps another publishes a later row before the other's next. -/
theorem overlappingRuns_interfere :
    (¬ ∀ rows relay actions, (rows.map Row.id).Nodup → Run Step (.start rows) actions relay →
      Exclusive relay) ∧
    ¬ ∀ rows relay actions, (rows.map Row.id).Nodup → Run Step (.start rows) actions relay →
      OrderedPerProcess relay := by
  have start : Run Step (.start twoRows) [] (.start twoRows) := .nil
  have claimed := start.snoc (.claim 0 0 0 100 [] rfl)
  have delivering := claimed.snoc (.publish 0 true rfl rfl rfl)
  constructor
  · intro exclusive
    have joined := delivering.snoc (.claim 1 1 300001 100 [] rfl)
    have same := exclusive _ _ _ (by decide) joined 0 1 1 ⟨_, rfl, rfl⟩ ⟨_, rfl, rfl⟩
    cases same
  · intro ordered
    have ticked := (delivering.snoc (.enqueue 3 (by decide))).snoc (.claim 1 0 250 100 [] rfl)
    have overtaken := ticked.snoc (.publish 1 true rfl rfl rfl)
    have marked := (overtaken.snoc (.deliver 0 rfl rfl rfl)).snoc (.mark 0 rfl rfl rfl)
    have late := marked.snoc (.publish 0 true rfl rfl rfl)
    have sorted : [1, 3, 2].Pairwise (· < ·) := ordered _ _ _ (by decide) late 0
    exact absurd sorted (by decide)

end Outbox

end SorobanExplorer.Indexer
