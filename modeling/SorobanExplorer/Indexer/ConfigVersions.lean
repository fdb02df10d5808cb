import SorobanExplorer.Indexer.ConfigCluster
import SorobanExplorer.Library.Slots

/-!
Owns what holds of the stored versions and of the instances: the table lock keeps the versions
without gaps, and rows that are handed to `setCurrent` in order keep the instances at the latest.

`setCurrent` installs whatever it is handed, and `initRuntimeConfig` loads before it listens.
-/

namespace SorobanExplorer.Indexer.RuntimeConfig

open Library

/-! ### The table -/

def Gapless (rows : List Row) : Prop := rows.map Row.version = List.range' 1 rows.length

theorem latestVersion_append (rows : List Row) (row : Row) :
    latestVersion (rows ++ [row]) = max (latestVersion rows) row.version := by
  unfold latestVersion
  rw [List.map_append, List.foldl_append]
  rfl

theorem foldl_max_range (count : ℕ) : (List.range' 1 count).foldl max 0 = count := by
  induction count with
  | zero => rfl
  | succ count ih =>
    rw [List.range'_1_concat, List.foldl_append, ih]
    simp only [List.foldl_cons, List.foldl_nil]
    omega

namespace Gapless

variable {rows : List Row} {row : Row}

theorem latestVersion_eq (gapless : Gapless rows) : latestVersion rows = rows.length := by
  unfold latestVersion
  rw [gapless, foldl_max_range]

theorem append (gapless : Gapless rows) (next : row.version = latestVersion rows + 1) :
    Gapless (rows ++ [row]) := by
  rw [gapless.latestVersion_eq] at next
  unfold Gapless at gapless ⊢
  rw [List.map_append, gapless, List.length_append, List.map_singleton, List.length_singleton,
    List.range'_1_concat, next, Nat.add_comm 1]

theorem version_loadLatest (gapless : Gapless rows) :
    (loadLatest rows).elim 0 Row.version = latestVersion rows := by
  cases found : loadLatest rows with
  | some row => exact (of_decide_eq_true (List.find?_some found :)).symm ▸ rfl
  | none =>
    have missing := List.find?_eq_none.mp found
    rw [gapless.latestVersion_eq]
    by_contra nonempty
    have latest : rows.length ∈ rows.map Row.version := by
      rw [gapless, List.mem_range'_1]
      change 0 ≠ rows.length at nonempty
      omega
    obtain ⟨row, member, version⟩ := List.mem_map.mp latest
    refine missing row member (decide_eq_true ?_)
    rw [version, gapless.latestVersion_eq]

end Gapless

namespace Cluster

def Holds (cluster : Cluster) (call : CallId) : Call → Prop
  | .reverting _ _ _ | .waiting _ => True
  | .locked _ => cluster.holder = some call
  | .matched change version => cluster.holder = some call ∧
      version = latestVersion cluster.rows ∧ change.expectedVersion = version
  | .inserted row => cluster.holder = some call ∧ row.version = latestVersion cluster.rows + 1 ∧
      row.version = row.based + 1 ∧ (validateRuntimeConfig row.config).isSome

/-- The stored versions are 1, 2, 3, …, each valid and based on the one before it. -/
structure Stored (cluster : Cluster) : Prop where
  gapless : Gapless cluster.rows
  based : ∀ row ∈ cluster.rows,
    row.version = row.based + 1 ∧ (validateRuntimeConfig row.config).isSome
  holds : ∀ call caller stage, cluster.calls call = some (caller, stage) →
    cluster.Holds call stage

variable {cluster before after : Cluster} {action : Action} {call : CallId}

theorem stored_start : start.Stored where
  gapless := rfl
  based := fun _ member => nomatch member
  holds := fun _ _ _ pending => nomatch pending

theorem Holds.mono {stage : Call} (holds : before.Holds call stage)
    (holder : before.holder = some call → after.holder = some call)
    (rows : before.holder = some call → after.rows = before.rows) : after.Holds call stage := by
  cases stage with
  | reverting | waiting => trivial
  | locked => exact holder holds
  | matched | inserted =>
    refine ⟨holder holds.1, ?_⟩
    rw [rows holds.1]
    exact holds.2

namespace Stored

theorem setCall (stored : cluster.Stored) {caller : InstanceId} {stage : Call}
    (holds : cluster.Holds call stage) : (cluster.setCall call (some (caller, stage))).Stored := by
  refine ⟨stored.gapless, stored.based, ?_⟩
  intro other who next found
  obtain ⟨rfl, new⟩ | ⟨-, there⟩ := of_update found
  · cases new
    exact holds.mono id fun _ => rfl
  · exact (stored.holds other who next there).mono id fun _ => rfl

theorem release (stored : cluster.Stored) : (cluster.release call).Stored := by
  refine ⟨stored.gapless, stored.based, ?_⟩
  intro other who next found
  obtain ⟨differs, there⟩ := of_update_none found
  refine (stored.holds other who next there).mono ?_ fun _ => rfl
  intro held
  change (if cluster.holder = some call then none else cluster.holder) = some other
  rw [held, if_neg (fun same => differs (Option.some.inj same))]

theorem congr (stored : before.Stored) (rows : after.rows = before.rows)
    (holder : after.holder = before.holder) (calls : after.calls = before.calls) :
    after.Stored := by
  refine ⟨rows ▸ stored.gapless, rows ▸ stored.based, ?_⟩
  intro call caller stage pending
  rw [calls] at pending
  exact (stored.holds call caller stage pending).mono (holder ▸ id) fun _ => rows

theorem lock (stored : cluster.Stored) {caller : InstanceId} {change : Change}
    (free : cluster.holder = none) :
    ({ cluster.setCall call (some (caller, .locked change)) with holder := some call } :
      Cluster).Stored := by
  refine ⟨stored.gapless, stored.based, ?_⟩
  intro other who next found
  obtain ⟨same, new⟩ | ⟨-, there⟩ := of_update found
  · cases new
    exact congrArg some same.symm
  · refine (stored.holds other who next there).mono (fun held => ?_) fun _ => rfl
    cases free.symm.trans held

theorem commit (stored : cluster.Stored) {query : QueryId} {caller : InstanceId} {row : Row}
    (pending : cluster.calls call = some (caller, .inserted row)) :
    (cluster.commit call query caller row).Stored := by
  have ⟨held, next, based, valid⟩ := stored.holds call caller _ pending
  refine ⟨stored.gapless.append next, ?_, ?_⟩
  · intro other member
    obtain old | new := List.mem_append.mp member
    · exact stored.based other old
    · cases List.mem_singleton.mp new
      exact ⟨based, valid⟩
  · intro other who stage found
    obtain ⟨differs, there⟩ := of_update_none found
    have notHolder : cluster.holder ≠ some other := by
      rw [held]
      exact fun same => differs (Option.some.inj same).symm
    exact (stored.holds other who stage there).mono (fun other => absurd other notHolder)
      fun other => absurd other notHolder

theorem step (stored : before.Stored) (taken : Step before action after) : after.Stored := by
  cases taken with
  | apply | revertTo | reapply => exact stored.setCall trivial
  | lock call pending free => exact stored.lock free
  | @check call caller change pending unchanged =>
    have held := stored.holds call caller _ pending
    exact stored.setCall ⟨held, rfl, unchanged.symm⟩
  | @insert call caller change version pending =>
    have ⟨held, latest, expected⟩ := stored.holds call caller _ pending
    refine stored.setCall ⟨held, by rw [latest], by rw [expected], ?_⟩
    rw [validateRuntimeConfig_toJson]
    rfl
  | commit call query pending => exact stored.commit pending
  | rollback => exact stored.release
  | initRuntimeConfig | notification | loadLatest | setCurrent | listen =>
    exact stored.congr rfl rfl rfl

end Stored

/-- In every run, the stored versions are 1, 2, 3, …, each valid and based on the one before. -/
theorem stored_of_run {actions : List Action} (run : Run Step start actions cluster) :
    cluster.Stored :=
  run.invariant stored_start fun _ _ _ stored taken => stored.step taken

/-! ### Rows on their way -/

structure InFlight (cluster : Cluster) (answer : Answer) : Prop where
  past : answer.answeredAt < cluster.clock
  stored : answer.version ≤ latestVersion cluster.rows
  valid : ∀ row, answer.row = some row → (validateRuntimeConfig row.config).isSome
  newer : (cluster.instances answer.recipient).handedAt ≤ answer.answeredAt →
    (cluster.instances answer.recipient).current.version ≤ answer.version

/-- No instance is ahead of the table or behind its own past, and of two rows on their way to an
instance the one from the later statement is the later one. -/
structure Ordered (cluster : Cluster) : Prop where
  current : ∀ id, (cluster.instances id).current.version ≤ latestVersion cluster.rows
  highest : ∀ id, (cluster.instances id).highest = (cluster.instances id).current.version
  handed : ∀ id, (cluster.instances id).handedAt < cluster.clock
  inFlight : ∀ query answer, cluster.answers query = some answer → cluster.InFlight answer
  pairs : ∀ query answer query' answer', cluster.answers query = some answer →
    cluster.answers query' = some answer' → answer.recipient = answer'.recipient →
      answer.answeredAt ≤ answer'.answeredAt → answer.version ≤ answer'.version

/-- Rows are handed to `setCurrent` in the order of the statements that read or stored them, and
nothing is stored while an instance is between its first load and its `LISTEN`. -/
def Orderly (cluster : Cluster) : Action → Prop
  | .setCurrent query => ∀ found, cluster.answers query = some found →
      (cluster.instances found.recipient).handedAt ≤ found.answeredAt
  | .commit _ _ => ∀ id, (cluster.instances id).phase ≠ .loaded ∧
      (cluster.instances id).phase ≠ .started
  | _ => True

structure SameCurrent (before after : InstanceId → Instance) : Prop where
  current : ∀ id, (after id).current = (before id).current
  highest : ∀ id, (after id).highest = (before id).highest
  handedAt : ∀ id, (after id).handedAt = (before id).handedAt

theorem sameCurrent_update {instances : InstanceId → Instance} {id : InstanceId} {next : Instance}
    (current : next.current = (instances id).current)
    (highest : next.highest = (instances id).highest)
    (handedAt : next.handedAt = (instances id).handedAt) :
    SameCurrent instances (Function.update instances id next) := by
  refine ⟨fun other => ?_, fun other => ?_, fun other => ?_⟩ <;>
  · rw [Function.update_apply]
    split
    · next same =>
        subst same
        assumption
    · rfl

theorem sameCurrent_notify (cluster : Cluster) :
    SameCurrent cluster.instances cluster.notify.instances := by
  refine ⟨fun id => ?_, fun id => ?_, fun id => ?_⟩ <;>
  · unfold notify
    dsimp only
    split <;> rfl

theorem instances_hand (cluster : Cluster) (query : QueryId) (found : Answer) (id : InstanceId) :
    (cluster.hand query found).instances id =
      if id = found.recipient then
        let recipient := cluster.instances found.recipient
        let next := recipient.current.setCurrent found.row
        { recipient with
          current := next
          phase := if found.initial ∧ recipient.phase = .loaded then .started else recipient.phase
          handedAt := found.answeredAt
          highest := max recipient.highest next.version }
      else cluster.instances id :=
  Function.update_apply cluster.instances _ _ _

theorem ordered_start : start.Ordered where
  current := fun _ => Nat.le_refl _
  highest := fun _ => rfl
  handed := fun _ => Nat.zero_lt_one
  inFlight := fun _ _ answered => nomatch answered
  pairs := fun _ _ _ _ answered => nomatch answered

namespace Ordered

theorem congr (ordered : before.Ordered) (rows : after.rows = before.rows)
    (clock : after.clock = before.clock) (answers : after.answers = before.answers)
    (same : SameCurrent before.instances after.instances) : after.Ordered where
  current := fun id => by
    rw [same.current, rows]
    exact ordered.current id
  highest := fun id => by
    rw [same.highest, same.current]
    exact ordered.highest id
  handed := fun id => by
    rw [same.handedAt, clock]
    exact ordered.handed id
  inFlight := fun query answer answered => by
    rw [answers] at answered
    have flight := ordered.inFlight query answer answered
    refine ⟨clock ▸ flight.past, rows ▸ flight.stored, flight.valid, ?_⟩
    rw [same.current, same.handedAt]
    exact flight.newer
  pairs := answers ▸ ordered.pairs

theorem answer (ordered : before.Ordered) {query : QueryId} {new : Answer}
    (rows : latestVersion before.rows ≤ latestVersion after.rows)
    (clock : after.clock = before.clock + 1)
    (answers : after.answers = Function.update before.answers query (some new))
    (same : SameCurrent before.instances after.instances) (now : new.answeredAt = before.clock)
    (latest : new.version = latestVersion after.rows)
    (valid : ∀ row, new.row = some row → (validateRuntimeConfig row.config).isSome) :
    after.Ordered where
  current := fun id => by
    rw [same.current]
    exact (ordered.current id).trans rows
  highest := fun id => by
    rw [same.highest, same.current]
    exact ordered.highest id
  handed := fun id => by
    rw [same.handedAt, clock]
    exact (ordered.handed id).trans (Nat.lt_succ_self _)
  inFlight := fun other answer answered => by
    rw [answers, Function.update_apply] at answered
    split at answered
    · cases answered
      refine ⟨by omega, latest.le, valid, fun _ => ?_⟩
      rw [same.current, latest]
      exact (ordered.current _).trans rows
    · have flight := ordered.inFlight other answer answered
      refine ⟨by have := flight.past; omega, flight.stored.trans rows, flight.valid, ?_⟩
      rw [same.current, same.handedAt]
      exact flight.newer
  pairs := fun left answer right answer' answered answered' recipient earlier => by
    rw [answers, Function.update_apply] at answered answered'
    split at answered' <;> split at answered
    · cases answered
      cases answered'
      exact Nat.le_refl _
    · cases answered'
      rw [latest]
      exact (ordered.inFlight left answer answered).stored.trans rows
    · cases answered
      have past := (ordered.inFlight right answer' answered').past
      omega
    · exact ordered.pairs left answer right answer' answered answered' recipient earlier

theorem version_setCurrent (ordered : cluster.Ordered) {query : QueryId} {found : Answer}
    (answered : cluster.answers query = some found)
    (inOrder : (cluster.instances found.recipient).handedAt ≤ found.answeredAt) :
    ((cluster.instances found.recipient).current.setCurrent found.row).version = found.version := by
  have flight := ordered.inFlight query found answered
  have newer := flight.newer inOrder
  unfold Current.setCurrent Answer.version at *
  cases row : found.row with
  | none =>
    rw [row] at newer
    exact Nat.le_zero.mp newer
  | some row' =>
    obtain ⟨settings, valid⟩ := Option.isSome_iff_exists.mp (flight.valid row' row)
    dsimp only
    split
    · next same => exact same.symm
    · rw [valid]
      rfl

theorem hand (ordered : cluster.Ordered) {query : QueryId} {found : Answer}
    (answered : cluster.answers query = some found)
    (inOrder : (cluster.instances found.recipient).handedAt ≤ found.answeredAt) :
    (cluster.hand query found).Ordered := by
  have version := ordered.version_setCurrent answered inOrder
  have flight := ordered.inFlight query found answered
  have newer := flight.newer inOrder
  have known : ∀ other answer, (cluster.hand query found).answers other = some answer →
      cluster.answers other = some answer :=
    fun _ _ known => (of_update_none known).2
  refine ⟨fun id => ?_, fun id => ?_, fun id => ?_, fun other answer left => ?_, ?_⟩
  · rw [instances_hand]
    split
    · rw [version]
      exact flight.stored
    · exact ordered.current id
  · rw [instances_hand]
    split
    · dsimp only
      rw [version, ordered.highest]
      exact Nat.max_eq_right newer
    · exact ordered.highest id
  · rw [instances_hand]
    split
    · exact flight.past
    · exact ordered.handed id
  · have other' := ordered.inFlight other answer (known other answer left)
    refine ⟨other'.past, other'.stored, other'.valid, ?_⟩
    rw [instances_hand]
    split
    · next same =>
        intro later
        rw [version]
        exact ordered.pairs query found other answer answered (known other answer left) same.symm
          later
    · exact other'.newer
  · exact fun left answer right answer' one two =>
      ordered.pairs left answer right answer' (known left answer one) (known right answer' two)

theorem step (ordered : before.Ordered) (stored : before.Stored) (orderly : before.Orderly action)
    (taken : Step before action after) : after.Ordered := by
  cases taken with
  | apply | revertTo | reapply | lock | check | insert | rollback =>
    exact ordered.congr rfl rfl rfl ⟨fun _ => rfl, fun _ => rfl, fun _ => rfl⟩
  | @commit call query caller row pending fresh =>
    have ⟨held, next, based, valid⟩ := stored.holds call caller _ pending
    have latest : latestVersion (before.rows ++ [row]) = row.version := by
      rw [latestVersion_append]
      omega
    refine ordered.answer ?_ rfl rfl (sameCurrent_notify before) rfl latest.symm ?_
    · change latestVersion before.rows ≤ latestVersion (before.rows ++ [row])
      omega
    · intro other same
      cases same
      exact valid
  | initRuntimeConfig id query | notification id query | listen id =>
    exact ordered.congr rfl rfl rfl (sameCurrent_update rfl rfl rfl)
  | @loadLatest query asker asked fresh =>
    refine ordered.answer (Nat.le_refl _) rfl rfl (sameCurrent_update rfl rfl rfl) rfl
      stored.gapless.version_loadLatest ?_
    intro row found
    exact (stored.based row (List.mem_of_find?_eq_some found)).2
  | @setCurrent query found answered => exact ordered.hand answered (orderly found answered)

end Ordered

/-! ### Who knows of the latest version -/

def Informed (cluster : Cluster) (id : InstanceId) : Prop :=
  (∃ query answer, cluster.answers query = some answer ∧ answer.recipient = id ∧
    answer.version = latestVersion cluster.rows) ∨
  (cluster.instances id).current.version = latestVersion cluster.rows

structure Fresh (cluster : Cluster) : Prop where
  loading : ∀ id, (cluster.instances id).phase = .loaded ∨ (cluster.instances id).phase = .started →
    cluster.Informed id
  listening : ∀ id, (cluster.instances id).phase = .listening →
    0 < (cluster.instances id).notifications ∨ (∃ query, cluster.queries query = some id) ∨
      cluster.Informed id

theorem fresh_start : start.Fresh where
  loading := fun _ phase => by cases phase <;> contradiction
  listening := fun _ phase => nomatch phase

theorem Informed.mono {id : InstanceId} (informed : before.Informed id)
    (rows : after.rows = before.rows)
    (answers : ∀ query answer, before.answers query = some answer →
      after.answers query = some answer)
    (current : (after.instances id).current = (before.instances id).current) :
    after.Informed id := by
  obtain ⟨query, answer, answered, recipient, latest⟩ | latest := informed
  · exact .inl ⟨query, answer, answers query answer answered, recipient, rows ▸ latest⟩
  · exact .inr (by rw [current, rows, latest])

theorem Informed.hand {id : InstanceId} (informed : cluster.Informed id) (ordered : cluster.Ordered)
    {query : QueryId} {found : Answer} (answered : cluster.answers query = some found)
    (inOrder : (cluster.instances found.recipient).handedAt ≤ found.answeredAt) :
    (cluster.hand query found).Informed id := by
  have version := ordered.version_setCurrent answered inOrder
  have flight := ordered.inFlight query found answered
  have newer := flight.newer inOrder
  have stored := flight.stored
  obtain ⟨other, answer, waiting, recipient, latest⟩ | latest := informed
  · by_cases same : other = query
    · subst same
      cases answered.symm.trans waiting
      right
      rw [instances_hand, if_pos recipient.symm]
      exact version.trans latest
    · left
      exact ⟨other, answer, (Function.update_of_ne same _ _).trans waiting, recipient, latest⟩
  · right
    rw [instances_hand]
    split
    · next same =>
        subst same
        change ((cluster.instances found.recipient).current.setCurrent found.row).version =
          latestVersion cluster.rows
        omega
    · exact latest

namespace Fresh

theorem congr (fresh : before.Fresh) (rows : after.rows = before.rows)
    (instances : after.instances = before.instances) (queries : after.queries = before.queries)
    (answers : after.answers = before.answers) : after.Fresh := by
  have informed : ∀ id, before.Informed id → after.Informed id := fun id informed =>
    informed.mono rows (fun _ _ answered => answers ▸ answered) (by rw [instances])
  refine ⟨fun id phase => ?_, fun id phase => ?_⟩
  · rw [instances] at phase
    exact informed id (fresh.loading id phase)
  · rw [instances] at phase ⊢
    rw [queries]
    exact (fresh.listening id phase).imp_right (Or.imp_right (informed id))

theorem update (fresh : before.Fresh) {id : InstanceId} {next : Instance}
    (rows : after.rows = before.rows)
    (instances : after.instances = Function.update before.instances id next)
    (queries : ∀ query asker, asker ≠ id → before.queries query = some asker →
      after.queries query = some asker)
    (answers : ∀ query answer, before.answers query = some answer →
      after.answers query = some answer)
    (loading : next.phase = .loaded ∨ next.phase = .started → after.Informed id)
    (listening : next.phase = .listening → 0 < next.notifications ∨
      (∃ query, after.queries query = some id) ∨ after.Informed id) : after.Fresh := by
  have others : ∀ other, other ≠ id → after.instances other = before.instances other := by
    intro other differs
    rw [instances, Function.update_of_ne differs]
  have informed : ∀ other, other ≠ id → before.Informed other → after.Informed other :=
    fun other differs informed => informed.mono rows answers (by rw [others other differs])
  have self : after.instances id = next := by rw [instances, Function.update_self]
  refine ⟨fun other phase => ?_, fun other phase => ?_⟩ <;> by_cases same : other = id
  · subst same
    exact loading (self ▸ phase)
  · rw [others other same] at phase
    exact informed other same (fresh.loading other phase)
  · subst same
    rw [self]
    exact listening (self ▸ phase)
  · rw [others other same] at phase ⊢
    obtain notified | ⟨query, asked⟩ | known := fresh.listening other phase
    · exact .inl notified
    · exact .inr (.inl ⟨query, queries query other same asked⟩)
    · exact .inr (.inr (informed other same known))

theorem kept_of_fresh {β : Type} {table : QueryId → Option β} {query other : QueryId} {value : β}
    {new : Option β} (unused : table query = none) (found : table other = some value) :
    Function.update table query new other = some value := by
  rw [Function.update_of_ne _, found]
  rintro rfl
  cases unused.symm.trans found

theorem commit {call : CallId} {query : QueryId} {caller : InstanceId} {row : Row}
    (settled : ∀ id, (cluster.instances id).phase ≠ .loaded ∧
      (cluster.instances id).phase ≠ .started) :
    (cluster.commit call query caller row).Fresh := by
  have phases : ∀ id, ((cluster.commit call query caller row).instances id).phase =
      (cluster.instances id).phase := by
    intro id
    change (if (cluster.instances id).phase = .listening then _ else cluster.instances id).phase = _
    split <;> rfl
  refine ⟨fun id phase => ?_, fun id phase => ?_⟩ <;> rw [phases] at phase
  · exact phase.elim (fun loaded => absurd loaded (settled id).1)
      fun started => absurd started (settled id).2
  · left
    change 0 < (if (cluster.instances id).phase = .listening then
      { cluster.instances id with notifications := (cluster.instances id).notifications + 1 }
      else cluster.instances id).notifications
    rw [if_pos phase]
    exact Nat.succ_pos _

theorem load (fresh : cluster.Fresh) (stored : cluster.Stored) {query : QueryId}
    {asker : InstanceId} (asked : cluster.queries query = some asker)
    (unused : cluster.answers query = none) : (cluster.load query asker).Fresh := by
  have informed : (cluster.load query asker).Informed asker :=
    .inl ⟨query, _, Function.update_self .., rfl, stored.gapless.version_loadLatest⟩
  refine fresh.update rfl rfl ?_ (fun other answer found => kept_of_fresh unused found)
    (fun _ => informed) fun _ => .inr (.inr informed)
  intro other who differs found
  refine (Function.update_of_ne ?_ _ _).trans found
  rintro rfl
  exact differs (Option.some.inj (found.symm.trans asked))

theorem hand (fresh : cluster.Fresh) (ordered : cluster.Ordered) {query : QueryId} {found : Answer}
    (answered : cluster.answers query = some found)
    (inOrder : (cluster.instances found.recipient).handedAt ≤ found.answeredAt) :
    (cluster.hand query found).Fresh := by
  have informed : ∀ id, cluster.Informed id → (cluster.hand query found).Informed id :=
    fun id informed => informed.hand ordered answered inOrder
  refine ⟨fun id phase => ?_, fun id phase => ?_⟩ <;> rw [instances_hand] at phase <;>
    split at phase
  · next same =>
      subst same
      dsimp only at phase
      refine informed _ (fresh.loading _ ?_)
      split at phase
      · next initial => exact .inl initial.2
      · exact phase
  · exact informed id (fresh.loading id phase)
  · next same =>
      subst same
      dsimp only at phase
      split at phase
      · nomatch phase
      · rw [instances_hand, if_pos rfl]
        exact (fresh.listening _ phase).imp_right (Or.imp_right (informed _))
  · next differs =>
      rw [instances_hand, if_neg differs]
      exact (fresh.listening id phase).imp_right (Or.imp_right (informed id))

theorem step (fresh : before.Fresh) (stored : before.Stored) (ordered : before.Ordered)
    (orderly : before.Orderly action) (taken : Step before action after) : after.Fresh := by
  cases taken with
  | apply | revertTo | reapply | lock | check | insert | rollback =>
    exact fresh.congr rfl rfl rfl rfl
  | commit => exact commit orderly
  | initRuntimeConfig id query stopped unused =>
    exact fresh.update rfl rfl (fun _ _ _ found => kept_of_fresh unused found)
      (fun _ _ found => found) (fun phase => by cases phase <;> contradiction)
      fun phase => nomatch phase
  | @notification id query left notified unused =>
    have same : SameCurrent before.instances (Function.update before.instances id
      { before.instances id with notifications := left }) := sameCurrent_update rfl rfl rfl
    refine fresh.update rfl rfl (fun _ _ _ found => kept_of_fresh unused found)
      (fun _ _ found => found) (fun phase => ?_)
      fun _ => .inr (.inl ⟨query, Function.update_self ..⟩)
    exact (fresh.loading id phase).mono rfl (fun _ _ found => found)
      (same.current id)
  | loadLatest query asked unused => exact fresh.load stored asked unused
  | @setCurrent query found answered =>
    exact fresh.hand ordered answered (orderly found answered)
  | listen id started =>
    have same : SameCurrent before.instances (Function.update before.instances id
      { before.instances id with phase := .listening }) := sameCurrent_update rfl rfl rfl
    refine fresh.update rfl rfl (fun _ _ _ found => found) (fun _ _ found => found)
      (fun phase => by cases phase <;> contradiction) fun _ => .inr (.inr ?_)
    exact (fresh.loading id (.inr started)).mono rfl (fun _ _ found => found)
      (same.current id)

end Fresh

/-! ### Whole runs -/

structure Settled (cluster : Cluster) (id : InstanceId) : Prop where
  listening : (cluster.instances id).phase = .listening
  notified : (cluster.instances id).notifications = 0
  asked : ∀ query, cluster.queries query ≠ some id
  answered : ∀ query answer, cluster.answers query = some answer → answer.recipient ≠ id

/-- The stored versions are 1, 2, 3, …, each valid and based on the one before it; no instance ever
held a higher version than now, and a settled one holds the latest. -/
structure Sound (cluster : Cluster) : Prop where
  gapless : Gapless cluster.rows
  based : ∀ row ∈ cluster.rows,
    row.version = row.based + 1 ∧ (validateRuntimeConfig row.config).isSome
  highest : ∀ id, (cluster.instances id).highest = (cluster.instances id).current.version
  latest : ∀ id, cluster.Settled id →
    (cluster.instances id).current.version = latestVersion cluster.rows

theorem Fresh.latest (fresh : cluster.Fresh) {id : InstanceId} (settled : cluster.Settled id) :
    (cluster.instances id).current.version = latestVersion cluster.rows := by
  obtain notified | ⟨query, asked⟩ | ⟨query, answer, answered, recipient, -⟩ | latest :=
    fresh.listening id settled.listening
  · exact absurd settled.notified notified.ne'
  · exact absurd asked (settled.asked query)
  · exact absurd recipient (settled.answered query answer answered)
  · exact latest

/-- In every run whose rows reach `setCurrent` in order, and in which nothing is stored while an
instance starts, versions only go up and the instances end at the latest. -/
theorem versions_of_eachStep {actions : List Action}
    (orderly : EachStep Step start actions Orderly) :
    Along Step start actions fun _ cluster => cluster.Sound := by
  have kept := orderly.along
    (P := fun _ cluster => cluster.Stored ∧ cluster.Ordered ∧ cluster.Fresh)
    ⟨stored_start, ordered_start, fresh_start⟩ fun _ _ _ _ _ ⟨stored, ordered, fresh⟩ guard taken =>
      ⟨stored.step taken, ordered.step stored guard taken, fresh.step stored ordered guard taken⟩
  intro history isPrefix cluster run
  have ⟨stored, ordered, fresh⟩ := kept history isPrefix cluster run
  exact ⟨stored.gapless, stored.based, ordered.highest, fun _ settled => fresh.latest settled⟩

section OneTable

def empty : Json := .object []

def storedFirst : List Action :=
  [.apply 0 0 empty 0 none none, .lock 0, .check 0, .insert 0, .commit 0 0, .setCurrent 0,
    .initRuntimeConfig 0 1, .loadLatest 1, .setCurrent 1, .listen 0]

def lateAnswer : List Action :=
  [.initRuntimeConfig 0 0, .loadLatest 0, .setCurrent 0, .listen 0,
    .apply 0 0 empty 0 none none, .lock 0, .check 0, .insert 0, .commit 0 1, .setCurrent 1,
    .notification 0 2, .loadLatest 2,
    .apply 1 0 empty 1 none none, .lock 1, .check 1, .insert 1, .commit 1 3, .setCurrent 3,
    .notification 0 4, .loadLatest 4, .setCurrent 4, .setCurrent 2]

def storedBetween : List Action :=
  [.initRuntimeConfig 0 0, .loadLatest 0,
    .apply 0 1 empty 0 none none, .lock 0, .check 0, .insert 0, .commit 0 1,
    .setCurrent 0, .listen 0]

theorem storedFirst_sound : (∃ cluster, Run Step start storedFirst cluster) ∧
    Along Step start storedFirst fun _ cluster => cluster.Sound := by
  have nothing : Run Step start [] start ∧ EachStep Step start [] Orderly := ⟨Run.nil, EachStep.nil⟩
  have called := EachStep.extend deterministic nothing
    (show Orderly _ (.apply 0 0 empty 0 none none) from trivial)
    (.apply 0 0 empty 0 none none rfl rfl)
  have locked := EachStep.extend deterministic called
    (show Orderly _ (.lock 0) from trivial) (.lock 0 rfl rfl)
  have checked := EachStep.extend deterministic locked
    (show Orderly _ (.check 0) from trivial) (.check 0 rfl rfl)
  have inserted := EachStep.extend deterministic checked
    (show Orderly _ (.insert 0) from trivial) (.insert 0 rfl fun _ member => nomatch member)
  have committed := EachStep.extend deterministic inserted
    (show Orderly _ (.commit 0 0) from fun _ => ⟨nofun, nofun⟩) (.commit 0 0 rfl rfl)
  have applied := EachStep.extend deterministic committed
    (show Orderly _ (.setCurrent 0) from by
      intro found answered
      cases answered
      exact Nat.zero_le _)
    (.setCurrent 0 rfl)
  have starting := EachStep.extend deterministic applied
    (show Orderly _ (.initRuntimeConfig 0 1) from trivial) (.initRuntimeConfig 0 1 rfl rfl)
  have loaded := EachStep.extend deterministic starting
    (show Orderly _ (.loadLatest 1) from trivial) (.loadLatest 1 rfl rfl)
  have started := EachStep.extend deterministic loaded
    (show Orderly _ (.setCurrent 1) from by
      intro found answered
      cases answered
      exact Nat.le_succ 1)
    (.setCurrent 1 rfl)
  have listens := EachStep.extend deterministic started
    (show Orderly _ (.listen 0) from trivial) (.listen 0 rfl)
  exact ⟨⟨_, listens.1⟩, versions_of_eachStep listens.2⟩

theorem lateAnswer_unsound :
    (∃ cluster, Run Step start lateAnswer cluster ∧ ¬ cluster.Sound) ∧
      ∃ cluster, Run Step start storedBetween cluster ∧ ¬ cluster.Sound := by
  have starting : Run Step start [.initRuntimeConfig 0 0] _ := Run.one (.initRuntimeConfig 0 0 rfl rfl)
  have loaded := starting.snoc (.loadLatest 0 rfl rfl)
  have started := loaded.snoc (.setCurrent 0 rfl)
  have listens := started.snoc (.listen 0 rfl)
  have called := listens.snoc (.apply 0 0 empty 0 none none rfl rfl)
  have locked := called.snoc (.lock 0 rfl rfl)
  have checked := locked.snoc (.check 0 rfl rfl)
  have inserted := checked.snoc (.insert 0 rfl fun _ member => nomatch member)
  have committed := inserted.snoc (.commit 0 1 rfl rfl)
  have applied := committed.snoc (.setCurrent 1 rfl)
  have notified := applied.snoc (.notification 0 2 rfl rfl)
  have reloaded := notified.snoc (.loadLatest 2 rfl rfl)
  have calledAgain := reloaded.snoc (.apply 1 0 empty 1 none none rfl rfl)
  have lockedAgain := calledAgain.snoc (.lock 1 rfl rfl)
  have checkedAgain := lockedAgain.snoc (.check 1 rfl rfl)
  have insertedAgain := checkedAgain.snoc (.insert 1 rfl (by decide))
  have committedAgain := insertedAgain.snoc (.commit 1 3 rfl rfl)
  have appliedAgain := committedAgain.snoc (.setCurrent 3 rfl)
  have notifiedAgain := appliedAgain.snoc (.notification 0 4 rfl rfl)
  have reloadedAgain := notifiedAgain.snoc (.loadLatest 4 rfl rfl)
  have latest := reloadedAgain.snoc (.setCurrent 4 rfl)
  have late := latest.snoc (.setCurrent 2 rfl)
  have calledEarly := loaded.snoc (.apply 0 1 empty 0 none none rfl rfl)
  have lockedEarly := calledEarly.snoc (.lock 0 rfl rfl)
  have checkedEarly := lockedEarly.snoc (.check 0 rfl rfl)
  have insertedEarly := checkedEarly.snoc (.insert 0 rfl fun _ member => nomatch member)
  have committedEarly := insertedEarly.snoc (.commit 0 1 rfl rfl)
  have startedLate := committedEarly.snoc (.setCurrent 0 rfl)
  have listensLate := startedLate.snoc (.listen 0 rfl)
  refine ⟨⟨_, late, fun sound => ?_⟩, ⟨_, listensLate, fun sound => ?_⟩⟩
  · exact absurd (sound.highest 0) (by decide)
  · refine absurd (sound.latest 0 ⟨rfl, rfl, fun query asked => ?_,
      fun query answer answered recipient => ?_⟩) (by decide)
    · match query with
      | 0 => cases asked
      | _ + 1 => cases asked
    · match query with
      | 0 => cases answered
      | 1 =>
        cases answered
        cases recipient
      | _ + 2 => cases answered

end OneTable

end Cluster

end SorobanExplorer.Indexer.RuntimeConfig
