import SorobanExplorer.Indexer.RuntimeConfig
import SorobanExplorer.Library.Run

/-!
Owns the versions of the runtime configuration: the table, the transactions of `apply`, and the
instances, which hear of new versions and reload.

Statements, notifications and answers come in any order. Every answer carries the time of its
statement, and an instance the time of the last row it was handed, which nothing reads.
-/

namespace SorobanExplorer.Indexer

open Library

namespace RuntimeConfig

abbrev InstanceId := ℕ

abbrev CallId := ℕ

abbrev QueryId := ℕ

/-- A row of `runtime_config`, and the version that the caller of `apply` had seen. -/
structure Row where
  version : ℕ
  config : Json
  author : Option String
  comment : Option String
  based : ℕ

structure Current where
  version : ℕ
  config : Settings
  author : Option String
  comment : Option String

/-- What a caller of `apply` hands over, after validation. An `expectedVersion` that is no natural
number matches no version. -/
structure Change where
  config : Settings
  expectedVersion : ℕ
  author : Option String
  comment : Option String

/-- A call of `apply` or `revertTo`, between two of its statements. -/
inductive Call where
  /-- `revertTo` found the version -/
  | reverting (config : Json) (author comment : Option String)
  | waiting (change : Change)
  /-- with the table lock -/
  | locked (change : Change)
  /-- the latest version is the expected one -/
  | matched (change : Change) (version : ℕ)
  /-- the row and the notification wait for the commit -/
  | inserted (row : Row)

/-- How far `initRuntimeConfig` is. -/
inductive Phase where
  | stopped
  /-- `loadLatest` is asked -/
  | loading
  /-- `loadLatest` is answered -/
  | loaded
  /-- its row is in effect, and `LISTEN` comes next -/
  | started
  | listening
deriving DecidableEq

structure Instance where
  current : Current
  phase : Phase
  /-- notifications that are not handled yet -/
  notifications : ℕ
  /-- the time of the last row that was handed to `setCurrent` -/
  handedAt : ℕ
  /-- the highest version so far -/
  highest : ℕ

/-- A row on its way to `setCurrent`: the answer to `loadLatest`, or the row that `apply` stored. -/
structure Answer where
  recipient : InstanceId
  row : Option Row
  answeredAt : ℕ
  /-- to the `loadLatest` of `initRuntimeConfig` -/
  initial : Bool

def Answer.version (answer : Answer) : ℕ := answer.row.elim 0 Row.version

structure Cluster where
  /-- `runtime_config`, oldest row first -/
  rows : List Row
  /-- who has the table locked -/
  holder : Option CallId
  calls : CallId → Option (InstanceId × Call)
  instances : InstanceId → Instance
  /-- calls of `loadLatest` that the database has not seen yet -/
  queries : QueryId → Option InstanceId
  answers : QueryId → Option Answer
  clock : ℕ

inductive Action where
  | apply (call : CallId) (caller : InstanceId) (config : Json) (expectedVersion : ℕ)
      (author comment : Option String)
  | revertTo (call : CallId) (caller : InstanceId) (targetVersion : ℕ)
      (author comment : Option String)
  | reapply (call : CallId)
  | lock (call : CallId)
  | check (call : CallId)
  | insert (call : CallId)
  | commit (call : CallId) (answer : QueryId)
  | rollback (call : CallId)
  | initRuntimeConfig (id : InstanceId) (query : QueryId)
  | notification (id : InstanceId) (query : QueryId)
  | loadLatest (query : QueryId)
  | setCurrent (query : QueryId)
  | listen (id : InstanceId)

/-! ### Statements -/

/-- `SELECT COALESCE(MAX(version), 0)` -/
def latestVersion (rows : List Row) : ℕ := (rows.map Row.version).foldl max 0

/-- `ORDER BY version DESC LIMIT 1`; versions are a primary key. -/
def loadLatest (rows : List Row) : Option Row :=
  rows.find? fun row => row.version = latestVersion rows

def Current.setCurrent (current : Current) (row : Option Row) : Current :=
  match row with
  | none => current
  | some row =>
    if row.version = current.version then current
    else match validateRuntimeConfig row.config with
      | none => current
      | some config => ⟨row.version, config, row.author, row.comment⟩

namespace Cluster

def start : Cluster where
  rows := []
  holder := none
  calls := fun _ => none
  instances := fun _ => ⟨⟨0, DEFAULT_RUNTIME_CONFIG, none, none⟩, .stopped, 0, 0, 0⟩
  queries := fun _ => none
  answers := fun _ => none
  clock := 1

variable (cluster : Cluster)

def setCall (call : CallId) (next : Option (InstanceId × Call)) : Cluster :=
  { cluster with calls := Function.update cluster.calls call next }

def setInstance (id : InstanceId) (next : Instance) : Cluster :=
  { cluster with instances := Function.update cluster.instances id next }

def setQuery (query : QueryId) (asker : Option InstanceId) : Cluster :=
  { cluster with queries := Function.update cluster.queries query asker }

def answer (query : QueryId) (recipient : InstanceId) (row : Option Row) (initial : Bool) :
    Cluster :=
  { cluster with
    answers := Function.update cluster.answers query
      (some ⟨recipient, row, cluster.clock, initial⟩)
    clock := cluster.clock + 1 }

def release (call : CallId) : Cluster :=
  { cluster.setCall call none with
    holder := if cluster.holder = some call then none else cluster.holder }

def notify : Cluster :=
  { cluster with
    instances := fun id =>
      let listener := cluster.instances id
      if listener.phase = .listening then
        { listener with notifications := listener.notifications + 1 }
      else listener }

def commit (call : CallId) (query : QueryId) (caller : InstanceId) (row : Row) : Cluster :=
  { ((cluster.release call).notify.answer query caller (some row) false) with
    rows := cluster.rows ++ [row] }

def load (query : QueryId) (asker : InstanceId) : Cluster :=
  let loader := cluster.instances asker
  let initial : Bool := loader.phase = .loading
  ((cluster.setQuery query none).setInstance asker
    { loader with phase := if initial then .loaded else loader.phase }).answer query asker
      (loadLatest cluster.rows) initial

def hand (query : QueryId) (found : Answer) : Cluster :=
  let recipient := cluster.instances found.recipient
  let next := recipient.current.setCurrent found.row
  { cluster.setInstance found.recipient { recipient with
      current := next
      phase := if found.initial ∧ recipient.phase = .loaded then .started else recipient.phase
      handedAt := found.answeredAt
      highest := max recipient.highest next.version } with
    answers := Function.update cluster.answers query none }

/-- The statements, and what a process does between two of them. A call that throws is rolled
back, and any call may fail before its commit. -/
inductive Step : Cluster → Action → Cluster → Prop
  | apply {cluster : Cluster} (call : CallId) (caller : InstanceId) (config : Json)
      (expectedVersion : ℕ) (author comment : Option String) {settings : Settings}
      (unused : cluster.calls call = none) (valid : validateRuntimeConfig config = some settings) :
      Step cluster (.apply call caller config expectedVersion author comment)
        (cluster.setCall call
          (some (caller, .waiting ⟨settings, expectedVersion, author, comment⟩)))
  | revertTo {cluster : Cluster} (call : CallId) (caller : InstanceId) (targetVersion : ℕ)
      (author comment : Option String) {row : Row} (unused : cluster.calls call = none)
      (found : cluster.rows.find? (fun row => row.version = targetVersion) = some row) :
      Step cluster (.revertTo call caller targetVersion author comment)
        (cluster.setCall call (some (caller, .reverting row.config author
          (some (comment.getD s!"revert to version {targetVersion}")))))
  | reapply {cluster : Cluster} (call : CallId) {caller : InstanceId} {config : Json}
      {author comment : Option String} {settings : Settings}
      (pending : cluster.calls call = some (caller, .reverting config author comment))
      (valid : validateRuntimeConfig config = some settings) :
      Step cluster (.reapply call)
        (cluster.setCall call (some (caller,
          .waiting ⟨settings, (cluster.instances caller).current.version, author, comment⟩)))
  -- `LOCK TABLE runtime_config IN SHARE ROW EXCLUSIVE MODE`
  | lock {cluster : Cluster} (call : CallId) {caller : InstanceId} {change : Change}
      (pending : cluster.calls call = some (caller, .waiting change)) (free : cluster.holder = none) :
      Step cluster (.lock call)
        { cluster.setCall call (some (caller, .locked change)) with holder := some call }
  | check {cluster : Cluster} (call : CallId) {caller : InstanceId} {change : Change}
      (pending : cluster.calls call = some (caller, .locked change))
      (unchanged : latestVersion cluster.rows = change.expectedVersion) :
      Step cluster (.check call)
        (cluster.setCall call (some (caller, .matched change (latestVersion cluster.rows))))
  | insert {cluster : Cluster} (call : CallId) {caller : InstanceId} {change : Change}
      {version : ℕ} (pending : cluster.calls call = some (caller, .matched change version))
      (fresh : ∀ row ∈ cluster.rows, row.version ≠ version + 1) :
      Step cluster (.insert call)
        (cluster.setCall call (some (caller, .inserted
          ⟨version + 1, change.config.toJson, change.author, change.comment,
            change.expectedVersion⟩)))
  | commit {cluster : Cluster} (call : CallId) (query : QueryId) {caller : InstanceId} {row : Row}
      (pending : cluster.calls call = some (caller, .inserted row))
      (fresh : cluster.answers query = none) :
      Step cluster (.commit call query) (cluster.commit call query caller row)
  | rollback {cluster : Cluster} (call : CallId) (pending : cluster.calls call ≠ none) :
      Step cluster (.rollback call) (cluster.release call)
  | initRuntimeConfig {cluster : Cluster} (id : InstanceId) (query : QueryId)
      (stopped : (cluster.instances id).phase = .stopped) (fresh : cluster.queries query = none) :
      Step cluster (.initRuntimeConfig id query)
        ((cluster.setInstance id { cluster.instances id with phase := .loading }).setQuery query
          (some id))
  | notification {cluster : Cluster} (id : InstanceId) (query : QueryId) {left : ℕ}
      (notified : (cluster.instances id).notifications = left + 1)
      (fresh : cluster.queries query = none) :
      Step cluster (.notification id query)
        ((cluster.setInstance id { cluster.instances id with notifications := left }).setQuery query
          (some id))
  | loadLatest {cluster : Cluster} (query : QueryId) {asker : InstanceId}
      (asked : cluster.queries query = some asker) (fresh : cluster.answers query = none) :
      Step cluster (.loadLatest query) (cluster.load query asker)
  | setCurrent {cluster : Cluster} (query : QueryId) {found : Answer}
      (answered : cluster.answers query = some found) :
      Step cluster (.setCurrent query) (cluster.hand query found)
  | listen {cluster : Cluster} (id : InstanceId) (started : (cluster.instances id).phase = .started) :
      Step cluster (.listen id)
        (cluster.setInstance id { cluster.instances id with phase := .listening })

theorem deterministic : Deterministic Step := by
  intro cluster action first second one two
  cases one with
  | apply call caller config expectedVersion author comment unused valid =>
    cases two
    rename_i other
    cases valid.symm.trans other
    rfl
  | revertTo call caller targetVersion author comment unused found =>
    cases two
    rename_i other
    cases found.symm.trans other
    rfl
  | reapply call pending valid =>
    cases two
    rename_i other pending'
    cases pending.symm.trans pending'
    cases valid.symm.trans other
    rfl
  | lock call pending | check call pending | insert call pending =>
    cases two
    rename_i other
    cases pending.symm.trans other
    rfl
  | commit call query pending =>
    cases two
    rename_i other _
    cases pending.symm.trans other
    rfl
  | notification id query notified =>
    cases two
    rename_i other _
    cases notified.symm.trans other
    rfl
  | loadLatest query asked =>
    cases two
    rename_i other _
    cases asked.symm.trans other
    rfl
  | setCurrent query answered =>
    cases two
    rename_i other
    cases answered.symm.trans other
    rfl
  | rollback | initRuntimeConfig | listen =>
    cases two
    rfl

end Cluster

end RuntimeConfig

end SorobanExplorer.Indexer
