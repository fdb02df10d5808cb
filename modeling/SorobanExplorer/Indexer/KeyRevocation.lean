import SorobanExplorer.Indexer.ApiKeys
import SorobanExplorer.Library.Run
import SorobanExplorer.Library.Slots

/-!
Owns what becomes of a deleted key: calls of the key manager and authentications of any number of
processes, each with its cache of key records, in any order.

A deletion is in force until `updateKey` sets `revoked` to false. A record that was read before it
is what the cache may still hold; a record that was read under it must not be accepted. `deleteKey`
leaves a running grace period alone, and `rotateKey` starts one for any key, revoked or not.
-/

namespace SorobanExplorer.Indexer

open Library

namespace ApiKeys

/-- `KEY_CACHE_TTL_MS` -/
def keyCacheTtlMs : ℕ := 30000

/-- A record as it was read from the table, and the deletion that was in force then. -/
structure Record where
  key : Key
  readUnder : Option ℕ

/-- An entry of `keyCache`, which may be used until it expires. -/
structure Cached where
  entry : Record
  expiresAt : ℕ

structure Lookup where
  process : ℕ
  id : KeyId
  found : Record

structure KeyServer where
  now : ℕ
  keys : Keys
  /-- the number of the deletion that is in force -/
  deletions : KeyId → Option ℕ
  deletionCount : ℕ
  keyCache : ℕ → KeyId → Option Cached
  lookups : ℕ → Option Lookup
  /-- a request was accepted with a record read under the deletion in force -/
  breached : Prop
  /-- a rotation of a revoked key inserted a valid one -/
  reissued : Prop

inductive KeyAction where
  | tick (later : ℕ)
  | create (id : KeyId) (new : NewKey) (scopes : List String)
      (allowedContractIds allowedOrigins : Option (List String))
  | update (id : KeyId) (updates : Updates)
  | delete (id : KeyId)
  | rotate (id new : KeyId) (grace : ℕ)
  | hit (process : ℕ) (id : KeyId) (clientIp path : String)
  | read (request process : ℕ) (id : KeyId)
  | resolve (request : ℕ) (clientIp path : String)
  | evict (process : ℕ) (id : KeyId)

namespace KeyServer

variable {ipMatchesCidr : String → String → Bool}

def start : KeyServer where
  now := 0
  keys := fun _ => none
  deletions := fun _ => none
  deletionCount := 0
  keyCache := fun _ _ => none
  lookups := fun _ => none
  breached := False
  reissued := False

def setKey (server : KeyServer) (id : KeyId) (key : Key) : KeyServer :=
  { server with keys := Function.update server.keys id (some key) }

def valid (key : Key) (now : ℕ) : Prop :=
  key.revoked = false ∧ key.verified = true ∧ key.expired now = false

def update (server : KeyServer) (id : KeyId) (updates : Updates) (key : Key) : KeyServer :=
  { server.setKey id key with
    deletions := if updates.revoked = some false then Function.update server.deletions id none
      else server.deletions }

def delete (server : KeyServer) (id : KeyId) (key : Key) : KeyServer :=
  { server.setKey id (deleteKey key) with
    deletions := Function.update server.deletions id (some server.deletionCount)
    deletionCount := server.deletionCount + 1 }

def rotate (server : KeyServer) (existing copy : Key) (keys : Keys) : KeyServer :=
  { server with
    keys
    reissued := server.reissued ∨ existing.revoked = true ∧ valid copy server.now }

def authenticate (ipMatchesCidr : String → String → Bool) (server : KeyServer) (id : KeyId)
    (found : Record) (clientIp path : String) : KeyServer :=
  { server with
    breached := server.breached ∨
      apiKeyAuthenticator ipMatchesCidr found.key ⟨clientIp, path, server.now⟩ = .accepted ∧
        found.readUnder ≠ none ∧ found.readUnder = server.deletions id }

def setCached (server : KeyServer) (process : ℕ) (id : KeyId) (cached : Option Cached) :
    KeyServer :=
  { server with
    keyCache := Function.update server.keyCache process
      (Function.update (server.keyCache process) id cached) }

def setLookup (server : KeyServer) (request : ℕ) (lookup : Option Lookup) : KeyServer :=
  { server with lookups := Function.update server.lookups request lookup }

/-- The calls and the statements of authentications. A call that fails changes nothing. -/
inductive Step (ipMatchesCidr : String → String → Bool) :
    KeyServer → KeyAction → KeyServer → Prop
  | tick {server : KeyServer} (later : ℕ) (forward : server.now ≤ later) :
      Step ipMatchesCidr server (.tick later) { server with now := later }
  | create {server : KeyServer} (id : KeyId) (new : NewKey) (scopes : List String)
      (contracts origins : Option (List String)) (fresh : server.keys id = none) :
      Step ipMatchesCidr server (.create id new scopes contracts origins)
        (server.setKey id (createKey new scopes contracts origins))
  | update {server : KeyServer} (id : KeyId) (updates : Updates) {key updated : Key}
      (found : server.keys id = some key) (success : updateKey updates key = some updated) :
      Step ipMatchesCidr server (.update id updates) (server.update id updates updated)
  | delete {server : KeyServer} (id : KeyId) {key : Key} (found : server.keys id = some key) :
      Step ipMatchesCidr server (.delete id) (server.delete id key)
  | rotate {server : KeyServer} (id new : KeyId) (grace : ℕ) {existing copy : Key} {keys : Keys}
      (fresh : server.keys new = none) (found : server.keys id = some existing)
      (copied : rotatedCopy existing = some copy)
      (success : rotateKey server.keys id new server.now grace = some keys) :
      Step ipMatchesCidr server (.rotate id new grace) (server.rotate existing copy keys)
  | hit {server : KeyServer} (process : ℕ) (id : KeyId) {cached : Cached} (clientIp path : String)
      (entry : server.keyCache process id = some cached) (unexpired : server.now ≤ cached.expiresAt) :
      Step ipMatchesCidr server (.hit process id clientIp path)
        (server.authenticate ipMatchesCidr id cached.entry clientIp path)
  -- `SELECT … FROM api_keys WHERE key_prefix = $1`
  | read {server : KeyServer} (request process : ℕ) (id : KeyId) {key : Key}
      (fresh : server.lookups request = none) (found : server.keys id = some key) :
      Step ipMatchesCidr server (.read request process id)
        (server.setLookup request (some ⟨process, id, ⟨key, server.deletions id⟩⟩))
  | resolve {server : KeyServer} (request : ℕ) {lookup : Lookup} (clientIp path : String)
      (pending : server.lookups request = some lookup) :
      Step ipMatchesCidr server (.resolve request clientIp path)
        (((server.setLookup request none).setCached lookup.process lookup.id
          (some ⟨lookup.found, server.now + keyCacheTtlMs⟩)).authenticate ipMatchesCidr lookup.id
            lookup.found clientIp path)
  | evict {server : KeyServer} (process : ℕ) (id : KeyId) :
      Step ipMatchesCidr server (.evict process id) (server.setCached process id none)

/-- No record that was read under the deletion in force was accepted, and no rotation of a revoked
key issued a valid one. -/
def Upheld (server : KeyServer) : Prop := ¬ server.breached ∧ ¬ server.reissued

/-- `deleteKey` finds no running grace period, and `rotateKey` no revoked key, unless it fails. -/
def Spared (server : KeyServer) : KeyAction → Prop
  | .delete id => ∀ key, server.keys id = some key → key.graceOver server.now = true
  | .rotate id _ _ => ∀ key, server.keys id = some key → key.revoked = true →
      rotatedCopy key = none
  | _ => True

def Dead (key : Key) (now : ℕ) : Prop := key.revoked = true ∧ key.graceOver now = true

theorem Dead.mono {key : Key} {now later : ℕ} (dead : Dead key now) (forward : now ≤ later) :
    Dead key later := by
  refine ⟨dead.1, ?_⟩
  have elapsed := dead.2
  unfold Key.graceOver at elapsed ⊢
  cases grace : key.rotationGraceUntil with
  | none => rfl
  | some limit =>
    rw [grace] at elapsed
    exact decide_eq_true ((of_decide_eq_true elapsed).trans forward)

theorem Dead.not_accepted {key : Key} {call : Call} (dead : Dead key call.now) :
    apiKeyAuthenticator ipMatchesCidr key call ≠ .accepted := by
  intro accepted
  exact Bool.false_ne_true ((accepted_iff.mp accepted).1 dead.1 ▸ dead.2)

/-- Under a deletion in force a row is dead, and so is every record that was read under one. -/
structure Buried (server : KeyServer) : Prop where
  rows : ∀ id, server.deletions id ≠ none → ∃ key, server.keys id = some key ∧ Dead key server.now
  cached : ∀ process id cached, server.keyCache process id = some cached →
    cached.entry.readUnder ≠ none → Dead cached.entry.key server.now
  pending : ∀ request lookup, server.lookups request = some lookup →
    lookup.found.readUnder ≠ none → Dead lookup.found.key server.now
  upheld : server.Upheld

variable {server before after : KeyServer} {action : KeyAction} {id : KeyId} {key : Key}

theorem buried_start : start.Buried :=
  ⟨fun _ deleted => absurd rfl deleted, fun _ _ _ found => (nomatch found),
    fun _ _ found => (nomatch found), id, id⟩

theorem keys_setKey (server : KeyServer) (id other : KeyId) (key : Key) :
    (server.setKey id key).keys other = if other = id then some key else server.keys other :=
  Function.update_apply server.keys id (some key) other

/-! ### What each call does to deleted keys -/

theorem Dead.updateKey {updates : Updates} {updated : Key} {now : ℕ} (dead : Dead key now)
    (success : ApiKeys.updateKey updates key = some updated)
    (kept : updates.revoked ≠ some false) : Dead updated now := by
  simp only [ApiKeys.updateKey, Option.bind_eq_bind, Option.bind_eq_some_iff] at success
  obtain ⟨ips, -, endpoints, -, same⟩ := success
  cases same
  refine ⟨?_, dead.2⟩
  cases revoked : updates.revoked with
  | none => exact dead.1
  | some value =>
    cases value with
    | true => rfl
    | false => exact absurd revoked kept

namespace Buried

theorem setKey (buried : server.Buried) (deletions : KeyId → Option ℕ) (deletionCount : ℕ)
    (others : ∀ other, other ≠ id → deletions other = server.deletions other)
    (dead : deletions id ≠ none → Dead key server.now) :
    ({ server.setKey id key with deletions, deletionCount } : KeyServer).Buried := by
  refine ⟨?_, buried.cached, buried.pending, buried.upheld⟩
  intro other deleted
  dsimp only at deleted ⊢
  rw [keys_setKey]
  split
  · next same =>
      subst same
      exact ⟨key, rfl, dead deleted⟩
  · next differs =>
      rw [others other differs] at deleted
      exact buried.rows other deleted

theorem undeleted (buried : server.Buried) (fresh : server.keys id = none) :
    server.deletions id = none := by
  by_contra deleted
  obtain ⟨key, found, -⟩ := buried.rows id deleted
  cases fresh.symm.trans found

theorem update (buried : server.Buried) {updates : Updates} {updated : Key}
    (found : server.keys id = some key) (success : updateKey updates key = some updated) :
    (server.update id updates updated).Buried := by
  apply buried.setKey
  · intro other differs
    split
    · exact Function.update_of_ne differs _ _
    · rfl
  · intro deleted
    split at deleted
    · exact absurd (Function.update_self ..) deleted
    · next kept =>
        obtain ⟨row, present, dead⟩ := buried.rows id deleted
        cases found.symm.trans present
        exact dead.updateKey success kept

theorem delete (buried : server.Buried) (elapsed : key.graceOver server.now = true) :
    (server.delete id key).Buried :=
  buried.setKey _ _ (fun _ differs => Function.update_of_ne differs _ _) fun _ => ⟨rfl, elapsed⟩

theorem rotate (buried : server.Buried) {new : KeyId} {grace : ℕ} {existing copy : Key}
    {keys : Keys} (fresh : server.keys new = none) (found : server.keys id = some existing)
    (live : existing.revoked = false)
    (success : rotateKey server.keys id new server.now grace = some keys) :
    (server.rotate existing copy keys).Buried := by
  obtain ⟨row, inserted, present, -, rfl⟩ := rotateKey_eq_some_iff.mp success
  refine ⟨?_, buried.cached, buried.pending, buried.upheld.1, ?_⟩
  · intro other deleted
    obtain ⟨key, known, dead⟩ := buried.rows other deleted
    have notRotated : other ≠ id := by
      rintro rfl
      cases found.symm.trans known
      exact Bool.false_ne_true (live.symm.trans dead.1)
    have notNew : other ≠ new := by
      rintro rfl
      cases fresh.symm.trans known
    refine ⟨key, ?_, dead⟩
    change Function.update (Function.update server.keys new _) id _ other = some key
    rw [Function.update_of_ne notRotated, Function.update_of_ne notNew, known]
  · rintro (earlier | ⟨revoked, -⟩)
    · exact buried.upheld.2 earlier
    · exact Bool.false_ne_true (live.symm.trans revoked)

theorem authenticate (buried : server.Buried) {found : Record} {clientIp path : String}
    (dead : found.readUnder ≠ none → Dead found.key server.now) :
    (server.authenticate ipMatchesCidr id found clientIp path).Buried := by
  refine ⟨buried.rows, buried.cached, buried.pending, ?_, buried.upheld.2⟩
  rintro (earlier | ⟨accepted, under, -⟩)
  · exact buried.upheld.1 earlier
  · exact (dead under).not_accepted accepted

theorem setCached (buried : server.Buried) {process : ℕ} {cached : Option Cached}
    (dead : ∀ entry, cached = some entry → entry.entry.readUnder ≠ none →
      Dead entry.entry.key server.now) :
    (server.setCached process id cached).Buried := by
  refine ⟨buried.rows, ?_, buried.pending, buried.upheld⟩
  intro other otherId entry found
  change Function.update server.keyCache process _ other otherId = some entry at found
  rw [Function.update_apply] at found
  split at found
  · rw [Function.update_apply] at found
    split at found
    · exact dead entry found
    · exact buried.cached process otherId entry found
  · exact buried.cached other otherId entry found

theorem setLookup (buried : server.Buried) {request : ℕ} {lookup : Option Lookup}
    (dead : ∀ next, lookup = some next → next.found.readUnder ≠ none →
      Dead next.found.key server.now) :
    (server.setLookup request lookup).Buried :=
  ⟨buried.rows, buried.cached, forall_update buried.pending dead, buried.upheld⟩

theorem step (buried : before.Buried) (spared : before.Spared action)
    (taken : Step ipMatchesCidr before action after) : after.Buried := by
  cases taken with
  | tick later forward =>
    refine ⟨?_, ?_, ?_, buried.upheld⟩
    · intro id deleted
      obtain ⟨key, found, dead⟩ := buried.rows id deleted
      exact ⟨key, found, dead.mono forward⟩
    · exact fun process id cached found under =>
        (buried.cached process id cached found under).mono forward
    · exact fun request lookup found under =>
        (buried.pending request lookup found under).mono forward
  | create id new scopes contracts origins fresh =>
    exact buried.setKey before.deletions before.deletionCount (fun _ _ => rfl)
      fun deleted => absurd (buried.undeleted fresh) deleted
  | update id updates found success => exact buried.update found success
  | delete id found => exact buried.delete (spared _ found)
  | @rotate id new grace existing copy keys fresh found copied success =>
    have live : existing.revoked = false := by
      by_contra revoked
      have failed := spared existing found (Bool.not_eq_false _ ▸ revoked)
      cases copied.symm.trans failed
    exact buried.rotate fresh found live success
  | hit process id clientIp path entry =>
    exact buried.authenticate (buried.cached process id _ entry)
  | read request process id fresh found =>
    apply buried.setLookup
    intro next same under
    cases same
    obtain ⟨key, present, dead⟩ := buried.rows id under
    cases found.symm.trans present
    exact dead
  | resolve request clientIp path pending =>
    have dead := buried.pending request _ pending
    have taken : (before.setLookup request none).Buried :=
      buried.setLookup fun _ same => nomatch same
    refine authenticate (taken.setCached ?_) dead
    intro entry same
    cases same
    exact dead
  | evict process id => exact buried.setCached fun _ same => nomatch same

end Buried

/-! ### Whole runs -/

/-- In every run whose deletions and rotations are spared, a deleted key stays shut. -/
theorem upheld_of_eachStep {actions : List KeyAction}
    (spared : EachStep (Step ipMatchesCidr) start actions Spared) :
    Along (Step ipMatchesCidr) start actions fun _ server => server.Upheld := by
  have buried := spared.along (P := fun _ server => server.Buried) buried_start
    fun _ _ _ _ _ holds guard taken => holds.step guard taken
  exact fun history isPrefix server run => (buried history isPrefix server run).upheld

/-- A cache uses no record for longer than the time to live: what was read before a deletion runs
out. -/
theorem expiresAt_le_of_run {actions : List KeyAction}
    (run : Run (Step ipMatchesCidr) start actions server) {process : ℕ} {cached : Cached}
    (found : server.keyCache process id = some cached) :
    cached.expiresAt ≤ server.now + keyCacheTtlMs := by
  have bounded : ∀ process id cached, server.keyCache process id = some cached →
      cached.expiresAt ≤ server.now + keyCacheTtlMs := by
    refine run.invariant (P := fun server => ∀ process id cached,
      server.keyCache process id = some cached →
        cached.expiresAt ≤ server.now + keyCacheTtlMs) ?_ ?_
    · intro process id cached found
      cases found
    intro before action after bounded taken
    have written {process : ℕ} {id : KeyId} {stored : Option Cached}
        (short : ∀ entry, stored = some entry → entry.expiresAt ≤ before.now + keyCacheTtlMs) :
        ∀ other otherId entry,
          (before.setCached process id stored).keyCache other otherId = some entry →
            entry.expiresAt ≤ before.now + keyCacheTtlMs := by
      intro other otherId entry found
      change Function.update before.keyCache process _ other otherId = some entry at found
      rw [Function.update_apply] at found
      split at found
      · rw [Function.update_apply] at found
        split at found
        · exact short entry found
        · exact bounded process otherId entry found
      · exact bounded other otherId entry found
    cases taken with
    | tick later forward =>
      intro process id cached found
      exact (bounded process id cached found).trans (Nat.add_le_add_right forward _)
    | resolve request clientIp path pending =>
      refine written fun entry same => ?_
      cases same
      exact Nat.le_refl _
    | evict process id => exact written fun _ same => nomatch same
    | _ => exact bounded
  exact bounded process id cached found

theorem deterministic (ipMatchesCidr : String → String → Bool) :
    Deterministic (Step ipMatchesCidr) := by
  intro server action first second one two
  cases one with
  | update id updates found success =>
    cases two with
    | update _ _ other again =>
      cases found.symm.trans other
      cases success.symm.trans again
      rfl
  | delete id found =>
    cases two with
    | delete _ other =>
      cases found.symm.trans other
      rfl
  | rotate id new grace fresh found copied success =>
    cases two with
    | rotate _ _ _ _ other copiedToo again =>
      cases found.symm.trans other
      cases copied.symm.trans copiedToo
      cases success.symm.trans again
      rfl
  | hit process id clientIp path entry =>
    cases two with
    | hit _ _ _ _ other =>
      cases entry.symm.trans other
      rfl
  | read request process id fresh found =>
    cases two with
    | read _ _ _ _ other =>
      cases found.symm.trans other
      rfl
  | resolve request clientIp path pending =>
    cases two with
    | resolve _ _ _ other =>
      cases pending.symm.trans other
      rfl
  | tick | create | evict =>
    cases two
    rfl

section OneKey

def freeKey : NewKey := ⟨"ci", none, .free, none, none, .null, .null, none, true⟩

def sameAddress (ip cidr : String) : Bool := ip = cidr

def lateDeletion : List KeyAction :=
  [.create 1 freeKey ["read:events"] none none, .rotate 1 2 60, .tick 60, .delete 1, .read 0 0 1,
    .resolve 0 "127.0.0.1" "/api/events"]

def earlyDeletion : List KeyAction :=
  [.create 1 freeKey ["read:events"] none none, .rotate 1 2 60, .delete 1, .read 0 0 1,
    .resolve 0 "127.0.0.1" "/api/events"]

def rotationOfDeleted : List KeyAction :=
  [.create 1 freeKey ["read:events"] none none, .delete 1, .rotate 1 2 60]

theorem lateDeletion_upheld : (∃ server, Run (Step sameAddress) start lateDeletion server) ∧
    Along (Step sameAddress) start lateDeletion fun _ server => server.Upheld := by
  have unique := deterministic sameAddress
  have empty : Run (Step sameAddress) start [] start ∧
      EachStep (Step sameAddress) start [] Spared := ⟨Run.nil, EachStep.nil⟩
  have created := EachStep.extend unique empty
    (show Spared _ (.create 1 freeKey ["read:events"] none none) from trivial)
    (.create 1 freeKey ["read:events"] none none rfl)
  have rotated := EachStep.extend unique created
    (show Spared _ (.rotate 1 2 60) from by
      intro key found revoked
      cases found
      cases revoked)
    (.rotate 1 2 60 rfl rfl rfl rfl)
  have waited := EachStep.extend unique rotated
    (show Spared _ (.tick 60) from trivial) (.tick 60 (by decide))
  have deleted := EachStep.extend unique waited
    (show Spared _ (.delete 1) from by
      intro key found
      cases found
      rfl)
    (.delete 1 rfl)
  have looked := EachStep.extend unique deleted
    (show Spared _ (.read 0 0 1) from trivial) (.read 0 0 1 rfl rfl)
  have refused := EachStep.extend unique looked
    (show Spared _ (.resolve 0 "127.0.0.1" "/api/events") from trivial)
    (.resolve 0 "127.0.0.1" "/api/events" rfl)
  exact ⟨⟨_, refused.1⟩, upheld_of_eachStep refused.2⟩

theorem deleted_accepted :
    (∃ server, Run (Step sameAddress) start earlyDeletion server ∧ ¬ server.Upheld) ∧
      ∃ server, Run (Step sameAddress) start rotationOfDeleted server ∧ ¬ server.Upheld := by
  have created : Run (Step sameAddress) start [.create 1 freeKey ["read:events"] none none] _ :=
    Run.one (.create 1 freeKey ["read:events"] none none rfl)
  have rotated := created.snoc (.rotate 1 2 60 rfl rfl rfl rfl)
  have deleted := rotated.snoc (.delete 1 rfl)
  have looked := deleted.snoc (.read 0 0 1 rfl rfl)
  have accepted := looked.snoc (.resolve 0 "127.0.0.1" "/api/events" rfl)
  have first := created.snoc (.delete 1 rfl)
  have reissued := first.snoc (.rotate 1 2 60 rfl rfl rfl rfl)
  refine ⟨⟨_, accepted, fun upheld => upheld.1 (Or.inr ⟨?_, ?_, rfl⟩)⟩,
    ⟨_, reissued, fun upheld => upheld.2 (Or.inr ⟨rfl, rfl, rfl, rfl⟩)⟩⟩
  · decide
  · decide

end OneKey

end KeyServer

end ApiKeys

end SorobanExplorer.Indexer
