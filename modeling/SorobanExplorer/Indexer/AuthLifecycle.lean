import SorobanExplorer.Library.Run
import Mathlib.Data.Nat.Notation
import Mathlib.Logic.Function.Basic
import Mathlib.Order.Nat
import Mathlib.Tactic.SplitIfs

/-!
Owns the sessions of developer accounts: the rows of `auth_sessions`, what makes one valid, and
the statements that insert, touch and revoke them. Then their life under concurrent requests: the
statements that `loadSession`, `startSession`, `rotateSession`, `endSession` and the recovery route
run, one step each, and the chains of sessions that rotations make.

The id of a session and its hash are one number. A sign-in starts a chain at the instant from
which `startSession` computes the absolute expiry. The chains, their sign-ins and the chains that a
recovery has cut are recorded beside the table; no statement reads them.
-/

namespace SorobanExplorer.Indexer

namespace Auth

abbrev SessionId := ℕ

abbrev AccountId := ℕ

inductive AuthMethod where
  | passkey
  | email
  | recovery
  | stellar
deriving DecidableEq, Repr

/-- `IDLE_TIMEOUT_MS`, `ABSOLUTE_TIMEOUT_MS` and `STEP_UP_MS` -/
structure Timeouts where
  idle : ℕ
  absolute : ℕ
  stepUp : ℕ

/-- A row of `auth_sessions`. -/
structure Session where
  account : AccountId
  authMethod : AuthMethod
  lastSeenAt : ℕ
  expiresAt : ℕ
  elevatedUntil : Option ℕ
  revokedAt : Option ℕ
deriving DecidableEq, Repr

inductive Verdict where
  | valid
  | missing
  | revoked
  | expired
  | idle
deriving DecidableEq, Repr

def evaluateSession (timeouts : Timeouts) (row : Option Session) (now : ℕ) : Verdict :=
  match row with
  | none => .missing
  | some session =>
    if session.revokedAt.isSome then .revoked
    else if session.expiresAt ≤ now then .expired
    else if session.lastSeenAt + timeouts.idle ≤ now then .idle
    else .valid

def isElevated (session : Session) (now : ℕ) : Bool :=
  session.elevatedUntil.any fun limit => now < limit

namespace Session

/-- `SET revoked_at = now() WHERE … AND revoked_at IS NULL` -/
def revoke (session : Session) (now : ℕ) : Session :=
  { session with revokedAt := some (session.revokedAt.getD now) }

@[simp] theorem revokedAt_revoke (session : Session) (now : ℕ) :
    (session.revoke now).revokedAt ≠ none := Option.some_ne_none _

end Session

abbrev Sessions := SessionId → Option Session

namespace Sessions

def insertAuthSession (sessions : Sessions) (id : SessionId) (session : Session) : Sessions :=
  Function.update sessions id (some session)

def updateWhere (sessions : Sessions) (condition : SessionId → Session → Bool)
    (write : Session → Session) : Sessions :=
  fun id => (sessions id).map fun session => if condition id session then write session else session

def revokeAuthSession (sessions : Sessions) (id : SessionId) (now : ℕ) : Sessions :=
  sessions.updateWhere (fun other _ => other = id) fun session => session.revoke now

/-- `startSession` and `endSession` revoke the session of the cookie, if there is a cookie. -/
def revokeCookie (sessions : Sessions) (cookie : Option SessionId) (now : ℕ) : Sessions :=
  match cookie with
  | none => sessions
  | some id => sessions.revokeAuthSession id now

def revokeAccountSessions (sessions : Sessions) (account : AccountId)
    (exceptId : Option SessionId) (now : ℕ) : Sessions :=
  sessions.updateWhere (fun id session => session.account = account ∧ some id ≠ exceptId)
    fun session => session.revoke now

def touchAuthSession (sessions : Sessions) (id : SessionId) (now : ℕ) : Sessions :=
  sessions.updateWhere (fun other _ => other = id) fun session => { session with lastSeenAt := now }

variable {sessions : Sessions} {id other : SessionId} {session row : Session} {now : ℕ}

theorem insertAuthSession_eq_some_iff :
    sessions.insertAuthSession id session other = some row ↔
      other = id ∧ row = session ∨ other ≠ id ∧ sessions other = some row := by
  by_cases same : other = id
  · subst same
    simp [insertAuthSession, eq_comm]
  · simp [insertAuthSession, same]

theorem updateWhere_eq_some_iff {condition : SessionId → Session → Bool}
    {write : Session → Session} :
    sessions.updateWhere condition write id = some row ↔
      ∃ earlier, sessions id = some earlier ∧
        row = if condition id earlier then write earlier else earlier := by
  rw [updateWhere, Option.map_eq_some_iff]
  exact exists_congr fun earlier => and_congr_right fun _ => eq_comm

end Sessions

variable {timeouts : Timeouts} {session : Session} {now : ℕ}

theorem evaluateSession_eq_valid_iff :
    evaluateSession timeouts (some session) now = .valid ↔
      session.revokedAt = none ∧ now < session.expiresAt ∧
        now < session.lastSeenAt + timeouts.idle := by
  unfold evaluateSession
  dsimp only
  split_ifs with revoked expired idle
  · simp [Option.isSome_iff_ne_none.mp revoked]
  · simp [not_lt.mpr expired]
  · simp [not_lt.mpr idle]
  · simp [Option.not_isSome_iff_eq_none.mp revoked, not_le.mp expired, not_le.mp idle]

theorem exists_row_of_valid {row : Option Session}
    (valid : evaluateSession timeouts row now = .valid) : ∃ session, row = some session := by
  cases row with
  | none => cases valid
  | some session => exact ⟨session, rfl⟩

end Auth

open Library

namespace Auth

abbrev RequestId := ℕ

abbrev ChainId := ℕ

/-- The arguments of `insertAuthSession`. -/
structure NewSession where
  account : AccountId
  authMethod : AuthMethod
  expiresAt : ℕ
  elevatedUntil : Option ℕ
deriving DecidableEq, Repr

/-- The row that `insertAuthSession` writes; `last_seen_at` defaults to `now()`. -/
def NewSession.row (new : NewSession) (now : ℕ) : Session where
  account := new.account
  authMethod := new.authMethod
  lastSeenAt := now
  expiresAt := new.expiresAt
  elevatedUntil := new.elevatedUntil
  revokedAt := none

inductive Stage where
  /-- before `loadSession` -/
  | arrived
  /-- `loadSession` found its session valid and is about to touch it -/
  | touching
  | handling
  /-- `startSession` is about to revoke the session of the cookie -/
  | starting (account : AccountId) (authMethod : AuthMethod) (elevated : Bool)
  /-- `startSession` has revoked it and is about to read the clock -/
  | stamping (account : AccountId) (authMethod : AuthMethod) (elevated : Bool)
  /-- `rotateSession` has revoked the loaded session and is about to read the clock -/
  | replacing (chain : ChainId) (session : Session) (elevated : Bool)
  | inserting (chain : ChainId) (new : NewSession)
  /-- the session is changed, and the handler goes on -/
  | settled
deriving DecidableEq, Repr

def Stage.chain? : Stage → Option ChainId
  | .replacing chain _ _ | .inserting chain _ => some chain
  | _ => none

/-- A request with the cookie it came with and `req.session`. -/
structure Request where
  cookie : Option SessionId
  session : Option (SessionId × Session)
  stage : Stage

structure SignIn where
  account : AccountId
  signedInAt : ℕ

structure Lifecycle where
  now : ℕ
  sessions : Sessions
  requests : RequestId → Option Request
  /-- the chain of every session that was inserted -/
  chainOf : SessionId → ChainId
  signIns : ChainId → Option SignIn
  /-- started before a recovery revoked the sessions of its account -/
  cut : ChainId → Prop

inductive Action where
  | tick (later : ℕ)
  | arrive (request : RequestId) (cookie : Option SessionId)
  | load (request : RequestId)
  | skip (request : RequestId)
  | touch (request : RequestId)
  | touchFails (request : RequestId)
  | recover (request : RequestId) (account : AccountId)
  | signIn (request : RequestId) (account : AccountId) (authMethod : AuthMethod) (elevated : Bool)
  | revokeCurrent (request : RequestId)
  | stamp (request : RequestId) (chain : ChainId)
  | rotate (request : RequestId) (elevated : Bool)
  | stampRotated (request : RequestId)
  | insert (request : RequestId) (id : SessionId)
  | logout (request : RequestId)
  | close (request : RequestId)

namespace Lifecycle

def start : Lifecycle where
  now := 0
  sessions := fun _ => none
  requests := fun _ => none
  chainOf := fun _ => 0
  signIns := fun _ => none
  cut := fun _ => False

def setRequest (state : Lifecycle) (id : RequestId) (request : Option Request) : Lifecycle :=
  { state with requests := Function.update state.requests id request }

theorem requests_setRequest (state : Lifecycle) (id other : RequestId) (request : Option Request) :
    (state.setRequest id request).requests other =
      if other = id then request else state.requests other :=
  Function.update_apply state.requests id request other

def advance (state : Lifecycle) (id : RequestId) (request : Request) (stage : Stage) : Lifecycle :=
  state.setRequest id (some { request with stage := stage })

def stamp (state : Lifecycle) (timeouts : Timeouts) (id : RequestId) (request : Request)
    (chain : ChainId) (account : AccountId) (authMethod : AuthMethod) (elevated : Bool) :
    Lifecycle :=
  let new : NewSession :=
    { account, authMethod
      expiresAt := state.now + timeouts.absolute
      elevatedUntil := if elevated then some (state.now + timeouts.stepUp) else none }
  { state.advance id request (.inserting chain new) with
    signIns := Function.update state.signIns chain (some ⟨account, state.now⟩) }

/-- What `rotateSession` inserts for the session that it replaces. -/
def replacement (timeouts : Timeouts) (session : Session) (elevated : Bool) (now : ℕ) :
    NewSession where
  account := session.account
  authMethod := session.authMethod
  expiresAt := session.expiresAt
  elevatedUntil := if elevated then some (now + timeouts.stepUp) else session.elevatedUntil

def insert (state : Lifecycle) (id : RequestId) (request : Request) (chain : ChainId)
    (new : NewSession) (sessionId : SessionId) : Lifecycle :=
  { state.advance id request .settled with
    sessions := state.sessions.insertAuthSession sessionId (new.row state.now)
    chainOf := Function.update state.chainOf sessionId chain }

def recover (state : Lifecycle) (id : RequestId) (request : Request) (account : AccountId) :
    Lifecycle :=
  { state.advance id request (.starting account .recovery true) with
    sessions := state.sessions.revokeAccountSessions account none state.now
    cut := fun chain => state.cut chain ∨ ∃ at', state.signIns chain = some ⟨account, at'⟩ }

def write (state : Lifecycle) (sessions : Sessions) : Lifecycle := { state with sessions }

/-- One statement of one request. Any statement may fail, and then its handler ends with `close`;
only `loadSession` goes on when a statement of its own fails. -/
inductive Step (timeouts : Timeouts) : Lifecycle → Action → Lifecycle → Prop
  | tick {state : Lifecycle} (later : ℕ) (forward : state.now ≤ later) :
      Step timeouts state (.tick later) { state with now := later }
  | arrive {state : Lifecycle} (id : RequestId) (cookie : Option SessionId)
      (fresh : state.requests id = none) :
      Step timeouts state (.arrive id cookie)
        (state.setRequest id (some ⟨cookie, none, .arrived⟩))
  | load {state : Lifecycle} (id : RequestId) {sessionId : SessionId} {session : Session}
      (current : state.requests id = some ⟨some sessionId, none, .arrived⟩)
      (row : state.sessions sessionId = some session)
      (valid : evaluateSession timeouts (some session) state.now = .valid) :
      Step timeouts state (.load id)
        (state.setRequest id (some ⟨some sessionId, some (sessionId, session), .touching⟩))
  -- No cookie, no valid session by the time it is evaluated, or a lookup that failed.
  | skip {state : Lifecycle} (id : RequestId) {cookie : Option SessionId}
      (current : state.requests id = some ⟨cookie, none, .arrived⟩) :
      Step timeouts state (.skip id) (state.setRequest id (some ⟨cookie, none, .handling⟩))
  | touch {state : Lifecycle} (id : RequestId) {cookie : Option SessionId} {sessionId : SessionId}
      {session : Session}
      (current : state.requests id = some ⟨cookie, some (sessionId, session), .touching⟩) :
      Step timeouts state (.touch id)
        ((state.advance id ⟨cookie, some (sessionId, session), .touching⟩ .handling).write
          (state.sessions.touchAuthSession sessionId state.now))
  | touchFails {state : Lifecycle} (id : RequestId) {request : Request}
      (current : state.requests id = some request) (stage : request.stage = .touching) :
      Step timeouts state (.touchFails id) (state.advance id request .handling)
  | recover {state : Lifecycle} (id : RequestId) {request : Request} (account : AccountId)
      (current : state.requests id = some request) (stage : request.stage = .handling) :
      Step timeouts state (.recover id account) (state.recover id request account)
  | signIn {state : Lifecycle} (id : RequestId) {request : Request} (account : AccountId)
      (authMethod : AuthMethod) (elevated : Bool)
      (current : state.requests id = some request) (stage : request.stage = .handling) :
      Step timeouts state (.signIn id account authMethod elevated)
        (state.advance id request (.starting account authMethod elevated))
  | revokeCurrent {state : Lifecycle} (id : RequestId) {request : Request} {account : AccountId}
      {authMethod : AuthMethod} {elevated : Bool}
      (current : state.requests id = some request)
      (stage : request.stage = .starting account authMethod elevated) :
      Step timeouts state (.revokeCurrent id)
        ((state.advance id request (.stamping account authMethod elevated)).write
          (state.sessions.revokeCookie request.cookie state.now))
  | stamp {state : Lifecycle} (id : RequestId) {request : Request} (chain : ChainId)
      {account : AccountId} {authMethod : AuthMethod} {elevated : Bool}
      (current : state.requests id = some request)
      (stage : request.stage = .stamping account authMethod elevated)
      (fresh : state.signIns chain = none) :
      Step timeouts state (.stamp id chain)
        (state.stamp timeouts id request chain account authMethod elevated)
  | rotate {state : Lifecycle} (id : RequestId) {request : Request} {sessionId : SessionId}
      {session : Session} (elevated : Bool)
      (current : state.requests id = some request) (stage : request.stage = .handling)
      (loaded : request.session = some (sessionId, session)) :
      Step timeouts state (.rotate id elevated)
        ((state.advance id request (.replacing (state.chainOf sessionId) session elevated)).write
          (state.sessions.revokeAuthSession sessionId state.now))
  | stampRotated {state : Lifecycle} (id : RequestId) {request : Request} {chain : ChainId}
      {session : Session} {elevated : Bool}
      (current : state.requests id = some request)
      (stage : request.stage = .replacing chain session elevated) :
      Step timeouts state (.stampRotated id)
        (state.advance id request
          (.inserting chain (replacement timeouts session elevated state.now)))
  -- A fresh id: it is a random token, and the table has a primary key.
  | insert {state : Lifecycle} (id : RequestId) {request : Request} {chain : ChainId}
      {new : NewSession} (sessionId : SessionId)
      (current : state.requests id = some request) (stage : request.stage = .inserting chain new)
      (fresh : state.sessions sessionId = none) :
      Step timeouts state (.insert id sessionId) (state.insert id request chain new sessionId)
  | logout {state : Lifecycle} (id : RequestId) {request : Request}
      (current : state.requests id = some request) (stage : request.stage = .handling) :
      Step timeouts state (.logout id)
        ((state.advance id request .settled).write
          (state.sessions.revokeCookie request.cookie state.now))
  | close {state : Lifecycle} (id : RequestId) :
      Step timeouts state (.close id) (state.setRequest id none)

theorem deterministic (timeouts : Timeouts) : Deterministic (Step timeouts) := by
  intro state action first second one two
  cases one with
  | load id current row valid =>
    cases two with
    | load _ other found =>
      cases current.symm.trans other
      cases row.symm.trans found
      rfl
  | skip id current =>
    cases two with
    | skip _ other =>
      cases current.symm.trans other
      rfl
  | touch id current =>
    cases two with
    | touch _ other =>
      cases current.symm.trans other
      rfl
  | touchFails id current =>
    cases two with
    | touchFails _ other =>
      cases current.symm.trans other
      rfl
  | recover id account current =>
    cases two with
    | recover _ _ other =>
      cases current.symm.trans other
      rfl
  | signIn id account authMethod elevated current =>
    cases two with
    | signIn _ _ _ _ other =>
      cases current.symm.trans other
      rfl
  | revokeCurrent id current stage =>
    cases two with
    | revokeCurrent _ other otherStage =>
      cases current.symm.trans other
      cases stage.symm.trans otherStage
      rfl
  | stamp id chain current stage =>
    cases two with
    | stamp _ _ other otherStage =>
      cases current.symm.trans other
      cases stage.symm.trans otherStage
      rfl
  | rotate id elevated current stage loaded =>
    cases two with
    | rotate _ _ other otherStage otherLoaded =>
      cases current.symm.trans other
      cases loaded.symm.trans otherLoaded
      rfl
  | stampRotated id current stage =>
    cases two with
    | stampRotated _ other otherStage =>
      cases current.symm.trans other
      cases stage.symm.trans otherStage
      rfl
  | insert id sessionId current stage =>
    cases two with
    | insert _ _ other otherStage =>
      cases current.symm.trans other
      cases stage.symm.trans otherStage
      rfl
  | logout id current =>
    cases two with
    | logout _ other =>
      cases current.symm.trans other
      rfl
  | tick | arrive | close =>
    cases two
    rfl

end Lifecycle

end Auth

end SorobanExplorer.Indexer
