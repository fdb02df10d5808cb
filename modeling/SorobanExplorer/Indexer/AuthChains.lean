import SorobanExplorer.Indexer.AuthLifecycle

/-!
Owns the rotation chains of sessions: that a recovery ends the chains started before it, that a
chain has at most one valid session, and that a chain ends with the absolute timeout of its
sign-in.

The last holds in every run. The first two rest on `Orderly`: of each chain at most one session is
unrevoked or about to be inserted, and none of a chain that was cut. `rotateSession` inserts
whether or not its revocation changed a row, so that it keeps this only when nothing else of the
chain is live, and a recovery keeps it only when nothing of the account is about to be inserted.
-/

namespace SorobanExplorer.Indexer

open Library

namespace Auth

namespace Lifecycle

def ValidNow (timeouts : Timeouts) (state : Lifecycle) (id : SessionId) : Prop :=
  evaluateSession timeouts (state.sessions id) state.now = .valid

structure Sound (timeouts : Timeouts) (state : Lifecycle) : Prop where
  recovered : ∀ id, state.ValidNow timeouts id → ¬ state.cut (state.chainOf id)
  single : ∀ first second, state.ValidNow timeouts first → state.ValidNow timeouts second →
    state.chainOf first = state.chainOf second → first = second
  bounded : ∀ id, state.ValidNow timeouts id → ∃ signIn,
    state.signIns (state.chainOf id) = some signIn ∧
      state.now < signIn.signedInAt + timeouts.absolute

inductive Holder where
  | session (id : SessionId)
  | request (id : RequestId)

def Live (state : Lifecycle) (chain : ChainId) : Holder → Prop
  | .session id => ∃ session, state.sessions id = some session ∧ session.revokedAt = none ∧
      state.chainOf id = chain
  | .request id => ∃ request, state.requests id = some request ∧ request.stage.chain? = some chain

/-- A rotation finds its chain uncut and nothing live in it but the session that it revokes, and a
recovery finds no request about to insert a session of a chain of the account. -/
def Spared (state : Lifecycle) : Action → Prop
  | .rotate id _ => ∀ request sessionId session, state.requests id = some request →
      request.session = some (sessionId, session) →
        ¬ state.cut (state.chainOf sessionId) ∧
          ∀ holder, state.Live (state.chainOf sessionId) holder → holder = .session sessionId
  | .recover _ account => ∀ chain signedInAt, state.signIns chain = some ⟨account, signedInAt⟩ →
      ∀ id, ¬ state.Live chain (.request id)
  | _ => True

/-! ### What sessions carry of their sign-in -/

def Stems (timeouts : Timeouts) (state : Lifecycle) (chain : ChainId) (account : AccountId)
    (expiresAt : ℕ) : Prop :=
  ∃ signedInAt, state.signIns chain = some ⟨account, signedInAt⟩ ∧
    expiresAt = signedInAt + timeouts.absolute

def StageStems (timeouts : Timeouts) (state : Lifecycle) : Stage → Prop
  | .replacing chain session _ => state.Stems timeouts chain session.account session.expiresAt
  | .inserting chain new => state.Stems timeouts chain new.account new.expiresAt
  | _ => True

structure Rooted (timeouts : Timeouts) (state : Lifecycle) : Prop where
  rows : ∀ id session, state.sessions id = some session →
    state.Stems timeouts (state.chainOf id) session.account session.expiresAt
  loaded : ∀ id request sessionId session, state.requests id = some request →
    request.session = some (sessionId, session) → state.sessions sessionId ≠ none ∧
      state.Stems timeouts (state.chainOf sessionId) session.account session.expiresAt
  stages : ∀ id request, state.requests id = some request →
    state.StageStems timeouts request.stage
  begun : ∀ chain, state.cut chain → state.signIns chain ≠ none

structure Exclusive (state : Lifecycle) : Prop where
  alone : ∀ chain first second, state.Live chain first → state.Live chain second → first = second
  severed : ∀ chain holder, state.cut chain → ¬ state.Live chain holder

variable {timeouts : Timeouts} {state before after : Lifecycle} {action : Action}

theorem rooted_start : start.Rooted timeouts := by
  constructor
  · intro id session found
    cases found
  · intro id request sessionId session found
    cases found
  · intro id request found
    cases found
  · exact fun chain cut => cut.elim

theorem exclusive_start : start.Exclusive := by
  have dead : ∀ chain holder, ¬ start.Live chain holder := by
    intro chain holder
    cases holder with
    | session id =>
      intro ⟨session, found, _⟩
      cases found
    | request id =>
      intro ⟨request, found, _⟩
      cases found
  exact ⟨fun chain first second one => absurd one (dead chain first), fun chain holder _ =>
    dead chain holder⟩

/-! ### Frames -/

theorem Rooted.setRequest (rooted : state.Rooted timeouts) (id : RequestId)
    (request : Option Request)
    (loaded : ∀ next sessionId session, request = some next →
      next.session = some (sessionId, session) → state.sessions sessionId ≠ none ∧
        state.Stems timeouts (state.chainOf sessionId) session.account session.expiresAt)
    (stages : ∀ next, request = some next → state.StageStems timeouts next.stage) :
    (state.setRequest id request).Rooted timeouts := by
  have found_cases {other : RequestId} {next : Request}
      (found : (state.setRequest id request).requests other = some next) :
      request = some next ∨ state.requests other = some next := by
    rw [requests_setRequest] at found
    split at found
    · exact Or.inl found
    · exact Or.inr found
  constructor
  · exact rooted.rows
  · intro other next sessionId session found holds
    rcases found_cases found with new | old
    · exact loaded next sessionId session new holds
    · exact rooted.loaded other next sessionId session old holds
  · intro other next found
    rcases found_cases found with new | old
    · exact stages next new
    · exact rooted.stages other next old
  · exact rooted.begun

theorem Rooted.advance (rooted : state.Rooted timeouts) {id : RequestId} {request : Request}
    (current : state.requests id = some request) (stage : Stage)
    (stems : state.StageStems timeouts stage) :
    (state.advance id request stage).Rooted timeouts := by
  apply rooted.setRequest
  · intro next sessionId session same holds
    cases same
    exact rooted.loaded id request sessionId session current holds
  · intro next same
    cases same
    exact stems

theorem Rooted.updateWhere (rooted : state.Rooted timeouts)
    (condition : SessionId → Session → Bool) (change : Session → Session)
    (account : ∀ session, (change session).account = session.account)
    (expiresAt : ∀ session, (change session).expiresAt = session.expiresAt) :
    (state.write (state.sessions.updateWhere condition change)).Rooted timeouts := by
  constructor
  · intro id session found
    obtain ⟨earlier, was, rfl⟩ := Sessions.updateWhere_eq_some_iff.mp found
    have stems := rooted.rows id earlier was
    split
    · rw [account, expiresAt]
      exact stems
    · exact stems
  · intro id request sessionId session found holds
    obtain ⟨present, stems⟩ := rooted.loaded id request sessionId session found holds
    refine ⟨?_, stems⟩
    simpa [write, Sessions.updateWhere] using present
  · exact rooted.stages
  · exact rooted.begun

theorem Rooted.revokeCookie (rooted : state.Rooted timeouts) (cookie : Option SessionId) :
    (state.write (state.sessions.revokeCookie cookie state.now)).Rooted timeouts := by
  cases cookie with
  | none => exact rooted
  | some id => exact rooted.updateWhere _ _ (fun _ => rfl) (fun _ => rfl)

theorem Stems.mono {later : Lifecycle} {chain : ChainId} {account : AccountId} {expiresAt : ℕ}
    (kept : ∀ signIn, state.signIns chain = some signIn → later.signIns chain = some signIn)
    (stems : state.Stems timeouts chain account expiresAt) :
    later.Stems timeouts chain account expiresAt := by
  obtain ⟨signedInAt, signIn, expiry⟩ := stems
  exact ⟨signedInAt, kept _ signIn, expiry⟩

theorem Rooted.begin (rooted : state.Rooted timeouts) {chain : ChainId}
    (fresh : state.signIns chain = none) (signIn : SignIn) :
    { state with signIns := Function.update state.signIns chain (some signIn) }.Rooted
      timeouts := by
  have kept : ∀ other known, state.signIns other = some known →
      Function.update state.signIns chain (some signIn) other = some known := by
    intro other known found
    have differs : other ≠ chain := by
      intro same
      rw [same, fresh] at found
      cases found
    exact (Function.update_of_ne differs _ _).trans found
  constructor
  · exact fun id session found => (rooted.rows id session found).mono (kept _)
  · intro id request sessionId session found holds
    obtain ⟨present, stems⟩ := rooted.loaded id request sessionId session found holds
    exact ⟨present, stems.mono (kept _)⟩
  · intro id request found
    have stems := rooted.stages id request found
    cases stage : request.stage with
    | replacing chain session elevated =>
      rw [stage] at stems
      exact Stems.mono (kept _) stems
    | inserting chain new =>
      rw [stage] at stems
      exact Stems.mono (kept _) stems
    | _ => trivial
  · intro other cut unknown
    obtain ⟨known, found⟩ := Option.ne_none_iff_exists'.mp (rooted.begun other cut)
    cases (kept other known found).symm.trans unknown

theorem Rooted.insertRow (rooted : state.Rooted timeouts) {id : SessionId} {chain : ChainId}
    (fresh : state.sessions id = none) (session : Session)
    (stems : state.Stems timeouts chain session.account session.expiresAt) :
    { state with
      sessions := state.sessions.insertAuthSession id session
      chainOf := Function.update state.chainOf id chain }.Rooted timeouts := by
  constructor
  · intro other row found
    rcases Sessions.insertAuthSession_eq_some_iff.mp found with ⟨rfl, rfl⟩ | ⟨differs, found⟩
    · simpa [Stems] using stems
    · simpa [Stems, differs] using rooted.rows other row found
  · intro request current other row found holds
    obtain ⟨present, stems⟩ := rooted.loaded request current other row found holds
    have differs : other ≠ id := fun same => present (same ▸ fresh)
    refine ⟨?_, ?_⟩
    · simpa [Sessions.insertAuthSession, differs] using present
    · simpa [Stems, differs] using stems
  · exact rooted.stages
  · exact rooted.begun

theorem Rooted.step (rooted : before.Rooted timeouts) (taken : Step timeouts before action after) :
    after.Rooted timeouts := by
  cases taken with
  | tick later forward => exact ⟨rooted.rows, rooted.loaded, rooted.stages, rooted.begun⟩
  | arrive id cookie fresh =>
    apply rooted.setRequest
    · intro next sessionId session same holds
      cases same
      cases holds
    · intro next same
      cases same
      trivial
  | load id current row valid =>
    apply rooted.setRequest
    · intro next sessionId session same holds
      cases same
      cases holds
      exact ⟨by simp [row], rooted.rows _ _ row⟩
    · intro next same
      cases same
      trivial
  | skip id current => exact rooted.advance current .handling trivial
  | touch id current =>
    have advanced := rooted.advance current .handling trivial
    exact advanced.updateWhere _ _ (fun _ => rfl) (fun _ => rfl)
  | touchFails id current => exact rooted.advance current .handling trivial
  | @recover id request account current stage =>
    have advanced := rooted.advance current (.starting account .recovery true) trivial
    have revoked := advanced.updateWhere
      (fun id session => session.account = account ∧ some id ≠ none)
      (fun session => session.revoke before.now) (fun _ => rfl) (fun _ => rfl)
    refine ⟨revoked.rows, revoked.loaded, revoked.stages, ?_⟩
    intro chain cut
    rcases cut with earlier | ⟨signedInAt, signIn⟩
    · exact rooted.begun chain earlier
    · change before.signIns chain ≠ none
      simp [signIn]
  | @signIn id request account authMethod elevated current =>
    exact rooted.advance current (.starting account authMethod elevated) trivial
  | @revokeCurrent id request account authMethod elevated current =>
    have advanced := rooted.advance current (.stamping account authMethod elevated) trivial
    exact advanced.revokeCookie _
  | @stamp id request chain account authMethod elevated current stage fresh =>
    refine (rooted.begin fresh ⟨account, before.now⟩).advance current (.inserting chain _) ?_
    exact ⟨before.now, Function.update_self .., rfl⟩
  | @rotate id request sessionId session elevated current stage loaded =>
    have stems := (rooted.loaded id request sessionId session current loaded).2
    have advanced := rooted.advance current
      (.replacing (before.chainOf sessionId) session elevated) stems
    exact advanced.updateWhere _ _ (fun _ => rfl) (fun _ => rfl)
  | @stampRotated id request chain session elevated current stage =>
    have stems := rooted.stages id request current
    rw [stage] at stems
    exact rooted.advance current (.inserting chain _) stems
  | @insert id request chain new sessionId current stage fresh =>
    have stems := rooted.stages id request current
    rw [stage] at stems
    have inserted := rooted.insertRow fresh (new.row before.now) stems
    exact inserted.advance current .settled trivial
  | logout id current => exact (rooted.advance current .settled trivial).revokeCookie _
  | close id =>
    apply rooted.setRequest
    · intro next sessionId session same
      cases same
    · intro next same
      cases same

/-! ### What is live in a chain -/

theorem live_of_stage {chain : ChainId} {id : RequestId} {request : Request}
    (current : state.requests id = some request) (stage : request.stage.chain? = some chain) :
    state.Live chain (.request id) := ⟨request, current, stage⟩

theorem Live.of_setRequest {id : RequestId} {request : Option Request} {chain : ChainId}
    {holder : Holder} (live : (state.setRequest id request).Live chain holder) :
    holder ≠ .request id ∧ state.Live chain holder ∨
      holder = .request id ∧ ∃ next, request = some next ∧ next.stage.chain? = some chain := by
  cases holder with
  | session sessionId => exact Or.inl ⟨Holder.noConfusion, live⟩
  | request other =>
    obtain ⟨next, found, stage⟩ := live
    rw [requests_setRequest] at found
    split at found
    · next same => exact Or.inr ⟨congrArg Holder.request same, next, found, stage⟩
    · next differs =>
        refine Or.inl ⟨?_, next, found, stage⟩
        intro same
        exact differs (Holder.request.inj same)

theorem Live.of_idle {id : RequestId} {request : Option Request} {chain : ChainId}
    {holder : Holder} (live : (state.setRequest id request).Live chain holder)
    (idle : (request.bind fun next => next.stage.chain?) = none) :
    holder ≠ .request id ∧ state.Live chain holder := by
  rcases live.of_setRequest with old | ⟨_, next, rfl, inserts⟩
  · exact old
  · cases idle.symm.trans inserts

theorem Live.of_stage {id : RequestId} {next : Request} {chain other : ChainId} {holder : Holder}
    (live : (state.setRequest id (some next)).Live other holder)
    (stage : next.stage.chain? = some chain) :
    holder ≠ .request id ∧ state.Live other holder ∨ holder = .request id ∧ other = chain := by
  rcases live.of_setRequest with old | ⟨same, _, found, inserts⟩
  · exact Or.inl old
  · cases found
    exact Or.inr ⟨same, Option.some.inj (inserts.symm.trans stage)⟩

theorem Live.of_updateWhere {condition : SessionId → Session → Bool} {change : Session → Session}
    {chain : ChainId} {holder : Holder}
    (live : (state.write (state.sessions.updateWhere condition change)).Live chain holder)
    (kept : ∀ session, (change session).revokedAt = none → session.revokedAt = none) :
    state.Live chain holder := by
  cases holder with
  | session id =>
    obtain ⟨session, found, unrevoked, same⟩ := live
    obtain ⟨earlier, was, rfl⟩ := Sessions.updateWhere_eq_some_iff.mp found
    refine ⟨earlier, was, ?_, same⟩
    split at unrevoked
    · exact kept earlier unrevoked
    · exact unrevoked
  | request id => exact live

theorem not_live_of_revoked {condition : SessionId → Session → Bool} {id : SessionId}
    {chain : ChainId} (applies : ∀ session, state.sessions id = some session →
      state.chainOf id = chain → condition id session = true) (now : ℕ) :
    ¬ (state.write (state.sessions.updateWhere condition fun session =>
      session.revoke now)).Live chain (.session id) := by
  intro ⟨session, found, unrevoked, same⟩
  obtain ⟨earlier, was, rfl⟩ := Sessions.updateWhere_eq_some_iff.mp found
  rw [if_pos (applies earlier was same)] at unrevoked
  exact Session.revokedAt_revoke earlier now unrevoked

theorem Live.of_revokeCookie {cookie : Option SessionId} {chain : ChainId} {holder : Holder}
    (live : (state.write (state.sessions.revokeCookie cookie state.now)).Live chain holder) :
    state.Live chain holder := by
  cases cookie with
  | none => exact live
  | some id =>
    exact Live.of_updateWhere live fun session unrevoked =>
      absurd unrevoked (session.revokedAt_revoke state.now)

theorem Rooted.begun_of_live (rooted : state.Rooted timeouts) {chain : ChainId} {holder : Holder}
    (live : state.Live chain holder) : state.signIns chain ≠ none := by
  cases holder with
  | session id =>
    obtain ⟨session, found, -, rfl⟩ := live
    obtain ⟨signedInAt, signIn, -⟩ := rooted.rows id session found
    simp [signIn]
  | request id =>
    obtain ⟨request, found, stage⟩ := live
    have stems := rooted.stages id request found
    cases current : request.stage with
    | replacing other session elevated =>
      rw [current] at stems stage
      cases stage
      obtain ⟨signedInAt, signIn, -⟩ := stems
      simp [signIn]
    | inserting other new =>
      rw [current] at stems stage
      cases stage
      obtain ⟨signedInAt, signIn, -⟩ := stems
      simp [signIn]
    | _ =>
      rw [current] at stage
      cases stage

namespace Exclusive

theorem shrinks (exclusive : before.Exclusive)
    (live : ∀ chain holder, after.Live chain holder → before.Live chain holder)
    (cut : ∀ chain, after.cut chain → before.cut chain) : after.Exclusive := by
  constructor
  · intro chain first second one two
    exact exclusive.alone chain first second (live chain first one) (live chain second two)
  · intro chain holder severed present
    exact exclusive.severed chain holder (cut chain severed) (live chain holder present)

theorem enters (exclusive : before.Exclusive) {chain : ChainId} {mover newcomer : Holder}
    (live : ∀ other holder, after.Live other holder →
      holder ≠ mover ∧ before.Live other holder ∨ holder = newcomer ∧ other = chain)
    (gone : ∀ holder, holder ≠ mover → before.Live chain holder → ¬ after.Live chain holder)
    (cut : ∀ chain, after.cut chain → before.cut chain) (uncut : ¬ after.cut chain) :
    after.Exclusive := by
  have alone (holder : Holder) (present : after.Live chain holder) : holder = newcomer := by
    rcases live chain holder present with ⟨differs, old⟩ | ⟨same, _⟩
    · exact absurd present (gone holder differs old)
    · exact same
  have live (other : ChainId) (holder : Holder) (present : after.Live other holder) :
      before.Live other holder ∨ other = chain :=
    (live other holder present).imp And.right And.right
  constructor
  · intro other first second one two
    by_cases same : other = chain
    · subst same
      rw [alone first one, alone second two]
    · exact exclusive.alone other first second ((live other first one).resolve_right same)
        ((live other second two).resolve_right same)
  · intro other holder severed present
    rcases live other holder present with old | rfl
    · exact exclusive.severed other holder (cut other severed) old
    · exact uncut severed

theorem stamp (exclusive : state.Exclusive) (rooted : state.Rooted timeouts) {id : RequestId}
    {request : Request} {chain : ChainId} {account : AccountId} {authMethod : AuthMethod}
    {elevated : Bool} (fresh : state.signIns chain = none) :
    (state.stamp timeouts id request chain account authMethod elevated).Exclusive := by
  apply exclusive.enters
  · intro other holder present
    have advanced : (state.advance id request (.inserting chain _)).Live other holder := present
    exact Live.of_stage advanced rfl
  · intro holder _ old
    exact absurd fresh (rooted.begun_of_live old)
  · exact fun _ severed => severed
  · exact fun severed => rooted.begun chain severed fresh

theorem rotate (exclusive : state.Exclusive) {id : RequestId} {request : Request}
    {sessionId : SessionId} {session : Session} {elevated : Bool}
    (uncut : ¬ state.cut (state.chainOf sessionId))
    (alone : ∀ holder, state.Live (state.chainOf sessionId) holder → holder = .session sessionId) :
    ((state.advance id request (.replacing (state.chainOf sessionId) session elevated)).write
      (state.sessions.revokeAuthSession sessionId state.now)).Exclusive := by
  apply exclusive.enters
  · intro other holder present
    have advanced := Live.of_updateWhere present fun session unrevoked =>
      absurd unrevoked (session.revokedAt_revoke state.now)
    exact Live.of_stage advanced rfl
  · intro holder _ old
    cases alone holder old
    exact not_live_of_revoked (fun _ _ _ => decide_eq_true rfl) _
  · exact fun _ severed => severed
  · exact uncut

theorem insert (exclusive : state.Exclusive) {id : RequestId}
    {request : Request} {chain : ChainId} {new : NewSession} {sessionId : SessionId}
    (current : state.requests id = some request) (stage : request.stage = .inserting chain new) :
    (state.insert id request chain new sessionId).Exclusive := by
  have pending : state.Live chain (.request id) := live_of_stage current (by rw [stage]; rfl)
  have live : ∀ other holder, (state.insert id request chain new sessionId).Live other holder →
      holder ≠ .request id ∧ state.Live other holder ∨
        holder = .session sessionId ∧ other = chain := by
    intro other holder present
    cases holder with
    | session otherId =>
      obtain ⟨row, found, unrevoked, same⟩ := present
      rcases Sessions.insertAuthSession_eq_some_iff.mp found with ⟨rfl, -⟩ | ⟨differs, was⟩
      · refine Or.inr ⟨rfl, ?_⟩
        simpa [Lifecycle.insert] using same.symm
      · refine Or.inl ⟨Holder.noConfusion, row, was, unrevoked, ?_⟩
        simpa [Lifecycle.insert, differs] using same
    | request other =>
      have advanced : (state.advance id request .settled).Live _ (.request other) := present
      exact Or.inl (Live.of_idle advanced rfl)
  apply exclusive.enters live
  · intro holder differs old
    exact absurd (exclusive.alone chain holder _ old pending) differs
  · exact fun _ severed => severed
  · exact fun severed => exclusive.severed chain _ severed pending

theorem recover (exclusive : state.Exclusive) (rooted : state.Rooted timeouts) {id : RequestId}
    {request : Request} {account : AccountId}
    (quiet : ∀ chain signedInAt, state.signIns chain = some ⟨account, signedInAt⟩ →
      ∀ id, ¬ state.Live chain (.request id)) :
    (state.recover id request account).Exclusive := by
  have live : ∀ chain holder, (state.recover id request account).Live chain holder →
      state.Live chain holder := by
    intro chain holder present
    have advanced : (state.advance id request _).Live chain holder :=
      Live.of_updateWhere present fun session unrevoked =>
        absurd unrevoked (session.revokedAt_revoke state.now)
    exact (Live.of_idle advanced rfl).2
  constructor
  · intro chain first second one two
    exact exclusive.alone chain first second (live chain first one) (live chain second two)
  · intro chain holder severed present
    rcases severed with earlier | ⟨signedInAt, signIn⟩
    · exact exclusive.severed chain holder earlier (live chain holder present)
    · cases holder with
      | request other => exact quiet chain signedInAt signIn other (live chain _ present)
      | session sessionId =>
        -- The rows of the chain are rows of the account, which are all revoked.
        refine @not_live_of_revoked state _ sessionId chain ?_ state.now present
        intro session found same
        obtain ⟨known, sameSignIn, -⟩ := rooted.rows sessionId session found
        rw [same, signIn] at sameSignIn
        cases sameSignIn
        simp

theorem step (exclusive : before.Exclusive) (rooted : before.Rooted timeouts)
    (spared : before.Spared action) (taken : Step timeouts before action after) :
    after.Exclusive := by
  have idle {id : RequestId} {request : Option Request}
      (quiet : (request.bind fun next => next.stage.chain?) = none) :
      (before.setRequest id request).Exclusive :=
    exclusive.shrinks (fun _ _ live => (live.of_idle quiet).2) fun _ severed => severed
  have revoked {state : Lifecycle} (shrunk : state.Exclusive) (cookie : Option SessionId) :
      (state.write (state.sessions.revokeCookie cookie state.now)).Exclusive :=
    shrunk.shrinks (fun _ _ live => live.of_revokeCookie) fun _ severed => severed
  cases taken with
  | tick later forward => exact ⟨exclusive.alone, exclusive.severed⟩
  | arrive id cookie fresh => exact idle rfl
  | load id current row valid => exact idle rfl
  | skip id current => exact idle rfl
  | @touch id cookie sessionId session current =>
    have advanced : (before.advance id ⟨cookie, some (sessionId, session), .touching⟩
      .handling).Exclusive := idle rfl
    exact advanced.shrinks
      (fun _ _ live => live.of_updateWhere fun _ unrevoked => unrevoked) fun _ severed => severed
  | touchFails id current => exact idle rfl
  | recover id account current stage => exact exclusive.recover rooted spared
  | signIn id account authMethod elevated current => exact idle rfl
  | revokeCurrent id current => exact revoked (idle rfl) _
  | stamp id chain current stage fresh => exact exclusive.stamp rooted fresh
  | rotate id elevated current stage loaded =>
    obtain ⟨uncut, alone⟩ := spared _ _ _ current loaded
    exact exclusive.rotate uncut alone
  | @stampRotated id request chain session elevated current stage =>
    refine exclusive.shrinks ?_ fun _ severed => severed
    intro other holder live
    rcases Live.of_setRequest live with old | ⟨rfl, next, same, inserts⟩
    · exact old.2
    · cases same
      exact live_of_stage current (by rw [stage]; exact inserts)
  | insert id sessionId current stage fresh => exact exclusive.insert current stage
  | logout id current => exact revoked (idle rfl) _
  | close id => exact idle rfl

theorem spared_rotate (exclusive : state.Exclusive) {id : RequestId} {elevated : Bool}
    (unrevoked : ∀ request sessionId session, state.requests id = some request →
      request.session = some (sessionId, session) →
        state.Live (state.chainOf sessionId) (.session sessionId)) :
    state.Spared (.rotate id elevated) := by
  intro request sessionId session current loaded
  have live := unrevoked request sessionId session current loaded
  refine ⟨fun severed => exclusive.severed _ _ severed live, ?_⟩
  exact fun holder other => exclusive.alone _ holder _ other live

end Exclusive

/-! ### What is valid -/

theorem live_of_validNow {id : SessionId} (valid : state.ValidNow timeouts id) :
    state.Live (state.chainOf id) (.session id) := by
  unfold ValidNow at valid
  obtain ⟨session, found⟩ := exists_row_of_valid valid
  rw [found] at valid
  exact ⟨session, found, (evaluateSession_eq_valid_iff.mp valid).1, rfl⟩

theorem Rooted.bounded (rooted : state.Rooted timeouts) {id : SessionId}
    (valid : state.ValidNow timeouts id) : ∃ signIn,
      state.signIns (state.chainOf id) = some signIn ∧
        state.now < signIn.signedInAt + timeouts.absolute := by
  unfold ValidNow at valid
  obtain ⟨session, found⟩ := exists_row_of_valid valid
  rw [found] at valid
  obtain ⟨signedInAt, signIn, expiry⟩ := rooted.rows id session found
  have unexpired := (evaluateSession_eq_valid_iff.mp valid).2.1
  rw [expiry] at unexpired
  exact ⟨_, signIn, unexpired⟩

theorem Rooted.sound (rooted : state.Rooted timeouts) (exclusive : state.Exclusive) :
    state.Sound timeouts where
  recovered id valid severed := exclusive.severed _ _ severed (live_of_validNow valid)
  single first second one two same := by
    have live := live_of_validNow two
    rw [← same] at live
    exact Holder.session.inj (exclusive.alone _ _ _ (live_of_validNow one) live)
  bounded _ valid := rooted.bounded valid

/-! ### Whole runs -/

/-- No run keeps a session valid for longer than the absolute timeout of its sign-in. -/
theorem bounded_of_run {labels : List Action} (run : Run (Step timeouts) start labels state)
    {id : SessionId} (valid : state.ValidNow timeouts id) : ∃ signIn,
      state.signIns (state.chainOf id) = some signIn ∧
        state.now < signIn.signedInAt + timeouts.absolute := by
  have rooted : state.Rooted timeouts :=
    run.invariant rooted_start fun _ _ _ holds taken => holds.step taken
  exact rooted.bounded valid

theorem rooted_exclusive_of_eachStep {labels : List Action}
    (spared : EachStep (Step timeouts) start labels Spared) :
    Along (Step timeouts) start labels fun _ state => state.Rooted timeouts ∧ state.Exclusive :=
  spared.along ⟨rooted_start, exclusive_start⟩ fun _ _ _ _ _ holds guarded taken =>
    ⟨holds.1.step taken, holds.2.step holds.1 guarded taken⟩

/-- In a run whose rotations and recoveries are spared, a recovery ends the chains started before
it, a chain has one valid session at most, and a chain ends with its absolute timeout. -/
theorem sound_of_eachStep {labels : List Action}
    (spared : EachStep (Step timeouts) start labels Spared) :
    Along (Step timeouts) start labels fun _ state => state.Sound timeouts := by
  intro history isPrefix state run
  obtain ⟨rooted, exclusive⟩ := rooted_exclusive_of_eachStep spared history isPrefix state run
  exact rooted.sound exclusive

section StepUp

def minutes : Timeouts := ⟨30, 720, 5⟩

def signIn : List Action :=
  [.arrive 0 none, .skip 0, .signIn 0 3 .passkey false, .revokeCurrent 0, .stamp 0 0, .insert 0 7]

def stepUp : List Action :=
  signIn ++ [.arrive 1 (some 7), .load 1, .touch 1, .rotate 1 true, .stampRotated 1, .insert 1 8]

def stepUps : List Action :=
  signIn ++ [.arrive 1 (some 7), .load 1, .touch 1, .arrive 2 (some 7), .load 2, .touch 2,
    .rotate 1 true, .rotate 2 true, .stampRotated 1, .insert 1 8, .stampRotated 2, .insert 2 9]

theorem stepUp_sound : (∃ state, Run (Step minutes) start stepUp state) ∧
    Along (Step minutes) start stepUp fun _ state => state.Sound minutes := by
  have unique := deterministic minutes
  have empty : Run (Step minutes) start [] start ∧ EachStep (Step minutes) start [] Spared :=
    ⟨Run.nil, EachStep.nil⟩
  have arrived := EachStep.extend unique empty
    (show Spared _ (.arrive 0 none) from trivial) (.arrive 0 none rfl)
  have skipped := EachStep.extend unique arrived
    (show Spared _ (.skip 0) from trivial) (.skip 0 rfl)
  have started := EachStep.extend unique skipped
    (show Spared _ (.signIn 0 3 .passkey false) from trivial) (.signIn 0 3 .passkey false rfl rfl)
  have revoked := EachStep.extend unique started
    (show Spared _ (.revokeCurrent 0) from trivial) (.revokeCurrent 0 rfl rfl)
  have stamped := EachStep.extend unique revoked
    (show Spared _ (.stamp 0 0) from trivial) (.stamp 0 0 rfl rfl rfl)
  have inserted := EachStep.extend unique stamped
    (show Spared _ (.insert 0 7) from trivial) (.insert 0 7 rfl rfl rfl)
  have again := EachStep.extend unique inserted
    (show Spared _ (.arrive 1 (some 7)) from trivial) (.arrive 1 (some 7) rfl)
  have loaded := EachStep.extend unique again
    (show Spared _ (.load 1) from trivial) (.load 1 rfl rfl rfl)
  have touched := EachStep.extend unique loaded
    (show Spared _ (.touch 1) from trivial) (.touch 1 rfl)
  have exclusive := (rooted_exclusive_of_eachStep touched.2 _ (List.prefix_refl _) _ touched.1).2
  have rotated := EachStep.extend unique touched
    (show Spared _ (.rotate 1 true) from by
      apply exclusive.spared_rotate
      intro request id session current held
      cases current
      cases held
      exact ⟨_, rfl, rfl, rfl⟩) (.rotate 1 true rfl rfl rfl)
  have restamped := EachStep.extend unique rotated
    (show Spared _ (.stampRotated 1) from trivial) (.stampRotated 1 rfl rfl)
  have replaced := EachStep.extend unique restamped
    (show Spared _ (.insert 1 8) from trivial) (.insert 1 8 rfl rfl rfl)
  exact ⟨⟨_, replaced.1⟩, sound_of_eachStep replaced.2⟩

theorem stepUps_unsound : ∃ state, Run (Step minutes) start stepUps state ∧
    ¬ state.Sound minutes := by
  have arrived : Run (Step minutes) start [.arrive 0 none] _ := Run.one (.arrive 0 none rfl)
  have skipped := arrived.snoc (.skip 0 rfl)
  have started := skipped.snoc (.signIn 0 3 .passkey false rfl rfl)
  have revoked := started.snoc (.revokeCurrent 0 rfl rfl)
  have stamped := revoked.snoc (.stamp 0 0 rfl rfl rfl)
  have inserted := stamped.snoc (.insert 0 7 rfl rfl rfl)
  have first := inserted.snoc (.arrive 1 (some 7) rfl)
  have second := ((first.snoc (.load 1 rfl rfl rfl)).snoc (.touch 1 rfl)).snoc
    (.arrive 2 (some 7) rfl)
  have loaded := (second.snoc (.load 2 rfl rfl rfl)).snoc (.touch 2 rfl)
  have rotated := (loaded.snoc (.rotate 1 true rfl rfl rfl)).snoc (.rotate 2 true rfl rfl rfl)
  have one := (rotated.snoc (.stampRotated 1 rfl rfl)).snoc (.insert 1 8 rfl rfl rfl)
  have two := (one.snoc (.stampRotated 2 rfl rfl)).snoc (.insert 2 9 rfl rfl rfl)
  refine ⟨_, two, fun sound => ?_⟩
  exact absurd (sound.single 8 9 rfl rfl rfl) (by decide)

end StepUp

end Lifecycle

end Auth

end SorobanExplorer.Indexer
