import SorobanExplorer.Indexer.Accounts
import SorobanExplorer.Indexer.AuthChains
import SorobanExplorer.Library.Slots

/-!
Owns that a client without any credential of an account that had a passkey obtains no session of
it, although it reads the mailbox of the account.

Every request that is about to insert a session of such an account comes from a client that held
something of it. The email link of `email/verify` is the exception: it asks which passkeys there
are, not which there were, and it asks before the session is inserted.
-/

namespace SorobanExplorer.Indexer

open Library

namespace Auth

def Stage.account? : Stage → Option AccountId
  | .starting account _ _ | .stamping account _ _ => some account
  | .replacing _ session _ => some session.account
  | .inserting _ new => some new.account
  | .arrived | .touching | .handling | .settled => none

namespace Server

def Secure (server : Server) : Prop := ∀ client account, ¬ server.takenOver client account

def Pending (server : Server) (id : RequestId) (client : Client) (account : AccountId) : Prop :=
  ∃ request work, server.lifecycle.requests id = some request ∧ server.work id = some work ∧
    work.client = client ∧ request.stage.account? = some account

/-- `email/verify` goes on to a session only if the account never had a passkey or its client
held something of it; and when the first passkey of an account is registered, whoever is about to
insert a session of the account held something of it. -/
def Spared (server : Server) : Action → Prop
  | .signUp id => ∀ client request account created,
      server.Handles id client request (.found account created) →
        server.registered account → server.held client account
  | .insertPasskey id _ => ∀ client request sessionId session,
      server.Handles id client request (.challenged .register) →
        request.session = some (sessionId, session) → ¬ server.registered session.account →
          ∀ other rival, server.Pending other rival session.account →
            server.held rival session.account
  | _ => True

/-! ### What a request rests on -/

def Shown (server : Server) (client : Client) : Progress → Prop
  | .codeUsed account => server.held client account
  | .proven address _ => server.known client (.wallet address)
  | _ => True

structure Grant (server : Server) (request : Request) (work : Work) : Prop where
  cookie : ∀ sessionId, request.cookie = some sessionId →
    server.known work.client (.session sessionId)
  loaded : ∀ sessionId session, request.session = some (sessionId, session) →
    server.held work.client session.account
  shown : server.Shown work.client work.progress
  pending : ∀ account, request.stage.account? = some account → server.registered account →
    server.held work.client account

structure Guarded (server : Server) : Prop where
  remembered : ∀ id account, server.passkeys id = some account → server.registered account
  holding : ∀ client account, server.Holds client account → server.held client account
  granted : ∀ id request work, server.lifecycle.requests id = some request →
    server.work id = some work → server.Grant request work
  secure : server.Secure

variable {timeouts : Timeouts} {server before left after : Server} {action : Action}

theorem guarded_start : start.Guarded := by
  constructor
  · intro id account found
    cases found
  · intro client account holds
    cases holds with
    | passkey registered => cases registered
    | wallet linked => cases linked
    | code unused => cases unused
    | session row => cases row
  · intro id request work found
    cases found
  · exact fun client account taken => taken

theorem Holds.of_remember {client : Client} {account : AccountId}
    (holds : server.remember.Holds client account) : server.Holds client account := by
  cases holds with
  | passkey registered knows => exact .passkey registered knows
  | wallet linked knows => exact .wallet linked knows
  | code unused knows => exact .code unused knows
  | session row own knows => exact .session row own knows

/-- What a statement keeps: no knowledge is lost, and what is recorded is recorded by `remember`. -/
structure Keeps (before left : Server) : Prop where
  known : ∀ client secret, before.known client secret → left.known client secret
  held : left.held = before.held
  registered : left.registered = before.registered

namespace Keeps

variable {client : Client} {account : AccountId} {request : Request} {work : Work}

theorem held_remember (keeps : Keeps before left) (held : before.held client account) :
    left.remember.held client account :=
  Or.inl (keeps.held ▸ held)

theorem shown (keeps : Keeps before left) {progress : Progress}
    (shown : before.Shown client progress) : left.remember.Shown client progress := by
  cases progress with
  | codeUsed account => exact keeps.held_remember shown
  | proven address linking => exact keeps.known _ _ shown
  | _ => trivial

theorem grant (keeps : Keeps before left) (grant : before.Grant request work)
    (settled : ∀ account, request.stage.account? = some account →
      left.remember.registered account → before.registered account ∨
        before.held work.client account) : left.remember.Grant request work where
  cookie sessionId same := keeps.known _ _ (grant.cookie sessionId same)
  loaded sessionId session same := keeps.held_remember (grant.loaded sessionId session same)
  shown := keeps.shown grant.shown
  pending account same registered := by
    rcases settled account same registered with earlier | held
    · exact keeps.held_remember (grant.pending account same earlier)
    · exact keeps.held_remember held

theorem registered_of_remember (keeps : Keeps before left)
    (passkeys : ∀ id account, left.passkeys id = some account → before.registered account)
    (registered : left.remember.registered account) : before.registered account := by
  rcases registered with earlier | ⟨id, stored⟩
  · exact keeps.registered ▸ earlier
  · exact passkeys id account stored

end Keeps

theorem Guarded.of_statement (guarded : before.Guarded) (keeps : Keeps before left)
    (id : RequestId)
    (others : ∀ other, other ≠ id →
      left.lifecycle.requests other = before.lifecycle.requests other ∧
        left.work other = before.work other)
    (settled : ∀ other request work account, other ≠ id →
      before.lifecycle.requests other = some request → before.work other = some work →
        request.stage.account? = some account → left.remember.registered account →
          before.registered account ∨ before.held work.client account)
    (own : ∀ request work, left.lifecycle.requests id = some request → left.work id = some work →
      left.remember.Grant request work)
    (secure : left.Secure) : left.remember.Guarded := by
  constructor
  · exact fun passkey account stored => Or.inr ⟨passkey, stored⟩
  · exact fun client account holds => Or.inr holds.of_remember
  · intro other request work current sent
    by_cases same : other = id
    · subst same
      exact own request work current sent
    · obtain ⟨requests, works⟩ := others other same
      replace current := requests.symm.trans current
      replace sent := works.symm.trans sent
      exact keeps.grant (guarded.granted other request work current sent) fun account inserts =>
        settled other request work account same current sent inserts
  · exact secure

theorem Guarded.moves (guarded : before.Guarded) {id : RequestId} {client : Client}
    {request : Request} {earlier later : Progress} (stage : Stage)
    (current : before.lifecycle.requests id = some request)
    (sent : before.work id = some ⟨client, earlier⟩) (keeps : Keeps before left)
    (requests : left.lifecycle.requests =
      Function.update before.lifecycle.requests id (some { request with stage := stage }))
    (work : left.work = Function.update before.work id (some ⟨client, later⟩))
    (passkeys : ∀ passkey account, left.passkeys passkey = some account →
      before.registered account)
    (shown : left.remember.Shown client later)
    (pending : ∀ account, stage.account? = some account → before.registered account →
      before.held client account)
    (secure : left.Secure) : left.remember.Guarded := by
  apply guarded.of_statement keeps id
  · intro other differs
    rw [requests, work]
    exact ⟨Function.update_of_ne differs _ _, Function.update_of_ne differs _ _⟩
  · intro other rival work account _ _ _ _ registered
    exact Or.inl (keeps.registered_of_remember passkeys registered)
  · intro next task found started
    rw [requests, Function.update_self] at found
    rw [work, Function.update_self] at started
    cases found
    cases started
    have grant := guarded.granted id request _ current sent
    constructor
    · exact fun sessionId same => keeps.known _ _ (grant.cookie sessionId same)
    · exact fun sessionId session same =>
        keeps.held_remember (grant.loaded sessionId session same)
    · exact shown
    · exact fun account inserts registered => keeps.held_remember
        (pending account inserts (keeps.registered_of_remember passkeys registered))
  · exact secure

theorem Guarded.proceeds (guarded : before.Guarded) {id : RequestId} {client : Client}
    {request : Request} {earlier later : Progress}
    (handles : before.Handles id client request earlier) (keeps : Keeps before left)
    (lifecycle : left.lifecycle = before.lifecycle)
    (work : left.work = Function.update before.work id (some ⟨client, later⟩))
    (passkeys : ∀ passkey account, left.passkeys passkey = some account →
      before.registered account)
    (shown : left.remember.Shown client later) (secure : left.Secure) :
    left.remember.Guarded := by
  refine guarded.moves request.stage handles.current handles.work keeps ?_ work passkeys
    shown ?_ secure
  · rw [lifecycle, ← handles.current, Function.update_eq_self]
  · intro account inserts
    rw [handles.handling] at inserts
    cases inserts

theorem Guarded.restages (guarded : before.Guarded) {id : RequestId} {request : Request}
    {stage : Stage} {lifecycle : Lifecycle}
    (current : before.lifecycle.requests id = some request)
    (requests : lifecycle.requests =
      Function.update before.lifecycle.requests id (some { request with stage := stage }))
    (account : ∀ account, stage.account? = some account →
      request.stage.account? = some account) :
    ({ before with lifecycle } : Server).remember.Guarded := by
  have keeps : Keeps before { before with lifecycle } := ⟨fun _ _ knows => knows, rfl, rfl⟩
  apply guarded.of_statement keeps id
  · intro other differs
    refine ⟨?_, rfl⟩
    change lifecycle.requests other = _
    rw [requests]
    exact Function.update_of_ne differs _ _
  · exact fun _ _ _ _ _ _ _ _ registered =>
      Or.inl (keeps.registered_of_remember guarded.remembered registered)
  · intro next work found sent
    change lifecycle.requests id = some next at found
    rw [requests, Function.update_self] at found
    cases found
    have grant := guarded.granted id request work current sent
    refine keeps.grant ⟨grant.cookie, grant.loaded, grant.shown, ?_⟩ ?_
    · exact fun owner inserts => grant.pending owner (account owner inserts)
    · exact fun _ _ registered =>
        Or.inl (keeps.registered_of_remember guarded.remembered registered)
  · exact guarded.secure

theorem Guarded.rests (guarded : before.Guarded) (keeps : Keeps before left)
    (requests : left.lifecycle.requests = before.lifecycle.requests)
    (work : left.work = before.work) (passkeys : left.passkeys = before.passkeys)
    (secure : left.Secure) : left.remember.Guarded := by
  have registered {account : AccountId} : left.remember.registered account →
      before.registered account :=
    keeps.registered_of_remember fun id account stored =>
      guarded.remembered id account (passkeys ▸ stored)
  constructor
  · exact fun passkey account stored => Or.inr ⟨passkey, stored⟩
  · exact fun client account holds => Or.inr holds.of_remember
  · intro id request task current sent
    replace current := (congrFun requests id).symm.trans current
    replace sent := (congrFun work id).symm.trans sent
    exact keeps.grant (guarded.granted id request task current sent)
      fun _ _ earlier => Or.inl (registered earlier)
  · exact secure

theorem Guarded.session (guarded : before.Guarded) {inner : Auth.Action} {lifecycle : Lifecycle}
    (unguarded : Unguarded inner)
    (taken : Lifecycle.Step timeouts before.lifecycle inner lifecycle) :
    ({ before with lifecycle } : Server).remember.Guarded := by
  have keeps : Keeps before { before with lifecycle } := ⟨fun _ _ knows => knows, rfl, rfl⟩
  have kept {account : AccountId} :
      ({ before with lifecycle } : Server).remember.registered account →
        before.registered account := keeps.registered_of_remember guarded.remembered
  cases taken with
  | tick later => exact guarded.rests keeps rfl rfl rfl guarded.secure
  | @load id sessionId session current row valid =>
    apply guarded.of_statement keeps id
    · intro other differs
      exact ⟨Function.update_of_ne differs _ _, rfl⟩
    · exact fun _ _ _ _ _ _ _ _ registered => Or.inl (kept registered)
    · intro next work found sent
      cases (Function.update_self id _ _).symm.trans found
      have grant := guarded.granted id _ work current sent
      have held : before.held work.client session.account :=
        guarded.holding _ _ (.session row rfl (grant.cookie sessionId rfl))
      constructor
      · exact grant.cookie
      · intro other loaded same
        cases same
        exact keeps.held_remember held
      · exact keeps.shown grant.shown
      · exact fun account inserts => nomatch inserts
    · exact guarded.secure
  | skip id current => exact guarded.restages current rfl fun _ inserts => nomatch inserts
  | touch id current => exact guarded.restages current rfl fun _ inserts => nomatch inserts
  | touchFails id current => exact guarded.restages current rfl fun _ inserts => nomatch inserts
  | revokeCurrent id current stage =>
    exact guarded.restages current rfl fun _ inserts => stage ▸ inserts
  | stamp id chain current stage =>
    exact guarded.restages current rfl fun _ inserts => stage ▸ inserts
  | stampRotated id current stage =>
    exact guarded.restages current rfl fun _ inserts => stage ▸ inserts
  | close id =>
    apply guarded.of_statement keeps id
    · intro other differs
      exact ⟨Function.update_of_ne differs _ _, rfl⟩
    · exact fun _ _ _ _ _ _ _ _ registered => Or.inl (kept registered)
    · intro next work found
      cases (Function.update_self id _ _).symm.trans found
    · exact guarded.secure
  | _ => exact unguarded.elim

theorem Guarded.insertPasskey (guarded : before.Guarded) {id : RequestId} {client : Client}
    {request : Request} {session : Session} {passkey : CredentialId}
    (handles : before.Handles id client request (.challenged .register))
    (quiet : ¬ before.registered session.account → ∀ other rival,
      before.Pending other rival session.account → before.held rival session.account) :
    ({ before.setWork id ⟨client, .verified false⟩ with
      passkeys := Function.update before.passkeys passkey (some session.account) } :
        Server).remember.Guarded := by
  have keeps : Keeps before ({ before.setWork id ⟨client, .verified false⟩ with
      passkeys := Function.update before.passkeys passkey (some session.account) } : Server) :=
    ⟨fun _ _ knows => knows, rfl, rfl⟩
  have grant := guarded.granted id request _ handles.current handles.work
  apply guarded.of_statement keeps id
  · intro other differs
    exact ⟨rfl, Function.update_of_ne differs _ _⟩
  · intro other rival work account _ current sent inserts registered
    rcases registered with earlier | ⟨stored, found⟩
    · exact Or.inl earlier
    · change Function.update before.passkeys passkey _ stored = _ at found
      obtain ⟨-, new⟩ | ⟨-, there⟩ := of_update found
      · cases new
        by_cases earlier : before.registered session.account
        · exact Or.inl earlier
        · exact Or.inr (quiet earlier other _ ⟨rival, work, current, sent, rfl, inserts⟩)
      · exact Or.inl (guarded.remembered stored account there)
  · intro next work found sent
    cases handles.current.symm.trans found
    cases (Function.update_self id _ _).symm.trans sent
    constructor
    · exact fun sessionId same => grant.cookie sessionId same
    · exact fun sessionId session same =>
        keeps.held_remember (grant.loaded sessionId session same)
    · trivial
    · intro account inserts
      rw [handles.handling] at inserts
      cases inserts
  · exact guarded.secure

theorem Guarded.insertSession (guarded : before.Guarded) {id : RequestId} {request : Request}
    {work : Work} {chain : ChainId} {new : NewSession} (sessionId : SessionId)
    (current : before.lifecycle.requests id = some request)
    (inserting : request.stage = .inserting chain new) (sent : before.work id = some work) :
    (before.insertSession id work.client request chain new sessionId).remember.Guarded := by
  have grant := guarded.granted id request work current sent
  have keeps : Keeps before (before.insertSession id work.client request chain new sessionId) :=
    ⟨fun _ _ knows => Or.inl knows, rfl, rfl⟩
  refine guarded.moves .settled current sent keeps rfl ?_ guarded.remembered (keeps.shown grant.shown) ?_ ?_
  · exact (Function.update_eq_self_iff.mpr sent.symm).symm
  · exact fun account inserts => nomatch inserts
  · rintro client account (earlier | ⟨rfl, rfl, registered, unheld⟩)
    · exact guarded.secure client account earlier
    · exact unheld (grant.pending _ (by rw [inserting]; rfl) registered)

theorem Guarded.arrive (guarded : before.Guarded) {id : RequestId} {client : Client}
    {cookie : Option SessionId}
    (knows : ∀ sessionId, cookie = some sessionId → before.known client (.session sessionId)) :
    ({ before.setWork id ⟨client, .fresh⟩ with
      lifecycle := before.lifecycle.setRequest id (some ⟨cookie, none, .arrived⟩) } :
        Server).remember.Guarded := by
  have keeps : Keeps before ({ before.setWork id ⟨client, .fresh⟩ with
      lifecycle := before.lifecycle.setRequest id (some ⟨cookie, none, .arrived⟩) } : Server) :=
    ⟨fun _ _ knows => knows, rfl, rfl⟩
  apply guarded.of_statement keeps id
  · intro other differs
    exact ⟨Function.update_of_ne differs _ _, Function.update_of_ne differs _ _⟩
  · exact fun _ _ _ _ _ _ _ _ registered =>
      Or.inl (keeps.registered_of_remember guarded.remembered registered)
  · intro next work found sent
    cases (Function.update_self id _ _).symm.trans found
    cases (Function.update_self id _ _).symm.trans sent
    exact ⟨knows, fun _ _ loaded => (nomatch loaded), trivial, fun _ inserts => nomatch inserts⟩
  · exact guarded.secure

theorem Guarded.step (guarded : before.Guarded) (spared : before.Spared action)
    (taken : Step timeouts before action after) : after.Guarded := by
  obtain ⟨statement⟩ := taken
  have same {server : Server} (known : server.known = before.known)
      (held : server.held = before.held) (registered : server.registered = before.registered) :
      Keeps before server :=
    ⟨fun _ _ knows => known ▸ knows, held, registered⟩
  cases statement with
  | learn client secret =>
    refine guarded.rests ⟨?_, rfl, rfl⟩ rfl rfl rfl guarded.secure
    exact fun client secret knows => Or.inl knows
  | session inner unguarded taken => exact guarded.session unguarded taken
  | arrive id client cookie unused knows => exact guarded.arrive knows
  | sendEmailLink id email purpose token expiresAt handles =>
    exact guarded.proceeds handles (same rfl rfl rfl) rfl rfl guarded.remembered trivial
      guarded.secure
  | consumeEmailLink id token purpose handles =>
    exact guarded.proceeds handles (same rfl rfl rfl) rfl rfl guarded.remembered trivial
      guarded.secure
  | findOrCreateAccount id handles =>
    exact guarded.proceeds handles (same rfl rfl rfl) rfl rfl guarded.remembered trivial
      guarded.secure
  | signUp id handles bare =>
    refine guarded.moves _ handles.current handles.work (same rfl rfl rfl) rfl rfl
      guarded.remembered trivial ?_ guarded.secure
    intro account inserts
    cases inserts
    exact spared _ _ _ _ handles
  | getAccountByEmail id handles =>
    exact guarded.proceeds handles (same rfl rfl rfl) rfl rfl guarded.remembered trivial
      guarded.secure
  | consumeRecoveryCode id code handles unused knows =>
    refine guarded.proceeds handles (same rfl rfl rfl) rfl rfl guarded.remembered ?_
      guarded.secure
    exact Or.inl (guarded.holding _ _ (.code unused knows))
  | revokeAccountSessions id handles =>
    refine guarded.moves _ handles.current handles.work (same rfl rfl rfl) rfl rfl
      guarded.remembered trivial ?_ guarded.secure
    intro account inserts _
    cases inserts
    exact (guarded.granted id _ _ handles.current handles.work).shown
  | requireStepUp id handles =>
    exact guarded.proceeds handles (same rfl rfl rfl) rfl rfl guarded.remembered trivial
      guarded.secure
  | issueChallenge id purpose challenge expiresAt handles =>
    exact guarded.proceeds handles (same rfl rfl rfl) rfl rfl guarded.remembered trivial
      guarded.secure
  | takeChallenge id purpose challenge handles =>
    exact guarded.proceeds handles (same rfl rfl rfl) rfl rfl guarded.remembered trivial
      guarded.secure
  | insertPasskey id passkey handles loaded unused =>
    exact guarded.insertPasskey handles (spared _ _ _ _ handles loaded)
  | passkeyLogin id passkey handles stored signs =>
    refine guarded.moves _ handles.current handles.work (same rfl rfl rfl) rfl rfl
      guarded.remembered trivial ?_ guarded.secure
    intro account inserts _
    cases inserts
    exact guarded.holding _ _ (.passkey stored signs)
  | passkeyStepUp id passkey handles =>
    exact guarded.proceeds handles (same rfl rfl rfl) rfl rfl guarded.remembered trivial
      guarded.secure
  | rotate id handles loaded =>
    refine guarded.moves _ handles.current handles.work (same rfl rfl rfl) rfl rfl
      guarded.remembered trivial ?_ guarded.secure
    intro account inserts _
    cases inserts
    exact (guarded.granted id _ _ handles.current handles.work).loaded _ _ loaded
  | deletePasskey id passkey handles loaded own =>
    refine guarded.proceeds handles (same rfl rfl rfl) rfl rfl ?_ trivial guarded.secure
    exact fun other account stored => guarded.remembered other account (of_update_none stored).2
  | @firstRecoveryCodes id client request account codes current settled work =>
    refine guarded.moves request.stage current work ⟨?_, rfl, rfl⟩ ?_ rfl
      guarded.remembered trivial ?_ guarded.secure
    · exact fun client secret knows => Or.inl knows
    · exact (Function.update_eq_self_iff.mpr current.symm).symm
    · intro owner inserts
      rw [settled] at inserts
      cases inserts
  | issueRecoveryCodes id codes handles loaded =>
    refine guarded.proceeds handles ⟨?_, rfl, rfl⟩ rfl rfl guarded.remembered trivial
      guarded.secure
    exact fun client secret knows => Or.inl knows
  | proveWallet id address handles signs =>
    exact guarded.proceeds handles (same rfl rfl rfl) rfl rfl guarded.remembered signs
      guarded.secure
  | linkStellarAddress id handles =>
    exact guarded.proceeds handles (same rfl rfl rfl) rfl rfl guarded.remembered trivial
      guarded.secure
  | stellarSignIn id account handles linked =>
    refine guarded.moves _ handles.current handles.work (same rfl rfl rfl) rfl rfl
      guarded.remembered trivial ?_ guarded.secure
    intro account inserts _
    cases inserts
    exact guarded.holding _ _ (.wallet linked
      (guarded.granted id _ _ handles.current handles.work).shown)
  | insertSession id sessionId current inserting sent =>
    exact guarded.insertSession sessionId current inserting sent
  | logout id handles =>
    refine guarded.moves _ handles.current handles.work (same rfl rfl rfl) rfl rfl
      guarded.remembered trivial ?_ guarded.secure
    intro account inserts
    cases inserts

/-! ### Whole runs -/

theorem work_of_setWork {id other : RequestId} {client : Client} {earlier later : Progress}
    {work : Work} (sent : server.work id = some ⟨client, earlier⟩)
    (found : (server.setWork id ⟨client, later⟩).work other = some work) :
    ∃ task, server.work other = some task ∧ task.client = work.client := by
  rw [work_setWork] at found
  split at found
  · next same =>
      cases found
      exact ⟨⟨client, earlier⟩, same ▸ sent, rfl⟩
  · exact ⟨work, found, rfl⟩

theorem client_of_statement (taken : Statement timeouts before action left) {id : RequestId}
    {work : Work} (found : left.work id = some work) :
    (∃ task, before.work id = some task ∧ task.client = work.client) ∨
      action.client? = some work.client := by
  cases taken with
  | learn | session | insertSession => exact Or.inl ⟨work, found, rfl⟩
  | arrive other client cookie =>
    replace found := (work_setWork before other id _).symm.trans found
    split at found
    · next same =>
        cases found
        exact Or.inr rfl
    · exact Or.inl ⟨work, found, rfl⟩
  | firstRecoveryCodes other codes current settled sent =>
    exact Or.inl (work_of_setWork sent found)
  | _ => exact Or.inl (work_of_setWork (Handles.work ‹_›) found)

theorem known_of_statement (taken : Statement timeouts before action left) {client : Client}
    {secret : Secret} (knows : left.known client secret) :
    before.known client secret ∨ action.client? = some client ∨
      ∃ id task, before.work id = some task ∧ task.client = client := by
  cases taken with
  | learn other learnt =>
    rcases knows with earlier | ⟨rfl, rfl⟩
    · exact Or.inl earlier
    · exact Or.inr (Or.inl rfl)
  | firstRecoveryCodes id codes current settled sent =>
    rcases knows with earlier | ⟨rfl, _⟩
    · exact Or.inl earlier
    · exact Or.inr (Or.inr ⟨id, _, sent, rfl⟩)
  | issueRecoveryCodes id codes handles =>
    rcases knows with earlier | ⟨rfl, _⟩
    · exact Or.inl earlier
    · exact Or.inr (Or.inr ⟨id, _, handles.work, rfl⟩)
  | insertSession id sessionId current inserting sent =>
    rcases knows with earlier | ⟨rfl, _⟩
    · exact Or.inl earlier
    · exact Or.inr (Or.inr ⟨id, _, sent, rfl⟩)
  | _ => exact Or.inl knows

theorem held_of_statement (taken : Statement timeouts before action left) :
    left.held = before.held := by
  cases taken <;> rfl

theorem registered_of_statement (taken : Statement timeouts before action left) :
    left.registered = before.registered := by
  cases taken <;> rfl

theorem passkeys_of_statement (taken : Statement timeouts before action left)
    {passkey : CredentialId} {account : AccountId} (stored : left.passkeys passkey = some account) :
    before.passkeys passkey = some account ∨ ∃ id client request progress sessionId session,
      before.Handles id client request progress ∧
        request.session = some (sessionId, session) ∧ session.account = account := by
  cases taken with
  | insertPasskey id other handles loaded =>
    change Function.update before.passkeys other _ passkey = _ at stored
    obtain ⟨-, new⟩ | ⟨-, there⟩ := of_update stored
    · exact Or.inr ⟨id, _, _, _, _, _, handles, loaded, Option.some.inj new⟩
    · exact Or.inl there
  | deletePasskey id other => exact Or.inl (of_update_none stored).2
  | _ => exact Or.inl stored

structure Absent (server : Server) (client : Client) : Prop where
  work : ∀ id task, server.work id = some task → task.client ≠ client
  known : ∀ secret, ¬ server.known client secret
  held : ∀ account, ¬ server.held client account

theorem not_holds {client : Client} (unknown : ∀ secret, ¬ server.known client secret)
    (account : AccountId) : ¬ server.Holds client account := by
  intro holds
  cases holds with
  | passkey _ knows | wallet _ knows | code _ knows | session _ _ knows => exact unknown _ knows

theorem absent_of_run {actions : List Action} (run : Run (Step timeouts) start actions server)
    (client : Client) (absent : ∀ action ∈ actions, action.client? ≠ some client) :
    server.Absent client := by
  induction run with
  | nil => exact ⟨fun _ _ sent => (nomatch sent), fun _ knows => knows, fun _ held => held⟩
  | @snoc history action before after earlier taken ih =>
    have was := ih fun other member =>
      absent other (List.mem_append_left _ member)
    have other := absent action (by simp)
    obtain @⟨left, statement⟩ := taken
    have unknown : ∀ secret, ¬ left.known client secret := by
      intro secret knows
      rcases known_of_statement statement knows with old | learnt | ⟨id, task, sent, own⟩
      · exact was.known secret old
      · exact other learnt
      · exact was.work id task sent own
    refine ⟨?_, unknown, ?_⟩
    · rintro id work found rfl
      rcases client_of_statement statement found with ⟨task, sent, own⟩ | arrival
      · exact was.work id task sent own
      · exact other arrival
    · rintro account (old | holds)
      · exact was.held account (held_of_statement statement ▸ old)
      · exact not_holds unknown account holds

structure Single (server : Server) (client : Client) : Prop where
  work : ∀ id task, server.work id = some task → task.client = client
  held : ∀ account, server.registered account → server.held client account

theorem Single.spared {client : Client} (single : server.Single client) (guarded : server.Guarded)
    (action : Action) : server.Spared action := by
  cases action with
  | signUp id =>
    intro sender request account created handles registered
    cases single.work id _ handles.work
    exact single.held account registered
  | insertPasskey id passkey =>
    rintro sender request sessionId session handles loaded _ other rival
      ⟨_, task, _, sent, rfl, _⟩
    rw [single.work other task sent, ← single.work id _ handles.work]
    exact (guarded.granted id request _ handles.current handles.work).loaded _ _ loaded
  | _ => trivial

theorem Single.step {client : Client} (single : before.Single client) (guarded : before.Guarded)
    (only : ∀ other, action.client? = some other → other = client)
    (taken : Step timeouts before action after) : after.Single client := by
  obtain @⟨left, statement⟩ := taken
  have held : ∀ account, before.held client account → left.remember.held client account :=
    fun account held => Or.inl (held_of_statement statement ▸ held)
  constructor
  · intro id task found
    rcases client_of_statement statement found with ⟨task, sent, own⟩ | arrival
    · rw [← own]
      exact single.work id task sent
    · exact only _ arrival
  · rintro account (earlier | ⟨passkey, stored⟩)
    · rw [registered_of_statement statement] at earlier
      exact held account (single.held account earlier)
    · rcases passkeys_of_statement statement stored with
        old | ⟨id, sender, request, _, sessionId, session, handles, loaded, rfl⟩
      · exact held account (single.held account (guarded.remembered passkey account old))
      · have grant := guarded.granted id request _ handles.current handles.work
        have own := single.work id _ handles.work
        exact held _ (own ▸ grant.loaded sessionId session loaded)

theorem spared_of_single {actions : List Action} (client : Client)
    (only : ∀ action ∈ actions, ∀ other, action.client? = some other → other = client) :
    EachStep (Step timeouts) start actions Spared := by
  have kept : ∀ history server, Run (Step timeouts) start history server → history <+: actions →
      server.Guarded ∧ server.Single client := by
    intro history server run
    induction run with
    | nil =>
      intro _
      exact ⟨guarded_start, fun _ _ sent => (nomatch sent), fun _ registered => registered.elim⟩
    | @snoc history action before after earlier taken ih =>
      intro isPrefix
      obtain ⟨guarded, single⟩ := ih ((List.prefix_append _ _).trans isPrefix)
      have member : action ∈ actions := isPrefix.subset (by simp)
      exact ⟨guarded.step (single.spared guarded action) taken,
        single.step guarded (only action member) taken⟩
  intro history action below server run
  obtain ⟨guarded, single⟩ := kept history server run ((List.prefix_append _ _).trans below)
  exact single.spared guarded action

section Mailbox

open Lifecycle (minutes)

def signUp : List Action :=
  [.learn 1 (.passkey 5), .arrive 0 1 none, .session (.skip 0), .sendEmailLink 0 3 .signup 0 15,
    .arrive 1 1 none, .session (.skip 1), .consumeEmailLink 1 0, .findOrCreateAccount 1, .signUp 1,
    .session (.revokeCurrent 1), .session (.stamp 1 0), .insertSession 1 7]

def passkeyLife : List Action :=
  [.arrive 2 1 (some 7), .session (.load 2), .session (.touch 2), .requireStepUp 2,
    .issueChallenge 2 .register 0 5,
    .arrive 3 1 (some 7), .session (.load 3), .session (.touch 3), .requireStepUp 3,
    .takeChallenge 3 .register 0, .insertPasskey 3 5, .rotate 3, .session (.stampRotated 3),
    .insertSession 3 8,
    .arrive 4 1 (some 8), .session (.load 4), .session (.touch 4), .requireStepUp 4,
    .deletePasskey 4 5, .arrive 5 1 none, .session (.skip 5), .sendEmailLink 5 3 .signup 1 15]

def mailboxOnly : List Action :=
  [.arrive 6 2 none, .session (.skip 6), .consumeEmailLink 6 1, .findOrCreateAccount 6, .signUp 6,
    .session (.revokeCurrent 6), .session (.stamp 6 1), .insertSession 6 9]

theorem passkeyLife_run : ∃ server, Run (Step minutes) start (signUp ++ passkeyLife) server ∧
    server.lifecycle.now = 0 ∧ server.lifecycle.requests 6 = none ∧
      server.emailTokens 1 = some ⟨3, .signup, 15, false⟩ ∧ server.accounts 3 = true ∧
      (∀ passkey, server.passkeys passkey = none) ∧ server.lifecycle.signIns 1 = none ∧
      server.lifecycle.sessions 9 = none ∧ server.registered 3 := by
  have learnt : Run (Step minutes) start [.learn 1 (.passkey 5)] _ :=
    Run.one ⟨.learn 1 (.passkey 5)⟩
  have one := learnt.snoc ⟨.arrive 0 1 none rfl (fun _ same => nomatch same)⟩
  have two := one.snoc ⟨.session (.skip 0) trivial (.skip 0 rfl)⟩
  have sent := two.snoc ⟨.sendEmailLink 0 3 .signup 0 15 ⟨rfl, rfl, rfl⟩ (by decide) rfl⟩
  have three := sent.snoc ⟨.arrive 1 1 none rfl (fun _ same => nomatch same)⟩
  have four := three.snoc ⟨.session (.skip 1) trivial (.skip 1 rfl)⟩
  have used := four.snoc ⟨.consumeEmailLink 1 0 .signup ⟨rfl, rfl, rfl⟩ rfl rfl⟩
  have created := used.snoc ⟨.findOrCreateAccount 1 ⟨rfl, rfl, rfl⟩⟩
  have started := created.snoc ⟨.signUp 1 ⟨rfl, rfl, rfl⟩ (fun same => nomatch same)⟩
  have revoked := started.snoc ⟨.session (.revokeCurrent 1) trivial (.revokeCurrent 1 rfl rfl)⟩
  have stamped := revoked.snoc ⟨.session (.stamp 1 0) trivial (.stamp 1 0 rfl rfl rfl)⟩
  have inserted := stamped.snoc ⟨.insertSession 1 7 rfl rfl rfl rfl⟩
  -- The registration of the passkey.
  have options := inserted.snoc ⟨.arrive 2 1 (some 7) rfl
    (fun _ same => Or.inr ⟨rfl, congrArg Secret.session (Option.some.inj same).symm⟩)⟩
  have loaded := options.snoc ⟨.session (.load 2) trivial (.load 2 rfl rfl rfl)⟩
  have touched := loaded.snoc ⟨.session (.touch 2) trivial (.touch 2 rfl)⟩
  have elevated := touched.snoc ⟨.requireStepUp 2 ⟨rfl, rfl, rfl⟩ rfl rfl⟩
  have issued := elevated.snoc ⟨.issueChallenge 2 .register 0 5 ⟨rfl, rfl, rfl⟩ rfl rfl⟩
  have verify := issued.snoc ⟨.arrive 3 1 (some 7) rfl
    (fun _ same => Or.inr ⟨rfl, congrArg Secret.session (Option.some.inj same).symm⟩)⟩
  have again := verify.snoc ⟨.session (.load 3) trivial (.load 3 rfl rfl rfl)⟩
  have seen := again.snoc ⟨.session (.touch 3) trivial (.touch 3 rfl)⟩
  have stepped := seen.snoc ⟨.requireStepUp 3 ⟨rfl, rfl, rfl⟩ rfl rfl⟩
  have taken := stepped.snoc ⟨.takeChallenge 3 .register 0 ⟨rfl, rfl, rfl⟩ rfl rfl rfl
    (by decide) (fun _ => rfl)⟩
  have registered := taken.snoc ⟨.insertPasskey 3 5 ⟨rfl, rfl, rfl⟩ rfl rfl⟩
  have rotated := registered.snoc ⟨.rotate 3 ⟨rfl, rfl, rfl⟩ rfl⟩
  have restamped := rotated.snoc ⟨.session (.stampRotated 3) trivial (.stampRotated 3 rfl rfl)⟩
  have replaced := restamped.snoc ⟨.insertSession 3 8 rfl rfl rfl rfl⟩
  -- Its deletion.
  have delete := replaced.snoc ⟨.arrive 4 1 (some 8) rfl
    (fun _ same => Or.inr ⟨rfl, congrArg Secret.session (Option.some.inj same).symm⟩)⟩
  have known := delete.snoc ⟨.session (.load 4) trivial (.load 4 rfl rfl rfl)⟩
  have fresh := known.snoc ⟨.session (.touch 4) trivial (.touch 4 rfl)⟩
  have allowed := fresh.snoc ⟨.requireStepUp 4 ⟨rfl, rfl, rfl⟩ rfl rfl⟩
  have deleted := allowed.snoc ⟨.deletePasskey 4 5 ⟨rfl, rfl, rfl⟩ rfl rfl⟩
  have five := deleted.snoc ⟨.arrive 5 1 none rfl (fun _ same => nomatch same)⟩
  have six := five.snoc ⟨.session (.skip 5) trivial (.skip 5 rfl)⟩
  have link := six.snoc ⟨.sendEmailLink 5 3 .signup 1 15 ⟨rfl, rfl, rfl⟩ (by decide) rfl⟩
  refine ⟨_, link, rfl, rfl, rfl, rfl, ?_, rfl, rfl, ?_⟩
  · intro passkey
    change Function.update (Function.update (fun _ => none) 5 (some 3)) 5 none passkey = none
    simp
  · repeat first | exact Or.inr ⟨5, rfl⟩ | apply Or.inl

end Mailbox

end Server

end Auth

end SorobanExplorer.Indexer
