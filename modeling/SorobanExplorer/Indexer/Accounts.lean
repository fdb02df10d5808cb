import SorobanExplorer.Indexer.AuthLifecycle

/-!
Owns the `/api/auth` routes of developer accounts: their tables, what each statement of a request
does to them and to the sessions, and what clients know.

An account is its email address. Every client reads every mailbox. A client shows a passkey, a
wallet or a code only if it knows it, and sends only cookies of sessions that it knows; what it
knows is what the server gave it and what it learnt elsewhere. Whether an account ever had a
passkey, which clients ever held a credential of it, and which clients took it over is recorded
beside the tables; no statement reads it.
-/

namespace SorobanExplorer.Indexer

open Library

namespace Auth

abbrev Client := ℕ

abbrev CredentialId := ℕ

abbrev Wallet := ℕ

abbrev RecoveryCode := ℕ

/-- `EMAIL_PURPOSES` -/
inductive EmailPurpose where
  | signup
  | claim
  | recovery
deriving DecidableEq, Repr

/-- A row of `auth_email_tokens`. -/
structure EmailToken where
  email : AccountId
  purpose : EmailPurpose
  expiresAt : ℕ
  used : Bool
deriving DecidableEq, Repr

/-- `WHERE … AND purpose = $2 AND used_at IS NULL AND expires_at > now()` -/
def EmailToken.usable (token : EmailToken) (purpose : EmailPurpose) (now : ℕ) : Bool :=
  token.purpose = purpose ∧ token.used = false ∧ now < token.expiresAt

inductive ChallengePurpose where
  | register
  | login
  | stepUp
  | stellar
deriving DecidableEq, Repr

/-- A row of `auth_challenges`. -/
structure Challenge where
  purpose : ChallengePurpose
  account : Option AccountId
  expiresAt : ℕ
deriving DecidableEq, Repr

inductive Secret where
  | passkey (id : CredentialId)
  | wallet (address : Wallet)
  | code (account : AccountId) (code : RecoveryCode)
  | session (id : SessionId)
deriving DecidableEq, Repr

inductive Progress where
  | fresh
  /-- `consumeEmailLink` returned the address -/
  | linkUsed (purpose : EmailPurpose) (email : AccountId)
  /-- `findOrCreateAccountByEmail` returned the account -/
  | found (account : AccountId) (created : Bool)
  /-- `startSession` was called for it -/
  | signingUp (account : AccountId) (created : Bool)
  /-- `getAccountByEmail` returned the account -/
  | recovering (account : AccountId)
  | codeUsed (account : AccountId)
  /-- passed `requireStepUp` -/
  | steppedUp
  /-- `takeChallenge` returned a challenge, for a registration or a step-up one of the account -/
  | challenged (purpose : ChallengePurpose)
  /-- a passkey was registered or verified, and the session is to be rotated -/
  | verified (elevated : Bool)
  /-- `verifySep10Challenge` returned the address -/
  | proven (address : Wallet) (linking : Bool)
  | done
deriving DecidableEq, Repr

structure Work where
  client : Client
  progress : Progress

structure Server where
  lifecycle : Lifecycle
  work : RequestId → Option Work
  accounts : AccountId → Bool
  stellarAddress : AccountId → Option Wallet
  /-- `webauthn_credentials` -/
  passkeys : CredentialId → Option AccountId
  emailTokens : ℕ → Option EmailToken
  /-- the unused codes of an account -/
  recoveryCodes : AccountId → List RecoveryCode
  challenges : ℕ → Option Challenge
  known : Client → Secret → Prop
  /-- the account had a passkey -/
  registered : AccountId → Prop
  /-- the client knew a passkey, the wallet, an unused code or a session of the account -/
  held : Client → AccountId → Prop
  /-- the client obtained a session of the account without having held anything of it, after the
  account had a passkey -/
  takenOver : Client → AccountId → Prop

namespace Server

def start : Server where
  lifecycle := Lifecycle.start
  work := fun _ => none
  accounts := fun _ => false
  stellarAddress := fun _ => none
  passkeys := fun _ => none
  emailTokens := fun _ => none
  recoveryCodes := fun _ => []
  challenges := fun _ => none
  known := fun _ _ => False
  registered := fun _ => False
  held := fun _ _ => False
  takenOver := fun _ _ => False

inductive Holds (server : Server) (client : Client) (account : AccountId) : Prop
  | passkey {id : CredentialId} (registered : server.passkeys id = some account)
      (knows : server.known client (.passkey id))
  | wallet {address : Wallet} (linked : server.stellarAddress account = some address)
      (knows : server.known client (.wallet address))
  | code {code : RecoveryCode} (unused : code ∈ server.recoveryCodes account)
      (knows : server.known client (.code account code))
  | session {id : SessionId} {session : Session}
      (row : server.lifecycle.sessions id = some session) (own : session.account = account)
      (knows : server.known client (.session id))

def remember (server : Server) : Server :=
  { server with
    registered := fun account =>
      server.registered account ∨ ∃ id, server.passkeys id = some account
    held := fun client account => server.held client account ∨ server.Holds client account }

def learn (server : Server) (client : Client) (secrets : Secret → Prop) : Server :=
  { server with
    known := fun other secret => server.known other secret ∨ other = client ∧ secrets secret }

def setWork (server : Server) (id : RequestId) (work : Work) : Server :=
  { server with work := Function.update server.work id (some work) }

theorem work_setWork (server : Server) (id other : RequestId) (work : Work) :
    (server.setWork id work).work other = if other = id then some work else server.work other :=
  Function.update_apply server.work id (some work) other

/-- The session of the request, as `insertAuthSession` writes it, and what its client gains. -/
def insertSession (server : Server) (id : RequestId) (client : Client) (request : Request)
    (chain : ChainId) (new : NewSession) (sessionId : SessionId) : Server :=
  { server.learn client (· = .session sessionId) with
    lifecycle := server.lifecycle.insert id request chain new sessionId
    takenOver := fun other account => server.takenOver other account ∨
      other = client ∧ account = new.account ∧ server.registered account ∧
        ¬ server.held client account }

structure Handles (server : Server) (id : RequestId) (client : Client) (request : Request)
    (progress : Progress) : Prop where
  current : server.lifecycle.requests id = some request
  handling : request.stage = .handling
  work : server.work id = some ⟨client, progress⟩

inductive Action where
  | learn (client : Client) (secret : Secret)
  /-- a step of the session middleware or of `session.js` that is under no condition -/
  | session (action : Auth.Action)
  | arrive (request : RequestId) (client : Client) (cookie : Option SessionId)
  | sendEmailLink (request : RequestId) (email : AccountId) (purpose : EmailPurpose) (token : ℕ)
      (expiresAt : ℕ)
  | consumeEmailLink (request : RequestId) (token : ℕ)
  | findOrCreateAccount (request : RequestId)
  | signUp (request : RequestId)
  | getAccountByEmail (request : RequestId)
  | consumeRecoveryCode (request : RequestId) (code : RecoveryCode)
  | revokeAccountSessions (request : RequestId)
  | requireStepUp (request : RequestId)
  | issueChallenge (request : RequestId) (purpose : ChallengePurpose) (id : ℕ) (expiresAt : ℕ)
  | takeChallenge (request : RequestId) (purpose : ChallengePurpose) (id : ℕ)
  | insertPasskey (request : RequestId) (id : CredentialId)
  | passkeyLogin (request : RequestId) (id : CredentialId)
  | passkeyStepUp (request : RequestId) (id : CredentialId)
  | rotate (request : RequestId)
  | deletePasskey (request : RequestId) (id : CredentialId)
  | issueRecoveryCodes (request : RequestId) (codes : List RecoveryCode)
  | proveWallet (request : RequestId) (address : Wallet)
  | linkStellarAddress (request : RequestId)
  | stellarSignIn (request : RequestId) (account : AccountId)
  | insertSession (request : RequestId) (id : SessionId)
  | logout (request : RequestId)

def Action.client? : Action → Option Client
  | .learn client _ | .arrive _ client _ => some client
  | _ => none

def Unguarded : Auth.Action → Prop
  | .tick _ | .load _ | .skip _ | .touch _ | .touchFails _ | .revokeCurrent _ | .stamp _ _
  | .stampRotated _ | .close _ => True
  | .arrive _ _ | .recover _ _ | .signIn _ _ _ _ | .rotate _ _ | .insert _ _ | .logout _ => False

def challengeAccount (request : Request) : ChallengePurpose → Option AccountId
  | .login => none
  | .register | .stepUp | .stellar => request.session.map fun loaded => loaded.2.account

/-- `requireStepUp` guards the registration of passkeys, `requireSession` the step-up. -/
def Admits (request : Request) (progress : Progress) : ChallengePurpose → Prop
  | .register => progress = .steppedUp
  | .stepUp => progress = .fresh ∧ request.session ≠ none
  | .login | .stellar => progress = .fresh

inductive Statement (timeouts : Timeouts) : Server → Action → Server → Prop
  -- A credential is handed over, stolen or made; no route is involved.
  | learn {server : Server} (client : Client) (secret : Secret) :
      Statement timeouts server (.learn client secret) (server.learn client (· = secret))
  | session {server : Server} {lifecycle : Lifecycle} (action : Auth.Action)
      (unguarded : Unguarded action)
      (taken : Lifecycle.Step timeouts server.lifecycle action lifecycle) :
      Statement timeouts server (.session action) { server with lifecycle }
  | arrive {server : Server} (id : RequestId) (client : Client) (cookie : Option SessionId)
      (unused : server.lifecycle.requests id = none)
      (knows : ∀ sessionId, cookie = some sessionId → server.known client (.session sessionId)) :
      Statement timeouts server (.arrive id client cookie)
        { server.setWork id ⟨client, .fresh⟩ with
          lifecycle := server.lifecycle.setRequest id (some ⟨cookie, none, .arrived⟩) }
  -- `email/start`: a recovery link needs an account.
  | sendEmailLink {server : Server} (id : RequestId) {client : Client} {request : Request}
      (email : AccountId) (purpose : EmailPurpose) (token expiresAt : ℕ)
      (handles : server.Handles id client request .fresh)
      (account : purpose = .recovery → server.accounts email = true)
      (unused : server.emailTokens token = none) :
      Statement timeouts server (.sendEmailLink id email purpose token expiresAt)
        { server.setWork id ⟨client, .done⟩ with
          emailTokens := Function.update server.emailTokens token
            (some ⟨email, purpose, expiresAt, false⟩) }
  | consumeEmailLink {server : Server} (id : RequestId) {client : Client} {request : Request}
      (token : ℕ) {row : EmailToken} (purpose : EmailPurpose)
      (handles : server.Handles id client request .fresh)
      (found : server.emailTokens token = some row)
      (usable : row.usable purpose server.lifecycle.now = true) :
      Statement timeouts server (.consumeEmailLink id token)
        { server.setWork id ⟨client, .linkUsed purpose row.email⟩ with
          emailTokens := Function.update server.emailTokens token (some { row with used := true }) }
  | findOrCreateAccount {server : Server} (id : RequestId) {client : Client} {request : Request}
      {email : AccountId} (handles : server.Handles id client request (.linkUsed .signup email)) :
      Statement timeouts server (.findOrCreateAccount id)
        { server.setWork id ⟨client, .found email (!server.accounts email)⟩ with
          accounts := Function.update server.accounts email true }
  -- `listPasskeys` is asked about accounts that were there already.
  | signUp {server : Server} (id : RequestId) {client : Client} {request : Request}
      {account : AccountId} {created : Bool}
      (handles : server.Handles id client request (.found account created))
      (bare : created = false → ∀ passkey, server.passkeys passkey ≠ some account) :
      Statement timeouts server (.signUp id)
        { server.setWork id ⟨client, .signingUp account created⟩ with
          lifecycle := server.lifecycle.advance id request (.starting account .email true) }
  | getAccountByEmail {server : Server} (id : RequestId) {client : Client} {request : Request}
      {email : AccountId} (handles : server.Handles id client request (.linkUsed .recovery email))
      (found : server.accounts email = true) :
      Statement timeouts server (.getAccountByEmail id)
        (server.setWork id ⟨client, .recovering email⟩)
  | consumeRecoveryCode {server : Server} (id : RequestId) {client : Client} {request : Request}
      {account : AccountId} (code : RecoveryCode)
      (handles : server.Handles id client request (.recovering account))
      (unused : code ∈ server.recoveryCodes account)
      (knows : server.known client (.code account code)) :
      Statement timeouts server (.consumeRecoveryCode id code)
        { server.setWork id ⟨client, .codeUsed account⟩ with
          recoveryCodes := Function.update server.recoveryCodes account
            ((server.recoveryCodes account).filter (· ≠ code)) }
  | revokeAccountSessions {server : Server} (id : RequestId) {client : Client} {request : Request}
      {account : AccountId} (handles : server.Handles id client request (.codeUsed account)) :
      Statement timeouts server (.revokeAccountSessions id)
        { server.setWork id ⟨client, .done⟩ with
          lifecycle := server.lifecycle.recover id request account }
  | requireStepUp {server : Server} (id : RequestId) {client : Client} {request : Request}
      {sessionId : SessionId} {session : Session}
      (handles : server.Handles id client request .fresh)
      (loaded : request.session = some (sessionId, session))
      (elevated : isElevated session server.lifecycle.now = true) :
      Statement timeouts server (.requireStepUp id) (server.setWork id ⟨client, .steppedUp⟩)
  | issueChallenge {server : Server} (id : RequestId) {client : Client} {request : Request}
      {progress : Progress} (purpose : ChallengePurpose) (challenge expiresAt : ℕ)
      (handles : server.Handles id client request progress)
      (admits : Admits request progress purpose) (unused : server.challenges challenge = none) :
      Statement timeouts server (.issueChallenge id purpose challenge expiresAt)
        { server.setWork id ⟨client, .done⟩ with
          challenges := Function.update server.challenges challenge
            (some ⟨purpose, challengeAccount request purpose, expiresAt⟩) }
  | takeChallenge {server : Server} (id : RequestId) {client : Client} {request : Request}
      {progress : Progress} (purpose : ChallengePurpose) (challenge : ℕ) {row : Challenge}
      (handles : server.Handles id client request progress)
      (admits : Admits request progress purpose)
      (found : server.challenges challenge = some row) (purposeMatches : row.purpose = purpose)
      (unexpired : server.lifecycle.now < row.expiresAt)
      (accountMatches : purpose = .register ∨ purpose = .stepUp →
        row.account = challengeAccount request purpose) :
      Statement timeouts server (.takeChallenge id purpose challenge)
        { server.setWork id ⟨client, .challenged purpose⟩ with
          challenges := Function.update server.challenges challenge none }
  | insertPasskey {server : Server} (id : RequestId) {client : Client} {request : Request}
      {sessionId : SessionId} {session : Session} (passkey : CredentialId)
      (handles : server.Handles id client request (.challenged .register))
      (loaded : request.session = some (sessionId, session))
      (unused : server.passkeys passkey = none) :
      Statement timeouts server (.insertPasskey id passkey)
        { server.setWork id ⟨client, .verified false⟩ with
          passkeys := Function.update server.passkeys passkey (some session.account) }
  | passkeyLogin {server : Server} (id : RequestId) {client : Client} {request : Request}
      {account : AccountId} (passkey : CredentialId)
      (handles : server.Handles id client request (.challenged .login))
      (stored : server.passkeys passkey = some account)
      (signs : server.known client (.passkey passkey)) :
      Statement timeouts server (.passkeyLogin id passkey)
        { server.setWork id ⟨client, .done⟩ with
          lifecycle := server.lifecycle.advance id request (.starting account .passkey false) }
  | passkeyStepUp {server : Server} (id : RequestId) {client : Client} {request : Request}
      {sessionId : SessionId} {session : Session} (passkey : CredentialId)
      (handles : server.Handles id client request (.challenged .stepUp))
      (loaded : request.session = some (sessionId, session))
      (stored : server.passkeys passkey = some session.account)
      (signs : server.known client (.passkey passkey)) :
      Statement timeouts server (.passkeyStepUp id passkey)
        (server.setWork id ⟨client, .verified true⟩)
  | rotate {server : Server} (id : RequestId) {client : Client} {request : Request}
      {sessionId : SessionId} {session : Session} {elevated : Bool}
      (handles : server.Handles id client request (.verified elevated))
      (loaded : request.session = some (sessionId, session)) :
      Statement timeouts server (.rotate id)
        { server.setWork id ⟨client, .done⟩ with
          lifecycle := (server.lifecycle.advance id request
            (.replacing (server.lifecycle.chainOf sessionId) session elevated)).write
              (server.lifecycle.sessions.revokeAuthSession sessionId server.lifecycle.now) }
  | deletePasskey {server : Server} (id : RequestId) {client : Client} {request : Request}
      {sessionId : SessionId} {session : Session} (passkey : CredentialId)
      (handles : server.Handles id client request .steppedUp)
      (loaded : request.session = some (sessionId, session))
      (own : server.passkeys passkey = some session.account) :
      Statement timeouts server (.deletePasskey id passkey)
        { server.setWork id ⟨client, .done⟩ with
          passkeys := Function.update server.passkeys passkey none }
  -- After the sign-up of a new account.
  | firstRecoveryCodes {server : Server} (id : RequestId) {client : Client} {request : Request}
      {account : AccountId} (codes : List RecoveryCode)
      (current : server.lifecycle.requests id = some request) (settled : request.stage = .settled)
      (work : server.work id = some ⟨client, .signingUp account true⟩) :
      Statement timeouts server (.issueRecoveryCodes id codes)
        { (server.setWork id ⟨client, .done⟩).learn client
            (fun secret => ∃ code ∈ codes, secret = .code account code) with
          recoveryCodes := Function.update server.recoveryCodes account codes }
  | issueRecoveryCodes {server : Server} (id : RequestId) {client : Client} {request : Request}
      {sessionId : SessionId} {session : Session} (codes : List RecoveryCode)
      (handles : server.Handles id client request .steppedUp)
      (loaded : request.session = some (sessionId, session)) :
      Statement timeouts server (.issueRecoveryCodes id codes)
        { (server.setWork id ⟨client, .done⟩).learn client
            (fun secret => ∃ code ∈ codes, secret = .code session.account code) with
          recoveryCodes := Function.update server.recoveryCodes session.account codes }
  -- With a session the wallet is to be linked, and the session must be elevated.
  | proveWallet {server : Server} (id : RequestId) {client : Client} {request : Request}
      (address : Wallet) (handles : server.Handles id client request (.challenged .stellar))
      (signs : server.known client (.wallet address))
      (elevated : ∀ sessionId session, request.session = some (sessionId, session) →
        isElevated session server.lifecycle.now = true) :
      Statement timeouts server (.proveWallet id address)
        (server.setWork id ⟨client, .proven address request.session.isSome⟩)
  -- `stellar_address` is unique.
  | linkStellarAddress {server : Server} (id : RequestId) {client : Client} {request : Request}
      {sessionId : SessionId} {session : Session} {address : Wallet}
      (handles : server.Handles id client request (.proven address true))
      (loaded : request.session = some (sessionId, session))
      (unused : ∀ account, server.stellarAddress account = some address →
        account = session.account) :
      Statement timeouts server (.linkStellarAddress id)
        { server.setWork id ⟨client, .done⟩ with
          stellarAddress := Function.update server.stellarAddress session.account (some address) }
  | stellarSignIn {server : Server} (id : RequestId) {client : Client} {request : Request}
      {address : Wallet} (account : AccountId)
      (handles : server.Handles id client request (.proven address false))
      (linked : server.stellarAddress account = some address) :
      Statement timeouts server (.stellarSignIn id account)
        { server.setWork id ⟨client, .done⟩ with
          lifecycle := server.lifecycle.advance id request (.starting account .stellar false) }
  | insertSession {server : Server} (id : RequestId) {request : Request} {work : Work}
      {chain : ChainId} {new : NewSession} (sessionId : SessionId)
      (current : server.lifecycle.requests id = some request)
      (inserting : request.stage = .inserting chain new) (sent : server.work id = some work)
      (unused : server.lifecycle.sessions sessionId = none) :
      Statement timeouts server (.insertSession id sessionId)
        (server.insertSession id work.client request chain new sessionId)
  | logout {server : Server} (id : RequestId) {client : Client} {request : Request}
      (handles : server.Handles id client request .fresh) :
      Statement timeouts server (.logout id)
        { server.setWork id ⟨client, .done⟩ with
          lifecycle := (server.lifecycle.advance id request .settled).write
            (server.lifecycle.sessions.revokeCookie request.cookie server.lifecycle.now) }

inductive Step (timeouts : Timeouts) (before : Server) (action : Action) : Server → Prop
  | statement {left : Server} (taken : Statement timeouts before action left) :
      Step timeouts before action left.remember

theorem lifecycle_step {timeouts : Timeouts} {before after : Server} {action : Action}
    (taken : Step timeouts before action after) :
    after.lifecycle = before.lifecycle ∨
      ∃ inner, Lifecycle.Step timeouts before.lifecycle inner after.lifecycle := by
  obtain ⟨statement⟩ := taken
  cases statement with
  | session action unguarded inner => exact Or.inr ⟨action, inner⟩
  | arrive id client cookie unused => exact Or.inr ⟨_, .arrive id cookie unused⟩
  | signUp id handles => exact Or.inr ⟨_, .signIn id _ _ _ handles.current handles.handling⟩
  | revokeAccountSessions id handles =>
    exact Or.inr ⟨_, .recover id _ handles.current handles.handling⟩
  | passkeyLogin id passkey handles =>
    exact Or.inr ⟨_, .signIn id _ _ _ handles.current handles.handling⟩
  | rotate id handles loaded =>
    exact Or.inr ⟨_, .rotate id _ handles.current handles.handling loaded⟩
  | stellarSignIn id account handles =>
    exact Or.inr ⟨_, .signIn id _ _ _ handles.current handles.handling⟩
  | insertSession id sessionId current inserting sent unused =>
    exact Or.inr ⟨_, .insert id sessionId current inserting unused⟩
  | logout id handles => exact Or.inr ⟨_, .logout id handles.current handles.handling⟩
  | _ => exact Or.inl rfl

theorem lifecycle_run {timeouts : Timeouts} {server : Server} {actions : List Action}
    (run : Run (Step timeouts) start actions server) :
    ∃ inner, Run (Lifecycle.Step timeouts) Lifecycle.start inner server.lifecycle := by
  induction run with
  | nil => exact ⟨[], Run.nil⟩
  | snoc earlier taken ih =>
    obtain ⟨inner, run⟩ := ih
    rcases lifecycle_step taken with same | ⟨action, step⟩
    · exact ⟨inner, same ▸ run⟩
    · exact ⟨inner ++ [action], run.snoc step⟩

end Server

end Auth

end SorobanExplorer.Indexer
