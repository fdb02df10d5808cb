import SorobanExplorer.Contract.Types
import SorobanExplorer.Library.Transaction
import SorobanExplorer.Library.Run
import Mathlib.Tactic.Common

/-!
Owns the ticket contract: its storage, what it sees of its host, its entrypoints, and the system
of their calls. Each entrypoint comes with the lemma that says when it succeeds and what it writes.

The payment token is a parameter of the host. The host rejects re-entry, and the contract never
authorizes itself. `u64` counters are natural numbers: they stay below `MAX_TIX`. Time to live is
not modelled.
-/

namespace SorobanExplorer.Ticketing

open Library
open Contract (Address HostString)

/-! ### Storage -/

inductive TicketStatus where
  | valid
  | used
  | transferred
  | cancelled
deriving DecidableEq

inductive EventStatus where
  | active
  | completed
  | cancelled
deriving DecidableEq

abbrev TicketId := ℕ

structure Ticket where
  id : TicketId
  owner : Address
  eventName : HostString
  status : TicketStatus
  originalPrice : ℤ
  maxResalePrice : ℤ
deriving DecidableEq

/-- The entries of instance storage under their keys, and the persistent entries of tickets. -/
structure Storage where
  admin : Option Address
  token : Option Address
  eventStatus : Option EventStatus
  maxTix : Option ℕ
  price : Option ℤ
  evtName : Option HostString
  maxResale : Option ℤ
  nextId : Option TicketId
  tickets : TicketId → Option Ticket

namespace Storage

def deployed : Storage := ⟨none, none, none, none, none, none, none, none, fun _ => none⟩

def putTicket (storage : Storage) (id : TicketId) (ticket : Ticket) : Storage :=
  { storage with tickets := Function.update storage.tickets id (some ticket) }

/-- `event_status` -/
def currentEventStatus (storage : Storage) : EventStatus := storage.eventStatus.getD .active

/-- `tickets_sold` -/
def ticketsSold (storage : Storage) : ℕ := storage.nextId.getD 0

end Storage

/-! ### The host -/

abbrev Balances := (token holder : Address) → ℕ

/-- A call of `transfer` on a token contract. -/
structure Transfer where
  token : Address
  sender : Address
  recipient : Address
  amount : ℤ
deriving DecidableEq

inductive Refusal where
  | insufficientFunds
  | other
deriving DecidableEq

def Balances.move (balances : Balances) (request : Transfer) : Balances := fun token holder =>
  if token = request.token then
    balances token holder - (if holder = request.sender then request.amount.toNat else 0) +
      if holder = request.recipient then request.amount.toNat else 0
  else balances token holder

structure Host where
  self : Address
  transfer : Transfer → Balances → Except Refusal Balances

/-- Every token contract moves exactly the requested amounts, out of what the sender has. -/
structure Host.Exact (host : Host) : Prop where
  moves : ∀ request before after, host.transfer request before = .ok after →
    request.amount ≤ before request.token request.sender ∧ after = before.move request
  funded : ∀ request balances, host.transfer request balances = .error .insufficientFunds →
    balances request.token request.sender < request.amount

def Host.ledger (self : Address) : Host where
  self
  transfer request balances :=
    if request.amount < 0 then .error .other
    else if balances request.token request.sender < request.amount then .error .insufficientFunds
    else .ok (balances.move request)

theorem Host.exact_ledger (self : Address) : (Host.ledger self).Exact where
  moves request before after moved := by
    simp only [ledger] at moved
    split_ifs at moved with negative uncovered
    cases moved
    exact ⟨not_lt.mp uncovered, rfl⟩
  funded request balances refused := by
    simp only [ledger] at refused
    split at refused
    · nomatch refused
    · split at refused
      · next uncovered => exact uncovered
      · nomatch refused

structure Env (host : Host) where
  authorized : Address → Bool
  self_unauthorized : authorized host.self = false

inductive Published where
  | minted (recipient : Address) (id : TicketId)
  | transfer (sender recipient : Address) (id : TicketId)
  | verified (id : TicketId)
  | completed
  | cancelled
deriving DecidableEq

/-- `transfers` are the transfers that the contract has had made. -/
structure World where
  storage : Storage
  balances : Balances
  transfers : List Transfer
  events : List Published

def World.deployed (balances : Balances) : World := ⟨.deployed, balances, [], []⟩

inductive Failure where
  | panic (message : String)
  | trap
  | authorization
  | insufficientFunds
  | transferFailed
deriving DecidableEq

abbrev Call (α : Type) := Tx World Failure α

def publish (event : Published) : Call Unit :=
  Tx.update fun world => { world with events := world.events ++ [event] }

/-- `assert!(condition, message)` -/
def assert (condition : Prop) [Decidable condition] (message : String) : Call Unit :=
  Tx.require condition (.panic message)

/-- `get(&key).unwrap()` -/
def unwrap {α : Type} (view : Storage → Option α) : Call α := do
  Tx.orAbort .trap (← Tx.read fun world => view world.storage)

def putTicket (id : TicketId) (ticket : Ticket) : Call Unit :=
  Tx.update fun world => { world with storage := world.storage.putTicket id ticket }

section Entrypoints

variable {host : Host} (env : Env host)

def requireAuth (address : Address) : Call Unit :=
  Tx.require (env.authorized address = true) .authorization

def transfer (host : Host) (request : Transfer) : Call Unit := fun world =>
  match host.transfer request world.balances with
  | .ok balances =>
    .ok ((), { world with balances, transfers := world.transfers ++ [request] })
  | .error .insufficientFunds => .error .insufficientFunds
  | .error .other => .error .transferFailed

/-! ### Entrypoints -/

/-- `initialize` -/
def initializeEvent (admin paymentToken : Address) (eventName : HostString) (maxTickets : ℕ)
    (price maxResalePrice : ℤ) : Call Unit := do
  requireAuth env admin
  assert (0 < price) "price must be positive"
  assert (price ≤ maxResalePrice) "resale cap below face price"
  let stored ← Tx.read fun world => world.storage.admin
  assert (stored.isSome = false) "already initialized"
  Tx.update fun world => { world with
    storage := { world.storage with
      admin := some admin
      token := some paymentToken
      eventStatus := some .active
      maxTix := some maxTickets
      price := some price
      evtName := some eventName
      maxResale := some maxResalePrice
      nextId := some 0 } }

/-- The caller is the organizer; `message` says so. -/
def onlyOrganizer (caller : Address) (message : String) : Call Unit := do
  let admin ← unwrap Storage.admin
  assert (caller = admin) message

def whileActive : Call Unit := do
  let status ← Tx.read fun world => world.storage.currentEventStatus
  assert (status = .active) "event is not active"

def findTicket (id : TicketId) : Call Ticket := do
  Tx.orAbort (.panic "ticket not found") (← Tx.read fun world => world.storage.tickets id)

def mintTicket (organizer recipient : Address) : Call TicketId := do
  requireAuth env organizer
  requireAuth env recipient
  onlyOrganizer organizer "only organizer can mint"
  whileActive
  let max ← unwrap Storage.maxTix
  let nextId ← unwrap Storage.nextId
  assert (nextId < max) "sold out"
  let price ← unwrap Storage.price
  let maxResale ← unwrap Storage.maxResale
  let eventName ← unwrap Storage.evtName
  let ticket : Ticket := ⟨nextId, recipient, eventName, .valid, price, maxResale⟩
  let paymentToken ← unwrap Storage.token
  transfer host ⟨paymentToken, recipient, host.self, price⟩
  putTicket nextId ticket
  Tx.update fun world => { world with storage := { world.storage with nextId := some (nextId + 1) } }
  publish (.minted recipient nextId)
  return nextId

def transferTicket (sender recipient : Address) (id : TicketId) (salePrice : ℤ) : Call Unit := do
  requireAuth env sender
  whileActive
  let ticket ← findTicket id
  assert (ticket.owner = sender) "not the ticket owner"
  assert (ticket.status = .valid) "ticket not transferable"
  assert (salePrice ≤ ticket.maxResalePrice) "price exceeds resale cap"
  assert (0 < salePrice) "sale price must be positive"
  let admin ← unwrap Storage.admin
  let paymentToken ← unwrap Storage.token
  transfer host ⟨paymentToken, sender, admin, salePrice⟩
  putTicket id { ticket with owner := recipient, status := .transferred }
  publish (.transfer sender recipient id)

def scan (id : TicketId) (ticket : Ticket) : Call Bool :=
  if ticket.status = .valid ∨ ticket.status = .transferred then do
    putTicket id { ticket with status := .used }
    publish (.verified id)
    return true
  else return false

def verifyTicket (verifier : Address) (id : TicketId) : Call Bool := do
  requireAuth env verifier
  onlyOrganizer verifier "only organizer can verify"
  whileActive
  let ticket ← findTicket id
  scan id ticket

def setEventStatus (status : EventStatus) : Call Unit :=
  Tx.update fun world => { world with
    storage := { world.storage with eventStatus := some status } }

def completeEvent (organizer : Address) : Call Unit := do
  requireAuth env organizer
  onlyOrganizer organizer "only organizer can complete"
  whileActive
  setEventStatus .completed
  publish .completed

/-- One iteration of the loop of `cancel_event`. -/
def refund (host : Host) (paymentToken : Address) (id : TicketId) : Call Unit := do
  let ticket ← unwrap fun storage => storage.tickets id
  if ticket.status ≠ .used ∧ ticket.status ≠ .cancelled then do
    transfer host ⟨paymentToken, host.self, ticket.owner, ticket.originalPrice⟩
    putTicket id { ticket with status := .cancelled }
  else return ()

def refundAll (host : Host) (paymentToken : Address) (ids : List TicketId) : Call Unit :=
  ids.forM (refund host paymentToken)

def cancelEvent (organizer : Address) : Call Unit := do
  requireAuth env organizer
  onlyOrganizer organizer "only organizer can cancel"
  whileActive
  let paymentToken ← unwrap Storage.token
  let count ← Tx.read fun world => world.storage.ticketsSold
  refundAll host paymentToken (List.range count)
  setEventStatus .cancelled
  publish .cancelled

end Entrypoints

/-! ### When a call succeeds, and what it writes -/

section Success

attribute [local simp] Tx.read_bind_eq_ok Tx.update_bind_eq_ok Tx.require_eq_ok
  Tx.require_bind_eq_ok Tx.orAbort_bind_eq_ok

variable {α β : Type} {host : Host} {env : Env host} {world after : World}

theorem transfer_bind_eq_ok {request : Transfer} {next : Unit → Call α} {value : α} :
    (transfer host request >>= next) world = .ok (value, after) ↔
      ∃ balances, host.transfer request world.balances = .ok balances ∧
        next () { world with balances, transfers := world.transfers ++ [request] } =
          .ok (value, after) := by
  rw [Tx.bind_apply, transfer]
  cases host.transfer request world.balances with
  | ok balances => simp
  | error refusal => cases refusal <;> simp

theorem unwrap_apply (view : Storage → Option β) (world : World) :
    unwrap view world = match view world.storage with
      | some value => .ok (value, world)
      | none => .error .trap := by
  rw [unwrap, Tx.bind_apply, Tx.read_apply]
  cases view world.storage <;> rfl

theorem unwrap_eq_ok {view : Storage → Option β} {value : β} :
    unwrap view world = .ok (value, after) ↔ view world.storage = some value ∧ after = world := by
  rw [unwrap_apply]
  cases view world.storage <;> simp [eq_comm]

theorem unwrap_eq_error {view : Storage → Option β} {reason : Failure} :
    unwrap view world = .error reason ↔ view world.storage = none ∧ reason = .trap := by
  rw [unwrap_apply]
  cases view world.storage <;> simp [eq_comm]

theorem unwrap_bind_eq_ok {view : Storage → Option β} {next : β → Call α} {value : α} :
    (unwrap view >>= next) world = .ok (value, after) ↔
      ∃ found, view world.storage = some found ∧ next found world = .ok (value, after) := by
  rw [unwrap, bind_assoc]
  simp

attribute [local simp] transfer_bind_eq_ok unwrap_bind_eq_ok

variable (env)

theorem initializeEvent_ok {admin paymentToken : Address} {eventName : HostString} {maxTickets : ℕ}
    {price maxResalePrice : ℤ} :
    initializeEvent env admin paymentToken eventName maxTickets price maxResalePrice world =
        .ok ((), after) ↔
      env.authorized admin = true ∧ 0 < price ∧ price ≤ maxResalePrice ∧
        world.storage.admin = none ∧
        after = { world with
          storage := { world.storage with
            admin := some admin
            token := some paymentToken
            eventStatus := some .active
            maxTix := some maxTickets
            price := some price
            evtName := some eventName
            maxResale := some maxResalePrice
            nextId := some 0 } } := by
  simp [initializeEvent, requireAuth, assert]

theorem mintTicket_ok {organizer recipient : Address} {id : TicketId} :
    mintTicket env organizer recipient world = .ok (id, after) ↔
      env.authorized organizer = true ∧ env.authorized recipient = true ∧
        world.storage.admin = some organizer ∧ world.storage.currentEventStatus = .active ∧
        ∃ max, world.storage.maxTix = some max ∧ world.storage.nextId = some id ∧ id < max ∧
        ∃ price, world.storage.price = some price ∧
        ∃ maxResale, world.storage.maxResale = some maxResale ∧
        ∃ eventName, world.storage.evtName = some eventName ∧
        ∃ paymentToken, world.storage.token = some paymentToken ∧
        ∃ balances, host.transfer ⟨paymentToken, recipient, host.self, price⟩ world.balances =
          .ok balances ∧
        after = ⟨{ world.storage.putTicket id
            ⟨id, recipient, eventName, .valid, price, maxResale⟩ with nextId := some (id + 1) },
          balances, world.transfers ++ [⟨paymentToken, recipient, host.self, price⟩],
          world.events ++ [.minted recipient id]⟩ := by
  simp [mintTicket, requireAuth, assert, onlyOrganizer, whileActive, putTicket, publish]

theorem transferTicket_ok {sender recipient : Address} {id : TicketId} {salePrice : ℤ} :
    transferTicket env sender recipient id salePrice world = .ok ((), after) ↔
      env.authorized sender = true ∧ world.storage.currentEventStatus = .active ∧
        ∃ ticket, world.storage.tickets id = some ticket ∧ ticket.owner = sender ∧
        ticket.status = .valid ∧ salePrice ≤ ticket.maxResalePrice ∧ 0 < salePrice ∧
        ∃ admin, world.storage.admin = some admin ∧
        ∃ paymentToken, world.storage.token = some paymentToken ∧
        ∃ balances, host.transfer ⟨paymentToken, sender, admin, salePrice⟩ world.balances =
          .ok balances ∧
        after = ⟨world.storage.putTicket id
            { ticket with owner := recipient, status := .transferred },
          balances, world.transfers ++ [⟨paymentToken, sender, admin, salePrice⟩],
          world.events ++ [.transfer sender recipient id]⟩ := by
  simp [transferTicket, requireAuth, assert, whileActive, findTicket, putTicket, publish]

omit env in
theorem scan_ok {id : TicketId} {ticket : Ticket} {entered : Bool} :
    scan id ticket world = .ok (entered, after) ↔
      if ticket.status = .valid ∨ ticket.status = .transferred then
        entered = true ∧ after = { world with
          storage := world.storage.putTicket id { ticket with status := .used }
          events := world.events ++ [.verified id] }
      else entered = false ∧ after = world := by
  unfold scan
  split <;> simp [putTicket, publish]

theorem verifyTicket_ok {verifier : Address} {id : TicketId} {entered : Bool} :
    verifyTicket env verifier id world = .ok (entered, after) ↔
      env.authorized verifier = true ∧ world.storage.admin = some verifier ∧
        world.storage.currentEventStatus = .active ∧
        ∃ ticket, world.storage.tickets id = some ticket ∧
          if ticket.status = .valid ∨ ticket.status = .transferred then
            entered = true ∧ after = { world with
              storage := world.storage.putTicket id { ticket with status := .used }
              events := world.events ++ [.verified id] }
          else entered = false ∧ after = world := by
  simp [verifyTicket, requireAuth, assert, onlyOrganizer, whileActive, findTicket, scan_ok]

theorem completeEvent_ok {organizer : Address} :
    completeEvent env organizer world = .ok ((), after) ↔
      env.authorized organizer = true ∧ world.storage.admin = some organizer ∧
        world.storage.currentEventStatus = .active ∧
        after = { world with
          storage := { world.storage with eventStatus := some .completed }
          events := world.events ++ [.completed] } := by
  simp [completeEvent, requireAuth, assert, onlyOrganizer, whileActive, setEventStatus, publish]

omit env in
theorem refund_ok {paymentToken : Address} {id : TicketId} :
    refund host paymentToken id world = .ok ((), after) ↔
      ∃ ticket, world.storage.tickets id = some ticket ∧
        if ticket.status ≠ .used ∧ ticket.status ≠ .cancelled then
          ∃ balances, host.transfer ⟨paymentToken, host.self, ticket.owner, ticket.originalPrice⟩
              world.balances = .ok balances ∧
            after = { world with
              storage := world.storage.putTicket id { ticket with status := .cancelled }
              balances
              transfers := world.transfers ++
                [⟨paymentToken, host.self, ticket.owner, ticket.originalPrice⟩] }
        else after = world := by
  rw [refund, unwrap_bind_eq_ok]
  refine exists_congr fun ticket => and_congr_right fun _ => ?_
  split <;> simp [putTicket]

theorem cancelEvent_ok {organizer : Address} :
    cancelEvent env organizer world = .ok ((), after) ↔
      env.authorized organizer = true ∧ world.storage.admin = some organizer ∧
        world.storage.currentEventStatus = .active ∧
        ∃ paymentToken, world.storage.token = some paymentToken ∧
        ∃ paid, refundAll host paymentToken (List.range world.storage.ticketsSold) world =
            .ok ((), paid) ∧
          after = { paid with
            storage := { paid.storage with eventStatus := some .cancelled }
            events := paid.events ++ [.cancelled] } := by
  have loop (paymentToken : Address) (ids : List TicketId) (next : Unit → Call Unit) :
      (refundAll host paymentToken ids >>= next) world = .ok ((), after) ↔
        ∃ paid, refundAll host paymentToken ids world = .ok ((), paid) ∧
          next () paid = .ok ((), after) :=
    Tx.bind_eq_ok.trans ⟨fun ⟨(), paid, ran⟩ => ⟨paid, ran⟩, fun ⟨paid, ran⟩ => ⟨(), paid, ran⟩⟩
  simp [cancelEvent, requireAuth, assert, onlyOrganizer, whileActive, setEventStatus, publish,
    loop]

end Success

/-! ### The system -/

inductive Action (host : Host) where
  | initializeEvent (env : Env host) (admin paymentToken : Address) (eventName : HostString)
      (maxTickets : ℕ) (price maxResalePrice : ℤ)
  | mintTicket (env : Env host) (organizer recipient : Address) (minted : TicketId)
  | transferTicket (env : Env host) (sender recipient : Address) (id : TicketId) (salePrice : ℤ)
  | verifyTicket (env : Env host) (verifier : Address) (id : TicketId) (entered : Bool)
  | completeEvent (env : Env host) (organizer : Address)
  | cancelEvent (env : Env host) (organizer : Address)
  | others (balances : Balances)

def Step (host : Host) (before : World) (action : Action host) (after : World) : Prop :=
  match action with
  | .initializeEvent env admin paymentToken eventName maxTickets price maxResalePrice =>
    initializeEvent env admin paymentToken eventName maxTickets price maxResalePrice before =
      .ok ((), after)
  | .mintTicket env organizer recipient minted =>
    mintTicket env organizer recipient before = .ok (minted, after)
  | .transferTicket env sender recipient id salePrice =>
    transferTicket env sender recipient id salePrice before = .ok ((), after)
  | .verifyTicket env verifier id entered =>
    verifyTicket env verifier id before = .ok (entered, after)
  | .completeEvent env organizer => completeEvent env organizer before = .ok ((), after)
  | .cancelEvent env organizer => cancelEvent env organizer before = .ok ((), after)
  | .others balances =>
    (∀ token, before.balances token host.self ≤ balances token host.self) ∧
      after = { before with balances }

end SorobanExplorer.Ticketing
