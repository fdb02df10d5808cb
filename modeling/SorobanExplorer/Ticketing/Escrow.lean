import SorobanExplorer.Ticketing.LifeCycle
import Mathlib.Algebra.Order.BigOperators.Group.List
import Mathlib.Algebra.Ring.Int.Defs

/-!
Owns the escrow of an event: what the contract owes to the holders of open tickets, that it holds
at least as much while the event is active, and what a cancellation pays to whom.

The contract only sends when it cancels, and nobody else can send for it.
-/

namespace SorobanExplorer.Ticketing

open Library
open Contract (Address HostString)

/-! ### What is owed -/

def Storage.owedFor (storage : Storage) (id : TicketId) : ℤ :=
  match storage.tickets id with
  | some ticket =>
    if ticket.status = .valid ∨ ticket.status = .transferred then ticket.originalPrice else 0
  | none => 0

def Storage.owed (storage : Storage) : ℤ :=
  ((List.range storage.ticketsSold).map storage.owedFor).sum

def Storage.due (storage : Storage) (paymentToken self : Address) (id : TicketId) :
    Option Transfer := do
  let ticket ← storage.tickets id
  if ticket.status = .used then none
  else some ⟨paymentToken, self, ticket.owner, ticket.originalPrice⟩

section Owed

variable {before after : Storage} {id : TicketId} {earlier later : Ticket}

theorem Later.open_of_open (path : Later earlier later)
    (unused : later.status = .valid ∨ later.status = .transferred) :
    earlier.status = .valid ∨ earlier.status = .transferred := by
  cases status : earlier.status with
  | valid => exact .inl rfl
  | transferred => exact .inr rfl
  | used | cancelled =>
    rw [Later.eq_of_final path (by simp [status]), status] at unused
    simp at unused

def Priced (storage : Storage) : Prop :=
  ∀ id ticket, storage.tickets id = some ticket → 0 < ticket.originalPrice

theorem Kept.priced (kept : Kept before) : Priced before :=
  fun id ticket found => (kept.issued id ticket found).2.1

theorem Priced.follow (priced : Priced before) (follows : Follows before after) :
    Priced after := by
  intro id ticket found
  obtain ⟨earlier, was, path⟩ := follows.earlier found
  exact (Later.sameIssue path).originalPrice ▸ priced id earlier was

theorem Priced.owedFor_nonneg (priced : Priced before) (id : TicketId) :
    0 ≤ before.owedFor id := by
  unfold Storage.owedFor
  cases found : before.tickets id with
  | none => exact Int.le_refl 0
  | some ticket =>
    have positive := priced id ticket found
    dsimp only
    split <;> omega

theorem Follows.owedFor_le (follows : Follows before after) (priced : Priced before)
    (id : TicketId) :
    after.owedFor id ≤ before.owedFor id := by
  unfold Storage.owedFor
  have rel := follows id
  cases found : before.tickets id with
  | none =>
    rw [found] at rel
    generalize after.tickets id = b at rel
    cases rel
    exact Int.le_refl 0
  | some ticket =>
    obtain ⟨next, stored, path⟩ := follows.evolves id ticket found
    have positive := priced id ticket found
    rw [stored]
    dsimp only
    split
    · next unused =>
        rw [if_pos (Later.open_of_open path unused), (Later.sameIssue path).originalPrice]
    · split
      · exact positive.le
      · exact Int.le_refl 0

theorem Follows.owed_le (follows : Follows before after) (priced : Priced before)
    (sold : after.ticketsSold = before.ticketsSold) : after.owed ≤ before.owed := by
  unfold Storage.owed
  rw [sold]
  exact List.sum_le_sum fun id _ => follows.owedFor_le priced id

theorem owedFor_congr (same : after.tickets id = before.tickets id) :
    after.owedFor id = before.owedFor id := by
  unfold Storage.owedFor
  rw [same]

end Owed

/-! ### What the contract holds -/

section Balances

variable {balances : Balances} {request : Transfer} {self : Address}

theorem Balances.le_move (others : request.sender ≠ self) (token : Address) :
    balances token self ≤ balances.move request token self := by
  unfold Balances.move
  split
  · rw [if_neg others.symm]
    omega
  · exact Nat.le_refl _

theorem Balances.sub_le_move (token : Address) :
    balances token self ≤ balances.move request token self + request.amount.toNat := by
  unfold Balances.move
  split
  · split <;> split <;> omega
  · omega

theorem Balances.move_recipient (others : request.sender ≠ request.recipient) :
    balances.move request request.token request.recipient =
      balances request.token request.recipient + request.amount.toNat := by
  unfold Balances.move
  rw [if_pos rfl, if_neg others.symm, if_pos rfl]
  rfl

end Balances

def Backed (host : Host) (world : World) : Prop :=
  world.storage.currentEventStatus = .active → ∀ token, world.storage.token = some token →
    world.storage.owed ≤ world.balances token host.self

section Steps

variable {host : Host} {before after : World} {action : Action host}

theorem ne_self_of_authorized (env : Env host) {address : Address}
    (authorized : env.authorized address = true) : address ≠ host.self := by
  rintro rfl
  rw [env.self_unauthorized] at authorized
  nomatch authorized

theorem Backed.mono (backed : Backed host before)
    (active : after.storage.currentEventStatus = .active →
      before.storage.currentEventStatus = .active)
    (token : after.storage.token = before.storage.token)
    (owed : after.storage.owed ≤ before.storage.owed)
    (held : ∀ token, before.balances token host.self ≤ after.balances token host.self) :
    Backed host after := by
  intro isActive paymentToken stored
  have covered := backed (active isActive) paymentToken (token ▸ stored)
  have more := held paymentToken
  omega

theorem owed_mint (before after : Storage) {ticket : Ticket}
    (sold : after.ticketsSold = before.ticketsSold + 1)
    (tickets : after.tickets =
      Function.update before.tickets before.ticketsSold (some ticket))
    (valid : ticket.status = .valid) : after.owed = before.owed + ticket.originalPrice := by
  have earlier : ∀ id ∈ List.range before.ticketsSold, after.owedFor id = before.owedFor id := by
    intro id listed
    apply owedFor_congr
    rw [tickets, Function.update_of_ne (List.mem_range.mp listed).ne]
  have last : after.owedFor before.ticketsSold = ticket.originalPrice := by
    rw [Storage.owedFor, tickets, Function.update_self]
    exact if_pos (.inl valid)
  rw [Storage.owed, sold, List.range_succ, List.map_append, List.sum_append,
    List.map_congr_left earlier, List.map_singleton, List.sum_singleton, last, Storage.owed]

theorem Backed.step (exact_ : host.Exact) (kept : Kept before.storage)
    (backed : Backed host before) (step : Step host before action after) :
    Backed host after := by
  cases action with
  | initializeEvent env =>
    obtain ⟨-, -, -, -, rfl⟩ := (initializeEvent_ok env).mp step
    intro _ token _
    exact Int.natCast_nonneg _
  | mintTicket env organizer recipient id =>
    obtain ⟨-, authorized, -, -, max, -, nextId, -, price, atPrice, maxResale, -, eventName, -,
      token, stored, balances, moved, rfl⟩ := (mintTicket_ok env).mp step
    obtain ⟨-, rfl⟩ := exact_.moves _ _ _ moved
    intro active paymentToken same
    cases stored.symm.trans same
    have covered := backed active token stored
    have sent := ne_self_of_authorized env authorized
    have received : before.balances.move ⟨token, recipient, host.self, price⟩ token host.self =
        before.balances token host.self + price.toNat := Balances.move_recipient sent
    have sold : before.storage.ticketsSold = id :=
      congrArg (fun next => Option.getD next 0) nextId
    have tickets : (before.storage.putTicket id
        ⟨id, recipient, eventName, .valid, price, maxResale⟩).tickets =
          Function.update before.storage.tickets before.storage.ticketsSold
            (some ⟨id, recipient, eventName, .valid, price, maxResale⟩) := by
      rw [sold]
      rfl
    have owed := owed_mint before.storage { before.storage.putTicket id
      ⟨id, recipient, eventName, .valid, price, maxResale⟩ with nextId := some (id + 1) }
      (congrArg (· + 1) sold.symm) tickets rfl
    have positive := kept.price price atPrice
    refine owed.le.trans ?_
    change before.storage.owed + price ≤ (before.balances.move _ token host.self : ℕ)
    rw [received]
    omega
  | transferTicket env =>
    obtain ⟨authorized, -, ticket, found, -, valid, -, -, _, _, token, _, balances, moved, rfl⟩ :=
      (transferTicket_ok env).mp step
    obtain ⟨-, rfl⟩ := exact_.moves _ _ _ moved
    exact backed.mono id rfl ((Follows.putTicket found (.resold _ valid)).owed_le kept.priced rfl)
      (Balances.le_move (ne_self_of_authorized env authorized))
  | verifyTicket env =>
    obtain ⟨-, -, -, ticket, found, outcome⟩ := (verifyTicket_ok env).mp step
    split at outcome
    · next unused =>
        obtain ⟨-, rfl⟩ := outcome
        exact backed.mono id rfl ((Follows.putTicket found (.entered unused)).owed_le kept.priced rfl)
          fun _ => Nat.le_refl _
    · obtain ⟨-, rfl⟩ := outcome
      exact backed
  | completeEvent env =>
    obtain ⟨-, -, -, rfl⟩ := (completeEvent_ok env).mp step
    exact fun active => nomatch active
  | cancelEvent env =>
    obtain ⟨-, -, -, _, _, paid, -, rfl⟩ := (cancelEvent_ok env).mp step
    exact fun active => nomatch active
  | others =>
    obtain ⟨held, rfl⟩ := step
    exact backed.mono id rfl (Int.le_refl _) held

end Steps

/-! ### The loop of a cancellation -/

section Loop

variable {host : Host} {paymentToken : Address} {world paid after : World} {id : TicketId}
  {ids : List TicketId}

theorem refund_tickets (ran : refund host paymentToken id world = .ok ((), paid))
    {other : TicketId} (differs : other ≠ id) :
    paid.storage.tickets other = world.storage.tickets other := by
  obtain ⟨ticket, -, outcome⟩ := refund_ok.mp ran
  split at outcome
  · obtain ⟨balances, -, rfl⟩ := outcome
    exact Function.update_of_ne differs ..
  · rw [outcome]

theorem refund_transfers (ran : refund host paymentToken id world = .ok ((), paid))
    (uncancelled : ∀ ticket, world.storage.tickets id = some ticket →
      ticket.status ≠ .cancelled) :
    paid.transfers = world.transfers ++ (world.storage.due paymentToken host.self id).toList := by
  obtain ⟨ticket, found, outcome⟩ := refund_ok.mp ran
  have due : world.storage.due paymentToken host.self id =
      if ticket.status = .used then none
      else some ⟨paymentToken, host.self, ticket.owner, ticket.originalPrice⟩ := by
    rw [Storage.due, found]
    rfl
  split at outcome
  · next unused =>
      obtain ⟨balances, -, rfl⟩ := outcome
      rw [due, if_neg unused.1]
      rfl
  · next ended =>
      have used : ticket.status = .used := by
        by_contra unused
        exact ended ⟨unused, uncancelled ticket found⟩
      rw [outcome, due, if_pos used]
      exact (List.append_nil _).symm

theorem refund_balance (exact_ : host.Exact) (priced : Priced world.storage)
    (ran : refund host paymentToken id world = .ok ((), paid)) :
    (world.balances paymentToken host.self : ℤ) ≤
      paid.balances paymentToken host.self + world.storage.owedFor id := by
  obtain ⟨ticket, found, outcome⟩ := refund_ok.mp ran
  have positive := priced id ticket found
  unfold Storage.owedFor
  rw [found]
  dsimp only
  split at outcome
  · next unused =>
      obtain ⟨balances, moved, rfl⟩ := outcome
      obtain ⟨-, rfl⟩ := exact_.moves _ _ _ moved
      have isOpen : ticket.status = .valid ∨ ticket.status = .transferred := by
        cases status : ticket.status <;> simp_all
      have sent : world.balances paymentToken host.self ≤ world.balances.move
          ⟨paymentToken, host.self, ticket.owner, ticket.originalPrice⟩ paymentToken host.self +
            ticket.originalPrice.toNat := Balances.sub_le_move paymentToken
      rw [if_pos isOpen]
      dsimp only
      omega
  · rw [outcome]
    split <;> omega

theorem refund_lacks (exact_ : host.Exact)
    (fails : refund host paymentToken id world = .error .insufficientFunds) :
    (world.balances paymentToken host.self : ℤ) < world.storage.owedFor id := by
  unfold Storage.owedFor
  rw [refund, Tx.bind_apply, unwrap_apply] at fails
  cases found : world.storage.tickets id with
  | none =>
    rw [found] at fails
    cases fails
  | some ticket =>
    rw [found] at fails
    dsimp only at fails ⊢
    split at fails
    · next unused =>
        have isOpen : ticket.status = .valid ∨ ticket.status = .transferred := by
          cases status : ticket.status <;> simp_all
        rw [if_pos isOpen]
        obtain refused | ⟨_, middle, -, written⟩ := Tx.bind_eq_error.mp fails
        · unfold transfer at refused
          split at refused
          · cases refused
          · next lacking => exact exact_.funded _ _ lacking
          · cases refused
        · cases written
    · cases fails

theorem due_congr {left right : Storage} (same : left.tickets id = right.tickets id)
    (self : Address) : left.due paymentToken self id = right.due paymentToken self id := by
  rw [Storage.due, same, Storage.due]

theorem refundAll_transfers (distinct : ids.Nodup)
    (uncancelled : ∀ id ∈ ids, ∀ ticket, world.storage.tickets id = some ticket →
      ticket.status ≠ .cancelled)
    (ran : refundAll host paymentToken ids world = .ok ((), after)) :
    after.transfers = world.transfers ++
      ids.filterMap (world.storage.due paymentToken host.self) := by
  induction ids generalizing world with
  | nil =>
    cases ran
    exact (List.append_nil _).symm
  | cons id ids ih =>
    obtain ⟨paid, first, rest⟩ := refundAll_cons_ok.mp ran
    obtain ⟨absent, distinct⟩ := List.nodup_cons.mp distinct
    have untouched : ∀ other ∈ ids, paid.storage.tickets other = world.storage.tickets other :=
      fun other listed => refund_tickets first fun same => absent (same ▸ listed)
    have paidRest := ih distinct
      (fun other listed => by
        rw [untouched other listed]
        exact uncancelled other (List.mem_cons_of_mem _ listed)) rest
    rw [paidRest, refund_transfers first (uncancelled id List.mem_cons_self),
      List.append_assoc, List.filterMap_cons,
      List.filterMap_congr fun other listed => due_congr (untouched other listed) host.self]
    cases world.storage.due paymentToken host.self id <;> rfl

theorem refundAll_funded (exact_ : host.Exact) (priced : Priced world.storage) (distinct : ids.Nodup)
    (covered : (ids.map world.storage.owedFor).sum ≤ world.balances paymentToken host.self) :
    refundAll host paymentToken ids world ≠ .error .insufficientFunds := by
  induction ids generalizing world with
  | nil => nofun
  | cons id ids ih =>
    intro fails
    obtain ⟨absent, distinct⟩ := List.nodup_cons.mp distinct
    rw [List.map_cons, List.sum_cons] at covered
    have others : 0 ≤ (ids.map world.storage.owedFor).sum :=
      List.sum_nonneg fun owed listed => by
        obtain ⟨other, -, rfl⟩ := List.mem_map.mp listed
        exact priced.owedFor_nonneg other
    obtain lacking | ⟨⟨⟩, paid, first, rest⟩ := Tx.bind_eq_error.mp fails
    · have short := refund_lacks exact_ lacking
      omega
    · have untouched : ∀ other ∈ ids, paid.storage.owedFor other = world.storage.owedFor other :=
        fun other listed => owedFor_congr <| refund_tickets first fun same => absent (same ▸ listed)
      have spent := refund_balance exact_ priced first
      refine ih (priced.follow (refund_follows first).2) distinct ?_ rest
      rw [List.map_congr_left untouched]
      omega

end Loop

/-! ### Whole runs -/

section Cancel

variable {host : Host} {env : Env host} {organizer : Address} {world after : World}

theorem cancelEvent_lacks
    (fails : cancelEvent env organizer world = .error .insufficientFunds) :
    world.storage.currentEventStatus = .active ∧
      ∃ paymentToken, world.storage.token = some paymentToken ∧
        refundAll host paymentToken (List.range world.storage.ticketsSold) world =
          .error .insufficientFunds := by
  simp [cancelEvent, requireAuth, onlyOrganizer, whileActive, assert, setEventStatus, publish,
    Tx.bind_eq_error, Tx.require_eq_error, Tx.require_eq_ok, Tx.update_apply, Tx.read_apply,
    unwrap_eq_ok, unwrap_eq_error] at fails
  obtain ⟨-, -, active, token, stored, loop⟩ := fails
  exact ⟨active, token, stored, loop⟩

theorem cancelEvent_transfers (kept : Kept world.storage)
    (ran : cancelEvent env organizer world = .ok ((), after)) :
    ∃ paymentToken, world.storage.token = some paymentToken ∧
      after.transfers = world.transfers ++ (List.range world.storage.ticketsSold).filterMap
        (world.storage.due paymentToken host.self) := by
  obtain ⟨-, -, active, token, stored, paid, loop, rfl⟩ := (cancelEvent_ok env).mp ran
  have transfers := refundAll_transfers List.nodup_range
    (fun id _ ticket found => kept.active active id ticket found) loop
  exact ⟨token, stored, transfers⟩

end Cancel

/-- In every state that is reached the contract holds what it owes while the event is active; a
cancellation never lacks funds, and makes exactly the transfers that are due. -/
theorem escrow_covers {host : Host} (exact_ : host.Exact) {balances : Balances}
    {labels : List (Action host)} {world : World}
    (reached : Run (Step host) (.deployed balances) labels world) :
    (world.storage.currentEventStatus = .active → ∀ token, world.storage.token = some token →
      world.storage.owed ≤ world.balances token host.self) ∧
      (∀ (env : Env host) organizer,
        cancelEvent env organizer world ≠ .error .insufficientFunds) ∧
      ∀ (env : Env host) organizer after,
        cancelEvent env organizer world = .ok ((), after) →
          ∃ paymentToken, world.storage.token = some paymentToken ∧
            after.transfers = world.transfers ++ (List.range world.storage.ticketsSold).filterMap
              (world.storage.due paymentToken host.self) := by
  have kept := kept_of_run reached
  have backed : Backed host world := by
    refine (reached.invariant
      (P := fun world => Kept world.storage ∧ Backed host world) ⟨Kept.deployed, ?_⟩ ?_).2
    · exact fun _ _ unset => nomatch unset
    · exact fun _ _ _ ⟨kept, backed⟩ step => ⟨kept.effect step.effect, backed.step exact_ kept step⟩
  refine ⟨backed, fun env organizer fails => ?_, fun env organizer after ran =>
    cancelEvent_transfers kept ran⟩
  obtain ⟨active, token, stored, loop⟩ := cancelEvent_lacks fails
  exact refundAll_funded exact_ kept.priced List.nodup_range (backed active token stored) loop

section OneEvent

def scannedWorld : World :=
  ((verifyTicket everybody organizer 0).settle
    ((mintTicket everybody organizer friend).settle openedWorld).2).2

def cancelledWorld : World := ((cancelEvent everybody organizer).settle scannedWorld).2

theorem escrow_covers_friend :
    cancelEvent everybody organizer scannedWorld ≠ .error .insufficientFunds ∧
      ∃ token, scannedWorld.storage.token = some token ∧
        cancelledWorld.transfers = scannedWorld.transfers ++
          (List.range scannedWorld.storage.ticketsSold).filterMap
            (scannedWorld.storage.due token self) := by
  have minted := run_opened.snoc
    (show Step _ _ (.mintTicket everybody organizer friend 1) _ from rfl)
  have entered : Run (Step (.ledger self)) (.deployed rich) _ scannedWorld :=
    minted.snoc (show Step _ _ (.verifyTicket everybody organizer 0 true) _ from rfl)
  have covers := escrow_covers (Host.exact_ledger self) entered
  exact ⟨covers.2.1 everybody organizer, covers.2.2 everybody organizer cancelledWorld rfl⟩

end OneEvent

end SorobanExplorer.Ticketing
