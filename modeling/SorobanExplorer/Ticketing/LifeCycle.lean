import SorobanExplorer.Ticketing.Contract
import Mathlib.Logic.Relation
import Mathlib.Data.Option.Basic
import SorobanExplorer.Library.Slots

/-!
Owns the life cycle of tickets: what one call can do to the storage, which tickets exist, how a
ticket goes on from one state to a later one, and that an event which is over never changes.

`Step.effect` is the only place that looks at every entrypoint.
-/

namespace SorobanExplorer.Ticketing

open Library
open Contract (Address HostString)

/-! ### One ticket -/

inductive Moves : Ticket → Ticket → Prop
  | resold {ticket : Ticket} (owner : Address) (valid : ticket.status = .valid) :
      Moves ticket { ticket with owner, status := .transferred }
  | entered {ticket : Ticket} (unused : ticket.status = .valid ∨ ticket.status = .transferred) :
      Moves ticket { ticket with status := .used }
  | refunded {ticket : Ticket} (unused : ticket.status ≠ .used ∧ ticket.status ≠ .cancelled) :
      Moves ticket { ticket with status := .cancelled }

abbrev Later : Ticket → Ticket → Prop := Relation.ReflTransGen Moves

section Later

variable {earlier later : Ticket}

theorem Moves.not_valid (moves : Moves earlier later) : later.status ≠ .valid := by
  cases moves <;> nofun

theorem Moves.owner_eq (moves : Moves earlier later) (sold : earlier.status ≠ .valid) :
    later.owner = earlier.owner := by
  cases moves with
  | resold _ valid => exact absurd valid sold
  | entered | refunded => rfl

theorem Moves.not_final (moves : Moves earlier later) :
    earlier.status ≠ .used ∧ earlier.status ≠ .cancelled := by
  cases moves with
  | resold _ valid => rw [valid]; decide
  | entered unused => obtain same | same := unused <;> rw [same] <;> decide
  | refunded unused => exact unused

structure SameIssue (earlier later : Ticket) : Prop where
  id : later.id = earlier.id
  originalPrice : later.originalPrice = earlier.originalPrice
  maxResalePrice : later.maxResalePrice = earlier.maxResalePrice

theorem Moves.sameIssue (moves : Moves earlier later) : SameIssue earlier later := by
  cases moves <;> exact ⟨rfl, rfl, rfl⟩

theorem Later.sameIssue (path : Later earlier later) : SameIssue earlier later := by
  induction path with
  | refl => exact ⟨rfl, rfl, rfl⟩
  | tail _ moves ih =>
    have next := moves.sameIssue
    exact ⟨next.id.trans ih.id,
      next.originalPrice.trans ih.originalPrice,
      next.maxResalePrice.trans ih.maxResalePrice⟩

theorem Later.eq_of_final (path : Later earlier later)
    (final : earlier.status = .used ∨ earlier.status = .cancelled) : later = earlier := by
  obtain same | ⟨next, moves, -⟩ := path.cases_head
  · exact same.symm
  · exact absurd final (not_or.mpr moves.not_final)

theorem Later.eq_or_not_valid (path : Later earlier later) :
    later = earlier ∨ later.status ≠ .valid := by
  obtain same | ⟨before, -, moves⟩ := path.cases_tail
  · exact .inl same
  · exact .inr moves.not_valid

theorem Later.owner_eq (path : Later earlier later) (sold : earlier.status ≠ .valid) :
    later.owner = earlier.owner := by
  induction path with
  | refl => rfl
  | tail path moves ih =>
    have stillSold := (Later.eq_or_not_valid path).elim (fun same => same ▸ sold) id
    exact (moves.owner_eq stillSold).trans ih

end Later

/-! ### One step -/

def Follows (before after : Storage) : Prop :=
  ∀ id, Option.Rel Later (before.tickets id) (after.tickets id)

theorem Follows.refl (storage : Storage) : Follows storage storage := by
  intro id
  cases storage.tickets id with
  | none => exact .none
  | some ticket => exact .some .refl

theorem Follows.trans {first second third : Storage} (earlier : Follows first second)
    (later : Follows second third) : Follows first third := by
  intro id
  have one := earlier id
  have two := later id
  generalize first.tickets id = a at one ⊢
  generalize second.tickets id = b at one two
  generalize third.tickets id = c at two ⊢
  cases one with
  | none => exact two
  | some path =>
    cases two with
    | some next => exact .some (path.trans next)

theorem Follows.putTicket {storage : Storage} {id : TicketId} {ticket next : Ticket}
    (found : storage.tickets id = some ticket) (moves : Moves ticket next) :
    Follows storage (storage.putTicket id next) := by
  intro other
  change Option.Rel _ _ (Function.update storage.tickets id (some next) other)
  rw [Function.update_apply]
  split
  · next same =>
      rw [same, found]
      exact .some (.single moves)
  · exact Follows.refl storage other

inductive Effect (before : Storage) : Storage → Prop
  | unchanged : Effect before before
  | initialized {admin paymentToken : Address} {eventName : HostString} {maxTickets : ℕ}
      {price maxResalePrice : ℤ} (fresh : before.admin = none) (positive : 0 < price)
      (capped : price ≤ maxResalePrice) :
      Effect before { before with
        admin := some admin
        token := some paymentToken
        eventStatus := some .active
        maxTix := some maxTickets
        price := some price
        evtName := some eventName
        maxResale := some maxResalePrice
        nextId := some 0 }
  | minted {id : TicketId} {recipient : Address} {eventName : HostString} {max : ℕ}
      {price maxResale : ℤ} (admin : before.admin ≠ none)
      (active : before.currentEventStatus = .active) (maxTix : before.maxTix = some max)
      (nextId : before.nextId = some id) (room : id < max) (atPrice : before.price = some price)
      (atMost : before.maxResale = some maxResale) :
      Effect before { before.putTicket id ⟨id, recipient, eventName, .valid, price, maxResale⟩ with
        nextId := some (id + 1) }
  | moved {id : TicketId} {ticket next : Ticket} (active : before.currentEventStatus = .active)
      (found : before.tickets id = some ticket) (moves : Moves ticket next)
      (kept : next.status ≠ .cancelled) : Effect before (before.putTicket id next)
  | closed {tickets : TicketId → Option Ticket} {status : EventStatus} (admin : before.admin ≠ none)
      (active : before.currentEventStatus = .active) (ended : status ≠ .active)
      (follows : Follows before { before with tickets }) :
      Effect before { before with tickets, eventStatus := some status }

section Loop

variable {host : Host} {paymentToken : Address} {world after : World}

theorem refundAll_cons_ok {id : TicketId} {ids : List TicketId} :
    refundAll host paymentToken (id :: ids) world = .ok ((), after) ↔
      ∃ paid, refund host paymentToken id world = .ok ((), paid) ∧
        refundAll host paymentToken ids paid = .ok ((), after) := by
  change (refund host paymentToken id >>= fun _ => refundAll host paymentToken ids) world = _ ↔ _
  exact Tx.bind_eq_ok.trans
    ⟨fun ⟨(), paid, ran⟩ => ⟨paid, ran⟩, fun ⟨paid, ran⟩ => ⟨(), paid, ran⟩⟩

theorem refund_follows {id : TicketId}
    (ran : refund host paymentToken id world = .ok ((), after)) :
    after.storage = { world.storage with tickets := after.storage.tickets } ∧
      Follows world.storage after.storage := by
  obtain ⟨ticket, found, outcome⟩ := refund_ok.mp ran
  split at outcome
  · next unused =>
      obtain ⟨balances, -, rfl⟩ := outcome
      exact ⟨rfl, .putTicket found (.refunded unused)⟩
  · cases outcome
    exact ⟨rfl, .refl _⟩

theorem refundAll_follows {ids : List TicketId}
    (ran : refundAll host paymentToken ids world = .ok ((), after)) :
    after.storage = { world.storage with tickets := after.storage.tickets } ∧
      Follows world.storage after.storage := by
  induction ids generalizing world with
  | nil =>
    cases ran
    exact ⟨rfl, .refl _⟩
  | cons id ids ih =>
    obtain ⟨paid, first, rest⟩ := refundAll_cons_ok.mp ran
    obtain ⟨frame, follows⟩ := refund_follows first
    obtain ⟨restFrame, restFollows⟩ := ih rest
    refine ⟨?_, follows.trans restFollows⟩
    rw [restFrame, frame]

end Loop

theorem Step.effect {host : Host} {before after : World} {action : Action host}
    (step : Step host before action after) : Effect before.storage after.storage := by
  cases action with
  | initializeEvent env =>
    obtain ⟨-, positive, capped, fresh, rfl⟩ := (initializeEvent_ok env).mp step
    exact .initialized fresh positive capped
  | mintTicket env =>
    obtain ⟨-, -, admin, active, max, maxTix, nextId, room, price, atPrice, maxResale, atMost, _,
      _, _, _, _, _, rfl⟩ := (mintTicket_ok env).mp step
    exact .minted (admin ▸ Option.some_ne_none _) active maxTix nextId room atPrice atMost
  | transferTicket env =>
    obtain ⟨-, active, ticket, found, -, valid, -, -, _, _, _, _, _, _, rfl⟩ :=
      (transferTicket_ok env).mp step
    exact .moved active found (.resold _ valid) nofun
  | verifyTicket env =>
    obtain ⟨-, -, active, ticket, found, outcome⟩ := (verifyTicket_ok env).mp step
    split at outcome
    · next unused =>
        obtain ⟨-, rfl⟩ := outcome
        exact .moved active found (.entered unused) nofun
    · obtain ⟨-, rfl⟩ := outcome
      exact .unchanged
  | completeEvent env =>
    obtain ⟨-, admin, active, rfl⟩ := (completeEvent_ok env).mp step
    exact .closed (admin ▸ Option.some_ne_none _) active nofun (.refl _)
  | cancelEvent env =>
    obtain ⟨-, admin, active, token, _, paid, ran, rfl⟩ := (cancelEvent_ok env).mp step
    obtain ⟨frame, follows⟩ := refundAll_follows ran
    have effect : Effect before.storage { before.storage with
        tickets := paid.storage.tickets, eventStatus := some .cancelled } :=
      .closed (admin ▸ Option.some_ne_none _) active nofun follows
    rw [frame]
    exact effect
  | others =>
    obtain ⟨-, rfl⟩ := step
    exact .unchanged

/-! ### Whole runs -/

structure Kept (storage : Storage) : Prop where
  fresh : storage.admin = none → storage = .deployed
  ids : ∀ id, (storage.tickets id).isSome ↔ id < storage.ticketsSold
  bound : storage.ticketsSold ≤ storage.maxTix.getD 0
  price : ∀ price, storage.price = some price → 0 < price
  issued : ∀ id ticket, storage.tickets id = some ticket →
    ticket.id = id ∧ 0 < ticket.originalPrice ∧ storage.maxResale = some ticket.maxResalePrice
  active : storage.currentEventStatus = .active →
    ∀ id ticket, storage.tickets id = some ticket → ticket.status ≠ .cancelled

/-- Every ticket of `before` is found in a later state of it. -/
def Evolves (before after : Storage) : Prop :=
  ∀ id ticket, before.tickets id = some ticket →
    ∃ next, after.tickets id = some next ∧ Later ticket next

section Follows

variable {before after : Storage} {id : TicketId} {ticket : Ticket}

theorem Follows.isSome_eq (follows : Follows before after) (id : TicketId) :
    (after.tickets id).isSome = (before.tickets id).isSome := by
  have rel := follows id
  generalize before.tickets id = a at rel
  generalize after.tickets id = b at rel
  cases rel <;> rfl

theorem Follows.earlier (follows : Follows before after) (found : after.tickets id = some ticket) :
    ∃ earlier, before.tickets id = some earlier ∧ Later earlier ticket := by
  have rel := follows id
  rw [found] at rel
  generalize before.tickets id = a at rel
  cases rel with
  | some path => exact ⟨_, rfl, path⟩

theorem Follows.evolves (follows : Follows before after) : Evolves before after := by
  intro id ticket found
  have rel := follows id
  rw [found] at rel
  generalize after.tickets id = b at rel
  cases rel with
  | some path => exact ⟨_, rfl, path⟩

end Follows

namespace Kept

variable {before after : Storage}

theorem deployed : Kept .deployed where
  fresh := fun _ => rfl
  ids := fun id => by simp [Storage.deployed, Storage.ticketsSold]
  bound := Nat.le_refl _
  price := nofun
  issued := nofun
  active := nofun

theorem follow (kept : Kept before) {tickets : TicketId → Option Ticket}
    (follows : Follows before { before with tickets }) (admin : before.admin ≠ none)
    {eventStatus : Option EventStatus} (uncancelled : eventStatus.getD .active = .active →
      ∀ id ticket, tickets id = some ticket → ticket.status ≠ .cancelled) :
    Kept { before with tickets, eventStatus } where
  fresh unset := absurd unset admin
  ids id := (iff_of_eq (congrArg (· = true) (follows.isSome_eq id))).trans (kept.ids id)
  bound := kept.bound
  price := kept.price
  issued id ticket found := by
    obtain ⟨earlier, was, path⟩ := follows.earlier found
    obtain ⟨sameId, positive, atMost⟩ := kept.issued id earlier was
    have issue := Later.sameIssue path
    exact ⟨issue.id.trans sameId, issue.originalPrice ▸ positive, issue.maxResalePrice ▸ atMost⟩
  active := uncancelled

theorem mint (kept : Kept before) {id : TicketId} {recipient : Address} {eventName : HostString}
    {max : ℕ} {price maxResale : ℤ} (admin : before.admin ≠ none) (maxTix : before.maxTix = some max)
    (nextId : before.nextId = some id) (room : id < max) (atPrice : before.price = some price)
    (atMost : before.maxResale = some maxResale) :
    Kept { before.putTicket id ⟨id, recipient, eventName, .valid, price, maxResale⟩ with
      nextId := some (id + 1) } := by
  have sold : before.ticketsSold = id := by rw [Storage.ticketsSold, nextId, Option.getD_some]
  have cases' : ∀ other ticket, (before.putTicket id
      ⟨id, recipient, eventName, .valid, price, maxResale⟩).tickets other = some ticket →
      other = id ∧ ticket = ⟨id, recipient, eventName, .valid, price, maxResale⟩ ∨
        before.tickets other = some ticket := by
    intro other ticket found
    obtain ⟨same, new⟩ | ⟨-, there⟩ := of_update found
    · exact .inl ⟨same, (Option.some.inj new).symm⟩
    · exact .inr there
  refine ⟨fun unset => absurd unset admin, fun other => ?_, ?_, kept.price,
    fun other ticket found => ?_, fun active other ticket found => ?_⟩
  · change (Function.update before.tickets id _ other).isSome ↔ other < id + 1
    rw [Function.update_apply]
    split
    · next same => simp [same]
    · next differs =>
        rw [kept.ids other, sold, Nat.lt_succ_iff_lt_or_eq]
        exact ⟨.inl, fun below => below.resolve_right differs⟩
  · change id + 1 ≤ before.maxTix.getD 0
    rw [maxTix]
    exact room
  · obtain ⟨rfl, rfl⟩ | old := cases' other ticket found
    · exact ⟨rfl, kept.price price atPrice, atMost⟩
    · exact kept.issued other ticket old
  · obtain ⟨rfl, rfl⟩ | old := cases' other ticket found
    · nofun
    · exact kept.active active other ticket old

theorem effect (kept : Kept before) (effect : Effect before after) : Kept after := by
  cases effect with
  | unchanged => exact kept
  | initialized unset positive capped =>
    rw [kept.fresh unset]
    refine ⟨nofun, fun id => by simp [Storage.deployed, Storage.ticketsSold], Nat.zero_le _,
      fun price same => ?_, nofun, nofun⟩
    cases same
    exact positive
  | minted admin active maxTix nextId room atPrice atMost =>
    exact kept.mint admin maxTix nextId room atPrice atMost
  | @moved id ticket next active found moves open_ =>
    have admin : before.admin ≠ none := by
      intro unset
      rw [kept.fresh unset] at found
      nomatch found
    refine kept.follow (.putTicket found moves) admin fun _ => ?_
    refine forall_update (kept.active active) fun ticket same => ?_
    cases same
    exact open_
  | closed admin active ended follows =>
    exact kept.follow follows admin fun active => absurd active ended

end Kept

theorem Effect.evolves {before after : Storage} (effect : Effect before after)
    (kept : Kept before) : Evolves before after := by
  cases effect with
  | unchanged | initialized => exact (Follows.refl before).evolves
  | moved active found moves => exact (Follows.putTicket found moves).evolves
  | closed admin active ended follows => exact follows.evolves
  | @minted id _ _ _ _ _ _ _ _ nextId =>
    intro other ticket found
    have below := (kept.ids other).mp (Option.isSome_of_eq_some found)
    rw [Storage.ticketsSold, nextId, Option.getD_some] at below
    exact ⟨ticket, (Function.update_of_ne below.ne _ _).trans found, .refl⟩

theorem Effect.eq_of_over {before after : Storage} (effect : Effect before after)
    (kept : Kept before) (ended : before.currentEventStatus ≠ .active) : after = before := by
  cases effect with
  | unchanged => rfl
  | initialized unset =>
    rw [kept.fresh unset] at ended
    exact absurd rfl ended
  | minted _ active | moved active | closed _ active => exact absurd active ended

section Runs

variable {host : Host} {balances : Balances} {labels : List (Action host)} {first last : World}

theorem kept_of_run (reached : Run (Step host) (.deployed balances) labels last) :
    Kept last.storage :=
  reached.invariant (P := fun world => Kept world.storage) Kept.deployed
    fun _ _ _ kept step => kept.effect step.effect

theorem Kept.run (kept : Kept first.storage) (run : Run (Step host) first labels last) :
    Kept last.storage :=
  run.invariant (P := fun world => Kept world.storage) kept
    fun _ _ _ kept step => kept.effect step.effect

theorem Kept.evolves (kept : Kept first.storage) (run : Run (Step host) first labels last) :
    Evolves first.storage last.storage := by
  induction run with
  | nil => exact (Follows.refl _).evolves
  | snoc earlier step ih =>
    intro id ticket found
    obtain ⟨middle, stored, path⟩ := ih id ticket found
    obtain ⟨next, after, more⟩ := step.effect.evolves (kept.run earlier) id middle stored
    exact ⟨next, after, Relation.ReflTransGen.trans path more⟩

theorem Kept.eq_of_over (kept : Kept first.storage)
    (ended : first.storage.currentEventStatus ≠ .active)
    (run : Run (Step host) first labels last) : last.storage = first.storage := by
  induction run with
  | nil => rfl
  | snoc earlier step ih =>
    have same := step.effect.eq_of_over (kept.run earlier) (ih ▸ ended)
    exact same.trans ih

end Runs

/-! ### The life cycle -/

def Action.enters {host : Host} (id : TicketId) : Action host → Bool
  | .verifyTicket _ _ scanned entered => entered && scanned = id
  | _ => false

/-- The minted tickets are those below `NEXT_ID`, and there are at most `MAX_TIX`. -/
def Minted (storage : Storage) : Prop :=
  (∀ id, (storage.tickets id).isSome ↔ id < storage.ticketsSold) ∧
    storage.ticketsSold ≤ storage.maxTix.getD 0

section

variable {host : Host} {balances : Balances} {labels : List (Action host)} {world : World}

theorem status_of_enters {before after : World} {action : Action host} {id : TicketId}
    (step : Step host before action after) (enters : action.enters id = true) :
    ∃ ticket next, before.storage.tickets id = some ticket ∧ ticket.status ≠ .used ∧
      after.storage.tickets id = some next ∧ next.status = .used := by
  cases action with
  | verifyTicket env verifier scanned entered =>
    simp only [Action.enters, Bool.and_eq_true, decide_eq_true_eq] at enters
    obtain ⟨rfl, rfl⟩ := enters
    obtain ⟨-, -, -, ticket, found, outcome⟩ := (verifyTicket_ok env).mp step
    split at outcome
    · next unused =>
        obtain ⟨-, rfl⟩ := outcome
        refine ⟨ticket, _, found, ?_, Function.update_self .., rfl⟩
        obtain same | same := unused <;> rw [same] <;> decide
    · nomatch outcome.1
  | initializeEvent | mintTicket | transferTicket | completeEvent | cancelEvent | others =>
    nomatch enters

theorem enters_once (reached : Run (Step host) (.deployed balances) labels world) (id : TicketId) :
    labels.countP (Action.enters id) ≤ 1 := by
  have counted := reached.induct
    (P := fun history world => history.countP (Action.enters id) = 0 ∨
      history.countP (Action.enters id) = 1 ∧
        ∃ ticket, world.storage.tickets id = some ticket ∧ ticket.status = .used)
    (.inl rfl) fun history action before after earlier counted step => by
      rw [List.countP_append, List.countP_singleton]
      cases enters : action.enters id with
      | true =>
        obtain ⟨ticket, next, found, unused, stored, used⟩ := status_of_enters step enters
        obtain never | ⟨-, old, same, was⟩ := counted
        · exact .inr ⟨by simp [never], next, stored, used⟩
        · cases found.symm.trans same
          exact absurd was unused
      | false =>
        refine counted.imp (fun never => by simp [never]) fun ⟨once, ticket, found, used⟩ => ?_
        obtain ⟨next, stored, path⟩ :=
          step.effect.evolves (kept_of_run earlier) id ticket found
        rw [Later.eq_of_final path (.inl used)] at stored
        exact ⟨by simp [once], ticket, stored, used⟩
  omega

end

/-- A run that goes on twice from a reachable state. -/
theorem ticket_life_cycle {host : Host} {balances : Balances} {labels more most : List (Action host)}
    {first second third : World}
    (reached : Run (Step host) (.deployed balances) labels first)
    (onwards : Run (Step host) first more second) (beyond : Run (Step host) second most third) :
    Minted first.storage ∧
      (∀ id, labels.countP (Action.enters id) ≤ 1) ∧
      (∀ id one two three, first.storage.tickets id = some one →
        second.storage.tickets id = some two → third.storage.tickets id = some three →
          two.owner = one.owner ∨ three.owner = two.owner) ∧
      (∀ id ticket, first.storage.tickets id = some ticket →
        ticket.status = .used ∨ ticket.status = .cancelled →
          second.storage.tickets id = some ticket) ∧
      (∀ env sender recipient id salePrice next,
        Step host first (.transferTicket env sender recipient id salePrice) next →
          ∃ maxResalePrice, first.storage.maxResale = some maxResalePrice ∧ 1 ≤ salePrice ∧
            salePrice ≤ maxResalePrice) ∧
      (first.storage.currentEventStatus ≠ .active → second.storage = first.storage) := by
  have kept := kept_of_run reached
  have keptSecond := kept.run onwards
  refine ⟨⟨kept.ids, kept.bound⟩, enters_once reached, ?_, ?_, ?_, fun ended =>
    kept.eq_of_over ended onwards⟩
  · intro id one two three atFirst atSecond atThird
    obtain ⟨_, same, path⟩ := kept.evolves onwards id one atFirst
    cases atSecond.symm.trans same
    obtain ⟨_, again, later⟩ := keptSecond.evolves beyond id two atSecond
    cases atThird.symm.trans again
    obtain rfl | sold := Later.eq_or_not_valid path
    · exact .inl rfl
    · exact .inr (Later.owner_eq later sold)
  · intro id ticket found final
    obtain ⟨next, stored, path⟩ := kept.evolves onwards id ticket found
    rwa [Later.eq_of_final path final] at stored
  · intro env sender recipient id salePrice next step
    obtain ⟨-, -, ticket, found, -, -, atMost, positive, -⟩ := (transferTicket_ok env).mp step
    exact ⟨ticket.maxResalePrice, (kept.issued id ticket found).2.2, positive, atMost⟩

section OneEvent

def self : Address := .contract (Vector.replicate 32 0)

def paymentToken : Address := .contract (Vector.replicate 32 1)

def organizer : Address := .account (Vector.replicate 32 0)

def fan : Address := .account (Vector.replicate 32 1)

def friend : Address := .account (Vector.replicate 32 2)

def everybody : Env (.ledger self) := ⟨fun address => address ≠ self, by decide⟩

def eventName : HostString := .empty

def rich : Balances := fun _ _ => 100

def opened : List (Action (.ledger self)) :=
  [.initializeEvent everybody organizer paymentToken eventName 2 10 15,
    .mintTicket everybody organizer fan 0]

def openedWorld : World :=
  ((mintTicket everybody organizer fan).settle
    ((initializeEvent everybody organizer paymentToken eventName 2 10 15).settle
      (.deployed rich)).2).2

def resoldWorld : World := ((transferTicket everybody fan friend 0 12).settle openedWorld).2

def enteredWorld : World := ((verifyTicket everybody organizer 0).settle resoldWorld).2

theorem run_opened : Run (Step (.ledger self)) (.deployed rich) opened openedWorld := by
  have started : Run (Step (.ledger self)) (.deployed rich)
      [.initializeEvent everybody organizer paymentToken eventName 2 10 15] _ :=
    Run.one ((initializeEvent_ok _).mpr ⟨by decide, by decide, by decide, rfl, rfl⟩)
  exact started.snoc (show Step _ _ (.mintTicket everybody organizer fan 0) _ from
    (mintTicket_ok _).mpr ⟨by decide, by decide, rfl, rfl, 2, rfl, rfl, by decide, 10, rfl, 15, rfl,
      eventName, rfl, paymentToken, rfl, _, rfl, rfl⟩)

theorem ticket_life_cycle_resale :
    Minted openedWorld.storage ∧ ∀ id, opened.countP (Action.enters id) ≤ 1 := by
  have sold : Run (Step (.ledger self)) openedWorld [.transferTicket everybody fan friend 0 12]
      resoldWorld := Run.one (show Step _ _ (.transferTicket everybody fan friend 0 12) _ from rfl)
  have entered : Run (Step (.ledger self)) resoldWorld [.verifyTicket everybody organizer 0 true]
      enteredWorld := Run.one (show Step _ _ (.verifyTicket everybody organizer 0 true) _ from rfl)
  have facts := ticket_life_cycle run_opened sold entered
  exact ⟨facts.1, facts.2.1⟩

end OneEvent

end SorobanExplorer.Ticketing
