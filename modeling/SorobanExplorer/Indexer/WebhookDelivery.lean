import SorobanExplorer.Filters.Evaluate

/-!
Owns the delivery of an event to webhook subscriptions: the two queries of
`getMatchingWebhookSubscriptions`, the wallet and filter predicates, and the signed POST.

`delivers_iff` says when an event reaches the subscriptions whose criteria it matches.
-/

namespace SorobanExplorer.Indexer

open Library
open Library.Postgres (Text)
open Filters

namespace WebhookDelivery

/-- Whether the module binds the names that `sendOnce` uses. -/
structure Scope where
  safeFetch : Bool

/-- `webhookDelivery.js` does not import `safeFetch`. -/
def webhookDelivery : Scope := ⟨false⟩

structure DecodedEvent extends EventRecord where
  description : Option Text

/-- A row of `webhook_subscriptions`; `none` is NULL, and matches everything. -/
structure Subscription where
  id : String
  url : String
  contractId : Option Text
  functionFilter : Option Text
  walletAddress : Option Text
  filter : Option Node
  secret : String
  active : Bool

structure Table where
  rows : List Subscription
  distinct : (rows.map fun row => row.id).Nodup

/-- The environment: the HMAC, opening a sealed secret (`none` throws), and the body of an
event at the time of the call. -/
structure Services where
  hmacSha256 : String → String → String
  decryptSecret : String → Option String
  buildPayload : DecodedEvent → String

structure Post where
  url : String
  body : String
  signature : String
deriving DecidableEq, Repr

def signPayload (services : Services) (secret body : String) : String :=
  "sha256=" ++ services.hmacSha256 secret body

/-! ### Selecting -/

def coarse (event : DecodedEvent) (subscription : Subscription) : Bool :=
  subscription.contractId.all (· = event.contract_id) &&
    subscription.functionFilter.all (· = event.function)

def getMatchingWebhookSubscriptions (table : Table) (event : DecodedEvent) : List Subscription :=
  table.rows.filter (fun row => row.active && coarse event row && row.walletAddress.isNone) ++
    table.rows.filter fun row => row.active && row.walletAddress.isSome

def isWordChar (char : Char) : Bool := char.isAlphanum || char = '_'

def isBase32 (char : Char) : Bool := char.isUpper || ('2' ≤ char && char ≤ '7')

/-- `/\bG[A-Z2-7]{55}\b/g`: of all characters of an address, the words of the text that are
one. -/
def accounts (text : List Char) : List (List Char) :=
  (text.splitOnP fun char => !isWordChar char).filter fun word =>
    word.length = 56 && word.head? = some 'G' && word.tail.all isBase32

def extractWalletsFromTopics (rawTopics : Option (List Text)) : List (List Char) :=
  (rawTopics.getD []).flatMap fun topic => accounts topic.chars

/-- `text.includes(wallet)` -/
def mentions (wallet text : Text) : Bool := decide (wallet.chars <:+: text.chars)

def eventMatchesWallet (event : DecodedEvent) : Option Text → Bool
  | none => true
  | some wallet =>
    wallet.chars.isEmpty || (extractWalletsFromTopics event.raw_topics).contains wallet.chars ||
      event.description.any (mentions wallet)

def eventMatchesFilter (event : DecodedEvent) : Option Node → Bool
  | none => true
  | some ast =>
    if ast.truthy then
      match validateFilter ast with
      | .ok valid => evaluateFilter event.toEventRecord valid = some true
      | .error _ => false
    else true

/-! ### Sending -/

/-- The POST that `sendOnce` issues. Without `safeFetch` the call is a `ReferenceError`, which
is caught like a request that fails. -/
def sendOnce (scope : Scope) (services : Services) (url secret body : String) : Option Post :=
  if scope.safeFetch then
    (services.decryptSecret secret).map fun key => ⟨url, body, signPayload services key body⟩
  else none

def deliverToSubscription (scope : Scope) (services : Services) (event : DecodedEvent)
    (subscription : Subscription) : Option (String × Post) :=
  (sendOnce scope services subscription.url subscription.secret
    (services.buildPayload event)).map fun post => (subscription.id, post)

def selected (table : Table) (event : DecodedEvent) : List Subscription :=
  (getMatchingWebhookSubscriptions table event).filter fun row =>
    eventMatchesWallet event row.walletAddress && eventMatchesFilter event row.filter

def deliverWebhooksForEvent (scope : Scope) (services : Services) (table : Table)
    (event : DecodedEvent) : List (String × Post) :=
  (selected table event).filterMap (deliverToSubscription scope services event)

/-! ### What is promised -/

def Occurs (event : DecodedEvent) (wallet : Text) : Prop :=
  (∃ topic ∈ event.raw_topics.getD [], wallet.chars <:+: topic.chars) ∨
    ∃ description, event.description = some description ∧ wallet.chars <:+: description.chars

structure Matches (event : DecodedEvent) (subscription : Subscription) : Prop where
  contract : ∀ contract, subscription.contractId = some contract → contract = event.contract_id
  function : ∀ function, subscription.functionFilter = some function → function = event.function
  wallet : ∀ wallet, subscription.walletAddress = some wallet → Occurs event wallet
  filter : ∀ ast, subscription.filter = some ast → validateFilter ast = .ok ast ∧
    evaluateFilter event.toEventRecord ast = some true

structure Delivered (services : Services) (table : Table) (event : DecodedEvent)
    (posts : List (String × Post)) : Prop where
  once : (posts.map Prod.fst).Nodup
  reached : ∀ row ∈ table.rows, row.id ∈ posts.map Prod.fst ↔
    row.active = true ∧ Matches event row
  signed : ∀ sent ∈ posts, ∃ row ∈ table.rows, row.id = sent.1 ∧ ∃ key,
    services.decryptSecret row.secret = some key ∧
      sent.2 = ⟨row.url, services.buildPayload event,
        signPayload services key (services.buildPayload event)⟩

section Delivery

variable {scope : Scope} {services : Services} {table : Table} {event : DecodedEvent}
  {subscription : Subscription}

theorem mem_selected : subscription ∈ selected table event ↔
    subscription ∈ table.rows ∧ subscription.active = true ∧
      (subscription.walletAddress = none → coarse event subscription = true) ∧
        eventMatchesWallet event subscription.walletAddress = true ∧
          eventMatchesFilter event subscription.filter = true := by
  rw [selected, getMatchingWebhookSubscriptions, List.mem_filter, List.mem_append,
    List.mem_filter, List.mem_filter]
  cases subscription.walletAddress <;> simp <;> tauto

theorem nodup_selected : ((selected table event).map fun row => row.id).Nodup := by
  have matching : ((getMatchingWebhookSubscriptions table event).map fun row => row.id).Nodup := by
    rw [getMatchingWebhookSubscriptions, List.map_append, List.nodup_append]
    refine ⟨table.distinct.sublist (List.filter_sublist.map _),
      table.distinct.sublist (List.filter_sublist.map _), ?_⟩
    intro first left second right same
    obtain ⟨row, among, rfl⟩ := List.mem_map.mp left
    obtain ⟨other, amongOther, rfl⟩ := List.mem_map.mp right
    obtain ⟨listed, without⟩ := List.mem_filter.mp among
    obtain ⟨listedOther, wallet⟩ := List.mem_filter.mp amongOther
    have equal := List.inj_on_of_nodup_map table.distinct listed listedOther same
    rw [equal] at without
    cases found : other.walletAddress <;> simp [found] at without wallet
  exact matching.sublist (List.filter_sublist.map _)

theorem mem_posts {sent : String × Post} :
    sent ∈ deliverWebhooksForEvent scope services table event ↔ scope.safeFetch = true ∧
      ∃ row ∈ selected table event, row.id = sent.1 ∧ ∃ key,
        services.decryptSecret row.secret = some key ∧
          sent.2 = ⟨row.url, services.buildPayload event,
            signPayload services key (services.buildPayload event)⟩ := by
  obtain ⟨id, post⟩ := sent
  rw [deliverWebhooksForEvent, List.mem_filterMap]
  unfold deliverToSubscription sendOnce
  cases scope.safeFetch with
  | false => simp
  | true => simp [eq_comm, and_left_comm]

/-- What is sent goes to each subscription once, signed with its secret. -/
theorem sent_once : ((deliverWebhooksForEvent scope services table event).map Prod.fst).Nodup := by
  rw [deliverWebhooksForEvent, List.map_filterMap]
  have sublist : ((selected table event).filterMap fun row =>
      (deliverToSubscription scope services event row).map Prod.fst).Sublist
        ((selected table event).map fun row => row.id) := by
    induction selected table event with
    | nil => exact List.Sublist.slnil
    | cons row rows ih =>
      rw [List.filterMap_cons, List.map_cons]
      cases posted : deliverToSubscription scope services event row with
      | none => exact ih.cons _
      | some sent =>
        obtain ⟨post, -, rfl⟩ := Option.map_eq_some_iff.mp posted
        exact ih.cons_cons _
  exact nodup_selected.sublist sublist

/-- With `safeFetch`, and secrets that open, an event is delivered as promised if and only if
the code selects the active subscriptions that match. -/
theorem delivers_bound_iff (opens : ∀ row ∈ table.rows,
    (services.decryptSecret row.secret).isSome = true) :
    Delivered services table event (deliverWebhooksForEvent ⟨true⟩ services table event) ↔
      ∀ row ∈ table.rows, row ∈ selected table event ↔ row.active = true ∧ Matches event row := by
  have reached : ∀ row ∈ table.rows,
      row.id ∈ (deliverWebhooksForEvent ⟨true⟩ services table event).map Prod.fst ↔
        row ∈ selected table event := by
    intro row listed
    constructor
    · intro sent
      obtain ⟨post, member, same⟩ := List.mem_map.mp sent
      obtain ⟨-, other, among, id, -⟩ := mem_posts.mp member
      have equal := List.inj_on_of_nodup_map table.distinct (mem_selected.mp among).1 listed
        (id.trans same)
      exact equal ▸ among
    · intro among
      obtain ⟨key, opened⟩ := Option.isSome_iff_exists.mp (opens row listed)
      exact List.mem_map.mpr ⟨(row.id, _), mem_posts.mpr ⟨rfl, row, among, rfl, key, opened, rfl⟩, rfl⟩
  constructor
  · intro delivered row listed
    exact (reached row listed).symm.trans (delivered.reached row listed)
  · intro same
    refine ⟨sent_once, fun row listed => (reached row listed).trans (same row listed), ?_⟩
    intro sent member
    obtain ⟨-, row, among, rest⟩ := mem_posts.mp member
    exact ⟨row, (mem_selected.mp among).1, rest⟩

/-- Without `safeFetch` nothing is sent: then an event is delivered as promised if and only if
no active subscription matches it. -/
theorem delivers_iff (services : Services) (table : Table) (event : DecodedEvent) :
    Delivered services table event (deliverWebhooksForEvent webhookDelivery services table event) ↔
      ∀ row ∈ table.rows, row.active = true → ¬ Matches event row := by
  have silent : deliverWebhooksForEvent webhookDelivery services table event = [] :=
    List.filterMap_eq_nil_iff.mpr fun _ _ => rfl
  rw [silent]
  constructor
  · intro delivered row listed active fits
    have reached := (delivered.reached row listed).mpr ⟨active, fits⟩
    cases reached
  · intro none
    refine ⟨List.nodup_nil, fun row listed => ?_, List.forall_mem_nil _⟩
    refine iff_of_false List.not_mem_nil fun both => ?_
    exact none row listed both.1 both.2

end Delivery

/-! ### One subscription -/

def oneText : Text := ⟨['1'], by decide⟩

def mintEvent : DecodedEvent where
  contract_id := oneText
  function := oneText
  tx_hash := none
  ledger := ⟨.text (js "2"), 2, by decide, by simp⟩
  seq := ⟨.text (js "2"), 2, by decide, by simp⟩
  raw_topics := none
  raw_data := none
  description := none

def everyEvent : Subscription := ⟨"w", "https://example.com", none, none, none, none, "s", true⟩

theorem everyEvent_matches : Matches mintEvent everyEvent := by
  constructor <;> simp [everyEvent]

/-- A subscription to every event gets none. -/
theorem everyEvent_undelivered : ¬ ∀ services table event,
    Delivered services table event
      (deliverWebhooksForEvent webhookDelivery services table event) := by
  intro delivered
  have reached := (delivered ⟨fun _ _ => "", some, fun _ => ""⟩ ⟨[everyEvent], by decide⟩
    mintEvent).reached everyEvent (List.mem_singleton_self _)
  cases reached.mpr ⟨rfl, everyEvent_matches⟩

end WebhookDelivery

end SorobanExplorer.Indexer
