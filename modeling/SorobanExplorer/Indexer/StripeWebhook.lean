import Mathlib.Data.List.Induction
import SorobanExplorer.Indexer.ApiKeys

/-!
Owns the Stripe webhook: the tier that a subscription event asks for, the update of
`api_keys` it leads to, how the route answers, and what a sequence of deliveries
leaves of a key's tier.

A handler awaits one query and writes nothing else, so that handlers that overlap
have the effect of their queries one after the other.
-/

namespace SorobanExplorer.Indexer.StripeWebhook

open ApiKeys (Tier)

/-! ### Events -/

/-- `metadata` of a Stripe object: texts by name. -/
abbrev Metadata := String → Option String

/-- `price.product`: the id of a product, or the product itself where it is expanded. -/
inductive Product where
  | id (id : String)
  | expanded (metadata : Option Metadata)

/-- `product?.metadata` of a price, which a text does not have. -/
def Product.metadata : Product → Option Metadata
  | .id _ => none
  | .expanded metadata => metadata

/-- An item of a subscription: `price?.product` and `plan?.metadata`. -/
structure Item where
  product : Option Product
  planMetadata : Option Metadata

structure Subscription where
  metadata : Option Metadata
  items : Option (List Item)

inductive EventType where
  | subscriptionUpdated
  | subscriptionDeleted
  | other (type : String)

structure Event where
  id : String
  created : ℕ
  type : EventType
  object : Subscription

/-! ### Handlers -/

/-- `VALID_TIERS.includes(tier)` with the tier. -/
def validTier? (tier : String) : Option Tier :=
  if tier = "free" then some .free
  else if tier = "pro" then some .pro
  else if tier = "enterprise" then some .enterprise
  else none

/-- `item.price?.product?.metadata ?? item.plan?.metadata ?? {}` and its `tier`. -/
def Item.tier? (item : Item) : Option Tier :=
  (((item.product.bind Product.metadata).orElse fun _ => item.planMetadata).bind
    fun metadata => metadata "tier").bind validTier?

/-- `_extractTierFromSubscription` -/
def extractTierFromSubscription (subscription : Subscription) : Option Tier :=
  ((subscription.metadata.bind fun metadata => metadata "tier").bind validTier?).orElse fun _ =>
    (subscription.items.getD []).findSome? Item.tier?

/-- `metadata?.api_key_id`, where it is not empty. -/
def apiKeyId? (subscription : Subscription) : Option String :=
  (subscription.metadata.bind fun metadata => metadata "api_key_id").filter (· ≠ "")

/-- `UPDATE api_keys SET tier = $1, updated_at = NOW() WHERE id = $2` -/
structure Update where
  tier : Tier
  id : String
deriving DecidableEq

/-- `_handleSubscriptionUpdated`, with the query it awaits. -/
def handleSubscriptionUpdated (subscription : Subscription) : Option Update := do
  let id ← apiKeyId? subscription
  let tier ← extractTierFromSubscription subscription
  return ⟨tier, id⟩

/-- `_handleSubscriptionDeleted`, with the query it awaits. -/
def handleSubscriptionDeleted (subscription : Subscription) : Option Update := do
  let id ← apiKeyId? subscription
  return ⟨.free, id⟩

/-- `_handleEvent`, with the query it awaits. -/
def handleEvent (event : Event) : Option Update :=
  match event.type with
  | .subscriptionUpdated => handleSubscriptionUpdated event.object
  | .subscriptionDeleted => handleSubscriptionDeleted event.object
  | .other _ => none

/-! ### The route -/

structure Row where
  tier : Tier
  updatedAt : ℕ
deriving DecidableEq

abbrev Table := String → Option Row

def Update.apply (update : Update) (now : ℕ) (table : Table) : Table := fun id =>
  if id = update.id then (table id).map fun _ => ⟨update.tier, now⟩ else table id

/-- How `pool.query` settles: it may be rejected before the update is committed, or
after it. -/
inductive QueryOutcome where
  | resolved
  | rejected (message : String) (committed : Bool)
deriving DecidableEq

def QueryOutcome.committed : QueryOutcome → Bool
  | .resolved => true
  | .rejected _ committed => committed

structure Response where
  status : ℕ
  received : Bool
  warning : Option String
  error : Option String
deriving DecidableEq

def Response.received_ (warning : Option String) : Response := ⟨200, true, warning, none⟩

/-- A request to the route. `constructEvent` throws, or gives the event; the query
of the event settles with an outcome at a time. -/
structure Delivery where
  event : Except String Event
  outcome : QueryOutcome
  now : ℕ

def Delivery.effect (delivery : Delivery) : Option Update :=
  match delivery.event with
  | .error _ => none
  | .ok event => (handleEvent event).filter fun _ => delivery.outcome.committed

def Delivery.write (delivery : Delivery) (table : Table) : Table :=
  match delivery.effect with
  | some update => update.apply delivery.now table
  | none => table

/-- `POST /stripe-webhook`, where the webhook secret is set. -/
def respond (delivery : Delivery) : Response :=
  match delivery.event with
  | .error _ => ⟨400, false, none, some "Invalid signature"⟩
  | .ok event =>
    match handleEvent event, delivery.outcome with
    | some _, .rejected message _ => .received_ (some message)
    | _, _ => .received_ none

def settle (deliveries : List Delivery) (table : Table) : Table :=
  deliveries.foldl (fun table delivery => delivery.write table) table

/-! ### The tier of a key -/

def Update.gives (key : String) (update : Update) : Option Tier :=
  if update.id = key then some update.tier else none

def Event.asks (event : Event) (key : String) : Option Tier :=
  (handleEvent event).bind (Update.gives key)

def Delivery.gives (delivery : Delivery) (key : String) : Option Tier :=
  delivery.effect.bind (Update.gives key)

def lastGiven (deliveries : List Delivery) (key : String) : Option Tier :=
  deliveries.reverse.findSome? fun delivery => delivery.gives key

theorem apply_tier (update : Update) (now : ℕ) (table : Table) (key : String) :
    (update.apply now table key).map Row.tier =
      (table key).map fun row => (update.gives key).getD row.tier := by
  unfold Update.apply Update.gives
  by_cases same : key = update.id
  · rw [if_pos same, if_pos same.symm, Option.map_map]
    rfl
  · rw [if_neg same, if_neg (Ne.symm same)]
    rfl

theorem write_tier (delivery : Delivery) (table : Table) (key : String) :
    (delivery.write table key).map Row.tier =
      (table key).map fun row => (delivery.gives key).getD row.tier := by
  unfold Delivery.write Delivery.gives
  cases delivery.effect with
  | none => rfl
  | some update => exact apply_tier update delivery.now table key

theorem settle_tier (deliveries : List Delivery) (table : Table) (key : String) :
    (settle deliveries table key).map Row.tier =
      (table key).map fun row => (lastGiven deliveries key).getD row.tier := by
  induction deliveries using List.reverseRecOn with
  | nil => rfl
  | append_singleton deliveries delivery ih =>
    have last : settle (deliveries ++ [delivery]) table =
        delivery.write (settle deliveries table) := by
      rw [settle, List.foldl_append]
      rfl
    have given : lastGiven (deliveries ++ [delivery]) key =
        (delivery.gives key).or (lastGiven deliveries key) := by
      rw [lastGiven, List.reverse_append, List.reverse_singleton, List.singleton_append,
        List.findSome?_cons]
      cases delivery.gives key <;> rfl
    have before := ih
    rw [last, write_tier, given]
    cases delivery.gives key with
    | none => simpa using before
    | some tier =>
      have present := congrArg (Option.map fun _ => tier) before
      rw [Option.map_map, Option.map_map] at present
      exact present

theorem respond_verified {delivery : Delivery} {event : Event}
    (verified : delivery.event = .ok event) :
    ∃ warning, respond delivery = .received_ warning ∧
      ∀ message, warning = some message ↔ (handleEvent event).isSome = true ∧
        ∃ committed, delivery.outcome = .rejected message committed := by
  unfold respond
  rw [verified]
  cases handled : handleEvent event with
  | none => exact ⟨none, by simp only [handled], by simp⟩
  | some update =>
    cases outcome : delivery.outcome with
    | resolved => exact ⟨none, by simp only [handled], by simp⟩
    | rejected message committed => exact ⟨some message, by simp only [handled], by simp⟩

/-- Once every event of a set has been delivered, and its query resolved, a key has
the tier that the newest of them asks for. -/
def NewestDecides : Prop :=
  ∀ (events : List Event) (deliveries : List Delivery) (table : Table) (key : String),
    (∀ event ∈ events, ∃ delivery ∈ deliveries, delivery.event = .ok event) →
    (∀ delivery ∈ deliveries, delivery.outcome = .resolved ∧
      ∃ event ∈ events, delivery.event = .ok event) →
    ∀ newest ∈ events, (∀ event ∈ events, event.created ≤ newest.created) →
      ∀ tier, newest.asks key = some tier → (table key).isSome = true →
        (settle deliveries table key).map Row.tier = some tier

def FailuresReported : Prop :=
  ∀ (delivery : Delivery) (event : Event) (message : String), delivery.event = .ok event →
    (handleEvent event).isSome = true → delivery.outcome = .rejected message false →
      (respond delivery).received = false

/-- A subscription of the key `k`, with or without a tier of its own. -/
def exampleSubscription (tier : Option String) : Subscription where
  metadata := some fun name => if name = "api_key_id" then some "k"
    else if name = "tier" then tier else none
  items := none

def exampleUpdated : Event :=
  ⟨"evt_1", 1, .subscriptionUpdated, exampleSubscription (some "pro")⟩

def exampleDeleted : Event := ⟨"evt_2", 2, .subscriptionDeleted, exampleSubscription none⟩

end SorobanExplorer.Indexer.StripeWebhook
