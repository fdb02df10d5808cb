import Mathlib.Data.List.ReduceOption
import Mathlib.Data.List.Sort
import SorobanExplorer.Filters.JsValue
import SorobanExplorer.Library.JsonWritten
import SorobanExplorer.Library.OrderedMap

/-!
Owns the verification of RPC answers: the projection of an event, the digest of a list, the
groups of providers that answer alike, and what `verifyRpcRange` makes of them.

`quorum_verified` says what a verified answer in quorum mode is worth.
-/

namespace SorobanExplorer.Indexer

open Library Filters

namespace RpcVerifier

/-! ### The digest -/

/-- An event as a provider answers it; a field that is not there is `none`. -/
structure Event where
  id : Option Json
  txHash : Option Json
  tx_hash : Option Json
  ledger : Option Json
  contractId : Option Json
  contract_id : Option Json
  xdr : Option Json
  txMeta : Option Json
  value : Option Json
  topic : Option Json

/-- `left ?? right` -/
def coalesce : Option Json → Option Json → Option Json
  | none, right => right
  | some .null, right => right
  | some value, _ => some value

mutual

/-- `String(value)` -/
def textOf : Json → JsString
  | .array items => (js ",").intercalate (textsOf items)
  | .object _ => js "[object Object]"
  | .null => js "null"
  | .boolean value => Utf16.encode (JsValue.booleanText value)
  | .number numeral => Utf16.encode (JsNumber.ofNumeral numeral).text
  | .string units => units

/-- `null` is empty in an array. -/
def textsOf : List Json → List JsString
  | [] => []
  | .null :: items => [] :: textsOf items
  | item :: items => textOf item :: textsOf items

end

/-- `${value ?? ""}` -/
def textOrEmpty (value : Option Json) : JsString :=
  ((coalesce value none).map textOf).getD []

structure StableEvent where
  id : Json
  ledger : Option Json
  tx : Option Json
  xdr : Json

def stableEvent (event : Event) : StableEvent where
  id := (coalesce event.id none).getD (.string
    (textOrEmpty (coalesce event.txHash event.tx_hash) ++ js ":" ++ textOrEmpty event.ledger ++
      js ":" ++ textOrEmpty (coalesce event.contractId event.contract_id)))
  ledger := event.ledger
  tx := coalesce event.txHash event.tx_hash
  xdr := (coalesce event.xdr (coalesce event.txMeta
    (coalesce event.value (coalesce event.topic none)))).getD .null

/-- `JSON.stringify` leaves out what is undefined. -/
def StableEvent.toJson (event : StableEvent) : Json :=
  .object ((js "id", event.id) :: (event.ledger.map fun ledger => (js "ledger", ledger)).toList ++
    (event.tx.map fun tx => (js "tx", tx)).toList ++ [(js "xdr", event.xdr)])

abbrev Digest := String

/-- What the runtime brings: SHA-256, in hexadecimal digits, and the order of texts. -/
structure Platform where
  sha256 : JsString → Digest
  localeCompare : JsString → JsString → Ordering

def Platform.before (platform : Platform) (left right : StableEvent) : Prop :=
  platform.localeCompare (textOf left.id) (textOf right.id) ≠ .gt

instance (platform : Platform) : DecidableRel platform.before := fun left right =>
  inferInstanceAs (Decidable (platform.localeCompare (textOf left.id) (textOf right.id) ≠ .gt))

def canonicalText (platform : Platform) (events : List Event) : JsString :=
  Json.stringify (.array
    (((events.map stableEvent).insertionSort platform.before).map StableEvent.toJson))

def canonicalDigest (platform : Platform) (events : List Event) : Digest :=
  platform.sha256 (canonicalText platform events)

/-! ### Groups -/

structure Group where
  digest : Digest
  events : List Event
  count : ℕ

def addToGroup (platform : Platform) (groups : OrderedMap Digest Group) (events : List Event) :
    OrderedMap Digest Group :=
  let digest := canonicalDigest platform events
  let group := (groups.get digest).getD ⟨digest, events, 0⟩
  groups.set digest { group with count := group.count + 1 }

def groupsOf (platform : Platform) (successful : List (List Event)) : OrderedMap Digest Group :=
  successful.foldl (addToGroup platform) .empty

def Group.largerFirst (left right : Group) : Prop := right.count ≤ left.count

instance : DecidableRel Group.largerFirst := fun left right =>
  inferInstanceAs (Decidable (right.count ≤ left.count))

def winner (groups : OrderedMap Digest Group) : Option Group :=
  ((groups.entries.map Prod.snd).insertionSort Group.largerFirst).head?

/-! ### Verification -/

/-- `sample` has drawn its random number. -/
inductive Mode where
  | off
  | sample (skipped : Bool)
  | quorum
  | other
deriving DecidableEq, Repr

inductive VerifyError where
  | noProviders
  | providerFailed
  | noMajority
  | onDisagreementFailed
deriving DecidableEq, Repr

inductive Answer where
  | unverified (events : List Event) (degraded : Bool)
  | verified (events : List Event) (digest : Digest) (dissenting : ℕ)

/-- The calls of `onDisagreement`, and what is returned or thrown. -/
structure Verification where
  disagreements : List (List (Digest × ℕ))
  result : Except VerifyError Answer

def unverified (degraded : Bool) : Option (List Event) → Verification
  | some events => ⟨[], .ok (.unverified events degraded)⟩
  | none => ⟨[], .error .providerFailed⟩

/-- What the groups of the providers that answered amount to. `alerts` tells whether
`onDisagreement` returns. -/
def verifyGroups (alerts : Bool) (required answered : ℕ) (groups : OrderedMap Digest Group) :
    Verification :=
  let detail := groups.entries.map fun entry => (entry.2.digest, entry.2.count)
  match winner groups with
  | none => ⟨[], .error .noMajority⟩
  | some winner =>
    if winner.count < required then
      ⟨[detail], .error (if alerts then .noMajority else .onDisagreementFailed)⟩
    else if 1 < groups.size then
      ⟨[detail], if alerts then
          .ok (.verified winner.events winner.digest (answered - winner.count))
        else .error .onDisagreementFailed⟩
    else ⟨[], .ok (.verified winner.events winner.digest (answered - winner.count))⟩

/-- `outcomes`: what each provider answers, `none` if it fails. -/
def verifyRpcRange (platform : Platform) (outcomes : List (Option (List Event))) (mode : Mode)
    (quorum : ℕ) (alerts : Bool) : Verification :=
  match outcomes with
  | [] => ⟨[], .error .noProviders⟩
  | first :: _ =>
    if mode = .off ∨ mode = .sample true then unverified false first
    else if outcomes.length < 2 then unverified true first
    else
      let successful := outcomes.reduceOption
      if successful.length < 2 then
        ⟨[], .ok (.unverified (successful.head?.getD []) true)⟩
      else verifyGroups alerts (if mode = .quorum then min quorum successful.length else 2)
        successful.length (groupsOf platform successful)

/-! ### What the groups are -/

section Groups

variable {platform : Platform} {successful : List (List Event)} {digest : Digest} {group : Group}

def alike (platform : Platform) (digest : Digest) (successful : List (List Event)) :
    List (List Event) :=
  successful.filter fun events => canonicalDigest platform events = digest

theorem alike_append (events : List Event) : alike platform digest (successful ++ [events]) =
    alike platform digest successful ++
      if canonicalDigest platform events = digest then [events] else [] := by
  rw [alike, List.filter_append, List.filter_singleton]
  by_cases same : canonicalDigest platform events = digest
  · simp [same, alike]
  · simp [same, alike]

def groupOf (digest : Digest) (members : List (List Event)) : Option Group :=
  members.head?.map fun first => ⟨digest, first, members.length⟩

theorem groupOf_append (events : List Event) (members : List (List Event)) :
    groupOf digest (members ++ [events]) =
      some { (groupOf digest members).getD ⟨digest, events, 0⟩ with
        count := ((groupOf digest members).getD ⟨digest, events, 0⟩).count + 1 } := by
  cases members with
  | nil => rfl
  | cons first rest => simp [groupOf]

theorem get_groupsOf (successful : List (List Event)) :
    (groupsOf platform successful).get digest =
      groupOf digest (alike platform digest successful) := by
  induction successful using List.reverseRecOn with
  | nil => rfl
  | append_singleton successful events ih =>
    rw [groupsOf, List.foldl_append, List.foldl_cons, List.foldl_nil, ← groupsOf, addToGroup,
      OrderedMap.get_set, alike_append]
    by_cases same : canonicalDigest platform events = digest
    · subst same
      rw [if_pos rfl, if_pos rfl, ih, groupOf_append]
    · rw [if_neg (Ne.symm same), if_neg same, ih, List.append_nil]

theorem winner_mem {groups : OrderedMap Digest Group} (wins : winner groups = some group) :
    ∃ digest, groups.get digest = some group := by
  have among := (List.mem_insertionSort _).mp (List.mem_of_mem_head? wins)
  obtain ⟨⟨digest, same⟩, member, rfl⟩ := List.mem_map.mp among
  exact ⟨digest, groups.mem_entries_iff.mp member⟩

theorem exists_winner {groups : OrderedMap Digest Group} (many : 1 < groups.size) :
    ∃ group, winner groups = some group := by
  refine Option.isSome_iff_exists.mp (List.isSome_head?.mpr fun empty => ?_)
  have entries := List.length_insertionSort Group.largerFirst (groups.entries.map Prod.snd)
  rw [empty, List.length_map] at entries
  simp [OrderedMap.size, ← entries] at many

theorem winner_groupsOf (wins : winner (groupsOf platform successful) = some group) :
    group.events ∈ alike platform group.digest successful ∧
      group.count = (alike platform group.digest successful).length := by
  obtain ⟨digest, found⟩ := winner_mem wins
  rw [get_groupsOf, groupOf] at found
  obtain ⟨first, head, rfl⟩ := Option.map_eq_some_iff.mp found
  exact ⟨List.mem_of_mem_head? head, rfl⟩

theorem two_groups {left right : List Event} (first : left ∈ successful)
    (second : right ∈ successful)
    (apart : canonicalDigest platform left ≠ canonicalDigest platform right) :
    1 < (groupsOf platform successful).size := by
  have present {events : List Event} (member : events ∈ successful) :
      ∃ group, (groupsOf platform successful).get (canonicalDigest platform events) =
        some group := by
    have own : events ∈ alike platform (canonicalDigest platform events) successful :=
      List.mem_filter.mpr ⟨member, by simp⟩
    obtain ⟨head, shown⟩ := Option.isSome_iff_exists.mp
      (List.isSome_head?.mpr (List.ne_nil_of_mem own))
    rw [get_groupsOf, groupOf, shown]
    exact ⟨_, rfl⟩
  obtain ⟨leftGroup, leftFound⟩ := present first
  obtain ⟨rightGroup, rightFound⟩ := present second
  exact OrderedMap.one_lt_size _ leftFound rightFound apart

end Groups

/-! ### What a digest tells -/

section Digests

variable {platform : Platform} {left right : List Event}

def projection (event : Event) : Json := (stableEvent event).toJson.written

def Agree (left right : List Event) : Prop :=
  (left.map projection).Perm (right.map projection)

theorem agree_of_canonicalText (same : canonicalText platform left = canonicalText platform right) :
    Agree left right := by
  have rows := Json.written_eq_iff.mpr same
  simp only [Json.written, Json.array.injEq, Json.writtenItems_eq_map, List.map_map] at rows
  have sorted (events : List Event) :
      (((events.map stableEvent).insertionSort platform.before).map
        (Json.written ∘ StableEvent.toJson)).Perm (events.map projection) := by
    have moved := (List.perm_insertionSort platform.before (events.map stableEvent)).map
      (Json.written ∘ StableEvent.toJson)
    rwa [List.map_map] at moved
  exact (sorted left).symm.trans (rows ▸ sorted right)

def CollisionFree (platform : Platform) (successful : List (List Event)) : Prop :=
  ∀ left ∈ successful, ∀ right ∈ successful,
    canonicalDigest platform left = canonicalDigest platform right →
      canonicalText platform left = canonicalText platform right

end Digests

/-! ### Quorum mode -/

section Quorum

variable {platform : Platform} {outcomes : List (Option (List Event))} {quorum : ℕ} {alerts : Bool}

theorem verifyGroups_verified {required answered dissenting : ℕ} {groups : OrderedMap Digest Group}
    {events : List Event} {digest : Digest}
    (verified : (verifyGroups alerts required answered groups).result =
      .ok (.verified events digest dissenting)) :
    ∃ group, winner groups = some group ∧ required ≤ group.count ∧ group.events = events := by
  simp only [verifyGroups] at verified
  split at verified
  · cases verified
  · next group wins =>
      refine ⟨group, wins, ?_⟩
      split_ifs at verified with few many returned
      · cases verified
        exact ⟨not_lt.mp few, rfl⟩
      · cases verified
        exact ⟨not_lt.mp few, rfl⟩

theorem verifyGroups_disagreements {required answered : ℕ} {groups : OrderedMap Digest Group}
    {group : Group} (wins : winner groups = some group) (many : 1 < groups.size) :
    (verifyGroups alerts required answered groups).disagreements ≠ [] := by
  simp only [verifyGroups, wins]
  split_ifs <;> simp

theorem verifyRpcRange_quorum (enough : 2 ≤ outcomes.reduceOption.length) :
    verifyRpcRange platform outcomes .quorum quorum alerts =
      verifyGroups alerts (min quorum outcomes.reduceOption.length) outcomes.reduceOption.length
        (groupsOf platform outcomes.reduceOption) := by
  have most := List.reduceOption_length_le outcomes
  match outcomes with
  | [] => simp at enough
  | first :: rest =>
    simp only [verifyRpcRange]
    rw [if_neg (by simp), if_neg (by omega), if_neg (by omega), if_true]

theorem two_le_of_verified {events : List Event} {digest : Digest} {dissenting : ℕ}
    (verified : (verifyRpcRange platform outcomes .quorum quorum alerts).result =
      .ok (.verified events digest dissenting)) : 2 ≤ outcomes.reduceOption.length := by
  by_contra few
  have single (degraded : Bool) (outcome : Option (List Event)) :
      (unverified degraded outcome).result ≠ .ok (.verified events digest dissenting) := by
    cases outcome <;> simp [unverified]
  match outcomes with
  | [] => cases verified
  | first :: rest =>
    simp only [verifyRpcRange] at verified
    rw [if_neg (by simp)] at verified
    split_ifs at verified with alone silent
    · exact single _ _ verified
    · cases verified
    · exact few (not_lt.mp silent)

end Quorum

/-! ### Three providers -/

section Providers

def runtime : Platform where
  sha256 text :=
    if text = js "[]" then "4f53cda18c2baa0c0354bb5f9a3ecbe5ed12ab4d8e11ba873c2f11161202b945"
    else "03719c36cf3a7c22c0ebeaa09002a108a99c0d07e9f3212badace48e31bd72ce"
  localeCompare := compare

def transfer (topic : String) : Event where
  id := some (.string (js "1"))
  txHash := some (.string (js "ab"))
  tx_hash := none
  ledger := none
  contractId := none
  contract_id := none
  xdr := none
  txMeta := none
  value := some (.string (js "v"))
  topic := some (.array [.string (js topic)])

end Providers

end RpcVerifier

end SorobanExplorer.Indexer
