import SorobanExplorer.Indexer.Secrets
import SorobanExplorer.Library.Run
import SorobanExplorer.Library.Slots
import Mathlib.Logic.Relation

/-!
Owns the rotation of the key-encryption keys: the stored secrets of webhook subscriptions, the
processes that write them with the keys they loaded at boot, and the jobs that wrap row after row
under a process's current key.

A text column refuses NUL and replaces lone surrogates.
-/

namespace SorobanExplorer.Indexer.Secrets

open Library
open Filters (JsString js)

abbrev RowId := ℕ

abbrev JobId := ℕ

/-- A row of `webhook_subscriptions`, and the secret that was last given for it. -/
structure Row where
  id : RowId
  secret : Option JsString
  plaintext : Option JsString

/-- A run of `rotateWebhookSecrets` by a process with these keys: the selected rows that it has
not visited yet. -/
structure Job where
  keys : List Key
  rest : List (RowId × JsString)

/-- `deployed` are the configurations that processes run with; `newest` is the last of them. -/
structure Store where
  newest : List Key
  deployed : List (List Key)
  rows : List Row
  jobs : JobId → Option Job

inductive Action where
  | deploy (source : Source)
  | createWebhookSubscription (keys : List Key) (id : RowId) (random : Random)
      (secret : Option JsString)
  /-- Any other statement that writes a secret. -/
  | update (keys : List Key) (id : RowId) (random : Random) (secret : Option JsString)
  | delete (id : RowId)
  | rotateWebhookSecrets (job : JobId) (keys : List Key) (rows : List (RowId × JsString))
  | rewrapRow (job : JobId) (random : Random)
  /-- A job ends or is interrupted. -/
  | stop (job : JobId)

/-- A text parameter as the database keeps it; `none` where the query fails. -/
def toText : Option JsString → Option (Option JsString)
  | none => some none
  | some value => if 0 ∈ value then none else some (some (Utf16.encode (Utf16.decode value)))

/-- `SELECT id, secret … WHERE secret IS NOT NULL AND secret NOT LIKE $1` -/
def unrotated (version : JsString) (rows : List Row) : List (RowId × JsString) :=
  rows.filterMap fun row =>
    match row.secret with
    | some secret => if isUnder version secret then none else some (row.id, secret)
    | none => none

namespace Row

def write (id : RowId) (stored secret : Option JsString) (row : Row) : Row :=
  if row.id = id then { row with secret := stored, plaintext := secret } else row

/-- `UPDATE … SET secret = $1 WHERE id = $2 AND secret = $3` -/
def swap (id : RowId) (old : JsString) (stored : Option JsString) (row : Row) : Row :=
  if row.id = id ∧ row.secret = some old then { row with secret := stored } else row

end Row

namespace Store

def start : Store := ⟨[], [], [], fun _ => none⟩

def setJob (store : Store) (id : JobId) (job : Option Job) : Store :=
  { store with jobs := Function.update store.jobs id job }

end Store

variable (crypto : Crypto)

inductive Step : Store → Action → Store → Prop
  /-- The replaced keys are kept as previous ones. -/
  | deploy {store : Store} {keys : List Key} (source : Source) (loaded : source.keys = .ok keys)
      (kept : store.newest ⊆ keys) :
      Step store (.deploy source) { store with newest := keys, deployed := keys :: store.deployed }
  | createWebhookSubscription {store : Store} {value stored : Option JsString} (keys : List Key)
      (id : RowId) (random : Random) (secret : Option JsString)
      (process : keys ∈ store.deployed) (unused : ∀ row ∈ store.rows, row.id ≠ id)
      (encrypted : encryptSecret crypto (.ofKeys crypto keys) random secret = .ok value)
      (accepted : toText value = some stored) :
      Step store (.createWebhookSubscription keys id random secret)
        { store with rows := store.rows ++ [⟨id, stored, secret⟩] }
  | update {store : Store} {value stored : Option JsString} (keys : List Key) (id : RowId)
      (random : Random) (secret : Option JsString) (process : keys ∈ store.deployed)
      (encrypted : encryptSecret crypto (.ofKeys crypto keys) random secret = .ok value)
      (accepted : toText value = some stored) :
      Step store (.update keys id random secret)
        { store with rows := store.rows.map (.write id stored secret) }
  | delete {store : Store} (id : RowId) :
      Step store (.delete id) { store with rows := store.rows.filter (·.id ≠ id) }
  | rotateWebhookSecrets {store : Store} {version : JsString} (job : JobId) (keys : List Key)
      (rows : List (RowId × JsString)) (process : keys ∈ store.deployed)
      (idle : store.jobs job = none)
      (current : (Keks.ofKeys crypto keys).currentKekVersion = some version)
      (selected : rows.Perm (unrotated version store.rows)) :
      Step store (.rotateWebhookSecrets job keys rows) (store.setJob job (some ⟨keys, rows⟩))
  | rewrapRow {store : Store} {keys : List Key} {id : RowId} {old : JsString}
      {rest : List (RowId × JsString)} {value stored : Option JsString} (job : JobId)
      (random : Random) (running : store.jobs job = some ⟨keys, (id, old) :: rest⟩)
      (rewrapped : rewrapSecret crypto (.ofKeys crypto keys) random (some old) = .ok value)
      (accepted : toText value = some stored) :
      Step store (.rewrapRow job random)
        ({ store with rows := store.rows.map (.swap id old stored) }.setJob job
          (some ⟨keys, rest⟩))
  | stop {store : Store} (job : JobId) : Step store (.stop job) (store.setJob job none)

theorem deterministic : Deterministic (Step crypto) := by
  intro before action first second one two
  cases one with
  | deploy source loaded =>
    cases two with
    | deploy _ other =>
      cases loaded.symm.trans other
      rfl
  | createWebhookSubscription keys id random secret process unused encrypted accepted =>
    cases two with
    | createWebhookSubscription _ _ _ _ _ _ other same =>
      cases encrypted.symm.trans other
      cases accepted.symm.trans same
      rfl
  | update keys id random secret process encrypted accepted =>
    cases two with
    | update _ _ _ _ _ other same =>
      cases encrypted.symm.trans other
      cases accepted.symm.trans same
      rfl
  | delete | rotateWebhookSecrets | stop =>
    cases two
    rfl
  | rewrapRow job random running rewrapped accepted =>
    cases two with
    | rewrapRow _ _ other again same =>
      cases running.symm.trans other
      cases rewrapped.symm.trans again
      cases accepted.symm.trans same
      rfl

/-! ### Steps that lose nothing -/

def Told (keys : List Key) (secret : JsString) : Prop :=
  Utf16.WellFormed secret ∧ (keys = [] → isEncrypted secret = false)

/-- No job runs under another version than the current one of `keys`. -/
def Undisturbed (store : Store) (keys : List Key) : Prop :=
  ∀ id job, store.jobs id = some job →
    job.keys.head?.map (kekVersion crypto) = keys.head?.map (kekVersion crypto)

/-- Different keys of a configuration have different versions, what is written can be told, and
while a job runs secrets are written under its key. -/
def Spared (store : Store) : Action → Prop
  | .deploy source => ∀ keys, source.keys = .ok keys → Distinct crypto keys
  | .createWebhookSubscription keys _ _ secret | .update keys _ _ secret =>
    ∀ text ∈ secret, Told keys text ∧ Undisturbed crypto store keys
  | .rewrapRow id _ => ∀ job, store.jobs id = some job → Undisturbed crypto store job.keys
  | _ => True

/-- What calls of `rewrapSecret` in running processes make of a value. -/
def Rewraps (store : Store) : Option JsString → Option JsString → Prop :=
  Relation.ReflTransGen fun value next => ∃ keys ∈ store.deployed, ∃ random,
    rewrapSecret crypto (.ofKeys crypto keys) random value = .ok next

/-- Every secret is opened to what was given, however often it was wrapped anew; where a job is
through, its current key alone opens all of them. -/
structure Sound (store : Store) : Prop where
  opened : ∀ row ∈ store.rows, ∀ value, Rewraps crypto store row.secret value →
    decryptSecret crypto (.ofKeys crypto store.newest) value = .ok row.plaintext
  complete : ∀ id keys, store.jobs id = some ⟨keys, []⟩ → ∃ current ∈ keys.head?,
    ∀ row ∈ store.rows, ∀ secret ∈ row.secret, isUnder (kekVersion crypto current) secret = true ∧
      decryptSecret crypto (.ofKeys crypto [current]) (some secret) = .ok row.plaintext

/-! ### How secrets are held -/

/-- What a row stores for a secret: nothing, the secret itself, or the secret sealed under one of
the keys. -/
inductive Held (keys : List Key) : Option JsString → Option JsString → Prop
  | null : Held keys none none
  | plain {secret : JsString} (wellFormed : Utf16.WellFormed secret)
      (unsealed : isEncrypted secret = false) : Held keys (some secret) (some secret)
  | sealed {key : Key} {random : Random} {secret : JsString} (member : key ∈ keys)
      (wellFormed : Utf16.WellFormed secret) :
      Held keys (some secret)
        (some (sealSecret crypto (kekVersion crypto key) key random secret))

variable {crypto}

namespace Held

variable {keys fewer : List Key} {plaintext value stored : Option JsString}

theorem mono (held : Held crypto fewer plaintext value) (kept : fewer ⊆ keys) :
    Held crypto keys plaintext value := by
  cases held with
  | null => exact .null
  | plain wellFormed unsealed => exact .plain wellFormed unsealed
  | sealed member wellFormed => exact .sealed (kept member) wellFormed

theorem opened (held : Held crypto keys plaintext value) (distinct : Distinct crypto keys)
    (kept : fewer ⊆ keys) :
    decryptSecret crypto (.ofKeys crypto fewer) value = .ok plaintext ∨
      ∃ failure, decryptSecret crypto (.ofKeys crypto fewer) value = .error failure := by
  cases held with
  | null => exact .inl rfl
  | plain _ unsealed =>
    left
    rw [decryptSecret, unsealed]
    rfl
  | @sealed key random secret member wellFormed =>
    cases found : (Keks.ofKeys crypto fewer).keks (kekVersion crypto key) with
    | none =>
      exact .inr (decryptSecret_sealSecret_none (colon_notMem_kekVersion crypto key) found)
    | some other =>
      obtain ⟨listed, version⟩ := Keks.mem_of_keks found
      cases distinct other (kept listed) key member version
      left
      rw [decryptSecret_sealSecret (colon_notMem_kekVersion crypto key) found,
        show Utf16.encode (Utf16.decode secret) = secret from wellFormed]

theorem decrypted (held : Held crypto keys plaintext value) (distinct : Distinct crypto keys) :
    decryptSecret crypto (.ofKeys crypto keys) value = .ok plaintext := by
  cases held with
  | null => rfl
  | plain _ unsealed =>
    rw [decryptSecret, unsealed]
    rfl
  | @sealed key random secret member wellFormed =>
    rw [decryptSecret_sealSecret (colon_notMem_kekVersion crypto key) (distinct.found member),
      show Utf16.encode (Utf16.decode secret) = secret from wellFormed]

theorem wellFormed (held : Held crypto keys plaintext value) :
    ∀ secret ∈ plaintext, Utf16.WellFormed secret := by
  cases held with
  | null => nofun
  | plain wellFormed | sealed _ wellFormed =>
    intro secret same
    cases same
    exact wellFormed

theorem toText_eq (held : Held crypto keys plaintext value) (accepted : toText value = some stored) :
    stored = value := by
  have kept : ∀ units, Utf16.WellFormed units → toText (some units) = some stored →
      stored = some units := by
    intro units wellFormed accepted
    rw [toText] at accepted
    split at accepted
    · nomatch accepted
    · rw [← Option.some.inj accepted]
      exact congrArg some wellFormed
  cases held with
  | null => exact (Option.some.inj accepted).symm
  | plain wellFormed => exact kept _ wellFormed accepted
  | sealed => exact kept _ (isText_sealSecret crypto ..).2 accepted

theorem of_encryptSecret {secret : Option JsString} {random : Random} (kept : fewer ⊆ keys)
    (told : ∀ text ∈ secret, Told fewer text)
    (encrypted : encryptSecret crypto (.ofKeys crypto fewer) random secret = .ok value) :
    Held crypto keys secret value := by
  cases secret with
  | none =>
    cases encrypted
    exact .null
  | some text =>
    obtain ⟨wellFormed, unsealed⟩ := told text rfl
    obtain ⟨rfl, plain⟩ | ⟨first, head, kek, member, version, found, sealed⟩ :=
      encryptSecret_cases crypto fewer random text
    · cases plain.symm.trans encrypted
      exact .plain wellFormed (unsealed rfl)
    · cases sealed.symm.trans encrypted
      exact .sealed (kept member) wellFormed

theorem rewrap {random : Random} (held : Held crypto keys plaintext value)
    (distinct : Distinct crypto keys) (kept : fewer ⊆ keys) {next : Option JsString}
    (rewrapped : rewrapSecret crypto (.ofKeys crypto fewer) random value = .ok next) :
    Held crypto keys plaintext next := by
  obtain ⟨rfl, -⟩ | ⟨first, head, kek, member, version, found, secret, opened, rfl⟩ :=
    rewrapSecret_cases rewrapped
  · exact held
  · obtain same | ⟨failure, throws⟩ := held.opened distinct kept
    · cases same.symm.trans opened
      exact .sealed (kept member) (held.wellFormed secret rfl)
    · nomatch throws.symm.trans opened

theorem decrypted_of_isUnder {key : Key} {secret : JsString}
    (held : Held crypto keys plaintext (some secret)) (distinct : Distinct crypto keys)
    (member : key ∈ keys) (under : isUnder (kekVersion crypto key) secret = true) :
    decryptSecret crypto (.ofKeys crypto [key]) (some secret) = .ok plaintext := by
  cases held with
  | plain _ unsealed =>
    rw [isUnder, unsealed] at under
    cases under
  | @sealed other random text listed wellFormed =>
    have version := eq_of_isUnder_sealSecret (colon_notMem_kekVersion crypto other)
      (colon_notMem_kekVersion crypto key) under
    cases distinct key member other listed version
    have alone : Distinct crypto [key] := distinct.mono (List.cons_subset.mpr ⟨member, List.nil_subset _⟩)
    exact (Held.sealed (List.mem_singleton_self key) wellFormed).decrypted alone

end Held

theorem isUnder_of_rewrapSecret {keys : List Key} {random : Random} {old : JsString}
    {current : Key} {next : Option JsString} (head : current ∈ keys.head?)
    (rewrapped : rewrapSecret crypto (.ofKeys crypto keys) random (some old) = .ok next) :
    ∀ secret ∈ next, isUnder (kekVersion crypto current) secret = true := by
  intro secret same
  cases same
  obtain ⟨same, none | none | ⟨first, found, text, taken, under⟩⟩ |
    ⟨first, found, kek, -, version, -, plaintext, -, same⟩ := rewrapSecret_cases rewrapped
  · nomatch none
  · rw [none] at head
    nomatch head
  · cases same
    cases taken
    cases Option.mem_unique found head
    exact under
  · cases same
    cases Option.mem_unique found head
    exact version ▸ isUnder_sealSecret

/-! ### Whole runs -/

def Job.Covers (crypto : Crypto) (job : Job) (rows : List Row) : Prop :=
  ∃ current ∈ job.keys.head?, ∀ row ∈ rows, ∀ secret ∈ row.secret,
    isUnder (kekVersion crypto current) secret = true ∨ (row.id, secret) ∈ job.rest

structure Intact (crypto : Crypto) (store : Store) : Prop where
  distinct : Distinct crypto store.newest
  kept : ∀ keys ∈ store.deployed, keys ⊆ store.newest
  held : ∀ row ∈ store.rows, Held crypto store.newest row.plaintext row.secret
  process : ∀ id job, store.jobs id = some job → job.keys ∈ store.deployed
  covers : ∀ id job, store.jobs id = some job → job.Covers crypto store.rows

theorem intact_start : Intact crypto .start where
  distinct := nofun
  kept := nofun
  held := nofun
  process := nofun
  covers := nofun

section

variable {store before after : Store} {action : Action}

theorem Job.Covers.mono {job : Job} {rows more : List Row} (covers : job.Covers crypto rows)
    (written : ∀ row ∈ more, row ∈ rows ∨ ∀ secret ∈ row.secret, ∀ current ∈ job.keys.head?,
      isUnder (kekVersion crypto current) secret = true) : job.Covers crypto more := by
  obtain ⟨current, head, covered⟩ := covers
  refine ⟨current, head, fun row member secret stored => ?_⟩
  obtain old | under := written row member
  · exact covered row old secret stored
  · exact .inl (under secret stored current head)

theorem isUnder_of_undisturbed {keys : List Key} {random : Random} {secret value : Option JsString}
    (undisturbed : ∀ text ∈ secret, Undisturbed crypto store keys)
    (encrypted : encryptSecret crypto (.ofKeys crypto keys) random secret = .ok value)
    {id : JobId} {job : Job} (running : store.jobs id = some job) :
    ∀ text ∈ value, ∀ current ∈ job.keys.head?,
      isUnder (kekVersion crypto current) text = true := by
  intro text same current head
  cases secret with
  | none =>
    cases encrypted
    nomatch same
  | some plaintext =>
    have version := undisturbed plaintext rfl id job running
    rw [Option.mem_def.mp head] at version
    obtain ⟨rfl, -⟩ | ⟨first, found, kek, -, sameVersion, -, sealed⟩ :=
      encryptSecret_cases crypto keys random plaintext
    · nomatch version
    · rw [Option.mem_def.mp found] at version
      cases sealed.symm.trans encrypted
      cases same
      rw [Option.some.inj version, ← sameVersion]
      exact isUnder_sealSecret

namespace Intact

theorem setNone (intact : Intact crypto store) (id : JobId) :
    Intact crypto (store.setJob id none) := by
  have others : ∀ other job, (store.setJob id none).jobs other = some job →
      store.jobs other = some job :=
    fun _ _ running => (of_update_none running).2
  exact ⟨intact.distinct, intact.kept, intact.held,
    fun other job running => intact.process other job (others other job running),
    fun other job running => intact.covers other job (others other job running)⟩

theorem setSome (intact : Intact crypto store) {id : JobId} {job : Job}
    (process : job.keys ∈ store.deployed) (covers : job.Covers crypto store.rows) :
    Intact crypto (store.setJob id (some job)) := by
  refine ⟨intact.distinct, intact.kept, intact.held, ?_, ?_⟩
  · refine forall_update intact.process fun next same => ?_
    cases same
    exact process
  · refine forall_update intact.covers fun next same => ?_
    cases same
    exact covers

theorem setRows (intact : Intact crypto store) {rows : List Row}
    (held : ∀ row ∈ rows, row ∈ store.rows ∨
      Held crypto store.newest row.plaintext row.secret ∧
        ∀ id job, store.jobs id = some job → ∀ secret ∈ row.secret, ∀ current ∈ job.keys.head?,
          isUnder (kekVersion crypto current) secret = true) :
    Intact crypto { store with rows } := by
  refine ⟨intact.distinct, intact.kept, fun row member => ?_, intact.process,
    fun id job running => (intact.covers id job running).mono fun row member => ?_⟩
  · obtain old | ⟨written, -⟩ := held row member
    · exact intact.held row old
    · exact written
  · exact (held row member).imp_right fun written => written.2 id job running

theorem deploy (intact : Intact crypto store) {keys : List Key} (distinct : Distinct crypto keys)
    (kept : store.newest ⊆ keys) :
    Intact crypto { store with newest := keys, deployed := keys :: store.deployed } := by
  refine ⟨distinct, ?_, fun row member => (intact.held row member).mono kept,
    fun id job running => List.mem_cons_of_mem _ (intact.process id job running), intact.covers⟩
  intro other listed
  obtain rfl | old := List.mem_cons.mp listed
  · exact List.Subset.refl _
  · exact List.Subset.trans (intact.kept other old) kept

theorem written (intact : Intact crypto store) {keys : List Key} (process : keys ∈ store.deployed)
    {random : Random} {secret value stored : Option JsString}
    (spared : ∀ text ∈ secret, Told keys text ∧ Undisturbed crypto store keys)
    (encrypted : encryptSecret crypto (.ofKeys crypto keys) random secret = .ok value)
    (accepted : toText value = some stored) :
    Held crypto store.newest secret stored ∧
      ∀ id job, store.jobs id = some job → ∀ text ∈ stored, ∀ current ∈ job.keys.head?,
        isUnder (kekVersion crypto current) text = true := by
  have held := Held.of_encryptSecret (intact.kept keys process)
    (fun text given => (spared text given).1) encrypted
  cases held.toText_eq accepted
  exact ⟨held, fun id job running =>
    isUnder_of_undisturbed (fun text given => (spared text given).2) encrypted running⟩

theorem rotate (intact : Intact crypto store) {job : JobId} {keys : List Key}
    {rows : List (RowId × JsString)} {version : JsString} (process : keys ∈ store.deployed)
    (current : (Keks.ofKeys crypto keys).currentKekVersion = some version)
    (selected : rows.Perm (unrotated version store.rows)) :
    Intact crypto (store.setJob job (some ⟨keys, rows⟩)) := by
  refine intact.setSome process ?_
  rw [Keks.currentKekVersion_ofKeys] at current
  obtain ⟨key, head, rfl⟩ := Option.map_eq_some_iff.mp current
  refine ⟨key, head, fun row member secret stored => ?_⟩
  cases under : isUnder (kekVersion crypto key) secret with
  | true => exact .inl rfl
  | false =>
    right
    refine selected.mem_iff.mpr (List.mem_filterMap.mpr ⟨row, member, ?_⟩)
    simp only [Option.mem_def.mp stored, under]
    rfl

theorem rewrapRow (intact : Intact crypto store) {job : JobId} {random : Random} {keys : List Key}
    {id : RowId} {old : JsString} {rest : List (RowId × JsString)}
    {value stored : Option JsString}
    (running : store.jobs job = some ⟨keys, (id, old) :: rest⟩)
    (undisturbed : Undisturbed crypto store keys)
    (rewrapped : rewrapSecret crypto (.ofKeys crypto keys) random (some old) = .ok value)
    (accepted : toText value = some stored) :
    Intact crypto ({ store with rows := store.rows.map (.swap id old stored) }.setJob job
      (some ⟨keys, rest⟩)) := by
  have process : keys ∈ store.deployed := intact.process _ _ running
  obtain ⟨current, head, covered⟩ := intact.covers _ _ running
  -- A row that is swapped holds its secret as before, and is under the current key.
  have swapped : ∀ row ∈ store.rows, row.id = id → row.secret = some old →
      Held crypto store.newest row.plaintext stored ∧
        ∀ secret ∈ stored, isUnder (kekVersion crypto current) secret = true := by
    intro row member _ same
    have held := (same ▸ intact.held row member).rewrap intact.distinct
      (intact.kept keys process) rewrapped
    cases held.toText_eq accepted
    exact ⟨held, isUnder_of_rewrapSecret head rewrapped⟩
  have written : Intact crypto { store with rows := store.rows.map (.swap id old stored) } := by
    refine intact.setRows fun row member => ?_
    obtain ⟨row, listed, rfl⟩ := List.mem_map.mp member
    unfold Row.swap
    split
    · next matching =>
        have facts := swapped row listed matching.1 matching.2
        refine .inr ⟨facts.1, fun other found busy secret kept first headOther => ?_⟩
        have version := undisturbed other found busy
        rw [Option.mem_def.mp head, Option.mem_def.mp headOther] at version
        rw [Option.some.inj version]
        exact facts.2 secret kept
    · exact .inl listed
  refine written.setSome process ⟨current, head, fun row member secret kept => ?_⟩
  obtain ⟨row, listed, rfl⟩ := List.mem_map.mp member
  unfold Row.swap at kept ⊢
  split at kept
  · next matching => exact .inl ((swapped row listed matching.1 matching.2).2 secret kept)
  · next differs =>
      rw [if_neg differs]
      refine (covered row listed secret kept).imp_right fun visited => ?_
      obtain same | later := List.mem_cons.mp visited
      · cases same
        exact absurd ⟨rfl, kept⟩ differs
      · exact later

theorem step (intact : Intact crypto before) (spared : Spared crypto before action)
    (taken : Step crypto before action after) : Intact crypto after := by
  cases taken with
  | deploy source loaded kept => exact intact.deploy (spared _ loaded) kept
  | createWebhookSubscription keys id random secret process unused encrypted accepted =>
    refine intact.setRows fun row member => ?_
    obtain old | new := List.mem_append.mp member
    · exact .inl old
    · cases List.mem_singleton.mp new
      exact .inr (intact.written process spared encrypted accepted)
  | update keys id random secret process encrypted accepted =>
    refine intact.setRows fun row member => ?_
    obtain ⟨row, listed, rfl⟩ := List.mem_map.mp member
    unfold Row.write
    split
    · exact .inr (intact.written process spared encrypted accepted)
    · exact .inl listed
  | delete id => exact intact.setRows fun row member => .inl (List.mem_of_mem_filter member)
  | rotateWebhookSecrets job keys rows process idle current selected =>
    exact intact.rotate process current selected
  | rewrapRow job random running rewrapped accepted =>
    exact intact.rewrapRow running (spared _ running) rewrapped accepted
  | stop job => exact intact.setNone job

theorem sound (intact : Intact crypto store) : Sound crypto store where
  opened row member value rewraps := by
    have held : Held crypto store.newest row.plaintext value := by
      induction rewraps with
      | refl => exact intact.held row member
      | tail _ taken ih =>
        obtain ⟨keys, listed, random, rewrapped⟩ := taken
        exact ih.rewrap intact.distinct (intact.kept keys listed) rewrapped
    exact held.decrypted intact.distinct
  complete id keys running := by
    obtain ⟨current, head, covered⟩ := intact.covers _ _ running
    refine ⟨current, head, fun row member secret stored => ?_⟩
    obtain under | visited := covered row member secret stored
    · have listed := intact.kept keys (intact.process _ _ running) (List.mem_of_mem_head? head)
      exact ⟨under, (Option.mem_def.mp stored ▸ intact.held row member).decrypted_of_isUnder
        intact.distinct listed under⟩
    · nomatch visited

end Intact

end

/-- One secret comes back exactly where it can be told; rewrapping is idempotent; and in every run
that is spared, stored secrets are opened to what was given, and all are under the current key of
a job that is through. -/
theorem secrets_of_eachStep (crypto : Crypto) {actions : List Action}
    (spared : EachStep (Step crypto) .start actions (Spared crypto)) :
    (∀ keys random plaintext,
      (encryptSecret crypto (.ofKeys crypto keys) random (some plaintext) >>=
          decryptSecret crypto (.ofKeys crypto keys)) = .ok (some plaintext) ↔
        (keys = [] → isEncrypted plaintext = false) ∧
          (keys ≠ [] → Utf16.WellFormed plaintext)) ∧
      (∀ keys random again value result,
        rewrapSecret crypto (.ofKeys crypto keys) random value = .ok result →
          rewrapSecret crypto (.ofKeys crypto keys) again result = .ok result) ∧
      Along (Step crypto) .start actions fun _ store => Sound crypto store := by
  refine ⟨decryptSecret_encryptSecret, fun _ _ again _ _ rewrapped =>
    rewrapSecret_idempotent rewrapped again, ?_⟩
  have kept := spared.along (P := fun _ store => Intact crypto store) intact_start
    fun _ _ _ _ _ intact guard taken => intact.step guard taken
  exact fun history isPrefix store run => (kept history isPrefix store run).sound

section OneKey

def zeros : Key := Vector.replicate 32 0

def noKek : Source := ⟨none, none⟩

def oneKek : Source := ⟨some (js "AAAAAAAAAAAAAAAAAAAAAAAAAAAAAAAAAAAAAAAAAAA="), none⟩

def random : Random := ⟨zeros, Vector.replicate 12 0, Vector.replicate 12 0⟩

def secret : JsString := js "s3cret"

def adopted : List Action :=
  [.deploy noKek, .createWebhookSubscription [] 0 random (some secret), .deploy oneKek,
    .rotateWebhookSecrets 0 [zeros] [(0, secret)], .rewrapRow 0 random]

def lateWriter : List Action :=
  [.deploy noKek, .deploy oneKek, .rotateWebhookSecrets 0 [zeros] [],
    .createWebhookSubscription [] 0 random (some secret)]

theorem keys_noKek : noKek.keys = .ok [] := rfl

theorem keys_oneKek : oneKek.keys = .ok [zeros] := rfl

def AdoptedSound : Prop := ∀ crypto, (∃ store, Run (Step crypto) .start adopted store) ∧
  Along (Step crypto) .start adopted fun _ store => Sound crypto store

theorem adopted_sound : AdoptedSound := by
  intro crypto
  have found : (Keks.ofKeys crypto [zeros]).keks (kekVersion crypto zeros) = some zeros :=
    Function.update_self ..
  have rewrapped : rewrapSecret crypto (.ofKeys crypto [zeros]) random (some secret) =
      .ok (some (sealSecret crypto (kekVersion crypto zeros) zeros random secret)) := by
    have current : (Keks.ofKeys crypto [zeros]).currentKekVersion =
        some (kekVersion crypto zeros) := rfl
    have plain : isEncrypted secret = false := rfl
    simp only [rewrapSecret, current, isUnder, plain, Bool.false_and, decryptSecret, encryptSecret,
      bind, Except.bind, found, Bool.false_eq_true, if_false]
  have text := isText_sealSecret crypto zeros random secret
  have accepted : toText (some (sealSecret crypto (kekVersion crypto zeros) zeros random secret)) =
      some (some (sealSecret crypto (kekVersion crypto zeros) zeros random secret)) := by
    rw [toText, if_neg text.1]
    exact congrArg (fun units => some (some units)) text.2
  have told : Told [] secret := ⟨by decide, fun _ => rfl⟩
  have nothing : Run (Step crypto) .start [] .start ∧
      EachStep (Step crypto) .start [] (Spared crypto) := ⟨Run.nil, EachStep.nil⟩
  have unkeyed := EachStep.extend (deterministic crypto) nothing
    (show Spared crypto _ (.deploy noKek) from fun keys loaded => by
      cases keys_noKek.symm.trans loaded
      rintro _ ⟨⟩)
    (.deploy noKek keys_noKek (List.nil_subset _))
  have created := EachStep.extend (deterministic crypto) unkeyed
    (show Spared crypto _ (.createWebhookSubscription [] 0 random (some secret)) from by
      intro given same
      cases same
      exact ⟨told, by rintro _ _ ⟨⟩⟩)
    (.createWebhookSubscription [] 0 random (some secret) (List.mem_singleton_self _) (by rintro _ ⟨⟩)
      rfl rfl)
  have keyed := EachStep.extend (deterministic crypto) created
    (show Spared crypto _ (.deploy oneKek) from fun keys loaded => by
      cases keys_oneKek.symm.trans loaded
      intro key member other listed _
      rw [List.mem_singleton.mp member, List.mem_singleton.mp listed])
    (.deploy oneKek keys_oneKek (List.nil_subset _))
  have rotating := EachStep.extend (deterministic crypto) keyed
    (show Spared crypto _ (.rotateWebhookSecrets 0 [zeros] [(0, secret)]) from trivial)
    (.rotateWebhookSecrets 0 [zeros] [(0, secret)] (List.mem_cons_self) rfl rfl (List.Perm.refl _))
  have rotated := EachStep.extend (deterministic crypto) rotating
    (show Spared crypto _ (.rewrapRow 0 random) from by
      intro job running id other busy
      cases running
      cases id with
      | zero =>
        cases busy
        rfl
      | succ _ => cases busy)
    (.rewrapRow 0 random rfl rewrapped accepted)
  exact ⟨⟨_, rotated.1⟩, (secrets_of_eachStep crypto rotated.2).2.2⟩

/-- Without a key a secret with the letters of a sealed one is lost, with a key a lone surrogate
is, and a job is through before a secret that another process stores. -/
theorem marked_lost :
    (¬∃ crypto random, (encryptSecret crypto (.ofKeys crypto []) random
      (some (js "enc:v1:secret")) >>= decryptSecret crypto (.ofKeys crypto [])) =
        .ok (some (js "enc:v1:secret"))) ∧
      (¬∃ crypto random, (encryptSecret crypto (.ofKeys crypto [zeros]) random
        (some [0xD800]) >>= decryptSecret crypto (.ofKeys crypto [zeros])) =
          .ok (some [0xD800])) ∧
      ¬∃ crypto, Along (Step crypto) .start lateWriter fun _ store => Sound crypto store := by
  refine ⟨?_, ?_, ?_⟩
  · rintro ⟨crypto, random, comesBack⟩
    exact absurd (((decryptSecret_encryptSecret [] random _).mp comesBack).1 rfl) (by decide)
  · rintro ⟨crypto, random, comesBack⟩
    have wellFormed := ((decryptSecret_encryptSecret [zeros] random _).mp comesBack).2
      (List.cons_ne_nil _ _)
    exact absurd wellFormed (by decide)
  · rintro ⟨crypto, sound⟩
    have unkeyed : Run (Step crypto) .start [.deploy noKek] _ :=
      Run.one (.deploy noKek keys_noKek (List.nil_subset _))
    have keyed := unkeyed.snoc (.deploy oneKek keys_oneKek (List.nil_subset _))
    have rotating := keyed.snoc (.rotateWebhookSecrets 0 [zeros] [] List.mem_cons_self rfl rfl
      (List.Perm.refl _))
    have created := rotating.snoc (.createWebhookSubscription [] 0 random (some secret)
      (List.mem_cons_of_mem _ List.mem_cons_self) nofun rfl rfl)
    obtain ⟨current, -, under⟩ := (sound _ (List.prefix_refl _) _ created).complete 0 [zeros] rfl
    exact absurd (under _ (List.mem_singleton_self _) secret rfl).1 Bool.false_ne_true

end OneKey

end SorobanExplorer.Indexer.Secrets
