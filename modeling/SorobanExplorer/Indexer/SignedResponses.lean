import SorobanExplorer.Indexer.CanonicalJson
import SorobanExplorer.Sdk.Verify

/-!
Owns what a signed response is worth: an envelope is accepted however JSON carries it, and a
signature is not accepted for other content.
-/

namespace SorobanExplorer.Indexer.Signing

open Library Filters Replay

structure Crypto.Exact (crypto : Crypto) : Prop where
  signed : ∀ seed bytes, crypto.verify (crypto.publicKey seed) bytes (crypto.sign seed bytes) = true
  only : ∀ key seed bytes others, crypto.verify key others (crypto.sign seed bytes) = true →
    others = bytes

/-- What becomes of a value that is written, parsed and put in another order, any number of
times. -/
inductive Transported (sent : Json) : Json → Prop
  | sent : Transported sent sent
  | wired {value received : Json} (earlier : Transported sent value)
      (parsed : parse? (Json.stringify value) = some received) : Transported sent received
  | reordered {value received : Json} (earlier : Transported sent value)
      (same : value.Same received) (distinct : received.Distinct) : Transported sent received

/-- `left[name]` and `right[name]` are the same JSON value, or both are missing. -/
def SameField (left right : Json) (name : JsString) : Prop :=
  Option.Rel Json.Same (Json.lookup (properties left) name) (Json.lookup (properties right) name)

def signedFields : List JsString := [js "payload", js "ledger", js "issued_at", js "key_id"]

/-! ### Transport -/

structure Carried (sent received : Json) : Prop where
  distinct : received.Distinct
  finite : received.Finite
  canonical : received.canonical TextLe = sent.canonical TextLe

theorem Transported.carried {sent received : Json} (distinct : sent.Distinct)
    (finite : sent.Finite) (transported : Transported sent received) : Carried sent received := by
  induction transported with
  | sent => exact ⟨distinct, finite, rfl⟩
  | @wired value received _ parsed ih =>
    rw [parse?_stringify, Option.some.injEq] at parsed
    have written := Json.distinct_written value ih.distinct
    subst parsed
    refine ⟨distinct_built _, finite_built _ (Json.finite_of_printed _ value.printed_written), ?_⟩
    rw [canonical_built TextLe _ written, Json.canonical_written TextLe _
      ih.finite, ih.canonical]
  | @reordered value received _ same distinct ih =>
    refine ⟨distinct, Json.finite_of_same value received distinct same
      ih.finite, ?_⟩
    rw [← Json.canonical_eq_of_same TextLe value received ih.distinct distinct
      same, ih.canonical]

theorem Carried.same {sent received : Json} (finite : sent.Finite)
    (carried : Carried sent received) : sent.Same received :=
  Json.same_of_canonical_eq TextLe sent received finite carried.finite carried.canonical.symm

/-! ### Fields -/

section Fields

variable {left right : Json} {name : JsString}

theorem nodup_properties (distinct : left.Distinct) :
    ((properties left).map Prod.fst).Nodup := by
  cases left with
  | object members => exact distinct.1
  | null | boolean | number | string | array => exact List.nodup_nil

theorem distinctMembers_properties (distinct : left.Distinct) :
    Json.DistinctMembers (properties left) := by
  cases left with
  | object members => exact distinct.2
  | null | boolean | number | string | array => trivial

theorem distinct_unsigned (distinct : left.Distinct) : (Json.object (unsigned left)).Distinct :=
  ⟨(nodup_properties distinct).sublist (List.filter_sublist.map Prod.fst),
    Json.distinctMembers_iff.mpr fun member listed =>
      Json.distinctMembers_iff.mp (distinctMembers_properties distinct) member
        (List.mem_of_mem_filter listed)⟩

theorem mem_unsigned (apart : name ≠ js "signature") {value : Json} :
    (name, value) ∈ unsigned left ↔ (name, value) ∈ properties left := by
  rw [unsigned, List.mem_filter]
  exact and_iff_left (decide_eq_true apart)

theorem lookup_unsigned (distinct : left.Distinct) (apart : name ≠ js "signature") :
    Json.lookup (unsigned left) name = Json.lookup (properties left) name := by
  ext value
  rw [Json.lookup_eq_some_iff (distinct_unsigned distinct).1,
    Json.lookup_eq_some_iff (nodup_properties distinct), mem_unsigned apart]

theorem lookup_same {lefts rights : List (JsString × Json)}
    (distinct : (rights.map Prod.fst).Nodup) (same : (Json.object lefts).Same (.object rights))
    (name : JsString) :
    Option.Rel Json.Same (Json.lookup lefts name) (Json.lookup rights name) := by
  cases found : Json.lookup lefts name with
  | some value =>
    obtain ⟨other, listed, alike⟩ := Json.sameMembers_iff.mp same.1 _ (Json.mem_of_lookup found)
    rw [(Json.lookup_eq_some_iff distinct).mpr listed]
    exact .some alike
  | none =>
    have absent : name ∉ rights.map Prod.fst := fun listed =>
      Json.lookup_eq_none_iff.mp found (same.2 name listed)
    rw [Json.lookup_eq_none_iff.mpr absent]
    exact .none

theorem sameField_of_canonicalize {text : JsString} (leftDistinct : left.Distinct)
    (rightDistinct : right.Distinct) (apart : name ≠ js "signature")
    (leftWritten : canonicalize (.ofJson (.object (unsigned left))) = some text)
    (rightWritten : canonicalize (.ofJson (.object (unsigned right))) = some text) :
    SameField left right name := by
  have leftUnsigned := distinct_unsigned leftDistinct
  have rightUnsigned := distinct_unsigned rightDistinct
  have same := (canonicalize_eq_iff leftUnsigned rightUnsigned leftWritten).mp rightWritten
  rw [SameField, ← lookup_unsigned leftDistinct apart, ← lookup_unsigned rightDistinct apart]
  exact lookup_same rightUnsigned.1 same name

theorem same_filter {lefts rights : List (JsString × Json)}
    (same : (Json.object lefts).Same (.object rights)) (kept : JsString → Bool) :
    (Json.object (lefts.filter (kept ·.1))).Same (.object (rights.filter (kept ·.1))) := by
  refine ⟨Json.sameMembers_iff.mpr fun left listed => ?_, fun name listed => ?_⟩
  · obtain ⟨among, keep⟩ := List.mem_filter.mp listed
    obtain ⟨right, other, alike⟩ := Json.sameMembers_iff.mp same.1 left among
    exact ⟨right, List.mem_filter.mpr ⟨other, keep⟩, alike⟩
  · obtain ⟨right, among, rfl⟩ := List.mem_map.mp listed
    obtain ⟨own, keep⟩ := List.mem_filter.mp among
    obtain ⟨left, other, sameName⟩ :=
      List.mem_map.mp (same.2 right.1 (List.mem_map_of_mem own))
    exact List.mem_map.mpr ⟨left, List.mem_filter.mpr ⟨other, sameName ▸ keep⟩, sameName⟩

theorem SameField.string {units : JsString} (same : SameField left right name)
    (found : Json.lookup (properties left) name = some (.string units)) :
    Json.lookup (properties right) name = some (.string units) := by
  rw [SameField, found] at same
  cases other : Json.lookup (properties right) name with
  | none =>
    rw [other] at same
    cases same
  | some value =>
    rw [other] at same
    cases same with
    | some alike =>
      cases value with
      | string =>
        have equal : units = _ := alike
        rw [equal]
      | null | boolean | number | array | object => cases alike

theorem apart_of_signedField (signed : name ∈ signedFields) : name ≠ js "signature" := by
  simp only [signedFields, List.mem_cons, List.not_mem_nil, or_false] at signed
  rcases signed with rfl | rfl | rfl | rfl <;> decide

end Fields

/-! ### Signing -/

/-- `number | null` that JSON can write. -/
def Ledger.isFinite : Ledger → Bool
  | .null => true
  | .number value => value.isFinite
  | .nan => false

theorem Ledger.ofJson_json {ledger : Ledger} (finite : ledger.isFinite = true) :
    Value.ofJson ledger.json = ledger.value := by
  cases ledger with
  | null => rfl
  | nan => cases finite
  | number value =>
    have whole : value.isFinite = true := finite
    rw [Ledger.json, numberJson, if_pos whole, Value.ofJson, Json.ofNumeral_numeral whole]
    rfl

theorem Ledger.finite_json (ledger : Ledger) : ledger.json.Finite := by
  cases ledger with
  | null | nan => trivial
  | number value => exact Json.finite_of_printed _ (printed_numberJson value)

structure Sealed (crypto : Crypto) (active : ActiveKey) (text : JsString) (envelope : Json) :
    Prop where
  distinct : envelope.Distinct
  finite : envelope.Finite
  object : ∃ members, envelope = .object members
  written : canonicalize (.ofJson (.object (unsigned envelope))) = some text
  named : Json.lookup (properties envelope) (js "key_id") = some (.string active.keyId)
  signed : Json.lookup (properties envelope) (js "signature") = some (.string
    (Utf16.encode (Base64url.encode (crypto.sign active.privateKey (utf8 text)))))

section Signing

variable {crypto : Crypto} {payload : Value} {ledger : Ledger} {keys : SigningKeys} {now : ℤ}
  {envelope : Json}

theorem signEnvelope_eq_some_iff :
    signEnvelope crypto payload ledger keys now = some envelope ↔
      ∃ active, keys.active = some active ∧ ∃ text, canonicalize payload = some text ∧
      ∃ tree, parse? text = some tree ∧ ∃ unsigned, canonicalize (.object (fields .string
        (.ofJson tree) ledger.value (Utf16.encode (IsoTime.toISOString now)) active.keyId)) =
          some unsigned ∧
      .object (fields .string tree ledger.json (Utf16.encode (IsoTime.toISOString now))
        active.keyId ++ [(js "signature", .string (Utf16.encode (Base64url.encode
          (crypto.sign active.privateKey (utf8 unsigned)))))]) = envelope := by
  simp only [signEnvelope, Option.bind_eq_bind, Option.bind_eq_some_iff, Option.pure_def,
    Option.some.injEq]

theorem finite_of_canonicalize_fields {tree : Json} {issuedAt keyId text : JsString}
    (written : canonicalize (.object (fields .string (.ofJson tree) ledger.value issuedAt keyId)) =
      some text) : ledger.isFinite = true := by
  rw [canonicalize, fields, canonicalizeMembers, isAbsent_ofJson] at written
  obtain ⟨texts, each, -⟩ := Option.map_eq_some_iff.mp written
  obtain ⟨_, _, rest⟩ := Option.bind_eq_some_iff.mp each
  obtain ⟨others, later, -⟩ := Option.bind_eq_some_iff.mp rest
  cases ledger with
  | null => rfl
  | nan => cases later
  | number value =>
    obtain ⟨text, first, -⟩ := Option.bind_eq_some_iff.mp later
    rw [Ledger.value, canonicalize] at first
    split at first
    · next finite => exact finite
    · cases first

theorem canonicalize_fields (finite : ledger.isFinite = true) (tree : Json)
    (issuedAt keyId : JsString) :
    canonicalize (.object (fields .string (.ofJson tree) ledger.value issuedAt keyId)) =
      canonicalize (.ofJson (.object (fields .string tree ledger.json issuedAt keyId))) := by
  rw [← Ledger.ofJson_json finite]
  rfl

theorem nodup_names : (signedFields ++ [js "signature"]).Nodup := by decide

theorem distinct_envelope {tree : Json} (distinct : tree.Distinct) (ledger : Ledger)
    (issuedAt keyId signature : JsString) :
    (Json.object (fields .string tree ledger.json issuedAt keyId ++
      [(js "signature", .string signature)])).Distinct := by
  refine ⟨nodup_names, distinct, ?_, trivial, trivial, trivial, trivial⟩
  cases ledger with
  | null | nan => trivial
  | number value =>
    rw [Ledger.json, numberJson]
    split <;> trivial

theorem sealed_of_signEnvelope
    (signed : signEnvelope crypto payload ledger keys now = some envelope) :
    ∃ active text, keys.active = some active ∧ Sealed crypto active text envelope := by
  obtain ⟨active, isActive, text, accepted, tree, parsed, unsigned, written, rfl⟩ :=
    signEnvelope_eq_some_iff.mp signed
  obtain ⟨parsedTree, same, distinct, finite⟩ := exists_parse? accepted
  cases parsed.symm.trans same
  have whole := finite_of_canonicalize_fields written
  rw [canonicalize_fields whole] at written
  refine ⟨active, unsigned, isActive, distinct_envelope distinct ledger _ _ _,
    ⟨finite, ledger.finite_json, trivial, trivial, trivial, trivial⟩, ⟨_, rfl⟩, written, ?_, ?_⟩
  · exact rfl
  · exact rfl

theorem isSome_signEnvelope {active : ActiveKey} (isActive : keys.active = some active) :
    (signEnvelope crypto payload ledger keys now).isSome ↔
      (canonicalize payload).isSome ∧ ledger.isFinite = true := by
  constructor
  · intro returned
    obtain ⟨envelope, signed⟩ := Option.isSome_iff_exists.mp returned
    obtain ⟨_, -, text, accepted, tree, -, unsigned, written, -⟩ :=
      signEnvelope_eq_some_iff.mp signed
    exact ⟨Option.isSome_of_eq_some accepted, finite_of_canonicalize_fields written⟩
  · rintro ⟨accepted, finite⟩
    obtain ⟨text, accepted⟩ := Option.isSome_iff_exists.mp accepted
    obtain ⟨tree, parsed, -, whole⟩ := exists_parse? accepted
    have written := canonicalize_ofJson
      (.object (fields .string tree ledger.json (Utf16.encode (IsoTime.toISOString now))
        active.keyId)) ⟨whole, ledger.finite_json, trivial, trivial, trivial⟩
    rw [← canonicalize_fields finite] at written
    exact Option.isSome_of_eq_some (signEnvelope_eq_some_iff.mpr
      ⟨active, isActive, text, accepted, tree, parsed, _, written, rfl⟩)

theorem Sealed.carried {active : ActiveKey} {text : JsString} {received : Json}
    (intact : Sealed crypto active text envelope) (carried : Carried envelope received) :
    Sealed crypto active text received := by
  obtain ⟨members, rfl⟩ := intact.object
  have same := carried.same intact.finite
  cases received with
  | object others =>
    have fields (name : JsString) : SameField (.object members) (.object others) name :=
      lookup_same carried.distinct.1 same name
    refine ⟨carried.distinct, carried.finite, ⟨others, rfl⟩, ?_, (fields _).string intact.named,
      (fields _).string intact.signed⟩
    exact (canonicalize_eq_iff (distinct_unsigned intact.distinct)
      (distinct_unsigned carried.distinct) intact.written).mpr 
        (same_filter same fun name => name ≠ js "signature")
  | null | boolean | number | string | array => cases same

/-! ### Verifying -/

theorem key?_toList (key : Key) : key? key.toList = some key := by
  rw [key?, dif_pos (by simp)]
  simp [Vector.toList]

theorem bufferFrom_encode (bytes : List UInt8) :
    bufferFrom (Utf16.encode (Base64url.encode bytes)) = bytes := by
  rw [bufferFrom, Utf16.decode_encode, Base64url.decode_encode]

theorem bufferFrom_encodePadded (bytes : List UInt8) :
    bufferFrom (Utf16.encode (Base64url.encodePadded bytes)) = bytes := by
  rw [bufferFrom, Utf16.decode_encode, Base64url.decode_encodePadded]

theorem publicKey_of_loaded {env : Env} {active : ActiveKey}
    (loaded : loadSigningKeys crypto env = some keys) (isActive : keys.active = some active) :
    active.publicKey =
      Utf16.encode (Base64url.encodePadded (crypto.publicKey active.privateKey).toList) := by
  unfold loadSigningKeys at loaded
  cases given : truthy env.EXPLORER_SIGNING_KEY with
  | none =>
    rw [given] at loaded
    cases loaded
    cases isActive
  | some text =>
    rw [given] at loaded
    obtain ⟨seed, -, rfl⟩ := Option.map_eq_some_iff.mp loaded
    cases isActive
    rfl

section Verifying

variable {env : Env} {active : ActiveKey} {text : JsString} {published : List ExplorerKey}

theorem Sealed.find?_publishedKeys (intact : Sealed crypto active text envelope)
    (isActive : keys.active = some active) :
    (publishedKeys keys).find? (·.isNamed envelope) = some ⟨active.keyId, js "Ed25519",
      active.publicKey, .active, active.notBefore, none⟩ := by
  have named := intact.named
  rw [← lookup_unsigned intact.distinct (by decide)] at named
  rw [publishedKeys, isActive, Option.toList_some, List.map_singleton, List.singleton_append,
    List.find?_cons_of_pos]
  rw [ExplorerKey.isNamed, named]
  exact decide_eq_true rfl

theorem Sealed.verifyEnvelope (intact : Sealed crypto active text envelope) (exact_ : crypto.Exact)
    (loaded : loadSigningKeys crypto env = some keys) (isActive : keys.active = some active) :
    verifyEnvelope crypto envelope (publishedKeys keys) = ⟨true, .active⟩ := by
  have signature : signatureText envelope = some
      (Utf16.encode (Base64url.encode (crypto.sign active.privateKey (utf8 text)))) := by
    rw [signatureText, intact.signed]
    rfl
  rw [Signing.verifyEnvelope, intact.find?_publishedKeys isActive]
  simp only [intact.written, signature, publicKey_of_loaded loaded isActive, bufferFrom_encodePadded,
    key?_toList, bufferFrom_encode, exact_.signed, Option.bind_eq_bind, Option.bind_some]
  rfl

theorem Sealed.verifySignedResponse (intact : Sealed crypto active text envelope)
    (exact_ : crypto.Exact) (loaded : loadSigningKeys crypto env = some keys)
    (isActive : keys.active = some active) :
    Sdk.verifySignedResponse crypto envelope (publishedKeys keys) = some ⟨true, .active⟩ := by
  obtain ⟨members, rfl⟩ := intact.object
  have signature : Sdk.signatureBytes (.object members) =
      some (crypto.sign active.privateKey (utf8 text)) := by
    rw [Sdk.signatureBytes, intact.signed]
    exact Sdk.decode_encode _
  rw [Sdk.verifySignedResponse, intact.find?_publishedKeys isActive]
  · simp only [intact.written, signature, publicKey_of_loaded loaded isActive,
      Sdk.decode_encodePadded, Sdk.canonicalize_eq, key?_toList, exact_.signed,
      Option.bind_eq_bind, Option.bind_some]
    rfl
  · intro same
    cases same

theorem exists_verified (valid : (Signing.verifyEnvelope crypto envelope published).valid = true) :
    ∃ text key signature, canonicalize (.ofJson (.object (unsigned envelope))) = some text ∧
      signatureText envelope = some signature ∧
      crypto.verify key (utf8 text) (bufferFrom signature) = true := by
  rw [Signing.verifyEnvelope] at valid
  split at valid
  · cases valid
  · next key _ =>
      dsimp only at valid
      split at valid
      · next ok =>
          obtain ⟨text, written, rest⟩ := Option.bind_eq_some_iff.mp ok
          obtain ⟨publicKey, -, rest⟩ := Option.bind_eq_some_iff.mp rest
          obtain ⟨signature, found, verified⟩ := Option.bind_eq_some_iff.mp rest
          exact ⟨text, publicKey, signature, written, found, Option.some.inj verified⟩
      · cases valid

theorem exists_verified_sdk {verification : Verification}
    (answer : Sdk.verifySignedResponse crypto envelope published = some verification)
    (valid : verification.valid = true) :
    ∃ text key signature, canonicalize (.ofJson (.object (unsigned envelope))) = some text ∧
      Sdk.signatureBytes envelope = some signature ∧
      crypto.verify key (utf8 text) signature = true := by
  rw [Sdk.verifySignedResponse.eq_def] at answer
  split at answer
  · cases answer
  · split at answer
    · cases answer
      cases valid
    · dsimp only at answer
      split at answer
      · next ok =>
          obtain ⟨publicKey, -, rest⟩ := Option.bind_eq_some_iff.mp ok
          obtain ⟨signature, found, rest⟩ := Option.bind_eq_some_iff.mp rest
          obtain ⟨text, written, verified⟩ := Option.bind_eq_some_iff.mp rest
          rw [Sdk.canonicalize_eq] at written
          exact ⟨text, publicKey, signature, written, found, Option.some.inj verified⟩
      · cases answer
        cases valid

theorem Sealed.sameField (intact : Sealed crypto active text envelope) (exact_ : crypto.Exact)
    {received : Json} (distinct : received.Distinct) {other : JsString} {key : Key}
    {name : JsString} (apart : name ≠ js "signature")
    (written : canonicalize (.ofJson (.object (unsigned received))) = some other)
    (verified : crypto.verify key (utf8 other)
      (crypto.sign active.privateKey (utf8 text)) = true) :
    SameField envelope received name := by
  have texts := utf8_injective written intact.written (exact_.only _ _ _ _ verified)
  exact sameField_of_canonicalize intact.distinct distinct apart intact.written (texts ▸ written)

theorem Sealed.rejected (intact : Sealed crypto active text envelope) (exact_ : crypto.Exact)
    {received : Json} (distinct : received.Distinct)
    (same : SameField envelope received (js "signature")) {name : JsString}
    (apart : name ≠ js "signature") (changed : ¬ SameField envelope received name) :
    (Signing.verifyEnvelope crypto received published).valid = false ∧
      ∀ verification, Sdk.verifySignedResponse crypto received published = some verification →
        verification.valid = false := by
  have signed := same.string intact.signed
  constructor
  · by_contra valid
    obtain ⟨other, key, signature, written, found, verified⟩ :=
      exists_verified (Bool.of_not_eq_false valid)
    rw [signatureText, signed] at found
    cases found
    rw [bufferFrom_encode] at verified
    exact changed (intact.sameField exact_ distinct apart written verified)
  · intro verification answer
    by_contra valid
    obtain ⟨other, key, signature, written, found, verified⟩ :=
      exists_verified_sdk answer (Bool.of_not_eq_false valid)
    rw [Sdk.signatureBytes, signed] at found
    cases (Sdk.decode_encode _).symm.trans found
    exact changed (intact.sameField exact_ distinct apart written verified)

/-- Signed responses. Of every payload with canonical JSON an envelope is returned, which the
indexer and the SDK accept whatever transport makes of it, while its signature is accepted with
no other payload, ledger, time or key. Envelopes that differ in one of these have different
canonical JSON, and the SDK writes the canonical JSON that the indexer writes. -/
theorem signed_responses (exact_ : crypto.Exact)
    (loaded : loadSigningKeys crypto env = some keys) (isActive : keys.active = some active) :
    (∀ payload ledger now,
      ((signEnvelope crypto payload ledger keys now).isSome ↔
        (canonicalize payload).isSome ∧ ledger.isFinite = true) ∧
      ∀ envelope, signEnvelope crypto payload ledger keys now = some envelope →
        (∀ received, Transported envelope received →
          Signing.verifyEnvelope crypto received (publishedKeys keys) = ⟨true, .active⟩ ∧
          Sdk.verifySignedResponse crypto received (publishedKeys keys) =
            some ⟨true, .active⟩) ∧
        ∀ received published, received.Distinct →
          SameField envelope received (js "signature") →
          (∃ name ∈ signedFields, ¬ SameField envelope received name) →
          (Signing.verifyEnvelope crypto received published).valid = false ∧
          ∀ verification, Sdk.verifySignedResponse crypto received published =
            some verification → verification.valid = false) ∧
    (∀ left right : Json, left.Distinct → right.Distinct →
      (∃ name ∈ signedFields, ¬ SameField left right name) →
      ∀ leftText rightText, canonicalize (.ofJson (.object (unsigned left))) = some leftText →
        canonicalize (.ofJson (.object (unsigned right))) = some rightText →
        leftText ≠ rightText) ∧
    ∀ value, Sdk.canonicalize value = canonicalize value := by
  refine ⟨fun payload ledger now => ⟨isSome_signEnvelope isActive, ?_⟩, ?_, Sdk.canonicalize_eq⟩
  · intro envelope returned
    obtain ⟨signer, text, isSigner, intact⟩ := sealed_of_signEnvelope returned
    cases isActive.symm.trans isSigner
    refine ⟨fun received transported => ?_, fun received published distinct same changed => ?_⟩
    · have arrived := intact.carried (transported.carried intact.distinct intact.finite)
      exact ⟨arrived.verifyEnvelope exact_ loaded isActive,
        arrived.verifySignedResponse exact_ loaded isActive⟩
    · obtain ⟨name, listed, other⟩ := changed
      exact intact.rejected exact_ distinct same (apart_of_signedField listed) other
  · intro left right leftDistinct rightDistinct changed leftText rightText leftWritten
      rightWritten same
    obtain ⟨name, listed, other⟩ := changed
    exact other (sameField_of_canonicalize leftDistinct rightDistinct
      (apart_of_signedField listed) leftWritten (same ▸ rightWritten))

end Verifying

end Signing

/-! ### A signed response -/

def plainCrypto : Crypto where
  publicKey := fun seed => seed
  sign := fun seed bytes => seed.toList ++ bytes
  verify := fun key bytes signature => signature = key.toList ++ bytes
  sha256 := fun bytes => bytes

theorem plainCrypto_exact : plainCrypto.Exact where
  signed := fun _ _ => decide_eq_true rfl
  only := by
    intro key seed bytes others verified
    have same : seed.toList ++ bytes = key.toList ++ others := of_decide_eq_true verified
    exact ((List.append_inj same (by simp)).2).symm

def plainSeed : Key := Vector.replicate 32 7

def plainEnv : Env where
  EXPLORER_SIGNING_KEY := some (Utf16.encode (Base64url.encodePadded plainSeed.toList))
  EXPLORER_SIGNING_KEY_ID := some (js "k1")
  EXPLORER_SIGNING_KEY_NOT_BEFORE := none
  EXPLORER_RETIRED_SIGNING_KEYS := none

def plainKeys : SigningKeys := ⟨some (activeKey plainCrypto plainEnv plainSeed), []⟩

theorem plainKeys_loaded : loadSigningKeys plainCrypto plainEnv = some plainKeys := by
  have given : truthy plainEnv.EXPLORER_SIGNING_KEY =
      some (Utf16.encode (Base64url.encodePadded plainSeed.toList)) := rfl
  rw [loadSigningKeys, given]
  simp only [bufferFrom_encodePadded, key?_toList, Option.map_some]
  rfl

def plainPayload : Value :=
  .object [(js "seq", .number (.ofRat 1)), (js "amount", .bigint 10),
    (js "at", .date (some 0)), (js "memo", .undefined)]

/-- Its envelope is accepted after it was sent as JSON. -/
theorem signed_responses_plain :
    ∃ envelope received, signEnvelope plainCrypto plainPayload .null plainKeys 0 = some envelope ∧
      parse? (Json.stringify envelope) = some received ∧
      Signing.verifyEnvelope plainCrypto received (publishedKeys plainKeys) = ⟨true, .active⟩ := by
  have signed := (signed_responses plainCrypto_exact plainKeys_loaded rfl).1 plainPayload .null 0
  have accepted : (canonicalize plainPayload).isSome := by
    simp [plainPayload, canonicalize, canonicalizeMembers, Value.isAbsent, one_isFinite]
  obtain ⟨envelope, returned⟩ := Option.isSome_iff_exists.mp (signed.1.mpr ⟨accepted, rfl⟩)
  refine ⟨envelope, _, returned, parse?_stringify envelope, ?_⟩
  exact ((signed.2 envelope returned).1 _ (.wired .sent (parse?_stringify envelope))).1

end SorobanExplorer.Indexer.Signing
