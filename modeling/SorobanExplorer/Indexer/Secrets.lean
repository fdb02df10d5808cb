import SorobanExplorer.Filters.Planner
import SorobanExplorer.Library.Base64
import SorobanExplorer.Library.Hex
import SorobanExplorer.Library.Slots
import SorobanExplorer.Library.Utf8

/-!
Owns the envelope encryption of stored secrets: which key-encryption keys are loaded, and how a
secret is sealed under the current one, opened, and wrapped anew.

The digest, the cipher and the random bytes are parameters. What is stored is told from a
plaintext by its first letters, and a key is found by eight digits of its digest.
-/

namespace SorobanExplorer.Indexer.Secrets

open Library
open Filters (JsString js trim)

abbrev Bytes := List UInt8

abbrev Key := Vector UInt8 32

/-- SHA-256, and AES-256-GCM, which opens what it sealed; `none` where it throws. -/
structure Crypto where
  sha256 : Bytes → Vector UInt8 32
  encrypt : Key → Vector UInt8 12 → Bytes → Bytes × Vector UInt8 16
  decrypt : (key iv input tag : Bytes) → Option Bytes
  decrypt_encrypt : ∀ key iv input, decrypt key.toList iv.toList (encrypt key iv input).1
    (encrypt key iv input).2.toList = some input

instance : Nonempty Crypto :=
  ⟨{ sha256 := fun _ => Vector.replicate 32 0
     encrypt := fun _ _ input => (input, Vector.replicate 16 0)
     decrypt := fun _ _ input _ => some input
     decrypt_encrypt := fun _ _ _ => rfl }⟩

inductive Failure where
  | error (message : JsString)
  /-- Thrown by a built-in function. -/
  | thrown

def PREFIX : JsString := js "enc:v1:"

def colon : UInt16 := 0x3A

/-- `buffer.toString("base64")` -/
def toBase64 (bytes : Bytes) : JsString := Utf16.encode (Base64url.encodePadded bytes)

/-- `Buffer.from(text, "base64")` -/
def fromBase64 : Option JsString → Except Failure Bytes
  | some text => .ok (Base64url.decode (Utf16.decode text))
  | none => .error .thrown

/-! ### Keys -/

variable (crypto : Crypto)

def kekVersion (key : Key) : JsString :=
  Utf16.encode ((Hex.encode (crypto.sha256 key.toList).toList).take 8)

structure Source where
  SECRETS_KEK : Option JsString
  SECRETS_KEK_PREVIOUS : Option JsString

def Source.texts (source : Source) : List (List Char) :=
  ((Utf16.decode (source.SECRETS_KEK.getD []) ::
    (Utf16.decode (source.SECRETS_KEK_PREVIOUS.getD [])).splitOn ',').map trim).filter (· ≠ [])

def decodeKey (text : List Char) : Except Failure Key :=
  let key := Base64url.decode text
  if long : key.length = 32 then .ok ⟨key.toArray, long⟩
  else .error (.error (js "SECRETS_KEK values must be base64-encoded 32-byte keys"))

def Source.keys (source : Source) : Except Failure (List Key) := source.texts.mapM decodeKey

/-- What `loadKeks` installs. -/
structure Keks where
  keks : JsString → Option Key
  currentKekVersion : Option JsString

namespace Keks

def set (loaded : Keks) (key : Key) : Keks where
  keks := Function.update loaded.keks (kekVersion crypto key) (some key)
  currentKekVersion := loaded.currentKekVersion <|> some (kekVersion crypto key)

def ofKeys (keys : List Key) : Keks := keys.foldl (set crypto) ⟨fun _ => none, none⟩

end Keks

def loadKeks (source : Source) : Except Failure Keks := (Keks.ofKeys crypto) <$> source.keys

/-! ### Secrets -/

def isEncrypted (value : JsString) : Bool := PREFIX.isPrefixOf value

/-- The bytes that `crypto.randomBytes` gives to one encryption. -/
structure Random where
  dek : Key
  dekIv : Vector UInt8 12
  iv : Vector UInt8 12

def sealSecret (version : JsString) (kek : Key) (random : Random) (plaintext : JsString) :
    JsString :=
  let wrapped := crypto.encrypt kek random.dekIv random.dek.toList
  let sealed := crypto.encrypt random.dek random.iv (Utf8.encode (Utf16.decode plaintext))
  let wrappedDek := toBase64 (random.dekIv.toList ++ wrapped.2.toList ++ wrapped.1)
  PREFIX ++ (version ++ colon :: (wrappedDek ++ colon :: (toBase64 random.iv.toList ++
    colon :: (toBase64 sealed.2.toList ++ colon :: toBase64 sealed.1))))

variable (keks : Keks)

/-- `null` and `undefined` are `none`. -/
def encryptSecret (random : Random) (plaintext : Option JsString) :
    Except Failure (Option JsString) :=
  match plaintext, keks.currentKekVersion with
  | some text, some version =>
    match keks.keks version with
    | some kek => .ok (some (sealSecret crypto version kek random text))
    | none => .error .thrown
  | _, _ => .ok plaintext

def gcmDec (key iv input tag : Bytes) : Except Failure Bytes :=
  match crypto.decrypt key iv input tag with
  | some out => .ok out
  | none => .error .thrown

def unwrapDek (version : JsString) (wrappedDek : Option JsString) : Except Failure Bytes :=
  match keks.keks version with
  | some kek => do
      let buf ← fromBase64 wrappedDek
      gcmDec crypto kek.toList (buf.take 12) (buf.drop 28) ((buf.drop 12).take 16)
  | none => .error (.error (js "No KEK loaded for version " ++ version))

def openSecret (value : JsString) : Except Failure JsString := do
  let fields := (value.drop PREFIX.length).splitOn colon
  let dek ← unwrapDek crypto keks (fields.headD []) fields[1]?
  let iv ← fromBase64 fields[2]?
  let ct ← fromBase64 fields[4]?
  let tag ← fromBase64 fields[3]?
  let out ← gcmDec crypto dek iv ct tag
  return Utf16.encode (Utf8.decode out)

def decryptSecret (value : Option JsString) : Except Failure (Option JsString) :=
  match value with
  | some text => if isEncrypted text then some <$> openSecret crypto keks text else .ok value
  | none => .ok none

def isUnder (version value : JsString) : Bool :=
  isEncrypted value && (version ++ [colon]).isPrefixOf (value.drop PREFIX.length)

def rewrapSecret (random : Random) (value : Option JsString) :
    Except Failure (Option JsString) :=
  match value, keks.currentKekVersion with
  | some text, some version =>
    if isUnder version text then .ok value
    else do encryptSecret crypto keks random (← decryptSecret crypto keks value)
  | _, _ => .ok value

/-! ### Which key is found -/

namespace Keks

variable {crypto : Crypto} {keys : List Key} {key : Key} {version : JsString}

theorem keks_set (loaded : Keks) : (loaded.set crypto key).keks version =
    if version = kekVersion crypto key then some key else loaded.keks version :=
  Function.update_apply ..

theorem ofKeys_concat (keys : List Key) (key : Key) :
    ofKeys crypto (keys ++ [key]) = (ofKeys crypto keys).set crypto key :=
  List.foldl_concat ..

theorem currentKekVersion_ofKeys (keys : List Key) :
    (ofKeys crypto keys).currentKekVersion = keys.head?.map (kekVersion crypto) := by
  induction keys using List.reverseRecOn with
  | nil => rfl
  | append_singleton keys key ih =>
    rw [ofKeys_concat, set, ih]
    cases keys <;> rfl

theorem mem_of_keks (found : (ofKeys crypto keys).keks version = some key) :
    key ∈ keys ∧ kekVersion crypto key = version := by
  induction keys using List.reverseRecOn with
  | nil => nomatch found
  | append_singleton keys last ih =>
    rw [ofKeys_concat] at found
    obtain ⟨same, new⟩ | ⟨-, there⟩ := of_update found
    · cases new
      exact ⟨List.mem_concat_self, same.symm⟩
    · have earlier := ih there
      exact ⟨List.mem_append_left _ earlier.1, earlier.2⟩

theorem exists_keks (crypto : Crypto) (member : key ∈ keys) :
    ∃ found, (ofKeys crypto keys).keks (kekVersion crypto key) = some found := by
  induction keys using List.reverseRecOn with
  | nil => nomatch member
  | append_singleton keys last ih =>
    rw [ofKeys_concat, keks_set]
    split
    · exact ⟨last, rfl⟩
    · next differs =>
        obtain earlier | final := List.mem_append.mp member
        · exact ih earlier
        · exact absurd (congrArg _ (List.mem_singleton.mp final)) differs

end Keks

def Distinct (keys : List Key) : Prop :=
  ∀ key ∈ keys, ∀ other ∈ keys, kekVersion crypto key = kekVersion crypto other → key = other

section

variable {crypto : Crypto} {keys : List Key} {key : Key}

theorem Distinct.found (distinct : Distinct crypto keys) (member : key ∈ keys) :
    (Keks.ofKeys crypto keys).keks (kekVersion crypto key) = some key := by
  obtain ⟨found, same⟩ := Keks.exists_keks crypto member
  obtain ⟨other, version⟩ := Keks.mem_of_keks same
  rw [same, distinct found other key member version]

theorem Distinct.mono {fewer : List Key} (distinct : Distinct crypto keys)
    (kept : fewer ⊆ keys) : Distinct crypto fewer :=
  fun key member other listed => distinct key (kept member) other (kept listed)

end

/-! ### Opening what was sealed -/

theorem colon_notMem {text : List Char} (absent : ':' ∉ text) : colon ∉ Utf16.encode text :=
  fun member => absent (Utf16.mem_of_mem_encode member (by decide))

theorem colon_notMem_toBase64 (bytes : Bytes) : colon ∉ toBase64 bytes := by
  refine colon_notMem fun member => ?_
  obtain letter | padding := Base64url.mem_encodePadded member
  · exact absurd letter (by decide)
  · exact absurd padding (by decide)

theorem fromBase64_toBase64 (bytes : Bytes) :
    fromBase64 (some (toBase64 bytes)) = .ok bytes := by
  rw [fromBase64, toBase64, Utf16.decode_encode, Base64url.decode_encodePadded]

theorem colon_notMem_kekVersion (key : Key) : colon ∉ kekVersion crypto key := by
  refine colon_notMem fun member => ?_
  have digit := Hex.hexDigit?_of_mem_encode (List.mem_of_mem_take member)
  exact absurd digit (by decide)

section

variable {crypto : Crypto} {keks : Keks} {kek : Key} {version : JsString} {random : Random}
  {plaintext : JsString}

theorem isEncrypted_sealSecret :
    isEncrypted (sealSecret crypto version kek random plaintext) = true :=
  List.isPrefixOf_iff_prefix.mpr (List.prefix_append _ _)

theorem splitOn_sealSecret (absent : colon ∉ version) :
    ((sealSecret crypto version kek random plaintext).drop PREFIX.length).splitOn colon =
      [version,
        toBase64 (random.dekIv.toList ++
          (crypto.encrypt kek random.dekIv random.dek.toList).2.toList ++
          (crypto.encrypt kek random.dekIv random.dek.toList).1),
        toBase64 random.iv.toList,
        toBase64 (crypto.encrypt random.dek random.iv
          (Utf8.encode (Utf16.decode plaintext))).2.toList,
        toBase64 (crypto.encrypt random.dek random.iv
          (Utf8.encode (Utf16.decode plaintext))).1] := by
  unfold sealSecret
  rw [List.drop_left, List.splitOn_append_cons_self_of_not_mem absent,
    List.splitOn_append_cons_self_of_not_mem (colon_notMem_toBase64 _),
    List.splitOn_append_cons_self_of_not_mem (colon_notMem_toBase64 _),
    List.splitOn_append_cons_self_of_not_mem (colon_notMem_toBase64 _),
    List.splitOn_eq_singleton (colon_notMem_toBase64 _)]

theorem gcmDec_encrypt (key : Key) (iv : Vector UInt8 12) (input : Bytes) :
    gcmDec crypto key.toList iv.toList (crypto.encrypt key iv input).1
      (crypto.encrypt key iv input).2.toList = .ok input := by
  rw [gcmDec, crypto.decrypt_encrypt]

theorem unwrapDek_toBase64 (crypto : Crypto) (found : keks.keks version = some kek)
    (dekIv : Vector UInt8 12) (dek : Bytes) :
    unwrapDek crypto keks version (some (toBase64 (dekIv.toList ++
      (crypto.encrypt kek dekIv dek).2.toList ++ (crypto.encrypt kek dekIv dek).1))) =
        .ok dek := by
  have cutIv : dekIv.toList.length = 12 := dekIv.length_toList
  have cutTag : (crypto.encrypt kek dekIv dek).2.toList.length = 16 := Vector.length_toList
  have first : (dekIv.toList ++ (crypto.encrypt kek dekIv dek).2.toList ++
      (crypto.encrypt kek dekIv dek).1).take 12 = dekIv.toList := by
    rw [List.append_assoc, List.take_left' cutIv]
  have second : ((dekIv.toList ++ (crypto.encrypt kek dekIv dek).2.toList ++
      (crypto.encrypt kek dekIv dek).1).drop 12).take 16 =
        (crypto.encrypt kek dekIv dek).2.toList := by
    rw [List.append_assoc, List.drop_left' cutIv, List.take_left' cutTag]
  have third : (dekIv.toList ++ (crypto.encrypt kek dekIv dek).2.toList ++
      (crypto.encrypt kek dekIv dek).1).drop 28 = (crypto.encrypt kek dekIv dek).1 :=
    List.drop_left' (by rw [List.length_append, cutIv, cutTag])
  simp only [unwrapDek, found, fromBase64_toBase64, bind, Except.bind, first, second, third]
  exact gcmDec_encrypt kek dekIv dek

theorem decryptSecret_sealSecret (absent : colon ∉ version)
    (found : keks.keks version = some kek) :
    decryptSecret crypto keks (some (sealSecret crypto version kek random plaintext)) =
      .ok (some (Utf16.encode (Utf16.decode plaintext))) := by
  have opened : openSecret crypto keks (sealSecret crypto version kek random plaintext) =
      .ok (Utf16.encode (Utf16.decode plaintext)) := by
    unfold openSecret
    rw [splitOn_sealSecret absent]
    have unwrapped := unwrapDek_toBase64 crypto found random.dekIv random.dek.toList
    simp only [List.headD_cons, List.getElem?_cons_succ, List.getElem?_cons_zero, unwrapped,
      fromBase64_toBase64, bind, Except.bind, gcmDec_encrypt, Utf8.decode_encode]
    rfl
  rw [decryptSecret, if_pos isEncrypted_sealSecret, opened]
  rfl

theorem decryptSecret_sealSecret_none (absent : colon ∉ version)
    (missing : keks.keks version = none) :
    ∃ failure, decryptSecret crypto keks (some (sealSecret crypto version kek random plaintext)) =
      .error failure := by
  refine ⟨.error (js "No KEK loaded for version " ++ version), ?_⟩
  rw [decryptSecret, if_pos isEncrypted_sealSecret, openSecret, splitOn_sealSecret absent]
  simp only [List.headD_cons, unwrapDek, missing, bind, Except.bind]
  rfl

theorem isUnder_sealSecret :
    isUnder version (sealSecret crypto version kek random plaintext) = true := by
  rw [isUnder, isEncrypted_sealSecret, Bool.true_and, List.isPrefixOf_iff_prefix]
  unfold sealSecret
  rw [List.drop_left, List.prefix_append_right_inj]
  exact ⟨_, rfl⟩

theorem eq_of_isUnder_sealSecret {other : JsString} (absent : colon ∉ version)
    (absentOther : colon ∉ other)
    (under : isUnder other (sealSecret crypto version kek random plaintext) = true) :
    other = version := by
  rw [isUnder, isEncrypted_sealSecret, Bool.true_and, List.isPrefixOf_iff_prefix] at under
  obtain ⟨rest, same⟩ := under
  have fields := congrArg (List.splitOn colon) same
  rw [splitOn_sealSecret absent, List.append_assoc,
    show [colon] ++ rest = colon :: rest from rfl,
    List.splitOn_append_cons_self_of_not_mem absentOther] at fields
  exact (List.cons.inj fields).1

end

/-! ### The letters of what is stored -/

def IsText (units : JsString) : Prop := 0 ∉ units ∧ Utf16.WellFormed units

theorem isText_encode {text : List Char} (absent : Char.ofNat 0 ∉ text) :
    IsText (Utf16.encode text) :=
  ⟨fun member => absent (Utf16.mem_of_mem_encode member (by decide)),
    congrArg Utf16.encode (Utf16.decode_encode text)⟩

theorem isText_sealSecret (kek : Key) (random : Random) (plaintext : JsString) :
    IsText (sealSecret crypto (kekVersion crypto kek) kek random plaintext) := by
  have digits : Char.ofNat 0 ∉ (Hex.encode (crypto.sha256 kek.toList).toList).take 8 :=
    fun member => absurd (Hex.hexDigit?_of_mem_encode (List.mem_of_mem_take member)) (by decide)
  have letters (bytes : Bytes) : Char.ofNat 0 ∉ Base64url.encodePadded bytes := fun member =>
    (Base64url.mem_encodePadded member).elim (fun letter => absurd letter (by decide))
      fun padding => absurd padding (by decide)
  have spelled : sealSecret crypto (kekVersion crypto kek) kek random plaintext =
      Utf16.encode ("enc:v1:".toList ++
        ((Hex.encode (crypto.sha256 kek.toList).toList).take 8 ++ ':' ::
          (Base64url.encodePadded (random.dekIv.toList ++
            (crypto.encrypt kek random.dekIv random.dek.toList).2.toList ++
            (crypto.encrypt kek random.dekIv random.dek.toList).1) ++ ':' ::
          (Base64url.encodePadded random.iv.toList ++ ':' ::
          (Base64url.encodePadded (crypto.encrypt random.dek random.iv
            (Utf8.encode (Utf16.decode plaintext))).2.toList ++ ':' ::
          Base64url.encodePadded (crypto.encrypt random.dek random.iv
            (Utf8.encode (Utf16.decode plaintext))).1))))) := by
    simp only [Utf16.encode_append, Utf16.encode_cons]
    rfl
  rw [spelled]
  apply isText_encode
  simp only [List.mem_append, List.mem_cons, not_or]
  exact ⟨by decide, digits, by decide, letters _, by decide, letters _, by decide, letters _,
    by decide, letters _⟩

/-! ### One secret -/

section

variable {crypto : Crypto} {keys : List Key} {random : Random} {plaintext : JsString}

theorem encryptSecret_cases (crypto : Crypto) (keys : List Key) (random : Random)
    (plaintext : JsString) :
    keys = [] ∧ encryptSecret crypto (.ofKeys crypto keys) random (some plaintext) =
        .ok (some plaintext) ∨
      ∃ first ∈ keys.head?, ∃ kek ∈ keys, kekVersion crypto kek = kekVersion crypto first ∧
        (Keks.ofKeys crypto keys).keks (kekVersion crypto kek) = some kek ∧
        encryptSecret crypto (.ofKeys crypto keys) random (some plaintext) =
          .ok (some (sealSecret crypto (kekVersion crypto kek) kek random plaintext)) := by
  cases keys with
  | nil => exact .inl ⟨rfl, rfl⟩
  | cons first rest =>
    obtain ⟨kek, found⟩ := Keks.exists_keks crypto (List.mem_cons_self (a := first) (l := rest))
    obtain ⟨member, version⟩ := Keks.mem_of_keks found
    refine .inr ⟨first, rfl, kek, member, version, version ▸ found, ?_⟩
    have current : (Keks.ofKeys crypto (first :: rest)).currentKekVersion =
        some (kekVersion crypto first) := Keks.currentKekVersion_ofKeys _
    simp only [encryptSecret, current, found, version]

theorem decryptSecret_encryptSecret (keys : List Key) (random : Random) (plaintext : JsString) :
    (encryptSecret crypto (.ofKeys crypto keys) random (some plaintext) >>=
        decryptSecret crypto (.ofKeys crypto keys)) = .ok (some plaintext) ↔
      (keys = [] → isEncrypted plaintext = false) ∧ (keys ≠ [] → Utf16.WellFormed plaintext) := by
  obtain ⟨rfl, unsealed⟩ | ⟨first, head, kek, member, version, found, sealed⟩ :=
    encryptSecret_cases crypto keys random plaintext
  · rw [unsealed]
    change decryptSecret crypto (.ofKeys crypto []) (some plaintext) = _ ↔ _
    rw [decryptSecret]
    split
    · next taken =>
        have missing : ∃ failure, openSecret crypto (.ofKeys crypto []) plaintext =
            .error failure := ⟨_, rfl⟩
        obtain ⟨failure, throws⟩ := missing
        rw [throws]
        simp only [taken]
        simp [Functor.map, Except.map]
    · next plain => simp [plain]
  · have nonempty : keys ≠ [] := List.ne_nil_of_mem member
    simp only [sealed, bind, Except.bind,
      decryptSecret_sealSecret (colon_notMem_kekVersion crypto kek) found]
    simp [nonempty, Utf16.WellFormed]

theorem exists_of_decryptSecret {keks : Keks} {text : JsString} {opened : Option JsString}
    (decrypted : decryptSecret crypto keks (some text) = .ok opened) :
    ∃ plaintext, opened = some plaintext := by
  rw [decryptSecret] at decrypted
  split at decrypted
  · cases result : openSecret crypto keks text with
    | error failure =>
      rw [result] at decrypted
      nomatch decrypted
    | ok plaintext =>
      rw [result] at decrypted
      cases decrypted
      exact ⟨plaintext, rfl⟩
  · cases decrypted
    exact ⟨text, rfl⟩

theorem rewrapSecret_cases {value result : Option JsString}
    (rewrapped : rewrapSecret crypto (.ofKeys crypto keys) random value = .ok result) :
    result = value ∧ (value = none ∨ keys = [] ∨ ∃ first ∈ keys.head?, ∃ text ∈ value,
        isUnder (kekVersion crypto first) text = true) ∨
      ∃ first ∈ keys.head?, ∃ kek ∈ keys, kekVersion crypto kek = kekVersion crypto first ∧
        (Keks.ofKeys crypto keys).keks (kekVersion crypto kek) = some kek ∧
        ∃ plaintext, decryptSecret crypto (.ofKeys crypto keys) value = .ok (some plaintext) ∧
          result = some (sealSecret crypto (kekVersion crypto kek) kek random plaintext) := by
  cases value with
  | none =>
    cases rewrapped
    exact .inl ⟨rfl, .inl rfl⟩
  | some text =>
    cases keys with
    | nil =>
      cases rewrapped
      exact .inl ⟨rfl, .inr (.inl rfl)⟩
    | cons first rest =>
      have current : (Keks.ofKeys crypto (first :: rest)).currentKekVersion =
          some (kekVersion crypto first) := Keks.currentKekVersion_ofKeys _
      simp only [rewrapSecret, current] at rewrapped
      split at rewrapped
      · next under =>
          cases rewrapped
          exact .inl ⟨rfl, .inr (.inr ⟨first, rfl, text, rfl, under⟩)⟩
      · cases decrypted : decryptSecret crypto (.ofKeys crypto (first :: rest)) (some text) with
        | error failure =>
          rw [decrypted] at rewrapped
          nomatch rewrapped
        | ok opened =>
          obtain ⟨plaintext, rfl⟩ := exists_of_decryptSecret decrypted
          obtain ⟨none, -⟩ | ⟨other, head, kek, member, version, found, sealed⟩ :=
            encryptSecret_cases crypto (first :: rest) random plaintext
          · nomatch none
          · simp only [decrypted, bind, Except.bind, sealed] at rewrapped
            cases rewrapped
            exact .inr ⟨other, head, kek, member, version, found, plaintext, rfl, rfl⟩

theorem rewrapSecret_idempotent {value result : Option JsString}
    (rewrapped : rewrapSecret crypto (.ofKeys crypto keys) random value = .ok result)
    (again : Random) :
    rewrapSecret crypto (.ofKeys crypto keys) again result = .ok result := by
  have stays : ∀ first ∈ keys.head?, ∀ text, isUnder (kekVersion crypto first) text = true →
      rewrapSecret crypto (.ofKeys crypto keys) again (some text) = .ok (some text) := by
    intro first head text under
    have current : (Keks.ofKeys crypto keys).currentKekVersion =
        some (kekVersion crypto first) := by
      rw [Keks.currentKekVersion_ofKeys, Option.mem_def.mp head]
      rfl
    simp only [rewrapSecret, current, under, if_true]
  obtain ⟨rfl, rfl | rfl | ⟨first, head, text, rfl, under⟩⟩ |
    ⟨first, head, kek, member, version, found, plaintext, opened, rfl⟩ :=
      rewrapSecret_cases rewrapped
  · rfl
  · cases result <;> rfl
  · exact stays first head text under
  · exact stays first head _ (version ▸ isUnder_sealSecret)

end

end SorobanExplorer.Indexer.Secrets
