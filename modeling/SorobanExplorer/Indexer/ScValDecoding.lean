import SorobanExplorer.Filters.JsValue
import SorobanExplorer.Library.Hex
import SorobanExplorer.Library.JsBigInt
import SorobanExplorer.Library.Utf8
import Mathlib.Data.List.Induction

/-!
Owns the decoding of contract values into JavaScript values: how integers are put together from
their parts, and which property of an object an entry of a map becomes.
-/

namespace SorobanExplorer.Indexer.ScValDecoding

open Library Filters

/-! ### Contract values -/

abbrev Bytes := List UInt8

structure ScError where
  type : UInt32
  code : UInt32

inductive ScAddress where
  | account (ed25519 : Bytes)
  | contract (id : Bytes)
  | other (xdr : Bytes)

inductive ScVal where
  | bool (value : Bool)
  | void
  | error (error : ScError)
  | u32 (value : UInt32)
  | i32 (value : Int32)
  | u64 (value : UInt64)
  | i64 (value : Int64)
  | timepoint (value : UInt64)
  | duration (value : UInt64)
  | u128 (hi lo : UInt64)
  | i128 (hi : Int64) (lo : UInt64)
  | u256 (hiHi hiLo loHi loLo : UInt64)
  | i256 (hiHi : Int64) (hiLo loHi loLo : UInt64)
  | bytes (bytes : Bytes)
  | string (text : Bytes)
  | symbol (text : Bytes)
  | vec (items : Option (List ScVal))
  | map (entries : Option (List (ScVal × ScVal)))
  | address (address : ScAddress)
  | contractInstance
  | ledgerKeyContractInstance
  | ledgerKeyNonce (nonce : Int64)

/-! ### JavaScript values -/

/-- A decoded value. An object has its own properties, in the order in which they were made, and
a prototype. -/
inductive Value where
  | null
  | boolean (value : Bool)
  | number (value : ℤ)
  | bigint (value : ℤ)
  | string (units : JsString)
  | array (items : List Value)
  | object (members : List (JsString × Value)) (prototype : Value)
  | objectPrototype

/-- The texts that code outside the repository makes, and `String` of an object whose prototype
was replaced. -/
structure Texts where
  encodeEd25519PublicKey : Bytes → JsString
  encodeContract : Bytes → JsString
  address : Bytes → JsString
  error : ScError → JsString
  replaced : List (JsString × Value) → Value → Option JsString

namespace Value

def protoName : JsString := js "__proto__"

def names (members : List (JsString × Value)) : List JsString := members.map Prod.fst

/-- `{ ... }` -/
def literal (members : List (JsString × Value)) : Value := .object members .objectPrototype

def isNull : Value → Bool
  | .null => true
  | _ => false

def isObject : Value → Bool
  | .array _ | .object _ _ | .objectPrototype => true
  | _ => false

/-- `__proto__` of a prototype is the setter of `Object.prototype`. -/
def inheritsSetter : Value → Bool
  | .objectPrototype | .array _ => true
  | .object members prototype => protoName ∉ names members && inheritsSetter prototype
  | _ => false

/-- `obj[name] = value` -/
def setProperty (obj : Value) (name : JsString) (value : Value) : Value :=
  match obj with
  | .object members prototype =>
    if name ∈ names members then
      .object (members.map fun member => if member.1 = name then (name, value) else member)
        prototype
    else if name = protoName ∧ prototype.inheritsSetter = true then
      .object members (if value.isNull || value.isObject then value else prototype)
    else .object (members ++ [(name, value)]) prototype
  | other => other

def comma : UInt16 := 44

mutual

/-- `String(value)`; `none` is a `TypeError`. -/
def text (texts : Texts) : Value → Option JsString
  | .null => some (js "null")
  | .boolean value => some (js (if value then "true" else "false"))
  | .number value | .bigint value => some (JsBigInt.text value)
  | .string units => some units
  | .array items => do return [comma].intercalate (← itemTexts texts items)
  | .object members .objectPrototype =>
    -- an own `toString` hides the inherited one, and is no function
    if js "toString" ∈ names members then none else some (js "[object Object]")
  | .object members prototype => texts.replaced members prototype
  | .objectPrototype => some (js "[object Object]")

/-- The texts that `join` puts together. -/
def itemTexts (texts : Texts) : List Value → Option (List JsString)
  | [] => some []
  | item :: rest => do
      let first ← if item.isNull then some [] else text texts item
      return first :: (← itemTexts texts rest)

end

end Value

/-! ### Decoding -/

/-- `BigInt(value.toString())` -/
def bigInt (value : ℤ) : Option ℤ := JsBigInt.ofText? (JsBigInt.text value)

def decodeUtf8 (text : Bytes) : JsString := Utf16.encode (Utf8.decode text)

def decodeHex (bytes : Bytes) : JsString := Utf16.encode (Hex.encode bytes)

def addressText (texts : Texts) : ScAddress → JsString
  | .account ed25519 => texts.encodeEd25519PublicKey ed25519
  | .contract id => texts.encodeContract id
  | .other xdr => texts.address xdr

open JsBigInt (shiftLeft)

mutual

/-- The decoded value; `none` is an exception. -/
def scValToJs (texts : Texts) : ScVal → Option Value
  | .bool value => some (.boolean value)
  | .void => some .null
  | .error error => some (.literal [(js "error", .string (texts.error error))])
  | .u32 value => some (.number value.toNat)
  | .i32 value => some (.number value.toInt)
  | .u64 value | .timepoint value | .duration value => do return .bigint (← bigInt value.toNat)
  | .i64 value => do return .bigint (← bigInt value.toInt)
  | .u128 hi lo => do
      return .bigint (JsBigInt.or (shiftLeft (← bigInt hi.toNat) 64) (← bigInt lo.toNat))
  | .i128 hi lo => do
      return .bigint (JsBigInt.or (shiftLeft (← bigInt hi.toInt) 64) (← bigInt lo.toNat))
  | .u256 hiHi hiLo loHi loLo => do
      return .bigint (JsBigInt.or
        (JsBigInt.or
          (JsBigInt.or (shiftLeft (← bigInt hiHi.toNat) 192) (shiftLeft (← bigInt hiLo.toNat) 128))
          (shiftLeft (← bigInt loHi.toNat) 64))
        (← bigInt loLo.toNat))
  | .i256 hiHi hiLo loHi loLo => do
      return .bigint (JsBigInt.or
        (JsBigInt.or
          (JsBigInt.or (shiftLeft (← bigInt hiHi.toInt) 192) (shiftLeft (← bigInt hiLo.toNat) 128))
          (shiftLeft (← bigInt loHi.toNat) 64))
        (← bigInt loLo.toNat))
  | .bytes bytes => some (.string (decodeHex bytes))
  | .string text | .symbol text => some (.string (decodeUtf8 text))
  | .vec none => some (.array [])
  | .vec (some items) => do return .array (← decodeItems texts items)
  | .map none => some (.literal [])
  | .map (some entries) => decodeEntries texts entries (.literal [])
  | .address address => some (.string (addressText texts address))
  | .contractInstance => some (.literal [(js "type", .string (js "contractInstance"))])
  | .ledgerKeyContractInstance =>
    some (.literal [(js "type", .string (js "ledgerKeyContractInstance"))])
  | .ledgerKeyNonce nonce => do
      return .literal [(js "type", .string (js "ledgerKeyNonce")),
        (js "nonce", .bigint (← bigInt nonce.toInt))]

def decodeItems (texts : Texts) : List ScVal → Option (List Value)
  | [] => some []
  | item :: rest => do return (← scValToJs texts item) :: (← decodeItems texts rest)

def decodeEntries (texts : Texts) : List (ScVal × ScVal) → Value → Option Value
  | [], obj => some obj
  | (key, val) :: rest, obj => do
      let name ← (← scValToJs texts key).text texts
      let value ← scValToJs texts val
      decodeEntries texts rest (obj.setProperty name value)

end

/-! ### Meaning -/

namespace ScVal

def integer? : ScVal → Option ℤ
  | .u32 value => some value.toNat
  | .i32 value => some value.toInt
  | .u64 value | .timepoint value | .duration value => some value.toNat
  | .i64 value => some value.toInt
  | .u128 hi lo => some (hi.toBitVec ++ lo.toBitVec).toNat
  | .i128 hi lo => some (hi.toBitVec ++ lo.toBitVec).toInt
  | .u256 hiHi hiLo loHi loLo =>
    some (hiHi.toBitVec ++ hiLo.toBitVec ++ loHi.toBitVec ++ loLo.toBitVec).toNat
  | .i256 hiHi hiLo loHi loLo =>
    some (hiHi.toBitVec ++ hiLo.toBitVec ++ loHi.toBitVec ++ loLo.toBitVec).toInt
  | _ => none

def isVoid : ScVal → Bool
  | .void => true
  | _ => false

mutual

/-- The property that a key names; `none` for a key that cannot be a text. -/
def propertyName (texts : Texts) : ScVal → Option JsString
  | .bool value => some (js (if value then "true" else "false"))
  | .void => some (js "null")
  | .bytes octets => some (decodeHex octets)
  | .string text | .symbol text => some (decodeUtf8 text)
  | .vec items =>
    match items with
    | none => some []
    | some items => do return [Value.comma].intercalate (← itemNames texts items)
  | .map entries =>
    match entries with
    | none => some (js "[object Object]")
    | some entries =>
      if some (js "toString") ∈ keyNames texts entries then none
      else some (js "[object Object]")
  | .address addr => some (addressText texts addr)
  | .error _ | .contractInstance | .ledgerKeyContractInstance | .ledgerKeyNonce _ =>
    some (js "[object Object]")
  | value => value.integer?.map JsBigInt.text

def itemNames (texts : Texts) : List ScVal → Option (List JsString)
  | [] => some []
  | item :: rest => do
      let first ← if item.isVoid then some [] else propertyName texts item
      return first :: (← itemNames texts rest)

def keyNames (texts : Texts) : List (ScVal × ScVal) → List (Option JsString)
  | [] => []
  | (key, _) :: rest => propertyName texts key :: keyNames texts rest

end

def children : ScVal → List ScVal
  | .vec (some items) => items
  | .map (some entries) => entries.flatMap fun entry => [entry.1, entry.2]
  | _ => []

inductive Within : ScVal → ScVal → Prop
  | here (value : ScVal) : Within value value
  | deeper {part child value : ScVal} (listed : child ∈ value.children)
      (within : Within part child) : Within part value

end ScVal

open ScVal (Within)

def Value.integer? : Value → Option ℤ
  | .number value | .bigint value => some value
  | _ => none

/-- A map becomes an object with one own property for each entry, with the value of the entry; an
integer becomes the number that it is. -/
def DecodesExactly (texts : Texts) : ScVal → Prop
  | .map entries => ∃ members prototype,
      scValToJs texts (.map entries) = some (.object members prototype) ∧
        List.Forall₂ (fun entry member => scValToJs texts entry.2 = some member.2)
          (entries.getD []) members
  | value => ∀ number, value.integer? = some number →
      (scValToJs texts value).bind Value.integer? = some number

/-- The keys of a map name properties, all different, and none `__proto__`. -/
def NamesApart (texts : Texts) : ScVal → Prop
  | .map (some entries) => none ∉ ScVal.keyNames texts entries ∧
      some Value.protoName ∉ ScVal.keyNames texts entries ∧
        (ScVal.keyNames texts entries).Nodup
  | _ => True

def KeysDistinct : ScVal → Prop
  | .map (some entries) => (entries.map Prod.fst).Nodup
  | _ => True

def Lossless (texts : Texts) (value : ScVal) : Prop :=
  ∀ part, Within part value → DecodesExactly texts part

/-! ### Integers -/

theorem bigInt_eq (value : ℤ) : bigInt value = some value := JsBigInt.ofText?_text value

theorem u64_lt (value : UInt64) : value.toNat < 2 ^ 64 := value.toNat_lt

theorem or_limb (high : ℤ) (limb : UInt64) :
    JsBigInt.or (shiftLeft high 64) limb.toNat = high * 2 ^ 64 + limb.toNat :=
  JsBigInt.or_shiftLeft high (u64_lt limb)

theorem or_shifted_limb (high : ℤ) (limb : UInt64) (places : ℕ) :
    JsBigInt.or (shiftLeft high (64 + places)) (shiftLeft limb.toNat places) =
      shiftLeft (high * 2 ^ 64 + limb.toNat) places := by
  have small : limb.toNat * 2 ^ places < 2 ^ (64 + places) := by
    rw [Nat.pow_add]
    exact Nat.mul_lt_mul_of_pos_right (u64_lt limb) (Nat.two_pow_pos places)
  have written : shiftLeft (limb.toNat : ℤ) places = ((limb.toNat * 2 ^ places : ℕ) : ℤ) := by
    rw [shiftLeft, Nat.cast_mul, Nat.cast_pow, Nat.cast_ofNat]
  rw [written, JsBigInt.or_shiftLeft high small, shiftLeft, Nat.cast_mul, Nat.cast_pow,
    Nat.cast_ofNat]
  ring

theorem or_limbs (first : ℤ) (second third fourth : UInt64) :
    JsBigInt.or
        (JsBigInt.or (JsBigInt.or (shiftLeft first 192) (shiftLeft second.toNat 128))
          (shiftLeft third.toNat 64))
        fourth.toNat =
      ((first * 2 ^ 64 + second.toNat) * 2 ^ 64 + third.toNat) * 2 ^ 64 + fourth.toNat := by
  rw [or_shifted_limb first second 128, or_shifted_limb _ third 64, or_limb]

theorem toInt_append {width : ℕ} (positive : 0 < width) (high : BitVec width) (limb : UInt64) :
    (high ++ limb.toBitVec).toInt = high.toInt * 2 ^ 64 + limb.toNat := by
  have wide : (width == 0) = false := beq_false_of_ne positive.ne'
  rw [BitVec.toInt_append, wide, Int.mul_comm]
  rfl

theorem toNat_append {width : ℕ} (high : BitVec width) (limb : UInt64) :
    (high ++ limb.toBitVec).toNat = high.toNat * 2 ^ 64 + limb.toNat := by
  rw [BitVec.toNat_append, Nat.shiftLeft_eq, Nat.mul_comm]
  exact (Nat.two_pow_add_eq_or_of_lt (u64_lt limb) _).symm

theorem scValToJs_integer (texts : Texts) {value : ScVal} {number : ℤ}
    (integer : value.integer? = some number) :
    (scValToJs texts value).bind Value.integer? = some number := by
  cases value with
  | u32 value => exact integer
  | i32 value => exact integer
  | u64 value | timepoint value | duration value | i64 value =>
    rw [scValToJs, bigInt_eq]
    exact integer
  | u128 hi lo =>
    have whole : (hi.toBitVec ++ lo.toBitVec).toNat = hi.toNat * 2 ^ 64 + lo.toNat :=
      toNat_append hi.toBitVec lo
    rw [scValToJs, bigInt_eq, bigInt_eq, ← integer, ScVal.integer?, whole]
    show some (JsBigInt.or (shiftLeft hi.toNat 64) lo.toNat) = _
    rw [or_limb]
    push_cast
    rfl
  | i128 hi lo =>
    have whole : (hi.toBitVec ++ lo.toBitVec).toInt = hi.toInt * 2 ^ 64 + lo.toNat :=
      toInt_append (by decide) hi.toBitVec lo
    rw [scValToJs, bigInt_eq, bigInt_eq, ← integer, ScVal.integer?, whole]
    show some (JsBigInt.or (shiftLeft hi.toInt 64) lo.toNat) = _
    rw [or_limb]
  | u256 hiHi hiLo loHi loLo =>
    rw [scValToJs, bigInt_eq, bigInt_eq, bigInt_eq, bigInt_eq, ← integer, ScVal.integer?,
      toNat_append, toNat_append, toNat_append]
    show some (JsBigInt.or
      (JsBigInt.or (JsBigInt.or (shiftLeft hiHi.toNat 192) (shiftLeft hiLo.toNat 128))
        (shiftLeft loHi.toNat 64)) loLo.toNat) = _
    rw [or_limbs]
    push_cast
    rfl
  | i256 hiHi hiLo loHi loLo =>
    rw [scValToJs, bigInt_eq, bigInt_eq, bigInt_eq, bigInt_eq, ← integer, ScVal.integer?,
      toInt_append (by decide), toInt_append (by decide), toInt_append (by decide)]
    show some (JsBigInt.or
      (JsBigInt.or (JsBigInt.or (shiftLeft hiHi.toInt 192) (shiftLeft hiLo.toNat 128))
        (shiftLeft loHi.toNat 64)) loLo.toNat) = _
    rw [or_limbs]
    rfl
  | _ => exact absurd integer (by simp [ScVal.integer?])

/-! ### Properties that are set in turn -/

namespace Value

def setAll (pairs : List (JsString × Value)) : Value :=
  pairs.foldl (fun obj pair => obj.setProperty pair.1 pair.2) (literal [])

theorem setAll_concat (pairs : List (JsString × Value)) (last : JsString × Value) :
    setAll (pairs ++ [last]) = (setAll pairs).setProperty last.1 last.2 := by
  rw [setAll, List.foldl_append]
  rfl

/-- Names that are all different, and none `__proto__`. -/
def Apart (wanted : List JsString) : Prop := wanted.Nodup ∧ protoName ∉ wanted

theorem apart_concat {wanted : List JsString} {last : JsString} :
    Apart (wanted ++ [last]) ↔ Apart wanted ∧ last ∉ wanted ∧ last ≠ protoName := by
  rw [Apart, Apart, List.nodup_append, List.mem_append, List.mem_singleton, not_or]
  constructor
  · rintro ⟨⟨distinct, -, differ⟩, missing, noLast⟩
    exact ⟨⟨distinct, missing⟩, fun listed => differ last listed last (List.mem_singleton_self _) rfl,
      Ne.symm noLast⟩
  · rintro ⟨⟨distinct, missing⟩, fresh, noLast⟩
    refine ⟨⟨distinct, List.nodup_singleton _, ?_⟩, missing, Ne.symm noLast⟩
    intro name listed other single same
    cases List.mem_singleton.mp single
    exact fresh (same ▸ listed)

theorem setProperty_fresh {members : List (JsString × Value)} {name : JsString} (value : Value)
    (fresh : name ∉ names members) (ordinary : name ≠ protoName) :
    (literal members).setProperty name value = literal (members ++ [(name, value)]) := by
  rw [literal, setProperty, if_neg fresh, if_neg fun both => ordinary both.1]
  rfl

theorem setAll_of_apart {pairs : List (JsString × Value)} (apart : Apart (names pairs)) :
    setAll pairs = literal pairs := by
  induction pairs using List.reverseRecOn with
  | nil => rfl
  | append_singleton pairs last ih =>
    have split : names (pairs ++ [last]) = names pairs ++ [last.1] := List.map_append
    rw [split, apart_concat] at apart
    rw [setAll_concat, ih apart.1,
      setProperty_fresh last.2 apart.2.1 apart.2.2]

theorem setProperty_members {members : List (JsString × Value)} {prototype : Value}
    (name : JsString) (value : Value) :
    ∃ after replaced, (object members prototype).setProperty name value = object after replaced ∧
      after.length ≤ members.length + 1 ∧
      (after.length = members.length + 1 →
        name ∉ names members ∧ (prototype = objectPrototype → name ≠ protoName)) := by
  by_cases owned : name ∈ names members
  · refine ⟨_, _, by rw [setProperty, if_pos owned], ?_, ?_⟩
    · rw [List.length_map]
      exact Nat.le_succ _
    · rw [List.length_map]
      exact fun longer => absurd longer (Nat.ne_of_lt (Nat.lt_succ_self _))
  · by_cases setter : name = protoName ∧ prototype.inheritsSetter = true
    · refine ⟨_, _, by rw [setProperty, if_neg owned, if_pos setter], Nat.le_succ _, ?_⟩
      exact fun longer => absurd longer (Nat.ne_of_lt (Nat.lt_succ_self _))
    · refine ⟨_, _, by rw [setProperty, if_neg owned, if_neg setter], ?_, fun _ => ⟨owned, ?_⟩⟩
      · exact le_of_eq (List.length_append ..)
      · intro standard same
        rw [standard] at setter
        exact setter ⟨same, rfl⟩

theorem setAll_members (pairs : List (JsString × Value)) :
    ∃ members prototype, setAll pairs = object members prototype ∧
      members.length ≤ pairs.length ∧ (members.length = pairs.length → Apart (names pairs)) := by
  induction pairs using List.reverseRecOn with
  | nil => exact ⟨[], objectPrototype, rfl, le_refl _, fun _ => ⟨List.nodup_nil, List.not_mem_nil⟩⟩
  | append_singleton pairs last ih =>
    obtain ⟨members, prototype, before, few, whole⟩ := ih
    obtain ⟨after, replaced, made, oneMore, fresh⟩ :=
      @setProperty_members members prototype last.1 last.2
    have count : (pairs ++ [last]).length = pairs.length + 1 := List.length_append
    refine ⟨after, replaced, by rw [setAll_concat, before, made], by omega, ?_⟩
    intro longest
    have full : members.length = pairs.length := by omega
    have apart := whole full
    have standard : object members prototype = literal pairs := by
      rw [← before, setAll_of_apart apart]
    injection standard with sameMembers samePrototype
    have split : names (pairs ++ [last]) = names pairs ++ [last.1] := List.map_append
    have outside := fresh (by omega)
    rw [sameMembers] at outside
    rw [split, apart_concat]
    exact ⟨apart, outside.1, outside.2 samePrototype⟩

end Value

/-! ### Keys and entries -/

theorem ScVal.induct {P : ScVal → Prop}
    (step : ∀ value, (∀ child ∈ value.children, P child) → P value) (value : ScVal) : P value := by
  induction size : sizeOf value using Nat.strong_induction_on generalizing value with
  | _ bound ih =>
    apply step
    intro child listed
    refine ih (sizeOf child) ?_ child rfl
    rw [← size]
    cases value with
    | vec items =>
      cases items with
      | none => exact absurd listed List.not_mem_nil
      | some items =>
        have smaller := List.sizeOf_lt_of_mem (show child ∈ items from listed)
        simp only [ScVal.vec.sizeOf_spec, Option.some.sizeOf_spec]
        omega
    | map entries =>
      cases entries with
      | none => exact absurd listed List.not_mem_nil
      | some entries =>
        obtain ⟨entry, member, either⟩ := List.mem_flatMap.mp listed
        have smaller := List.sizeOf_lt_of_mem member
        obtain ⟨key, val⟩ := entry
        simp only [Prod.mk.sizeOf_spec] at smaller
        simp only [ScVal.map.sizeOf_spec, Option.some.sizeOf_spec]
        have named : child = key ∨ child = val := by simpa using either
        cases named with
        | inl same => rw [same]; omega
        | inr same => rw [same]; omega
    | _ => exact absurd listed List.not_mem_nil

def Asks (texts : Texts) (entry : ScVal × ScVal) (pair : JsString × Value) : Prop :=
  (∃ key, scValToJs texts entry.1 = some key ∧ key.text texts = some pair.1) ∧
    scValToJs texts entry.2 = some pair.2

theorem decodeEntries_iff (texts : Texts) (entries : List (ScVal × ScVal)) :
    ∀ obj result, decodeEntries texts entries obj = some result ↔
      ∃ pairs, List.Forall₂ (Asks texts) entries pairs ∧
        result = pairs.foldl (fun obj pair => obj.setProperty pair.1 pair.2) obj := by
  induction entries with
  | nil =>
    intro obj result
    constructor
    · intro same
      exact ⟨[], .nil, (Option.some.inj same).symm⟩
    · rintro ⟨pairs, asked, rfl⟩
      cases asked
      rfl
  | cons entry rest ih =>
    intro obj result
    rw [decodeEntries]
    constructor
    · intro decoded
      obtain ⟨key, decodes, decoded⟩ := Option.bind_eq_some_iff.mp decoded
      obtain ⟨name, named, decoded⟩ := Option.bind_eq_some_iff.mp decoded
      obtain ⟨value, valued, decoded⟩ := Option.bind_eq_some_iff.mp decoded
      obtain ⟨pairs, asked, rfl⟩ := (ih _ _).mp decoded
      exact ⟨(name, value) :: pairs, .cons ⟨⟨key, decodes, named⟩, valued⟩ asked, rfl⟩
    · rintro ⟨pairs, asked, rfl⟩
      cases asked with
      | @cons _ pair _ pairs first asked =>
        obtain ⟨⟨key, decodes, named⟩, valued⟩ := first
        have others := (ih (obj.setProperty pair.1 pair.2) _).mpr
          ⟨pairs, asked, rfl⟩
        rw [decodes, Option.bind_eq_bind, Option.bind_some, named, Option.bind_eq_bind,
          Option.bind_some, valued]
        exact others

theorem decodes_map_iff {texts : Texts} {entries : List (ScVal × ScVal)} {result : Value} :
    scValToJs texts (.map (some entries)) = some result ↔
      ∃ pairs, List.Forall₂ (Asks texts) entries pairs ∧ result = Value.setAll pairs :=
  decodeEntries_iff texts entries (.literal []) result

def Clean (texts : Texts) (value : ScVal) : Prop :=
  ∀ part, Within part value → NamesApart texts part

theorem Clean.child {texts : Texts} {value child : ScVal} (clean : Clean texts value)
    (listed : child ∈ value.children) : Clean texts child :=
  fun part within => clean part (.deeper listed within)

def Reads (texts : Texts) (value : ScVal) : Prop :=
  ∃ decoded, scValToJs texts value = some decoded ∧
    decoded.text texts = value.propertyName texts ∧ decoded.isNull = value.isVoid

theorem itemTexts_of_reads {texts : Texts} {items : List ScVal}
    (reads : ∀ item ∈ items, Reads texts item) :
    ∃ decoded, decodeItems texts items = some decoded ∧
      Value.itemTexts texts decoded = ScVal.itemNames texts items := by
  induction items with
  | nil => exact ⟨[], rfl, rfl⟩
  | cons item rest ih =>
    obtain ⟨first, decodes, written, blank⟩ := reads item List.mem_cons_self
    obtain ⟨others, decodesRest, writtenRest⟩ :=
      ih fun other listed => reads other (List.mem_cons_of_mem item listed)
    refine ⟨first :: others, ?_, ?_⟩
    · rw [decodeItems, decodes, decodesRest]
      rfl
    · rw [Value.itemTexts, ScVal.itemNames, written, blank, writtenRest]

theorem names_of_asks {texts : Texts} {entries : List (ScVal × ScVal)}
    {pairs : List (JsString × Value)} (asked : List.Forall₂ (Asks texts) entries pairs)
    (reads : ∀ entry ∈ entries, Reads texts entry.1) :
    ScVal.keyNames texts entries = (Value.names pairs).map some := by
  induction asked with
  | nil => rfl
  | @cons entry pair entries pairs first _ ih =>
    obtain ⟨key, decodes, written⟩ := first.1
    obtain ⟨decoded, decodes', written', -⟩ := reads entry List.mem_cons_self
    rw [decodes, Option.some_inj] at decodes'
    rw [← decodes', written] at written'
    rw [ScVal.keyNames, ← written',
      ih fun other listed => reads other (List.mem_cons_of_mem entry listed)]
    rfl

theorem asks_of_names {texts : Texts} {entries : List (ScVal × ScVal)}
    (keys : ∀ entry ∈ entries, Reads texts entry.1)
    (values : ∀ entry ∈ entries, Reads texts entry.2)
    (named : none ∉ ScVal.keyNames texts entries) :
    ∃ pairs, List.Forall₂ (Asks texts) entries pairs := by
  induction entries with
  | nil => exact ⟨[], .nil⟩
  | cons entry rest ih =>
    rw [ScVal.keyNames, List.mem_cons, not_or] at named
    obtain ⟨pairs, asked⟩ := ih
      (fun other listed => keys other (List.mem_cons_of_mem entry listed))
      (fun other listed => values other (List.mem_cons_of_mem entry listed)) named.2
    obtain ⟨key, decodes, written, -⟩ := keys entry List.mem_cons_self
    obtain ⟨value, valued, -⟩ := values entry List.mem_cons_self
    obtain ⟨name, spelled⟩ := Option.ne_none_iff_exists'.mp (Ne.symm named.1)
    exact ⟨(name, value) :: pairs, .cons ⟨⟨key, decodes, written.trans spelled⟩, valued⟩ asked⟩

theorem apart_iff_namesApart {texts : Texts} {entries : List (ScVal × ScVal)}
    {wanted : List JsString} (same : ScVal.keyNames texts entries = wanted.map some) :
    NamesApart texts (.map (some entries)) ↔ Value.Apart wanted := by
  rw [NamesApart, same, List.nodup_map_iff (Option.some_injective _),
    List.mem_map_of_injective (Option.some_injective _)]
  constructor
  · exact fun named => ⟨named.2.2, named.2.1⟩
  · exact fun apart => ⟨by simp, apart.2, apart.1⟩

theorem key_mem_children {entries : List (ScVal × ScVal)} {entry : ScVal × ScVal}
    (listed : entry ∈ entries) : entry.1 ∈ (ScVal.map (some entries)).children :=
  List.mem_flatMap.mpr ⟨entry, listed, List.mem_cons_self⟩

theorem value_mem_children {entries : List (ScVal × ScVal)} {entry : ScVal × ScVal}
    (listed : entry ∈ entries) : entry.2 ∈ (ScVal.map (some entries)).children :=
  List.mem_flatMap.mpr ⟨entry, listed, List.mem_cons_of_mem _ List.mem_cons_self⟩

theorem decodes_map_of_apart {texts : Texts} {entries : List (ScVal × ScVal)}
    (reads : ∀ child ∈ (ScVal.map (some entries)).children, Reads texts child)
    (apart : NamesApart texts (.map (some entries))) :
    ∃ pairs, scValToJs texts (.map (some entries)) = some (.literal pairs) ∧
      List.Forall₂ (Asks texts) entries pairs ∧
        ScVal.keyNames texts entries = (Value.names pairs).map some := by
  obtain ⟨pairs, asked⟩ := asks_of_names
    (fun entry listed => reads entry.1 (key_mem_children listed))
    (fun entry listed => reads entry.2 (value_mem_children listed)) apart.1
  have named := names_of_asks asked fun entry listed => reads entry.1 (key_mem_children listed)
  have distinct := (apart_iff_namesApart named).mp apart
  exact ⟨pairs, decodes_map_iff.mpr ⟨pairs, asked, (Value.setAll_of_apart distinct).symm⟩, asked,
    named⟩

theorem propertyName_integer {texts : Texts} {value : ScVal} {number : ℤ}
    (integer : value.integer? = some number) :
    value.propertyName texts = some (JsBigInt.text number) ∧ value.isVoid = false := by
  cases value with
  | u32 | i32 | u64 | i64 | timepoint | duration | u128 | i128 | u256 | i256 =>
    exact ⟨congrArg (Option.map JsBigInt.text) integer, rfl⟩
  | _ => exact absurd integer (by simp [ScVal.integer?])

theorem reads_of_integer {texts : Texts} {value : ScVal} {number : ℤ}
    (integer : value.integer? = some number) : Reads texts value := by
  obtain ⟨decoded, decodes, exact⟩ := Option.bind_eq_some_iff.mp (scValToJs_integer texts integer)
  obtain ⟨named, solid⟩ := @propertyName_integer texts _ _ integer
  refine ⟨decoded, decodes, ?_, ?_⟩
  · rw [named]
    cases decoded with
    | number value | bigint value =>
      rw [← Option.some.inj exact]
      rfl
    | _ => exact absurd exact (by simp [Value.integer?])
  · rw [solid]
    cases decoded with
    | null => exact absurd exact (by simp [Value.integer?])
    | _ => rfl

theorem text_literal_of_ordinary {texts : Texts} {members : List (JsString × Value)}
    (ordinary : js "toString" ∉ Value.names members) :
    (Value.literal members).text texts = some (js "[object Object]") := by
  rw [Value.literal, Value.text, if_neg ordinary]

theorem reads_of_clean {texts : Texts} (value : ScVal) : Clean texts value → Reads texts value := by
  induction value using ScVal.induct with
  | step value ih =>
    intro clean
    have reads (child : ScVal) (listed : child ∈ value.children) : Reads texts child :=
      ih child listed (clean.child listed)
    cases value with
    | vec items =>
      cases items with
      | none => exact ⟨.array [], by rw [scValToJs], rfl, rfl⟩
      | some items =>
        obtain ⟨decoded, decodes, written⟩ := @itemTexts_of_reads texts items reads
        refine ⟨.array decoded, ?_, ?_, rfl⟩
        · rw [scValToJs, decodes]
          rfl
        · rw [Value.text, written, ScVal.propertyName]
    | map entries =>
      cases entries with
      | none => exact ⟨.literal [], by rw [scValToJs], rfl, rfl⟩
      | some entries =>
        obtain ⟨pairs, decodes, -, named⟩ :=
          decodes_map_of_apart reads (clean _ (.here _))
        refine ⟨.literal pairs, decodes, ?_, rfl⟩
        have same : some (js "toString") ∈ (Value.names pairs).map some ↔
            js "toString" ∈ Value.names pairs :=
          List.mem_map_of_injective (Option.some_injective _)
        rw [Value.literal, Value.text, ScVal.propertyName, named]
        simp only [same]
    | u32 | i32 | u64 | i64 | timepoint | duration | u128 | i128 | u256 | i256 =>
      exact reads_of_integer rfl
    | ledgerKeyNonce nonce =>
      have ordinary : js "toString" ∉ [js "type", js "nonce"] := by decide
      refine ⟨_, by rw [scValToJs, bigInt_eq]; rfl, ?_, rfl⟩
      exact text_literal_of_ordinary ordinary
    | error error =>
      have ordinary : js "toString" ∉ [js "error"] := by decide
      refine ⟨_, by rw [scValToJs], ?_, rfl⟩
      exact text_literal_of_ordinary ordinary
    | contractInstance | ledgerKeyContractInstance =>
      exact ⟨_, by rw [scValToJs], text_literal_of_ordinary (by decide), rfl⟩
    | bool | void | bytes | string | symbol | address =>
      exact ⟨_, by rw [scValToJs], rfl, rfl⟩

/-! ### What is lost -/

theorem namesApart_of_exact {texts : Texts} {value : ScVal}
    (reads : ∀ child ∈ value.children, Reads texts child) (exact : DecodesExactly texts value) :
    NamesApart texts value := by
  cases value with
  | map entries =>
    cases entries with
    | none => trivial
    | some entries =>
      obtain ⟨members, prototype, decodes, valued⟩ := exact
      obtain ⟨pairs, asked, made⟩ := decodes_map_iff.mp decodes
      have named := names_of_asks asked fun entry listed =>
        reads entry.1 (key_mem_children listed)
      obtain ⟨others, replaced, same, -, whole⟩ := Value.setAll_members pairs
      rw [same] at made
      injection made with sameMembers
      have count : others.length = pairs.length := by
        rw [← sameMembers, ← valued.length_eq, ← asked.length_eq]
        rfl
      exact (apart_iff_namesApart named).mpr (whole count)
  | _ => trivial

theorem exact_of_namesApart {texts : Texts} {value : ScVal}
    (reads : ∀ child ∈ value.children, Reads texts child) (apart : NamesApart texts value) :
    DecodesExactly texts value := by
  cases value with
  | map entries =>
    cases entries with
    | none => exact ⟨[], .objectPrototype, by rw [scValToJs]; rfl, .nil⟩
    | some entries =>
      obtain ⟨pairs, decodes, asked, -⟩ := decodes_map_of_apart reads apart
      exact ⟨pairs, .objectPrototype, decodes, asked.imp fun _ _ both => both.2⟩
  | _ => exact fun number integer => scValToJs_integer texts integer

/-- Nothing is lost of a value exactly if the keys of every map within it name properties, all
different, and none `__proto__`. -/
theorem lossless_iff (texts : Texts) (value : ScVal) :
    Lossless texts value ↔ ∀ part, Within part value → NamesApart texts part := by
  constructor
  · intro lossless
    induction value using ScVal.induct with
    | step value ih =>
      have reads (child : ScVal) (listed : child ∈ value.children) : Reads texts child :=
        reads_of_clean child (ih child listed fun part within =>
          lossless part (.deeper listed within))
      intro part within
      cases within with
      | here => exact namesApart_of_exact reads (lossless _ (.here _))
      | deeper listed within =>
        exact ih _ listed
          (fun part within => lossless part (.deeper listed within)) part within
  · intro clean part within
    have inside : Clean texts part := by
      induction within with
      | here => exact clean
      | deeper listed _ ih =>
        exact ih fun part within => clean part (.deeper listed within)
    exact exact_of_namesApart
      (fun child listed => reads_of_clean child (inside.child listed)) (inside _ (.here _))

def symbolAndString : ScVal := .map (some [(.symbol [97], .void), (.string [97], .bool true)])

theorem symbolAndString_lost :
    (∀ part, Within part symbolAndString → KeysDistinct part) ∧
      ∀ texts, ¬ Lossless texts symbolAndString := by
  constructor
  · intro part within
    cases within with
    | here => exact List.nodup_cons.mpr ⟨by simp, List.nodup_singleton _⟩
    | deeper listed within =>
      simp only [symbolAndString, ScVal.children, List.flatMap_cons, List.flatMap_nil,
        List.append_nil, List.mem_append, List.mem_cons, List.not_mem_nil, or_false] at listed
      obtain (rfl | rfl) | rfl | rfl := listed <;>
        cases within with
        | here => trivial
        | deeper listed _ => exact absurd listed List.not_mem_nil
  · intro texts lossless
    have apart := (lossless_iff texts symbolAndString).mp lossless symbolAndString (.here _)
    exact (List.nodup_cons.mp apart.2.2).1 List.mem_cons_self

end SorobanExplorer.Indexer.ScValDecoding
