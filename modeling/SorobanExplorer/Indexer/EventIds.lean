import SorobanExplorer.Filters.JsValue
import SorobanExplorer.Library.DecimalText

/-!
Owns the canonical event ids: the packed position of an operation, its text with the index of the
event, reading such a text back, and the order of the texts against the order of the chain.
-/

namespace SorobanExplorer.Indexer.EventIds

open Library Library.JsNumeric Filters

/-! ### Writing -/

/-- The message of a `RangeError`. -/
abbrev RangeError := String

/-- `Number.isInteger(number)` -/
def isInteger : JsNumeric → Bool
  | none => false
  | some number => number.isFinite && number.value.den == 1

/-- `BigInt(number)` of an integer that is not negative. -/
def bigInt (number : JsNumeric) : ℕ := (number.elim 0 JsNumber.value).num.toNat

/-- The check of a field that has `limit` as its last value. -/
def outOfRange (limit : ℕ) (number : JsNumeric) : Bool :=
  !isInteger number || gt (ofNat 0) number || gt number (ofNat limit)

def toid (ledger txOrder opIndex : JsNumeric) : Except RangeError ℕ :=
  if outOfRange 0x7fffffff ledger then throw "ledger out of range"
  else if outOfRange 0xfffff txOrder then throw "transaction order out of range"
  else if outOfRange 0xfff opIndex then throw "operation index out of range"
  else return bigInt ledger <<< 32 ||| bigInt txOrder <<< 12 ||| bigInt opIndex

/-- `-` -/
def dash : UInt16 := 45

/-- `String(number)` -/
def numberText : JsNumeric → JsString
  | none => js "NaN"
  | some number => Utf16.encode number.text

def formatEventId (toidValue : ℕ) (eventIndex : JsNumeric) : Except RangeError JsString :=
  if !isInteger eventIndex || gt (ofNat 0) eventIndex then throw "event index out of range"
  else return List.leftpad 19 (Digit.unit 0) (Digit.units (Digit.ofNat toidValue)) ++
    dash :: List.leftpad 10 (Digit.unit 0) (numberText eventIndex)

/-! ### Reading -/

structure Position where
  ledger : JsNumeric
  txOrder : JsNumeric
  opIndex : JsNumeric
  eventIndex : JsNumeric
deriving DecidableEq

/-- `\d` -/
def isDigit (unit : UInt16) : Bool := (Digit.ofUnit? unit).isSome

/-- `/^\d{19}-\d{10}$/.test(id)` -/
def eventIdRe (id : JsString) : Bool :=
  id.length == 30 && (id.take 19).all isDigit && id[19]? == some dash && (id.drop 20).all isDigit

def digitsValue (text : JsString) : ℕ := Digit.number (text.filterMap Digit.ofUnit?)

def parseEventId (id : JsString) : Option Position :=
  if !eventIdRe id then none
  else
    match id.splitOn dash with
    | t :: idx :: _ =>
      let value := digitsValue t
      some {
        ledger := ofNat (value >>> 32)
        txOrder := ofNat (value >>> 12 &&& 0xfffff)
        opIndex := ofNat (value &&& 0xfff)
        eventIndex := ofNat (digitsValue idx)
      }
    | _ => none

/-- The id of a position: `formatEventId(toid(ledger, txOrder, opIndex), eventIndex)`. -/
def eventId (position : Position) : Except RangeError JsString := do
  formatEventId (← toid position.ledger position.txOrder position.opIndex) position.eventIndex

structure RpcEvent where
  id : Option JsString
  ledger : Option JsNumeric
  txOrder : Option JsNumeric
  opIndex : Option JsNumeric
  eventIndex : Option JsNumeric

def eventIdFromRpc (event : RpcEvent) : Except RangeError (Option JsString) :=
  match event.id.filter eventIdRe with
  | some id => return some id
  | none =>
    match event.ledger.filter isInteger, event.txOrder.filter isInteger,
      event.eventIndex.filter isInteger with
    | some ledger, some txOrder, some eventIndex =>
      some <$> eventId ⟨ledger, txOrder, event.opIndex.getD (ofNat 0), eventIndex⟩
    | _, _, _ => return none

/-! ### Fields -/

theorem isInteger_ofNat {value : ℕ} (small : value ≤ 2 ^ 53) : isInteger (ofNat value) = true := by
  rw [ofNat, isInteger, JsNumber.isFinite_ofNat small, JsNumber.ofNat_value small]
  rfl

theorem gt_ofNat {left right : ℕ} (leftSmall : left ≤ 2 ^ 53) (rightSmall : right ≤ 2 ^ 53) :
    gt (ofNat left) (ofNat right) = decide (right < left) := by
  rw [ofNat, ofNat, gt, JsNumber.ofNat_value leftSmall, JsNumber.ofNat_value rightSmall]
  exact decide_eq_decide.mpr Nat.cast_lt

theorem bigInt_ofNat {value : ℕ} (small : value ≤ 2 ^ 53) : bigInt (ofNat value) = value := by
  show (JsNumber.ofNat value).value.num.toNat = value
  rw [JsNumber.ofNat_value small]
  rfl

theorem outOfRange_ofNat {limit value : ℕ} (limitSmall : limit ≤ 2 ^ 53)
    (small : value ≤ 2 ^ 53) : outOfRange limit (ofNat value) = decide (limit < value) := by
  rw [outOfRange, isInteger_ofNat small, gt_ofNat (by omega) small, gt_ofNat small limitSmall]
  simp

theorem exists_natCast {number : JsNumeric} (integer : isInteger number = true)
    (nonneg : gt (ofNat 0) number = false) :
    ∃ whole : JsNumber, number = some whole ∧ ∃ value : ℕ, whole.value = value := by
  cases number with
  | none => cases integer
  | some whole =>
    rw [isInteger, Bool.and_eq_true, beq_iff_eq] at integer
    rw [ofNat, gt, JsNumber.ofNat_value (by decide), decide_eq_false_iff_not, not_lt] at nonneg
    have sign : 0 ≤ whole.value.num := Rat.num_nonneg.mpr (by exact_mod_cast nonneg)
    refine ⟨whole, rfl, whole.value.num.toNat, ?_⟩
    have spelled : (whole.value.num : ℚ) = whole.value := by
      exact Rat.coe_int_num_of_den_eq_one integer.2
    rw [← spelled]
    exact_mod_cast (Int.toNat_of_nonneg sign).symm

theorem exists_ofNat {limit : ℕ} (limitSmall : limit ≤ 2 ^ 53) {number : JsNumeric}
    (within : outOfRange limit number = false) : ∃ value ≤ limit, number = ofNat value := by
  rw [outOfRange, Bool.or_eq_false_iff, Bool.or_eq_false_iff, Bool.not_eq_false'] at within
  obtain ⟨⟨integer, nonneg⟩, bounded⟩ := within
  obtain ⟨whole, rfl, value, holds⟩ := exists_natCast integer nonneg
  rw [ofNat, gt, JsNumber.ofNat_value limitSmall, holds, decide_eq_false_iff_not, not_lt] at bounded
  have le : value ≤ limit := by exact_mod_cast bounded
  exact ⟨value, le, ofNat_eq holds (by omega)⟩

/-! ### The packed position -/

def packed (ledger txOrder opIndex : ℕ) : ℕ := ledger * 2 ^ 32 + txOrder * 2 ^ 12 + opIndex

theorem shifts_eq_packed {ledger txOrder opIndex : ℕ} (orders : txOrder ≤ 0xfffff)
    (operations : opIndex ≤ 0xfff) :
    ledger <<< 32 ||| txOrder <<< 12 ||| opIndex = packed ledger txOrder opIndex := by
  have low : txOrder <<< 12 < 2 ^ 32 := by
    rw [Nat.shiftLeft_eq]
    omega
  have both : ledger <<< 32 ||| txOrder <<< 12 = (ledger * 2 ^ 20 + txOrder) <<< 12 := by
    rw [← Nat.shiftLeft_add_eq_or_of_lt low]
    simp only [Nat.shiftLeft_eq]
    ring
  rw [both, ← Nat.shiftLeft_add_eq_or_of_lt (by omega), Nat.shiftLeft_eq, packed]
  ring

theorem toid_ofNat {ledger txOrder opIndex : ℕ} (ledgers : ledger ≤ 0x7fffffff)
    (orders : txOrder ≤ 0xfffff) (operations : opIndex ≤ 0xfff) :
    toid (ofNat ledger) (ofNat txOrder) (ofNat opIndex) =
      .ok (packed ledger txOrder opIndex) := by
  rw [toid, outOfRange_ofNat (by decide) (by omega), outOfRange_ofNat (by decide) (by omega),
    outOfRange_ofNat (by decide) (by omega), if_neg (by simpa using ledgers),
    if_neg (by simpa using orders), if_neg (by simpa using operations), bigInt_ofNat (by omega),
    bigInt_ofNat (by omega), bigInt_ofNat (by omega), shifts_eq_packed orders operations]
  rfl

theorem toid_ok {ledger txOrder opIndex : JsNumeric} {value : ℕ}
    (packs : toid ledger txOrder opIndex = .ok value) :
    ∃ first ≤ 0x7fffffff, ∃ second ≤ 0xfffff, ∃ third ≤ 0xfff, ledger = ofNat first ∧
      txOrder = ofNat second ∧ opIndex = ofNat third ∧ value = packed first second third := by
  have checks := packs
  unfold toid at checks
  split_ifs at checks with badLedger badOrder badOperation
  obtain ⟨first, firstBound, rfl⟩ :=
    exists_ofNat (by decide) (Bool.eq_false_iff.mpr badLedger)
  obtain ⟨second, secondBound, rfl⟩ :=
    exists_ofNat (by decide) (Bool.eq_false_iff.mpr badOrder)
  obtain ⟨third, thirdBound, rfl⟩ :=
    exists_ofNat (by decide) (Bool.eq_false_iff.mpr badOperation)
  rw [toid_ofNat firstBound secondBound thirdBound] at packs
  cases packs
  exact ⟨first, firstBound, second, secondBound, third, thirdBound, rfl, rfl, rfl, rfl⟩

theorem packed_fields (value : ℕ) :
    packed (value >>> 32) (value >>> 12 &&& 0xfffff) (value &&& 0xfff) = value := by
  have orders : value >>> 12 &&& 0xfffff = value >>> 12 % 2 ^ 20 :=
    Nat.and_two_pow_sub_one_eq_mod _ 20
  have operations : value &&& 0xfff = value % 2 ^ 12 := Nat.and_two_pow_sub_one_eq_mod _ 12
  rw [orders, operations, Nat.shiftRight_eq_div_pow, Nat.shiftRight_eq_div_pow, packed]
  omega

theorem fields_packed {ledger txOrder opIndex : ℕ} (orders : txOrder ≤ 0xfffff)
    (operations : opIndex ≤ 0xfff) :
    packed ledger txOrder opIndex >>> 32 = ledger ∧
      packed ledger txOrder opIndex >>> 12 &&& 0xfffff = txOrder ∧
      packed ledger txOrder opIndex &&& 0xfff = opIndex := by
  have orderField (value : ℕ) : value >>> 12 &&& 0xfffff = value >>> 12 % 2 ^ 20 :=
    Nat.and_two_pow_sub_one_eq_mod _ 20
  have operationField (value : ℕ) : value &&& 0xfff = value % 2 ^ 12 :=
    Nat.and_two_pow_sub_one_eq_mod _ 12
  rw [orderField, operationField, Nat.shiftRight_eq_div_pow, Nat.shiftRight_eq_div_pow, packed]
  refine ⟨?_, ?_, ?_⟩ <;> omega

/-! ### Texts -/

theorem eventIdRe_iff (id : JsString) :
    eventIdRe id = true ↔ ∃ t idx : List Digit, t.length = 19 ∧ idx.length = 10 ∧
      id = Digit.units t ++ dash :: Digit.units idx := by
  have all (text : JsString) : text.all isDigit = true ↔
      ∀ unit ∈ text, (Digit.ofUnit? unit).isSome = true := List.all_eq_true
  have read (digits : List Digit) : (Digit.units digits).all isDigit = true := by
    rw [all]
    intro unit listed
    obtain ⟨digit, -, rfl⟩ := List.mem_map.mp listed
    rw [Digit.ofUnit?_unit]
    rfl
  unfold eventIdRe
  rw [Bool.and_eq_true, Bool.and_eq_true, Bool.and_eq_true, beq_iff_eq, beq_iff_eq]
  constructor
  · rintro ⟨⟨⟨length, first⟩, middle⟩, last⟩
    have split : id = id.take 19 ++ dash :: id.drop 20 := by
      obtain ⟨bound, here⟩ := List.getElem?_eq_some_iff.mp middle
      rw [← here, ← List.drop_eq_getElem_cons bound, List.take_append_drop]
    refine ⟨(id.take 19).filterMap Digit.ofUnit?, (id.drop 20).filterMap Digit.ofUnit?, ?_, ?_, ?_⟩
    · rw [← Digit.units_length, Digit.units_filterMap ((all _).mp first), List.length_take]
      omega
    · rw [← Digit.units_length, Digit.units_filterMap ((all _).mp last), List.length_drop]
      omega
    · rwa [Digit.units_filterMap ((all _).mp first), Digit.units_filterMap ((all _).mp last)]
  · rintro ⟨t, idx, tLength, idxLength, rfl⟩
    have tUnits : (Digit.units t).length = 19 := by rw [Digit.units_length, tLength]
    have idxUnits : (Digit.units idx).length = 10 := by rw [Digit.units_length, idxLength]
    have rest : (Digit.units t ++ dash :: Digit.units idx).drop 20 = Digit.units idx := by
      rw [List.append_cons, List.drop_left' (by simp [tUnits])]
    refine ⟨⟨⟨by simp [tUnits, idxUnits], ?_⟩, ?_⟩, ?_⟩
    · rw [List.take_left' tUnits]
      exact read t
    · rw [List.getElem?_append_right (by omega), tUnits]
      rfl
    · rw [rest]
      exact read idx

theorem dash_notMem_units (digits : List Digit) : dash ∉ Digit.units digits :=
  Digit.notMem_units (by decide) digits

theorem digitsValue_units (digits : List Digit) :
    digitsValue (Digit.units digits) = Digit.number digits := by
  rw [digitsValue, Digit.filterMap_units]

def positionOf (value index : ℕ) : Position where
  ledger := ofNat (value >>> 32)
  txOrder := ofNat (value >>> 12 &&& 0xfffff)
  opIndex := ofNat (value &&& 0xfff)
  eventIndex := ofNat index

theorem parseEventId_units {t idx : List Digit} (tLength : t.length = 19)
    (idxLength : idx.length = 10) :
    parseEventId (Digit.units t ++ dash :: Digit.units idx) =
      some (positionOf (Digit.number t) (Digit.number idx)) := by
  have accepted := (eventIdRe_iff _).mpr ⟨t, idx, tLength, idxLength, rfl⟩
  have parts : (Digit.units t ++ dash :: Digit.units idx).splitOn dash =
      [Digit.units t, Digit.units idx] := by
    rw [List.splitOn_append_cons_self, List.splitOn_eq_singleton (dash_notMem_units t),
      List.splitOn_eq_singleton (dash_notMem_units idx)]
    rfl
  rw [parseEventId, accepted, parts]
  simp only [Bool.not_true, Bool.false_eq_true, if_false, digitsValue_units]
  rfl

theorem parseEventId_some {id : JsString} {position : Position}
    (parses : parseEventId id = some position) :
    ∃ t idx : List Digit, t.length = 19 ∧ idx.length = 10 ∧
      id = Digit.units t ++ dash :: Digit.units idx ∧
      position = positionOf (Digit.number t) (Digit.number idx) := by
  have accepted : eventIdRe id = true := by
    by_contra refused
    rw [parseEventId, if_pos (by simpa using refused)] at parses
    cases parses
  obtain ⟨t, idx, tLength, idxLength, rfl⟩ := (eventIdRe_iff id).mp accepted
  rw [parseEventId_units tLength idxLength] at parses
  exact ⟨t, idx, tLength, idxLength, rfl, (Option.some.inj parses).symm⟩

theorem formatEventId_fits {value index : ℕ} (valueFits : value < 10 ^ 19)
    (indexFits : index < 10 ^ 10) :
    formatEventId value (ofNat index) = .ok (Digit.units (Digit.lastDigits 19 value) ++
      dash :: Digit.units (Digit.lastDigits 10 index)) := by
  have small : index < 2 ^ 53 := lt_trans indexFits (by decide)
  have text : numberText (ofNat index) = Digit.units (Digit.ofNat index) := by
    show Utf16.encode (JsNumber.ofNat index).text = _
    rw [JsNumber.text_ofNat small, Digit.encode_chars]
  rw [formatEventId, isInteger_ofNat small.le, gt_ofNat (by decide) small.le]
  simp only [Bool.not_true, Bool.false_or, Nat.not_lt_zero, decide_false, Bool.false_eq_true,
    if_false]
  rw [text, Digit.units_leftpad, Digit.units_leftpad, Digit.leftpad_ofNat (by decide) valueFits,
    Digit.leftpad_ofNat (by decide) indexFits]
  rfl

/-! ### Positions and their ids -/

def Position.Narrow (position : Position) : Prop :=
  gt (ofNat (10 ^ 10)) position.eventIndex = true

def Position.chain (position : Position) : List ℚ :=
  [position.ledger, position.txOrder, position.opIndex, position.eventIndex].map
    fun field => field.elim 0 JsNumber.value

def Faithful (position : Position) (id : JsString) : Prop :=
  eventIdRe id = true ∧ parseEventId id = some position

structure Placed (position : Position) (id : JsString) where
  ledger : ℕ
  txOrder : ℕ
  opIndex : ℕ
  eventIndex : ℕ
  ledgers : ledger ≤ 0x7fffffff
  orders : txOrder ≤ 0xfffff
  operations : opIndex ≤ 0xfff
  indexes : eventIndex < 10 ^ 10
  position_eq : position = ⟨ofNat ledger, ofNat txOrder, ofNat opIndex, ofNat eventIndex⟩
  id_eq : id = Digit.units (Digit.lastDigits 19 (packed ledger txOrder opIndex)) ++
    dash :: Digit.units (Digit.lastDigits 10 eventIndex)

theorem packed_lt {ledger txOrder opIndex : ℕ} (ledgers : ledger ≤ 0x7fffffff)
    (orders : txOrder ≤ 0xfffff) (operations : opIndex ≤ 0xfff) :
    packed ledger txOrder opIndex < 2 ^ 63 := by
  unfold packed
  omega

theorem narrow_ofNat {ledger txOrder opIndex : JsNumeric} {index : ℕ} (small : index ≤ 2 ^ 53) :
    (Position.mk ledger txOrder opIndex (ofNat index)).Narrow ↔ index < 10 ^ 10 := by
  unfold Position.Narrow
  rw [gt_ofNat (by decide) small, decide_eq_true_iff]

theorem formatEventId_ok {value : ℕ} {index : JsNumeric} {id : JsString}
    (formats : formatEventId value index = .ok id) :
    ∃ whole : JsNumber, index = some whole ∧ ∃ count : ℕ, whole.value = count := by
  unfold formatEventId at formats
  split_ifs at formats with refused
  rw [Bool.or_eq_true, not_or, Bool.not_eq_true', Bool.not_eq_false] at refused
  exact exists_natCast refused.1 (Bool.eq_false_iff.mpr refused.2)

theorem eventId_ofNat {ledger txOrder opIndex : ℕ} (ledgers : ledger ≤ 0x7fffffff)
    (orders : txOrder ≤ 0xfffff) (operations : opIndex ≤ 0xfff) (index : JsNumeric) :
    eventId ⟨ofNat ledger, ofNat txOrder, ofNat opIndex, index⟩ =
      formatEventId (packed ledger txOrder opIndex) index := by
  rw [eventId, toid_ofNat ledgers orders operations]
  rfl

theorem eventId_ok {position : Position} {id : JsString} (accepted : eventId position = .ok id) :
    ∃ ledger ≤ 0x7fffffff, ∃ txOrder ≤ 0xfffff, ∃ opIndex ≤ 0xfff, ∃ index,
      position = ⟨ofNat ledger, ofNat txOrder, ofNat opIndex, index⟩ ∧
      formatEventId (packed ledger txOrder opIndex) index = .ok id := by
  obtain ⟨ledger, txOrder, opIndex, index⟩ := position
  rw [eventId] at accepted
  cases packs : toid ledger txOrder opIndex with
  | error message =>
    rw [packs] at accepted
    cases accepted
  | ok value =>
    rw [packs] at accepted
    obtain ⟨first, ledgers, second, orders, third, operations, rfl, rfl, rfl, rfl⟩ :=
      toid_ok packs
    exact ⟨first, ledgers, second, orders, third, operations, index, rfl, accepted⟩

theorem placed_of_narrow {position : Position} {id : JsString}
    (accepted : eventId position = .ok id) (narrow : position.Narrow) :
    Nonempty (Placed position id) := by
  obtain ⟨ledger, ledgers, txOrder, orders, opIndex, operations, index, rfl, formats⟩ :=
    eventId_ok accepted
  obtain ⟨whole, rfl, count, holds⟩ := formatEventId_ok formats
  have below : count < 10 ^ 10 := by
    unfold Position.Narrow at narrow
    rw [ofNat, gt, JsNumber.ofNat_value (by decide), holds, decide_eq_true_iff] at narrow
    exact_mod_cast narrow
  rw [ofNat_eq holds (by omega)] at formats ⊢
  have packedFits := packed_lt ledgers orders operations
  rw [formatEventId_fits (by omega) below] at formats
  exact ⟨⟨ledger, txOrder, opIndex, count, ledgers, orders, operations, below, rfl,
    (Except.ok.inj formats).symm⟩⟩

namespace Placed

variable {position : Position} {id : JsString}

theorem faithful (placed : Placed position id) : Faithful position id := by
  obtain ⟨ledger, txOrder, opIndex, index, ledgers, orders, operations, indexes, rfl, spelled⟩ :=
    placed
  have valueLength := Digit.lastDigits_length 19 (packed ledger txOrder opIndex)
  have indexLength := Digit.lastDigits_length 10 index
  have packedFits := packed_lt ledgers orders operations
  obtain ⟨first, second, third⟩ := @fields_packed ledger _ _ orders operations
  refine ⟨(eventIdRe_iff _).mpr ⟨_, _, valueLength, indexLength, spelled⟩, ?_⟩
  rw [spelled, parseEventId_units valueLength indexLength, Digit.number_lastDigits,
    Digit.number_lastDigits, Nat.mod_eq_of_lt (by omega), Nat.mod_eq_of_lt indexes, positionOf,
    first, second, third]

theorem lt_iff (placed : Placed position id) {other : Position} {otherId : JsString}
    (otherPlaced : Placed other otherId) : id < otherId ↔ position.chain < other.chain := by
  obtain ⟨ledger, txOrder, opIndex, index, ledgers, orders, operations, indexes, rfl, spelled⟩ :=
    placed
  obtain ⟨ledger', txOrder', opIndex', index', ledgers', orders', operations', indexes', rfl,
    spelled'⟩ := otherPlaced
  have fits := packed_lt ledgers orders operations
  have fits' := packed_lt ledgers' orders' operations'
  have irrefl : ¬ dash < dash := by decide
  have same : Digit.lastDigits 19 (packed ledger txOrder opIndex) =
      Digit.lastDigits 19 (packed ledger' txOrder' opIndex') ↔
        packed ledger txOrder opIndex = packed ledger' txOrder' opIndex' := by
    constructor
    · intro equal
      have numbers := congrArg Digit.number equal
      rwa [Digit.number_lastDigits, Digit.number_lastDigits, Nat.mod_eq_of_lt (by omega),
        Nat.mod_eq_of_lt (by omega)] at numbers
    · exact fun equal => by rw [equal]
  have indexOrder : Digit.units (Digit.lastDigits 10 index) <
      Digit.units (Digit.lastDigits 10 index') ↔ index < index' := by
    have order := @Digit.units_append_lt_iff (Digit.lastDigits 10 index)
      (Digit.lastDigits 10 index') (by rw [Digit.lastDigits_length, Digit.lastDigits_length]) [] []
    rwa [List.append_nil, List.append_nil, Digit.number_lastDigits, Digit.number_lastDigits,
      Nat.mod_eq_of_lt indexes, Nat.mod_eq_of_lt indexes',
      or_iff_left (fun both => absurd both.2 (List.not_lt_nil _))] at order
  have field (value : ℕ) (small : value ≤ 2 ^ 53) :
      (ofNat value).elim 0 JsNumber.value = (value : ℚ) := JsNumber.ofNat_value small
  rw [spelled, spelled',
    Digit.units_append_lt_iff (by rw [Digit.lastDigits_length, Digit.lastDigits_length]), same,
    Digit.number_lastDigits, Digit.number_lastDigits, Nat.mod_eq_of_lt (by omega),
    Nat.mod_eq_of_lt (by omega), List.cons_lt_cons_iff, or_iff_right irrefl,
    and_iff_right rfl, indexOrder]
  unfold Position.chain
  simp only [List.map_cons, List.map_nil, List.cons_lt_cons_iff, List.not_lt_nil]
  rw [field _ (by omega), field _ (by omega), field _ (by omega), field _ (by omega),
    field _ (by omega), field _ (by omega), field _ (by omega), field _ (by omega)]
  simp only [Nat.cast_lt, Nat.cast_inj, and_false, or_false]
  unfold packed
  omega

end Placed

theorem narrow_of_faithful {position : Position} {id : JsString}
    (faithful : Faithful position id) : position.Narrow := by
  obtain ⟨t, idx, -, idxLength, -, rfl⟩ := parseEventId_some faithful.2
  have below := Digit.number_lt idx
  rw [idxLength] at below
  exact (narrow_ofNat (by omega)).mpr below

/-! ### Ids and their positions -/

/-- The digits of `2 ^ 63`. -/
def firstWide : List Digit := [9, 2, 2, 3, 3, 7, 2, 0, 3, 6, 8, 5, 4, 7, 7, 5, 8, 0, 8]

theorem lt_firstWide_iff {t : List Digit} (tLength : t.length = 19) (rest : JsString) :
    Digit.units t ++ dash :: rest < js "9223372036854775808" ↔ Digit.number t < 2 ^ 63 := by
  have literal : js "9223372036854775808" = Digit.units firstWide ++ [] := by decide
  have value : Digit.number firstWide = 2 ^ 63 := by decide
  rw [literal, Digit.units_append_lt_iff (by rw [tLength]; rfl), value,
    or_iff_left (fun both => absurd both.2 (List.not_lt_nil _))]

theorem eventId_positionOf {value index : ℕ} (valueFits : value < 10 ^ 19)
    (indexFits : index < 10 ^ 10) :
    eventId (positionOf value index) =
      if value < 2 ^ 63 then .ok (Digit.units (Digit.lastDigits 19 value) ++
        dash :: Digit.units (Digit.lastDigits 10 index))
      else .error "ledger out of range" := by
  have orders : value >>> 12 &&& 0xfffff ≤ 0xfffff := Nat.and_le_right
  have operations : value &&& 0xfff ≤ 0xfff := Nat.and_le_right
  have quotient : value >>> 32 = value / 2 ^ 32 := Nat.shiftRight_eq_div_pow _ _
  split_ifs with small
  · rw [positionOf, eventId_ofNat (by omega) orders operations, packed_fields,
      formatEventId_fits valueFits indexFits]
  · have wide : outOfRange 0x7fffffff (ofNat (value >>> 32)) = true := by
      rw [outOfRange_ofNat (by decide) (by omega), decide_eq_true_iff]
      omega
    rw [positionOf, eventId, toid, if_pos wide]
    rfl

theorem eventId_parsed_iff {id : JsString} {position : Position}
    (parses : parseEventId id = some position) :
    eventId position = .ok id ↔ id < js "9223372036854775808" := by
  obtain ⟨t, idx, tLength, idxLength, spelled, rfl⟩ := parseEventId_some parses
  have valueFits := Digit.number_lt t
  have indexFits := Digit.number_lt idx
  have tDigits := Digit.lastDigits_number t
  have idxDigits := Digit.lastDigits_number idx
  rw [tLength] at valueFits tDigits
  rw [idxLength] at indexFits idxDigits
  rw [eventId_positionOf valueFits indexFits, tDigits, idxDigits, spelled,
    lt_firstWide_iff tLength]
  split_ifs with small
  · exact iff_of_true rfl small
  · exact iff_of_false (fun accepted => by cases accepted) small

/-- The ids of accepted positions match, are read as the positions and are in the order of the
chain exactly where the indexes fit ten digits; the position in an accepted id has this id exactly
where its number fits 63 bits. -/
theorem eventIds_iff (left right position : Position) (leftId rightId id : JsString) :
    (eventId left = .ok leftId → eventId right = .ok rightId →
      ((Faithful left leftId ∧ Faithful right rightId ∧
          (leftId < rightId ↔ left.chain < right.chain)) ↔
        left.Narrow ∧ right.Narrow)) ∧
      (parseEventId id = some position →
        (eventId position = .ok id ↔ id < js "9223372036854775808")) := by
  refine ⟨?_, fun parses => eventId_parsed_iff parses⟩
  intro leftAccepted rightAccepted
  constructor
  · rintro ⟨leftFaithful, rightFaithful, -⟩
    exact ⟨narrow_of_faithful leftFaithful, narrow_of_faithful rightFaithful⟩
  · rintro ⟨leftNarrow, rightNarrow⟩
    obtain ⟨leftPlaced⟩ := placed_of_narrow leftAccepted leftNarrow
    obtain ⟨rightPlaced⟩ := placed_of_narrow rightAccepted rightNarrow
    exact ⟨leftPlaced.faithful, rightPlaced.faithful, leftPlaced.lt_iff rightPlaced⟩

/-- The first event of the first transaction. -/
theorem firstEvent_faithful :
    let position : Position := ⟨ofNat 1, ofNat 1, ofNat 0, ofNat 0⟩
    let id := js "0000000004294971392-0000000000"
    eventId position = .ok id ∧ Faithful position id := by
  intro position id
  have spelled : id = Digit.units (Digit.lastDigits 19 (packed 1 1 0)) ++
      dash :: Digit.units (Digit.lastDigits 10 0) := by decide
  have accepted : eventId position = .ok id := by
    rw [spelled, eventId_ofNat (by decide) (by decide) (by decide),
      formatEventId_fits (by decide) (by decide)]
  have narrow : position.Narrow := (narrow_ofNat (by decide)).mpr (by decide)
  exact ⟨accepted,
    (((eventIds_iff position position position id id id).1 accepted accepted).mpr
      ⟨narrow, narrow⟩).1⟩

def wideIndex : Position := ⟨ofNat 1, ofNat 1, ofNat 0, ofNat (10 ^ 10)⟩

/-- An index of eleven digits is accepted, and so is a number of 64 bits. -/
theorem unfaithful_accepted :
    (∃ id, eventId wideIndex = .ok id ∧ ¬ Faithful wideIndex id) ∧
      ∃ position, parseEventId (js "9223372036854775808-0000000000") = some position ∧
        eventId position ≠ .ok (js "9223372036854775808-0000000000") := by
  have zeros : js "9223372036854775808-0000000000" =
      Digit.units firstWide ++ dash :: Digit.units (List.replicate 10 0) := by decide
  constructor
  · have accepted : ∃ id, eventId wideIndex = .ok id := by
      rw [wideIndex, eventId_ofNat (by decide) (by decide) (by decide), formatEventId,
        isInteger_ofNat (by decide), gt_ofNat (by decide) (by decide)]
      exact ⟨_, rfl⟩
    obtain ⟨id, accepted⟩ := accepted
    refine ⟨id, accepted, fun faithful => ?_⟩
    exact absurd ((narrow_ofNat (by decide)).mp (narrow_of_faithful faithful)) (lt_irrefl _)
  · have parses := @parseEventId_units firstWide (List.replicate 10 0) rfl rfl
    rw [← zeros] at parses
    refine ⟨_, parses, fun accepted => ?_⟩
    have below := (eventId_parsed_iff parses).mp accepted
    rw [zeros, lt_firstWide_iff rfl] at below
    exact absurd below (by decide)

/-- An id for an event of the RPC is one that matches, where its own index fits. -/
theorem eventIdFromRpc_matches {event : RpcEvent} {id : JsString}
    (derived : eventIdFromRpc event = .ok (some id))
    (narrow : ∀ index, event.eventIndex = some index → gt (ofNat (10 ^ 10)) index = true) :
    eventIdRe id = true := by
  unfold eventIdFromRpc at derived
  split at derived
  next given own =>
    cases derived
    exact (Option.filter_eq_some_iff.mp own).2
  next =>
    split at derived
    next ledger txOrder index _ _ indexed =>
      cases accepted : eventId ⟨ledger, txOrder, event.opIndex.getD (ofNat 0), index⟩ with
      | error message =>
        rw [accepted] at derived
        cases derived
      | ok text =>
        rw [accepted] at derived
        cases derived
        have fits := narrow index (Option.filter_eq_some_iff.mp indexed).1
        obtain ⟨placed⟩ := placed_of_narrow accepted fits
        exact placed.faithful.1
    next => cases derived

end SorobanExplorer.Indexer.EventIds
