import SorobanExplorer.Contract.Host
import SorobanExplorer.Library.Base32
import SorobanExplorer.Library.BinaryPolynomial
import Mathlib.Tactic.ComputeDegree

/-!
Owns the address of a contract id: its `C...` strkey, built byte by byte and
handed to the host, and what it means: the writes into its 56 characters, the
bytes they denote in base32, and the checksum as a remainder of polynomials.
-/

namespace SorobanExplorer.Contract

def crc16Shift (crc : UInt16) : UInt16 :=
  if crc &&& 0x8000 ≠ 0 then (crc <<< 1) ^^^ 0x1021 else crc <<< 1

def crc16Byte (crc : UInt16) (byte : UInt8) : UInt16 :=
  Nat.repeat crc16Shift 8 (crc ^^^ (byte.toUInt16 <<< (8 : UInt16)))

def crc16Xmodem (data : List UInt8) : UInt16 := data.foldl crc16Byte 0

/-- `ABCDEFGHIJKLMNOPQRSTUVWXYZ234567`. -/
def strkeyAlphabet : Vector UInt8 32 :=
  #v[65, 66, 67, 68, 69, 70, 71, 72, 73, 74, 75, 76, 77, 78, 79, 80, 81, 82, 83, 84, 85, 86, 87,
    88, 89, 90, 50, 51, 52, 53, 54, 55]

def strkeyChar (digit : UInt32) : UInt8 :=
  strkeyAlphabet[(digit &&& 31).toNat % 32]

/-- The `while bits >= 5` loop: the bits left over, and the output so far. -/
def strkeyDrain (buf : UInt32) : Nat → List UInt8 → Nat × List UInt8
  | bits + 5, out => strkeyDrain buf bits (out ++ [strkeyChar (buf >>> UInt32.ofNat bits)])
  | bits, out => (bits, out)

/-- The `for b in payload` loop over `(buf, bits, out)`. -/
def strkeyEncode : List UInt8 → UInt32 → Nat → List UInt8 → List UInt8
  | [], _, _, out => out
  | byte :: rest, buf, bits, out =>
    let buf := ((buf <<< 8) ||| byte.toUInt32) &&& 0xffff
    let drained := strkeyDrain buf (bits + 8) out
    strkeyEncode rest buf drained.1 drained.2

def strkeyPayload (contractId : ContractId) : List UInt8 :=
  let body := ((2 : UInt8) <<< (3 : UInt8)) :: contractId.toList
  let crc := crc16Xmodem body
  body ++ [(crc &&& 0xff).toUInt8, (crc >>> 8).toUInt8]

def contractStrkey (contractId : ContractId) : List UInt8 :=
  strkeyEncode (strkeyPayload contractId) 0 0 []

theorem strkeyDrain_length (buf : UInt32) (bits : Nat) (out : List UInt8) :
    (strkeyDrain buf bits out).1 = bits % 5 ∧
      (strkeyDrain buf bits out).2.length = out.length + bits / 5 := by
  induction bits using Nat.strongRecOn generalizing out with
  | ind bits ih =>
    match bits with
    | 0 | 1 | 2 | 3 | 4 => simp [strkeyDrain]
    | bits + 5 =>
      obtain ⟨left, length⟩ := ih bits (by omega)
        (out ++ [strkeyChar (buf >>> UInt32.ofNat bits)])
      simp only [strkeyDrain, left, length, List.length_append, List.length_singleton]
      omega

theorem strkeyEncode_length (payload : List UInt8) (buf : UInt32) (bits : Nat) (out : List UInt8)
    (drained : bits < 5) :
    (strkeyEncode payload buf bits out).length = out.length + (bits + 8 * payload.length) / 5 := by
  induction payload generalizing buf bits out with
  | nil =>
    simp only [strkeyEncode, List.length_nil]
    omega
  | cons byte rest ih =>
    obtain ⟨left, length⟩ :=
      strkeyDrain_length (((buf <<< 8) ||| byte.toUInt32) &&& 0xffff) (bits + 8) out
    simp only [strkeyEncode, List.length_cons]
    rw [ih _ _ _ (by rw [left]; omega), length, left]
    omega

theorem contractStrkey_length (contractId : ContractId) : (contractStrkey contractId).length = 56 := by
  unfold contractStrkey
  rw [strkeyEncode_length _ _ _ _ (by decide)]
  simp [strkeyPayload]

/-- `contract_address`. -/
def contractAddress (host : Host) (contractId : ContractId) : Address :=
  host.addressFromStringBytes
    ⟨contractStrkey contractId, by rw [contractStrkey_length]; simp [UInt32.size]⟩

open Library
open Polynomial

/-! ### Writing the characters -/

/-- The array `out` with its next index, and the indices written so far. -/
structure StrkeyOut where
  out : Vector UInt8 56
  o : Nat
  written : List Nat

def StrkeyOut.blank : StrkeyOut := ⟨Vector.replicate 56 0, 0, []⟩

/-- `out[o] = char; o += 1`, or none where the index is out of bounds. -/
def StrkeyOut.put (char : UInt8) (output : StrkeyOut) : Option StrkeyOut :=
  if inside : output.o < 56 then
    some ⟨output.out.set output.o char, output.o + 1, output.written ++ [output.o]⟩
  else none

/-- The `while bits >= 5` loop over the array. -/
def strkeyDrainInto (buf : UInt32) : Nat → StrkeyOut → Option (Nat × StrkeyOut)
  | bits + 5, output => do
      let output ← output.put (strkeyChar (buf >>> UInt32.ofNat bits))
      strkeyDrainInto buf bits output
  | bits, output => some (bits, output)

/-- The `for b in payload` loop over the array. -/
def strkeyEncodeInto : List UInt8 → UInt32 → Nat → StrkeyOut → Option StrkeyOut
  | [], _, _, output => some output
  | byte :: rest, buf, bits, output => do
      let buf := ((buf <<< 8) ||| byte.toUInt32) &&& 0xffff
      let (bits, output) ← strkeyDrainInto buf (bits + 8) output
      strkeyEncodeInto rest buf bits output

structure StrkeyOut.Holds (output : StrkeyOut) (chars : List UInt8) : Prop where
  next : output.o = chars.length
  written : output.written = List.range chars.length
  start : output.out.toList.take chars.length = chars

theorem StrkeyOut.holds_blank : StrkeyOut.blank.Holds [] := ⟨rfl, rfl, rfl⟩

theorem StrkeyOut.Holds.put {output : StrkeyOut} {chars : List UInt8} (holds : output.Holds chars)
    (room : chars.length < 56) (char : UInt8) :
    ∃ after, output.put char = some after ∧ after.Holds (chars ++ [char]) := by
  have inside : output.o < 56 := holds.next ▸ room
  refine ⟨_, dif_pos inside, ?_, ?_, ?_⟩
  · simp [holds.next]
  · simp [holds.written, holds.next, List.range_succ]
  · have length : output.out.toList.length = 56 := Vector.length_toList
    rw [Vector.toList_set, List.length_append, List.length_singleton, holds.next,
      List.take_succ_eq_append_getElem (by rw [List.length_set, length]; exact room),
      List.take_set_of_le le_rfl, holds.start, List.getElem_set_self]

theorem strkeyDrainInto_holds (buf : UInt32) {bits : Nat} {output : StrkeyOut}
    {chars : List UInt8} (holds : output.Holds chars)
    (room : (strkeyDrain buf bits chars).2.length ≤ 56) :
    ∃ after, strkeyDrainInto buf bits output = some ((strkeyDrain buf bits chars).1, after) ∧
      after.Holds (strkeyDrain buf bits chars).2 := by
  induction bits using Nat.strongRecOn generalizing output chars with
  | ind bits ih =>
    match bits with
    | 0 | 1 | 2 | 3 | 4 => exact ⟨output, rfl, holds⟩
    | bits + 5 =>
      have count := (strkeyDrain_length buf (bits + 5) chars).2
      obtain ⟨middle, put, middleHolds⟩ := holds.put (by omega)
        (strkeyChar (buf >>> UInt32.ofNat bits))
      obtain ⟨after, drained, afterHolds⟩ := ih bits (by omega) middleHolds room
      exact ⟨after, by rw [strkeyDrainInto, put]; exact drained, afterHolds⟩

theorem strkeyEncode_le (payload : List UInt8) (buf : UInt32) (bits : Nat) (chars : List UInt8) :
    chars.length ≤ (strkeyEncode payload buf bits chars).length := by
  induction payload generalizing buf bits chars with
  | nil => rfl
  | cons byte rest ih =>
    have count := (strkeyDrain_length (((buf <<< 8) ||| byte.toUInt32) &&& 0xffff) (bits + 8)
      chars).2
    exact le_trans (by omega) (ih _ _ _)

theorem strkeyEncodeInto_holds {payload : List UInt8} {buf : UInt32} {bits : Nat}
    {output : StrkeyOut} {chars : List UInt8} (holds : output.Holds chars)
    (room : (strkeyEncode payload buf bits chars).length ≤ 56) :
    ∃ after, strkeyEncodeInto payload buf bits output = some after ∧
      after.Holds (strkeyEncode payload buf bits chars) := by
  induction payload generalizing buf bits output chars with
  | nil => exact ⟨output, rfl, holds⟩
  | cons byte rest ih =>
    obtain ⟨middle, drained, middleHolds⟩ :=
      @strkeyDrainInto_holds (((buf <<< 8) ||| byte.toUInt32) &&& 0xffff) (bits + 8) _ _ holds
        ((strkeyEncode_le rest _ _ _).trans room)
    obtain ⟨after, encoded, afterHolds⟩ := ih middleHolds room
    exact ⟨after, by rw [strkeyEncodeInto, drained]; exact encoded, afterHolds⟩

theorem contractStrkey_written (contractId : ContractId) :
    ∃ output, strkeyEncodeInto (strkeyPayload contractId) 0 0 .blank = some output ∧
      output.written = List.range 56 ∧ output.out.toList = contractStrkey contractId := by
  have length := contractStrkey_length contractId
  obtain ⟨output, encoded, holds⟩ := @strkeyEncodeInto_holds (strkeyPayload contractId) 0 0 _ _
    StrkeyOut.holds_blank length.le
  refine ⟨output, encoded, ?_, ?_⟩
  · exact holds.written.trans (congrArg List.range length)
  · have whole := holds.start
    change output.out.toList.take (contractStrkey contractId).length = contractStrkey contractId
      at whole
    rwa [length, List.take_of_length_le (by simp)] at whole

/-! ### The bits of the characters -/

def charBits? (chars : List UInt8) : Option (List Bool) :=
  (chars.mapM Base32.digit?).map fun digits => digits.flatMap (Base32.bits 5)

theorem digit?_strkeyAlphabet : ∀ index : Fin 32,
    Base32.digit? strkeyAlphabet[index] = some index.val := by
  decide

theorem digit?_strkeyChar (digit : UInt32) :
    Base32.digit? (strkeyChar digit) = some (digit.toNat % 32) := by
  have low : (digit &&& 31).toNat = digit.toNat % 32 := by
    rw [UInt32.toNat_and]
    exact Nat.and_two_pow_sub_one_eq_mod digit.toNat 5
  have read := digit?_strkeyAlphabet ⟨(digit &&& 31).toNat % 32, Nat.mod_lt _ (by decide)⟩
  refine read.trans (congrArg some ?_)
  change (digit &&& 31).toNat % 32 = digit.toNat % 32
  rw [low, Nat.mod_mod]

theorem charBits?_snoc {chars : List UInt8} {read : List Bool} (found : charBits? chars = some read)
    (digit : UInt32) :
    charBits? (chars ++ [strkeyChar digit]) = some (read ++ Base32.bits 5 digit.toNat) := by
  obtain ⟨digits, mapped, rfl⟩ := Option.map_eq_some_iff.mp found
  have same : Base32.bits 5 (digit.toNat % 32) = Base32.bits 5 digit.toNat := by
    apply Base32.bits_congr
    intro place below
    rw [show 32 = 2 ^ 5 by rfl, Nat.testBit_mod_two_pow]
    simp [below]
  rw [charBits?, List.mapM_append, mapped]
  simp [digit?_strkeyChar, same]

theorem strkeyDrain_bits (buf : UInt32) {bits : Nat} (inside : bits < 32) {chars : List UInt8}
    {read : List Bool} (found : charBits? chars = some read) :
    ∃ more, charBits? (strkeyDrain buf bits chars).2 = some more ∧
      more ++ Base32.bits (strkeyDrain buf bits chars).1 buf.toNat =
        read ++ Base32.bits bits buf.toNat := by
  induction bits using Nat.strongRecOn generalizing chars read with
  | ind bits ih =>
    match bits with
    | 0 | 1 | 2 | 3 | 4 => exact ⟨read, found, rfl⟩
    | bits + 5 =>
      have shifted : (buf >>> UInt32.ofNat bits).toNat = buf.toNat >>> bits := by
        rw [UInt32.toNat_shiftRight, UInt32.toNat_ofNat_of_lt' (by simp [UInt32.size]; omega),
          Nat.mod_eq_of_lt (by omega)]
      obtain ⟨more, moreFound, same⟩ := ih bits (by omega) (by omega)
        (charBits?_snoc found (buf >>> UInt32.ofNat bits))
      refine ⟨more, moreFound, same.trans ?_⟩
      rw [shifted, List.append_assoc, ← Base32.bits_add, Nat.add_comm 5 bits]

theorem bits_shiftIn (buf : UInt32) (byte : UInt8) {bits : Nat} (inside : bits ≤ 8) :
    Base32.bits (bits + 8) (((buf <<< 8) ||| byte.toUInt32) &&& 0xffff).toNat =
      Base32.bits bits buf.toNat ++ Base32.bits 8 byte.toNat := by
  have unfolded : (((buf <<< 8) ||| byte.toUInt32) &&& 0xffff).toNat =
      (buf.toNat <<< 8 % 2 ^ 32 ||| byte.toNat) &&& (2 ^ 16 - 1) := by
    rw [UInt32.toNat_and, UInt32.toNat_or, UInt32.toNat_shiftLeft, UInt8.toNat_toUInt32]
    rfl
  have small (place : Nat) (above : 8 ≤ place) : byte.toNat.testBit place = false :=
    Nat.testBit_lt_two_pow (byte.toNat_lt.trans_le (Nat.pow_le_pow_right (by decide) above))
  rw [unfolded, Base32.bits_add]
  congr 1
  · apply Base32.bits_congr
    intro place below
    rw [Nat.testBit_shiftRight, Nat.testBit_and, Nat.testBit_or, Nat.testBit_mod_two_pow,
      Nat.testBit_two_pow_sub_one, Nat.testBit_shiftLeft, small _ (by omega)]
    simp [show 8 + place < 32 by omega, show 8 + place < 16 by omega]
  · apply Base32.bits_congr
    intro place below
    rw [Nat.testBit_and, Nat.testBit_or, Nat.testBit_mod_two_pow, Nat.testBit_two_pow_sub_one,
      Nat.testBit_shiftLeft]
    simp [show place < 16 by omega, show ¬ 8 ≤ place by omega]

theorem strkeyEncode_bits {payload : List UInt8} {buf : UInt32} {bits : Nat} (drained : bits < 5)
    {chars : List UInt8} {read : List Bool} (found : charBits? chars = some read) :
    ∃ more left, charBits? (strkeyEncode payload buf bits chars) = some more ∧
      left.length = (bits + 8 * payload.length) % 5 ∧
      more ++ left = read ++ Base32.bits bits buf.toNat ++
        payload.flatMap fun byte => Base32.bits 8 byte.toNat := by
  induction payload generalizing buf bits chars read with
  | nil =>
    refine ⟨read, Base32.bits bits buf.toNat, found, ?_, by simp⟩
    rw [Base32.length_bits, List.length_nil, Nat.mul_zero, Nat.add_zero, Nat.mod_eq_of_lt drained]
  | cons byte rest ih =>
    have leftOver := (strkeyDrain_length (((buf <<< 8) ||| byte.toUInt32) &&& 0xffff) (bits + 8)
      chars).1
    obtain ⟨middle, middleFound, middleSame⟩ := strkeyDrain_bits
      (((buf <<< 8) ||| byte.toUInt32) &&& 0xffff) (show bits + 8 < 32 by omega) found
    have few : (strkeyDrain (((buf <<< 8) ||| byte.toUInt32) &&& 0xffff) (bits + 8)
        chars).1 < 5 := by omega
    obtain ⟨more, left, moreFound, length, same⟩ := ih few middleFound
    refine ⟨more, left, moreFound, ?_, ?_⟩
    · rw [length, leftOver, List.length_cons]
      omega
    · rw [same, middleSame, bits_shiftIn buf byte (by omega), List.flatMap_cons]
      simp only [List.append_assoc]

theorem strkeyPayload_length (contractId : ContractId) : (strkeyPayload contractId).length = 35 := by
  simp [strkeyPayload]

theorem decode?_contractStrkey (contractId : ContractId) :
    Base32.decode? (contractStrkey contractId) = some (strkeyPayload contractId) := by
  obtain ⟨more, left, found, length, same⟩ := @strkeyEncode_bits (strkeyPayload contractId) 0 0
    (by decide) [] [] rfl
  rw [strkeyPayload_length] at length
  rw [List.length_eq_zero_iff.mp length, List.append_nil] at same
  obtain ⟨digits, mapped, rfl⟩ := Option.map_eq_some_iff.mp found
  rw [Base32.decode?, contractStrkey, mapped, Option.bind_some]
  exact (congrArg Base32.bytes? same).trans (Base32.bytes?_flatMap _)

/-! ### The checksum -/

noncomputable def xmodemGenerator : (ZMod 2)[X] := X ^ 16 + X ^ 12 + X ^ 5 + 1

theorem xmodemGenerator_monic : xmodemGenerator.Monic := by
  unfold xmodemGenerator
  monicity!

theorem xmodemGenerator_degree : xmodemGenerator.degree = 16 := by
  unfold xmodemGenerator
  compute_degree!

noncomputable def register (crc : UInt16) : (ZMod 2)[X] := BinaryPolynomial.ofBits 16 crc.toNat

theorem register_xor (left right : UInt16) :
    register (left ^^^ right) = register left + register right := by
  rw [register, UInt16.toNat_xor, BinaryPolynomial.ofBits_xor]
  rfl

theorem register_polynomial : register 0x1021 + X ^ 16 = xmodemGenerator := by
  have bits : register 0x1021 = X ^ 12 + X ^ 5 + 1 := by
    simp [register, BinaryPolynomial.ofBits, BinaryPolynomial.term, Finset.sum_range_succ,
      Nat.testBit]
    ring
  rw [bits, xmodemGenerator]
  ring

theorem register_shiftLeft (crc : UInt16) :
    register (crc <<< 1) + BinaryPolynomial.term (crc.toNat.testBit 15) 16 = X * register crc := by
  have low : register (crc <<< 1) = BinaryPolynomial.ofBits 16 (crc.toNat <<< 1) := by
    apply BinaryPolynomial.ofBits_congr
    intro place below
    rw [UInt16.toNat_shiftLeft, Nat.testBit_mod_two_pow]
    simp [below]
  rw [low]
  exact BinaryPolynomial.ofBits_shiftLeft 15 crc.toNat

theorem top_ne_zero_iff (crc : UInt16) : crc &&& 0x8000 ≠ 0 ↔ crc.toNat.testBit 15 = true := by
  rw [ne_eq, ← UInt16.toNat_inj, UInt16.toNat_and]
  have mask := Nat.and_two_pow crc.toNat 15
  change ¬ crc.toNat &&& 2 ^ 15 = 0 ↔ _
  rw [mask]
  cases crc.toNat.testBit 15 <;> simp

theorem register_crc16Shift (crc : UInt16) :
    xmodemGenerator ∣ register (crc16Shift crc) - X * register crc := by
  have shifted := register_shiftLeft crc
  by_cases top : crc &&& 0x8000 ≠ 0
  · rw [(top_ne_zero_iff crc).mp top] at shifted
    rw [crc16Shift, if_pos top, register_xor, ← shifted]
    refine ⟨1, ?_⟩
    rw [← register_polynomial, BinaryPolynomial.term, if_pos rfl, mul_one,
      add_sub_add_left_eq_sub, CharTwo.sub_eq_add]
  · rw [Bool.eq_false_iff.mpr (mt (top_ne_zero_iff crc).mpr top)] at shifted
    rw [crc16Shift, if_neg top, ← shifted]
    simp [BinaryPolynomial.term]

theorem register_repeat (count : Nat) (crc : UInt16) :
    xmodemGenerator ∣ register (Nat.repeat crc16Shift count crc) - X ^ count * register crc := by
  induction count with
  | zero => simp [Nat.repeat]
  | succ count ih =>
    have last := register_crc16Shift (Nat.repeat crc16Shift count crc)
    have split : register (Nat.repeat crc16Shift (count + 1) crc) - X ^ (count + 1) * register crc =
        (register (crc16Shift (Nat.repeat crc16Shift count crc)) -
          X * register (Nat.repeat crc16Shift count crc)) +
        X * (register (Nat.repeat crc16Shift count crc) - X ^ count * register crc) := by
      rw [Nat.repeat]
      ring
    rw [split]
    exact dvd_add last (dvd_mul_of_dvd_right ih X)

theorem register_byte (crc : UInt16) (byte : UInt8) :
    register (crc ^^^ (byte.toUInt16 <<< (8 : UInt16))) =
      register crc + X ^ 8 * BinaryPolynomial.ofBits 8 byte.toNat := by
  have shifted : (byte.toUInt16 <<< (8 : UInt16)).toNat = byte.toNat <<< 8 := by
    have small := byte.toNat_lt
    rw [UInt16.toNat_shiftLeft, UInt8.toNat_toUInt16, Nat.mod_eq_of_lt]
    · rfl
    · change byte.toNat <<< 8 < 2 ^ 16
      rw [Nat.shiftLeft_eq]
      omega
  rw [register_xor, ← BinaryPolynomial.ofBits_shiftLeft_eq 8 byte.toNat_lt, ← shifted]
  rfl

theorem register_crc16Xmodem (data : List UInt8) :
    register (crc16Xmodem data) = (BinaryPolynomial.message data * X ^ 16) %ₘ xmodemGenerator := by
  have congruent : xmodemGenerator ∣
      register (crc16Xmodem data) - BinaryPolynomial.message data * X ^ 16 := by
    induction data using List.reverseRecOn with
    | nil =>
      simp [crc16Xmodem, register, BinaryPolynomial.ofBits, BinaryPolynomial.term,
        BinaryPolynomial.message]
    | append_singleton data byte ih =>
      have shifted := register_repeat 8
        (crc16Xmodem data ^^^ (byte.toUInt16 <<< (8 : UInt16)))
      rw [register_byte] at shifted
      have split : register (crc16Xmodem (data ++ [byte])) -
          BinaryPolynomial.message (data ++ [byte]) * X ^ 16 =
            (register (Nat.repeat crc16Shift 8
                (crc16Xmodem data ^^^ (byte.toUInt16 <<< (8 : UInt16)))) -
              X ^ 8 * (register (crc16Xmodem data) +
                X ^ 8 * BinaryPolynomial.ofBits 8 byte.toNat)) +
            X ^ 8 * (register (crc16Xmodem data) -
              BinaryPolynomial.message data * X ^ 16) := by
        rw [crc16Xmodem, BinaryPolynomial.message, List.foldl_append, List.foldl_append]
        simp only [List.foldl_cons, List.foldl_nil, crc16Byte]
        rw [← crc16Xmodem, ← BinaryPolynomial.message]
        ring
      rw [split]
      exact dvd_add shifted (dvd_mul_of_dvd_right ih _)
  have small : register (crc16Xmodem data) %ₘ xmodemGenerator = register (crc16Xmodem data) := by
    rw [Polynomial.modByMonic_eq_self_iff xmodemGenerator_monic, xmodemGenerator_degree]
    exact BinaryPolynomial.degree_ofBits_lt 16 _
  rw [← small]
  exact Polynomial.modByMonic_eq_of_dvd_sub xmodemGenerator_monic congruent

/-! ### The address of a contract id -/

def contractIdOf? (strkey : List UInt8) : Option ContractId :=
  (Base32.decode? strkey).bind fun raw =>
    if length : ((raw.drop 1).take 32).length = 32 then some ⟨((raw.drop 1).take 32).toArray, length⟩
    else none

theorem contractIdOf?_contractStrkey (contractId : ContractId) :
    contractIdOf? (contractStrkey contractId) = some contractId := by
  have bytes : ((strkeyPayload contractId).drop 1).take 32 = contractId.toList := by
    have length : contractId.toList.length = 32 := Vector.length_toList
    exact List.take_left' length
  rw [contractIdOf?, decode?_contractStrkey, Option.bind_some]
  have length : (((strkeyPayload contractId).drop 1).take 32).length = 32 := by
    rw [bytes, Vector.length_toList]
  rw [dif_pos length]
  apply congrArg some
  apply Vector.toList_inj.mp
  exact bytes

theorem contractStrkey_injective : Function.Injective contractStrkey := by
  intro left right same
  have read := contractIdOf?_contractStrkey left
  rw [same, contractIdOf?_contractStrkey] at read
  exact (Option.some.inj read).symm

/-- The strkey of a contract id: every character is written once and within bounds,
they denote the version byte, the id and the checksum with its low byte first, and
the id can be read back. -/
theorem contractStrkey_sound (contractId : ContractId) :
    ∃ output, ∃ crc : UInt16,
      strkeyEncodeInto (strkeyPayload contractId) 0 0 .blank = some output ∧
      output.written = List.range 56 ∧ output.out.toList = contractStrkey contractId ∧
      Base32.decode? output.out.toList =
        some (0x10 :: contractId.toList ++ [(crc &&& 0xff).toUInt8, (crc >>> 8).toUInt8]) ∧
      register crc =
        (BinaryPolynomial.message (0x10 :: contractId.toList) * X ^ 16) %ₘ xmodemGenerator ∧
      contractIdOf? output.out.toList = some contractId ∧
      Function.Injective contractStrkey := by
  obtain ⟨output, encoded, written, chars⟩ := contractStrkey_written contractId
  refine ⟨output, crc16Xmodem (0x10 :: contractId.toList), encoded, written, chars, ?_,
    register_crc16Xmodem _, ?_, contractStrkey_injective⟩
  · rw [chars, decode?_contractStrkey]
    rfl
  · rw [chars, contractIdOf?_contractStrkey]

end SorobanExplorer.Contract
