import SorobanExplorer.Filters.JsValue
import SorobanExplorer.Library.IpAddress
import SorobanExplorer.Library.JsInt32

/-!
Owns the allow-lists of addresses: how a client address and the entries of a list are read as
numbers and compared under a mask, against the blocks that well-formed entries denote.
-/

namespace SorobanExplorer.Indexer.IpUtils

open Library Library.JsInt32 Filters
open IpAddress (Quad Literal Subnet)

/-! ### The check -/

/-- `.` -/
def dot : UInt16 := 46

/-- `/` -/
def slash : UInt16 := 47

def ipv4ToInt (ip : JsString) : BitVec 32 :=
  (ip.splitOn dot).foldl (fun acc octet => acc <<< 8 ||| toInt32 (parseInt octet)) 0

def splitCidr (cidr : JsString) : JsString × JsString :=
  if cidr.contains slash then
    match cidr.splitOn slash with
    | range :: length :: _ => (range, length)
    | _ => (cidr, [])
  else (cidr, js "32")

/-- `length === 0 ? 0 : ~((1 << (32 - length)) - 1) >>> 0` -/
def maskOf (length : JsNumeric) : BitVec 32 :=
  if length = .ofNat 0 then 0 else leadingMask (shiftCount (.sub (.ofNat 32) length))

def ipMatchesCidr (ip cidr : JsString) : Bool :=
  let mask := maskOf (parseInt (splitCidr cidr).2)
  ipv4ToInt ip &&& mask == ipv4ToInt (splitCidr cidr).1 &&& mask

def ipInCidrList (ip : JsString) (cidrList : List JsString) : Bool :=
  cidrList.isEmpty || cidrList.any (ipMatchesCidr ip)

/-! ### Addresses and blocks -/

inductive Address where
  | quad (dotted : Quad)
  | literal (groups : Literal)

def Address.text : Address → JsString
  | .quad dotted => Utf16.encode dotted.text
  | .literal groups => Utf16.encode groups.text

def Address.In (subnet : Subnet) : Address → Prop
  | .quad dotted => subnet.containsQuad dotted = true
  | .literal written => subnet.containsGroups written.groups = true ∨
      ∃ mapped : Quad, written.groups = [0, 0, 0, 0, 0, 0xffff, mapped.high, mapped.low] ∧
        subnet.containsQuad mapped = true

inductive Denotes : JsString → Subnet → Prop
  | quad (base : Quad) : Denotes (Utf16.encode base.text) (.ipv4 base 32)
  | quadBlock (base : Quad) {bits : ℕ} (within : bits ≤ 32) :
      Denotes (Utf16.encode base.text ++ slash :: Digit.units (Digit.ofNat bits))
        (.ipv4 base bits)
  | literal (base : Literal) : Denotes (Utf16.encode base.text) (.ipv6 base.groups 128)
  | literalBlock (base : Literal) {bits : ℕ} (within : bits ≤ 128) :
      Denotes (Utf16.encode base.text ++ slash :: Digit.units (Digit.ofNat bits))
        (.ipv6 base.groups bits)

def Lies (ip cidr : JsString) : Prop :=
  ∃ address subnet, ip = Address.text address ∧ Denotes cidr subnet ∧ address.In subnet

def Sound (ip : JsString) (cidrList : List JsString) : Prop :=
  ipInCidrList ip cidrList = true → ∃ cidr ∈ cidrList, Lies ip cidr

def IsQuad (ip : JsString) : Prop := ∃ quad : Quad, ip = Utf16.encode quad.text

def IsQuadBlock (cidr : JsString) : Prop := ∃ base bits, Denotes cidr (.ipv4 base bits)

/-! ### Leading bits -/

def keptBits (length : JsNumeric) : ℕ :=
  if length = .ofNat 0 then 0 else 32 - shiftCount (.sub (.ofNat 32) length)

def Apart (ip cidr : JsString) : Prop :=
  (ipv4ToInt ip).toNat / 2 ^ (32 - keptBits (parseInt (splitCidr cidr).2)) ≠
    (ipv4ToInt (splitCidr cidr).1).toNat / 2 ^ (32 - keptBits (parseInt (splitCidr cidr).2))

theorem and_maskOf_eq_iff (length : JsNumeric) (left right : BitVec 32) :
    left &&& maskOf length = right &&& maskOf length ↔
      left.toNat / 2 ^ (32 - keptBits length) = right.toNat / 2 ^ (32 - keptBits length) := by
  unfold maskOf keptBits
  split_ifs with zero
  · show left &&& 0#32 = right &&& 0#32 ↔ _
    rw [BitVec.and_zero, BitVec.and_zero, Nat.sub_zero, Nat.div_eq_of_lt left.isLt,
      Nat.div_eq_of_lt right.isLt]
    exact iff_of_true rfl rfl
  · have count : shiftCount (.sub (.ofNat 32) length) < 32 := Nat.mod_lt _ (by decide)
    rw [Nat.sub_sub_self count.le]
    exact and_leadingMask_eq_iff count left right

theorem ipMatchesCidr_iff (ip cidr : JsString) :
    ipMatchesCidr ip cidr = true ↔ ¬ Apart ip cidr := by
  rw [ipMatchesCidr, beq_iff_eq, and_maskOf_eq_iff, Apart, not_not]

theorem keptBits_ofNat {bits : ℕ} (within : bits ≤ 32) : keptBits (.ofNat bits) = bits := by
  unfold keptBits
  rcases Nat.eq_zero_or_pos bits with rfl | positive
  · rw [if_pos rfl]
  · have nonzero : JsNumeric.ofNat bits ≠ .ofNat 0 := by
      intro same
      have values := congrArg JsNumber.value (Option.some.inj same)
      rw [JsNumber.ofNat_value (by omega), JsNumber.ofNat_value (by decide)] at values
      have equal : bits = 0 := by exact_mod_cast values
      omega
    have count : shiftCount (.sub (.ofNat 32) (.ofNat bits)) = 32 - bits := by
      rw [JsNumeric.sub_ofNat within (by decide), shiftCount, toInt32_ofNat (by omega),
        BitVec.toNat_ofNat]
      omega
    rw [if_neg nonzero, count]
    omega

/-! ### Dotted quads -/

def octetUnits (octet : UInt8) : JsString := Digit.units (Digit.ofNat octet.toNat)

theorem encode_toDigits (octet : UInt8) :
    Utf16.encode (Nat.toDigits 10 octet.toNat) = octetUnits octet := by
  have all : ∀ value : Fin 256,
      Utf16.encode (Nat.toDigits 10 value) = Digit.units (Digit.ofNat value) := by decide +kernel
  exact all ⟨octet.toNat, octet.toNat_lt⟩

theorem encode_text (quad : Quad) :
    Utf16.encode quad.text = octetUnits quad.first ++ dot :: (octetUnits quad.second ++
      dot :: (octetUnits quad.third ++ dot :: octetUnits quad.fourth)) := by
  have point : Utf16.encode ['.'] = [dot] := rfl
  have spelled : quad.text = Nat.toDigits 10 quad.first.toNat ++ (['.'] ++
      (Nat.toDigits 10 quad.second.toNat ++ (['.'] ++ (Nat.toDigits 10 quad.third.toNat ++
        (['.'] ++ Nat.toDigits 10 quad.fourth.toNat))))) := by
    simp [Quad.text, Quad.pieces, Quad.octets, List.intercalate]
  rw [spelled, Utf16.encode_append, Utf16.encode_append, Utf16.encode_append, Utf16.encode_append,
    Utf16.encode_append, Utf16.encode_append, point, encode_toDigits, encode_toDigits,
    encode_toDigits, encode_toDigits]
  rfl

theorem notMem_octetUnits {mark : UInt16} (isMark : ∀ digit : Digit, digit.unit ≠ mark)
    (octet : UInt8) : mark ∉ octetUnits octet :=
  Digit.notMem_units isMark _

theorem split_encode_text (quad : Quad) :
    (Utf16.encode quad.text).splitOn dot = quad.octets.map octetUnits := by
  have single (octet : UInt8) : (octetUnits octet).splitOn dot = [octetUnits octet] :=
    List.splitOn_eq_singleton (notMem_octetUnits (by decide) octet)
  rw [encode_text, List.splitOn_append_cons_self, List.splitOn_append_cons_self,
    List.splitOn_append_cons_self, single, single, single, single]
  rfl

theorem parseInt_octetUnits (octet : UInt8) :
    toInt32 (parseInt (octetUnits octet)) = BitVec.ofNat 32 octet.toNat := by
  have read := @parseInt_units (Digit.ofNat octet.toNat) (Digit.ofNat_ne_nil _) []
    (fun _ none => by cases none)
  have small := octet.toNat_lt
  rw [List.append_nil, Digit.number_ofNat] at read
  rw [octetUnits, read, toInt32_ofNat (by omega)]

theorem ipv4ToInt_quad (quad : Quad) :
    ipv4ToInt (Utf16.encode quad.text) = BitVec.ofNat 32 quad.value := by
  have start : (0 : BitVec 32) = BitVec.ofNat 32 0 := rfl
  rw [ipv4ToInt, split_encode_text, Quad.octets]
  simp only [List.map_cons, List.map_nil, List.foldl_cons, List.foldl_nil, parseInt_octetUnits]
  rw [start, shiftLeft_or_ofNat quad.first.toNat_lt, shiftLeft_or_ofNat quad.second.toNat_lt,
    shiftLeft_or_ofNat quad.third.toNat_lt, shiftLeft_or_ofNat quad.fourth.toNat_lt, Quad.value,
    Quad.high, Quad.low]
  congr 1
  omega

theorem toNat_ipv4ToInt_quad (quad : Quad) :
    (ipv4ToInt (Utf16.encode quad.text)).toNat = quad.value := by
  have first := quad.first.toNat_lt
  have second := quad.second.toNat_lt
  have third := quad.third.toNat_lt
  have fourth := quad.fourth.toNat_lt
  rw [ipv4ToInt_quad, BitVec.toNat_ofNat]
  apply Nat.mod_eq_of_lt
  unfold Quad.value Quad.high Quad.low
  omega

theorem slash_notMem_quad (quad : Quad) : slash ∉ Utf16.encode quad.text := by
  have octets (octet : UInt8) := @notMem_octetUnits slash (by decide) octet
  have apart : slash ≠ dot := by decide
  rw [encode_text]
  simp [octets, apart]

theorem splitCidr_quad {cidr : JsString} {base : Quad} {bits : ℕ}
    (denotes : Denotes cidr (.ipv4 base bits)) :
    (splitCidr cidr).1 = Utf16.encode base.text ∧
      parseInt (splitCidr cidr).2 = .ofNat bits ∧ bits ≤ 32 := by
  have read (value : ℕ) : parseInt (Digit.units (Digit.ofNat value)) = .ofNat value := by
    have digits := @parseInt_units (Digit.ofNat value) (Digit.ofNat_ne_nil _) []
      (fun _ none => by cases none)
    rwa [List.append_nil, Digit.number_ofNat] at digits
  cases denotes with
  | quad =>
    have plain : (Utf16.encode base.text).contains slash = false := by
      simpa using slash_notMem_quad base
    have literal : js "32" = Digit.units (Digit.ofNat 32) := by decide
    rw [splitCidr, plain, if_neg Bool.false_ne_true]
    exact ⟨rfl, by rw [literal, read], le_rfl⟩
  | quadBlock _ within =>
    have marked : (Utf16.encode base.text ++ slash :: Digit.units (Digit.ofNat bits)).contains
        slash = true := by
      simp
    have noSlash : slash ∉ Digit.units (Digit.ofNat bits) := Digit.notMem_units (by decide) _
    rw [splitCidr, marked, if_pos rfl, List.splitOn_append_cons_self,
      List.splitOn_eq_singleton (slash_notMem_quad base), List.splitOn_eq_singleton noSlash]
    exact ⟨rfl, read bits, within⟩

theorem ipMatchesCidr_quad (quad : Quad) {cidr : JsString} {base : Quad} {bits : ℕ}
    (denotes : Denotes cidr (.ipv4 base bits)) :
    ipMatchesCidr (Utf16.encode quad.text) cidr = true ↔
      (Subnet.ipv4 base bits).containsQuad quad = true := by
  obtain ⟨range, length, within⟩ := splitCidr_quad denotes
  rw [ipMatchesCidr_iff, Apart, range, length, keptBits_ofNat within, toNat_ipv4ToInt_quad,
    toNat_ipv4ToInt_quad, not_not, Subnet.containsQuad, decide_eq_true_iff]

/-! ### Colons -/

/-- `:` -/
def colon : UInt16 := 58

theorem mem_encode {char : Char} {text : List Char} (listed : char ∈ text) {unit : UInt16}
    (single : Utf16.encodeChar char = [unit]) : unit ∈ Utf16.encode text :=
  List.mem_flatMap.mpr ⟨char, listed, by rw [single]; exact List.mem_singleton.mpr rfl⟩

theorem colon_mem_literal (literal : Literal) : colon ∈ Utf16.encode literal.text := by
  have joined (pieces : List (List Char)) (several : 2 ≤ pieces.length) :
      ':' ∈ [':'].intercalate pieces := by
    match pieces, several with
    | first :: second :: rest, _ => simp [List.intercalate]
  refine mem_encode ?_ (show Utf16.encodeChar ':' = [colon] from rfl)
  cases literal with
  | full groups quad eight =>
    apply joined
    have length : (Literal.piecesOf groups quad).length = groups.length + quad.toList.length := by
      cases quad <;> simp [Literal.piecesOf]
    cases quad with
    | none =>
      simp only [Option.elim_none] at eight
      omega
    | some quad =>
      simp only [Option.elim_some] at eight
      omega
  | compressed head tail quad fewer => simp [Literal.text]

theorem colon_notMem_quad (quad : Quad) : colon ∉ Utf16.encode quad.text := by
  have octets (octet : UInt8) := @notMem_octetUnits colon (by decide) octet
  have apart : colon ≠ dot := by decide
  rw [encode_text]
  simp [octets, apart]

theorem dot_mem_quad (quad : Quad) : dot ∈ Utf16.encode quad.text := by
  rw [encode_text]
  simp

theorem colon_notMem_block {cidr : JsString} (block : IsQuadBlock cidr) : colon ∉ cidr := by
  obtain ⟨base, bits, denotes⟩ := block
  cases denotes with
  | quad => exact colon_notMem_quad base
  | quadBlock _ within =>
    have apart : ∀ digit : Digit, digit.unit ≠ colon := by decide
    have mark : colon ≠ slash := by decide
    intro listed
    rcases List.mem_append.mp listed with inBase | inRest
    · exact colon_notMem_quad base inBase
    · rcases List.mem_cons.mp inRest with same | inDigits
      · exact mark same
      · obtain ⟨digit, -, same⟩ := List.mem_map.mp inDigits
        exact apart digit same

theorem colon_mem_ipv6 {cidr : JsString} {base : List ℕ} {bits : ℕ}
    (denotes : Denotes cidr (.ipv6 base bits)) : colon ∈ cidr := by
  cases denotes with
  | literal base => exact colon_mem_literal base
  | literalBlock base within => exact List.mem_append_left _ (colon_mem_literal base)

theorem ipMatchesCidr_of_lies {ip cidr : JsString} (quad : IsQuad ip) (block : IsQuadBlock cidr)
    (lies : Lies ip cidr) : ipMatchesCidr ip cidr = true := by
  obtain ⟨dotted, rfl⟩ := quad
  obtain ⟨address, subnet, spelled, denotes, within⟩ := lies
  cases subnet with
  | ipv6 base bits => exact absurd (colon_mem_ipv6 denotes) (colon_notMem_block block)
  | ipv4 base bits =>
    cases address with
    | literal written =>
      have listed := colon_mem_literal written
      rw [show Utf16.encode written.text = Utf16.encode dotted.text from spelled.symm] at listed
      exact absurd listed (colon_notMem_quad dotted)
    | quad other =>
      rw [show Utf16.encode dotted.text = Utf16.encode other.text from spelled]
      exact (ipMatchesCidr_quad other denotes).mpr within

/-! ### The list -/

/-- What agrees with a block agrees for a reason where both are well formed, so the list is sound
exactly where the address lies in a block of it, or every entry that is not an IPv4 block, and every
entry for an address that is not a dotted quad, is read as a number with other leading bits. -/
theorem ipInCidrList_sound_iff (ip : JsString) {cidrList : List JsString}
    (nonempty : cidrList ≠ []) :
    (Sound ip cidrList ↔ (∃ cidr ∈ cidrList, Lies ip cidr) ∨
      ∀ cidr ∈ cidrList, IsQuad ip ∧ IsQuadBlock cidr ∨ Apart ip cidr) ∧
    (IsQuad ip → (∀ cidr ∈ cidrList, IsQuadBlock cidr) →
      (ipInCidrList ip cidrList = true ↔ ∃ cidr ∈ cidrList, Lies ip cidr)) := by
  have listed : ipInCidrList ip cidrList = true ↔
      ∃ cidr ∈ cidrList, ipMatchesCidr ip cidr = true := by
    have filled : cidrList.isEmpty = false := by simpa using nonempty
    rw [ipInCidrList, filled, Bool.false_or, List.any_eq_true]
  have wellFormed (cidr : JsString) (quad : IsQuad ip) (block : IsQuadBlock cidr)
      (agrees : ipMatchesCidr ip cidr = true) : Lies ip cidr := by
    obtain ⟨dotted, rfl⟩ := quad
    obtain ⟨base, bits, denotes⟩ := block
    exact ⟨.quad dotted, _, rfl, denotes, (ipMatchesCidr_quad dotted denotes).mp agrees⟩
  constructor
  · unfold Sound
    rw [listed]
    constructor
    · intro sound
      by_cases lies : ∃ cidr ∈ cidrList, Lies ip cidr
      · exact .inl lies
      · refine .inr fun cidr member => .inr ?_
        by_contra agrees
        exact lies (sound ⟨cidr, member, (ipMatchesCidr_iff ip cidr).mpr agrees⟩)
    · rintro (lies | other) ⟨cidr, member, agrees⟩
      · exact lies
      · rcases other cidr member with both | apart
        · exact ⟨cidr, member, wellFormed cidr both.1 both.2 agrees⟩
        · exact absurd apart ((ipMatchesCidr_iff ip cidr).mp agrees)
  · intro quad blocks
    rw [listed]
    constructor
    · rintro ⟨cidr, member, agrees⟩
      exact ⟨cidr, member, wellFormed cidr quad (blocks cidr member) agrees⟩
    · rintro ⟨cidr, member, lies⟩
      exact ⟨cidr, member, ipMatchesCidr_of_lies quad (blocks cidr member) lies⟩

def classA : Quad := ⟨10, 0, 0, 0⟩

def classABlock : JsString := js "10.0.0.0/8"

theorem classABlock_denotes : Denotes classABlock (.ipv4 classA 8) := by
  have spelled : classABlock =
      Utf16.encode classA.text ++ slash :: Digit.units (Digit.ofNat 8) := by decide +kernel
  rw [spelled]
  exact .quadBlock classA (by decide)

/-- A private address is let in, and lies in the block. -/
theorem ipInCidrList_sound_private :
    ipInCidrList (js "10.0.0.1") [classABlock] = true ↔
      ∃ cidr ∈ [classABlock], Lies (js "10.0.0.1") cidr := by
  have quad : IsQuad (js "10.0.0.1") := ⟨⟨10, 0, 0, 1⟩, by decide +kernel⟩
  refine (ipInCidrList_sound_iff _ (List.cons_ne_nil _ _)).2 quad fun cidr listed => ?_
  cases List.mem_singleton.mp listed
  exact ⟨classA, 8, classABlock_denotes⟩

/-- A text of digits that is no address is let in by a well-formed block. -/
theorem digits_let_in :
    ipInCidrList (js "167772161") [classABlock] = true ∧ ¬ Sound (js "167772161") [classABlock] := by
  have literal : js "167772161" = Digit.units [1, 6, 7, 7, 7, 2, 1, 6, 1] := by decide
  have number : (ipv4ToInt (js "167772161")).toNat = 167772161 := by
    have whole : (js "167772161").splitOn dot = [js "167772161"] :=
      List.splitOn_eq_singleton (by decide)
    have read := @parseInt_units [1, 6, 7, 7, 7, 2, 1, 6, 1] (List.cons_ne_nil _ _) []
      (fun _ none => by cases none)
    have value : Digit.number [1, 6, 7, 7, 7, 2, 1, 6, 1] = 167772161 := by decide
    rw [List.append_nil, ← literal, value] at read
    rw [ipv4ToInt, whole, List.foldl_cons, List.foldl_nil, read, toInt32_ofNat (by decide)]
    rfl
  have agrees : ipMatchesCidr (js "167772161") classABlock = true := by
    obtain ⟨range, length, within⟩ := splitCidr_quad classABlock_denotes
    rw [ipMatchesCidr_iff, Apart, range, length, keptBits_ofNat within, number,
      toNat_ipv4ToInt_quad, not_not]
    rfl
  have letIn : ipInCidrList (js "167772161") [classABlock] = true := by
    rw [ipInCidrList, List.any_cons, agrees]
    rfl
  refine ⟨letIn, fun sound => ?_⟩
  obtain ⟨cidr, -, address, subnet, spelled, -, -⟩ := sound letIn
  cases address with
  | quad dotted =>
    have listed := dot_mem_quad dotted
    rw [show Utf16.encode dotted.text = js "167772161" from spelled.symm] at listed
    exact absurd listed (by decide)
  | literal written =>
    have listed := colon_mem_literal written
    rw [show Utf16.encode written.text = js "167772161" from spelled.symm] at listed
    exact absurd listed (by decide)

end SorobanExplorer.Indexer.IpUtils
