import SorobanExplorer.Library.Utf16

/-!
Owns UTF-8: characters as bytes, bytes read back as characters with U+FFFD for what is
malformed, and the round trip.
-/

namespace SorobanExplorer.Library.Utf8

def encodeChar (char : Char) : List UInt8 :=
  if char.toNat < 0x80 then [UInt8.ofNat char.toNat]
  else if char.toNat < 0x800 then
    [UInt8.ofNat (0xC0 + char.toNat / 0x40), UInt8.ofNat (0x80 + char.toNat % 0x40)]
  else if char.toNat < 0x10000 then
    [UInt8.ofNat (0xE0 + char.toNat / 0x1000), UInt8.ofNat (0x80 + char.toNat / 0x40 % 0x40),
      UInt8.ofNat (0x80 + char.toNat % 0x40)]
  else
    [UInt8.ofNat (0xF0 + char.toNat / 0x40000),
      UInt8.ofNat (0x80 + char.toNat / 0x1000 % 0x40),
      UInt8.ofNat (0x80 + char.toNat / 0x40 % 0x40), UInt8.ofNat (0x80 + char.toNat % 0x40)]

def encode (text : List Char) : List UInt8 := text.flatMap encodeChar

/-- A character that has begun: the code so far, the bytes to come after the next one,
and the range of the next one. -/
structure Pending where
  code : Nat
  later : Nat
  low : Nat
  high : Nat

def start (byte : Nat) : Option (Char ⊕ Pending) :=
  if byte < 0x80 then some (.inl (Char.ofNat byte))
  else if byte < 0xC2 then none
  else if byte < 0xE0 then some (.inr ⟨byte - 0xC0, 0, 0x80, 0xBF⟩)
  else if byte < 0xF0 then
    some (.inr ⟨byte - 0xE0, 1, if byte = 0xE0 then 0xA0 else 0x80,
      if byte = 0xED then 0x9F else 0xBF⟩)
  else if byte < 0xF5 then
    some (.inr ⟨byte - 0xF0, 2, if byte = 0xF0 then 0x90 else 0x80,
      if byte = 0xF4 then 0x8F else 0xBF⟩)
  else none

def replacement : Char := Char.ofNat 0xFFFD

def begin (byte : UInt8) : List Char × Option Pending :=
  match start byte.toNat with
  | some (.inl char) => ([char], none)
  | some (.inr pending) => ([], some pending)
  | none => ([replacement], none)

def feed : Option Pending → UInt8 → List Char × Option Pending
  | none, byte => begin byte
  | some pending, byte =>
    if pending.low ≤ byte.toNat ∧ byte.toNat ≤ pending.high then
      let code := pending.code * 0x40 + (byte.toNat - 0x80)
      match pending.later with
      | 0 => ([Char.ofNat code], none)
      | later + 1 => ([], some ⟨code, later, 0x80, 0xBF⟩)
    else (replacement :: (begin byte).1, (begin byte).2)

def decodeFrom : Option Pending → List UInt8 → List Char
  | none, [] => []
  | some _, [] => [replacement]
  | pending, byte :: rest => (feed pending byte).1 ++ decodeFrom (feed pending byte).2 rest

def decode (bytes : List UInt8) : List Char := decodeFrom none bytes

/-! ### Reading back -/

theorem decodeFrom_cons (pending : Option Pending) (byte : UInt8) (rest : List UInt8) :
    decodeFrom pending (byte :: rest) =
      (feed pending byte).1 ++ decodeFrom (feed pending byte).2 rest := by
  cases pending <;> rfl

section Bytes

variable {value : Nat}

theorem toNat_byte (small : value < 0x100) : (UInt8.ofNat value).toNat = value :=
  UInt8.toNat_ofNat_of_lt' small

theorem begin_ascii (small : value < 0x80) :
    begin (UInt8.ofNat value) = ([Char.ofNat value], none) := by
  rw [begin, toNat_byte (by omega), start, if_pos small]

theorem begin_two (low : 2 ≤ value) (high : value < 0x20) :
    begin (UInt8.ofNat (0xC0 + value)) = ([], some ⟨value, 0, 0x80, 0xBF⟩) := by
  rw [begin, toNat_byte (by omega), start, if_neg (by omega), if_neg (by omega),
    if_pos (by omega), Nat.add_sub_cancel_left]

theorem begin_three (high : value < 0x10) :
    begin (UInt8.ofNat (0xE0 + value)) =
      ([], some ⟨value, 1, if value = 0 then 0xA0 else 0x80,
        if value = 0xD then 0x9F else 0xBF⟩) := by
  rw [begin, toNat_byte (by omega), start, if_neg (by omega), if_neg (by omega),
    if_neg (by omega), if_pos (by omega)]
  simp only [Nat.add_eq_left, Nat.add_sub_cancel_left,
    show 0xE0 + value = 0xED ↔ value = 0xD by omega]

theorem begin_four (high : value < 5) :
    begin (UInt8.ofNat (0xF0 + value)) =
      ([], some ⟨value, 2, if value = 0 then 0x90 else 0x80,
        if value = 4 then 0x8F else 0xBF⟩) := by
  rw [begin, toNat_byte (by omega), start, if_neg (by omega), if_neg (by omega),
    if_neg (by omega), if_neg (by omega), if_pos (by omega)]
  simp only [Nat.add_eq_left, Nat.add_sub_cancel_left,
    show 0xF0 + value = 0xF4 ↔ value = 4 by omega]

theorem feed_last {code low high : Nat} (above : low ≤ 0x80 + value)
    (below : 0x80 + value ≤ high) (small : value < 0x40) :
    feed (some ⟨code, 0, low, high⟩) (UInt8.ofNat (0x80 + value)) =
      ([Char.ofNat (code * 0x40 + value)], none) := by
  simp only [feed, toNat_byte (show 0x80 + value < 0x100 by omega), above, below, and_self,
    if_true, Nat.add_sub_cancel_left]

theorem feed_more {code later low high : Nat} (above : low ≤ 0x80 + value)
    (below : 0x80 + value ≤ high) (small : value < 0x40) :
    feed (some ⟨code, later + 1, low, high⟩) (UInt8.ofNat (0x80 + value)) =
      ([], some ⟨code * 0x40 + value, later, 0x80, 0xBF⟩) := by
  simp only [feed, toNat_byte (show 0x80 + value < 0x100 by omega), above, below, and_self,
    if_true, Nat.add_sub_cancel_left]

end Bytes

theorem decodeFrom_encodeChar (char : Char) (rest : List UInt8) :
    decodeFrom none (encodeChar char ++ rest) = char :: decodeFrom none rest := by
  have range := Utf16.toNat_cases char
  unfold encodeChar
  split_ifs with one two three
  · rw [List.singleton_append, decodeFrom_cons, feed, begin_ascii one, Char.ofNat_toNat]
    rfl
  · have code : char.toNat / 0x40 * 0x40 + char.toNat % 0x40 = char.toNat := by omega
    simp only [List.cons_append, List.nil_append, decodeFrom_cons]
    rw [feed, begin_two (by omega) (by omega)]
    simp only
    rw [feed_last (by omega) (by omega) (by omega), code, Char.ofNat_toNat]
    rfl
  · have code : (char.toNat / 0x1000 * 0x40 + char.toNat / 0x40 % 0x40) * 0x40 +
        char.toNat % 0x40 = char.toNat := by
      omega
    simp only [List.cons_append, List.nil_append, decodeFrom_cons]
    rw [feed, begin_three (by omega)]
    simp only
    rw [feed_more (by split_ifs <;> omega) (by split_ifs <;> omega) (by omega)]
    simp only
    rw [feed_last (by omega) (by omega) (by omega), code, Char.ofNat_toNat]
    rfl
  · have code : ((char.toNat / 0x40000 * 0x40 + char.toNat / 0x1000 % 0x40) * 0x40 +
        char.toNat / 0x40 % 0x40) * 0x40 + char.toNat % 0x40 = char.toNat := by
      omega
    simp only [List.cons_append, List.nil_append, decodeFrom_cons]
    rw [feed, begin_four (by omega)]
    simp only
    rw [feed_more (by split_ifs <;> omega) (by split_ifs <;> omega) (by omega)]
    simp only
    rw [feed_more (by omega) (by omega) (by omega)]
    simp only
    rw [feed_last (by omega) (by omega) (by omega), code, Char.ofNat_toNat]
    rfl

@[simp] theorem decode_encode (text : List Char) : decode (encode text) = text := by
  induction text with
  | nil => rfl
  | cons char text ih =>
    show decodeFrom none (encodeChar char ++ encode text) = char :: text
    rw [decodeFrom_encodeChar]
    exact congrArg (char :: ·) ih

/-! ### Texts within bytes -/

theorem encode_cons (char : Char) (text : List Char) :
    encode (char :: text) = encodeChar char ++ encode text := rfl

theorem encode_append (left right : List Char) :
    encode (left ++ right) = encode left ++ encode right := List.flatMap_append

theorem decode_encode_append (text : List Char) (rest : List UInt8) :
    decode (encode text ++ rest) = text ++ decode rest := by
  induction text with
  | nil => rfl
  | cons char text ih =>
    rw [encode_cons, List.append_assoc, decode, decodeFrom_encodeChar]
    exact congrArg (char :: ·) ih

theorem encode_isPrefix_iff {left right : List Char} :
    encode left <+: encode right ↔ left <+: right := by
  constructor
  · rintro ⟨rest, same⟩
    have decoded := congrArg decode same
    rw [decode_encode_append, decode_encode] at decoded
    exact ⟨_, decoded⟩
  · rintro ⟨rest, rfl⟩
    rw [encode_append]
    exact List.prefix_append ..

theorem mem_encode_iff {text : List Char} {byte : UInt8} (ascii : byte.toNat < 0x80) :
    byte ∈ encode text ↔ Char.ofNat byte.toNat ∈ text := by
  constructor
  · intro member
    obtain ⟨char, listed, inside⟩ := List.mem_flatMap.mp member
    have range := Utf16.toNat_cases char
    have code : char.toNat = byte.toNat := by
      unfold encodeChar at inside
      split_ifs at inside
      all_goals
        simp only [List.mem_cons, List.not_mem_nil, or_false, ← UInt8.toNat_inj,
          UInt8.toNat_ofNat'] at inside
        omega
    rw [← code, Char.ofNat_toNat]
    exact listed
  · intro listed
    refine List.mem_flatMap.mpr ⟨_, listed, ?_⟩
    rw [encodeChar, Utf16.toNat_ofNat (by omega), if_pos ascii, UInt8.ofNat_toNat]
    exact List.mem_singleton_self byte

theorem sibling (char : Char) :
    ∃ other, other ≠ char ∧ (encodeChar other).dropLast = (encodeChar char).dropLast := by
  have range := Utf16.toNat_cases char
  obtain ⟨code, value⟩ : ∃ code, code = char.toNat / 2 * 2 + (1 - char.toNat % 2) := ⟨_, rfl⟩
  have otherCode : (Char.ofNat code).toNat = code := Utf16.toNat_ofNat (by omega)
  refine ⟨Char.ofNat code, ?_, ?_⟩
  · rintro rfl
    omega
  · unfold encodeChar
    rw [otherCode]
    have high : code / 0x40 = char.toNat / 0x40 := by omega
    have higher : code / 0x1000 = char.toNat / 0x1000 := by omega
    have highest : code / 0x40000 = char.toNat / 0x40000 := by omega
    split_ifs <;> first | omega | simp [high, higher, highest]

theorem diverges {text : List Char} {left right : List UInt8} (bytes : encode text = left ++ right)
    (unfinished : right ≠ []) :
    ∃ other, left <+: encode other ∧ ∀ more, ¬ text <+: other ++ more := by
  induction text generalizing left with
  | nil => exact absurd (List.append_eq_nil_iff.mp bytes.symm).2 unfinished
  | cons char text ih =>
    rw [encode_cons, List.append_eq_append_iff] at bytes
    obtain ⟨rest, rfl, later⟩ | ⟨rest, whole, rfl⟩ := bytes
    · obtain ⟨other, begins, apart⟩ := ih later
      refine ⟨char :: other, ?_, ?_⟩
      · rw [encode_cons]
        exact (List.prefix_append_right_inj _).mpr begins
      · intro more continued
        exact apart more (List.cons_prefix_cons.mp continued).2
    · by_cases ends : rest = []
      · have later : encode text = [] ++ (rest ++ encode text) := by rw [ends]; rfl
        obtain ⟨other, -, apart⟩ := ih later
        refine ⟨char :: other, ?_, ?_⟩
        · rw [encode_cons, whole, ends, List.append_nil]
          exact List.prefix_append ..
        · intro more continued
          exact apart more (List.cons_prefix_cons.mp continued).2
      · obtain ⟨other, ne, same⟩ := sibling char
        refine ⟨[other], ?_, ?_⟩
        · have most : left <+: (encodeChar other).dropLast := by
            rw [same, whole, List.dropLast_append_of_ne_nil ends]
            exact List.prefix_append ..
          rw [encode_cons]
          exact (most.trans (List.dropLast_prefix _)).trans (List.prefix_append ..)
        · intro more continued
          exact ne (List.cons_prefix_cons.mp continued).1.symm

end SorobanExplorer.Library.Utf8
