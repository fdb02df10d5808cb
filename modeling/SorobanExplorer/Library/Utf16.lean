import Mathlib.Data.UInt
import Mathlib.Tactic.Common

/-!
Owns UTF-16: characters as code units, code units read back as characters, and
the order of two texts by code units against their order by code points.
-/

namespace SorobanExplorer.Library.Utf16

/-! ### Code units -/

def supplementary (char : Char) : Bool := 0x10000 ≤ char.toNat

def encodeChar (char : Char) : List UInt16 :=
  if supplementary char then
    [UInt16.ofNat (0xD800 + (char.toNat - 0x10000) / 0x400),
      UInt16.ofNat (0xDC00 + (char.toNat - 0x10000) % 0x400)]
  else [UInt16.ofNat char.toNat]

def encode (text : List Char) : List UInt16 := text.flatMap encodeChar

theorem encode_cons (char : Char) (text : List Char) :
    encode (char :: text) = encodeChar char ++ encode text := rfl

theorem encode_append (left right : List Char) :
    encode (left ++ right) = encode left ++ encode right := List.flatMap_append

def leading (unit : UInt16) : Bool := 0xD800 ≤ unit.toNat && unit.toNat < 0xDC00

def trailing (unit : UInt16) : Bool := 0xDC00 ≤ unit.toNat && unit.toNat < 0xE000

def single (unit : UInt16) : Char :=
  if leading unit || trailing unit then Char.ofNat 0xFFFD else Char.ofNat unit.toNat

def pair (lead trail : UInt16) : Char :=
  Char.ofNat (0x10000 + (lead.toNat - 0xD800) * 0x400 + (trail.toNat - 0xDC00))

def decode : List UInt16 → List Char
  | [] => []
  | [unit] => [single unit]
  | unit :: next :: rest =>
    if leading unit && trailing next then pair unit next :: decode rest
    else single unit :: decode (next :: rest)

def WellFormed (units : List UInt16) : Prop := encode (decode units) = units

instance (units : List UInt16) : Decidable (WellFormed units) :=
  inferInstanceAs (Decidable (encode (decode units) = units))

/-! ### Reading back -/

theorem toNat_cases (char : Char) :
    char.toNat < 0xD800 ∨ 0xE000 ≤ char.toNat ∧ char.toNat < 0x110000 := by
  rcases char.valid with low | ⟨low, high⟩
  · exact Or.inl low
  · exact Or.inr ⟨low, high⟩

theorem decode_cons_single {unit : UInt16} (noLead : leading unit = false) (rest : List UInt16) :
    decode (unit :: rest) = single unit :: decode rest := by
  cases rest with
  | nil => rfl
  | cons next rest => simp [decode, noLead]

theorem encodeChar_basic {char : Char} (basic : char.toNat < 0x10000) :
    ∃ unit : UInt16, encodeChar char = [unit] ∧ unit.toNat = char.toNat := by
  have plane : supplementary char = false := by
    simpa [supplementary] using basic
  exact ⟨UInt16.ofNat char.toNat, by simp [encodeChar, plane], UInt16.toNat_ofNat_of_lt' basic⟩

theorem encodeChar_supplementary {char : Char} (plane : 0x10000 ≤ char.toNat) :
    ∃ lead trail : UInt16, encodeChar char = [lead, trail] ∧
      lead.toNat = 0xD800 + (char.toNat - 0x10000) / 0x400 ∧
      trail.toNat = 0xDC00 + (char.toNat - 0x10000) % 0x400 := by
  have range := toNat_cases char
  have isPlane : supplementary char = true := by
    simpa [supplementary] using plane
  refine ⟨_, _, by rw [encodeChar, if_pos isPlane], ?_, ?_⟩
  · apply UInt16.toNat_ofNat_of_lt'
    show _ < 2 ^ 16
    omega
  · apply UInt16.toNat_ofNat_of_lt'
    show _ < 2 ^ 16
    omega

theorem decode_encodeChar (char : Char) (rest : List UInt16) :
    decode (encodeChar char ++ rest) = char :: decode rest := by
  have range := toNat_cases char
  by_cases plane : 0x10000 ≤ char.toNat
  · obtain ⟨lead, trail, encoded, leadValue, trailValue⟩ := encodeChar_supplementary plane
    have isLead : leading lead = true := by
      simp only [leading, leadValue, Bool.and_eq_true, decide_eq_true_eq]
      omega
    have isTrail : trailing trail = true := by
      simp only [trailing, trailValue, Bool.and_eq_true, decide_eq_true_eq]
      omega
    have joined : 0x10000 + (lead.toNat - 0xD800) * 0x400 + (trail.toNat - 0xDC00) =
        char.toNat := by
      omega
    rw [encoded]
    simp only [List.cons_append, List.nil_append, decode, isLead, isTrail, Bool.and_self, if_true,
      pair, joined, Char.ofNat_toNat]
  · obtain ⟨unit, encoded, unitValue⟩ := encodeChar_basic (not_le.mp plane)
    have noLead : leading unit = false := by
      simp only [leading, unitValue, Bool.and_eq_false_iff, decide_eq_false_iff_not]
      omega
    have noTrail : trailing unit = false := by
      simp only [trailing, unitValue, Bool.and_eq_false_iff, decide_eq_false_iff_not]
      omega
    rw [encoded, List.singleton_append, decode_cons_single noLead]
    simp [single, noLead, noTrail, unitValue]

@[simp] theorem decode_encode (text : List Char) : decode (encode text) = text := by
  induction text with
  | nil => rfl
  | cons char text ih =>
    show decode (encodeChar char ++ encode text) = char :: text
    rw [decode_encodeChar, ih]

theorem toNat_ofNat {code : Nat} (valid : code < 0xD800 ∨ 0xE000 ≤ code ∧ code < 0x110000) :
    (Char.ofNat code).toNat = code := by
  have valid : code.isValidChar := by
    unfold Nat.isValidChar
    omega
  rw [Char.ofNat, dif_pos valid]
  rfl

theorem toNat_single {unit : UInt16} (noLead : leading unit = false)
    (noTrail : trailing unit = false) : (single unit).toNat = unit.toNat := by
  have bound := unit.toNat_lt
  have self : single unit = Char.ofNat unit.toNat := by
    rw [single, noLead, noTrail]
    rfl
  simp only [leading, trailing, Bool.and_eq_false_iff, decide_eq_false_iff_not] at noLead noTrail
  rw [self]
  exact toNat_ofNat (by omega)

theorem encodeChar_single {unit : UInt16} (noLead : leading unit = false)
    (noTrail : trailing unit = false) : encodeChar (single unit) = [unit] := by
  have code := toNat_single noLead noTrail
  have bound := unit.toNat_lt
  have plane : supplementary (single unit) = false := by
    simp only [supplementary, code, decide_eq_false_iff_not]
    omega
  rw [encodeChar, plane, code, UInt16.ofNat_toNat]
  rfl

theorem toNat_pair {lead trail : UInt16} (isLead : leading lead = true)
    (isTrail : trailing trail = true) :
    (pair lead trail).toNat =
      0x10000 + (lead.toNat - 0xD800) * 0x400 + (trail.toNat - 0xDC00) := by
  simp only [leading, trailing, Bool.and_eq_true, decide_eq_true_eq] at isLead isTrail
  exact toNat_ofNat (by omega)

theorem encodeChar_pair {lead trail : UInt16} (isLead : leading lead = true)
    (isTrail : trailing trail = true) : encodeChar (pair lead trail) = [lead, trail] := by
  have code := toNat_pair isLead isTrail
  simp only [leading, trailing, Bool.and_eq_true, decide_eq_true_eq] at isLead isTrail
  have plane : supplementary (pair lead trail) = true := by
    simp only [supplementary, code, decide_eq_true_eq]
    omega
  have first : 0xD800 + ((pair lead trail).toNat - 0x10000) / 0x400 = lead.toNat := by omega
  have second : 0xDC00 + ((pair lead trail).toNat - 0x10000) % 0x400 = trail.toNat := by omega
  rw [encodeChar, if_pos plane, first, second, UInt16.ofNat_toNat, UInt16.ofNat_toNat]

theorem mem_of_mem_encode {text : List Char} {unit : UInt16} (member : unit ∈ encode text)
    (low : unit.toNat < 0xD800) : Char.ofNat unit.toNat ∈ text := by
  obtain ⟨char, listed, inside⟩ := List.mem_flatMap.mp member
  by_cases plane : 0x10000 ≤ char.toNat
  · obtain ⟨lead, trail, encoded, leadValue, trailValue⟩ := encodeChar_supplementary plane
    rw [encoded, List.mem_pair] at inside
    obtain rfl | rfl := inside <;> omega
  · obtain ⟨only, encoded, value⟩ := encodeChar_basic (not_le.mp plane)
    rw [encoded, List.mem_singleton] at inside
    rw [inside, value, Char.ofNat_toNat]
    exact listed

theorem encode_injective {left right : List Char} (same : encode left = encode right) :
    left = right := by
  rw [← decode_encode left, same, decode_encode]

/-! ### Texts within units -/

theorem decode_encode_append (text : List Char) (rest : List UInt16) :
    decode (encode text ++ rest) = text ++ decode rest := by
  induction text with
  | nil => rfl
  | cons char text ih =>
    rw [encode_cons, List.append_assoc, decode_encodeChar, ih]
    rfl

theorem length_encode_decode (units : List UInt16) :
    (encode (decode units)).length = units.length := by
  induction units using decode.induct with
  | case1 => rfl
  | case2 unit =>
    cases surrogate : leading unit || trailing unit with
    | true => simp [decode, single, surrogate, encodeChar, supplementary, encode]
    | false =>
      rw [Bool.or_eq_false_iff] at surrogate
      rw [decode, encode_cons, encodeChar_single surrogate.1 surrogate.2]
      rfl
  | case3 unit next rest joined ih =>
    rw [Bool.and_eq_true] at joined
    rw [decode, if_pos (by simp [joined]), encode_cons, encodeChar_pair joined.1 joined.2,
      List.length_append, ih]
    exact Nat.add_comm ..
  | case4 unit next rest apart ih =>
    rw [decode, if_neg apart, encode_cons, List.length_append, ih]
    cases surrogate : leading unit || trailing unit with
    | true =>
      rw [single, surrogate]
      exact Nat.add_comm ..
    | false =>
      rw [Bool.or_eq_false_iff] at surrogate
      rw [encodeChar_single surrogate.1 surrogate.2]
      exact Nat.add_comm ..

theorem units_of_decode {units : List UInt16} {text rest : List Char}
    (decoded : decode units = text ++ rest) (real : Char.ofNat 0xFFFD ∉ text) :
    ∃ tail, units = encode text ++ tail ∧ decode tail = rest := by
  induction text generalizing units with
  | nil => exact ⟨units, rfl, decoded⟩
  | cons char text ih =>
    have others : Char.ofNat 0xFFFD ∉ text := fun listed =>
      real (List.mem_cons_of_mem _ listed)
    have own {unit : UInt16} (first : single unit = char) : encodeChar char = [unit] := by
      have plain : (leading unit || trailing unit) = false := by
        by_contra surrogate
        rw [Bool.not_eq_false] at surrogate
        apply real
        rw [← first, single, surrogate]
        exact List.mem_cons_self
      rw [Bool.or_eq_false_iff] at plain
      rw [← first, encodeChar_single plain.1 plain.2]
    match units with
    | [] => cases decoded
    | [unit] =>
      obtain ⟨first, later⟩ := List.cons.inj decoded
      obtain ⟨tail, nothing, decodes⟩ := @ih [] later others
      refine ⟨tail, ?_, decodes⟩
      rw [encode_cons, own first, List.append_assoc, ← nothing]
      rfl
    | unit :: next :: units =>
      rw [decode] at decoded
      split_ifs at decoded with joined
      · obtain ⟨first, later⟩ := List.cons.inj decoded
        obtain ⟨tail, same, decodes⟩ := ih later others
        rw [Bool.and_eq_true] at joined
        refine ⟨tail, ?_, decodes⟩
        rw [encode_cons, ← first, encodeChar_pair joined.1 joined.2, List.append_assoc, ← same]
        rfl
      · obtain ⟨first, later⟩ := List.cons.inj decoded
        obtain ⟨tail, same, decodes⟩ := ih later others
        refine ⟨tail, ?_, decodes⟩
        rw [encode_cons, own first, List.append_assoc, ← same]
        rfl

theorem decode_append_cons {unit : UInt16} (begins : trailing unit = false)
    (units rest : List UInt16) :
    decode (units ++ unit :: rest) = decode units ++ decode (unit :: rest) := by
  induction units using decode.induct with
  | case1 => rfl
  | case2 only =>
    simp [decode, begins]
  | case3 only next units joined ih =>
    simp only [List.cons_append, decode, if_pos joined, ih]
  | case4 only next units apart ih =>
    rw [List.cons_append] at ih
    rw [List.cons_append, List.cons_append, decode, if_neg apart, ih, decode,
      if_neg apart]
    rfl

theorem mem_decode {units : List UInt16} {unit : UInt16} (member : unit ∈ units)
    (low : unit.toNat < 0xD800) : Char.ofNat unit.toNat ∈ decode units := by
  obtain ⟨before, after, rfl⟩ := List.append_of_mem member
  have noTrail : trailing unit = false := by
    simp only [trailing, Bool.and_eq_false_iff, decide_eq_false_iff_not]
    omega
  have noLead : leading unit = false := by
    simp only [leading, Bool.and_eq_false_iff, decide_eq_false_iff_not]
    omega
  rw [decode_append_cons noTrail, decode_cons_single noLead, single, noLead, noTrail]
  exact List.mem_append_right _ List.mem_cons_self

/-! ### Order -/

def afterSurrogates (char : Char) : Bool := 0xE000 ≤ char.toNat && char.toNat < 0x10000

def Clash : List Char → List Char → Prop
  | left :: lefts, right :: rights =>
    if left = right then Clash lefts rights
    else supplementary left ∧ afterSurrogates right ∨ afterSurrogates left ∧ supplementary right
  | _, _ => False

instance : DecidableRel Clash := go
where
  go : DecidableRel Clash
  | [], _ => inferInstanceAs (Decidable False)
  | _ :: _, [] => inferInstanceAs (Decidable False)
  | left :: lefts, right :: rights =>
    have := go lefts rights
    inferInstanceAs (Decidable (if left = right then Clash lefts rights
      else supplementary left ∧ afterSurrogates right ∨
        afterSurrogates left ∧ supplementary right))

theorem not_clash_of_basic {left : List Char} (basic : ∀ char ∈ left, char.toNat < 0xD800)
    (right : List Char) : ¬ Clash left right := by
  induction left generalizing right with
  | nil => exact not_false
  | cons char left ih =>
    cases right with
    | nil => exact not_false
    | cons other right =>
      have small := basic char List.mem_cons_self
      unfold Clash
      split_ifs with same
      · exact ih (fun char mem => basic char (List.mem_cons_of_mem _ mem)) _
      · simp only [supplementary, afterSurrogates, decide_eq_true_eq, Bool.and_eq_true]
        omega

theorem compare_cons_of_ne {α : Type} [Ord α] {left right : α} (ne : compare left right ≠ .eq)
    (lefts rights : List α) :
    compare (left :: lefts) (right :: rights) = compare left right := by
  rw [List.compare_eq_compareLex, List.compareLex_cons_cons]
  cases order : compare left right <;> simp_all

theorem compare_append {α : Type} [Ord α] [Std.ReflOrd α] (start lefts rights : List α) :
    compare (start ++ lefts) (start ++ rights) = compare lefts rights := by
  induction start with
  | nil => rfl
  | cons first start ih =>
    rw [List.cons_append, List.cons_append, List.compare_eq_compareLex,
      List.compareLex_cons_cons, Std.ReflOrd.compare_self]
    simpa [List.compare_eq_compareLex] using ih

theorem compare_char (left right : Char) : compare left right = compare left.toNat right.toNat := by
  show compareOfLessAndEq left right = compareOfLessAndEq left.toNat right.toNat
  have order : left < right ↔ left.toNat < right.toNat := Iff.rfl
  unfold compareOfLessAndEq
  simp only [order, Char.toNat_inj]

theorem compare_unit (left right : UInt16) :
    compare left right = compare left.toNat right.toNat := by
  show compareOfLessAndEq left right = compareOfLessAndEq left.toNat right.toNat
  unfold compareOfLessAndEq
  simp only [UInt16.lt_iff_toNat_lt, UInt16.toNat_inj]

theorem compare_first {left right : UInt16} {low high : Nat} (apart : left.toNat ≠ right.toNat)
    (differ : low ≠ high) (order : left.toNat < right.toNat ↔ low < high)
    (lefts rights : List UInt16) :
    compare (left :: lefts) (right :: rights) = compare low high := by
  rw [compare_cons_of_ne, compare_unit, Nat.compare_eq_ite_lt, Nat.compare_eq_ite_lt]
  · split_ifs <;> first | rfl | omega
  · rwa [compare_unit, ne_eq, Nat.compare_eq_eq]

theorem compare_encodeChar {left right : Char} (ne : left ≠ right)
    (noClash : ¬ (supplementary left ∧ afterSurrogates right ∨
      afterSurrogates left ∧ supplementary right)) (lefts rights : List UInt16) :
    compare (encodeChar left ++ lefts) (encodeChar right ++ rights) = compare left right := by
  have leftRange := toNat_cases left
  have rightRange := toNat_cases right
  have apart : left.toNat ≠ right.toNat := fun same => ne (Char.toNat_inj.mp same)
  simp only [supplementary, afterSurrogates, decide_eq_true_eq, Bool.and_eq_true] at noClash
  rw [compare_char]
  by_cases leftPlane : 0x10000 ≤ left.toNat <;> by_cases rightPlane : 0x10000 ≤ right.toNat
  · obtain ⟨lead, trail, leftEncoded, leadValue, trailValue⟩ := encodeChar_supplementary leftPlane
    obtain ⟨lead', trail', rightEncoded, leadValue', trailValue'⟩ :=
      encodeChar_supplementary rightPlane
    rw [leftEncoded, rightEncoded]
    by_cases sameLead : lead = lead'
    · subst sameLead
      show compare ([lead] ++ (trail :: lefts)) ([lead] ++ (trail' :: rights)) = _
      rw [compare_append]
      apply compare_first <;> omega
    · have leads : lead.toNat ≠ lead'.toNat := fun same => sameLead (UInt16.toNat_inj.mp same)
      apply compare_first <;> omega
  · obtain ⟨lead, trail, leftEncoded, leadValue, -⟩ := encodeChar_supplementary leftPlane
    obtain ⟨unit, rightEncoded, unitValue⟩ := encodeChar_basic (not_le.mp rightPlane)
    rw [leftEncoded, rightEncoded]
    apply compare_first <;> omega
  · obtain ⟨unit, leftEncoded, unitValue⟩ := encodeChar_basic (not_le.mp leftPlane)
    obtain ⟨lead, trail, rightEncoded, leadValue, -⟩ := encodeChar_supplementary rightPlane
    rw [leftEncoded, rightEncoded]
    apply compare_first <;> omega
  · obtain ⟨unit, leftEncoded, unitValue⟩ := encodeChar_basic (not_le.mp leftPlane)
    obtain ⟨unit', rightEncoded, unitValue'⟩ := encodeChar_basic (not_le.mp rightPlane)
    rw [leftEncoded, rightEncoded]
    apply compare_first <;> omega

theorem encodeChar_ne_nil (char : Char) : encodeChar char ≠ [] := by
  unfold encodeChar
  split <;> simp

theorem encode_ne_nil {text : List Char} (nonempty : text ≠ []) : encode text ≠ [] := by
  obtain ⟨char, rest, rfl⟩ := List.exists_cons_of_ne_nil nonempty
  exact List.append_ne_nil_of_left_ne_nil (encodeChar_ne_nil char) _

theorem compare_encode {left right : List Char} (noClash : ¬ Clash left right) :
    compare (encode left) (encode right) = compare left right := by
  induction left generalizing right with
  | nil =>
    cases right with
    | nil => rfl
    | cons char right =>
      obtain ⟨unit, units, encoded⟩ := List.exists_cons_of_ne_nil (encodeChar_ne_nil char)
      show compare [] (encodeChar char ++ encode right) = _
      rw [encoded]
      rfl
  | cons char left ih =>
    cases right with
    | nil =>
      obtain ⟨unit, units, encoded⟩ := List.exists_cons_of_ne_nil (encodeChar_ne_nil char)
      show compare (encodeChar char ++ encode left) [] = _
      rw [encoded]
      rfl
    | cons other right =>
      show compare (encodeChar char ++ encode left) (encodeChar other ++ encode right) = _
      by_cases same : char = other
      · subst same
        rw [Clash, if_pos rfl] at noClash
        rw [compare_append, ih noClash]
        exact (compare_append [char] left right).symm
      · rw [Clash, if_neg same] at noClash
        rw [compare_encodeChar same noClash, compare_cons_of_ne]
        rw [compare_char, ne_eq, Nat.compare_eq_eq, Char.toNat_inj]
        exact same

end SorobanExplorer.Library.Utf16
