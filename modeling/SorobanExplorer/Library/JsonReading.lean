import SorobanExplorer.Library.Hex
import SorobanExplorer.Library.JsNumber

/-!
Owns the text that `JSON.stringify` writes of a tree, without spaces, and the reading of it:
strings with their escapes, lone surrogates among them, and numbers as ECMAScript prints them. A
tree whose numbers are spelled as they are written is read back from its text.
-/

namespace SorobanExplorer.Library.Json

/-- The four digits after `\u`. -/
def unitDigits (unit : UInt16) : List UInt16 :=
  Utf16.encode (Hex.encode [UInt8.ofNat (unit.toNat / 256), UInt8.ofNat (unit.toNat % 256)])

def writeUnit (unit : UInt16) : List UInt16 :=
  if unit = 0x22 then [0x5C, 0x22]
  else if unit = 0x5C then [0x5C, 0x5C]
  else if unit = 0x08 then [0x5C, 0x62]
  else if unit = 0x0C then [0x5C, 0x66]
  else if unit = 0x0A then [0x5C, 0x6E]
  else if unit = 0x0D then [0x5C, 0x72]
  else if unit = 0x09 then [0x5C, 0x74]
  else if unit.toNat < 0x20 || Utf16.leading unit || Utf16.trailing unit then
    0x5C :: 0x75 :: unitDigits unit
  else [unit]

def writeUnits : List UInt16 → List UInt16
  | [] => []
  | [unit] => writeUnit unit
  | first :: second :: rest =>
    if Utf16.leading first && Utf16.trailing second then
      first :: second :: writeUnits rest
    else writeUnit first ++ writeUnits (second :: rest)

def quoted (units : List UInt16) : List UInt16 := 0x22 :: writeUnits units ++ [0x22]

def commaSeparated : List (List UInt16) → List UInt16
  | [] => []
  | [part] => part
  | part :: parts => part ++ 0x2C :: commaSeparated parts

mutual

def stringify : Json → List UInt16
  | .null => Utf16.encode ['n', 'u', 'l', 'l']
  | .boolean true => Utf16.encode ['t', 'r', 'u', 'e']
  | .boolean false => Utf16.encode ['f', 'a', 'l', 's', 'e']
  | .number numeral =>
    if (JsNumber.ofNumeral numeral).isFinite then
      Utf16.encode (JsNumber.ofNumeral numeral).text
    else Utf16.encode ['n', 'u', 'l', 'l']
  | .string units => quoted units
  | .array items => 0x5B :: commaSeparated (stringifyItems items) ++ [0x5D]
  | .object members => 0x7B :: commaSeparated (stringifyMembers members) ++ [0x7D]

def stringifyItems : List Json → List (List UInt16)
  | [] => []
  | item :: items => stringify item :: stringifyItems items

def stringifyMembers : List (List UInt16 × Json) → List (List UInt16)
  | [] => []
  | (name, value) :: members =>
    (quoted name ++ 0x3A :: stringify value) :: stringifyMembers members

end

/-! ### Strings -/

def ReadsUnit (unit : UInt16) (text : List Char) : Prop :=
  ∀ {rest left : List Char} {units : List UInt16},
    takeString? rest = some (units, left) → takeString? (text ++ rest) = some (unit :: units, left)

theorem hexUnit?_digits (unit : UInt16) :
    hexUnit? (Hex.encode [UInt8.ofNat (unit.toNat / 256), UInt8.ofNat (unit.toNat % 256)]) =
      some unit := by
  have bound := unit.toNat_lt
  have high : (UInt8.ofNat (unit.toNat / 256)).toNat = unit.toNat / 256 :=
    UInt8.toNat_ofNat_of_lt' (show _ < 256 by omega)
  have low : (UInt8.ofNat (unit.toNat % 256)).toNat = unit.toNat % 256 :=
    UInt8.toNat_ofNat_of_lt' (show _ < 256 by omega)
  have digits : 16 * (16 * (16 * (unit.toNat / 256 / 16) + unit.toNat / 256 % 16) +
      unit.toNat % 256 / 16) + unit.toNat % 256 % 16 = unit.toNat := by
    omega
  have values : (Hex.encode [UInt8.ofNat (unit.toNat / 256), UInt8.ofNat (unit.toNat % 256)]).mapM
      hexDigit? = some [unit.toNat / 256 / 16, unit.toNat / 256 % 16, unit.toNat % 256 / 16,
        unit.toNat % 256 % 16] := by
    simp only [Hex.encode, high, low, List.mapM_cons, List.mapM_nil,
      Hex.hexDigit?_digit (show unit.toNat / 256 / 16 < 16 by omega),
      Hex.hexDigit?_digit (show unit.toNat / 256 % 16 < 16 by omega),
      Hex.hexDigit?_digit (show unit.toNat % 256 / 16 < 16 by omega),
      Hex.hexDigit?_digit (show unit.toNat % 256 % 16 < 16 by omega)]
    rfl
  show (List.mapM hexDigit? _).bind _ = _
  rw [values, Option.bind_some]
  simp only [List.foldl_cons, List.foldl_nil, Nat.mul_zero, Nat.zero_add, digits,
    UInt16.ofNat_toNat]
  rfl

theorem readsUnit_escape {unit : UInt16} {mark : Char} (notHex : mark ≠ 'u')
    (escape : escape? mark = some unit) : ReadsUnit unit ['\\', mark] := by
  intro rest left units reads
  have step : takeString? ('\\' :: mark :: rest) = (escape? mark).bind fun unit =>
      (takeString? rest).bind fun taken => some (unit :: taken.1, taken.2) := by
    rw [takeString?]
    · rfl
    · intro _ _ _ _ _ same
      exact absurd same notHex
  show takeString? ('\\' :: mark :: rest) = _
  rw [step, escape, reads]
  rfl

theorem readsUnit_hex (unit : UInt16) :
    ReadsUnit unit ('\\' :: 'u' ::
      Hex.encode [UInt8.ofNat (unit.toNat / 256), UInt8.ofNat (unit.toNat % 256)]) := by
  intro rest left units reads
  have digits := hexUnit?_digits unit
  simp only [Hex.encode] at digits
  simp only [Hex.encode, List.cons_append, List.nil_append, takeString?]
  rw [digits, reads]
  rfl

theorem takeString?_plain (char : Char) (notQuote : char.toNat ≠ 0x22)
    (notEscape : char.toNat ≠ 0x5C) (notControl : 0x20 ≤ char.toNat) {rest left : List Char}
    {units : List UInt16} (reads : takeString? rest = some (units, left)) :
    takeString? (char :: rest) = some (Utf16.encodeChar char ++ units, left) := by
  have quote : char ≠ '"' := fun same => notQuote (by rw [same]; rfl)
  have escape : char ≠ '\\' := fun same => notEscape (by rw [same]; rfl)
  have plain : ¬ (char.toNat < 0x20 ∨ char = '\\') := by
    simp only [escape, or_false]
    omega
  rw [takeString?, if_neg plain, reads]
  · rfl
  · exact quote
  · intro _ _ _ _ _ same
    exact absurd same escape
  · intro _ _ same
    exact absurd same escape

theorem writeUnit_reads (unit : UInt16) :
    ∃ text, writeUnit unit = Utf16.encode text ∧ ReadsUnit unit text := by
  unfold writeUnit
  split_ifs with quote escape back form line carriage tab control
  · exact ⟨['\\', '"'], rfl, readsUnit_escape (by decide) (by rw [quote]; rfl)⟩
  · exact ⟨['\\', '\\'], rfl, readsUnit_escape (by decide) (by rw [escape]; rfl)⟩
  · exact ⟨['\\', 'b'], rfl, readsUnit_escape (by decide) (by rw [back]; rfl)⟩
  · exact ⟨['\\', 'f'], rfl, readsUnit_escape (by decide) (by rw [form]; rfl)⟩
  · exact ⟨['\\', 'n'], rfl, readsUnit_escape (by decide) (by rw [line]; rfl)⟩
  · exact ⟨['\\', 'r'], rfl, readsUnit_escape (by decide) (by rw [carriage]; rfl)⟩
  · exact ⟨['\\', 't'], rfl, readsUnit_escape (by decide) (by rw [tab]; rfl)⟩
  · exact ⟨_, rfl, readsUnit_hex unit⟩
  · simp only [Bool.or_eq_true, decide_eq_true_eq, not_or, Bool.not_eq_true] at control
    have self := Utf16.encodeChar_single control.1.2 control.2
    have code := Utf16.toNat_single control.1.2 control.2
    refine ⟨[Utf16.single unit], by simp [Utf16.encode, self], fun reads => ?_⟩
    have notQuote : unit.toNat ≠ 0x22 := fun same => quote (UInt16.toNat_inj.mp same)
    have notEscape : unit.toNat ≠ 0x5C := fun same => escape (UInt16.toNat_inj.mp same)
    have read := takeString?_plain (Utf16.single unit) (by omega) (by omega) (by omega) reads
    rwa [self] at read

theorem writeUnits_reads (units : List UInt16) :
    ∃ text, writeUnits units ++ [0x22] = Utf16.encode text ∧
      ∀ rest, takeString? (text ++ rest) = some (units, rest) := by
  induction units using writeUnits.induct with
  | case1 => exact ⟨['"'], rfl, fun rest => by simp [takeString?]⟩
  | case2 unit =>
    obtain ⟨text, written, reads⟩ := writeUnit_reads unit
    refine ⟨text ++ ['"'], by rw [writeUnits, written, Utf16.encode_append]; rfl, fun rest => ?_⟩
    rw [List.append_assoc]
    exact reads (by simp [takeString?])
  | case3 first second rest surrogates ih =>
    obtain ⟨text, written, reads⟩ := ih
    obtain ⟨isLead, isTrail⟩ := Bool.and_eq_true_iff.mp surrogates
    have self := Utf16.encodeChar_pair isLead isTrail
    refine ⟨Utf16.pair first second :: text, ?_, fun left => ?_⟩
    · rw [writeUnits, if_pos surrogates, Utf16.encode_cons, self, ← written]
      rfl
    · have plane := Utf16.toNat_pair isLead isTrail
      have read := takeString?_plain (Utf16.pair first second) (by omega) (by omega) (by omega)
        (reads left)
      rwa [self] at read
  | case4 first second rest apart ih =>
    obtain ⟨text, written, reads⟩ := ih
    obtain ⟨start, startWritten, startReads⟩ := writeUnit_reads first
    refine ⟨start ++ text, ?_, fun left => ?_⟩
    · rw [writeUnits, if_neg apart, List.append_assoc, written, startWritten,
        Utf16.encode_append]
    · rw [List.append_assoc]
      exact startReads (reads left)

/-! ### Numbers -/

/-- A numeral spelled as `String(number)` spells it. -/
def Spelled (numeral : Numeral) : Prop :=
  (JsNumber.ofNumeral numeral).isFinite = true ∧ (JsNumber.ofNumeral numeral).numeral = numeral

theorem ofNumeral_numeral {number : JsNumber} (finite : number.isFinite = true) :
    JsNumber.ofNumeral number.numeral = number := by
  obtain ⟨value, rounded⟩ := number
  exact JsNumber.mk.injEq .. ▸ JsNumber.round_numeral finite

theorem spelled_numeral {number : JsNumber} (finite : number.isFinite = true) :
    Spelled number.numeral := by
  rw [Spelled, ofNumeral_numeral finite]
  exact ⟨finite, rfl⟩

def EndsValue (rest : List Char) : Prop :=
  ∀ char ∈ rest.head?, char = ',' ∨ char = ']' ∨ char = '\x7d'

theorem EndsValue.endsNumeral {rest : List Char} (ends : EndsValue rest) :
    Numeral.EndsNumeral rest := by
  intro char first
  rcases ends char first with rfl | rfl | rfl <;> decide

theorem whole_plain (negative : Bool) (coefficient scale : Nat) :
    ∃ value, (Numeral.plain negative coefficient scale).whole.list = Digit.ofNat value :=
  ⟨coefficient / 10 ^ scale, rfl⟩

theorem whole_numeral (number : JsNumber) :
    ∃ value, number.numeral.whole.list = Digit.ofNat value := by
  unfold JsNumber.numeral
  split_ifs with zero
  · exact whole_plain false 0 0
  obtain ⟨digits, count, point⟩ := JsNumber.shortest |number.value|
  unfold JsNumber.layout
  simp only
  split_ifs
  · exact whole_plain _ _ _
  · exact whole_plain _ _ _
  · exact whole_plain (decide (number.value < 0)) digits (count - 1)

theorem takeNumber?_text {numeral : Numeral} (spelled : Spelled numeral) {rest : List Char}
    (ends : EndsValue rest) : takeNumber? (numeral.text ++ rest) = some (numeral, rest) := by
  have reads := Numeral.take?_text_append numeral ends.endsNumeral
  obtain ⟨value, whole⟩ := whole_numeral (JsNumber.ofNumeral numeral)
  rw [spelled.2] at whole
  have single : ¬ (numeral.whole.list.head? = some 0 ∧ 1 < numeral.whole.list.length) := by
    rintro ⟨zero, more⟩
    rw [whole] at zero more
    rw [Digit.ofNat_leading zero, Digit.ofNat_length] at more
    simp at more
  show (Numeral.take? _).bind _ = _
  rw [reads, Option.bind_some]
  exact if_neg single

/-! ### Values -/

def StartsValue (text : List Char) : Prop :=
  ∃ char tail, text = char :: tail ∧ isBlank char = false ∧ char ≠ ']'

theorem StartsValue.skipBlank_append {text : List Char} (starts : StartsValue text)
    (rest : List Char) : skipBlank (text ++ rest) = text ++ rest := by
  obtain ⟨char, tail, rfl, solid, -⟩ := starts
  simp [skipBlank, solid]

theorem skipBlank_of_endsValue {rest : List Char} (ends : EndsValue rest) :
    skipBlank rest = rest := by
  cases rest with
  | nil => rfl
  | cons char rest =>
    have solid : isBlank char = false := by
      rcases ends char rfl with rfl | rfl | rfl <;> rfl
    simp [skipBlank, solid]

theorem skipBlank_opening (char : Char) (rest : List Char) (solid : isBlank char = false) :
    skipBlank (char :: rest) = char :: rest := by
  simp [skipBlank, solid]

theorem text_start (numeral : Numeral) :
    ∃ char tail, numeral.text = char :: tail ∧ (char = '-' ∨ ∃ digit, char = Digit.char digit) := by
  obtain ⟨negative, ⟨list, ne_nil⟩, fraction, exponent⟩ := numeral
  cases list with
  | nil => contradiction
  | cons digit list =>
    cases negative with
    | true => exact ⟨_, _, rfl, Or.inl rfl⟩
    | false => exact ⟨_, _, rfl, Or.inr ⟨digit, rfl⟩⟩

theorem start_apart {char : Char} (start : char = '-' ∨ ∃ digit, char = Digit.char digit) :
    isBlank char = false ∧ char ∉ ['"', '[', ']', '\x7b', 'n', 't', 'f'] := by
  rcases start with rfl | ⟨digit, rfl⟩
  · decide
  · revert digit
    decide

theorem takeValue?_number (fuel : Nat) {char : Char} (tail : List Char)
    (start : char = '-' ∨ ∃ digit, char = Digit.char digit) :
    takeValue? (fuel + 1) (char :: tail) =
      (takeNumber? (char :: tail)).map fun taken => (.number taken.1, taken.2) := by
  obtain ⟨blank, apart⟩ := start_apart start
  simp only [List.mem_cons, List.not_mem_nil, or_false, not_or] at apart
  obtain ⟨quote, bracket, -, brace, n, t, f⟩ := apart
  have skip : skipBlank (char :: tail) = char :: tail := by simp [skipBlank, blank]
  rw [takeValue?, skip]
  simp [takeWord?, quote, bracket, brace, Ne.symm n, Ne.symm t, Ne.symm f]

mutual

def Printed : Json → Prop
  | .number numeral => Spelled numeral
  | .array items => PrintedItems items
  | .object members => PrintedMembers members
  | _ => True

def PrintedItems : List Json → Prop
  | [] => True
  | item :: items => Printed item ∧ PrintedItems items

def PrintedMembers : List (List UInt16 × Json) → Prop
  | [] => True
  | (_, value) :: members => Printed value ∧ PrintedMembers members

end

structure Wrote (value : Json) (text : List Char) : Prop where
  units : stringify value = Utf16.encode text
  starts : StartsValue text
  reads : ∀ fuel rest, 2 * text.length ≤ fuel → EndsValue rest →
    takeValue? fuel (text ++ rest) = some (value, rest)

structure WroteItems (items : List Json) (text : List Char) : Prop where
  units : commaSeparated (stringifyItems items) ++ [0x5D] = Utf16.encode text
  starts : StartsValue text
  reads : ∀ fuel rest, 2 * text.length ≤ fuel →
    takeItems? fuel (text ++ rest) = some (items, rest)

structure WroteMembers (members : List (List UInt16 × Json)) (text : List Char) : Prop where
  units : commaSeparated (stringifyMembers members) ++ [0x7D] = Utf16.encode text
  starts : ∃ tail, text = '"' :: tail
  reads : ∀ fuel rest, 2 * text.length ≤ fuel →
    takeMembers? fuel (text ++ rest) = some (members, rest)

theorem endsValue_comma (rest : List Char) : EndsValue (',' :: rest) := by
  simp [EndsValue]

theorem endsValue_bracket (rest : List Char) : EndsValue (']' :: rest) := by
  simp [EndsValue]

theorem endsValue_brace (rest : List Char) : EndsValue ('\x7d' :: rest) := by
  simp [EndsValue]

theorem fuel_succ {text : List Char} {fuel : Nat} (starts : StartsValue text)
    (enough : 2 * text.length ≤ fuel) : ∃ less, fuel = less + 1 := by
  obtain ⟨char, tail, rfl, -⟩ := starts
  rw [List.length_cons] at enough
  exact ⟨fuel - 1, by omega⟩

theorem wrote_null : Wrote .null ['n', 'u', 'l', 'l'] where
  units := rfl
  starts := ⟨_, _, rfl, rfl, by decide⟩
  reads := by
    intro fuel rest enough ends
    obtain ⟨less, rfl⟩ := fuel_succ ⟨_, _, rfl, rfl, by decide⟩ enough
    simp [takeValue?, skipBlank, isBlank, takeWord?]

theorem wrote_boolean (value : Bool) :
    ∃ text, Wrote (.boolean value) text := by
  cases value with
  | true =>
    refine ⟨['t', 'r', 'u', 'e'], rfl, ⟨_, _, rfl, rfl, by decide⟩, fun fuel rest enough ends => ?_⟩
    obtain ⟨less, rfl⟩ := fuel_succ ⟨_, _, rfl, rfl, by decide⟩ enough
    simp [takeValue?, skipBlank, isBlank, takeWord?]
  | false =>
    refine ⟨['f', 'a', 'l', 's', 'e'], rfl, ⟨_, _, rfl, rfl, by decide⟩,
      fun fuel rest enough ends => ?_⟩
    obtain ⟨less, rfl⟩ := fuel_succ ⟨_, _, rfl, rfl, by decide⟩ enough
    simp [takeValue?, skipBlank, isBlank, takeWord?]

theorem wrote_number {numeral : Numeral} (spelled : Spelled numeral) :
    Wrote (.number numeral) numeral.text where
  units := by
    rw [stringify, if_pos spelled.1, JsNumber.text, if_pos spelled.1, spelled.2]
  starts := by
    obtain ⟨char, tail, same, start⟩ := text_start numeral
    have apart := start_apart start
    exact ⟨char, tail, same, apart.1, fun bracket => apart.2 (by simp [bracket])⟩
  reads := by
    intro fuel rest enough ends
    obtain ⟨char, tail, same, start⟩ := text_start numeral
    rw [same, List.length_cons] at enough
    obtain ⟨less, rfl⟩ : ∃ less, fuel = less + 1 := ⟨fuel - 1, by omega⟩
    have reads := takeNumber?_text spelled ends
    rw [same, List.cons_append] at reads ⊢
    rw [takeValue?_number less (tail ++ rest) start, reads]
    rfl

theorem wrote_string (units : List UInt16) : ∃ text, Wrote (.string units) text := by
  obtain ⟨text, written, reads⟩ := writeUnits_reads units
  refine ⟨'"' :: text, ?_, ⟨_, _, rfl, rfl, by decide⟩, fun fuel rest enough ends => ?_⟩
  · rw [stringify, quoted, List.cons_append, written]
    rfl
  · obtain ⟨less, rfl⟩ := fuel_succ ⟨_, _, rfl, rfl, by decide⟩ enough
    simp [takeValue?, skipBlank, isBlank, reads]

theorem wroteItems_last {item : Json} {text : List Char} (wrote : Wrote item text) :
    WroteItems [item] (text ++ [']']) where
  units := by
    rw [stringifyItems, stringifyItems, commaSeparated, wrote.units, Utf16.encode_append]
    rfl
  starts := by
    obtain ⟨char, tail, rfl, apart⟩ := wrote.starts
    exact ⟨char, tail ++ [']'], rfl, apart⟩
  reads := by
    intro fuel rest enough
    rw [List.length_append, List.length_singleton] at enough
    obtain ⟨less, rfl⟩ : ∃ less, fuel = less + 1 := ⟨fuel - 1, by omega⟩
    have read := wrote.reads less (']' :: rest) (by omega) (endsValue_bracket rest)
    rw [List.append_assoc, List.singleton_append, takeItems?, read]
    simp [skipBlank_of_endsValue (endsValue_bracket rest)]

theorem wroteItems_more {item : Json} {items : List Json} {text others : List Char}
    (wrote : Wrote item text) (wroteItems : WroteItems items others) (more : items ≠ []) :
    WroteItems (item :: items) (text ++ ',' :: others) where
  units := by
    obtain ⟨next, items, rfl⟩ := List.exists_cons_of_ne_nil more
    rw [stringifyItems, stringifyItems, commaSeparated, List.append_assoc, List.cons_append,
      ← stringifyItems, wroteItems.units, wrote.units, Utf16.encode_append]
    · rfl
    · simp
  starts := by
    obtain ⟨char, tail, rfl, apart⟩ := wrote.starts
    exact ⟨char, tail ++ ',' :: others, rfl, apart⟩
  reads := by
    intro fuel rest enough
    rw [List.length_append, List.length_cons] at enough
    obtain ⟨less, rfl⟩ : ∃ less, fuel = less + 1 := ⟨fuel - 1, by omega⟩
    have read := wrote.reads less (',' :: (others ++ rest)) (by omega) (endsValue_comma _)
    have readItems := wroteItems.reads less rest (by omega)
    rw [List.append_assoc, List.cons_append, takeItems?, read]
    simp [skipBlank_of_endsValue (endsValue_comma _), readItems]

theorem wrote_array {items : List Json} {text : List Char} (wroteItems : WroteItems items text) :
    Wrote (.array items) ('[' :: text) where
  units := by
    rw [stringify, List.cons_append, wroteItems.units]
    rfl
  starts := ⟨_, _, rfl, rfl, by decide⟩
  reads := by
    intro fuel rest enough ends
    rw [List.length_cons] at enough
    obtain ⟨less, rfl⟩ : ∃ less, fuel = less + 1 := ⟨fuel - 1, by omega⟩
    have read := wroteItems.reads less rest (by omega)
    have skip := wroteItems.starts.skipBlank_append rest
    obtain ⟨char, tail, rfl, solid, apart⟩ := wroteItems.starts
    have opening := skipBlank_opening '[' (char :: tail ++ rest) rfl
    simp only [List.cons_append] at skip read opening ⊢
    simp [takeValue?, opening, skip, read, apart]

theorem wrote_nothing : Wrote (.array []) ['[', ']'] ∧ Wrote (.object []) ['\x7b', '\x7d'] := by
  constructor
  all_goals
    refine ⟨rfl, ⟨_, _, rfl, rfl, by decide⟩, fun fuel rest enough ends => ?_⟩
    obtain ⟨less, rfl⟩ := fuel_succ ⟨_, _, rfl, rfl, by decide⟩ enough
    simp [takeValue?, skipBlank, isBlank]

def memberText (units text : List Char) : List Char := '"' :: (units ++ ':' :: text)

theorem quoted_member {name : List UInt16} {value : Json} {units text : List Char}
    (written : writeUnits name ++ [0x22] = Utf16.encode units) (wrote : Wrote value text) :
    quoted name ++ 0x3A :: stringify value = Utf16.encode (memberText units text) := by
  rw [quoted, List.cons_append, written, wrote.units, memberText, Utf16.encode_cons,
    Utf16.encode_append]
  rfl

theorem takeMembers?_member {name : List UInt16} {value : Json} {units text rest : List Char}
    (reads : ∀ rest, takeString? (units ++ rest) = some (name, rest)) {fuel : Nat} :
    takeValue? fuel (text ++ rest) = some (value, rest) → EndsValue rest →
    takeMembers? (fuel + 1) (memberText units text ++ rest) =
      match rest with
      | ',' :: rest => do
          let (members, rest) ← takeMembers? fuel rest
          pure ((name, value) :: members, rest)
      | '\x7d' :: rest => some ([(name, value)], rest)
      | _ => none := by
  intro read ends
  have opening := skipBlank_opening '"' (units ++ ':' :: (text ++ rest)) rfl
  have colon := skipBlank_opening ':' (text ++ rest) rfl
  have skip := skipBlank_of_endsValue ends
  have shape : memberText units text ++ rest = '"' :: (units ++ ':' :: (text ++ rest)) := by
    simp [memberText]
  rw [shape, takeMembers?, opening]
  simp only [reads, colon, read, skip, Option.bind_eq_bind, Option.bind_some]
  rfl

theorem wroteMembers_last {name : List UInt16} {value : Json} {text : List Char}
    (wrote : Wrote value text) : ∃ all, WroteMembers [(name, value)] all := by
  obtain ⟨units, written, reads⟩ := writeUnits_reads name
  refine ⟨memberText units text ++ ['\x7d'], ?_, ⟨_, rfl⟩, ?_⟩
  · rw [stringifyMembers, stringifyMembers, commaSeparated, quoted_member written wrote,
      Utf16.encode_append]
    rfl
  · intro fuel rest enough
    simp only [List.length_append, memberText, List.length_cons] at enough
    obtain ⟨less, rfl⟩ : ∃ less, fuel = less + 1 := ⟨fuel - 1, by omega⟩
    have ends := endsValue_brace rest
    have read := wrote.reads less ('\x7d' :: rest) (by omega) ends
    rw [List.append_assoc, List.singleton_append, takeMembers?_member reads read ends]
    rfl

theorem wroteMembers_more {name : List UInt16} {value : Json}
    {members : List (List UInt16 × Json)} {text others : List Char} (wrote : Wrote value text)
    (wroteMembers : WroteMembers members others) (more : members ≠ []) :
    ∃ all, WroteMembers ((name, value) :: members) all := by
  obtain ⟨units, written, reads⟩ := writeUnits_reads name
  refine ⟨memberText units text ++ ',' :: others, ?_, ⟨_, rfl⟩, ?_⟩
  · obtain ⟨⟨key, next⟩, members, rfl⟩ := List.exists_cons_of_ne_nil more
    rw [stringifyMembers, stringifyMembers, commaSeparated, List.append_assoc, List.cons_append,
      ← stringifyMembers, wroteMembers.units, quoted_member written wrote, Utf16.encode_append]
    · rfl
    · simp
  · intro fuel rest enough
    simp only [List.length_append, memberText, List.length_cons] at enough
    obtain ⟨less, rfl⟩ : ∃ less, fuel = less + 1 := ⟨fuel - 1, by omega⟩
    have ends := endsValue_comma (others ++ rest)
    have read := wrote.reads less (',' :: (others ++ rest)) (by omega) ends
    have readMembers := wroteMembers.reads less rest (by omega)
    rw [List.append_assoc, List.cons_append, takeMembers?_member reads read ends]
    simp [readMembers]

theorem wrote_object {members : List (List UInt16 × Json)} {text : List Char}
    (wroteMembers : WroteMembers members text) : Wrote (.object members) ('\x7b' :: text) where
  units := by
    rw [stringify, List.cons_append, wroteMembers.units]
    rfl
  starts := ⟨_, _, rfl, rfl, by decide⟩
  reads := by
    intro fuel rest enough ends
    rw [List.length_cons] at enough
    obtain ⟨less, rfl⟩ : ∃ less, fuel = less + 1 := ⟨fuel - 1, by omega⟩
    have read := wroteMembers.reads less rest (by omega)
    obtain ⟨tail, rfl⟩ := wroteMembers.starts
    have opening := skipBlank_opening '\x7b' ('"' :: tail ++ rest) rfl
    have skip := skipBlank_opening '"' (tail ++ rest) rfl
    simp only [List.cons_append] at skip read opening ⊢
    simp [takeValue?, opening, skip, read]

mutual

theorem exists_wrote : ∀ value, Printed value → ∃ text, Wrote value text
  | .null, _ => ⟨_, wrote_null⟩
  | .boolean value, _ => wrote_boolean value
  | .number _, printed => ⟨_, wrote_number printed⟩
  | .string units, _ => wrote_string units
  | .array [], _ => ⟨_, wrote_nothing.1⟩
  | .array (item :: items), printed =>
    have ⟨_, wroteItems⟩ := exists_wroteItems (item :: items) (List.cons_ne_nil _ _) printed
    ⟨_, wrote_array wroteItems⟩
  | .object [], _ => ⟨_, wrote_nothing.2⟩
  | .object (member :: members), printed =>
    have ⟨_, wroteMembers⟩ :=
      exists_wroteMembers (member :: members) (List.cons_ne_nil _ _) printed
    ⟨_, wrote_object wroteMembers⟩

theorem exists_wroteItems : ∀ items, items ≠ [] → PrintedItems items →
    ∃ text, WroteItems items text
  | [], nonempty, _ => absurd rfl nonempty
  | [item], _, printed =>
    have ⟨_, wrote⟩ := exists_wrote item printed.1
    ⟨_, wroteItems_last wrote⟩
  | item :: next :: items, _, printed =>
    have ⟨_, wrote⟩ := exists_wrote item printed.1
    have ⟨_, wroteItems⟩ := exists_wroteItems (next :: items) (List.cons_ne_nil _ _) printed.2
    ⟨_, wroteItems_more wrote wroteItems (List.cons_ne_nil _ _)⟩

theorem exists_wroteMembers : ∀ members, members ≠ [] → PrintedMembers members →
    ∃ text, WroteMembers members text
  | [], nonempty, _ => absurd rfl nonempty
  | [(_, value)], _, printed =>
    have ⟨_, wrote⟩ := exists_wrote value printed.1
    wroteMembers_last wrote
  | (_, value) :: next :: members, _, printed =>
    have ⟨_, wrote⟩ := exists_wrote value printed.1
    have ⟨_, wroteMembers⟩ :=
      exists_wroteMembers (next :: members) (List.cons_ne_nil _ _) printed.2
    wroteMembers_more wrote wroteMembers (List.cons_ne_nil _ _)

end

theorem parse?_stringify {value : Json} (printed : Printed value) :
    ∃ text, stringify value = Utf16.encode text ∧ parse? text = some value := by
  obtain ⟨text, wrote⟩ := exists_wrote value printed
  refine ⟨text, wrote.units, ?_⟩
  have read := wrote.reads (2 * text.length + 2) [] (by omega) (by simp [EndsValue])
  rw [List.append_nil] at read
  rw [parse?, read]
  rfl

end SorobanExplorer.Library.Json
