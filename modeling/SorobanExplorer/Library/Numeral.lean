import Mathlib.Algebra.Order.Field.Basic
import Mathlib.Algebra.Field.Rat
import Mathlib.Data.Nat.Log
import Mathlib.Tactic.FieldSimp
import Mathlib.Tactic.Ring

/-!
Owns decimal numerals: an optional minus sign, digits, an optional fraction and
an optional exponent. A numeral is recognised in a list of characters, has an
exact rational value, and is recognised again in what it is written as.
-/

namespace SorobanExplorer.Library

abbrev Digit := Fin 10

instance Digit.neZero : NeZero 10 := ⟨by decide⟩

namespace Digit

def char (digit : Digit) : Char := Char.ofNat (48 + digit.val)

def ofChar? (char : Char) : Option Digit :=
  if h : 48 ≤ char.toNat ∧ char.toNat - 48 < 10 then some ⟨char.toNat - 48, h.2⟩ else none

@[simp] theorem ofChar?_char (digit : Digit) : ofChar? digit.char = some digit := by
  revert digit
  decide

def number (digits : List Digit) : Nat := digits.foldl (fun value digit => 10 * value + digit.val) 0

theorem foldl_append (digits : List Digit) (start : Nat) :
    digits.foldl (fun value digit => 10 * value + digit.val) start =
      start * 10 ^ digits.length + number digits := by
  induction digits generalizing start with
  | nil => simp [number]
  | cons digit digits ih =>
    unfold number
    rw [List.foldl_cons, List.foldl_cons, ih, ih (10 * 0 + _),
      List.length_cons, pow_succ]
    ring

theorem number_append (left right : List Digit) :
    number (left ++ right) = number left * 10 ^ right.length + number right := by
  unfold number
  rw [List.foldl_append, foldl_append]
  rfl

theorem number_lt (digits : List Digit) : number digits < 10 ^ digits.length := by
  induction digits with
  | nil => simp [number]
  | cons digit digits ih =>
    have first : number [digit] = digit.val := by simp [number]
    have below : digit.val + 1 ≤ 10 := digit.isLt
    have split : number (digit :: digits) = digit.val * 10 ^ digits.length + number digits := by
      rw [← List.singleton_append, number_append, first]
    calc number (digit :: digits) < (digit.val + 1) * 10 ^ digits.length := by
          rw [split, Nat.add_mul]
          omega
      _ ≤ 10 * 10 ^ digits.length := Nat.mul_le_mul_right _ below
      _ = 10 ^ (digit :: digits).length := by rw [List.length_cons, pow_succ']

/-- The last `count` digits of a number. -/
def lastDigits : Nat → Nat → List Digit
  | 0, _ => []
  | count + 1, value => lastDigits count (value / 10) ++ [⟨value % 10, Nat.mod_lt _ (by decide)⟩]

@[simp] theorem lastDigits_length (count value : Nat) : (lastDigits count value).length = count := by
  induction count generalizing value with
  | zero => rfl
  | succ count ih => simp [lastDigits, ih]

theorem number_lastDigits (count value : Nat) :
    number (lastDigits count value) = value % 10 ^ count := by
  induction count generalizing value with
  | zero => simp [lastDigits, number, Nat.mod_one]
  | succ count ih =>
    rw [lastDigits, number_append, ih, pow_succ', Nat.mod_mul]
    simp [number]
    ring

/-- The digits of a number, without leading zeros; `0` has one digit. -/
def ofNat (value : Nat) : List Digit := lastDigits (Nat.log 10 value + 1) value

@[simp] theorem number_ofNat (value : Nat) : number (ofNat value) = value := by
  rw [ofNat, number_lastDigits]
  exact Nat.mod_eq_of_lt (Nat.lt_pow_succ_log_self (by decide) value)

theorem ofNat_ne_nil (value : Nat) : ofNat value ≠ [] := by
  simp [ofNat, lastDigits]

theorem ofNat_length (value : Nat) : (ofNat value).length = Nat.log 10 value + 1 :=
  lastDigits_length _ _

theorem ofNat_leading {value : Nat} (zero : (ofNat value).head? = some 0) : value = 0 := by
  obtain ⟨rest, digits⟩ := List.head?_eq_some_iff.mp zero
  have count : rest.length = Nat.log 10 value := by
    have whole := ofNat_length value
    rw [digits, List.length_cons] at whole
    exact Nat.succ.inj whole
  have small : value < 10 ^ Nat.log 10 value := by
    calc value = number (ofNat value) := (number_ofNat value).symm
      _ = number rest := by rw [digits]; rfl
      _ < 10 ^ rest.length := number_lt rest
      _ = 10 ^ Nat.log 10 value := by rw [count]
  by_contra nonzero
  exact absurd (Nat.pow_log_le_self 10 nonzero) (not_le.mpr small)

end Digit

structure Digits where
  list : List Digit
  ne_nil : list ≠ []
deriving DecidableEq

inductive ExponentSign where
  | absent
  | plus
  | minus
deriving DecidableEq

def ExponentSign.text : ExponentSign → List Char
  | .absent => []
  | .plus => ['+']
  | .minus => ['-']

structure Numeral where
  negative : Bool
  whole : Digits
  fraction : Option Digits
  exponent : Option (ExponentSign × Digits)
deriving DecidableEq

namespace Numeral

/-! ### Value -/

def fractionDigits (numeral : Numeral) : List Digit := numeral.fraction.elim [] Digits.list

def coefficient (numeral : Numeral) : Nat :=
  Digit.number (numeral.whole.list ++ numeral.fractionDigits)

def exponentValue (numeral : Numeral) : Int :=
  match numeral.exponent with
  | none => 0
  | some (.minus, digits) => -(Digit.number digits.list)
  | some (_, digits) => Digit.number digits.list

def signOf (negative : Bool) : Int := if negative then -1 else 1

def sign (numeral : Numeral) : Int := signOf numeral.negative

def power (numeral : Numeral) : Int := numeral.exponentValue - numeral.fractionDigits.length

def value (numeral : Numeral) : ℚ :=
  (numeral.sign * numeral.coefficient : ℤ) * (10 : ℚ) ^ numeral.power

def integral (numeral : Numeral) : Bool := numeral.fraction.isNone && numeral.exponent.isNone

def integer (numeral : Numeral) : Int := numeral.sign * numeral.coefficient

theorem value_of_integral {numeral : Numeral} (integral : numeral.integral = true) :
    numeral.value = numeral.integer := by
  have power_zero : numeral.power = 0 := by
    cases fraction : numeral.fraction <;> cases exponent : numeral.exponent <;>
      simp_all [Numeral.integral, power, exponentValue, fractionDigits]
  rw [value, power_zero, zpow_zero, mul_one, integer]

/-! ### Recognition -/

def takeDigits : List Char → List Digit × List Char
  | [] => ([], [])
  | char :: rest =>
    match Digit.ofChar? char with
    | some digit => (digit :: (takeDigits rest).1, (takeDigits rest).2)
    | none => ([], char :: rest)

def digits? (list : List Digit) : Option Digits :=
  if h : list = [] then none else some ⟨list, h⟩

/-- `[-+]?` -/
def takeSign : List Char → ExponentSign × List Char
  | '-' :: rest => (.minus, rest)
  | '+' :: rest => (.plus, rest)
  | rest => (.absent, rest)

/-- `([eE][-+]?\d+)?` and what is left. -/
def takeExponent? : List Char → Option (Option (ExponentSign × Digits) × List Char)
  | [] => some (none, [])
  | mark :: rest =>
    if mark = 'e' ∨ mark = 'E' then
      (digits? (takeDigits (takeSign rest).2).1).map fun digits =>
        (some ((takeSign rest).1, digits), (takeDigits (takeSign rest).2).2)
    else some (none, mark :: rest)

/-- `(\.\d+)?` and what is left. -/
def takeFraction? : List Char → Option (Option Digits × List Char)
  | '.' :: rest => (digits? (takeDigits rest).1).map fun digits => (some digits, (takeDigits rest).2)
  | rest => some (none, rest)

/-- `\d+(\.\d+)?([eE][-+]?\d+)?` and what is left. -/
def takeUnsigned? (negative : Bool) (text : List Char) : Option (Numeral × List Char) := do
  let whole ← digits? (takeDigits text).1
  let (fraction, rest) ← takeFraction? (takeDigits text).2
  let (exponent, rest) ← takeExponent? rest
  pure (⟨negative, whole, fraction, exponent⟩, rest)

/-- `-?\d+(\.\d+)?([eE][-+]?\d+)?` and what is left. -/
def take? : List Char → Option (Numeral × List Char)
  | '-' :: rest => takeUnsigned? true rest
  | text => takeUnsigned? false text

/-- `^-?\d+(\.\d+)?([eE][-+]?\d+)?$` -/
def recognize (text : List Char) : Option Numeral :=
  match take? text with
  | some (numeral, []) => some numeral
  | _ => none

/-! ### What is left -/

theorem takeDigits_length (text : List Char) :
    (takeDigits text).1.length + (takeDigits text).2.length = text.length := by
  induction text with
  | nil => rfl
  | cons char rest ih =>
    rw [takeDigits]
    cases Digit.ofChar? char with
    | none => simp
    | some digit =>
      simp only [List.length_cons]
      omega

theorem takeSign_length (text : List Char) : (takeSign text).2.length ≤ text.length := by
  unfold takeSign
  split <;> simp

theorem takeExponent?_length {text left : List Char} {exponent : Option (ExponentSign × Digits)}
    (taken : takeExponent? text = some (exponent, left)) : left.length ≤ text.length := by
  cases text with
  | nil =>
    cases taken
    exact Nat.le_refl _
  | cons mark rest =>
    rw [takeExponent?] at taken
    split_ifs at taken
    · obtain ⟨digits, -, same⟩ := Option.map_eq_some_iff.mp taken
      cases same
      have digitsTaken := takeDigits_length (takeSign rest).2
      have signTaken := takeSign_length rest
      simp only [List.length_cons]
      omega
    · cases taken
      exact Nat.le_refl _

theorem takeFraction?_length {text left : List Char} {fraction : Option Digits}
    (taken : takeFraction? text = some (fraction, left)) : left.length ≤ text.length := by
  unfold takeFraction? at taken
  split at taken
  next rest =>
    obtain ⟨digits, -, same⟩ := Option.map_eq_some_iff.mp taken
    cases same
    have digitsTaken := takeDigits_length rest
    simp only [List.length_cons]
    omega
  next =>
    cases taken
    exact Nat.le_refl _

theorem take?_shorter {text left : List Char} {numeral : Numeral}
    (taken : take? text = some (numeral, left)) : left.length < text.length := by
  have unsigned : ∀ {negative : Bool} {text : List Char},
      takeUnsigned? negative text = some (numeral, left) → left.length < text.length := by
    intro negative text taken
    simp only [takeUnsigned?, Option.bind_eq_bind, Option.bind_eq_some_iff] at taken
    obtain ⟨whole, digits, ⟨fraction, middle⟩, fractionTaken, ⟨exponent, last⟩, exponentTaken,
      same⟩ := taken
    cases same
    have nonempty : (takeDigits text).1.length ≠ 0 := by
      intro empty
      rw [List.length_eq_zero_iff.mp empty] at digits
      cases digits
    have digitsTaken := takeDigits_length text
    have first := takeFraction?_length fractionTaken
    have second := takeExponent?_length exponentTaken
    dsimp only at first second ⊢
    omega
  unfold take? at taken
  split at taken
  · have shorter := unsigned taken
    simp only [List.length_cons]
    omega
  · exact unsigned taken

/-! ### Writing -/

def exponentText : Option (ExponentSign × Digits) → List Char
  | none => []
  | some (sign, digits) => 'e' :: (sign.text ++ digits.list.map Digit.char)

def fractionText : Option Digits → List Char
  | none => []
  | some digits => '.' :: digits.list.map Digit.char

def text (numeral : Numeral) : List Char :=
  (if numeral.negative then ['-'] else []) ++ numeral.whole.list.map Digit.char ++
    fractionText numeral.fraction ++ exponentText numeral.exponent

theorem forall_mem_text {p : Char → Prop} (digit : ∀ digit : Digit, p digit.char)
    (minus : p '-') (plus : p '+') (point : p '.') (e : p 'e') (numeral : Numeral) :
    ∀ char ∈ numeral.text, p char := by
  have digits (list : List Digit) : ∀ char ∈ list.map Digit.char, p char := by
    intro char listed
    obtain ⟨one, -, rfl⟩ := List.mem_map.mp listed
    exact digit one
  unfold text
  simp only [List.forall_mem_append]
  refine ⟨⟨⟨?_, digits _⟩, ?_⟩, ?_⟩
  · split_ifs
    · exact List.forall_mem_singleton.mpr minus
    · exact List.forall_mem_nil _
  · rcases numeral.fraction with _ | list
    · exact List.forall_mem_nil _
    · exact List.forall_mem_cons.mpr ⟨point, digits _⟩
  · rcases numeral.exponent with _ | ⟨sign, list⟩
    · exact List.forall_mem_nil _
    · refine List.forall_mem_cons.mpr ⟨e, ?_⟩
      rw [List.forall_mem_append]
      refine ⟨?_, digits _⟩
      cases sign with
      | absent => exact List.forall_mem_nil _
      | plus => exact List.forall_mem_singleton.mpr plus
      | minus => exact List.forall_mem_singleton.mpr minus

theorem text_basic (numeral : Numeral) : ∀ char ∈ numeral.text, char.toNat < 0x80 :=
  numeral.forall_mem_text (by decide) (by decide) (by decide) (by decide) (by decide)

def EndsDigits (rest : List Char) : Prop := ∀ char ∈ rest.head?, Digit.ofChar? char = none

theorem takeDigits_append (list : List Digit) {rest : List Char} (ends : EndsDigits rest) :
    takeDigits (list.map Digit.char ++ rest) = (list, rest) := by
  induction list with
  | nil =>
    cases rest with
    | nil => rfl
    | cons char rest => simp [takeDigits, ends char (by simp)]
  | cons digit list ih =>
    simp [takeDigits, ih]

@[simp] theorem digits?_list (digits : Digits) : digits? digits.list = some digits := by
  simp [digits?, digits.ne_nil]

theorem digit_char_ne_mark (digit : Digit) : digit.char ≠ '-' ∧ digit.char ≠ '+' := by
  revert digit
  decide

theorem takeSign_text (sign : ExponentSign) (digits : Digits) (rest : List Char) :
    takeSign (sign.text ++ (digits.list.map Digit.char ++ rest)) =
      (sign, digits.list.map Digit.char ++ rest) := by
  cases sign with
  | plus => rfl
  | minus => rfl
  | absent =>
    obtain ⟨list, ne_nil⟩ := digits
    cases list with
    | nil => contradiction
    | cons digit list =>
      have marks := digit_char_ne_mark digit
      simp only [ExponentSign.text, List.nil_append, List.map_cons, List.cons_append]
      unfold takeSign
      split
      next rest same => exact absurd (List.cons.inj same).1 marks.1
      next rest same => exact absurd (List.cons.inj same).1 marks.2
      next => rfl

def EndsNumeral (rest : List Char) : Prop :=
  ∀ char ∈ rest.head?, Digit.ofChar? char = none ∧ char ≠ '.' ∧ char ≠ 'e' ∧ char ≠ 'E'

theorem endsNumeral_nil : EndsNumeral [] := by simp [EndsNumeral]

theorem EndsNumeral.endsDigits {rest : List Char} (ends : EndsNumeral rest) : EndsDigits rest :=
  fun char first => (ends char first).1

theorem takeExponent?_exponentText (exponent : Option (ExponentSign × Digits)) {rest : List Char}
    (ends : EndsNumeral rest) :
    takeExponent? (exponentText exponent ++ rest) = some (exponent, rest) := by
  rcases exponent with _ | ⟨sign, digits⟩
  · cases rest with
    | nil => rfl
    | cons char rest =>
      have marks := (ends char rfl).2.2
      simp [takeExponent?, exponentText, marks.1, marks.2]
  · have taken := takeDigits_append digits.list ends.endsDigits
    simp [takeExponent?, exponentText, List.append_assoc, takeSign_text, taken]

theorem endsDigits_exponentText (exponent : Option (ExponentSign × Digits)) {rest : List Char}
    (ends : EndsNumeral rest) : EndsDigits (exponentText exponent ++ rest) := by
  rcases exponent with _ | ⟨sign, digits⟩
  · simpa [exponentText] using ends.endsDigits
  · simp only [EndsDigits, exponentText, List.cons_append, List.head?_cons, Option.mem_def,
      Option.some.injEq]
    rintro char rfl
    decide

theorem takeFraction?_of_ne {text : List Char} (noPoint : text.head? ≠ some '.') :
    takeFraction? text = some (none, text) := by
  unfold takeFraction?
  split
  next => exact absurd rfl noPoint
  next => rfl

theorem takeFraction?_text (fraction : Option Digits) (exponent : Option (ExponentSign × Digits))
    {rest : List Char} (ends : EndsNumeral rest) :
    takeFraction? (fractionText fraction ++ (exponentText exponent ++ rest)) =
      some (fraction, exponentText exponent ++ rest) := by
  cases fraction with
  | none =>
    apply takeFraction?_of_ne
    rcases exponent with _ | ⟨sign, digits⟩
    · cases rest with
      | nil => simp [fractionText, exponentText]
      | cons char rest => simpa [fractionText, exponentText] using (ends char rfl).2.1
    · simp [fractionText, exponentText]
  | some fraction =>
    have taken := takeDigits_append fraction.list (endsDigits_exponentText exponent ends)
    simp [takeFraction?, fractionText, taken]

theorem endsDigits_fractionText (fraction : Option Digits)
    (exponent : Option (ExponentSign × Digits)) {rest : List Char} (ends : EndsNumeral rest) :
    EndsDigits (fractionText fraction ++ (exponentText exponent ++ rest)) := by
  cases fraction with
  | none => exact endsDigits_exponentText exponent ends
  | some fraction =>
    simp only [EndsDigits, fractionText, List.cons_append, List.head?_cons, Option.mem_def,
      Option.some.injEq]
    rintro char rfl
    decide

theorem takeUnsigned?_text (negative : Bool) (whole : Digits) (fraction : Option Digits)
    (exponent : Option (ExponentSign × Digits)) {rest : List Char} (ends : EndsNumeral rest) :
    takeUnsigned? negative (whole.list.map Digit.char ++
        (fractionText fraction ++ (exponentText exponent ++ rest))) =
      some (⟨negative, whole, fraction, exponent⟩, rest) := by
  have taken := takeDigits_append whole.list (endsDigits_fractionText fraction exponent ends)
  simp [takeUnsigned?, taken, takeFraction?_text fraction exponent ends,
    takeExponent?_exponentText exponent ends]

theorem take?_of_ne {text : List Char} (noMinus : text.head? ≠ some '-') :
    take? text = takeUnsigned? false text := by
  unfold take?
  split
  next => exact absurd rfl noMinus
  next => rfl

theorem take?_text_append (numeral : Numeral) {rest : List Char} (ends : EndsNumeral rest) :
    take? (numeral.text ++ rest) = some (numeral, rest) := by
  obtain ⟨negative, whole, fraction, exponent⟩ := numeral
  have unsigned := takeUnsigned?_text negative whole fraction exponent ends
  cases negative with
  | true => simpa [take?, text] using unsigned
  | false =>
    have split : text ⟨false, whole, fraction, exponent⟩ ++ rest = whole.list.map Digit.char ++
        (fractionText fraction ++ (exponentText exponent ++ rest)) := by
      simp [text]
    rw [← unsigned, split]
    apply take?_of_ne
    obtain ⟨list, ne_nil⟩ := whole
    cases list with
    | nil => contradiction
    | cons digit list => simpa using (digit_char_ne_mark digit).1

theorem take?_text (numeral : Numeral) : take? numeral.text = some (numeral, []) := by
  simpa using take?_text_append numeral endsNumeral_nil

@[simp] theorem recognize_text (numeral : Numeral) : recognize numeral.text = some numeral := by
  rw [recognize, take?_text]

/-! ### Numerals for a value -/

/-- `coefficient / 10 ^ scale`, written with `scale` fraction digits. -/
def plain (negative : Bool) (coefficient scale : Nat) : Numeral where
  negative := negative
  whole := ⟨Digit.ofNat (coefficient / 10 ^ scale), Digit.ofNat_ne_nil _⟩
  fraction := digits? (Digit.lastDigits scale coefficient)
  exponent := none

@[simp] theorem fractionDigits_plain (negative : Bool) (coefficient scale : Nat) :
    (plain negative coefficient scale).fractionDigits = Digit.lastDigits scale coefficient := by
  unfold plain fractionDigits digits?
  split
  next empty => rw [empty]; rfl
  next => rfl

@[simp] theorem coefficient_plain (negative : Bool) (coefficient scale : Nat) :
    (plain negative coefficient scale).coefficient = coefficient := by
  rw [Numeral.coefficient, Digit.number_append, fractionDigits_plain, Digit.number_lastDigits,
    Digit.lastDigits_length]
  show Digit.number (Digit.ofNat (coefficient / 10 ^ scale)) * 10 ^ scale +
    coefficient % 10 ^ scale = coefficient
  rw [Digit.number_ofNat]
  exact Nat.div_add_mod' coefficient (10 ^ scale)

@[simp] theorem power_plain (negative : Bool) (coefficient scale : Nat) :
    (plain negative coefficient scale).power = -scale := by
  have noExponent : (plain negative coefficient scale).exponentValue = 0 := rfl
  rw [power, noExponent, fractionDigits_plain, Digit.lastDigits_length, zero_sub]

theorem value_plain (negative : Bool) (coefficient scale : Nat) :
    (plain negative coefficient scale).value =
      (signOf negative * coefficient : ℤ) * (10 : ℚ) ^ (-(scale : ℤ)) := by
  rw [value, coefficient_plain, power_plain]
  rfl

def ofInt (value : ℤ) : Numeral := plain (value < 0) value.natAbs 0

@[simp] theorem integral_ofInt (value : ℤ) : (ofInt value).integral = true := rfl

@[simp] theorem integer_ofInt (value : ℤ) : (ofInt value).integer = value := by
  rw [integer, ofInt, coefficient_plain]
  show signOf (decide (value < 0)) * (value.natAbs : ℤ) = value
  rcases lt_or_ge value 0 with negative | natural
  · rw [signOf, if_pos (decide_eq_true negative), Int.ofNat_natAbs_of_nonpos negative.le]
    ring
  · rw [signOf, if_neg (by simpa using natural), Int.natAbs_of_nonneg natural, one_mul]

def scaled (numeral : Numeral) (exponent : Int) : Numeral :=
  { numeral with
    exponent := some (if exponent < 0 then .minus else .plus,
      ⟨Digit.ofNat exponent.natAbs, Digit.ofNat_ne_nil _⟩) }

theorem value_scaled {numeral : Numeral} (noExponent : numeral.exponent = none) (exponent : Int) :
    (numeral.scaled exponent).value = numeral.value * (10 : ℚ) ^ exponent := by
  have powers : (numeral.scaled exponent).power = numeral.power + exponent := by
    have fraction : (numeral.scaled exponent).fractionDigits = numeral.fractionDigits := rfl
    unfold power
    rw [fraction]
    simp only [exponentValue, noExponent, scaled]
    split_ifs <;> simp only [Digit.number_ofNat] <;> omega
  rw [value, powers, zpow_add₀ (by norm_num), value, mul_assoc]
  rfl

def expanded (numeral : Numeral) : Numeral :=
  plain (numeral.negative && numeral.coefficient != 0)
    (numeral.coefficient * 10 ^ numeral.power.toNat) (-numeral.power).toNat

theorem value_expanded (numeral : Numeral) : numeral.expanded.value = numeral.value := by
  have scaledBack : ((numeral.coefficient * 10 ^ numeral.power.toNat : Nat) : ℚ) *
      (10 : ℚ) ^ (-((-numeral.power).toNat : ℤ)) =
        numeral.coefficient * (10 : ℚ) ^ numeral.power := by
    push_cast
    rw [← zpow_natCast, mul_assoc, ← zpow_add₀ (by norm_num)]
    congr 2
    omega
  rw [expanded, value_plain, value, sign]
  by_cases zero : numeral.coefficient = 0
  · simp [zero, signOf]
  · have negative : (numeral.negative && numeral.coefficient != 0) = numeral.negative := by
      simp [zero]
    rw [negative]
    push_cast at scaledBack ⊢
    rw [mul_assoc, scaledBack, mul_assoc]

end Numeral

end SorobanExplorer.Library
