import SorobanExplorer.Library.Numeral

/-!
Owns points in time, in milliseconds since 1970, and the texts that `toISOString` writes for
them. `parse?` reads such a text back.
-/

namespace SorobanExplorer.Library.IsoTime

/-! ### Dates -/

structure Date where
  year : ℤ
  month : ℤ
  day : ℤ
deriving DecidableEq

section Calendar

variable (day : ℤ)

def dayOfEra : ℤ := (day + 719468) % 146097

def yearOfEra : ℤ :=
  (dayOfEra day - dayOfEra day / 1460 + dayOfEra day / 36524 - dayOfEra day / 146096) / 365

def daysBefore (year : ℤ) : ℤ := 365 * year + year / 4 - year / 100

def dayOfYear : ℤ := dayOfEra day - daysBefore (yearOfEra day)

def place : ℤ := (5 * dayOfYear day + 2) / 153

def date : Date where
  year := yearOfEra day + (day + 719468) / 146097 * 400 + if place day < 10 then 0 else 1
  month := if place day < 10 then place day + 3 else place day - 9
  day := dayOfYear day - (153 * place day + 2) / 5 + 1

end Calendar

def dayOf (date : Date) : ℤ :=
  let year := if date.month ≤ 2 then date.year - 1 else date.year
  let place := if date.month ≤ 2 then date.month + 9 else date.month - 3
  year / 400 * 146097 + daysBefore (year % 400) + (153 * place + 2) / 5 + date.day - 1 - 719468

section Bounds

variable {day : ℤ}

theorem dayOfEra_bounds : 0 ≤ dayOfEra day ∧ dayOfEra day < 146097 := by
  unfold dayOfEra
  omega

theorem yearOfEra_bounds : 0 ≤ yearOfEra day ∧ yearOfEra day < 400 := by
  obtain ⟨least, most⟩ := @dayOfEra_bounds day
  unfold yearOfEra
  omega

theorem dayOfYear_bounds : 0 ≤ dayOfYear day ∧ dayOfYear day ≤ 365 := by
  obtain ⟨least, most⟩ := @dayOfEra_bounds day
  unfold dayOfYear daysBefore yearOfEra
  generalize dayOfEra day = within at least most ⊢
  generalize isYear : (within - within / 1460 + within / 36524 - within / 146096) / 365 = year
  -- Leap years are regular within a century; the last day of the era is the 366th of its year.
  have century : within / 36524 = 0 ∨ within / 36524 = 1 ∨ within / 36524 = 2 ∨
      within / 36524 = 3 ∨ within = 146096 := by omega
  rcases century with first | second | third | fourth | last
  · have sameCentury : year / 100 = 0 := by omega
    omega
  · have sameCentury : year / 100 = 1 := by omega
    omega
  · have sameCentury : year / 100 = 2 := by omega
    omega
  · have sameCentury : year / 100 = 3 := by omega
    omega
  · omega

theorem place_bounds : 0 ≤ place day ∧ place day < 12 := by
  obtain ⟨least, most⟩ := @dayOfYear_bounds day
  unfold place
  omega

theorem date_day_bounds : 1 ≤ (date day).day ∧ (date day).day ≤ 31 := by
  obtain ⟨least, most⟩ := @dayOfYear_bounds day
  show 1 ≤ dayOfYear day - (153 * place day + 2) / 5 + 1 ∧
    dayOfYear day - (153 * place day + 2) / 5 + 1 ≤ 31
  unfold place
  omega

theorem date_month_bounds : 1 ≤ (date day).month ∧ (date day).month ≤ 12 := by
  obtain ⟨least, most⟩ := @place_bounds day
  show 1 ≤ (if place day < 10 then place day + 3 else place day - 9) ∧
    (if place day < 10 then place day + 3 else place day - 9) ≤ 12
  split_ifs <;> omega

theorem dayOf_date : dayOf (date day) = day := by
  obtain ⟨leastYear, mostYear⟩ := @yearOfEra_bounds day
  obtain ⟨leastPlace, mostPlace⟩ := @place_bounds day
  have split : dayOfYear day = dayOfEra day - daysBefore (yearOfEra day) := rfl
  have era : dayOfEra day = (day + 719468) % 146097 := rfl
  by_cases spring : place day < 10
  · have month : ¬ (date day).month ≤ 2 := by
      simp only [date, if_pos spring]
      omega
    have year : (date day).year % 400 = yearOfEra day := by
      simp only [date, if_pos spring]
      omega
    simp only [dayOf, if_neg month, year]
    simp only [date, if_pos spring]
    have back : place day + 3 - 3 = place day := by omega
    rw [back]
    omega
  · have month : (date day).month ≤ 2 := by
      simp only [date, if_neg spring]
      omega
    have year : ((date day).year - 1) % 400 = yearOfEra day := by
      simp only [date, if_neg spring]
      omega
    simp only [dayOf, if_pos month, year]
    simp only [date, if_neg spring]
    have back : place day - 9 + 9 = place day := by omega
    rw [back]
    omega

end Bounds

/-! ### Texts -/

def padded (count : ℕ) (value : ℤ) : List Char :=
  (Digit.lastDigits count value.toNat).map Digit.char

def yearText (year : ℤ) : List Char :=
  if 0 ≤ year ∧ year ≤ 9999 then padded 4 year
  else (if year < 0 then '-' else '+') :: padded 6 |year|

def dateText (date : Date) : List Char :=
  yearText date.year ++ '-' :: padded 2 date.month ++ '-' :: padded 2 date.day

def clockText (time : ℤ) : List Char :=
  padded 2 (time / 3600000) ++ ':' :: padded 2 (time / 60000 % 60) ++
    ':' :: padded 2 (time / 1000 % 60) ++ '.' :: padded 3 (time % 1000)

/-- `new Date(time).toISOString()` -/
def toISOString (time : ℤ) : List Char :=
  dateText (date (time / 86400000)) ++ 'T' :: clockText (time % 86400000) ++ ['Z']

def field (start count : ℕ) (text : List Char) : ℤ :=
  Digit.number (((text.drop start).take count).filterMap Digit.ofChar?)

def reading (text : List Char) : ℤ :=
  dayOf ⟨field 0 4 text, field 5 2 text, field 8 2 text⟩ * 86400000 + field 11 2 text * 3600000 +
    field 14 2 text * 60000 + field 17 2 text * 1000 + field 20 3 text

/-- The time for which `toISOString` writes the text. -/
def parse? (text : List Char) : Option ℤ :=
  if toISOString (reading text) = text then some (reading text) else none

def FourDigits (time : ℤ) : Prop :=
  1 ≤ (date (time / 86400000)).year ∧ (date (time / 86400000)).year ≤ 9999

instance (time : ℤ) : Decidable (FourDigits time) := inferInstanceAs (Decidable (_ ∧ _))

section Reading

theorem length_padded (count : ℕ) (value : ℤ) : (padded count value).length = count := by
  rw [padded, List.length_map, Digit.lastDigits_length]

theorem filterMap_digits (digits : List Digit) :
    (digits.map Digit.char).filterMap Digit.ofChar? = digits := by
  rw [List.filterMap_map]
  exact (List.filterMap_congr fun digit _ => Digit.ofChar?_char digit).trans List.filterMap_some

theorem field_padded {count : ℕ} {value : ℤ} (least : 0 ≤ value) (most : value < 10 ^ count)
    (after : List Char) : field 0 count (padded count value ++ after) = value := by
  have small : value.toNat < 10 ^ count := by
    have cast : ((10 ^ count : ℕ) : ℤ) = 10 ^ count := by push_cast; rfl
    omega
  rw [field, List.drop_zero, List.take_left' (length_padded count value), padded,
    filterMap_digits, Digit.number_lastDigits, Nat.mod_eq_of_lt small, Int.toNat_of_nonneg least]

theorem field_skip {start width : ℕ} (passes : width ≤ start) (count : ℕ) (value : ℤ)
    (after : List Char) :
    field start count (padded width value ++ after) = field (start - width) count after := by
  rw [field, List.drop_append, length_padded,
    List.drop_eq_nil_of_le ((length_padded width value).trans_le passes), List.nil_append, field]

theorem field_cons (start count : ℕ) (char : Char) (after : List Char) :
    field (start + 1) count (char :: after) = field start count after := rfl

theorem reading_toISOString {time : ℤ} (years : FourDigits time) :
    reading (toISOString time) = time := by
  obtain ⟨leastYear, mostYear⟩ := years
  obtain ⟨leastMonth, mostMonth⟩ := @date_month_bounds (time / 86400000)
  obtain ⟨leastDay, mostDay⟩ := @date_day_bounds (time / 86400000)
  have year : yearText (date (time / 86400000)).year = padded 4 (date (time / 86400000)).year :=
    if_pos ⟨by omega, mostYear⟩
  simp only [reading, toISOString, dateText, clockText, year, List.append_assoc, List.cons_append]
  simp (disch := decide) only [field_skip, field_cons, Nat.reduceSub]
  rw [field_padded (by omega) (by omega), field_padded (by omega) (by omega),
    field_padded (by omega) (by omega), field_padded (by omega) (by omega),
    field_padded (by omega) (by omega), field_padded (by omega) (by omega),
    field_padded (by omega) (by omega)]
  have day : dayOf ⟨(date (time / 86400000)).year, (date (time / 86400000)).month,
      (date (time / 86400000)).day⟩ = time / 86400000 := dayOf_date
  rw [day]
  omega

theorem parse?_toISOString {time : ℤ} (years : FourDigits time) :
    parse? (toISOString time) = some time := by
  rw [parse?, reading_toISOString years, if_pos rfl]

end Reading

end SorobanExplorer.Library.IsoTime
