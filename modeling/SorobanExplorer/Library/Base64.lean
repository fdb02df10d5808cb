import Mathlib.Data.List.TakeWhile
import Mathlib.Data.UInt
import Mathlib.Tactic.Common
import Mathlib.Tactic.IntervalCases

/-!
Owns base64url texts without padding and base64 texts with it: the bytes that a text with
letters of either alphabet stands for, and the round trips. Foreign characters are skipped and a
padding character ends the text. Base64 texts are also read strictly, as `atob` does it: blanks
are skipped, padding is optional, and a foreign character or a length that no bytes have is an
error.
-/

namespace SorobanExplorer.Library.Base64url

def letter (value : Nat) : Char :=
  if value < 26 then Char.ofNat (65 + value)
  else if value < 52 then Char.ofNat (71 + value)
  else if value < 62 then Char.ofNat (value - 4)
  else if value = 62 then '-'
  else '_'

def value? (char : Char) : Option Nat :=
  if 'A' ≤ char ∧ char ≤ 'Z' then some (char.toNat - 65)
  else if 'a' ≤ char ∧ char ≤ 'z' then some (char.toNat - 71)
  else if '0' ≤ char ∧ char ≤ '9' then some (char.toNat + 4)
  else if char = '-' ∨ char = '+' then some 62
  else if char = '_' ∨ char = '/' then some 63
  else none

def split : List UInt8 → List Nat
  | [] => []
  | [first] => [first.toNat / 4, first.toNat % 4 * 16]
  | [first, second] =>
    [first.toNat / 4, first.toNat % 4 * 16 + second.toNat / 16, second.toNat % 16 * 4]
  | first :: second :: third :: rest =>
    first.toNat / 4 :: (first.toNat % 4 * 16 + second.toNat / 16) ::
      (second.toNat % 16 * 4 + third.toNat / 64) :: third.toNat % 64 :: split rest

def join : List Nat → List UInt8
  | first :: second :: third :: fourth :: rest =>
    UInt8.ofNat (first * 4 + second / 16) :: UInt8.ofNat (second % 16 * 16 + third / 4) ::
      UInt8.ofNat (third % 4 * 64 + fourth) :: join rest
  | [first, second, third] =>
    [UInt8.ofNat (first * 4 + second / 16), UInt8.ofNat (second % 16 * 16 + third / 4)]
  | [first, second] => [UInt8.ofNat (first * 4 + second / 16)]
  | _ => []

def encode (bytes : List UInt8) : List Char := (split bytes).map letter

def decode (text : List Char) : List UInt8 :=
  join ((text.takeWhile (· ≠ '=')).filterMap value?)

/-! ### Reading back -/

theorem letter_spec {value : Nat} (small : value < 64) :
    value? (letter value) = some value ∧ letter value ≠ '=' := by
  interval_cases value <;> decide

theorem split_small (bytes : List UInt8) : ∀ value ∈ split bytes, value < 64 := by
  induction bytes using split.induct with
  | case1 => simp [split]
  | case2 first =>
    have bound := first.toNat_lt
    simp only [split, List.forall_mem_cons]
    exact ⟨by omega, by omega, by simp⟩
  | case3 first second =>
    have bounds := And.intro first.toNat_lt second.toNat_lt
    simp only [split, List.forall_mem_cons]
    exact ⟨by omega, by omega, by omega, by simp⟩
  | case4 first second third rest ih =>
    have bounds := And.intro first.toNat_lt (And.intro second.toNat_lt third.toNat_lt)
    simp only [split, List.forall_mem_cons]
    exact ⟨by omega, by omega, by omega, by omega, ih⟩

theorem byte_eq (byte : UInt8) {value : Nat} (same : value = byte.toNat) :
    UInt8.ofNat value = byte := by
  rw [same, UInt8.ofNat_toNat]

theorem join_split (bytes : List UInt8) : join (split bytes) = bytes := by
  induction bytes using split.induct with
  | case1 => rfl
  | case2 first =>
    have bound := first.toNat_lt
    rw [split, join, byte_eq first (by omega)]
  | case3 first second =>
    have bounds := And.intro first.toNat_lt second.toNat_lt
    rw [split, join, byte_eq first (by omega), byte_eq second (by omega)]
  | case4 first second third rest ih =>
    have bounds := And.intro first.toNat_lt (And.intro second.toNat_lt third.toNat_lt)
    rw [split, join, byte_eq first (by omega), byte_eq second (by omega),
      byte_eq third (by omega), ih]

theorem filterMap_letter {spelled : Nat → Char} {values : List Nat} (padding : Nat)
    (reads : ∀ value ∈ values, value? (spelled value) = some value ∧ spelled value ≠ '=') :
    ((values.map spelled ++ List.replicate padding '=').takeWhile (· ≠ '=')).filterMap value? =
      values := by
  have unpadded : ∀ char ∈ values.map spelled, decide (char ≠ '=') = true := by
    intro char member
    obtain ⟨value, listed, rfl⟩ := List.mem_map.mp member
    exact decide_eq_true (reads value listed).2
  have ends : (List.replicate padding '=').takeWhile (fun char => decide (char ≠ '=')) = [] := by
    cases padding <;> simp [List.replicate_succ]
  have back : ∀ value ∈ values, (value? ∘ spelled) value = some value := fun value listed =>
    (reads value listed).1
  rw [List.takeWhile_append_of_pos unpadded, ends, List.append_nil, List.filterMap_map,
    List.filterMap_congr back, List.filterMap_some]

@[simp] theorem decode_encode (bytes : List UInt8) : decode (encode bytes) = bytes := by
  have read := filterMap_letter 0 fun value listed => letter_spec (split_small bytes value listed)
  rw [List.replicate_zero, List.append_nil] at read
  rw [decode, encode, read, join_split]

theorem encode_cons (byte : UInt8) (bytes : List UInt8) :
    ∃ rest, encode (byte :: bytes) = letter (byte.toNat / 4) :: rest := by
  match bytes with
  | [] => exact ⟨_, rfl⟩
  | [_] => exact ⟨_, rfl⟩
  | _ :: _ :: _ => exact ⟨_, rfl⟩

theorem encode_ne_nil {bytes : List UInt8} (nonempty : bytes ≠ []) : encode bytes ≠ [] := by
  obtain ⟨byte, rest, rfl⟩ := List.exists_cons_of_ne_nil nonempty
  obtain ⟨letters, same⟩ := encode_cons byte rest
  rw [same]
  exact List.cons_ne_nil _ _

/-! ### The standard alphabet -/

def standardLetter (value : Nat) : Char :=
  if value = 62 then '+' else if value = 63 then '/' else letter value

def encodePadded (bytes : List UInt8) : List Char :=
  (split bytes).map standardLetter ++ List.replicate ((3 - bytes.length % 3) % 3) '='

theorem standardLetter_spec {value : Nat} (small : value < 64) :
    value? (standardLetter value) = some value ∧ standardLetter value ≠ '=' := by
  interval_cases value <;> decide

@[simp] theorem decode_encodePadded (bytes : List UInt8) : decode (encodePadded bytes) = bytes := by
  rw [decode, encodePadded, filterMap_letter _ fun value listed =>
    standardLetter_spec (split_small bytes value listed), join_split]

theorem mem_encodePadded {bytes : List UInt8} {char : Char} (member : char ∈ encodePadded bytes) :
    (value? char).isSome ∨ char = '=' := by
  obtain lettered | padded := List.mem_append.mp member
  · obtain ⟨value, listed, rfl⟩ := List.mem_map.mp lettered
    exact .inl (Option.isSome_of_eq_some (standardLetter_spec (split_small bytes value listed)).1)
  · exact .inr (List.eq_of_mem_replicate padded)

def isBlank (char : Char) : Bool :=
  char = ' ' || char = '\t' || char = '\n' || char = '\x0C' || char = '\r'

def standardValue? (char : Char) : Option Nat :=
  if char = '-' ∨ char = '_' then none else value? char

def dropPadding (text : List Char) : List Char :=
  if text.length % 4 = 0 then
    match text.reverse with
    | '=' :: '=' :: rest => rest.reverse
    | '=' :: rest => rest.reverse
    | _ => text
  else text

/-- `atob(text)`, or none where it throws. -/
def atob? (text : List Char) : Option (List UInt8) :=
  let letters := dropPadding (text.filter fun char => !isBlank char)
  if letters.length % 4 = 1 then none else (letters.mapM standardValue?).map join

def standardized (char : Char) : Char :=
  if char = '-' then '+' else if char = '_' then '/' else char

/-! ### Padded texts -/

def padding (count : Nat) : List Char := List.replicate ((4 - count % 4) % 4) '='

theorem length_split (bytes : List UInt8) :
    (4 - (split bytes).length % 4) % 4 = (3 - bytes.length % 3) % 3 ∧
      (split bytes).length % 4 ≠ 1 := by
  induction bytes using split.induct with
  | case1 => decide
  | case2 | case3 => simp [split]
  | case4 first second third rest ih =>
    simp only [split, List.length_cons]
    omega

theorem encodePadded_eq (bytes : List UInt8) :
    encodePadded bytes = (split bytes).map standardLetter ++ padding (split bytes).length := by
  rw [encodePadded, padding, (length_split bytes).1]

theorem standardLetter_read {value : Nat} (small : value < 64) :
    standardValue? (standardLetter value) = some value ∧
      isBlank (standardLetter value) = false ∧ standardLetter value ≠ '=' ∧
      standardized (letter value) = standardLetter value ∧
      standardized (standardLetter value) = standardLetter value := by
  interval_cases value <;> decide

theorem dropPadding_padding {letters : List Char} (lettered : '=' ∉ letters)
    (count : letters.length % 4 ≠ 1) : dropPadding (letters ++ padding letters.length) = letters := by
  have whole : (letters ++ padding letters.length).length % 4 = 0 := by
    rw [List.length_append, padding, List.length_replicate]
    omega
  have ends {text : List Char} (same : letters.reverse = '=' :: text) : False :=
    lettered (List.mem_reverse.mp (same ▸ List.mem_cons_self))
  have cases : (4 - letters.length % 4) % 4 = 0 ∨ (4 - letters.length % 4) % 4 = 1 ∨
      (4 - letters.length % 4) % 4 = 2 := by omega
  rw [dropPadding, if_pos whole, padding, List.reverse_append, List.reverse_replicate]
  rcases cases with none | one | two
  · rw [none, List.replicate_zero, List.append_nil, List.nil_append]
    split
    · next same => exact (ends same).elim
    · next same => exact (ends same).elim
    · rfl
  · rw [one, List.replicate_one, List.singleton_append]
    split
    · next same => exact (ends (List.cons.inj same).2).elim
    · next same => rw [← (List.cons.inj same).2, List.reverse_reverse]
    · next _ other => exact (other _ rfl).elim
  · rw [two, List.replicate_succ, List.replicate_one, List.cons_append, List.singleton_append]
    split
    · next same => rw [← (List.cons.inj (List.cons.inj same).2).2, List.reverse_reverse]
    · next other same => exact (other _ (List.cons.inj same).2.symm).elim
    · next other _ => exact (other _ rfl).elim

theorem atob?_padded (bytes : List UInt8) :
    atob? ((split bytes).map standardLetter ++ padding (split bytes).length) = some bytes := by
  have reads := fun value listed => standardLetter_read (split_small bytes value listed)
  have solid : ∀ char ∈ (split bytes).map standardLetter ++ padding (split bytes).length,
      (!isBlank char) = true := by
    intro char member
    obtain lettered | padded := List.mem_append.mp member
    · obtain ⟨value, listed, rfl⟩ := List.mem_map.mp lettered
      rw [(reads value listed).2.1]
      rfl
    · rw [List.eq_of_mem_replicate padded]
      rfl
  have lettered : '=' ∉ (split bytes).map standardLetter := by
    intro member
    obtain ⟨value, listed, same⟩ := List.mem_map.mp member
    exact (reads value listed).2.2.1 same
  have count : ((split bytes).map standardLetter).length % 4 ≠ 1 := by
    rw [List.length_map]
    exact (length_split bytes).2
  have dropped := dropPadding_padding lettered count
  rw [List.length_map] at dropped count
  have values : ((split bytes).map standardLetter).mapM standardValue? = some (split bytes) := by
    rw [List.mapM_map]
    have each : ∀ values : List Nat, (∀ value ∈ values, value ∈ split bytes) →
        values.mapM (standardValue? ∘ standardLetter) = some values := by
      intro values among
      induction values with
      | nil => rfl
      | cons value values ih =>
        have first := (reads value (among value List.mem_cons_self)).1
        have rest := ih fun other listed =>
          among other (List.mem_cons_of_mem _ listed)
        rw [List.mapM_cons, Function.comp_apply, first, rest]
        rfl
    exact each _ fun _ listed => listed
  rw [atob?, List.filter_eq_self.mpr solid]
  simp only [dropped, List.length_map, if_neg count, values, Option.map_some, join_split]

end SorobanExplorer.Library.Base64url
