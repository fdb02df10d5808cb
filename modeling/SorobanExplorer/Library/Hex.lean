import SorobanExplorer.Library.Json
import Mathlib.Tactic.IntervalCases

/-!
Owns bytes as hexadecimal text: lower-case digits, the bytes that a text with
digits of either case stands for, and the round trip.
-/

namespace SorobanExplorer.Library

abbrev Hex := List Char

namespace Hex

def digit (value : Nat) : Char := Char.ofNat (if value < 10 then 48 + value else 87 + value)

def encode : List UInt8 → Hex
  | [] => []
  | byte :: bytes => digit (byte.toNat / 16) :: digit (byte.toNat % 16) :: encode bytes

def decode : Hex → List UInt8
  | high :: low :: rest =>
    match Json.hexDigit? high, Json.hexDigit? low with
    | some high, some low => UInt8.ofNat (16 * high + low) :: decode rest
    | _, _ => []
  | _ => []

theorem hexDigit?_digit {value : Nat} (small : value < 16) :
    Json.hexDigit? (digit value) = some value := by
  interval_cases value <;> decide

theorem decode_encode (bytes : List UInt8) : decode (encode bytes) = bytes := by
  induction bytes with
  | nil => rfl
  | cons byte bytes ih =>
    have bound := byte.toNat_lt
    have whole : 16 * (byte.toNat / 16) + byte.toNat % 16 = byte.toNat := Nat.div_add_mod ..
    rw [encode, decode, hexDigit?_digit (by omega), hexDigit?_digit (by omega)]
    simp only [whole, UInt8.ofNat_toNat, ih]

theorem encode_injective : Function.Injective encode :=
  Function.LeftInverse.injective decode_encode

theorem toLower_digit {value : Nat} (small : value < 16) : (digit value).toLower = digit value := by
  interval_cases value <;> decide

theorem map_toLower_encode (bytes : List UInt8) :
    (encode bytes).map Char.toLower = encode bytes := by
  induction bytes with
  | nil => rfl
  | cons byte bytes ih =>
    have bound := byte.toNat_lt
    rw [encode, List.map_cons, List.map_cons, toLower_digit (by omega), toLower_digit (by omega),
      ih]

theorem hexDigit?_of_mem_encode {bytes : List UInt8} {char : Char} (member : char ∈ encode bytes) :
    (Json.hexDigit? char).isSome := by
  induction bytes with
  | nil => nomatch member
  | cons byte bytes ih =>
    have bound := byte.toNat_lt
    rw [encode, List.mem_cons, List.mem_cons] at member
    obtain rfl | rfl | later := member
    · rw [hexDigit?_digit (by omega)]
      rfl
    · rw [hexDigit?_digit (by omega)]
      rfl
    · exact ih later

theorem encode_eq_nil {bytes : List UInt8} : encode bytes = [] ↔ bytes = [] := by
  cases bytes <;> simp [encode]

end Hex

end SorobanExplorer.Library
