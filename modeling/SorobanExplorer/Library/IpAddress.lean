import SorobanExplorer.Library.Json
import Mathlib.Tactic.IntervalCases

/-!
Owns IP addresses: an IPv4 address with its dotted text, the IPv6 literals of RFC 4291 in
every spelling with the eight groups they denote, and membership in a subnet.
-/

namespace SorobanExplorer.Library.IpAddress

/-! ### Digits -/

def number (base : Nat) (digits : List Char) : Nat :=
  digits.foldl (fun value char => base * value + (Json.hexDigit? char).getD 0) 0

theorem number_append (base : Nat) (digits : List Char) (last : Char) :
    number base (digits ++ [last]) = base * number base digits + (Json.hexDigit? last).getD 0 := by
  rw [number, List.foldl_append]
  rfl

theorem hexDigit?_digitChar {value : Nat} (small : value < 16) :
    Json.hexDigit? value.digitChar = some value := by
  interval_cases value <;> decide

section Digits

variable {base : Nat} (radix : 1 < base ∧ base ≤ 16)

include radix

theorem number_toDigits (value : Nat) : number base (Nat.toDigits base value) = value := by
  induction value using Nat.strongRecOn with
  | ind value ih =>
    rw [Nat.toDigits_eq_if radix.1]
    split_ifs with small
    · simp [number, hexDigit?_digitChar (show value < 16 by omega)]
    · have last : value % base < base := Nat.mod_lt _ (by omega)
      rw [number_append, ih _ (Nat.div_lt_self (by omega) radix.1),
        hexDigit?_digitChar (by omega), Option.getD_some]
      exact Nat.div_add_mod value base

theorem hexDigit?_of_mem_toDigits {value : Nat} {char : Char}
    (mem : char ∈ Nat.toDigits base value) : (Json.hexDigit? char).isSome = true := by
  induction value using Nat.strongRecOn with
  | ind value ih =>
    rw [Nat.toDigits_eq_if radix.1] at mem
    split_ifs at mem with small
    · rw [List.mem_singleton.mp mem, hexDigit?_digitChar (by omega)]
      rfl
    · have last : value % base < base := Nat.mod_lt _ (by omega)
      rcases List.mem_append.mp mem with earlier | same
      · exact ih _ (Nat.div_lt_self (by omega) radix.1) earlier
      · rw [List.mem_singleton.mp same, hexDigit?_digitChar (by omega)]
        rfl

end Digits

/-! ### IPv4 -/

structure Quad where
  first : UInt8
  second : UInt8
  third : UInt8
  fourth : UInt8
deriving DecidableEq

namespace Quad

def octets (quad : Quad) : List UInt8 := [quad.first, quad.second, quad.third, quad.fourth]

def pieces (quad : Quad) : List (List Char) :=
  quad.octets.map fun octet => Nat.toDigits 10 octet.toNat

/-- `a.b.c.d` -/
def text (quad : Quad) : List Char := ['.'].intercalate quad.pieces

def high (quad : Quad) : Nat := 256 * quad.first.toNat + quad.second.toNat
def low (quad : Quad) : Nat := 256 * quad.third.toNat + quad.fourth.toNat

def value (quad : Quad) : Nat := 65536 * quad.high + quad.low

end Quad

/-! ### IPv6 -/

structure Hextet where
  digits : List Char
  hex : ∀ char ∈ digits, (Json.hexDigit? char).isSome = true
  few : 1 ≤ digits.length ∧ digits.length ≤ 4

def Hextet.value (hextet : Hextet) : Nat := number 16 hextet.digits

/-- A literal: eight groups, or fewer around a `::`, where a dotted quad may stand for the
last two. -/
inductive Literal where
  | full (groups : List Hextet) (quad : Option Quad)
      (eight : groups.length + (quad.elim 0 fun _ => 2) = 8)
  | compressed (head tail : List Hextet) (quad : Option Quad)
      (fewer : head.length + tail.length + (quad.elim 0 fun _ => 2) ≤ 7)

namespace Literal

def piecesOf (groups : List Hextet) (quad : Option Quad) : List (List Char) :=
  groups.map Hextet.digits ++ (quad.map Quad.text).toList

def groupsOf (groups : List Hextet) (quad : Option Quad) : List Nat :=
  groups.map Hextet.value ++ quad.elim [] fun quad => [quad.high, quad.low]

def text : Literal → List Char
  | full groups quad _ => [':'].intercalate (piecesOf groups quad)
  | compressed head tail quad _ =>
    [':'].intercalate (head.map Hextet.digits) ++ ':' :: ':' ::
      [':'].intercalate (piecesOf tail quad)

def groups : Literal → List Nat
  | full groups quad _ => groupsOf groups quad
  | compressed head tail quad _ =>
    head.map Hextet.value ++
      List.replicate (8 - head.length - (groupsOf tail quad).length) 0 ++ groupsOf tail quad

end Literal

/-! ### Subnets -/

def address (groups : List Nat) : Nat := groups.foldl (fun value group => 65536 * value + group) 0

inductive Subnet where
  | ipv4 (base : Quad) (bits : Nat)
  | ipv6 (base : List Nat) (bits : Nat)
deriving DecidableEq

def Subnet.containsQuad (quad : Quad) : Subnet → Bool
  | .ipv4 base bits => quad.value / 2 ^ (32 - bits) = base.value / 2 ^ (32 - bits)
  | .ipv6 .. => false

def Subnet.containsGroups (groups : List Nat) : Subnet → Bool
  | .ipv4 .. => false
  | .ipv6 base bits => address groups / 2 ^ (128 - bits) = address base / 2 ^ (128 - bits)

end SorobanExplorer.Library.IpAddress
