import SorobanExplorer.Library.IpAddress
import Mathlib.Data.List.TakeWhile

/-!
Owns the address check of the outbound client: the deny list, the groups of an IPv6
literal, the IPv4 addresses that the forms of transition embed, and `isBlockedAddress`.

Of the `net` module it is taken that `isIP` tells the literals of both families and that
`BlockList.check` is membership in a subnet. A group comes out of a literal, so that it has no
sign, no blank and no `0x`, and an octet is at most 255.
-/

namespace SorobanExplorer.Indexer.SafeHttp

open Library
open Library.IpAddress

/-! ### The `net` module -/

inductive Family where
  | ipv4
  | ipv6
deriving DecidableEq

/-- `net.isIP` and `BlockList.check`. -/
structure Net where
  isIP : List Char → Nat
  check : List Subnet → List Char → Family → Bool
  isIP_eq_four : ∀ text, isIP text = 4 ↔ ∃ quad : Quad, quad.text = text
  isIP_eq_six : ∀ text, isIP text = 6 ↔ ∃ literal : Literal, literal.text = text
  check_quad : ∀ subnets (quad : Quad),
    check subnets quad.text .ipv4 = subnets.any (Subnet.containsQuad quad)
  check_literal : ∀ subnets (literal : Literal),
    check subnets literal.text .ipv6 = subnets.any (Subnet.containsGroups literal.groups)

/-! ### The deny list -/

def deny : List Subnet :=
  [.ipv4 ⟨0, 0, 0, 0⟩ 8, .ipv4 ⟨10, 0, 0, 0⟩ 8, .ipv4 ⟨100, 64, 0, 0⟩ 10, .ipv4 ⟨127, 0, 0, 0⟩ 8,
    .ipv4 ⟨169, 254, 0, 0⟩ 16, .ipv4 ⟨172, 16, 0, 0⟩ 12, .ipv4 ⟨192, 0, 0, 0⟩ 24,
    .ipv4 ⟨192, 0, 2, 0⟩ 24, .ipv4 ⟨192, 88, 99, 0⟩ 24, .ipv4 ⟨192, 168, 0, 0⟩ 16,
    .ipv4 ⟨198, 18, 0, 0⟩ 15, .ipv4 ⟨198, 51, 100, 0⟩ 24, .ipv4 ⟨203, 0, 113, 0⟩ 24,
    .ipv4 ⟨224, 0, 0, 0⟩ 4, .ipv4 ⟨240, 0, 0, 0⟩ 4,
    .ipv6 [0, 0, 0, 0, 0, 0, 0, 0] 128, .ipv6 [0, 0, 0, 0, 0, 0, 0, 1] 128,
    .ipv6 [0, 0, 0, 0, 0, 0, 0, 0] 96, .ipv6 [0x100, 0, 0, 0, 0, 0, 0, 0] 64,
    .ipv6 [0x2001, 0xdb8, 0, 0, 0, 0, 0, 0] 32, .ipv6 [0xfc00, 0, 0, 0, 0, 0, 0, 0] 7,
    .ipv6 [0xfe80, 0, 0, 0, 0, 0, 0, 0] 10, .ipv6 [0xfec0, 0, 0, 0, 0, 0, 0, 0] 10,
    .ipv6 [0xff00, 0, 0, 0, 0, 0, 0, 0] 8]

/-! ### Groups -/

/-- `\d+\.\d+\.\d+\.\d+`, all of a text. -/
def isDotted (text : List Char) : Bool :=
  (text.splitOn '.').length = 4 &&
    (text.splitOn '.').all fun part => part ≠ [] && part.all Char.isDigit

/-- `s.match(/(\d+\.\d+\.\d+\.\d+)$/)`: what stands before the first match, and the match. -/
def matchDotted : List Char → Option (List Char × List Char)
  | [] => none
  | char :: rest =>
    if isDotted (char :: rest) then some ([], char :: rest)
    else (matchDotted rest).map fun (before, dotted) => (char :: before, dotted)

def expandDotted (s : List Char) : List Char :=
  match matchDotted s with
  | some (before, dotted) =>
    match (dotted.splitOn '.').map (number 10) with
    | [first, second, third, fourth] =>
      before ++ Nat.toDigits 16 (first <<< 8 ||| second) ++
        ':' :: Nat.toDigits 16 (third <<< 8 ||| fourth)
    | _ => s
  | none => s

/-- `s.split("::")` -/
def splitDouble : List Char → List (List Char)
  | [] => [[]]
  | ':' :: ':' :: rest => [] :: splitDouble rest
  | char :: rest =>
    match splitDouble rest with
    | [] => [[char]]
    | first :: others => (char :: first) :: others

/-- `parseInt(group, 16)`, where NaN is nothing. -/
def parseInt16 (group : List Char) : Option Nat :=
  match group.takeWhile fun char => (Json.hexDigit? char).isSome with
  | [] => none
  | digits => some (number 16 digits)

/-- `part ? part.split(":") : []` -/
def splitGroups (part : List Char) : List (List Char) :=
  if part = [] then [] else part.splitOn ':'

/-- `ipv6Groups`; `new Array` throws where more than eight groups are there already. -/
def ipv6Groups (ip : List Char) : Option (List (Option Nat)) :=
  match splitDouble (expandDotted (ip.map Char.toLower)) with
  | [] => some []
  | [head] => some ((splitGroups head).map parseInt16)
  | head :: tail :: _ =>
    let h := splitGroups head
    let t := splitGroups tail
    if 8 < h.length + t.length then none
    else some ((h ++ List.replicate (8 - h.length - t.length) ['0'] ++ t).map parseInt16)

def groupsToIPv4 (hi lo : Nat) : List Char :=
  ['.'].intercalate ([hi >>> 8, hi &&& 0xff, lo >>> 8, lo &&& 0xff].map (Nat.toDigits 10))

/-! ### The check -/

/-- `isBlockedAddress`, of an IPv6 literal with eight groups. -/
def isBlockedGroups (net : Net) (ip : List Char) (g : List Nat) : Bool :=
  if (g.take 5).all (· = 0) &&
      (g.getD 5 0 = 0xffff || (g.getD 4 0 = 0xffff && g.getD 5 0 = 0)) then
    net.check deny (groupsToIPv4 (g.getD 6 0) (g.getD 7 0)) .ipv4
  else if g.getD 0 0 = 0x64 && g.getD 1 0 = 0xff9b && ((g.take 6).drop 2).all (· = 0) then
    net.check deny (groupsToIPv4 (g.getD 6 0) (g.getD 7 0)) .ipv4
  else if g.getD 0 0 = 0x2002 then
    net.check deny (groupsToIPv4 (g.getD 1 0) (g.getD 2 0)) .ipv4
  else if g.getD 0 0 = 0x2001 && g.getD 1 0 = 0 then
    net.check deny (groupsToIPv4 (g.getD 6 0 ^^^ 0xffff) (g.getD 7 0 ^^^ 0xffff)) .ipv4
  else net.check deny ip .ipv6

def isBlockedAddress (net : Net) (ip : List Char) : Option Bool :=
  if net.isIP ip = 4 then some (net.check deny ip .ipv4)
  else if net.isIP ip ≠ 6 then some true
  else do
    let g ← ipv6Groups ip
    match g.mapM id with
    | some g => pure (if g.length ≠ 8 then true else isBlockedGroups net ip g)
    | none => pure true

/-! ### Pieces of a literal -/

def IsPiece (piece : List Char) : Prop :=
  piece ≠ [] ∧ ∀ char ∈ piece, (Json.hexDigit? char).isSome = true

theorem isPiece_toDigits {base : Nat} (radix : 1 < base ∧ base ≤ 16) (value : Nat) :
    IsPiece (Nat.toDigits base value) :=
  ⟨Nat.toDigits_ne_nil, fun _ => hexDigit?_of_mem_toDigits radix⟩

theorem isPiece_digits (hextet : Hextet) : IsPiece hextet.digits :=
  ⟨List.length_pos_iff.mp hextet.few.1, hextet.hex⟩

theorem IsPiece.ne_colon {piece : List Char} (isPiece : IsPiece piece) : ':' ∉ piece :=
  fun mem => absurd (isPiece.2 _ mem) (by decide)

theorem IsPiece.ne_dot {piece : List Char} (isPiece : IsPiece piece) : '.' ∉ piece :=
  fun mem => absurd (isPiece.2 _ mem) (by decide)

theorem parseInt16_piece {piece : List Char} (isPiece : IsPiece piece) :
    parseInt16 piece = some (number 16 piece) := by
  rw [parseInt16, List.takeWhile_eq_self_iff.mpr isPiece.2]
  cases piece with
  | nil => exact absurd rfl isPiece.1
  | cons => rfl

/-! ### Cutting at colons -/

theorem splitGroups_joined {pieces : List (List Char)} (each : ∀ piece ∈ pieces, IsPiece piece) :
    splitGroups ([':'].intercalate pieces) = pieces := by
  cases pieces with
  | nil => rfl
  | cons first rest =>
    have solid : [':'].intercalate (first :: rest) ≠ [] := by
      cases rest with
      | nil =>
        rw [List.intercalate_singleton]
        exact (each first List.mem_cons_self).1
      | cons => simp [List.intercalate_cons_cons]
    rw [splitGroups, if_neg solid]
    exact List.splitOn_intercalate ':' (fun piece mem => (each piece mem).ne_colon)
      (List.cons_ne_nil _ _)

def prepend (text : List Char) : List (List Char) → List (List Char)
  | [] => [text]
  | first :: others => (text ++ first) :: others

theorem splitDouble_cons {char : Char} {rest : List Char}
    (single : char = ':' → rest.head? ≠ some ':') :
    splitDouble (char :: rest) = prepend [char] (splitDouble rest) := by
  rw [splitDouble]
  · cases splitDouble rest <;> rfl
  · rintro after rfl rfl
    exact absurd rfl (single rfl)

theorem prepend_prepend (first second : List Char) (parts : List (List Char)) :
    prepend first (prepend second parts) = prepend (first ++ second) parts := by
  cases parts <;> simp [prepend]

theorem splitDouble_ne_nil (text : List Char) : splitDouble text ≠ [] := by
  unfold splitDouble
  split
  · exact List.cons_ne_nil _ _
  · exact List.cons_ne_nil _ _
  · split <;> exact List.cons_ne_nil _ _

theorem splitDouble_piece {piece : List Char} (noColon : ':' ∉ piece) (rest : List Char) :
    splitDouble (piece ++ rest) = prepend piece (splitDouble rest) := by
  induction piece with
  | nil =>
    cases parts : splitDouble rest with
    | nil => exact absurd parts (splitDouble_ne_nil rest)
    | cons first others => simp [prepend, parts]
  | cons char piece ih =>
    rw [List.mem_cons, not_or] at noColon
    rw [List.cons_append, splitDouble_cons (absurd · (Ne.symm noColon.1)), ih noColon.2,
      prepend_prepend]
    rfl

theorem splitDouble_joined {pieces : List (List Char)} (each : ∀ piece ∈ pieces, IsPiece piece)
    (rest : List Char) : splitDouble ([':'].intercalate pieces ++ rest) =
      prepend ([':'].intercalate pieces) (splitDouble rest) := by
  induction pieces with
  | nil => exact splitDouble_piece List.not_mem_nil rest
  | cons piece pieces ih =>
    have first := each piece List.mem_cons_self
    have others := fun other mem => each other (List.mem_cons_of_mem _ mem)
    cases pieces with
    | nil =>
      rw [List.intercalate_singleton]
      exact splitDouble_piece first.ne_colon rest
    | cons next pieces =>
      have start : ([':'].intercalate (next :: pieces) ++ rest).head? ≠ some ':' := by
        have second := each next (List.mem_cons_of_mem _ List.mem_cons_self)
        cases next with
        | nil => exact absurd rfl second.1
        | cons char next =>
          rw [List.intercalate_cons_cons_left, List.cons_append, List.head?_cons]
          exact fun same => second.ne_colon (Option.some.inj same ▸ List.mem_cons_self)
      rw [List.intercalate_cons_cons, List.append_assoc, List.append_assoc,
        splitDouble_piece first.ne_colon, List.singleton_append,
        splitDouble_cons fun _ => start, ih others, prepend_prepend,
        prepend_prepend]

theorem splitDouble_compressed {head tail : List (List Char)}
    (headPieces : ∀ piece ∈ head, IsPiece piece) (tailPieces : ∀ piece ∈ tail, IsPiece piece) :
    splitDouble ([':'].intercalate head ++ ':' :: ':' :: [':'].intercalate tail) =
      [[':'].intercalate head, [':'].intercalate tail] := by
  have after := splitDouble_joined tailPieces []
  rw [List.append_nil] at after
  rw [splitDouble_joined headPieces, splitDouble, after]
  simp [splitDouble, prepend]

/-! ### The dotted tail -/

theorem mem_intercalate {char separator : Char} {pieces : List (List Char)}
    (mem : char ∈ [separator].intercalate pieces) :
    char = separator ∨ ∃ piece ∈ pieces, char ∈ piece := by
  induction pieces with
  | nil => cases mem
  | cons piece pieces ih =>
    cases pieces with
    | nil =>
      rw [List.intercalate_singleton] at mem
      exact Or.inr ⟨piece, List.mem_cons_self, mem⟩
    | cons next pieces =>
      rw [List.intercalate_cons_cons, List.append_assoc, List.mem_append, List.mem_append] at mem
      rcases mem with inside | same | later
      · exact Or.inr ⟨piece, List.mem_cons_self, inside⟩
      · exact Or.inl (List.mem_singleton.mp same)
      · exact (ih later).imp_right fun ⟨other, listed, inside⟩ =>
          ⟨other, List.mem_cons_of_mem _ listed, inside⟩

theorem isDotted_chars {text : List Char} (dotted : isDotted text = true) :
    (∀ char ∈ text, char = '.' ∨ char.isDigit = true) ∧ '.' ∈ text := by
  simp only [isDotted, Bool.and_eq_true, decide_eq_true_eq, List.all_eq_true] at dotted
  obtain ⟨four, each⟩ := dotted
  constructor
  · intro char mem
    rw [← @List.intercalate_splitOn _ text _ _ '.'] at mem
    refine (mem_intercalate mem).imp_right fun ⟨part, listed, inside⟩ => ?_
    exact (each part listed).2 char inside
  · by_contra noDot
    rw [List.splitOn_eq_singleton noDot] at four
    cases four

theorem splitOn_text (quad : Quad) : quad.text.splitOn '.' = quad.pieces := by
  refine List.splitOn_intercalate '.' (fun piece mem => ?_) (List.cons_ne_nil _ _)
  obtain ⟨octet, -, rfl⟩ := List.mem_map.mp mem
  exact (isPiece_toDigits (by decide) _).ne_dot

theorem isDotted_quad (quad : Quad) : isDotted quad.text = true := by
  rw [isDotted, splitOn_text]
  have each : quad.pieces.all (fun part => part ≠ [] && part.all Char.isDigit) = true := by
    rw [List.all_eq_true]
    intro piece mem
    obtain ⟨octet, -, rfl⟩ := List.mem_map.mp mem
    rw [Bool.and_eq_true, decide_eq_true_eq, List.all_eq_true]
    exact ⟨Nat.toDigits_ne_nil, fun char => Nat.isDigit_of_mem_toDigits (by decide) (by decide)⟩
  rw [each]
  rfl

theorem matchDotted_of_ne_dot {text : List Char} (noDot : '.' ∉ text) : matchDotted text = none := by
  induction text with
  | nil => rfl
  | cons char rest ih =>
    have whole : ¬ isDotted (char :: rest) = true := fun dotted => noDot (isDotted_chars dotted).2
    rw [matchDotted, if_neg whole,
      ih fun mem => noDot (List.mem_cons_of_mem _ mem)]
    rfl

theorem matchDotted_append (before : List Char) (quad : Quad) :
    matchDotted (before ++ ':' :: quad.text) = some (before ++ [':'], quad.text) := by
  have colon : ∀ text, ':' ∈ text → ¬ isDotted text = true := by
    intro text mem dotted
    rcases (isDotted_chars dotted).1 _ mem with same | digit
    · exact absurd same (by decide)
    · exact absurd digit (by decide)
  induction before with
  | nil =>
    have found : matchDotted quad.text = some ([], quad.text) := by
      cases text : quad.text with
      | nil =>
        have dotted := isDotted_quad quad
        rw [text] at dotted
        cases dotted
      | cons char rest => rw [matchDotted, if_pos (text ▸ isDotted_quad quad)]
    rw [List.nil_append, matchDotted, if_neg (colon _ List.mem_cons_self), found]
    rfl
  | cons char before ih =>
    rw [List.cons_append, matchDotted, if_neg (colon _ (by simp)), ih]
    rfl

def plainPieces (groups : List Hextet) (quad : Option Quad) : List (List Char) :=
  groups.map Hextet.digits ++ quad.elim [] fun quad =>
    [Nat.toDigits 16 quad.high, Nat.toDigits 16 quad.low]

theorem shift_or (high low : UInt8) :
    high.toNat <<< 8 ||| low.toNat = 256 * high.toNat + low.toNat := by
  rw [← Nat.shiftLeft_add_eq_or_of_lt low.toNat_lt, Nat.shiftLeft_eq]
  omega

theorem octets_text (quad : Quad) : (quad.text.splitOn '.').map (number 10) =
    [quad.first.toNat, quad.second.toNat, quad.third.toNat, quad.fourth.toNat] := by
  simp [splitOn_text, Quad.pieces, Quad.octets, number_toDigits]

theorem expandDotted_quad (before : List Char) (quad : Quad) :
    expandDotted (before ++ ':' :: quad.text) =
      before ++ ':' :: (Nat.toDigits 16 quad.high ++ ':' :: Nat.toDigits 16 quad.low) := by
  rw [expandDotted, matchDotted_append]
  simp only [octets_text, shift_or]
  simp [Quad.high, Quad.low]

/-! ### The groups of a literal -/

theorem intercalate_concat {pieces : List (List Char)} (some : pieces ≠ []) (last : List Char) :
    [':'].intercalate (pieces ++ [last]) = [':'].intercalate pieces ++ ':' :: last := by
  induction pieces with
  | nil => exact absurd rfl some
  | cons piece pieces ih =>
    cases pieces with
    | nil => simp [List.intercalate_cons_cons, List.intercalate_singleton]
    | cons next pieces =>
      rw [List.cons_append, List.cons_append, List.intercalate_cons_cons, ← List.cons_append,
        ih (List.cons_ne_nil _ _), List.intercalate_cons_cons]
      simp

theorem expandDotted_pieces (before : List Char) (groups : List Hextet) (quad : Option Quad)
    (apart : quad.isSome = true → groups = [] → ∃ text, before = text ++ [':'])
    (noDot : '.' ∉ before) :
    expandDotted (before ++ [':'].intercalate (Literal.piecesOf groups quad)) =
      before ++ [':'].intercalate (plainPieces groups quad) := by
  cases quad with
  | none =>
    have none : '.' ∉ before ++ [':'].intercalate (groups.map Hextet.digits ++ []) := by
      rw [List.append_nil, List.mem_append, not_or]
      refine ⟨noDot, fun mem => ?_⟩
      rcases mem_intercalate mem with same | ⟨piece, listed, inside⟩
      · cases same
      · obtain ⟨hextet, -, rfl⟩ := List.mem_map.mp listed
        exact (isPiece_digits hextet).ne_dot inside
    rw [expandDotted, Literal.piecesOf, Option.map_none, Option.toList_none,
      matchDotted_of_ne_dot none]
    rfl
  | some quad =>
    rw [Literal.piecesOf, plainPieces, Option.map_some, Option.toList_some, Option.elim_some]
    by_cases first : groups = []
    · obtain ⟨text, rfl⟩ := apart rfl first
      rw [first, List.map_nil, List.nil_append, List.nil_append, List.intercalate_singleton,
        List.intercalate_cons_cons, List.intercalate_singleton, List.append_assoc,
        List.singleton_append, expandDotted_quad]
      simp
    · have listed : groups.map Hextet.digits ≠ [] := fun empty => first (List.map_eq_nil_iff.mp empty)
      have two : groups.map Hextet.digits ++
          [Nat.toDigits 16 quad.high, Nat.toDigits 16 quad.low] =
          groups.map Hextet.digits ++ [Nat.toDigits 16 quad.high] ++
            [Nat.toDigits 16 quad.low] := by simp
      rw [intercalate_concat listed, ← List.append_assoc, expandDotted_quad, two,
        intercalate_concat (by simp), intercalate_concat listed]
      simp

theorem isPiece_plainPieces (groups : List Hextet) (quad : Option Quad) :
    ∀ piece ∈ plainPieces groups quad, IsPiece piece := by
  intro piece mem
  rcases List.mem_append.mp mem with group | last
  · obtain ⟨hextet, -, rfl⟩ := List.mem_map.mp group
    exact isPiece_digits hextet
  · cases quad with
    | none => cases last
    | some quad =>
      rcases List.mem_pair.mp last with rfl | rfl
      · exact isPiece_toDigits (by decide) _
      · exact isPiece_toDigits (by decide) _

theorem parseInt16_plainPieces (groups : List Hextet) (quad : Option Quad) :
    (plainPieces groups quad).map parseInt16 = (Literal.groupsOf groups quad).map some := by
  have parsed : (plainPieces groups quad).map parseInt16 =
      (plainPieces groups quad).map fun piece => some (number 16 piece) :=
    List.map_congr_left fun piece mem => parseInt16_piece (isPiece_plainPieces groups quad piece mem)
  rw [parsed]
  cases quad with
  | none => simp [plainPieces, Literal.groupsOf, Hextet.value]
  | some quad => simp [plainPieces, Literal.groupsOf, Hextet.value, number_toDigits]

/-! ### Case -/

theorem hexDigit?_toLower {char : Char} (hex : (Json.hexDigit? char).isSome = true) :
    Json.hexDigit? char.toLower = Json.hexDigit? char := by
  have listed : char ∈ "0123456789abcdefABCDEF".toList := by
    unfold Json.hexDigit? at hex
    split_ifs at hex with digit lower upper
    · rw [← Char.ofNat_toNat char]
      have low : 48 ≤ char.toNat := digit.1
      have high : char.toNat ≤ 57 := digit.2
      interval_cases char.toNat <;> decide
    · rw [← Char.ofNat_toNat char]
      have low : 97 ≤ char.toNat := lower.1
      have high : char.toNat ≤ 102 := lower.2
      interval_cases char.toNat <;> decide
    · rw [← Char.ofNat_toNat char]
      have low : 65 ≤ char.toNat := upper.1
      have high : char.toNat ≤ 70 := upper.2
      interval_cases char.toNat <;> decide
    · cases hex
  have all : "0123456789abcdefABCDEF".toList.all (fun char =>
      decide (Json.hexDigit? char.toLower = Json.hexDigit? char)) = true := by decide
  exact of_decide_eq_true (List.all_eq_true.mp all char listed)

theorem toLower_of_isDigit {char : Char} (digit : char.isDigit = true) : char.toLower = char := by
  simp only [Char.isDigit, Bool.and_eq_true, decide_eq_true_eq] at digit
  have low : 48 ≤ char.toNat := digit.1
  have high : char.toNat ≤ 57 := digit.2
  rw [← Char.ofNat_toNat char]
  interval_cases char.toNat <;> decide
theorem map_toLower_intercalate (pieces : List (List Char)) :
    ([':'].intercalate pieces).map Char.toLower =
      [':'].intercalate (pieces.map (List.map Char.toLower)) := by
  induction pieces with
  | nil => rfl
  | cons piece pieces ih =>
    cases pieces with
    | nil => simp [List.intercalate_singleton]
    | cons next pieces =>
      rw [List.intercalate_cons_cons, List.map_append, List.map_append, ih]
      simp only [List.map_cons, List.intercalate_cons_cons]
      rfl

def lowerHextet (hextet : Hextet) : Hextet where
  digits := hextet.digits.map Char.toLower
  hex := by
    intro char mem
    obtain ⟨original, inside, rfl⟩ := List.mem_map.mp mem
    rw [hexDigit?_toLower (hextet.hex original inside)]
    exact hextet.hex original inside
  few := by
    rw [List.length_map]
    exact hextet.few

theorem value_lowerHextet (hextet : Hextet) : (lowerHextet hextet).value = hextet.value := by
  rw [Hextet.value, Hextet.value, lowerHextet, number, number, List.foldl_map]
  exact List.foldl_ext _ _ _ fun value char mem => by rw [hexDigit?_toLower (hextet.hex char mem)]

def lowerLiteral : Literal → Literal
  | .full groups quad eight =>
    .full (groups.map lowerHextet) quad (by rw [List.length_map]; exact eight)
  | .compressed head tail quad fewer =>
    .compressed (head.map lowerHextet) (tail.map lowerHextet) quad
      (by rw [List.length_map, List.length_map]; exact fewer)

theorem map_toLower_quad (quad : Quad) : quad.text.map Char.toLower = quad.text := by
  have same : quad.text.map Char.toLower = quad.text.map id := by
    refine List.map_congr_left fun char mem => ?_
    rcases (isDotted_chars (isDotted_quad quad)).1 char mem with rfl | digit
    · rfl
    · exact toLower_of_isDigit digit
  rw [same, List.map_id]

theorem map_toLower_pieces (groups : List Hextet) (quad : Option Quad) :
    (Literal.piecesOf groups quad).map (List.map Char.toLower) =
      Literal.piecesOf (groups.map lowerHextet) quad := by
  cases quad with
  | none => simp [Literal.piecesOf, lowerHextet]
  | some quad => simp [Literal.piecesOf, lowerHextet, map_toLower_quad]

theorem map_toLower_text (literal : Literal) :
    literal.text.map Char.toLower = (lowerLiteral literal).text := by
  cases literal with
  | full groups quad eight =>
    rw [Literal.text, map_toLower_intercalate, map_toLower_pieces]
    rfl
  | compressed head tail quad fewer =>
    rw [Literal.text, List.map_append, List.map_cons, List.map_cons, map_toLower_intercalate,
      map_toLower_intercalate, map_toLower_pieces]
    simp only [lowerLiteral, Literal.text, List.map_map]
    rfl

theorem groups_lowerLiteral (literal : Literal) : (lowerLiteral literal).groups = literal.groups := by
  have values : ∀ groups : List Hextet,
      (groups.map lowerHextet).map Hextet.value = groups.map Hextet.value := by
    intro groups
    rw [List.map_map]
    exact List.map_congr_left fun hextet _ => value_lowerHextet hextet
  cases literal with
  | full groups quad eight => simp only [lowerLiteral, Literal.groups, Literal.groupsOf, values]
  | compressed head tail quad fewer =>
    simp only [lowerLiteral, Literal.groups, Literal.groupsOf, values, List.length_map]

theorem ipv6Groups_text (literal : Literal) :
    ipv6Groups literal.text = some (literal.groups.map some) := by
  rw [ipv6Groups, map_toLower_text, ← groups_lowerLiteral]
  generalize lowerLiteral literal = literal
  cases literal with
  | full groups quad eight =>
    have nonempty : quad.isSome = true → groups = [] → ∃ text, [] = text ++ [':'] := by
      rintro written rfl
      cases quad with
      | none => cases written
      | some quad => cases eight
    have expanded := expandDotted_pieces [] groups quad nonempty List.not_mem_nil
    rw [List.nil_append, List.nil_append] at expanded
    have parts := splitDouble_joined (isPiece_plainPieces groups quad) []
    rw [List.append_nil] at parts
    rw [Literal.text, expanded, parts]
    simp only [splitDouble, prepend, List.append_nil]
    rw [splitGroups_joined (isPiece_plainPieces groups quad), parseInt16_plainPieces]
    rfl
  | compressed head tail quad fewer =>
    have headPieces : ∀ piece ∈ head.map Hextet.digits, IsPiece piece := by
      intro piece mem
      obtain ⟨hextet, -, rfl⟩ := List.mem_map.mp mem
      exact isPiece_digits hextet
    have noDot : '.' ∉ [':'].intercalate (head.map Hextet.digits) ++ [':', ':'] := by
      rw [List.mem_append, not_or]
      refine ⟨fun mem => ?_, by decide⟩
      rcases mem_intercalate mem with same | ⟨piece, listed, inside⟩
      · cases same
      · exact (headPieces piece listed).ne_dot inside
    have expanded := expandDotted_pieces _ tail quad
      (fun _ _ => ⟨[':'].intercalate (head.map Hextet.digits) ++ [':'], by simp⟩) noDot
    have count : (plainPieces tail quad).length = (Literal.groupsOf tail quad).length := by
      have lengths := congrArg List.length (parseInt16_plainPieces tail quad)
      rwa [List.length_map, List.length_map] at lengths
    have room : (head.map Hextet.digits).length + (plainPieces tail quad).length ≤ 7 := by
      rw [count]
      cases quad <;> simpa [Literal.groupsOf, Nat.add_assoc] using fewer
    have headParsed : (head.map Hextet.digits).map parseInt16 =
        (head.map Hextet.value).map some := by
      rw [List.map_map, List.map_map]
      exact List.map_congr_left fun hextet _ => parseInt16_piece (isPiece_digits hextet)
    simp only [List.append_assoc, List.cons_append, List.nil_append] at expanded
    rw [Literal.text, expanded]
    simp only [splitDouble_compressed headPieces (isPiece_plainPieces tail quad),
      splitGroups_joined headPieces, splitGroups_joined (isPiece_plainPieces tail quad)]
    rw [if_neg (by omega), Literal.groups, List.map_append, List.map_append, headParsed,
      parseInt16_plainPieces, count, List.map_append, List.map_append, List.map_replicate,
      List.map_replicate, List.length_map]
    rfl

/-! ### Embedded addresses -/

/-- The forms that `isBlockedAddress` and the deny list name. -/
inductive Form where
  | compatible
  | mapped
  | translated
  | nat64
  | sixToFour
  | teredo
deriving DecidableEq

inductive Embeds (quad : Quad) : Form → List Nat → Prop where
  | compatible : Embeds quad .compatible [0, 0, 0, 0, 0, 0, quad.high, quad.low]
  | mapped : Embeds quad .mapped [0, 0, 0, 0, 0, 0xffff, quad.high, quad.low]
  | translated : Embeds quad .translated [0, 0, 0, 0, 0xffff, 0, quad.high, quad.low]
  | nat64 : Embeds quad .nat64 [0x64, 0xff9b, 0, 0, 0, 0, quad.high, quad.low]
  | sixToFour (rest : List Nat) :
      Embeds quad .sixToFour (0x2002 :: quad.high :: quad.low :: rest)
  | teredo (server serverLow flags port : Nat) :
      Embeds quad .teredo [0x2001, 0, server, serverLow, flags, port, quad.high ^^^ 0xffff,
        quad.low ^^^ 0xffff]

def denied (quad : Quad) : Bool := deny.any (Subnet.containsQuad quad)

theorem groupsToIPv4_quad (quad : Quad) : groupsToIPv4 quad.high quad.low = quad.text := by
  have split : ∀ first second : UInt8,
      (256 * first.toNat + second.toNat) >>> 8 = first.toNat ∧
        (256 * first.toNat + second.toNat) &&& 0xff = second.toNat := by
    intro first second
    have bound := second.toNat_lt
    rw [Nat.shiftRight_eq_div_pow, show (0xff : Nat) = 2 ^ 8 - 1 by rfl, Nat.and_two_pow_sub_one_eq_mod]
    omega
  rw [groupsToIPv4, Quad.high, Quad.low, (split _ _).1, (split _ _).2, (split _ _).1, (split _ _).2]
  rfl

theorem quad_lt (quad : Quad) : quad.high < 65536 ∧ quad.low < 65536 := by
  have first := quad.first.toNat_lt
  have second := quad.second.toNat_lt
  have third := quad.third.toNat_lt
  have fourth := quad.fourth.toNat_lt
  rw [Quad.high, Quad.low]
  omega

theorem length_groups (literal : Literal) : literal.groups.length = 8 := by
  cases literal with
  | full groups quad eight =>
    rw [← eight]
    cases quad <;> simp [Literal.groups, Literal.groupsOf]
  | compressed head tail quad fewer =>
    have room : head.length + (Literal.groupsOf tail quad).length ≤ 7 := by
      cases quad <;> simpa [Literal.groupsOf, Nat.add_assoc] using fewer
    simp only [Literal.groups, List.length_append, List.length_map, List.length_replicate]
    omega

section Blocking

variable (net : Net) (literal : Literal)

theorem isBlockedAddress_literal :
    isBlockedAddress net literal.text =
      some (isBlockedGroups net literal.text literal.groups) := by
  have six := (net.isIP_eq_six literal.text).mpr ⟨literal, rfl⟩
  have numbers : (literal.groups.map some).mapM id = some literal.groups := by
    induction literal.groups with
    | nil => rfl
    | cons group groups ih => simp_all
  rw [isBlockedAddress, six, if_neg (by decide), if_neg (by decide), ipv6Groups_text]
  simp only [Option.bind_eq_bind, Option.bind_some, numbers]
  rw [if_neg (by rw [length_groups]; decide)]
  rfl

theorem check_groupsToIPv4 (quad : Quad) :
    net.check deny (groupsToIPv4 quad.high quad.low) .ipv4 = denied quad := by
  rw [groupsToIPv4_quad, net.check_quad]
  rfl

theorem isBlockedGroups_embeds {form : Form} {quad : Quad}
    (embeds : Embeds quad form literal.groups) (other : form ≠ .translated)
    (isDenied : denied quad = true) :
    isBlockedGroups net literal.text literal.groups = true := by
  have check := net.check_literal deny literal
  generalize literal.groups = groups at embeds check
  cases embeds with
  | compatible =>
    rw [isBlockedGroups, if_neg (by simp), if_neg (by simp), if_neg (by simp), if_neg (by simp),
      check, List.any_eq_true]
    have bounds := quad_lt quad
    refine ⟨.ipv6 [0, 0, 0, 0, 0, 0, 0, 0] 96, by simp [deny], decide_eq_true ?_⟩
    simp only [address, List.foldl_cons, List.foldl_nil]
    omega
  | mapped =>
    rw [isBlockedGroups, if_pos (by simp)]
    exact (check_groupsToIPv4 net quad).trans isDenied
  | translated => exact absurd rfl other
  | nat64 =>
    rw [isBlockedGroups, if_neg (by simp), if_pos (by simp)]
    exact (check_groupsToIPv4 net quad).trans isDenied
  | sixToFour rest =>
    rw [isBlockedGroups, if_neg (by simp), if_neg (by simp), if_pos (by simp)]
    exact (check_groupsToIPv4 net quad).trans isDenied
  | teredo server serverLow flags port =>
    rw [isBlockedGroups, if_neg (by simp), if_neg (by simp), if_neg (by simp), if_pos (by simp)]
    have inverted : ∀ group : Nat, group ^^^ 0xffff ^^^ 0xffff = group := fun group => by
      rw [Nat.xor_assoc, Nat.xor_self, Nat.xor_zero]
    simp only [List.getD_cons_succ, List.getD_cons_zero, inverted]
    exact (check_groupsToIPv4 net quad).trans isDenied

theorem isBlockedGroups_translated {quad : Quad}
    (embeds : Embeds quad .translated literal.groups) :
    isBlockedGroups net literal.text literal.groups = false := by
  have check := net.check_literal deny literal
  generalize literal.groups = groups at embeds check
  cases embeds with
  | translated =>
    rw [isBlockedGroups, if_neg (by simp), if_neg (by simp), if_neg (by simp), if_neg (by simp),
      check, List.any_eq_false]
    have bounds := quad_lt quad
    intro subnet listed
    cases subnet with
    | ipv4 base bits => exact Bool.false_ne_true
    | ipv6 base bits =>
      simp only [deny, List.mem_cons, List.not_mem_nil, or_false, Subnet.ipv6.injEq, reduceCtorEq,
        false_or] at listed
      simp only [Subnet.containsGroups, decide_eq_true_eq]
      rcases listed with ⟨rfl, rfl⟩ | ⟨rfl, rfl⟩ | ⟨rfl, rfl⟩ | ⟨rfl, rfl⟩ | ⟨rfl, rfl⟩ |
        ⟨rfl, rfl⟩ | ⟨rfl, rfl⟩ | ⟨rfl, rfl⟩ | ⟨rfl, rfl⟩
      all_goals
        simp only [address, List.foldl_cons, List.foldl_nil]
        omega

/-- The groups are those of the literal, and every denied address that it embeds in one of
the forms blocks it, exactly if it embeds none in the translated form. -/
theorem embedded_blocked_iff :
    (ipv6Groups literal.text = some (literal.groups.map some) ∧
      ∀ form quad, Embeds quad form literal.groups → denied quad = true →
        isBlockedAddress net literal.text = some true) ↔
      ∀ quad, Embeds quad .translated literal.groups → denied quad = false := by
  rw [isBlockedAddress_literal]
  constructor
  · rintro ⟨-, blocks⟩ quad embeds
    rw [← Bool.not_eq_true]
    intro isDenied
    have blocked := Option.some.inj (blocks .translated quad embeds isDenied)
    rw [isBlockedGroups_translated net literal embeds] at blocked
    cases blocked
  · refine fun allowed => ⟨ipv6Groups_text literal, fun form quad embeds isDenied => ?_⟩
    by_cases translated : form = .translated
    · rw [allowed quad (translated ▸ embeds)] at isDenied
      cases isDenied
    · exact congrArg some (isBlockedGroups_embeds net literal embeds translated isDenied)

end Blocking

/-! ### A `net` module -/

theorem text_injective : Function.Injective Quad.text := by
  intro left right same
  have parts : ∀ quad : Quad, (quad.text.splitOn '.').map (number 10) =
      [quad.first.toNat, quad.second.toNat, quad.third.toNat, quad.fourth.toNat] := octets_text
  have octets := parts left
  rw [same, parts right] at octets
  simp only [List.cons.injEq, and_true, UInt8.toNat_inj] at octets
  obtain ⟨first, second, third, fourth⟩ := octets
  cases left
  cases right
  simp_all

theorem groups_of_text {left right : Literal} (same : left.text = right.text) :
    left.groups = right.groups := by
  have groups := ipv6Groups_text left
  rw [same, ipv6Groups_text right] at groups
  exact (List.map_injective_iff.mpr (Option.some_injective Nat) (Option.some.inj groups)).symm

theorem colon_mem_text (literal : Literal) : ':' ∈ literal.text := by
  cases literal with
  | full groups quad eight =>
    match groups, eight with
    | [], eight | [_], eight => cases quad <;> simp at eight
    | first :: second :: rest, _ =>
      simp [Literal.text, Literal.piecesOf, List.intercalate_cons_cons]
  | compressed head tail quad fewer => simp [Literal.text]

theorem text_ne_text (quad : Quad) (literal : Literal) : literal.text ≠ quad.text := by
  intro same
  have colon := colon_mem_text literal
  rw [same] at colon
  rcases (isDotted_chars (isDotted_quad quad)).1 _ colon with dot | digit
  · exact absurd dot (by decide)
  · exact absurd digit (by decide)

open Classical in
noncomputable def netByText : Net where
  isIP text :=
    if ∃ quad : Quad, quad.text = text then 4
    else if ∃ literal : Literal, literal.text = text then 6 else 0
  check subnets text family :=
    match family with
    | .ipv4 =>
      if written : ∃ quad : Quad, quad.text = text then
        subnets.any (Subnet.containsQuad written.choose)
      else false
    | .ipv6 =>
      if written : ∃ literal : Literal, literal.text = text then
        subnets.any (Subnet.containsGroups written.choose.groups)
      else false
  isIP_eq_four text := by
    split_ifs with quad literal <;> simp [quad]
  isIP_eq_six text := by
    split_ifs with quad literal
    · obtain ⟨quad, rfl⟩ := quad
      simp [text_ne_text quad]
    · simp [literal]
    · simp [literal]
  check_quad subnets quad := by
    have written : ∃ other : Quad, other.text = quad.text := ⟨quad, rfl⟩
    rw [dif_pos written, text_injective written.choose_spec]
  check_literal subnets literal := by
    have written : ∃ other : Literal, other.text = literal.text := ⟨literal, rfl⟩
    rw [dif_pos written, groups_of_text written.choose_spec]

/-- `127.0.0.1` -/
def loopback : Quad := ⟨127, 0, 0, 1⟩

/-- `::FFFF:127.0.0.1` -/
def mappedLoopback : Literal :=
  .compressed [] [⟨['F', 'F', 'F', 'F'], List.all_eq_true.mp (by decide), by decide⟩]
    (some loopback) (by decide)

/-- `::ffff:0:127.0.0.1` -/
def translatedLoopback : Literal :=
  .compressed []
    [⟨['f', 'f', 'f', 'f'], List.all_eq_true.mp (by decide), by decide⟩,
      ⟨['0'], List.all_eq_true.mp (by decide), by decide⟩] (some loopback)
    (by decide)

theorem mappedLoopback_blocked :
    isBlockedAddress netByText "::FFFF:127.0.0.1".toList = some true := by
  have groups : mappedLoopback.groups = [0, 0, 0, 0, 0, 0xffff, 0x7f00, 1] := by decide
  have allowed : ∀ quad, Embeds quad .translated mappedLoopback.groups → denied quad = false := by
    rw [groups]
    nofun
  exact ((embedded_blocked_iff netByText mappedLoopback).mpr allowed).2 .mapped loopback
    (groups ▸ .mapped) (by decide)

/-- The translated form of the loopback address is let through. -/
theorem translatedLoopback_allowed :
    translatedLoopback.text = "::ffff:0:127.0.0.1".toList ∧
      isBlockedAddress netByText translatedLoopback.text = some false ∧
      ¬ ∀ (net : Net) (literal : Literal) (form : Form) (quad : Quad),
        Embeds quad form literal.groups → denied quad = true →
          isBlockedAddress net literal.text = some true := by
  have embeds : Embeds loopback .translated translatedLoopback.groups := by
    have groups : translatedLoopback.groups = [0, 0, 0, 0, 0xffff, 0, 0x7f00, 1] := by decide
    rw [groups]
    exact .translated
  have allowed : isBlockedAddress netByText translatedLoopback.text = some false := by
    rw [isBlockedAddress_literal, isBlockedGroups_translated _ _ embeds]
  refine ⟨by decide, allowed, fun all => ?_⟩
  have blocked := all netByText translatedLoopback .translated loopback embeds (by decide)
  rw [allowed] at blocked
  cases blocked

end SorobanExplorer.Indexer.SafeHttp
