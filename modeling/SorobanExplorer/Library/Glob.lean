import Mathlib.Data.UInt
import Mathlib.Data.List.Infix
import Mathlib.Tactic.Common

/-!
Owns glob patterns over bytes: the items that a pattern is read as, the keys that items match,
and what a pattern with a star at its end has in common with a text that it matches.

A pattern whose meaning is not settled is read as nothing: one that ends within a class or after
a backslash, or with a class that is empty or has a dash in another place than between two bytes.
Nothing here names a program.
-/

namespace SorobanExplorer.Library.Glob

/-! ### Items -/

inductive Item where
  | literal (byte : UInt8)
  | any
  | oneOf (negated : Bool) (ranges : List (UInt8 × UInt8))
  | star
deriving DecidableEq

def Item.takes : Item → UInt8 → Bool
  | literal byte, other => other = byte
  | any, _ => true
  | oneOf negated ranges, other =>
    (ranges.any fun range => range.1 ≤ other && other ≤ range.2) != negated
  | star, _ => false

inductive Matches : List Item → List UInt8 → Prop
  | nil : Matches [] []
  | one {item : Item} {byte : UInt8} {items : List Item} {key : List UInt8}
      (takes : item.takes byte = true) (rest : Matches items key) :
      Matches (item :: items) (byte :: key)
  | star {items : List Item} {key : List UInt8} (skipped : List UInt8) (rest : Matches items key) :
      Matches (.star :: items) (skipped ++ key)

/-! ### Reading -/

/-- Where a pattern is being read. A class may be negated and has ranges so far; its last byte may
be the start of one. -/
inductive Mode where
  | outside
  | escaped
  | opened
  | inside (negated : Bool) (ranges : List (UInt8 × UInt8)) (last : Option UInt8)
  | insideEscaped (negated : Bool) (ranges : List (UInt8 × UInt8))
  | ranging (negated : Bool) (ranges : List (UInt8 × UInt8)) (low : UInt8)

def close (ranges : List (UInt8 × UInt8)) : Option UInt8 → List (UInt8 × UInt8)
  | none => ranges
  | some byte => (byte, byte) :: ranges

def member (negated : Bool) (ranges : List (UInt8 × UInt8)) (last : Option UInt8) (byte : UInt8) :
    Option (Option Item × Mode) :=
  if byte = 0x5D then
    if close ranges last = [] then none
    else some (some (.oneOf negated (close ranges last)), .outside)
  else if byte = 0x5C then some (none, .insideEscaped negated (close ranges last))
  else some (none, .inside negated (close ranges last) (some byte))

def feed : Mode → UInt8 → Option (Option Item × Mode)
  | .outside, byte =>
    if byte = 0x2A then some (some .star, .outside)
    else if byte = 0x3F then some (some .any, .outside)
    else if byte = 0x5C then some (none, .escaped)
    else if byte = 0x5B then some (none, .opened)
    else some (some (.literal byte), .outside)
  | .escaped, byte => some (some (.literal byte), .outside)
  | .opened, byte =>
    if byte = 0x5E then some (none, .inside true [] none)
    else if byte = 0x2D then none
    else member false [] none byte
  | .inside negated ranges last, byte =>
    if byte = 0x2D then last.map fun low => (none, .ranging negated ranges low)
    else member negated ranges last byte
  | .insideEscaped negated ranges, byte =>
    some (none, .inside negated ((byte, byte) :: ranges) none)
  | .ranging negated ranges low, byte =>
    if byte = 0x5D ∨ byte = 0x5C ∨ byte < low ∨ 0x80 ≤ byte then none
    else some (none, .inside negated ((low, byte) :: ranges) none)

def readFrom : Mode → List UInt8 → Option (List Item)
  | .outside, [] => some []
  | _, [] => none
  | mode, byte :: rest =>
    (feed mode byte).bind fun fed => (readFrom fed.2 rest).map (fed.1.toList ++ ·)

def read (pattern : List UInt8) : Option (List Item) := readFrom .outside pattern

def direct (byte : UInt8) : Item :=
  if byte = 0x2A then .star else if byte = 0x3F then .any else .literal byte

theorem readFrom_cons (mode : Mode) (byte : UInt8) (rest : List UInt8) :
    readFrom mode (byte :: rest) =
      (feed mode byte).bind fun fed => (readFrom fed.2 rest).map (fed.1.toList ++ ·) := by
  cases mode <;> rfl

theorem readFrom_cons_eq_some {mode : Mode} {byte : UInt8} {rest : List UInt8} {items : List Item}
    (parsed : readFrom mode (byte :: rest) = some items) :
    ∃ emitted next later, feed mode byte = some (emitted, next) ∧
      readFrom next rest = some later ∧ items = emitted.toList ++ later := by
  rw [readFrom_cons, Option.bind_eq_some_iff] at parsed
  obtain ⟨⟨emitted, next⟩, fed, parsed⟩ := parsed
  obtain ⟨later, read, rfl⟩ := Option.map_eq_some_iff.mp parsed
  exact ⟨emitted, next, later, fed, read, rfl⟩

theorem readFrom_length {mode : Mode} {pattern : List UInt8} {items : List Item}
    (parsed : readFrom mode pattern = some items) : items.length ≤ pattern.length := by
  induction pattern generalizing mode items with
  | nil =>
    cases mode with
    | outside =>
      cases parsed
      exact le_rfl
    | escaped | opened | inside | insideEscaped | ranging => cases parsed
  | cons byte rest ih =>
    obtain ⟨emitted, next, later, -, read, rfl⟩ := readFrom_cons_eq_some parsed
    have bound := ih read
    have single : emitted.toList.length ≤ 1 := by cases emitted <;> simp
    rw [List.length_append, List.length_cons]
    omega

theorem read_full {pattern : List UInt8} {items : List Item} (parsed : read pattern = some items)
    (full : items.length = pattern.length) :
    items = pattern.map direct ∧ 0x5C ∉ pattern ∧ 0x5B ∉ pattern := by
  induction pattern generalizing items with
  | nil =>
    cases parsed
    exact ⟨rfl, List.not_mem_nil, List.not_mem_nil⟩
  | cons byte rest ih =>
    obtain ⟨emitted, next, later, fed, read, rfl⟩ := readFrom_cons_eq_some parsed
    have bound := readFrom_length read
    have emits : emitted ≠ none := by
      rintro rfl
      simp at full
      omega
    have directly : emitted = some (direct byte) ∧ next = .outside ∧ byte ≠ 0x5C ∧
        byte ≠ 0x5B := by
      unfold feed at fed
      unfold direct
      grind
    obtain ⟨rfl, rfl, noEscape, noClass⟩ := directly
    obtain ⟨rfl, escapes, classes⟩ := ih read (by simpa using full)
    refine ⟨rfl, ?_, ?_⟩
    · exact List.not_mem_cons_of_ne_of_not_mem noEscape.symm escapes
    · exact List.not_mem_cons_of_ne_of_not_mem noClass.symm classes

theorem feed_escaped {mode : Mode} {byte : UInt8} {emitted : Option Item}
    (fed : feed mode byte = some (emitted, .escaped)) : byte = 0x5C := by
  cases mode with
  | outside =>
    simp only [feed] at fed
    grind
  | escaped | insideEscaped => cases fed
  | inside negated ranges last =>
    simp only [feed, member] at fed
    cases last with
    | none => grind
    | some low => grind
  | opened | ranging =>
    simp only [feed, member] at fed
    grind

theorem readFrom_star {mode : Mode} {stem : List UInt8} {items : List Item}
    (parsed : readFrom mode (stem ++ [0x2A]) = some items) :
    (∃ before, readFrom mode stem = some before ∧ items = before ++ [.star]) ∨
      (∃ before, items = before ++ [.literal 0x2A]) ∧
        (stem = [] ∧ mode = .escaped ∨ stem.getLast? = some 0x5C) := by
  induction stem generalizing mode items with
  | nil =>
    obtain ⟨emitted, next, later, fed, read, rfl⟩ := readFrom_cons_eq_some parsed
    cases next with
    | escaped | opened | inside | insideEscaped | ranging => cases read
    | outside =>
      cases read
      cases mode with
      | outside =>
        cases fed
        exact .inl ⟨[], rfl, rfl⟩
      | escaped =>
        cases fed
        exact .inr ⟨⟨[], rfl⟩, .inl ⟨rfl, rfl⟩⟩
      | opened | inside | insideEscaped | ranging => simp [feed, member] at fed
  | cons byte stem ih =>
    obtain ⟨emitted, next, later, fed, read, rfl⟩ := readFrom_cons_eq_some parsed
    obtain ⟨before, readBefore, rfl⟩ | ⟨⟨before, rfl⟩, escaped⟩ := ih read
    · refine .inl ⟨emitted.toList ++ before, ?_, (List.append_assoc ..).symm⟩
      rw [readFrom_cons, fed, Option.bind_some, readBefore]
      rfl
    · refine .inr ⟨⟨emitted.toList ++ before, (List.append_assoc ..).symm⟩, .inr ?_⟩
      obtain ⟨rfl, rfl⟩ | ends := escaped
      · rw [feed_escaped fed]
        rfl
      · rw [List.getLast?_cons, ends]
        rfl

/-! ### Matching -/

theorem matches_append_iff {front back : List Item} {key : List UInt8} :
    Matches (front ++ back) key ↔
      ∃ left right, key = left ++ right ∧ Matches front left ∧ Matches back right := by
  constructor
  · intro matched
    induction front generalizing key with
    | nil => exact ⟨[], key, rfl, .nil, matched⟩
    | cons item front ih =>
      cases matched with
      | one takes rest =>
        obtain ⟨left, right, rfl, before, after⟩ := ih rest
        exact ⟨_ :: left, right, rfl, .one takes before, after⟩
      | star skipped rest =>
        obtain ⟨left, right, rfl, before, after⟩ := ih rest
        exact ⟨skipped ++ left, right, (List.append_assoc ..).symm, .star skipped before, after⟩
  · rintro ⟨left, right, rfl, before, after⟩
    induction before with
    | nil => exact after
    | one takes rest ih => exact .one takes ih
    | star skipped rest ih =>
      rw [List.append_assoc]
      exact .star skipped ih

theorem matches_star_iff {items : List Item} {key : List UInt8} :
    Matches (.star :: items) key ↔ ∃ skipped rest, key = skipped ++ rest ∧ Matches items rest := by
  constructor
  · intro matched
    cases matched with
    | one takes rest => cases takes
    | star skipped rest => exact ⟨skipped, _, rfl, rest⟩
  · rintro ⟨skipped, rest, rfl, matched⟩
    exact .star skipped matched

theorem matches_nil_iff {key : List UInt8} : Matches [] key ↔ key = [] := by
  constructor
  · intro matched
    cases matched
    rfl
  · rintro rfl
    exact .nil

theorem Matches.length_eq {items : List Item} {key : List UInt8} (matched : Matches items key)
    (plain : Item.star ∉ items) : key.length = items.length := by
  induction matched with
  | nil => rfl
  | one takes rest ih =>
    rw [List.length_cons, List.length_cons,
      ih fun listed => plain (List.mem_cons_of_mem _ listed)]
  | star skipped rest => exact absurd List.mem_cons_self plain

theorem matches_literals_iff {bytes key : List UInt8} :
    Matches (bytes.map .literal) key ↔ key = bytes := by
  constructor
  · intro matched
    induction bytes generalizing key with
    | nil => exact matches_nil_iff.mp matched
    | cons byte bytes ih =>
      cases matched with
      | one takes rest =>
        rw [ih rest, of_decide_eq_true takes]
  · rintro rfl
    induction key with
    | nil => exact .nil
    | cons byte key ih => exact .one (decide_eq_true rfl) ih

theorem Matches.twice {items : List Item} {key : List UInt8} (matched : Matches items key)
    (starred : Item.star ∈ items) : Matches items (key ++ key) := by
  obtain ⟨front, back, rfl⟩ := List.append_of_mem starred
  obtain ⟨left, right, rfl, before, after⟩ := matches_append_iff.mp matched
  obtain ⟨skipped, rest, rfl, last⟩ := matches_star_iff.mp after
  refine matches_append_iff.mpr ⟨left, (skipped ++ rest ++ left ++ skipped) ++ rest, ?_, before,
    .star _ last⟩
  simp only [List.append_assoc]

theorem matches_direct {bytes : List UInt8} (plain : 0x2A ∉ bytes) :
    Matches (bytes.map direct) bytes := by
  induction bytes with
  | nil => exact .nil
  | cons byte bytes ih =>
    refine .one ?_ (ih fun listed => plain (List.mem_cons_of_mem _ listed))
    have ne : byte ≠ 0x2A := fun same => plain (same ▸ List.mem_cons_self)
    rw [direct, if_neg ne]
    split_ifs with mark
    · rfl
    · exact decide_eq_true rfl

theorem stem_cases {stem : List UInt8} {items : List Item} (parsed : read stem = some items)
    (own : Matches (items ++ [.star]) stem) :
    (∃ left right, stem = left ++ right ∧ right ≠ [] ∧
      ∀ between, Matches (items ++ [.star]) (left ++ (between ++ stem))) ∨
    items = stem.map direct ∧ 0x2A ∉ stem ∧ 0x5C ∉ stem ∧ 0x5B ∉ stem := by
  obtain ⟨front, back, split, plain⟩ :=
    List.eq_append_cons_of_mem (List.mem_append_right items (List.mem_singleton_self Item.star))
  rw [split] at own ⊢
  obtain ⟨left, right, rfl, before, after⟩ := matches_append_iff.mp own
  obtain ⟨skipped, rest, rfl, last⟩ := matches_star_iff.mp after
  by_cases ends : skipped ++ rest = []
  · obtain ⟨rfl, rfl⟩ := List.append_eq_nil_iff.mp ends
    rw [List.append_nil, List.append_nil] at parsed ⊢
    have bound := readFrom_length parsed
    have exact' := before.length_eq plain
    have lengths := congrArg List.length split
    simp only [List.length_append, List.length_cons, List.length_nil] at lengths
    obtain ⟨direct, escapes, classes⟩ := read_full parsed (by omega)
    have same : items = front :=
      (List.append_inj split (by omega)).1
    refine .inr ⟨direct, ?_, escapes, classes⟩
    intro starred
    have listed := List.mem_map_of_mem (f := Glob.direct) starred
    rw [← direct, same] at listed
    exact plain listed
  · refine .inl ⟨left, skipped ++ rest, rfl, ends, ?_⟩
    intro between
    refine matches_append_iff.mpr ⟨left, _, rfl, before, ?_⟩
    have rearranged : between ++ (left ++ (skipped ++ rest)) =
        (between ++ left ++ skipped) ++ rest := by
      simp only [List.append_assoc]
    rw [rearranged]
    exact .star _ last

theorem read_literals {stem : List UInt8} (stars : 0x2A ∉ stem) (marks : 0x3F ∉ stem)
    (escapes : 0x5C ∉ stem) (classes : 0x5B ∉ stem) (rest : List UInt8) :
    read (stem ++ rest) = (read rest).map (stem.map Item.literal ++ ·) := by
  induction stem with
  | nil =>
    rw [List.nil_append, List.map_nil]
    exact Option.map_id'.symm
  | cons byte stem ih =>
    rw [List.mem_cons, not_or] at stars marks escapes classes
    have fed : feed .outside byte = some (some (.literal byte), .outside) := by
      rw [feed, if_neg (Ne.symm stars.1), if_neg (Ne.symm marks.1), if_neg (Ne.symm escapes.1),
        if_neg (Ne.symm classes.1)]
    have later := ih stars.2 marks.2 escapes.2 classes.2
    rw [read] at later
    rw [List.cons_append, read, readFrom_cons, fed, Option.bind_some, later, Option.map_map]
    rfl

end SorobanExplorer.Library.Glob
