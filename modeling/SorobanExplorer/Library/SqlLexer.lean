import Mathlib.Data.UInt
import Mathlib.Tactic.Common

/-!
Owns the lexemes PostgreSQL reads in a text with standard strings: literals with
doubled quotes, words, operators, placeholders, parentheses and commas; and which
texts between quotes are read as one literal.

A text with a comment, a quoted identifier, a dollar quote or a prefixed literal is
not read. Nothing here names a program.
-/

namespace SorobanExplorer.Library.SqlLexer

inductive Lexeme where
  | literal (units : List UInt16)
  | word (units : List UInt16)
  | operator (units : List UInt16)
  | placeholder (digits : List UInt16)
  | mark (unit : UInt16)
deriving DecidableEq

/-! ### Units -/

def quote : UInt16 := 0x27

def isSpace (unit : UInt16) : Bool :=
  unit.toNat = 0x20 || (0x09 ≤ unit.toNat && unit.toNat ≤ 0x0D)

def isDigit (unit : UInt16) : Bool := 0x30 ≤ unit.toNat && unit.toNat ≤ 0x39

def isWordUnit (unit : UInt16) : Bool :=
  isDigit unit || (0x41 ≤ unit.toNat && unit.toNat ≤ 0x5A) || unit.toNat = 0x5F ||
    (0x61 ≤ unit.toNat && unit.toNat ≤ 0x7A) || 0x80 ≤ unit.toNat

/-- `! # % & * + - / < = > ? @ ^ | ~` and the backtick. -/
def operatorUnits : List UInt16 :=
  [0x21, 0x23, 0x25, 0x26, 0x2A, 0x2B, 0x2D, 0x2F, 0x3C, 0x3D, 0x3E, 0x3F, 0x40, 0x5E, 0x60, 0x7C,
    0x7E]

def isOperatorUnit (unit : UInt16) : Bool := operatorUnits.contains unit

/-- `( ) ,` -/
def isMark (unit : UInt16) : Bool := [0x28, 0x29, 0x2C].contains unit

def startsComment : List UInt16 → Bool
  | first :: second :: rest =>
    (first = 0x2D && second = 0x2D) || (first = 0x2F && second = 0x2A) ||
      startsComment (second :: rest)
  | _ => false

/-! ### Lexemes -/

def takeLiteral? : List UInt16 → Option (List UInt16 × List UInt16)
  | [] => none
  | [unit] => if unit = quote then some ([], []) else none
  | unit :: next :: rest =>
    if unit = quote then
      if next = quote then
        (takeLiteral? rest).map fun (units, rest) => (quote :: quote :: units, rest)
      else some ([], next :: rest)
    else (takeLiteral? (next :: rest)).map fun (units, rest) => (unit :: units, rest)

def next? : List UInt16 → Option (Lexeme × List UInt16)
  | [] => none
  | unit :: rest =>
    if unit = quote then
      (takeLiteral? rest).map fun (units, rest) => (.literal units, rest)
    else if unit = 0x24 then
      if (rest.takeWhile isDigit).isEmpty then none
      else some (.placeholder (rest.takeWhile isDigit), rest.dropWhile isDigit)
    else if isMark unit then some (.mark unit, rest)
    else if isOperatorUnit unit then
      if startsComment ((unit :: rest).takeWhile isOperatorUnit) then none
      else some (.operator ((unit :: rest).takeWhile isOperatorUnit),
        (unit :: rest).dropWhile isOperatorUnit)
    else if isWordUnit unit then
      if ((unit :: rest).dropWhile isWordUnit).head? = some quote then none
      else some (.word ((unit :: rest).takeWhile isWordUnit),
        (unit :: rest).dropWhile isWordUnit)
    else none

def Starts (text : List UInt16) (lexeme : Lexeme) (rest : List UInt16) : Prop :=
  next? (text.dropWhile isSpace) = some (lexeme, rest)

inductive Lexes : List UInt16 → List Lexeme → Prop where
  | done {text : List UInt16} (blank : text.dropWhile isSpace = []) : Lexes text []
  | more {text : List UInt16} {lexeme : Lexeme} {rest : List UInt16} {lexemes : List Lexeme}
      (starts : Starts text lexeme rest) (later : Lexes rest lexemes) :
      Lexes text (lexeme :: lexemes)

theorem Starts.cons_iff {text rest : List UInt16} {lexeme other : Lexeme} {lexemes : List Lexeme}
    (starts : Starts text lexeme rest) :
    Lexes text (other :: lexemes) ↔ other = lexeme ∧ Lexes rest lexemes := by
  constructor
  · intro lexes
    cases lexes with
    | more read later =>
      obtain ⟨rfl, rfl⟩ := Prod.mk.inj (Option.some.inj (starts.symm.trans read))
      exact ⟨rfl, later⟩
  · rintro ⟨rfl, later⟩
    exact .more starts later

theorem Starts.first {text rest : List UInt16} {lexeme : Lexeme} {lexemes : List Lexeme}
    (starts : Starts text lexeme rest) (lexes : Lexes text lexemes) :
    ∃ others, lexemes = lexeme :: others ∧ Lexes rest others := by
  cases lexes with
  | done blank =>
    rw [Starts, blank] at starts
    cases starts
  | more read later =>
    obtain ⟨rfl, later⟩ := starts.cons_iff.mp (.more read later)
    exact ⟨_, rfl, later⟩

/-! ### Literals -/

def value : List UInt16 → List UInt16
  | [] => []
  | [unit] => [unit]
  | unit :: next :: rest =>
    if unit = quote ∧ next = quote then quote :: value rest else unit :: value (next :: rest)

def Lexeme.mapLiteral (reading : List UInt16 → List UInt16) : Lexeme → Lexeme
  | .literal units => .literal (reading units)
  | lexeme => lexeme

@[simp] theorem Lexeme.mapLiteral_literal (reading : List UInt16 → List UInt16)
    (units : List UInt16) : (literal units).mapLiteral reading = .literal (reading units) := rfl

@[simp] theorem Lexeme.mapLiteral_operator (reading : List UInt16 → List UInt16)
    (units : List UInt16) : (operator units).mapLiteral reading = .operator units := rfl

def Lexeme.literal? : Lexeme → Option (List UInt16)
  | .literal units => some units
  | _ => none

def literals (lexemes : List Lexeme) : List (List UInt16) := lexemes.filterMap Lexeme.literal?

theorem literals_append (lexemes others : List Lexeme) :
    literals (lexemes ++ others) = literals lexemes ++ literals others :=
  List.filterMap_append

theorem literals_mapLiteral (reading : List UInt16 → List UInt16) (lexemes : List Lexeme) :
    literals (lexemes.map (Lexeme.mapLiteral reading)) = (literals lexemes).map reading := by
  rw [literals, literals, List.filterMap_map, List.map_filterMap]
  congr 1
  funext lexeme
  cases lexeme <;> rfl

def Paired : List UInt16 → Prop
  | [] => True
  | [unit] => unit ≠ quote
  | unit :: next :: rest =>
    if unit = quote then next = quote ∧ Paired rest else Paired (next :: rest)

section Literal

variable {units rest text left : List UInt16} {unit : UInt16}

theorem value_cons (other : unit ≠ quote) (units : List UInt16) :
    value (unit :: units) = unit :: value units := by
  cases units with
  | nil => rfl
  | cons next units => rw [value, if_neg fun both => other both.1]

theorem paired_cons_iff (other : unit ≠ quote) : Paired (unit :: units) ↔ Paired units := by
  cases units with
  | nil => exact iff_of_true other trivial
  | cons next units => rw [Paired, if_neg other]

theorem takeLiteral?_cons (other : unit ≠ quote) (text : List UInt16) :
    takeLiteral? (unit :: text) =
      (takeLiteral? text).map fun (units, rest) => (unit :: units, rest) := by
  cases text with
  | nil => simp [takeLiteral?, other]
  | cons next text => rw [takeLiteral?, if_neg other]

theorem paired_of_clean (clean : quote ∉ units) : Paired units := by
  induction units with
  | nil => trivial
  | cons unit units ih =>
    obtain ⟨differs, others⟩ := not_or.mp (mt List.mem_cons.mpr clean)
    exact (paired_cons_iff (Ne.symm differs)).mpr (ih others)

theorem value_of_clean (clean : quote ∉ units) : value units = units := by
  induction units with
  | nil => rfl
  | cons unit units ih =>
    obtain ⟨differs, others⟩ := not_or.mp (mt List.mem_cons.mpr clean)
    rw [value_cons (Ne.symm differs), ih others]

theorem takeLiteral?_eq (paired : Paired units) (ends : rest.head? ≠ some quote) :
    takeLiteral? (units ++ quote :: rest) = some (units, rest) := by
  induction units using Paired.induct with
  | case1 =>
    cases rest with
    | nil => rfl
    | cons next rest =>
      have other : next ≠ quote := fun same => ends (congrArg some same)
      simp [takeLiteral?, other]
  | case2 unit =>
    have closed : takeLiteral? (quote :: rest) = some ([], rest) := by
      cases rest with
      | nil => rfl
      | cons next rest =>
        have other : next ≠ quote := fun same => ends (congrArg some same)
        simp [takeLiteral?, other]
    rw [List.cons_append, takeLiteral?_cons paired, List.nil_append, closed]
    rfl
  | case3 next rest ih =>
    rw [Paired, if_pos rfl] at paired
    obtain ⟨rfl, paired⟩ := paired
    rw [List.cons_append, List.cons_append, takeLiteral?, if_pos rfl, if_pos rfl,
      ih paired]
    rfl
  | case4 unit next rest other ih =>
    rw [paired_cons_iff other] at paired
    rw [List.cons_append, takeLiteral?_cons other, ih paired]
    rfl

theorem takeLiteral?_some (read : takeLiteral? text = some (units, left)) :
    Paired units ∧ text = units ++ quote :: left := by
  induction text using takeLiteral?.induct generalizing units with
  | case1 => cases read
  | case2 =>
    cases read
    exact ⟨trivial, rfl⟩
  | case3 unit other =>
    rw [takeLiteral?, if_neg other] at read
    cases read
  | case4 rest ih =>
    rw [takeLiteral?, if_pos rfl, if_pos rfl, Option.map_eq_some_iff] at read
    obtain ⟨⟨later, after⟩, read, same⟩ := read
    cases same
    obtain ⟨paired, rfl⟩ := ih read
    exact ⟨by rw [Paired, if_pos rfl]; exact ⟨rfl, paired⟩, rfl⟩
  | case5 next rest other =>
    rw [takeLiteral?, if_pos rfl, if_neg other] at read
    cases read
    exact ⟨trivial, rfl⟩
  | case6 unit next rest other ih =>
    rw [takeLiteral?, if_neg other, Option.map_eq_some_iff] at read
    obtain ⟨⟨later, after⟩, read, same⟩ := read
    cases same
    obtain ⟨paired, written⟩ := ih read
    exact ⟨(paired_cons_iff other).mpr paired, by rw [written]; rfl⟩

theorem value_counts (paired : Paired units) :
    (value units).filter (· ≠ quote) = units.filter (· ≠ quote) ∧
      units.length = (value units).length + (value units).count quote := by
  induction units using Paired.induct with
  | case1 => exact ⟨rfl, rfl⟩
  | case2 unit =>
    have other : unit ≠ quote := paired
    simp [value, other]
  | case3 next rest ih =>
    rw [Paired, if_pos rfl] at paired
    obtain ⟨rfl, paired⟩ := paired
    obtain ⟨kept, counted⟩ := ih paired
    rw [value, if_pos ⟨rfl, rfl⟩]
    simp only [ne_eq, not_true_eq_false, decide_false, Bool.false_eq_true, not_false_eq_true,
      List.filter_cons_of_neg, List.length_cons, List.count_cons_self] at kept ⊢
    exact ⟨kept, by omega⟩
  | case4 unit next rest other ih =>
    obtain ⟨kept, counted⟩ := ih ((paired_cons_iff other).mp paired)
    rw [value_cons other, List.filter_cons_of_pos (by simpa using other),
      List.filter_cons_of_pos (by simpa using other), kept, List.count_cons_of_ne other,
      List.length_cons, counted]
    exact ⟨rfl, by simp only [List.length_cons]; omega⟩

theorem value_takeLiteral?_ne (dirty : quote ∈ units) (ends : rest.head? ≠ some quote)
    {read : List UInt16} (taken : takeLiteral? (units ++ quote :: rest) = some (read, left)) :
    value read ≠ units := by
  intro same
  obtain ⟨paired, written⟩ := takeLiteral?_some taken
  obtain ⟨kept, counted⟩ := value_counts paired
  rw [same] at kept counted
  have longer : units.length < read.length := by
    have := List.count_pos_iff.mpr dirty
    omega
  -- The literal goes on after the units: with their closing quote, and then with quotes only.
  rcases List.append_eq_append_iff.mp written with ⟨more, rfl, after⟩ | ⟨more, rfl, -⟩
  · cases more with
    | nil => simp at longer
    | cons unit more =>
      obtain ⟨rfl, rfl⟩ := List.cons.inj after
      have onlyQuotes : more.filter (· ≠ quote) = [] := by
        simpa using kept
      cases more with
      | nil => exact ends rfl
      | cons unit more =>
        rw [List.filter_eq_nil_iff] at onlyQuotes
        have isQuote := onlyQuotes unit List.mem_cons_self
        exact ends (congrArg some (by simpa using isQuote))
  · rw [List.length_append] at longer
    omega

end Literal

/-! ### Texts put together -/

section Joined

variable {units text rest : List UInt16}

theorem Starts.space {unit : UInt16} (blank : isSpace unit = true) {lexeme : Lexeme}
    (starts : Starts text lexeme rest) : Starts (unit :: text) lexeme rest := by
  rwa [Starts, List.dropWhile_cons_of_pos blank]

theorem Lexes.space {unit : UInt16} (blank : isSpace unit = true) {lexemes : List Lexeme}
    (lexes : Lexes text lexemes) : Lexes (unit :: text) lexemes := by
  cases lexes with
  | done onlySpace => exact .done (by rwa [List.dropWhile_cons_of_pos blank])
  | more starts later => exact .more (starts.space blank) later

theorem starts_of_next? {unit : UInt16} (solid : isSpace unit = false) {lexeme : Lexeme}
    (read : next? (unit :: text) = some (lexeme, rest)) : Starts (unit :: text) lexeme rest := by
  rwa [Starts, List.dropWhile_cons_of_neg (by simp [solid])]

theorem starts_literal (paired : Paired units) (ends : rest.head? ≠ some quote) :
    Starts (quote :: (units ++ quote :: rest)) (.literal units) rest := by
  apply starts_of_next? (by decide)
  rw [next?, if_pos rfl, takeLiteral?_eq paired ends]
  rfl

theorem lexes_quote {lexemes : List Lexeme} (lexes : Lexes (quote :: text) lexemes) :
    ∃ units left others, takeLiteral? text = some (units, left) ∧
      lexemes = .literal units :: others ∧ Lexes left others := by
  cases lexes with
  | done blank =>
    rw [List.dropWhile_cons_of_neg (by decide)] at blank
    cases blank
  | more starts later =>
    rw [Starts, List.dropWhile_cons_of_neg (by decide), next?, if_pos rfl,
      Option.map_eq_some_iff] at starts
    obtain ⟨⟨units, left⟩, read, same⟩ := starts
    cases same
    exact ⟨_, _, _, read, rfl, later⟩

theorem takeWhile_joined {test : UInt16 → Bool} (all : ∀ unit ∈ units, test unit = true)
    (ends : ∀ unit ∈ rest.head?, test unit = false) :
    (units ++ rest).takeWhile test = units ∧ (units ++ rest).dropWhile test = rest := by
  have stops : rest.takeWhile test = [] ∧ rest.dropWhile test = rest := by
    cases rest with
    | nil => exact ⟨rfl, rfl⟩
    | cons unit rest =>
      have fails : ¬ test unit = true := by simp [ends unit rfl]
      exact ⟨List.takeWhile_cons_of_neg fails, List.dropWhile_cons_of_neg fails⟩
  rw [List.takeWhile_append_of_pos all, List.dropWhile_append_of_pos all, stops.1, stops.2,
    List.append_nil]
  exact ⟨rfl, rfl⟩

theorem forall_mem_of_all {α : Type} {items : List α} {property : α → Prop}
    [DecidablePred property] (all : items.all (fun item => property item) = true) :
    ∀ item ∈ items, property item := by
  intro item member
  exact of_decide_eq_true (List.all_eq_true.mp all item member)

theorem isOperatorUnit_of_isWordUnit {unit : UInt16} (own : isWordUnit unit = true) :
    isOperatorUnit unit = false := by
  apply Bool.eq_false_of_not_eq_true
  intro member
  have outside : ∀ unit ∈ operatorUnits, isWordUnit unit = false :=
    forall_mem_of_all (by decide)
  rw [outside unit (List.contains_iff_mem.mp member)] at own
  cases own

theorem starts_word (some_unit : units ≠ []) (all : ∀ unit ∈ units, isWordUnit unit = true)
    (ends : ∀ unit ∈ rest.head?, isWordUnit unit = false ∧ unit ≠ quote) :
    Starts (units ++ rest) (.word units) rest := by
  obtain ⟨taken, left⟩ := takeWhile_joined all fun unit member => (ends unit member).1
  have noQuote : rest.head? ≠ some quote := fun same => (ends quote same).2 rfl
  cases units with
  | nil => exact absurd rfl some_unit
  | cons unit units =>
    have own := all unit List.mem_cons_self
    have other {constant : UInt16} (outside : isWordUnit constant = false) : unit ≠ constant := by
      rintro rfl
      rw [outside] at own
      cases own
    have noMark : isMark unit = false := by
      simp [isMark, other (show isWordUnit 0x28 = false by decide),
        other (show isWordUnit 0x29 = false by decide),
        other (show isWordUnit 0x2C = false by decide)]
    have noOperator := isOperatorUnit_of_isWordUnit own
    have solid : isSpace unit = false := by
      apply Bool.eq_false_of_not_eq_true
      intro blank
      simp only [isSpace, isWordUnit, isDigit, Bool.or_eq_true, Bool.and_eq_true,
        decide_eq_true_eq] at blank own
      omega
    rw [List.cons_append] at taken left ⊢
    apply starts_of_next? solid
    rw [next?, if_neg (other (by decide)), if_neg (other (by decide)), noMark, noOperator, own,
      taken, left, if_neg noQuote]
    rfl

theorem starts_operator (some_unit : units ≠ []) (all : ∀ unit ∈ units, isOperatorUnit unit = true)
    (noComment : startsComment units = false)
    (ends : ∀ unit ∈ rest.head?, isOperatorUnit unit = false) :
    Starts (units ++ rest) (.operator units) rest := by
  obtain ⟨taken, left⟩ := takeWhile_joined all ends
  cases units with
  | nil => exact absurd rfl some_unit
  | cons unit units =>
    have own := all unit List.mem_cons_self
    have outside : ∀ unit ∈ operatorUnits, unit ≠ quote ∧ unit ≠ 0x24 ∧ isMark unit = false ∧
        isSpace unit = false := forall_mem_of_all (by decide)
    obtain ⟨noQuote, noDollar, noMark, solid⟩ := outside unit (List.contains_iff_mem.mp own)
    rw [List.cons_append] at taken left ⊢
    apply starts_of_next? solid
    rw [next?, if_neg noQuote, if_neg noDollar, noMark, own, taken, left, noComment]
    rfl

theorem starts_placeholder (some_digit : units ≠ []) (all : ∀ unit ∈ units, isDigit unit = true)
    (ends : ∀ unit ∈ rest.head?, isDigit unit = false) :
    Starts (0x24 :: (units ++ rest)) (.placeholder units) rest := by
  obtain ⟨taken, left⟩ := takeWhile_joined all ends
  apply starts_of_next? (by decide)
  have full : (units.isEmpty) = false := by simpa using some_digit
  rw [next?, if_neg (by decide), if_pos rfl, taken, left, full]
  rfl

end Joined

end SorobanExplorer.Library.SqlLexer
