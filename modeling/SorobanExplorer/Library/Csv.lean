import Mathlib.Tactic.Common

/-!
Owns the reading of comma-separated values: fields in quotes, in which a quote is doubled, and plain
fields, which have no quote, comma or line break; every record ends with a line feed.
-/

namespace SorobanExplorer.Library.Csv

/-- Where a field is being read: at its start, in plain text, in quotes, after a quote in quotes. -/
inductive Mode where
  | start
  | plain
  | quoted
  | quote
deriving DecidableEq

/-- What has been read: the records, the fields of the record and the text of the field. -/
structure Reading where
  records : List (List (List Char))
  record : List (List Char)
  field : List Char
  mode : Mode

namespace Reading

def endField (reading : Reading) (char : Char) : Option Reading :=
  if char = ',' then some ⟨reading.records, reading.record ++ [reading.field], [], .start⟩
  else if char = '\n' then
    some ⟨reading.records ++ [reading.record ++ [reading.field]], [], [], .start⟩
  else none

def add (reading : Reading) (char : Char) (mode : Mode) : Reading :=
  { reading with field := reading.field ++ [char], mode := mode }

def feedPlain (reading : Reading) (char : Char) : Option Reading :=
  if char = ',' ∨ char = '\n' then reading.endField char
  else if char = '"' ∨ char = '\r' then none
  else some (reading.add char .plain)

def feed (reading : Reading) (char : Char) : Option Reading :=
  match reading.mode with
  | .start =>
    if char = '"' then some { reading with mode := .quoted } else reading.feedPlain char
  | .plain => reading.feedPlain char
  | .quoted =>
    some (if char = '"' then { reading with mode := .quote } else reading.add char .quoted)
  | .quote => if char = '"' then some (reading.add char .quoted) else reading.endField char

def feedAll (reading : Reading) (text : List Char) : Option Reading := text.foldlM feed reading

def init : Reading := ⟨[], [], [], .start⟩

end Reading

def parse (file : List Char) : Option (List (List (List Char))) := do
  let reading ← Reading.init.feedAll file
  if reading.record = [] ∧ reading.mode = .start then pure reading.records else none

def quoted (text : List Char) : List Char :=
  '"' :: (text.flatMap fun char => if char = '"' then ['"', '"'] else [char]) ++ ['"']

def special (char : Char) : Bool := char = '"' || char = ',' || char = '\n' || char = '\r'

namespace Reading

variable {reading : Reading} {text : List Char} {separator : Char}

theorem feedAll_append (reading : Reading) (text rest : List Char) :
    reading.feedAll (text ++ rest) = (reading.feedAll text).bind (feedAll · rest) :=
  List.foldlM_append

theorem feedAll_cons (reading : Reading) (char : Char) (rest : List Char) :
    reading.feedAll (char :: rest) = (reading.feed char).bind (feedAll · rest) := rfl

theorem feed_of_ne (mode : reading.mode = .start ∨ reading.mode = .plain) {char : Char}
    (ne : char ≠ '"') : reading.feed char = reading.feedPlain char := by
  unfold feed
  obtain start | plain := mode
  · rw [start]
    exact if_neg ne
  · rw [plain]

theorem feed_plain (mode : reading.mode = .start ∨ reading.mode = .plain) {char : Char}
    (plain : special char = false) : reading.feed char = some (reading.add char .plain) := by
  simp only [special, Bool.or_eq_false_iff, decide_eq_false_iff_not] at plain
  obtain ⟨⟨⟨quote, comma⟩, lineFeed⟩, carriage⟩ := plain
  rw [feed_of_ne mode quote, feedPlain, if_neg (not_or.mpr ⟨comma, lineFeed⟩),
    if_neg (not_or.mpr ⟨quote, carriage⟩)]

theorem feedAll_plain (plain : ∀ char ∈ text, special char = false)
    (ends : separator = ',' ∨ separator = '\n')
    (mode : reading.mode = .start ∨ reading.mode = .plain) :
    reading.feedAll (text ++ [separator]) =
      { reading with field := reading.field ++ text }.endField separator := by
  induction text generalizing reading with
  | nil =>
    have ne : separator ≠ '"' := by
      obtain rfl | rfl := ends <;> decide
    rw [List.nil_append, List.append_nil, feedAll_cons, feed_of_ne mode ne, feedPlain,
      if_pos ends]
    cases reading.endField separator <;> rfl
  | cons char text ih =>
    have later : ∀ char ∈ text, special char = false := fun char listed =>
      plain char (List.mem_cons_of_mem _ listed)
    rw [List.cons_append, feedAll_cons, feed_plain mode (plain char List.mem_cons_self),
      Option.bind_some, ih later (.inr rfl)]
    simp [add, endField]

theorem feedAll_carriage (carriage : '\r' ∈ text)
    (plain : ∀ char ∈ text, char = '\r' ∨ special char = false)
    (mode : reading.mode = .start ∨ reading.mode = .plain) : reading.feedAll text = none := by
  induction text generalizing reading with
  | nil => cases carriage
  | cons char text ih =>
    have later : ∀ char ∈ text, char = '\r' ∨ special char = false := fun char listed =>
      plain char (List.mem_cons_of_mem _ listed)
    rw [feedAll_cons]
    by_cases first : char = '\r'
    · rw [feed_of_ne mode (by rw [first]; decide), feedPlain, first]
      rfl
    · have readable := (plain char List.mem_cons_self).resolve_left first
      have rest := (List.mem_cons.mp carriage).resolve_left (Ne.symm first)
      rw [feed_plain mode readable, Option.bind_some]
      exact ih rest later (.inr rfl)

theorem feedAll_escaped (inside : reading.mode = .quoted) (text rest : List Char) :
    reading.feedAll ((text.flatMap fun char => if char = '"' then ['"', '"'] else [char]) ++ rest) =
      { reading with field := reading.field ++ text }.feedAll rest := by
  induction text generalizing reading with
  | nil => simp
  | cons char text ih =>
    have added : (reading.add char .quoted).mode = .quoted := rfl
    rw [List.flatMap_cons, List.append_assoc]
    split_ifs with quote
    · subst quote
      rw [List.cons_append, List.cons_append, List.nil_append, feedAll_cons, feed, inside]
      simp only [if_true, Option.bind_some]
      rw [feedAll_cons, feed]
      simp only [if_true, Option.bind_some]
      refine (ih added).trans ?_
      simp [add]
    · rw [List.singleton_append, feedAll_cons, feed, inside]
      simp only [if_neg quote, Option.bind_some]
      refine (ih added).trans ?_
      simp [add]

theorem feedAll_quoted (ends : separator = ',' ∨ separator = '\n') (start : reading.mode = .start)
    (empty : reading.field = []) (text : List Char) :
    reading.feedAll (quoted text ++ [separator]) =
      { reading with field := text }.endField separator := by
  have ne : separator ≠ '"' := by
    obtain rfl | rfl := ends <;> decide
  rw [quoted, List.cons_append, List.cons_append, feedAll_cons, feed, start]
  simp only [if_true, Option.bind_some]
  rw [List.append_assoc, feedAll_escaped rfl, List.singleton_append, feedAll_cons, feed]
  simp only [if_true, Option.bind_some]
  rw [feedAll_cons, feed]
  simp only [if_neg ne, empty, List.nil_append]
  obtain rfl | rfl := ends <;> rfl

end Reading

end SorobanExplorer.Library.Csv
