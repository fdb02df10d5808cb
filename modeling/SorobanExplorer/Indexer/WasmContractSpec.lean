import SorobanExplorer.Library.Leb128
import SorobanExplorer.Library.Utf8
import Mathlib.Data.Int.Interval
import Mathlib.Data.Fintype.EquivFin

/-!
Owns the scan of a Wasm binary for the section `contractspecv0`: the section steps over any bytes,
and what they return of the bytes of a well-formed module.
-/

namespace SorobanExplorer.Indexer.WasmContractSpec

open Library

/-! ### Buffers -/

abbrev Buffer := List UInt8

/-- `buf[offset]`, nothing outside. -/
def byteAt (buf : Buffer) (offset : ℤ) : Option UInt8 :=
  if offset < 0 then none else buf[offset.toNat]?

def sliceEnd (buf : Buffer) (place : ℤ) : ℕ :=
  if place < 0 then (buf.length + place).toNat else min place.toNat buf.length

/-- `buf.slice(start, finish)` -/
def slice (buf : Buffer) (start finish : ℤ) : Buffer :=
  (buf.take (sliceEnd buf finish)).drop (sliceEnd buf start)

def readLEB128 (buf : Buffer) (offset : ℤ) : ℤ × ℤ :=
  if offset < 0 then (0, offset + 1)
  else
    let read := Leb128.readBits (buf.drop offset.toNat) 0 0
    (read.1.toInt, offset + read.2)

/-! ### The scan -/

/-- How `extractContractSpecSection` ends: with a slice, or by throwing. -/
inductive Outcome where
  | returned (payload : Buffer)
  | rangeError
  | badMagic
  | notFound
deriving DecidableEq

def wasmMagic : Buffer := [0x00, 0x61, 0x73, 0x6d]

def sectionName : List Char :=
  ['c', 'o', 'n', 't', 'r', 'a', 'c', 't', 's', 'p', 'e', 'c', 'v', '0']

def advance (buf : Buffer) (pos : ℤ) : Except Outcome ℤ :=
  if (buf.length : ℤ) ≤ pos then throw .notFound
  else
    let sectionSize := readLEB128 buf (pos + 1)
    let sectionEnd := sectionSize.2 + sectionSize.1
    if byteAt buf pos = some 0 then
      let nameLen := readLEB128 buf sectionSize.2
      let nameEnd := nameLen.2 + nameLen.1
      if Utf8.decode (slice buf nameLen.2 nameEnd) = sectionName then
        throw (.returned (slice buf nameEnd sectionEnd))
      else return sectionEnd
    else return sectionEnd

def scan (buf : Buffer) : ℕ → Except Outcome ℤ
  | 0 => .ok 8
  | turns + 1 => do advance buf (← scan buf turns)

/-- The function after some turns of its loop: `ok` while it runs. -/
def extractContractSpecSection (buf : Buffer) (turns : ℕ) : Except Outcome ℤ :=
  if buf.length < 4 then throw .rangeError
  else if buf.take 4 ≠ wasmMagic then throw .badMagic
  else scan buf turns

def Returns (buf : Buffer) (outcome : Outcome) : Prop :=
  ∃ turns, extractContractSpecSection buf turns = .error outcome

def Terminates (buf : Buffer) : Prop := ∃ outcome, Returns buf outcome

def HasMagic (buf : Buffer) : Prop := wasmMagic <+: buf

/-! ### Turns -/

theorem extract_of_magic {buf : Buffer} (magic : HasMagic buf) (turns : ℕ) :
    extractContractSpecSection buf turns = scan buf turns := by
  obtain ⟨rest, rfl⟩ := magic
  have long : ¬ (wasmMagic ++ rest).length < 4 := by
    rw [List.length_append]
    exact not_lt.mpr (Nat.le_add_right 4 _)
  have first : (wasmMagic ++ rest).take 4 = wasmMagic := List.take_left' rfl
  rw [extractContractSpecSection, if_neg long, first, if_neg (not_not_intro rfl)]

theorem scan_succ_of_ok {buf : Buffer} {turns : ℕ} {pos : ℤ} (runs : scan buf turns = .ok pos) :
    scan buf (turns + 1) = advance buf pos := by
  rw [scan, runs]
  rfl

theorem scan_succ_of_error {buf : Buffer} {turns : ℕ} {outcome : Outcome}
    (ended : scan buf turns = .error outcome) : scan buf (turns + 1) = .error outcome := by
  rw [scan, ended]
  rfl

theorem scan_of_le {buf : Buffer} {turns later : ℕ} {outcome : Outcome}
    (ended : scan buf turns = .error outcome) (le : turns ≤ later) :
    scan buf later = .error outcome := by
  induction later, le using Nat.le_induction with
  | base => exact ended
  | succ later _ ih => exact scan_succ_of_error ih

theorem scan_add_congr {buf : Buffer} {first second : ℕ} (same : scan buf first = scan buf second)
    (more : ℕ) : scan buf (first + more) = scan buf (second + more) := by
  induction more with
  | zero => exact same
  | succ more ih =>
    rw [← Nat.add_assoc, ← Nat.add_assoc, scan, scan, ih]

theorem advance_ok {buf : Buffer} {pos next : ℤ} (goes : advance buf pos = .ok next) :
    pos < buf.length ∧
      next = (readLEB128 buf (pos + 1)).2 + (readLEB128 buf (pos + 1)).1 := by
  unfold advance at goes
  by_cases past : (buf.length : ℤ) ≤ pos
  · rw [if_pos past] at goes
    cases goes
  · rw [if_neg past] at goes
    simp only at goes
    split_ifs at goes
    · exact ⟨not_le.mp past, (Except.ok.inj goes).symm⟩
    · exact ⟨not_le.mp past, (Except.ok.inj goes).symm⟩

theorem lt_readLEB128 (buf : Buffer) (offset : ℤ) : offset + 1 ≤ (readLEB128 buf offset).2 := by
  unfold readLEB128
  split_ifs
  · exact le_rfl
  · have count := Leb128.readBits_count (buf.drop offset.toNat) 0 0
    simp only
    omega

theorem readLEB128_ge (buf : Buffer) (offset : ℤ) :
    -2 ^ 31 ≤ (readLEB128 buf offset).1 ∧ (offset < 0 → (readLEB128 buf offset).1 = 0) := by
  unfold readLEB128
  split_ifs with negative
  · exact ⟨by simp, fun _ => rfl⟩
  · exact ⟨BitVec.le_toInt _, fun impossible => absurd impossible negative⟩

/-! ### Termination -/

/-- What holds at the first section and passes from one section to the next holds wherever the scan
comes to. -/
theorem scan_induction {buf : Buffer} {holds : ℕ → ℤ → Prop} (start : holds 0 8)
    (next : ∀ turns pos, scan buf turns = .ok pos → pos < buf.length → holds turns pos →
      holds (turns + 1) ((readLEB128 buf (pos + 1)).2 + (readLEB128 buf (pos + 1)).1))
    {turns : ℕ} {pos : ℤ} (runs : scan buf turns = .ok pos) : holds turns pos := by
  induction turns generalizing pos with
  | zero =>
    cases runs
    exact start
  | succ turns ih =>
    cases before : scan buf turns with
    | error outcome =>
      rw [scan_succ_of_error before] at runs
      cases runs
    | ok earlier =>
      rw [scan_succ_of_ok before] at runs
      obtain ⟨inside, rfl⟩ := advance_ok runs
      exact next turns earlier before inside (ih before)

theorem position_ge {buf : Buffer} {turns : ℕ} {pos : ℤ} (runs : scan buf turns = .ok pos) :
    -2 ^ 31 ≤ pos := by
  refine @scan_induction buf (fun _ pos => -2 ^ 31 ≤ pos) (by decide) ?_ turns pos runs
  intro _ earlier _ _ low
  have after := lt_readLEB128 buf (earlier + 1)
  obtain ⟨size, negative⟩ := readLEB128_ge buf (earlier + 1)
  by_cases outside : earlier + 1 < 0
  · rw [negative outside]
    omega
  · omega

theorem position_grows {buf : Buffer}
    (sizes : ∀ turns pos, scan buf turns = .ok pos → pos < buf.length →
      0 ≤ (readLEB128 buf (pos + 1)).1)
    {turns : ℕ} {pos : ℤ} (runs : scan buf turns = .ok pos) : 2 * (turns : ℤ) ≤ pos := by
  refine @scan_induction buf (fun turns pos => 2 * (turns : ℤ) ≤ pos) (by decide) ?_ turns pos runs
  intro before earlier reached inside low
  have after := lt_readLEB128 buf (earlier + 1)
  have size := sizes before earlier reached inside
  push_cast
  omega

theorem terminates_iff {buf : Buffer} (magic : HasMagic buf) :
    Terminates buf ↔ ∃ turns outcome, scan buf turns = .error outcome := by
  unfold Terminates Returns
  simp only [extract_of_magic magic]
  exact exists_comm

theorem terminates_of_sizes {buf : Buffer} (magic : HasMagic buf)
    (sizes : ∀ turns pos, scan buf turns = .ok pos → pos < buf.length →
      0 ≤ (readLEB128 buf (pos + 1)).1) : Terminates buf := by
  rw [terminates_iff magic]
  cases here : scan buf buf.length with
  | error outcome => exact ⟨_, outcome, here⟩
  | ok pos =>
    have far := position_grows sizes here
    refine ⟨buf.length + 1, .notFound, ?_⟩
    rw [scan_succ_of_ok here, advance, if_pos (by omega)]
    rfl

theorem exists_repeat {buf : Buffer} (endless : ∀ turns, ∃ pos, scan buf turns = .ok pos) :
    ∃ first second pos, first ≠ second ∧ scan buf first = .ok pos ∧
      scan buf second = .ok pos := by
  choose position runs using endless
  have bounded (turns : ℕ) : position turns ∈ Set.Ico (-2 ^ 31 : ℤ) buf.length := by
    have goes := runs (turns + 1)
    rw [scan_succ_of_ok (runs turns)] at goes
    exact ⟨position_ge (runs turns), (advance_ok goes).1⟩
  obtain ⟨first, second, apart, same⟩ := Finite.exists_ne_map_eq_of_infinite
    fun turns => (⟨position turns, bounded turns⟩ : Set.Ico (-2 ^ 31 : ℤ) buf.length)
  refine ⟨first, second, position first, apart, runs first, ?_⟩
  rw [runs second, ← Subtype.mk.inj same]

theorem endless_of_repeat {buf : Buffer} {first gap : ℕ} {pos : ℤ} (positive : 0 < gap)
    (here : scan buf first = .ok pos) (again : scan buf (first + gap) = .ok pos) (turns : ℕ) :
    ∃ other, scan buf turns = .ok other := by
  have rounds (count : ℕ) : scan buf (first + count * gap) = .ok pos := by
    induction count with
    | zero => rwa [Nat.zero_mul]
    | succ count ih =>
      have later := scan_add_congr (ih.trans here.symm) gap
      rw [again] at later
      rwa [Nat.succ_mul, ← Nat.add_assoc]
  cases ended : scan buf turns with
  | ok other => exact ⟨other, rfl⟩
  | error outcome =>
    have many : turns ≤ first + turns * gap :=
      (Nat.le_mul_of_pos_right turns positive).trans (Nat.le_add_left _ _)
    have late := scan_of_le ended many
    rw [rounds] at late
    cases late

theorem terminates_iff_noRepeat {buf : Buffer} (magic : HasMagic buf) :
    Terminates buf ↔ ∀ first second pos, scan buf first = .ok pos → scan buf second = .ok pos →
      first = second := by
  rw [terminates_iff magic]
  constructor
  · rintro ⟨turns, outcome, ended⟩ first second pos here again
    by_contra apart
    have gaps : ∃ low gap, 0 < gap ∧ scan buf low = .ok pos ∧ scan buf (low + gap) = .ok pos := by
      rcases Nat.lt_or_gt_of_ne apart with less | greater
      · exact ⟨first, second - first, by omega, here, by rwa [Nat.add_sub_cancel' less.le]⟩
      · exact ⟨second, first - second, by omega, again, by rwa [Nat.add_sub_cancel' greater.le]⟩
    obtain ⟨low, gap, positive, lowHere, lowAgain⟩ := gaps
    obtain ⟨other, runs⟩ := endless_of_repeat positive lowHere lowAgain turns
    rw [ended] at runs
    cases runs
  · intro noRepeat
    by_contra never
    have endless (turns : ℕ) : ∃ pos, scan buf turns = .ok pos := by
      cases ended : scan buf turns with
      | ok pos => exact ⟨pos, rfl⟩
      | error outcome => exact absurd ⟨turns, outcome, ended⟩ never
    obtain ⟨first, second, pos, apart, here, again⟩ := exists_repeat endless
    exact apart (noRepeat first second pos here again)

/-! ### Well-formed modules -/

inductive Section where
  | custom (size nameSize : List UInt8) (name : List Char) (payload : Buffer)
  | known (id : UInt8) (size : List UInt8) (content : Buffer)

namespace Section

def content : Section → Buffer
  | .custom _ nameSize name payload => nameSize ++ (Utf8.encode name ++ payload)
  | .known _ _ content => content

def size : Section → List UInt8
  | .custom size _ _ _ => size
  | .known _ size _ => size

def id : Section → UInt8
  | .custom .. => 0
  | .known id _ _ => id

def bytes (part : Section) : Buffer := part.id :: (part.size ++ part.content)

def WellFormed : Section → Prop
  | .custom size nameSize name payload =>
    Leb128.U32 size (nameSize ++ (Utf8.encode name ++ payload)).length ∧
      Leb128.U32 nameSize (Utf8.encode name).length
  | .known id size content => id ≠ 0 ∧ Leb128.U32 size content.length

def contractSpec? : Section → Option Buffer
  | .custom _ _ name payload => if name = sectionName then some payload else none
  | .known .. => none

end Section

structure Module where
  version : Buffer
  sections : List Section

namespace Module

def bytes (wasm : Module) : Buffer :=
  wasmMagic ++ wasm.version ++ wasm.sections.flatMap Section.bytes

structure WellFormed (wasm : Module) : Prop where
  version : wasm.version.length = 4
  sections : ∀ part ∈ wasm.sections, part.WellFormed

def contractSpec (wasm : Module) : Outcome :=
  match wasm.sections.findSome? Section.contractSpec? with
  | some payload => .returned payload
  | none => .notFound

end Module

theorem sliceEnd_natCast (buf : Buffer) {place : ℕ} (inside : place ≤ buf.length) :
    sliceEnd buf place = place := by
  rw [sliceEnd, if_neg (by omega), Int.toNat_natCast, Nat.min_eq_left inside]

theorem slice_append (front middle rest : Buffer) :
    slice (front ++ (middle ++ rest)) front.length (front.length + middle.length : ℕ) = middle := by
  rw [slice, sliceEnd_natCast _ (by simp), sliceEnd_natCast _ (by simp), ← List.append_assoc,
    List.take_left' List.length_append, List.drop_left' rfl]

theorem readLEB128_append (front : Buffer) {encoding : List UInt8} {value : ℕ}
    (encodes : Leb128.U32 encoding value) (small : value < 2 ^ 31) (rest : Buffer) :
    readLEB128 (front ++ (encoding ++ rest)) front.length =
      ((value : ℤ), ((front.length + encoding.length : ℕ) : ℤ)) := by
  rw [readLEB128, if_neg (by omega), Int.toNat_natCast, List.drop_left' rfl,
    Leb128.readBits_u32 encodes rest]
  simp only [Leb128.toInt_ofNat small]
  push_cast
  rfl

theorem byteAt_append (front : Buffer) (byte : UInt8) (rest : Buffer) :
    byteAt (front ++ byte :: rest) front.length = some byte := by
  rw [byteAt, if_neg (by omega), Int.toNat_natCast, List.getElem?_append_right le_rfl,
    Nat.sub_self]
  rfl

theorem advance_section {part : Section} (wellFormed : part.WellFormed)
    (small : part.content.length < 2 ^ 31) (front rest : Buffer) :
    advance (front ++ (part.bytes ++ rest)) front.length =
      match part.contractSpec? with
      | some payload => .error (.returned payload)
      | none => .ok ((front ++ part.bytes).length : ℕ) := by
  have encodes : Leb128.U32 part.size part.content.length := by
    cases part with
    | custom size nameSize name payload => exact wellFormed.1
    | known id size content => exact wellFormed.2
  have split : front ++ (part.bytes ++ rest) =
      (front ++ [part.id]) ++ (part.size ++ (part.content ++ rest)) := by
    simp [Section.bytes]
  have inside : ¬ ((front ++ (part.bytes ++ rest)).length : ℤ) ≤ front.length := by
    rw [split]
    simp only [List.length_append, List.length_singleton]
    omega
  have id : byteAt (front ++ (part.bytes ++ rest)) front.length = some part.id :=
    byteAt_append front part.id _
  have sized := readLEB128_append (front ++ [part.id]) encodes small (part.content ++ rest)
  rw [← split] at sized
  have place : (((front ++ [part.id]).length : ℕ) : ℤ) = (front.length : ℤ) + 1 := by simp
  rw [place] at sized
  have finish : (((front ++ [part.id]).length + part.size.length : ℕ) : ℤ) + part.content.length =
      ((front ++ part.bytes).length : ℕ) := by
    simp only [Section.bytes, List.length_append, List.length_cons, List.length_nil]
    push_cast
    ring
  unfold advance
  rw [if_neg inside]
  simp only [sized, id]
  cases part with
  | known other size content =>
    have apart : ¬ some (Section.known other size content).id = some 0 := fun same =>
      wellFormed.1 (Option.some.inj same)
    rw [if_neg apart, finish]
    rfl
  | custom size nameSize name payload =>
    have nameSmall : (Utf8.encode name).length < 2 ^ 31 := by
      simp only [Section.content, List.length_append] at small
      omega
    have custom : some (Section.custom size nameSize name payload).id = some 0 := rfl
    have nameSplit : front ++ ((Section.custom size nameSize name payload).bytes ++ rest) =
        (front ++ 0 :: size) ++ (nameSize ++ (Utf8.encode name ++ (payload ++ rest))) := by
      simp [Section.bytes, Section.id, Section.size, Section.content]
    have named := readLEB128_append (front ++ 0 :: size) wellFormed.2 nameSmall
      (Utf8.encode name ++ (payload ++ rest))
    rw [← nameSplit] at named
    have nameStart : ((front ++ [(Section.custom size nameSize name payload).id]).length +
        (Section.custom size nameSize name payload).size.length : ℕ) =
          (front ++ 0 :: size).length := by
      simp only [Section.size, List.length_append, List.length_cons, List.length_nil]
      omega
    have text := slice_append ((front ++ 0 :: size) ++ nameSize) (Utf8.encode name)
      (payload ++ rest)
    have textSplit : front ++ ((Section.custom size nameSize name payload).bytes ++ rest) =
        ((front ++ 0 :: size) ++ nameSize) ++ (Utf8.encode name ++ (payload ++ rest)) := by
      rw [nameSplit]
      simp
    rw [← textSplit, List.length_append] at text
    have found := slice_append (((front ++ 0 :: size) ++ nameSize) ++ Utf8.encode name) payload
      rest
    have payloadSplit : front ++ ((Section.custom size nameSize name payload).bytes ++ rest) =
        (((front ++ 0 :: size) ++ nameSize) ++ Utf8.encode name) ++ (payload ++ rest) := by
      rw [textSplit]
      simp
    have payloadEnd : (((front ++ 0 :: size) ++ nameSize) ++ Utf8.encode name).length +
        payload.length =
          (front ++ (Section.custom size nameSize name payload).bytes).length := by
      simp only [Section.bytes, Section.size, Section.content, List.length_append,
        List.length_cons]
      omega
    rw [← payloadSplit, payloadEnd, List.length_append, List.length_append] at found
    rw [if_pos custom, finish, nameStart]
    simp only [named, ← Nat.cast_add, text, found, Utf8.decode_encode]
    rw [Section.contractSpec?]
    split_ifs <;> rfl

theorem scan_sections (parts : List Section) : ∀ front : Buffer, ∀ turns,
    (∀ part ∈ parts, part.WellFormed) → (∀ part ∈ parts, part.content.length < 2 ^ 31) →
      scan (front ++ parts.flatMap Section.bytes) turns = .ok (front.length : ℕ) →
      ∃ later, scan (front ++ parts.flatMap Section.bytes) later =
        .error (match parts.findSome? Section.contractSpec? with
          | some payload => .returned payload
          | none => .notFound) := by
  induction parts with
  | nil =>
    intro front turns _ _ here
    refine ⟨turns + 1, ?_⟩
    rw [scan_succ_of_ok here, advance, if_pos (by simp)]
    rfl
  | cons part parts ih =>
    intro front turns wellFormed small here
    rw [List.forall_mem_cons] at wellFormed small
    have turn := scan_succ_of_ok here
    rw [List.flatMap_cons] at turn here ⊢
    rw [advance_section wellFormed.1 small.1] at turn
    cases spec : part.contractSpec? with
    | some payload =>
      rw [spec] at turn
      refine ⟨turns + 1, ?_⟩
      rw [turn, List.findSome?_cons, spec]
    | none =>
      rw [spec, ← List.append_assoc] at turn
      obtain ⟨later, ends⟩ := ih (front ++ part.bytes) (turns + 1)
        wellFormed.2 small.2 turn
      refine ⟨later, ?_⟩
      rw [← List.append_assoc, ends, List.findSome?_cons, spec]

theorem Module.hasMagic (wasm : Module) : HasMagic wasm.bytes :=
  ⟨wasm.version ++ wasm.sections.flatMap Section.bytes, (List.append_assoc _ _ _).symm⟩

theorem returns_contractSpec {wasm : Module} (wellFormed : wasm.WellFormed)
    (small : ∀ part ∈ wasm.sections, part.content.length < 2 ^ 31) :
    Returns wasm.bytes wasm.contractSpec := by
  have header : ((wasmMagic ++ wasm.version).length : ℕ) = 8 := by
    rw [List.length_append, wellFormed.version]
    rfl
  have start : scan wasm.bytes 0 = .ok ((wasmMagic ++ wasm.version).length : ℕ) := by
    rw [header]
    rfl
  obtain ⟨turns, ends⟩ := scan_sections wasm.sections (wasmMagic ++ wasm.version) 0
    wellFormed.sections small start
  refine ⟨turns, ?_⟩
  rw [extract_of_magic wasm.hasMagic]
  exact ends

/-- The scan ends exactly where it never comes back to a position, and so where every size it reads
is below `2 ^ 31`; of a well-formed module of such sections it returns the payload that is looked
for, or throws if there is none. -/
theorem extract_terminates_iff (buf : Buffer) (magic : HasMagic buf) :
    (Terminates buf ↔ ∀ first second pos,
      scan buf first = .ok pos → scan buf second = .ok pos → first = second) ∧
    ((∀ turns pos, scan buf turns = .ok pos → pos < buf.length →
      0 ≤ (readLEB128 buf (pos + 1)).1) → Terminates buf) ∧
    ∀ wasm : Module, wasm.bytes = buf → wasm.WellFormed →
      (∀ part ∈ wasm.sections, part.content.length < 2 ^ 31) →
        Returns buf wasm.contractSpec := by
  refine ⟨terminates_iff_noRepeat magic, terminates_of_sizes magic, ?_⟩
  intro wasm encodes wellFormed small
  rw [← encodes]
  exact returns_contractSpec wellFormed small

def specModule : Module :=
  ⟨[1, 0, 0, 0], [.custom [17] [14] sectionName [7, 9]]⟩

theorem extract_terminates_specModule : Returns specModule.bytes (.returned [7, 9]) := by
  have size : Leb128.U32 [17] 17 := ⟨.last (by decide), by decide, by decide⟩
  have nameSize : Leb128.U32 [14] 14 := ⟨.last (by decide), by decide, by decide⟩
  refine (extract_terminates_iff _ specModule.hasMagic).2.2 specModule rfl ⟨rfl, ?_⟩ ?_
  · intro part listed
    cases List.mem_singleton.mp listed
    exact ⟨size, nameSize⟩
  · intro part listed
    cases List.mem_singleton.mp listed
    decide

def backward : Buffer :=
  [0x00, 0x61, 0x73, 0x6d, 1, 0, 0, 0, 1, 0xfa, 0xff, 0xff, 0xff, 0x0f]

theorem backward_endless : HasMagic backward ∧ ¬ Terminates backward := by
  have magic : HasMagic backward := ⟨[1, 0, 0, 0, 1, 0xfa, 0xff, 0xff, 0xff, 0x0f], rfl⟩
  have turn : scan backward 1 = .ok 8 := by decide
  refine ⟨magic, fun terminates => ?_⟩
  exact absurd ((terminates_iff_noRepeat magic).mp terminates 0 1 8 rfl turn) Nat.zero_ne_one

end SorobanExplorer.Indexer.WasmContractSpec
