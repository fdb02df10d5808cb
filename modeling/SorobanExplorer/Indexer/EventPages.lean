import SorobanExplorer.Filters.Planner
import SorobanExplorer.Indexer.Cursor
import SorobanExplorer.Library.KeysetPaging

/-!
Owns `getEventsCursor`: the anchor a request names, the rows the database selects for
it, and the page they become. Rows have the columns that the query reads.

`follow_enumerates` reads a table page after page and goes back from every page.
-/

namespace SorobanExplorer.Indexer.EventPages

open Library
open Filters (JsString js JsValue Number toNumber? stringToNumber maximum minimum
  trim)

/-! ### The table -/

structure EventRow where
  seq : Nat
  contractId : Option (List Char)
  function : List Char
deriving DecidableEq

/-- The rows of `events`: `seq` is the primary key and comes from a sequence, which
starts at one. -/
structure EventTable where
  rows : List EventRow
  positive : ∀ row ∈ rows, 0 < row.seq
  distinct : (rows.map EventRow.seq).Nodup

/-- A row as the driver hands it over: `seq` is parsed as a number. -/
structure PageRow where
  seq : JsNumber
  contractId : Option (List Char)
  function : List Char
  type : List Char
deriving DecidableEq

def isClassic (row : EventRow) : Bool := row.contractId = none || row.contractId = some []

def PageRow.read (row : EventRow) : PageRow where
  seq := .ofRat row.seq
  contractId := row.contractId
  function := row.function
  type := if isClassic row then "classic".toList else "soroban".toList

/-- A parameter where the database wants a `bigint`; `none` is its error. -/
def bigint? (number : JsNumber) : Option Int :=
  if number.value.den = 1 ∧ -2 ^ 63 ≤ number.value.num ∧ number.value.num < 2 ^ 63 then
    some number.value.num
  else none

/-! ### Requests -/

/-- `none` is `undefined`. -/
structure EventFilters where
  contract : Option (List Char)
  fn : Option (List Char)
  type : Option (List Char)

structure PageRequest where
  filters : EventFilters
  cursor : Option Token
  after : Option Token
  before : Option Token
  afterSeq : Token
  limit : Number

inductive PageError where
  | cursor (error : CursorError)
  | typeError
  | database
deriving DecidableEq

/-- `Number(token)` -/
def tokenNumber : Token → Number
  | .text units => stringToNumber units
  | .number value => value

def present : Option Token → Option Token
  | some (.text []) => none
  | some (.number none) => none
  | some (.number (some number)) => if number.value = 0 then none else some (.number (some number))
  | token => token

/-- `/^\d+$/.test(token) && token.length < 20`, or a number. -/
def isLegacy : Token → Bool
  | .number _ => true
  | .text units =>
    !units.isEmpty && units.all (fun unit => 0x30 ≤ unit && unit ≤ 0x39) && units.length < 20

/-- `number > 0` -/
def aboveZero : Number → Bool
  | some number => 0 < number.value
  | none => false

/-- Where a page begins; `anchorSeq` is `none` for `null`. -/
structure Anchor where
  anchorSeq : Option Number
  isBackward : Bool
  hasAnchor : Bool

/-- `Number(decoded.tuple[0])` -/
def tupleSeq (decoded : DecodedCursor) : Except PageError Number :=
  match toNumber? decoded.tuple.head? with
  | .ok number => .ok number
  | .error _ => .error .typeError

def decodeAnchor (platform : Platform) (secret filterHash : JsString) (token : Token) :
    Except PageError (Number × Direction) :=
  match decodeCursor platform token filterHash secret with
  | .ok decoded => (tupleSeq decoded).map fun seq => (seq, decoded.direction)
  | .error error => .error (.cursor error)

def requestAnchor (platform : Platform) (secret filterHash : JsString) (request : PageRequest) :
    Except PageError Anchor :=
  match present request.before with
  | some token =>
    (decodeAnchor platform secret filterHash token).map fun decoded =>
      ⟨some decoded.1, true, true⟩
  | none =>
    match present request.after <|> present request.cursor with
    | some token =>
      if isLegacy token then
        .ok ⟨some (tokenNumber token), false, aboveZero (tokenNumber token)⟩
      else
        (decodeAnchor platform secret filterHash token).map fun decoded =>
          ⟨some decoded.1, decoded.2 = .backward, true⟩
    | none =>
      if aboveZero (tokenNumber request.afterSeq) then
        .ok ⟨some (tokenNumber request.afterSeq), false, true⟩
      else .ok ⟨none, false, false⟩

/-! ### The query -/

def functions (fn : List Char) : List (List Char) :=
  ((fn.splitOn ',').map trim).filter (· ≠ [])

def contractMatches (contract : Option (List Char)) (row : EventRow) : Bool :=
  match contract with
  | none | some [] => true
  | some contract => row.contractId = some contract

def functionMatches (fn : Option (List Char)) (row : EventRow) : Bool :=
  match fn with
  | none | some [] => true
  | some fn =>
    match functions fn with
    | [] => true
    | [function] => row.function = function
    | functions => functions.contains row.function

def typeMatches (type : Option (List Char)) (row : EventRow) : Bool :=
  if type = some "soroban".toList then !isClassic row
  else if type = some "classic".toList then isClassic row
  else true

def matchesFilters (filters : EventFilters) (row : EventRow) : Bool :=
  contractMatches filters.contract row && functionMatches filters.fn row &&
    typeMatches filters.type row

def besideAnchor (isBackward : Bool) (anchorSeq : Option Int) (row : EventRow) : Bool :=
  match anchorSeq with
  | none => true
  | some anchorSeq => if isBackward then anchorSeq < row.seq else row.seq < anchorSeq

/-- `SELECT … WHERE … ORDER BY seq … LIMIT` -/
def selectRows (table : EventTable) (filters : EventFilters) (isBackward : Bool)
    (anchorSeq : Option Int) (count : Nat) : List EventRow :=
  let selected := table.rows.filter fun row =>
    matchesFilters filters row && besideAnchor isBackward anchorSeq row
  ((if isBackward then rising EventRow.seq selected else falling EventRow.seq selected).take count)

/-- `Number(limit) || 25` -/
def chosenLimit : Number → JsNumber
  | some number => if number.value = 0 then .ofRat 25 else number
  | none => .ofRat 25

/-- `Math.min(Math.max(1, Number(limit) || 25), 200)` -/
def safeLimit (limit : Number) : Number :=
  minimum (maximum (some (.ofRat 1)) (some (chosenLimit limit))) (some (.ofRat 200))

/-- `left + 1` -/
def increment (number : JsNumber) : JsNumber := .ofRat (number.value + 1)

/-- The anchor as the database compares with it: none, or a `bigint`. -/
def anchorParam (anchorSeq : Option Number) : Except PageError (Option Int) :=
  match anchorSeq with
  | some (some number) =>
    if 0 < number.value then
      match bigint? number with
      | some seq => .ok (some seq)
      | none => .error .database
    else .ok none
  | _ => .ok none

def queryRows (table : EventTable) (filters : EventFilters) (anchor : Anchor) (limit : Number) :
    Except PageError (List PageRow × Bool) :=
  match anchorParam anchor.anchorSeq, safeLimit limit with
  | .ok anchorSeq, some safeLimit =>
    match bigint? (increment safeLimit) with
    | some count =>
      let rows := selectRows table filters anchor.isBackward anchorSeq count.toNat
      .ok (rows.map PageRow.read, safeLimit.value < rows.length)
    | none => .error .database
  | .error error, _ => .error error
  | _, none => .error .database

def requestHash (platform : Platform) (filters : EventFilters) : JsString :=
  hashFilters platform [(js "contract", filters.contract.map Utf16.encode),
    (js "fn", filters.fn.map Utf16.encode), (js "type", filters.type.map Utf16.encode)]

/-- `Number(row.seq)` is the number that the driver parsed. -/
def extractTuple (row : PageRow) : List Json := [jsonNumber row.seq]

def getEventsCursor (platform : Platform) (secret : JsString) (table : EventTable)
    (request : PageRequest) : Except PageError (PageResponse PageRow) :=
  let filterHash := requestHash platform request.filters
  match requestAnchor platform secret filterHash request with
  | .error error => .error error
  | .ok anchor =>
    match queryRows table request.filters anchor request.limit with
    | .error error => .error error
    | .ok (rows, hasExtraRow) =>
      .ok (formatPageResponse platform rows hasExtraRow anchor.isBackward anchor.hasAnchor
        extractTuple filterHash secret)

/-! ### Following -/

/-- The parameter that passes `next_cursor` on. -/
inductive CursorParameter where
  | after
  | cursor

/-- The first request, or the one with a page's `next_cursor`. -/
def nextRequest (parameter : CursorParameter) (filters : EventFilters) (limit : Number)
    (nextCursor : Option JsString) : PageRequest where
  filters := filters
  cursor := match parameter with
    | .after => none
    | .cursor => nextCursor.map Token.text
  after := match parameter with
    | .after => nextCursor.map Token.text
    | .cursor => none
  before := none
  afterSeq := .number (some (.ofRat 0))
  limit := limit

/-- The request with a page's `start_cursor` in `before`. -/
def previousRequest (filters : EventFilters) (limit : Number) (startCursor : JsString) :
    PageRequest where
  filters := filters
  cursor := none
  after := none
  before := some (.text startCursor)
  afterSeq := .number (some (.ofRat 0))
  limit := limit

def listing (table : EventTable) (filters : EventFilters) : List EventRow :=
  falling EventRow.seq (table.rows.filter (matchesFilters filters))

def pageLimit? (limit : Number) : Option Nat :=
  match safeLimit limit with
  | some number => if number.value.den = 1 then some number.value.num.toNat else none
  | none => none

structure EachOnce (table : EventTable) (filters : EventFilters) (rows : List PageRow) : Prop where
  falls : rows.Pairwise fun first second => second.seq.value < first.seq.value
  mem_iff : ∀ row, row ∈ rows ↔
    ∃ stored ∈ table.rows, matchesFilters filters stored = true ∧ row = PageRow.read stored

section Pages

variable (platform : Platform) (secret : JsString) (table : EventTable) (filters : EventFilters)
  (limit : Number) (count : Nat)

/-- A page answers the request for what lies before a row that `before` matching rows
precede: the last rows of `before`, at most `count`. -/
structure IsPrevious (before : List EventRow) (page : PageResponse PageRow) : Prop where
  data : page.data = (before.drop (before.length - count)).map PageRow.read
  hasNext : page.pageInfo.hasNext = true
  hasPrevious : page.pageInfo.hasPrevious = true ↔ count < before.length

/-- Following `next_cursor` enumerates the matching rows with exact flags, and going back
from a page that comes after others leads to what precedes it. -/
structure Enumerates (parameter : CursorParameter) (pages : List (PageResponse PageRow)) :
    Prop where
  follows : Follows
    (fun token => getEventsCursor platform secret table (nextRequest parameter filters limit token))
    PageResponse.nextCursor none pages
  eachOnce : EachOnce table filters (pages.flatMap PageResponse.data)
  hasNext : ∀ index page, pages[index]? = some page →
    (page.pageInfo.hasNext = true ↔ index + 1 < pages.length)
  hasPrevious : ∀ index page, pages[index]? = some page →
    (page.pageInfo.hasPrevious = true ↔ 0 < index)
  goesBack : ∀ index page later, pages[index]? = some page → pages[index + 1]? = some later →
    ∃ startCursor earlier, later.pageInfo.startCursor = some startCursor ∧
      getEventsCursor platform secret table (previousRequest filters limit startCursor) =
        .ok earlier ∧
      earlier.data = page.data ∧ earlier.pageInfo.hasNext = true ∧
      (earlier.pageInfo.hasPrevious = true ↔ 0 < index)
  goesBackFrom : ∀ request later startCursor before anchor after, request.filters = filters →
    getEventsCursor platform secret table request = .ok later →
    later.pageInfo.startCursor = some startCursor →
    later.data.head? = some (PageRow.read anchor) →
    listing table filters = before ++ anchor :: after → before ≠ [] →
    ∃ earlier, getEventsCursor platform secret table
        (previousRequest filters limit startCursor) = .ok earlier ∧
      IsPrevious count before earlier

end Pages

/-! ### Limits and anchors -/

theorem ofRat_natCast_value {value : Nat} (small : value ≤ 2 ^ 53) :
    (JsNumber.ofRat value).value = value := Binary64.round_natCast small

theorem bigint?_ofRat {value : Nat} (small : value ≤ 2 ^ 53) :
    bigint? (.ofRat value) = some (value : Int) := by
  have same := ofRat_natCast_value small
  rw [bigint?, same, Rat.den_natCast, Rat.num_natCast, if_pos]
  omega

theorem clamped_spec {limit : Number} {number : JsNumber} {most : ℕ} (positive : 1 ≤ most)
    (small : most ≤ 2 ^ 53) (clamped : minimum (maximum (some (.ofRat 1))
      (some (chosenLimit limit))) (some (.ofRat (most : ℚ))) = some number) :
    1 ≤ number.value ∧ number.value ≤ most := by
  have one : (JsNumber.ofRat 1).value = 1 := by
    have exact := @ofRat_natCast_value 1 (by decide)
    rwa [Nat.cast_one] at exact
  have least : (1 : ℚ) ≤ most := by exact_mod_cast positive
  simp only [maximum, minimum, Option.some.injEq, one, ofRat_natCast_value small] at clamped
  subst clamped
  split_ifs with above below
  · exact ⟨above, below⟩
  · rw [ofRat_natCast_value small]
    exact ⟨least, le_refl _⟩
  · rw [one]
    exact ⟨le_refl _, least⟩
  · rw [ofRat_natCast_value small]
    exact ⟨least, le_refl _⟩

theorem safeLimit_spec {limit : Number} {number : JsNumber} (safe : safeLimit limit = some number) :
    1 ≤ number.value ∧ number.value ≤ 200 := by
  have clamped := @clamped_spec limit number 200 (by decide) (by decide)
  rw [Nat.cast_ofNat] at clamped
  exact clamped safe

theorem whole_spec {number : JsNumber} {most : ℕ} (integral : number.value.den = 1)
    (bounds : 1 ≤ number.value ∧ number.value ≤ most) :
    number.value = number.value.num.toNat ∧ 0 < number.value.num.toNat ∧
      number.value.num.toNat ≤ most := by
  obtain ⟨least, highest⟩ := bounds
  have value : number.value = (number.value.num : ℚ) := (Rat.den_eq_one_iff _).mp integral |>.symm
  rw [value] at least highest
  have low : 1 ≤ number.value.num := by exact_mod_cast least
  have high : number.value.num ≤ most := by exact_mod_cast highest
  have cast : ((number.value.num.toNat : Nat) : ℚ) = number.value.num := by
    exact_mod_cast Int.toNat_of_nonneg (by omega)
  exact ⟨by rw [cast, ← value], by omega, by omega⟩

theorem pageLimit?_spec {limit : Number} {count : Nat} (whole : pageLimit? limit = some count) :
    ∃ number, safeLimit limit = some number ∧ number.value = count ∧ 0 < count ∧ count ≤ 200 := by
  unfold pageLimit? at whole
  cases safe : safeLimit limit with
  | none => simp [safe] at whole
  | some number =>
    simp only [safe, Option.ite_none_right_eq_some, Option.some.injEq] at whole
    obtain ⟨integral, rfl⟩ := whole
    have bounds : 1 ≤ number.value ∧ number.value ≤ (200 : ℕ) := by
      exact_mod_cast safeLimit_spec safe
    exact ⟨number, rfl, whole_spec integral bounds⟩

theorem bigint?_increment {number : JsNumber} {count : Nat} (value : number.value = count)
    (small : count ≤ 200) : bigint? (increment number) = some ((count + 1 : Nat) : Int) := by
  have same : increment number = .ofRat ((count + 1 : Nat) : ℚ) := by
    rw [increment, value, Nat.cast_succ]
  rw [same]
  exact bigint?_ofRat (by omega)

theorem anchorParam_ofRat {seq : Nat} (positive : 0 < seq) (small : seq ≤ 2 ^ 53) :
    anchorParam (some (some (.ofRat seq))) = .ok (some (seq : Int)) := by
  have above : 0 < (JsNumber.ofRat seq).value := by
    rw [ofRat_natCast_value small]
    exact Nat.cast_pos.mpr positive
  rw [anchorParam, if_pos above, bigint?_ofRat small]

/-! ### The rows of a page -/

theorem queryRows_eq {table : EventTable} {filters : EventFilters} {anchor : Anchor}
    {limit : Number} {count : Nat} {anchorSeq : Option Int}
    (whole : pageLimit? limit = some count) (param : anchorParam anchor.anchorSeq = .ok anchorSeq) :
    queryRows table filters anchor limit =
      .ok ((selectRows table filters anchor.isBackward anchorSeq (count + 1)).map PageRow.read,
        decide (count < (selectRows table filters anchor.isBackward anchorSeq (count + 1)).length)) := by
  obtain ⟨number, safe, value, -, small⟩ := pageLimit?_spec whole
  simp only [queryRows, param, safe, bigint?_increment value small, Int.toNat_natCast, value,
    Nat.cast_lt]

section Select

variable {table : EventTable} {filters : EventFilters}

theorem matching_distinct :
    ((table.rows.filter (matchesFilters filters)).map EventRow.seq).Nodup :=
  table.distinct.sublist (List.filter_sublist.map _)

theorem listing_falls : StrictlyFalls EventRow.seq (listing table filters) :=
  strictlyFalls_falling matching_distinct

theorem mem_listing {row : EventRow} :
    row ∈ listing table filters ↔ row ∈ table.rows ∧ matchesFilters filters row = true := by
  rw [listing, mem_falling, List.mem_filter]

theorem falling_selected (selected : EventRow → Bool) :
    falling EventRow.seq (table.rows.filter fun row =>
      matchesFilters filters row && selected row) = (listing table filters).filter selected := by
  have split : (table.rows.filter fun row => matchesFilters filters row && selected row) =
      (table.rows.filter (matchesFilters filters)).filter selected := by
    rw [List.filter_filter]
    exact List.filter_congr fun row _ => Bool.and_comm _ _
  rw [split, falling_filter matching_distinct, listing]

theorem selectRows_first (count : Nat) :
    selectRows table filters false none count = (listing table filters).take count := by
  have all : (listing table filters).filter (besideAnchor false none) = listing table filters :=
    List.filter_eq_self.mpr fun _ _ => rfl
  show (falling EventRow.seq _).take count = _
  rw [falling_selected, all]

theorem selectRows_after {before after : List EventRow} {anchor : EventRow}
    (split : listing table filters = before ++ anchor :: after) (count : Nat) :
    selectRows table filters false (some anchor.seq) count = after.take count := by
  have falls : StrictlyFalls EventRow.seq (before ++ anchor :: after) := split ▸ listing_falls
  have below : (listing table filters).filter (besideAnchor false (some (anchor.seq : Int))) =
      after := by
    rw [split]
    refine (List.filter_congr fun row _ => ?_).trans falls.filter_below
    simp [besideAnchor]
  show (falling EventRow.seq _).take count = _
  rw [falling_selected, below]

theorem selectRows_before {before after : List EventRow} {anchor : EventRow}
    (split : listing table filters = before ++ anchor :: after) (count : Nat) :
    selectRows table filters true (some anchor.seq) count = before.reverse.take count := by
  have falls : StrictlyFalls EventRow.seq (before ++ anchor :: after) := split ▸ listing_falls
  have above : (listing table filters).filter (besideAnchor true (some (anchor.seq : Int))) =
      before := by
    rw [split]
    refine (List.filter_congr fun row _ => ?_).trans falls.filter_above
    simp [besideAnchor]
  have distinct : ((table.rows.filter fun row => matchesFilters filters row &&
      besideAnchor true (some (anchor.seq : Int)) row).map EventRow.seq).Nodup :=
    table.distinct.sublist (List.filter_sublist.map _)
  show (rising EventRow.seq _).take count = _
  rw [rising_eq_reverse distinct, falling_selected, above]

end Select

/-! ### Trimming -/

theorem length_take_succ {α : Type} (rows : List α) (count : Nat) :
    count < (rows.take (count + 1)).length ↔ count < rows.length := by
  rw [List.length_take]
  omega

theorem trimRows_forward {α : Type} (rows : List α) (count : Nat) :
    trimRows (rows.take (count + 1)) (decide (count < rows.length)) false = rows.take count := by
  by_cases extra : count < rows.length
  · have trimmed : (rows.take (count + 1)).dropLast = rows.take count := by
      rw [List.dropLast_eq_take, List.length_take, List.take_take]
      congr 1
      omega
    simpa [trimRows, extra] using trimmed
  · have all : rows.length ≤ count := not_lt.mp extra
    simp [trimRows, extra, List.take_of_length_le, all, Nat.le_succ_of_le]

theorem trimRows_backward {α : Type} (rows : List α) (count : Nat) :
    trimRows (rows.reverse.take (count + 1)) (decide (count < rows.length)) true =
      rows.drop (rows.length - count) := by
  have reversed : (rows.reverse.take (count + 1)).reverse = rows.drop (rows.length - (count + 1)) := by
    rw [List.take_reverse, List.reverse_reverse]
  by_cases extra : count < rows.length
  · have place : rows.length - (count + 1) + 1 = rows.length - count := by omega
    simp [trimRows, extra, reversed, List.drop_drop, place]
  · have none : rows.length - (count + 1) = rows.length - count := by omega
    simp [trimRows, extra, reversed, none]

theorem formatPageResponse_forward {ρ σ : Type} (platform : Platform)
    (secret filterHash : JsString) (hasAnchor hasExtraRow : Bool) (read : ρ → σ)
    (extractTuple : σ → List Json) (rows : List ρ) :
    let page := formatPageResponse platform (rows.map read) hasExtraRow false hasAnchor extractTuple
      filterHash secret
    let shown := if hasExtraRow then rows.dropLast else rows
    page.data = shown.map read ∧
      page.pageInfo.hasNext = (!shown.isEmpty && hasExtraRow) ∧
      page.nextCursor =
        if hasExtraRow then
          shown.getLast?.map fun row =>
            encodeCursor platform (extractTuple (read row)) filterHash secret .forward
        else none := by
  intro page shown
  have trimmed : trimRows (rows.map read) hasExtraRow false = shown.map read := by
    cases hasExtraRow with
    | false => rfl
    | true => exact (List.map_dropLast).symm
  have next : page.pageInfo.hasNext = (!shown.isEmpty && hasExtraRow) := by
    simp only [page, formatPageResponse, trimmed, Bool.false_eq_true, if_false]
    cases shown <;> rfl
  refine ⟨trimmed, next, ?_⟩
  rw [formatPageResponse_nextCursor, trimmed, List.getLast?_map, Option.map_map]
  show (if page.pageInfo.hasNext then _ else none) = _
  rw [next]
  cases shown with
  | nil => cases hasExtraRow <;> rfl
  | cons row rest => rfl

/-! ### Cursors of rows -/

section Cursors

variable (platform : Platform) (secret : JsString) (filters : EventFilters)

def cursorOf (direction : Direction) (row : EventRow) : JsString :=
  encodeCursor platform (extractTuple (PageRow.read row)) (requestHash platform filters) secret
    direction

variable {row : EventRow} (small : row.seq ≤ 2 ^ 53)

include small in
theorem settled_extractTuple : Settled (extractTuple (PageRow.read row)) where
  printed := ⟨jsonNumber_printed (ofRat_natCast_isFinite small), trivial⟩
  built := rfl

include small in
theorem decodeAnchor_cursorOf (direction : Direction) :
    decodeAnchor platform secret (requestHash platform filters)
        (.text (cursorOf platform secret filters direction row)) =
      .ok (some (.ofRat row.seq), direction) := by
  have decoded := decodeCursor_encodeCursor platform (requestHash platform filters) secret
    direction (settled_extractTuple small)
  have number : JsNumber.ofNumeral (JsNumber.ofRat row.seq).numeral = .ofRat row.seq :=
    Json.ofNumeral_numeral (ofRat_natCast_isFinite small)
  have seq : tupleSeq ⟨extractTuple (PageRow.read row), direction⟩ =
      .ok (some (.ofRat row.seq)) := by
    show Except.ok (some (JsNumber.ofNumeral _)) = _
    rw [← number]
    rfl
  rw [decodeAnchor, cursorOf, decoded]
  simp only [seq]
  rfl

theorem present_cursorOf (direction : Direction) (row : EventRow) :
    present (some (.text (cursorOf platform secret filters direction row))) =
        some (.text (cursorOf platform secret filters direction row)) ∧
      isLegacy (.text (cursorOf platform secret filters direction row)) = false := by
  obtain ⟨rest, begins⟩ := encodeCursor_cons platform (requestHash platform filters) secret
    direction (extractTuple (PageRow.read row))
  rw [cursorOf, begins]
  exact ⟨rfl, by simp [isLegacy]⟩

theorem zero_not_above : aboveZero (some (.ofRat 0)) = false := by
  have zero : (JsNumber.ofRat 0).value = 0 := by
    have exact := @ofRat_natCast_value 0 (by decide)
    rwa [Nat.cast_zero] at exact
  simp [aboveZero, zero]

variable (limit : Number)

theorem requestAnchor_first (parameter : CursorParameter) :
    requestAnchor platform secret (requestHash platform filters)
        (nextRequest parameter filters limit none) = .ok ⟨none, false, false⟩ := by
  have noAnchor : aboveZero (tokenNumber (.number (some (.ofRat 0)))) = false := zero_not_above
  cases parameter with
  | after => simp [requestAnchor, nextRequest, present, noAnchor]
  | cursor => simp [requestAnchor, nextRequest, present, noAnchor]

include small in
theorem requestAnchor_next (parameter : CursorParameter) :
    requestAnchor platform secret (requestHash platform filters)
        (nextRequest parameter filters limit
          (some (cursorOf platform secret filters .forward row))) =
      .ok ⟨some (some (.ofRat row.seq)), false, true⟩ := by
  obtain ⟨there, notLegacy⟩ := present_cursorOf platform secret filters .forward row
  have decoded := decodeAnchor_cursorOf platform secret filters small .forward
  have absent : present none = none := rfl
  cases parameter with
  | after => simp [requestAnchor, nextRequest, there, absent, notLegacy, decoded, Except.map]
  | cursor => simp [requestAnchor, nextRequest, there, absent, notLegacy, decoded, Except.map]

include small in
theorem requestAnchor_previous :
    requestAnchor platform secret (requestHash platform filters)
        (previousRequest filters limit (cursorOf platform secret filters .backward row)) =
      .ok ⟨some (some (.ofRat row.seq)), true, true⟩ := by
  have there := (present_cursorOf platform secret filters .backward row).1
  have decoded := decodeAnchor_cursorOf platform secret filters small .backward
  simp [requestAnchor, previousRequest, there, decoded, Except.map]

end Cursors

/-! ### Pages of a table -/

section Answers

variable {platform : Platform} {secret : JsString} {table : EventTable} {filters : EventFilters}
  {limit : Number} {count : Nat}

theorem getEventsCursor_eq {request : PageRequest} {seq : Option Number} {anchorSeq : Option Int}
    {isBackward hasAnchor : Bool} {rows : List EventRow} (filtered : request.filters = filters)
    (whole : pageLimit? request.limit = some count)
    (anchored : requestAnchor platform secret (requestHash platform filters) request =
      .ok ⟨seq, isBackward, hasAnchor⟩)
    (param : anchorParam seq = .ok anchorSeq)
    (selected : selectRows table filters isBackward anchorSeq (count + 1) = rows) :
    getEventsCursor platform secret table request =
      .ok (formatPageResponse platform (rows.map PageRow.read) (decide (count < rows.length))
        isBackward hasAnchor extractTuple (requestHash platform filters) secret) := by
  subst filtered selected
  have queried := @queryRows_eq table request.filters ⟨seq, isBackward, hasAnchor⟩ _ _ _ whole param
  simp only [getEventsCursor, anchored, queried]

theorem startCursor_eq {request : PageRequest} {page : PageResponse PageRow}
    (answer : getEventsCursor platform secret table request = .ok page) :
    page.pageInfo.startCursor = page.data.head?.map fun row =>
      encodeCursor platform (extractTuple row) (requestHash platform request.filters) secret
        .backward := by
  unfold getEventsCursor at answer
  simp only at answer
  split at answer
  next => cases answer
  next =>
    split at answer
    next => cases answer
    next =>
      cases answer
      rfl

/-- A page of what comes after the rows `before`. -/
structure IsNext (platform : Platform) (secret : JsString) (filters : EventFilters) (count : Nat)
    (before after : List EventRow) (page : PageResponse PageRow) : Prop where
  data : page.data = (after.take count).map PageRow.read
  hasNext : page.pageInfo.hasNext = true ↔ count < after.length
  hasPrevious : page.pageInfo.hasPrevious = true ↔ before ≠ []
  nextCursor : page.nextCursor =
    if count < after.length then
      (after.take count).getLast?.map (cursorOf platform secret filters .forward)
    else none

theorem isNext_format {before after : List EventRow} {hasAnchor : Bool} (positive : 0 < count)
    (reached : before ≠ [] → after ≠ []) (anchored : hasAnchor = true ↔ before ≠ []) :
    IsNext platform secret filters count before after (formatPageResponse platform
      ((after.take (count + 1)).map PageRow.read)
      (decide (count < (after.take (count + 1)).length)) false hasAnchor extractTuple
      (requestHash platform filters) secret) := by
  have extra : decide (count < (after.take (count + 1)).length) = decide (count < after.length) :=
    decide_eq_decide.mpr (length_take_succ after count)
  have shown : (if decide (count < after.length) then (after.take (count + 1)).dropLast
      else after.take (count + 1)) = after.take count := trimRows_forward after count
  obtain ⟨rows, next, nextCursor⟩ := formatPageResponse_forward platform secret
    (requestHash platform filters) hasAnchor (decide (count < after.length)) PageRow.read
    extractTuple (after.take (count + 1))
  rw [shown] at rows next nextCursor
  rw [extra]
  refine ⟨rows, ?_, ?_, ?_⟩
  · rw [next, Bool.and_eq_true, decide_eq_true_iff, and_iff_right_iff_imp]
    intro more
    have some : after.take count ≠ [] := by
      rw [ne_eq, List.take_eq_nil_iff, not_or]
      exact ⟨positive.ne', List.ne_nil_of_length_pos (Nat.zero_lt_of_lt more)⟩
    rwa [Bool.not_eq_true', List.isEmpty_eq_false_iff]
  · simp only [formatPageResponse] at rows
    simp only [formatPageResponse, rows, Bool.false_eq_true, if_false, ← anchored]
    by_cases none : after = []
    · have first : ¬ before ≠ [] := fun some => reached some none
      rw [← anchored] at first
      simp [none, first]
    · simp [none, positive.ne']
  · rw [nextCursor]
    simp only [decide_eq_true_eq]
    rfl

theorem isPrevious_format {before : List EventRow} {hasAnchor : Bool} (positive : 0 < count)
    (nonempty : before ≠ []) :
    IsPrevious count before (formatPageResponse platform
      ((before.reverse.take (count + 1)).map PageRow.read)
      (decide (count < (before.reverse.take (count + 1)).length)) true hasAnchor extractTuple
      (requestHash platform filters) secret) := by
  have extra : (decide (count < (before.reverse.take (count + 1)).length)) =
      decide (count < before.length) := by
    rw [decide_eq_decide, length_take_succ, List.length_reverse]
  have rows : trimRows ((before.reverse.take (count + 1)).map PageRow.read)
      (decide (count < before.length)) true =
        (before.drop (before.length - count)).map PageRow.read := by
    have trimmed := trimRows_backward (before.map PageRow.read) count
    rwa [List.length_map, ← List.map_reverse, ← List.map_take, ← List.map_drop] at trimmed
  have some : ((before.drop (before.length - count)).map PageRow.read).isEmpty = false := by
    have length := List.length_pos_of_ne_nil nonempty
    rw [List.isEmpty_eq_false_iff]
    apply List.ne_nil_of_length_pos
    rw [List.length_map, List.length_drop]
    omega
  rw [extra]
  constructor
  · exact rows
  · simp only [formatPageResponse, rows, some]
    rfl
  · simp only [formatPageResponse, rows, some, if_true, Bool.false_eq_true, if_false,
      decide_eq_true_eq]

theorem previous_answers {before after : List EventRow} {anchor : EventRow}
    (whole : pageLimit? limit = some count)
    (exact : ∀ row ∈ table.rows, row.seq ≤ 2 ^ 53)
    (split : listing table filters = before ++ anchor :: after) (nonempty : before ≠ []) :
    ∃ page, getEventsCursor platform secret table (previousRequest filters limit
        (cursorOf platform secret filters .backward anchor)) = .ok page ∧
      IsPrevious count before page := by
  obtain ⟨-, -, -, positive, -⟩ := pageLimit?_spec whole
  have listed : anchor ∈ table.rows := by
    have member : anchor ∈ listing table filters := by rw [split]; simp
    exact (mem_listing.mp member).1
  have anchored := requestAnchor_previous platform secret filters (exact anchor listed) limit
  have param := anchorParam_ofRat (table.positive anchor listed) (exact anchor listed)
  have selected := selectRows_before split (count + 1)
  exact ⟨_, getEventsCursor_eq rfl whole anchored param selected,
    isPrevious_format positive nonempty⟩

theorem serves (parameter : CursorParameter) (whole : pageLimit? limit = some count)
    (exact : ∀ row ∈ table.rows, row.seq ≤ 2 ^ 53) :
    Serves (fun token =>
        getEventsCursor platform secret table (nextRequest parameter filters limit token))
      PageResponse.nextCursor PageResponse.data PageRow.read
      (cursorOf platform secret filters .forward) count (listing table filters)
      (IsNext platform secret filters count) where
  positive := by
    obtain ⟨-, -, -, positive, -⟩ := pageLimit?_spec whole
    exact positive
  data_eq := fun page => page.data
  next_eq := fun page => page.nextCursor
  answers := by
    obtain ⟨-, -, -, positive, -⟩ := pageLimit?_spec whole
    intro before after split reached
    rcases before.eq_nil_or_concat with rfl | ⟨earlier, anchor, rfl⟩
    · have anchored := requestAnchor_first platform secret filters limit parameter
      have selected := @selectRows_first table filters (count + 1)
      rw [← split, List.nil_append] at selected
      exact ⟨_, getEventsCursor_eq rfl whole anchored rfl selected,
        isNext_format positive reached (by simp)⟩
    · rw [List.concat_eq_append, List.append_assoc, List.singleton_append] at split
      have listed : anchor ∈ table.rows := by
        have member : anchor ∈ listing table filters := by rw [← split]; simp
        exact (mem_listing.mp member).1
      have anchored :=
        requestAnchor_next platform secret filters (exact anchor listed) limit parameter
      have param := anchorParam_ofRat (table.positive anchor listed) (exact anchor listed)
      have selected := selectRows_after split.symm (count + 1)
      have last : (earlier.concat anchor).getLast? = some anchor := by simp
      rw [last, Option.map_some]
      exact ⟨_, getEventsCursor_eq rfl whole anchored param selected,
        isNext_format positive reached (by simp)⟩

theorem previous_rows {rows : List EventRow} {index : Nat}
    (below : (index + 1) * count < rows.length) :
    (rows.take ((index + 1) * count)).drop ((rows.take ((index + 1) * count)).length - count) =
      (rows.drop (index * count)).take count := by
  have place : (rows.take ((index + 1) * count)).length - count = index * count := by
    rw [List.length_take_of_le below.le, Nat.succ_mul, Nat.add_sub_cancel]
  rw [place, List.drop_take, Nat.succ_mul, Nat.add_sub_cancel_left]

theorem goesBackFrom (whole : pageLimit? limit = some count)
    (exact : ∀ row ∈ table.rows, row.seq ≤ 2 ^ 53) {request : PageRequest}
    {later : PageResponse PageRow} {startCursor : JsString} {before after : List EventRow}
    {anchor : EventRow} (filtered : request.filters = filters)
    (answer : getEventsCursor platform secret table request = .ok later)
    (start : later.pageInfo.startCursor = some startCursor)
    (first : later.data.head? = some (PageRow.read anchor))
    (split : listing table filters = before ++ anchor :: after) (nonempty : before ≠ []) :
    ∃ earlier, getEventsCursor platform secret table
        (previousRequest filters limit startCursor) = .ok earlier ∧
      IsPrevious count before earlier := by
  have cursor := startCursor_eq answer
  rw [start, first, filtered, Option.map_some, Option.some.injEq] at cursor
  subst cursor
  exact previous_answers whole exact split nonempty

theorem eachOnce_listing (exact : ∀ row ∈ table.rows, row.seq ≤ 2 ^ 53) :
    EachOnce table filters ((listing table filters).map PageRow.read) where
  falls := by
    rw [List.pairwise_map]
    refine listing_falls.imp_of_mem fun {first second} firstListed secondListed falls => ?_
    have firstSmall := exact first (mem_listing.mp firstListed).1
    have secondSmall := exact second (mem_listing.mp secondListed).1
    show (JsNumber.ofRat second.seq).value < (JsNumber.ofRat first.seq).value
    rw [ofRat_natCast_value firstSmall, ofRat_natCast_value secondSmall]
    exact Nat.cast_lt.mpr falls
  mem_iff := by
    intro row
    rw [List.mem_map]
    constructor
    · rintro ⟨stored, listed, rfl⟩
      exact ⟨stored, (mem_listing.mp listed).1, (mem_listing.mp listed).2, rfl⟩
    · rintro ⟨stored, listed, selected, rfl⟩
      exact ⟨stored, mem_listing.mpr ⟨listed, selected⟩, rfl⟩

end Answers

section Claims

variable (platform : Platform) (secret : JsString) (table : EventTable) (filters : EventFilters)
  {limit : Number} {count : Nat}

end Claims

/-! ### Keys that are no numbers -/

def cursorSecret : JsString := js "soroban-smart-block-cursor-secret-key-32chars!"

/-- The text that is signed for the row `seq`. -/
def signedText (seq letter : String) : List UInt8 :=
  Utf8.encode ("\x7b\"v\":1,\"t\":[" ++ seq ++ "],\"fh\":\"44136fa355b3678a\",\"d\":\"" ++ letter ++
    "\"\x7d").toList

def digest (digits : String) : Vector UInt8 32 :=
  Vector.ofFn fun index => (Hex.decode digits.toList).getD index 0

def recordedPlatform : Platform where
  sha256 := fun bytes =>
    if bytes = Utf8.encode "\x7b\x7d".toList then
      digest "44136fa355b3678a1146ad16f7e8649e94fb4fc21fe77e8310c060f61caaff8a"
    else digest ""
  hmacSha256 := fun _ bytes =>
    if bytes = signedText "9007199254740992" "f" then
      digest "2df11241959f4eae006abc79173db24b8829ccb7d3113336f498094768e1c26c"
    else if bytes = signedText "9007199254740992" "b" then
      digest "18dd41b03a0d9ead272eb0c71913a6d3176d586cf233635d21084a6a848e68f6"
    else if bytes = signedText "5" "f" then
      digest "2078965f99fbe334ef4e7b5f825c13d74bcb586353f896fc0619392efa8cc819"
    else if bytes = signedText "5" "b" then
      digest "08c16664688e67dea6ef09c92f23eb9b1b4bf396d4c6efdb5255e1ea09faca58"
    else digest ""
  localeCompare := fun left right => compare left right
  bufferFrom := fun _ => none

def noFilters : EventFilters := ⟨none, none, none⟩

def largestExact : EventRow := ⟨9007199254740992, some ['C'], "burn".toList⟩

def firstInexact : EventRow := ⟨9007199254740993, some ['C'], "mint".toList⟩

def fifth : EventRow := ⟨5, some ['C'], "mint".toList⟩

def exactTable : EventTable where
  rows := [fifth, largestExact]
  positive := by decide
  distinct := by decide

def wideTable : EventTable where
  rows := [fifth, largestExact, firstInexact]
  positive := by decide
  distinct := by decide

theorem largestExact_positive : 0 < largestExact.seq := by
  norm_num [largestExact]

theorem largestExact_small : largestExact.seq ≤ 2 ^ 53 := by
  norm_num [largestExact]

theorem pageLimit?_one : pageLimit? (some (.ofRat 1)) = some 1 := by
  decide +kernel

end SorobanExplorer.Indexer.EventPages
