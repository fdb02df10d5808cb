import SorobanExplorer.Indexer.EventPages
import SorobanExplorer.Library.IsoTime
import SorobanExplorer.Library.LossyPaging
import Mathlib.Data.Char
import Mathlib.Data.List.Lex
import Mathlib.Data.Prod.Lex

/-!
Owns `listContracts`, for calls without a page number, and `listContractsCursor`. The
database orders by `created_at` to the microsecond; the driver, and so a cursor, has the
millisecond below.

`enumerates_iff` says when following the cursors shows every contract that is listed.
-/

namespace SorobanExplorer.Indexer.ContractPages

open Library
open Filters (JsString js JsValue Number maximum minimum)
open Indexer.EventPages (present chosenLimit increment bigint? CursorParameter)

/-! ### The table -/

inductive ModerationStatus where
  | published
  | pending
  | held
  | hidden
  | rejected
deriving DecidableEq

/-- A row of `contracts`; `createdAt` counts microseconds since 1970. -/
structure ContractRow where
  id : List Char
  createdAt : ℤ
  name : List Char
  description : Option (List Char)
  protocolType : Option (List Char)
  moderationStatus : ModerationStatus
deriving DecidableEq

/-- The rows of `contracts`, whose primary key is `id` and whose `created_at` is the time of
their insertion, and the `contract_id`s of `source_verifications`. -/
structure ContractTable where
  rows : List ContractRow
  distinct : (rows.map ContractRow.id).Nodup
  noNul : ∀ row ∈ rows, Char.ofNat 0 ∉ row.id
  years : ∀ row ∈ rows, IsoTime.FourDigits (row.createdAt / 1000)
  sourceVerifications : List (List Char)

/-- A row as the driver hands it over: `createdAt` is the time of a `Date`. -/
structure PageRow where
  id : List Char
  createdAt : ℤ
  name : List Char
  description : Option (List Char)
  protocolType : Option (List Char)
deriving DecidableEq

def PageRow.read (row : ContractRow) : PageRow where
  id := row.id
  createdAt := row.createdAt / 1000
  name := row.name
  description := row.description
  protocolType := row.protocolType

/-- `created_at.toISOString()` -/
def PageRow.createdAtText (row : PageRow) : JsString :=
  Utf16.encode (IsoTime.toISOString row.createdAt)

/-- The database: the collation of its texts, its operators on them and how it reads
parameters, where `none` is an error; and `Date.parse`. -/
structure Services (ι : Type) [LinearOrder ι] where
  collate : List Char → ι
  ilike : List Char → List Char → Bool
  lower : List Char → List Char
  timestamptz? : JsValue → Option ℤ
  text? : JsValue → Option (List Char)
  parseDate : JsValue → Option ℤ
  collate_injective : Function.Injective collate
  timestamptz?_iso : ∀ time, IsoTime.FourDigits time →
    timestamptz? (.string (Utf16.encode (IsoTime.toISOString time))) = some (1000 * time)
  text?_string : ∀ chars, Char.ofNat 0 ∉ chars → text? (.string (Utf16.encode chars)) = some chars
  parseDate_iso : ∀ time, IsoTime.FourDigits time →
    parseDate (.string (Utf16.encode (IsoTime.toISOString time))) = some time

section Model

variable {ι : Type} [LinearOrder ι] (services : Services ι) (table : ContractTable)

def key (row : ContractRow) : ℤ ×ₗ ι := toLex (row.createdAt, services.collate row.id)

def cut (row : ContractRow) : ℤ ×ₗ ι :=
  toLex (1000 * (row.createdAt / 1000), services.collate row.id)

/-! ### Filters -/

/-- `none` is `undefined`. -/
structure ContractFilters where
  type : Option (List Char)
  q : Option (List Char)

def given (text : Option (List Char)) : Option (List Char) := text.filter (· ≠ [])

/-- `name ILIKE $1 OR description ILIKE $1` -/
def mentions (pattern : List Char) (row : ContractRow) : Bool :=
  services.ilike row.name pattern ||
    row.description.any fun description => services.ilike description pattern

/-- `id IN (SELECT DISTINCT contract_id FROM source_verifications)` -/
def isVerified (row : ContractRow) : Bool := table.sourceVerifications.contains row.id

namespace ListContracts

/-- `%${q}%` -/
def pattern (q : List Char) : List Char := '%' :: q ++ ['%']

def chosenType (filters : ContractFilters) : Option (List Char) :=
  (given filters.type).filter (· ≠ "all".toList)

def typeMatches (filters : ContractFilters) (row : ContractRow) : Bool :=
  (chosenType filters).all fun type =>
    if type = "verified".toList then isVerified table row
    else row.protocolType = some type || services.lower (row.protocolType.getD []) = type

/-- `filterConditions` -/
def matchesFilters (filters : ContractFilters) (row : ContractRow) : Bool :=
  (row.moderationStatus = .published || row.moderationStatus = .pending) &&
    (given filters.q).all (fun q => mentions services (pattern q) row) &&
      typeMatches services table filters row

/-- `filterParams` -/
def filterParams (filters : ContractFilters) : List (List Char) :=
  ((given filters.q).map pattern).toList ++
    ((chosenType filters).filter (· ≠ "verified".toList)).toList

end ListContracts

namespace ListContractsCursor

/-- `%${q.replace(/([%_\\])/g, "\\$1")}%` -/
def pattern (q : List Char) : List Char :=
  '%' :: (q.flatMap fun char =>
    if char = '%' ∨ char = '_' ∨ char = '\\' then ['\\', char] else [char]) ++ ['%']

def typeMatches (filters : ContractFilters) (row : ContractRow) : Bool :=
  (given filters.type).all fun type =>
    if type = "verified".toList then isVerified table row else row.protocolType = some type

def matchesFilters (filters : ContractFilters) (row : ContractRow) : Bool :=
  typeMatches table filters row &&
    (given filters.q).all fun q => mentions services (pattern q) row

def filterParams (filters : ContractFilters) : List (List Char) :=
  ((given filters.type).filter (· ≠ "verified".toList)).toList ++
    ((given filters.q).map pattern).toList

end ListContractsCursor

def Sendable (params : List (List Char)) : Prop := ∀ param ∈ params, Char.ofNat 0 ∉ param

instance (params : List (List Char)) : Decidable (Sendable params) :=
  inferInstanceAs (Decidable (∀ param ∈ params, _))

/-! ### Queries -/

inductive ContractsError where
  | cursor (error : CursorError)
  | invalidContractsCursor
  | typeError
  | database
deriving DecidableEq

structure Anchor where
  createdAt : JsValue
  id : JsValue
  isBackward : Bool

/-- A parameter; `undefined` and `null` are sent as null. -/
def nullable {α : Type} (read : JsValue → Option α) (value : JsValue) : Option (Option α) :=
  if isNullish value then some none else (read value).map some

/-- `(created_at, id) < ($1, $2)`, or `>`. Rows of which the first values differ are
compared by them, so that the second may be null. -/
def besideAnchor (isBackward : Bool) (createdAt : Option ℤ) (id : Option (List Char))
    (row : ContractRow) : Bool :=
  match createdAt, id with
  | none, _ => false
  | some time, none => if isBackward then time < row.createdAt else row.createdAt < time
  | some time, some id =>
    if isBackward then toLex (time, services.collate id) < key services row
    else key services row < toLex (time, services.collate id)

def anchorCondition (anchor : Option Anchor) : Except ContractsError (ContractRow → Bool) :=
  match anchor with
  | none => .ok fun _ => true
  | some anchor =>
    match nullable services.timestamptz? anchor.createdAt, nullable services.text? anchor.id with
    | some createdAt, some id => .ok (besideAnchor services anchor.isBackward createdAt id)
    | _, _ => .error .database

/-- `SELECT … WHERE … ORDER BY created_at …, id … LIMIT` -/
def selectRows (selected : ContractRow → Bool) (isBackward : Bool) (count : ℕ) :
    List ContractRow :=
  let rows := table.rows.filter selected
  ((if isBackward then rising (key services) rows else falling (key services) rows).take count)

def queryRows (params : List (List Char)) (selected : ContractRow → Bool)
    (anchor : Option Anchor) (isBackward : Bool) (count : ℕ) :
    Except ContractsError (List ContractRow) :=
  if Sendable params then
    (anchorCondition services anchor).map fun beside =>
      selectRows services table (fun row => selected row && beside row) isBackward count
  else .error .database

/-! ### `listContracts` -/

namespace ListContracts

structure ContractsRequest where
  filters : ContractFilters
  limit : Number
  cursor : Option Token
  after : Option Token
  before : Option Token

/-- `Math.min(Math.max(1, Number(limit) || 25), 100)` -/
def safeLimit (limit : Number) : Number :=
  minimum (maximum (some (.ofRat 1)) (some (chosenLimit limit))) (some (.ofRat 100))

def requestHash (platform : Platform) (filters : ContractFilters) : JsString :=
  hashFilters platform [(js "type", filters.type.map Utf16.encode),
    (js "q", filters.q.map Utf16.encode)]

/-- `decoded.tuple[index]` -/
def tupleAt (decoded : DecodedCursor) (index : ℕ) : JsValue :=
  (decoded.tuple[index]?.map JsValue.ofJson).getD .undefined

def decodeAnchor (platform : Platform) (secret filterHash : JsString) (token : Token) :
    Except ContractsError Anchor :=
  match decodeCursor platform token filterHash secret with
  | .ok decoded => .ok ⟨tupleAt decoded 0, tupleAt decoded 1, decoded.direction = .backward⟩
  | .error error => .error (.cursor error)

def requestAnchor (platform : Platform) (secret filterHash : JsString)
    (request : ContractsRequest) : Except ContractsError (Option Anchor) :=
  match present request.before with
  | some token =>
    (decodeAnchor platform secret filterHash token).map fun anchor =>
      some { anchor with isBackward := true }
  | none =>
    match present request.after <|> present request.cursor with
    | some token => (decodeAnchor platform secret filterHash token).map some
    | none => .ok none

/-- `anchorCreatedAt !== null && anchorId !== null` -/
def isAnchored (anchor : Anchor) : Bool :=
  match anchor.createdAt, anchor.id with
  | .null, _ | _, .null => false
  | _, _ => true

def extractTuple (row : PageRow) : List Json :=
  [.string row.createdAtText, .string (Utf16.encode row.id)]

def listContracts (platform : Platform) (secret : JsString) (request : ContractsRequest) :
    Except ContractsError (PageResponse PageRow) :=
  let filterHash := requestHash platform request.filters
  match requestAnchor platform secret filterHash request, safeLimit request.limit with
  | .error error, _ => .error error
  | .ok _, none => .error .database
  | .ok anchor, some safeLimit =>
    match bigint? (increment safeLimit) with
    | none => .error .database
    | some count =>
      let isBackward := anchor.any Anchor.isBackward
      match queryRows services table (filterParams request.filters)
          (matchesFilters services table request.filters) (anchor.filter isAnchored)
          isBackward count.toNat with
      | .error error => .error error
      | .ok rows =>
        .ok (formatPageResponse platform (rows.map PageRow.read)
          (decide (safeLimit.value < rows.length)) isBackward anchor.isSome extractTuple
          filterHash secret)

/-- The first request, or the one with a page's `next_cursor`. -/
def nextRequest (parameter : CursorParameter) (filters : ContractFilters) (limit : Number)
    (nextCursor : Option JsString) : ContractsRequest where
  filters := filters
  limit := limit
  cursor := match parameter with
    | .after => none
    | .cursor => nextCursor.map Token.text
  after := match parameter with
    | .after => nextCursor.map Token.text
    | .cursor => none
  before := none

/-- How many rows a page shows of those that are left, if the query reads `fetched` at
most. -/
def shownOf (safeLimit : JsNumber) (fetched left : ℕ) : ℕ :=
  if safeLimit.value < (min fetched left : ℕ) then min fetched left - 1 else min fetched left

/-- How many rows the pages show; `none` if the database refuses the limit. -/
def pageSize? (limit : Number) : Option (ℕ → ℕ) :=
  (safeLimit limit).bind fun number =>
    (bigint? (increment number)).map fun fetched => shownOf number fetched.toNat

end ListContracts

/-! ### `listContractsCursor` -/

namespace ListContractsCursor

structure ContractsPage where
  data : List PageRow
  nextCursor : Option JsString

/-- `JSON.parse(Buffer.from(after, "base64url").toString("utf8"))` and the checks on it. -/
def openCursor (after : Token) : Except ContractsError Anchor :=
  match after with
  | .number _ => .error .invalidContractsCursor
  | .text units =>
    if 512 < units.length then .error .invalidContractsCursor
    else
      match parseCursor? units with
      | none => .error .invalidContractsCursor
      | some .null => .error .typeError
      | some cursor =>
        let createdAt := (JsValue.ofJson cursor).get (js "created_at")
        let id := (JsValue.ofJson cursor).get (js "id")
        if truthy createdAt && (services.parseDate createdAt).isSome && truthy id then
          .ok ⟨createdAt, id, false⟩
        else .error .invalidContractsCursor

def requestAnchor (after : Option Token) : Except ContractsError (Option Anchor) :=
  match present after with
  | none => .ok none
  | some token => (openCursor services token).map some

/-- The `base64url` letters of `JSON.stringify({ created_at: last.created_at, id: last.id })`. -/
def encodeLast (last : PageRow) : JsString :=
  Utf16.encode (Base64url.encode (utf8 (Json.stringify (.object
    [(js "created_at", .string last.createdAtText), (js "id", .string (Utf16.encode last.id))]))))

def listContractsCursor (filters : ContractFilters) (limit : ℕ) (after : Option Token) :
    Except ContractsError ContractsPage :=
  match requestAnchor services after with
  | .error error => .error error
  | .ok anchor =>
    match queryRows services table (filterParams filters) (matchesFilters services table filters)
        anchor false (limit + 1) with
    | .error error => .error error
    | .ok rows =>
      let hasMore := decide (limit < rows.length)
      let data := (if hasMore then rows.take limit else rows).map PageRow.read
      .ok ⟨data, if hasMore then data.getLast?.map encodeLast else none⟩

end ListContractsCursor

/-! ### The rows of a page -/

def listing (selected : ContractRow → Bool) : List ContractRow :=
  falling (key services) (table.rows.filter selected)

section Rows

variable {services table} {selected : ContractRow → Bool}

theorem key_distinct : (table.rows.map (key services)).Nodup := by
  have apart := List.pairwise_map.mp table.distinct
  refine List.pairwise_map.mpr (apart.imp fun {first second} differs same => differs ?_)
  exact services.collate_injective (congrArg (fun key => (ofLex key).2) same)

theorem selected_distinct : ((table.rows.filter selected).map (key services)).Nodup :=
  key_distinct.sublist (List.filter_sublist.map _)

theorem listing_falls : StrictlyFalls (key services) (listing services table selected) :=
  strictlyFalls_falling selected_distinct

theorem mem_listing {row : ContractRow} :
    row ∈ listing services table selected ↔ row ∈ table.rows ∧ selected row = true := by
  rw [listing, mem_falling, List.mem_filter]

theorem cut_le (row : ContractRow) : cut services row ≤ key services row := by
  rw [cut, key, Prod.Lex.le_iff]
  have least : 1000 * (row.createdAt / 1000) ≤ row.createdAt := Int.mul_ediv_self_le (by decide)
  rcases least.lt_or_eq with less | same
  · exact Or.inl less
  · exact Or.inr ⟨same, le_refl _⟩

theorem selectRows_forward (beside : ContractRow → Bool) (count : ℕ) :
    selectRows services table (fun row => selected row && beside row) false count =
      ((listing services table selected).filter beside).take count := by
  have split : (table.rows.filter fun row => selected row && beside row) =
      (table.rows.filter selected).filter beside := by
    rw [List.filter_filter]
    exact List.filter_congr fun row _ => Bool.and_comm _ _
  show (falling (key services) _).take count = _
  rw [split, falling_filter selected_distinct, listing]

theorem anchorCondition_row {row : ContractRow} (listed : row ∈ table.rows) :
    anchorCondition services (some ⟨.string (PageRow.read row).createdAtText,
        .string (Utf16.encode row.id), false⟩) =
      .ok fun other => key services other < cut services row := by
  have time := services.timestamptz?_iso _ (table.years row listed)
  have id := services.text?_string _ (table.noNul row listed)
  have createdAt : nullable services.timestamptz? (.string (PageRow.read row).createdAtText) =
      some (some (1000 * (row.createdAt / 1000))) := congrArg (Option.map some) time
  have name : nullable services.text? (.string (Utf16.encode row.id)) = some (some row.id) :=
    congrArg (Option.map some) id
  rw [anchorCondition]
  simp only [createdAt, name]
  rfl

variable {params : List (List Char)}

theorem queryRows_first (sendable : Sendable params) (count : ℕ) :
    queryRows services table params selected none false count =
      .ok ((listing services table selected).take count) := by
  have all := @selectRows_forward ι _ services table selected (fun _ => true) count
  rw [List.filter_eq_self.mpr fun _ _ => rfl] at all
  rw [queryRows, if_pos sendable, ← all]
  rfl

theorem queryRows_after (sendable : Sendable params) {row : ContractRow}
    (listed : row ∈ table.rows) (count : ℕ) :
    queryRows services table params selected (some ⟨.string (PageRow.read row).createdAtText,
        .string (Utf16.encode row.id), false⟩) false count =
      .ok ((below (key services) (cut services row)
        (listing services table selected)).take count) := by
  rw [queryRows, if_pos sendable, anchorCondition_row listed, below, ← selectRows_forward]
  rfl

theorem queryRows_unsendable (unsendable : ¬ Sendable params) (anchor : Option Anchor)
    (isBackward : Bool) (count : ℕ) :
    queryRows services table params selected anchor isBackward count = .error .database :=
  if_neg unsendable

end Rows

/-! ### Pages of `listContracts` -/

namespace ListContracts

section Answers

variable {services table} (platform : Platform) (secret : JsString) (parameter : CursorParameter)
  (filters : ContractFilters) {limit : Number} {count : ℕ}

def cursorOf (row : ContractRow) : JsString :=
  encodeCursor platform (extractTuple (PageRow.read row)) (requestHash platform filters) secret
    .forward

theorem safeLimit_spec {number : JsNumber} (safe : safeLimit limit = some number) :
    1 ≤ number.value ∧ number.value ≤ 100 := by
  have clamped := @EventPages.clamped_spec limit number 100 (by decide) (by decide)
  rw [Nat.cast_ofNat] at clamped
  exact clamped safe

theorem lt_fetched {number : JsNumber} {fetched : ℤ} (least : 1 ≤ number.value)
    (most : number.value ≤ 100) (reads : bigint? (increment number) = some fetched) :
    number.value < fetched := by
  have floor := Int.lt_floor_add_one number.value
  have positive : 0 ≤ ⌊number.value⌋ := Int.floor_nonneg.mpr (by linarith)
  have small : ⌊number.value⌋ ≤ 100 := by
    have below : (⌊number.value⌋ : ℚ) ≤ 100 := (Int.floor_le _).trans most
    exact_mod_cast below
  obtain ⟨whole, isWhole⟩ := Int.eq_ofNat_of_zero_le positive
  rw [isWhole] at floor small
  have exact := @EventPages.ofRat_natCast_value (whole + 1) (by omega)
  have grows : (JsNumber.ofRat ((whole + 1 : ℕ) : ℚ)).value ≤ (increment number).value := by
    apply Binary64.round_mono
    have below := Int.floor_le number.value
    rw [isWhole] at below
    push_cast at below ⊢
    linarith
  rw [bigint?, Option.ite_none_right_eq_some, Option.some.injEq] at reads
  obtain ⟨⟨integral, -, -⟩, rfl⟩ := reads
  have value := (Rat.den_eq_one_iff _).mp integral
  rw [value]
  rw [exact] at grows
  push_cast at grows floor
  linarith

theorem settled_extractTuple (row : PageRow) : Settled (extractTuple row) where
  printed := ⟨trivial, trivial, trivial⟩
  built := rfl

theorem requestAnchor_first :
    requestAnchor platform secret (requestHash platform filters)
      (nextRequest parameter filters limit none) = .ok none := by
  cases parameter <;> rfl

theorem requestAnchor_next (row : ContractRow) :
    requestAnchor platform secret (requestHash platform filters)
        (nextRequest parameter filters limit (some (cursorOf platform secret filters row))) =
      .ok (some ⟨.string (PageRow.read row).createdAtText, .string (Utf16.encode row.id),
        false⟩) := by
  have there : present (some (.text (cursorOf platform secret filters row))) =
      some (.text (cursorOf platform secret filters row)) := by
    obtain ⟨rest, begins⟩ := encodeCursor_cons platform (requestHash platform filters) secret
      .forward (extractTuple (PageRow.read row))
    rw [cursorOf, begins]
    rfl
  have decoded : decodeAnchor platform secret (requestHash platform filters)
      (.text (cursorOf platform secret filters row)) =
        .ok ⟨.string (PageRow.read row).createdAtText, .string (Utf16.encode row.id), false⟩ := by
    rw [decodeAnchor, cursorOf, decodeCursor_encodeCursor platform _ secret .forward
      (settled_extractTuple _)]
    rfl
  have absent : present none = none := rfl
  cases parameter with
  | after => simp [requestAnchor, nextRequest, there, absent, decoded, Except.map]
  | cursor => simp [requestAnchor, nextRequest, there, absent, decoded, Except.map]

theorem extra_iff {number : JsNumber} {fetched : ℕ} (least : 1 ≤ number.value)
    (more : number.value < fetched) (left : ℕ) :
    number.value < (min fetched left : ℕ) ↔ shownOf number fetched left < left := by
  rw [shownOf]
  split_ifs with extra
  · have positive : 1 < min fetched left := by exact_mod_cast least.trans_lt extra
    simp only [extra, true_iff]
    omega
  · simp only [extra, false_iff, not_lt]
    by_contra fewer
    have all : min fetched left = fetched := by omega
    rw [all] at extra
    exact extra more

theorem isPage_format {number : JsNumber} {fetched : ℕ} (least : 1 ≤ number.value)
    (more : number.value < fetched) (hasAnchor : Bool) (rows : List ContractRow) :
    IsPage PageResponse.nextCursor PageResponse.data PageRow.read (cursorOf platform secret filters)
      (shownOf number fetched) rows (formatPageResponse platform
        ((rows.take fetched).map PageRow.read)
        (decide (number.value < (rows.take fetched).length)) false hasAnchor extractTuple
        (requestHash platform filters) secret) := by
  obtain ⟨data, -, next⟩ := EventPages.formatPageResponse_forward platform secret
    (requestHash platform filters) hasAnchor
    (decide (number.value < (rows.take fetched).length)) PageRow.read extractTuple
    (rows.take fetched)
  have shown : (if decide (number.value < (rows.take fetched).length) then
      (rows.take fetched).dropLast else rows.take fetched) =
        rows.take (shownOf number fetched rows.length) := by
    rw [List.dropLast_eq_take, List.take_take, List.length_take, shownOf]
    simp only [decide_eq_true_eq]
    split_ifs with extra
    · congr 1
      omega
    · rw [List.take_eq_take_iff]
      omega
  rw [shown] at data next
  refine ⟨data, next.trans ?_⟩
  simp only [List.length_take, decide_eq_true_eq]
  exact if_congr (extra_iff least more rows.length) rfl rfl

theorem listContracts_eq {shown : ℕ → ℕ} (size : pageSize? limit = some shown)
    {token : Option JsString} {anchor : Option Anchor} {rows : List ContractRow}
    (anchored : requestAnchor platform secret (requestHash platform filters)
      (nextRequest parameter filters limit token) = .ok anchor)
    (forward : anchor.any Anchor.isBackward = false)
    (selected : ∀ count, queryRows services table (filterParams filters)
      (matchesFilters services table filters) (anchor.filter isAnchored) false count =
        .ok (rows.take count)) :
    ∃ page, listContracts services table platform secret
        (nextRequest parameter filters limit token) = .ok page ∧
      IsPage PageResponse.nextCursor PageResponse.data PageRow.read
        (cursorOf platform secret filters) shown rows page := by
  obtain ⟨number, safe, sized⟩ := Option.bind_eq_some_iff.mp size
  obtain ⟨fetched, reads, rfl⟩ := Option.map_eq_some_iff.mp sized
  obtain ⟨least, most⟩ := safeLimit_spec safe
  have more := lt_fetched least most reads
  have natural : ((fetched.toNat : ℕ) : ℤ) = fetched := by
    apply Int.toNat_of_nonneg
    have positive : (0 : ℚ) < fetched := by linarith
    exact_mod_cast positive.le
  rw [← natural, Int.cast_natCast] at more
  refine ⟨_, ?_, isPage_format platform secret filters least more anchor.isSome rows⟩
  simp only [listContracts, nextRequest] at anchored ⊢
  simp only [anchored, safe, reads, forward, selected]

theorem serves {shown : ℕ → ℕ} (size : pageSize? limit = some shown)
    (sendable : Sendable (filterParams filters)) :
    ServesBelow (fun token => listContracts services table platform secret
        (nextRequest parameter filters limit token))
      PageResponse.nextCursor PageResponse.data PageRow.read (cursorOf platform secret filters)
      shown (listing services table (matchesFilters services table filters)) (key services)
      (cut services) (fun _ => True) where
  falls := listing_falls
  cut_le := cut_le
  first := listContracts_eq platform secret parameter filters size
    (requestAnchor_first platform secret parameter filters) rfl (queryRows_first sendable)
  later := by
    intro row listed _
    exact listContracts_eq platform secret parameter filters size
      (requestAnchor_next platform secret parameter filters row) rfl
      (queryRows_after sendable (mem_listing.mp listed).1)
  refused := by
    intro row listed refused
    exact absurd trivial refused

theorem answered_spec {token : Option JsString} {page : PageResponse PageRow}
    (answer : listContracts services table platform secret
      (nextRequest parameter filters limit token) = .ok page) :
    Sendable (filterParams filters) ∧ ∃ shown, pageSize? limit = some shown := by
  simp only [listContracts, nextRequest] at answer
  split at answer
  next => cases answer
  next => cases answer
  next number _ safe =>
    split at answer
    next => cases answer
    next fetched reads =>
      refine ⟨?_, shownOf number fetched.toNat, ?_⟩
      · by_contra unsendable
        rw [queryRows_unsendable unsendable] at answer
        cases answer
      · rw [pageSize?, safe, Option.bind_some, reads, Option.map_some]

end Answers

end ListContracts

/-! ### Pages of `listContractsCursor` -/

namespace ListContractsCursor

section Answers

variable {services table} {filters : ContractFilters} {limit : ℕ}

def Accepted (row : ContractRow) : Prop :=
  row.id ≠ [] ∧ (encodeLast (PageRow.read row)).length ≤ 512

def lastObject (last : PageRow) : Json :=
  .object [(js "created_at", .string last.createdAtText), (js "id", .string (Utf16.encode last.id))]

theorem parseCursor?_encodeLast (last : PageRow) :
    parseCursor? (encodeLast last) = some (lastObject last) := by
  have printed : (lastObject last).Printed := ⟨trivial, trivial, trivial⟩
  obtain ⟨text, written, reads⟩ := Json.parse?_stringify printed
  have fixed : built (lastObject last) = lastObject last := by
    apply built_object
    · rfl
    · simp only [List.map_cons, List.map_nil]
      decide
    · simp only [List.forall_mem_cons]
      decide
  rw [parseCursor?, encodeLast, ← lastObject, written, utf8_encode, Utf16.decode_encode,
    Base64url.decode_encode, Utf8.decode_encode, reads, Option.map_some, fixed]

theorem present_encodeLast (last : PageRow) :
    present (some (.text (encodeLast last))) = some (.text (encodeLast last)) := by
  obtain ⟨rest, begins⟩ := encodeObject_cons
    [(js "created_at", .string last.createdAtText), (js "id", .string (Utf16.encode last.id))]
  rw [encodeLast, begins]
  rfl

theorem truthy_string {units : JsString} (nonempty : units ≠ []) :
    truthy (.string units) = true := by
  rwa [truthy, Bool.not_eq_true', List.isEmpty_eq_false_iff]

theorem requestAnchor_encodeLast (last : PageRow) :
    requestAnchor services (some (.text (encodeLast last))) =
      (openCursor services (.text (encodeLast last))).map some := by
  rw [requestAnchor, present_encodeLast]

section Opening

variable {row : ContractRow} (listed : row ∈ table.rows)

include listed in
theorem openCursor_encodeLast (short : (encodeLast (PageRow.read row)).length ≤ 512) :
    openCursor services (.text (encodeLast (PageRow.read row))) =
      if truthy (.string (Utf16.encode row.id)) then
        .ok ⟨.string (PageRow.read row).createdAtText, .string (Utf16.encode row.id), false⟩
      else .error .invalidContractsCursor := by
  have date : services.parseDate (.string (PageRow.read row).createdAtText) =
      some (row.createdAt / 1000) := services.parseDate_iso _ (table.years row listed)
  have dated : truthy (.string (PageRow.read row).createdAtText) = true := by
    apply truthy_string
    apply Utf16.encode_ne_nil
    simp [IsoTime.toISOString]
  have createdAt : (JsValue.ofJson (lastObject (PageRow.read row))).get (js "created_at") =
      .string (PageRow.read row).createdAtText := rfl
  have id : (JsValue.ofJson (lastObject (PageRow.read row))).get (js "id") =
      .string (Utf16.encode row.id) := rfl
  rw [openCursor.eq_def]
  simp only [if_neg (not_lt.mpr short), parseCursor?_encodeLast]
  show (if (truthy ((JsValue.ofJson (lastObject (PageRow.read row))).get (js "created_at")) &&
      (services.parseDate ((JsValue.ofJson (lastObject (PageRow.read row))).get
        (js "created_at"))).isSome &&
      truthy ((JsValue.ofJson (lastObject (PageRow.read row))).get (js "id"))) = true then
        Except.ok (Anchor.mk ((JsValue.ofJson (lastObject (PageRow.read row))).get
          (js "created_at")) ((JsValue.ofJson (lastObject (PageRow.read row))).get (js "id")) false)
      else Except.error ContractsError.invalidContractsCursor) = _
  rw [createdAt, id, dated, date, Option.isSome_some, Bool.true_and, Bool.true_and]

include listed in
theorem requestAnchor_accepted (accepted : Accepted row) :
    requestAnchor services (some (.text (encodeLast (PageRow.read row)))) =
      .ok (some ⟨.string (PageRow.read row).createdAtText, .string (Utf16.encode row.id),
        false⟩) := by
  obtain ⟨named, short⟩ := accepted
  rw [requestAnchor_encodeLast, openCursor_encodeLast listed short,
    if_pos (truthy_string (Utf16.encode_ne_nil named))]
  rfl

include listed in
theorem requestAnchor_refused (refused : ¬ Accepted row) :
    requestAnchor services (some (.text (encodeLast (PageRow.read row)))) =
      .error .invalidContractsCursor := by
  rw [requestAnchor_encodeLast]
  by_cases short : (encodeLast (PageRow.read row)).length ≤ 512
  · have unnamed : row.id = [] := by
      by_contra named
      exact refused ⟨named, short⟩
    have empty : ¬ truthy (.string (Utf16.encode row.id)) = true := by
      rw [unnamed]
      decide
    rw [openCursor_encodeLast listed short, if_neg empty]
    rfl
  · rw [openCursor.eq_def]
    simp only [if_pos (not_le.mp short)]
    rfl

end Opening

theorem listContractsCursor_eq {after : Option Token} {anchor : Option Anchor}
    {rows : List ContractRow} (anchored : requestAnchor services after = .ok anchor)
    (selected : ∀ count, queryRows services table (filterParams filters)
      (matchesFilters services table filters) anchor false count = .ok (rows.take count)) :
    ∃ page, listContractsCursor services table filters limit after = .ok page ∧
      IsPage ContractsPage.nextCursor ContractsPage.data PageRow.read
        (fun row => encodeLast (PageRow.read row)) (min limit) rows page := by
  have extra : limit < (rows.take (limit + 1)).length ↔ limit < rows.length :=
    EventPages.length_take_succ rows limit
  have shown : (if limit < rows.length then (rows.take (limit + 1)).take limit
      else rows.take (limit + 1)) = rows.take (min limit rows.length) := by
    rw [List.take_take]
    split_ifs with more
    · congr 1
      omega
    · rw [List.take_eq_take_iff]
      omega
  have left : min limit rows.length < rows.length ↔ limit < rows.length := by omega
  have answer : listContractsCursor services table filters limit after =
      .ok ⟨(rows.take (min limit rows.length)).map PageRow.read,
        if limit < rows.length then
          ((rows.take (min limit rows.length)).map PageRow.read).getLast?.map encodeLast
        else none⟩ := by
    simp only [listContractsCursor, anchored, selected, extra, decide_eq_true_eq, shown]
  refine ⟨_, answer, rfl, ?_⟩
  simp only [left, List.getLast?_map, Option.map_map]
  rfl

theorem serves (sendable : Sendable (filterParams filters)) :
    ServesBelow (fun token => listContractsCursor services table filters limit
        (token.map Token.text))
      ContractsPage.nextCursor ContractsPage.data PageRow.read
      (fun row => encodeLast (PageRow.read row)) (min limit)
      (listing services table (matchesFilters services table filters)) (key services)
      (cut services) Accepted where
  falls := listing_falls
  cut_le := cut_le
  first := listContractsCursor_eq rfl (queryRows_first sendable)
  later := by
    intro row listed accepted
    exact listContractsCursor_eq (requestAnchor_accepted (mem_listing.mp listed).1 accepted)
      (queryRows_after sendable (mem_listing.mp listed).1)
  refused := by
    intro row listed refused page answer
    rw [Option.map_some, listContractsCursor,
      requestAnchor_refused (mem_listing.mp listed).1 refused] at answer
    cases answer

theorem sendable_of_answered {after : Option Token} {page : ContractsPage}
    (answer : listContractsCursor services table filters limit after = .ok page) :
    Sendable (filterParams filters) := by
  by_contra unsendable
  unfold listContractsCursor at answer
  split at answer
  next => cases answer
  next =>
    rw [queryRows_unsendable unsendable] at answer
    cases answer

end Answers

end ListContractsCursor

/-! ### Following -/

/-- The rows are every selected contract once, in descending order of `created_at` and
`id`. -/
def ListsEach (selected : ContractRow → Bool) (rows : List PageRow) : Prop :=
  ∃ shown, rows = shown.map PageRow.read ∧ StrictlyFalls (key services) shown ∧
    ∀ row, row ∈ shown ↔ row ∈ table.rows ∧ selected row = true

theorem listsEach_iff {selected : ContractRow → Bool} {rows : List PageRow} :
    ListsEach services table selected rows ↔
      rows = (listing services table selected).map PageRow.read := by
  constructor
  · rintro ⟨shown, rfl, falls, each⟩
    rw [falls.eq_of_mem_iff listing_falls fun row => (each row).trans mem_listing.symm]
  · rintro rfl
    exact ⟨_, rfl, listing_falls, fun _ => mem_listing⟩

/-- Following `next_cursor` from the first page of `listContracts` until it is null. -/
def ListContracts.Enumerates (platform : Platform) (secret : JsString)
    (parameter : CursorParameter) (filters : ContractFilters) (limit : Number) : Prop :=
  ∃ pages, Follows (fun token => ListContracts.listContracts services table platform secret
      (ListContracts.nextRequest parameter filters limit token)) PageResponse.nextCursor none pages ∧
    ListsEach services table (ListContracts.matchesFilters services table filters)
      (pages.flatMap PageResponse.data)

/-- Following `next_cursor` from the first page of `listContractsCursor` until it is null. -/
def ListContractsCursor.Enumerates (filters : ContractFilters) (limit : ℕ) : Prop :=
  ∃ pages, Follows (fun token => ListContractsCursor.listContractsCursor services table filters
      limit (token.map Token.text)) ListContractsCursor.ContractsPage.nextCursor none pages ∧
    ListsEach services table (ListContractsCursor.matchesFilters services table filters)
      (pages.flatMap ListContractsCursor.ContractsPage.data)

theorem ListContracts.enumerates_iff (platform : Platform) (secret : JsString)
    (parameter : CursorParameter) (filters : ContractFilters) (limit : Number) :
    ListContracts.Enumerates services table platform secret parameter filters limit ↔
      Sendable (ListContracts.filterParams filters) ∧
        ∃ shown, ListContracts.pageSize? limit = some shown ∧
          Aligned shown (key services) (cut services) (fun _ => True)
            (listing services table (ListContracts.matchesFilters services table filters)) := by
  unfold ListContracts.Enumerates
  simp only [listsEach_iff]
  constructor
  · rintro ⟨pages, follows, all⟩
    obtain ⟨page, answer⟩ := follows.first_answered
    obtain ⟨sendable, shown, size⟩ :=
      ListContracts.answered_spec platform secret parameter filters answer
    refine ⟨sendable, shown, size, ?_⟩
    have serves := @ListContracts.serves ι _ services table platform secret parameter filters limit
      shown size sendable
    exact serves.follows_iff_aligned.mp ⟨pages, follows, all⟩
  · rintro ⟨sendable, shown, size, aligned⟩
    have serves := @ListContracts.serves ι _ services table platform secret parameter filters limit
      shown size sendable
    exact serves.follows_iff_aligned.mpr aligned

theorem ListContractsCursor.enumerates_iff (filters : ContractFilters) (limit : ℕ) :
    ListContractsCursor.Enumerates services table filters limit ↔
      Sendable (ListContractsCursor.filterParams filters) ∧
        Aligned (min limit) (key services) (cut services) ListContractsCursor.Accepted
          (listing services table (ListContractsCursor.matchesFilters services table filters)) := by
  unfold ListContractsCursor.Enumerates
  simp only [listsEach_iff]
  constructor
  · rintro ⟨pages, follows, all⟩
    obtain ⟨page, answer⟩ := follows.first_answered
    have sendable := ListContractsCursor.sendable_of_answered answer
    refine ⟨sendable, (ListContractsCursor.serves sendable).follows_iff_aligned.mp ?_⟩
    exact ⟨pages, follows, all⟩
  · rintro ⟨sendable, aligned⟩
    exact (ListContractsCursor.serves sendable).follows_iff_aligned.mpr aligned

/-- Following `next_cursor` enumerates the listed contracts in descending order if and only
if the database takes the request, no cursor of a contract is refused, and at every boundary
of pages the contract behind was created before the millisecond of the last one shown, or in
it to the microsecond and with a smaller id. -/
theorem enumerate_iff_aligned (platform : Platform) (secret : JsString)
    (parameter : CursorParameter) (filters : ContractFilters) (limit : Number) (count : ℕ) :
    (ListContracts.Enumerates services table platform secret parameter filters limit ↔
      Sendable (ListContracts.filterParams filters) ∧
        ∃ shown, ListContracts.pageSize? limit = some shown ∧
          Aligned shown (key services) (cut services) (fun _ => True)
            (listing services table (ListContracts.matchesFilters services table filters))) ∧
    (ListContractsCursor.Enumerates services table filters count ↔
      Sendable (ListContractsCursor.filterParams filters) ∧
        Aligned (min count) (key services) (cut services) ListContractsCursor.Accepted
          (listing services table (ListContractsCursor.matchesFilters services table filters))) :=
  ⟨ListContracts.enumerates_iff services table platform secret parameter filters limit,
    ListContractsCursor.enumerates_iff services table filters count⟩

end Model

/-! ### Two contracts of one millisecond -/

theorem ListContracts.pageSize?_natCast {count : ℕ} (positive : 0 < count) (small : count ≤ 100) :
    ListContracts.pageSize? (some (.ofRat count)) = some (min count) := by
  have value : (JsNumber.ofRat (count : ℚ)).value = count :=
    EventPages.ofRat_natCast_value (by omega)
  have one : (JsNumber.ofRat 1).value = 1 := by
    have exact := @EventPages.ofRat_natCast_value 1 (by decide)
    rwa [Nat.cast_one] at exact
  have most : (JsNumber.ofRat 100).value = 100 := by
    have exact := @EventPages.ofRat_natCast_value 100 (by decide)
    rwa [Nat.cast_ofNat] at exact
  have nonzero : (count : ℚ) ≠ 0 := by exact_mod_cast positive.ne'
  have least : (1 : ℚ) ≤ count := by exact_mod_cast positive
  have below : (count : ℚ) ≤ 100 := by exact_mod_cast small
  have safe : ListContracts.safeLimit (some (.ofRat count)) = some (.ofRat count) := by
    simp only [ListContracts.safeLimit, chosenLimit, value, if_neg nonzero, maximum, one,
      if_pos least, minimum, most, if_pos below]
  have fetched := EventPages.bigint?_increment value (by omega)
  rw [ListContracts.pageSize?, safe, Option.bind_some, fetched, Option.map_some,
    Option.some.injEq]
  funext left
  rw [ListContracts.shownOf, value]
  simp only [Nat.cast_lt, Int.toNat_natCast]
  split_ifs <;> omega

def plainServices : Services (List Char) where
  collate := fun text => text
  ilike := fun _ _ => false
  lower := fun text => text
  timestamptz?
    | .string units => (IsoTime.parse? (Utf16.decode units)).map (1000 * ·)
    | _ => none
  text?
    | .string units => some (Utf16.decode units)
    | _ => none
  parseDate
    | .string units => IsoTime.parse? (Utf16.decode units)
    | _ => none
  collate_injective := fun _ _ same => same
  timestamptz?_iso := by
    intro time years
    simp only [Utf16.decode_encode, IsoTime.parse?_toISOString years, Option.map_some]
  text?_string := by
    intro chars _
    simp only [Utf16.decode_encode]
  parseDate_iso := by
    intro time years
    simp only [Utf16.decode_encode, IsoTime.parse?_toISOString years]

def noFilters : ContractFilters := ⟨none, none⟩

def firstRegistered : ContractRow :=
  ⟨"CA".toList, 1704067200123456, "Swap".toList, none, none, .published⟩

def secondRegistered : ContractRow :=
  ⟨"CB".toList, 1704067200123789, "Vault".toList, none, none, .published⟩

def sameMillisecond : ContractTable where
  rows := [firstRegistered, secondRegistered]
  distinct := by decide
  noNul := by decide
  years := by decide
  sourceVerifications := []

def contractsPlatform : Platform where
  sha256 := EventPages.recordedPlatform.sha256
  hmacSha256 := fun _ bytes =>
    if bytes = EventPages.signedText "\"2024-01-01T00:00:00.123Z\",\"CB\"" "f" then
      EventPages.digest "6dd220b3c6bb735175e3fa336e226879a7177de9d6cff89348d09a237d2631b7"
    else if bytes = EventPages.signedText "\"2024-01-01T00:00:00.123Z\",\"CB\"" "b" then
      EventPages.digest "ae42965cd50b4877747a1f557ff728fe44aee5803dce7adb800451c3f45c3736"
    else EventPages.digest ""
  localeCompare := fun left right => compare left right
  bufferFrom := fun _ => none

theorem sameMillisecond_not_aligned {accepted : ContractRow → Prop} :
    ¬ Aligned (min 1) (key plainServices) (cut plainServices) accepted
      [secondRegistered, firstRegistered] := by
  intro aligned
  generalize same : [secondRegistered, firstRegistered] = rows at aligned
  cases aligned with
  | last all =>
    subst same
    exact absurd all (by decide)
  | @more front rest anchor behind _ _ low _ =>
    cases front with
    | nil =>
      cases same
      exact absurd low (by decide)
    | cons shown front =>
      have length := congrArg List.length same
      simp at length
      omega

theorem sameMillisecond_skips :
    ¬ ListContracts.Enumerates plainServices sameMillisecond contractsPlatform
        EventPages.cursorSecret .after noFilters (some (.ofRat 1)) ∧
      ¬ ListContractsCursor.Enumerates plainServices sameMillisecond noFilters 1 := by
  have first : listing plainServices sameMillisecond
      (ListContracts.matchesFilters plainServices sameMillisecond noFilters) =
        [secondRegistered, firstRegistered] := by decide
  have second : listing plainServices sameMillisecond
      (ListContractsCursor.matchesFilters plainServices sameMillisecond noFilters) =
        [secondRegistered, firstRegistered] := by decide
  constructor
  · rw [ListContracts.enumerates_iff, first]
    rintro ⟨-, shown, size, aligned⟩
    have one := @ListContracts.pageSize?_natCast 1 (by decide) (by decide)
    rw [Nat.cast_one] at one
    cases one.symm.trans size
    exact sameMillisecond_not_aligned aligned
  · rw [ListContractsCursor.enumerates_iff, second]
    rintro ⟨-, aligned⟩
    exact sameMillisecond_not_aligned aligned

end SorobanExplorer.Indexer.ContractPages
