import SorobanExplorer.Indexer.EventPages
import SorobanExplorer.Library.Csv
import SorobanExplorer.Library.IsoTime

/-!
Owns the result of a query job: the pages of `iterateEventsSnapshot`, what `runJob` writes of them
within a quota, and the values that the file gives back.

What else happens to a job while it runs is one observation per page.
-/

namespace SorobanExplorer.Indexer.JobExport

open Library
open Filters (js)
open EventPages (bigint? bigint?_ofRat)

/-! ### The snapshot -/

/-- The columns of `events` that the query reads; the time is in milliseconds. -/
structure Event where
  seq : ℕ
  ledger : ℕ
  contractId : List Char
  function : List Char
  description : List Char
  txHash : Option (List Char)
  createdAt : Option ℤ

/-- What the transaction sees. `seq` is the primary key, comes from a sequence that starts at one
and stays within 2^53, as `db.js` has it; the id of a contract is its primary key. -/
structure Snapshot where
  events : List Event
  contractName : List Char → Option (List Char)
  positive : ∀ event ∈ events, 0 < event.seq
  small : ∀ event ∈ events, event.seq ≤ 2 ^ 53
  distinct : (events.map Event.seq).Nodup

/-- `params` of a job, `none` where one is missing. -/
structure Filter where
  contract : Option (List Char)
  fromLedger : Option JsNumber
  toLedger : Option JsNumber

structure Row where
  seq : JsNumber
  ledger : JsNumber
  contractId : List Char
  contractName : Option (List Char)
  function : List Char
  description : List Char
  txHash : Option (List Char)
  createdAt : Option ℤ

namespace Snapshot

variable (snapshot : Snapshot)

def read (event : Event) : Row where
  seq := .ofRat event.seq
  ledger := .ofRat event.ledger
  contractId := event.contractId
  contractName := snapshot.contractName event.contractId
  function := event.function
  description := event.description
  txHash := event.txHash
  createdAt := event.createdAt

end Snapshot

/-- A parameter that may be null; `none` is the error of the database. -/
def bound? : Option JsNumber → Option (Option ℤ)
  | none => some none
  | some number => (bigint? number).map some

/-- The condition on an event beside the one on `seq`. -/
def Filter.selects? (filter : Filter) : Option (Event → Bool) := do
  let fromLedger ← bound? filter.fromLedger
  let toLedger ← bound? filter.toLedger
  pure fun event => filter.contract.all (event.contractId = ·) &&
    fromLedger.all (· ≤ (event.ledger : ℤ)) && toLedger.all ((event.ledger : ℤ) ≤ ·)

def batchSize : ℕ := 5000

namespace Snapshot

variable (snapshot : Snapshot)

/-- The selected events in the order of `seq`. -/
def selected (selects : Event → Bool) : List Event :=
  rising Event.seq (snapshot.events.filter selects)

def page? (filter : Filter) (lastSeq : JsNumber) : Option (List Row) := do
  let last ← bigint? lastSeq
  let selects ← filter.selects?
  pure (((snapshot.selected fun event => decide (last < event.seq) && selects event).take
    batchSize).map snapshot.read)

/-- All rows that match, in the order of `seq`. -/
def matching? (filter : Filter) : Option (List Row) :=
  filter.selects?.map fun selects => (snapshot.selected selects).map snapshot.read

end Snapshot

/-! ### Lines -/

inductive Format where
  | ndjson
  | csv
deriving DecidableEq

def CSV_COLUMNS : List (List Char) :=
  ["seq", "ledger", "contract_id", "contract_name", "function", "description", "tx_hash",
    "created_at"].map String.toList

/-- The values of the columns as texts, `none` for null. -/
def Row.values (row : Row) : List (Option (List Char)) :=
  [some row.seq.text, some row.ledger.text, some row.contractId, row.contractName,
    some row.function, some row.description, row.txHash, row.createdAt.map IsoTime.toISOString]

/-- `/[",\n]/.test(s)` -/
def needsQuotes (text : List Char) : Bool :=
  text.any fun char => char = '"' || char = ',' || char = '\n'

def csvValue : Option (List Char) → List Char
  | none => []
  | some text => if needsQuotes text then Csv.quoted text else text

def csvRow (row : Row) : List Char := [','].intercalate (row.values.map csvValue) ++ ['\n']

def jsonText : Option (List Char) → Json
  | none => .null
  | some text => .string (Utf16.encode text)

/-- `JSON.stringify(row) + "\n"` -/
def jsonRow (row : Row) : List Char :=
  Utf16.decode (Json.stringify (.object [
    (js "seq", .number row.seq.numeral),
    (js "ledger", .number row.ledger.numeral),
    (js "contract_id", jsonText (some row.contractId)),
    (js "contract_name", jsonText row.contractName),
    (js "function", jsonText (some row.function)),
    (js "description", jsonText (some row.description)),
    (js "tx_hash", jsonText row.txHash),
    (js "created_at", jsonText (row.createdAt.map IsoTime.toISOString))])) ++ ['\n']

def line : Format → Row → List Char
  | .csv, row => csvRow row
  | .ndjson, row => jsonRow row

def header : Format → List (List Char)
  | .csv => [[','].intercalate CSV_COLUMNS ++ ['\n']]
  | .ndjson => []

/-! ### The run -/

structure Quota where
  rows : ℕ
  bytes : ℕ
  positive : 0 < bytes

structure File where
  chunks : List (List Char)
  rows : ℕ
  bytes : ℕ

def byteLength (chunk : List Char) : ℕ := (Utf8.encode chunk).length

namespace File

def write (file : File) (chunk : List Char) : File :=
  { file with chunks := file.chunks ++ [chunk], bytes := file.bytes + byteLength chunk }

def start (format : Format) : File := (header format).foldl write ⟨[], 0, 0⟩

def writeRow (format : Format) (file : File) (row : Row) : File :=
  { file.write (line format row) with rows := file.rows + 1 }

def text (file : File) : List Char := file.chunks.flatten

def writeBatch (quota : Quota) (format : Format) : File → List Row → File × Bool
  | file, [] => (file, false)
  | file, row :: rows =>
    if quota.rows ≤ file.rows ∨ quota.bytes ≤ file.bytes then (file, true)
    else writeBatch quota format (file.writeRow format row) rows

end File

/-- What the runner meets at a page: the job was cancelled, its API key is not active any more, or
something throws. -/
inductive Observation where
  | active
  | cancelled
  | revoked
  | broken
deriving DecidableEq

inductive Outcome where
  | succeeded (incomplete : Bool) (file : File)
  | cancelled
  | failed

/-- The loop of `runJob` over the pages of `iterateEventsSnapshot`, `none` where the fuel is used
up. -/
def exportFrom (snapshot : Snapshot) (filter : Filter) (format : Format) (quota : Quota)
    (observe : ℕ → Observation) : ℕ → ℕ → JsNumber → File → Option Outcome
  | 0, _, _, _ => none
  | fuel + 1, page, lastSeq, file =>
    match snapshot.page? filter lastSeq, observe page with
    | none, _ | _, .broken => some .failed
    | some [], _ => some (.succeeded false file)
    | some (_ :: _), .cancelled | some (_ :: _), .revoked => some .cancelled
    | some (row :: rows), .active =>
      let written := file.writeBatch quota format (row :: rows)
      if written.2 then some (.succeeded true written.1)
      else if rows.length + 1 < batchSize then some (.succeeded false written.1)
      else exportFrom snapshot filter format quota observe fuel (page + 1)
        ((row :: rows).getLast (List.cons_ne_nil _ _)).seq written.1

def exportJob (snapshot : Snapshot) (filter : Filter) (format : Format) (quota : Quota)
    (observe : ℕ → Observation) (fuel : ℕ) : Option Outcome :=
  exportFrom snapshot filter format quota observe fuel 0 (.ofRat 0) (.start format)

/-! ### The result -/

def Row.fields (row : Row) : List (List Char) := row.values.map (Option.getD · [])

/-- The file holds the first matching rows, within the quota, and all of them if it says so. -/
structure Exported (format : Format) (quota : Quota) (matching : List Row) (incomplete : Bool)
    (file : File) (count : ℕ) : Prop where
  among : count ≤ matching.length
  chunks : file.chunks = header format ++ (matching.take count).map (line format)
  rows : count ≤ quota.rows
  bytes : byteLength file.text < quota.bytes + file.chunks.getLast?.elim 0 byteLength
  all : count = matching.length ↔ incomplete = false
  parses : format = .csv →
    Csv.parse file.text = some (CSV_COLUMNS :: (matching.take count).map Row.fields)

def Exports (snapshot : Snapshot) (filter : Filter) (format : Format) : Prop :=
  ∀ quota observe fuel incomplete file,
    exportJob snapshot filter format quota observe fuel = some (.succeeded incomplete file) →
      ∃ matching count, snapshot.matching? filter = some matching ∧
        Exported format quota matching incomplete file count

def Quotable (text : List Char) : Prop := '\r' ∈ text → needsQuotes text = true

/-! ### Pages -/

section Pages

variable {snapshot : Snapshot} {filter : Filter} {selects : Event → Bool}

theorem read_seq {event : Event} (listed : event ∈ snapshot.events) :
    bigint? (snapshot.read event).seq = some (event.seq : ℤ) :=
  bigint?_ofRat (snapshot.small event listed)

theorem mem_selected {event : Event} :
    event ∈ snapshot.selected selects ↔ event ∈ snapshot.events ∧ selects event = true := by
  rw [Snapshot.selected, mem_rising, List.mem_filter]

theorem falls_selected (snapshot : Snapshot) (selects : Event → Bool) :
    StrictlyFalls Event.seq (snapshot.selected selects).reverse :=
  strictlyFalls_reverse_rising (snapshot.distinct.sublist (List.filter_sublist.map _))

theorem selected_and (snapshot : Snapshot) (after selects : Event → Bool) :
    snapshot.selected (fun event => after event && selects event) =
      (snapshot.selected selects).filter after := by
  apply List.reverse_injective
  rw [← List.filter_reverse]
  apply (falls_selected snapshot _).eq_of_mem_iff
    ((falls_selected snapshot selects).sublist List.filter_sublist)
  intro event
  simp [mem_selected, and_comm, and_assoc]

theorem page?_first (selected : filter.selects? = some selects) :
    snapshot.page? filter (.ofRat 0) =
      some (((snapshot.selected selects).take batchSize).map snapshot.read) := by
  have zero : bigint? (.ofRat 0) = some 0 := by
    have exact := @bigint?_ofRat 0 (by decide)
    rwa [Nat.cast_zero] at exact
  have all : (snapshot.selected selects).filter (fun event => decide ((0 : ℤ) < event.seq)) =
      snapshot.selected selects := by
    rw [List.filter_eq_self]
    intro event listed
    have positive := snapshot.positive event (mem_selected.mp listed).1
    simpa using positive
  simp only [Snapshot.page?, zero, selected, Option.bind_eq_bind, Option.bind_some]
  rw [selected_and, all]
  rfl

theorem page?_after (selected : filter.selects? = some selects) {front rest : List Event}
    {last : Event} (split : snapshot.selected selects = front ++ last :: rest) :
    snapshot.page? filter (snapshot.read last).seq =
      some ((rest.take batchSize).map snapshot.read) := by
  have listed : last ∈ snapshot.selected selects := by
    rw [split]
    exact List.mem_append_right _ List.mem_cons_self
  have falls := falls_selected snapshot selects
  have left : (snapshot.selected selects).filter
      (fun event => decide ((last.seq : ℤ) < event.seq)) = rest := by
    apply List.reverse_injective
    rw [← List.filter_reverse]
    rw [split, List.reverse_append, List.reverse_cons, List.append_assoc,
      List.singleton_append] at falls ⊢
    have above := falls.filter_above
    simpa using above
  simp only [Snapshot.page?, read_seq (mem_selected.mp listed).1, selected, Option.bind_eq_bind,
    Option.bind_some]
  rw [selected_and, left]
  rfl

theorem page?_next (selected : filter.selects? = some selects) {front rest : List Event}
    (split : snapshot.selected selects = front ++ rest)
    (filled : (rest.take batchSize).map snapshot.read ≠ []) :
    snapshot.page? filter (((rest.take batchSize).map snapshot.read).getLast filled).seq =
      some (((rest.drop batchSize).take batchSize).map snapshot.read) := by
  have shown : rest.take batchSize ≠ [] := fun empty => filled (by rw [empty]; rfl)
  have cut : snapshot.selected selects = (front ++ (rest.take batchSize).dropLast) ++
      (rest.take batchSize).getLast shown :: rest.drop batchSize := by
    rw [List.append_assoc, ← List.singleton_append, ← List.append_assoc (List.dropLast _),
      List.dropLast_append_getLast, List.take_append_drop]
    exact split
  rw [List.getLast_map]
  exact page?_after selected cut

end Pages

/-! ### The file -/

def fileOf (format : Format) (rows : List Row) : File :=
  rows.foldl (File.writeRow format) (.start format)

structure Within (quota : Quota) (file : File) : Prop where
  rows : file.rows ≤ quota.rows
  bytes : file.bytes < quota.bytes + file.chunks.getLast?.elim 0 byteLength

section Files

variable {format : Format} {quota : Quota}

theorem fileOf_append_singleton (rows : List Row) (row : Row) :
    fileOf format (rows ++ [row]) = (fileOf format rows).writeRow format row := List.foldl_concat ..

theorem chunks_start : (File.start format).chunks = header format := by cases format <;> rfl

theorem chunks_fileOf (rows : List Row) :
    (fileOf format rows).chunks = header format ++ rows.map (line format) := by
  induction rows using List.reverseRecOn with
  | nil => exact chunks_start.trans (List.append_nil _).symm
  | append_singleton rows row ih =>
    rw [fileOf_append_singleton, List.map_append, ← List.append_assoc, ← ih]
    rfl

theorem rows_fileOf (rows : List Row) : (fileOf format rows).rows = rows.length := by
  induction rows using List.reverseRecOn with
  | nil => cases format <;> rfl
  | append_singleton rows row ih =>
    rw [fileOf_append_singleton, List.length_append, ← ih]
    rfl

theorem byteLength_append (left right : List Char) :
    byteLength (left ++ right) = byteLength left + byteLength right := by
  rw [byteLength, Utf8.encode_append, List.length_append]
  rfl

theorem bytes_fileOf (rows : List Row) :
    (fileOf format rows).bytes = byteLength (fileOf format rows).text := by
  induction rows using List.reverseRecOn with
  | nil =>
    cases format with
    | ndjson => rfl
    | csv =>
      show 0 + byteLength _ = byteLength (List.flatten [_])
      rw [List.flatten_singleton, Nat.zero_add]
  | append_singleton rows row ih =>
    rw [fileOf_append_singleton]
    show (fileOf format rows).bytes + byteLength (line format row) =
      byteLength ((fileOf format rows).chunks ++ [line format row]).flatten
    rw [List.flatten_append, byteLength_append, ih, List.flatten_singleton]
    rfl

theorem within_start : Within quota (fileOf format []) where
  rows := by
    rw [rows_fileOf]
    exact Nat.zero_le _
  bytes := by
    have positive := quota.positive
    cases format with
    | ndjson => exact positive
    | csv =>
      show 0 + byteLength ([','].intercalate CSV_COLUMNS ++ ['\n']) <
        quota.bytes + byteLength ([','].intercalate CSV_COLUMNS ++ ['\n'])
      exact Nat.add_lt_add_right positive _

theorem writeBatch_fileOf {front : List Row} (within : Within quota (fileOf format front))
    (batch : List Row) :
    ∃ count ≤ batch.length, (fileOf format front).writeBatch quota format batch =
        (fileOf format (front ++ batch.take count), decide (count < batch.length)) ∧
      Within quota (fileOf format (front ++ batch.take count)) := by
  induction batch generalizing front with
  | nil =>
    refine ⟨0, le_rfl, ?_, ?_⟩
    · rw [List.take_nil, List.append_nil]
      rfl
    · rwa [List.take_nil, List.append_nil]
  | cons row batch ih =>
    rw [File.writeBatch]
    split_ifs with reached
    · refine ⟨0, Nat.zero_le _, ?_, ?_⟩
      · rw [List.take_zero, List.append_nil]
        rfl
      · rwa [List.take_zero, List.append_nil]
    · rw [not_or, not_le, not_le] at reached
      have more : Within quota (fileOf format (front ++ [row])) := by
        rw [fileOf_append_singleton]
        refine ⟨reached.1, ?_⟩
        show (fileOf format front).bytes + byteLength (line format row) <
          quota.bytes + ((fileOf format front).chunks ++ [line format row]).getLast?.elim 0
            byteLength
        rw [List.getLast?_concat, Option.elim_some]
        exact Nat.add_lt_add_right reached.2 _
      obtain ⟨count, most, written, kept⟩ := ih more
      refine ⟨count + 1, Nat.succ_le_succ most, ?_, ?_⟩
      · rw [← fileOf_append_singleton, written, List.take_succ_cons, List.append_assoc,
          List.singleton_append]
        simp
      · rw [List.take_succ_cons]
        rwa [List.append_assoc, List.singleton_append] at kept

theorem bytes_fileOf_le (front batch : List Row) :
    (fileOf format front).bytes ≤ (fileOf format (front ++ batch)).bytes := by
  have whole : (fileOf format (front ++ batch)).text =
      (fileOf format front).text ++ (batch.map (line format)).flatten := by
    simp only [File.text, chunks_fileOf, List.map_append, List.flatten_append, List.append_assoc]
  rw [bytes_fileOf, bytes_fileOf, whole, byteLength_append]
  exact Nat.le_add_right _ _

structure Ample (quota : Quota) (format : Format) (written : List Row) : Prop where
  rows : written.length < quota.rows
  bytes : (fileOf format written).bytes < quota.bytes

theorem Ample.of_append {front batch : List Row} (ample : Ample quota format (front ++ batch)) :
    Ample quota format front where
  rows := by
    have fewer := ample.rows
    rw [List.length_append] at fewer
    omega
  bytes := (bytes_fileOf_le front batch).trans_lt ample.bytes

theorem writeBatch_ample {front batch : List Row} (ample : Ample quota format (front ++ batch)) :
    (fileOf format front).writeBatch quota format batch =
      (fileOf format (front ++ batch), false) := by
  induction batch generalizing front with
  | nil => rw [List.append_nil, File.writeBatch]
  | cons row batch ih =>
    have room := ample.of_append
    have fewer := room.rows
    rw [← @rows_fileOf format] at fewer
    rw [← List.singleton_append, ← List.append_assoc] at ample ⊢
    rw [List.singleton_append, File.writeBatch,
      if_neg (not_or.mpr ⟨not_le.mpr fewer, not_le.mpr room.bytes⟩), ← fileOf_append_singleton,
      ih ample]

end Files

/-! ### The pages of a run -/

section Runs

variable {snapshot : Snapshot} {filter : Filter} {selects : Event → Bool} {format : Format}
  {quota : Quota} {observe : ℕ → Observation}

theorem exportFrom_page {fuel page : ℕ} {lastSeq : JsNumber} {file last : File} {rows : List Row}
    {incomplete : Bool} (next : snapshot.page? filter lastSeq = some rows)
    (ends : exportFrom snapshot filter format quota observe (fuel + 1) page lastSeq file =
      some (.succeeded incomplete last)) :
    rows = [] ∧ incomplete = false ∧ last = file ∨
      ((file.writeBatch quota format rows).2 = true ∧ incomplete = true ∨
        (file.writeBatch quota format rows).2 = false ∧ rows.length < batchSize ∧
          incomplete = false) ∧ last = (file.writeBatch quota format rows).1 ∨
      ∃ nonempty : rows ≠ [], (file.writeBatch quota format rows).2 = false ∧
        batchSize ≤ rows.length ∧
        exportFrom snapshot filter format quota observe fuel (page + 1) (rows.getLast nonempty).seq
          (file.writeBatch quota format rows).1 = some (.succeeded incomplete last) := by
  rw [exportFrom, next] at ends
  cases rows with
  | nil =>
    cases seen : observe page with
    | broken =>
      rw [seen] at ends
      cases ends
    | active | cancelled | revoked =>
      rw [seen] at ends
      cases ends
      exact .inl ⟨rfl, rfl, rfl⟩
  | cons row rows =>
    cases seen : observe page with
    | broken | cancelled | revoked =>
      rw [seen] at ends
      cases ends
    | active =>
      rw [seen] at ends
      dsimp only at ends
      split_ifs at ends with stopped short
      · cases ends
        exact .inr (.inl ⟨.inl ⟨stopped, rfl⟩, rfl⟩)
      · cases ends
        exact .inr (.inl ⟨.inr ⟨Bool.not_eq_true _ ▸ stopped, short, rfl⟩, rfl⟩)
      · exact .inr (.inr ⟨List.cons_ne_nil _ _, Bool.not_eq_true _ ▸ stopped,
          not_lt.mp short, ends⟩)

theorem eq_nil_of_page {rest : List Event} (empty : (rest.take batchSize).map snapshot.read = []) :
    rest = [] := by
  have taken : rest.take batchSize = [] := List.map_eq_nil_iff.mp empty
  exact (List.take_eq_nil_iff.mp taken).resolve_left (by decide)

theorem exportFrom_succeeded (selected : filter.selects? = some selects) {fuel page : ℕ}
    {lastSeq : JsNumber} {front rest : List Event} {incomplete : Bool} {file : File}
    (split : snapshot.selected selects = front ++ rest)
    (next : snapshot.page? filter lastSeq = some ((rest.take batchSize).map snapshot.read))
    (within : Within quota (fileOf format (front.map snapshot.read)))
    (ends : exportFrom snapshot filter format quota observe fuel page lastSeq
      (fileOf format (front.map snapshot.read)) = some (.succeeded incomplete file)) :
    ∃ count ≤ rest.length,
      file = fileOf format ((front ++ rest.take count).map snapshot.read) ∧
      (count = rest.length ↔ incomplete = false) ∧ Within quota file := by
  induction fuel generalizing page lastSeq front rest with
  | zero => cases ends
  | succ fuel ih =>
    obtain ⟨count, most, written, kept⟩ :=
      writeBatch_fileOf within ((rest.take batchSize).map snapshot.read)
    rw [List.length_map, List.length_take] at most written
    have batch : (rest.take count).map snapshot.read =
        ((rest.take batchSize).map snapshot.read).take count := by
      rw [← List.map_take, List.take_take, min_eq_left (by omega)]
    rw [← batch, ← List.map_append] at written kept
    obtain ⟨nothing, rfl, rfl⟩ | ⟨stops, rfl⟩ | ⟨nonempty, all, full, goesOn⟩ :=
      exportFrom_page next ends
    · cases eq_nil_of_page nothing
      exact ⟨0, le_rfl, by rw [List.take_nil, List.append_nil], iff_of_true rfl rfl, within⟩
    · rw [written] at stops ⊢
      refine ⟨count, by omega, rfl, ?_, kept⟩
      obtain ⟨stopped, rfl⟩ | ⟨finished, short, rfl⟩ := stops
      · have before := of_decide_eq_true stopped
        exact iff_of_false (by omega) nofun
      · have after := of_decide_eq_false finished
        rw [List.length_map, List.length_take] at short
        exact iff_of_true (by omega) rfl
    · rw [written] at all goesOn
      have after := of_decide_eq_false all
      rw [List.length_map, List.length_take] at full
      have whole : count = batchSize := by omega
      subst whole
      obtain ⟨count, most, rfl, complete, last⟩ := ih
        (split.trans (by rw [List.append_assoc, List.take_append_drop]))
        (page?_next selected split nonempty) kept goesOn
      rw [List.length_drop] at most complete
      refine ⟨batchSize + count, by omega, ?_, ?_, last⟩
      · rw [List.take_add, List.append_assoc]
      · rw [← complete]
        omega

theorem exportFrom_ample (selected : filter.selects? = some selects) {fuel page : ℕ}
    {lastSeq : JsNumber} {front rest : List Event}
    (split : snapshot.selected selects = front ++ rest)
    (next : snapshot.page? filter lastSeq = some ((rest.take batchSize).map snapshot.read))
    (ample : Ample quota format ((front ++ rest).map snapshot.read)) (enough : rest.length < fuel) :
    exportFrom snapshot filter format quota (fun _ => .active) fuel page lastSeq
        (fileOf format (front.map snapshot.read)) =
      some (.succeeded false (fileOf format ((front ++ rest).map snapshot.read))) := by
  induction fuel generalizing page lastSeq front rest with
  | zero => cases enough
  | succ fuel ih =>
    rw [exportFrom, next]
    cases shown : (rest.take batchSize).map snapshot.read with
    | nil =>
      rw [eq_nil_of_page shown, List.append_nil]
    | cons row rows =>
      have parts : (front ++ rest).map snapshot.read =
          (front.map snapshot.read ++ (row :: rows)) ++
            (rest.drop batchSize).map snapshot.read := by
        rw [← shown, List.append_assoc, ← List.map_append, List.take_append_drop,
          List.map_append]
      have length := congrArg List.length shown
      rw [List.length_map, List.length_take, List.length_cons] at length
      rw [parts] at ample
      dsimp only
      rw [writeBatch_ample ample.of_append]
      dsimp only
      rw [if_neg Bool.false_ne_true]
      split_ifs with short
      · have done : rest.drop batchSize = [] := List.drop_eq_nil_of_le (by omega)
        rw [parts, done, List.map_nil, List.append_nil]
      · have goesOn := page?_next selected split (by rw [shown]; exact List.cons_ne_nil _ _)
        simp only [shown] at goesOn
        have file : front.map snapshot.read ++ row :: rows =
            (front ++ rest.take batchSize).map snapshot.read := by
          rw [List.map_append, shown]
        rw [file]
        rw [← parts] at ample
        have whole : front ++ rest = (front ++ rest.take batchSize) ++ rest.drop batchSize := by
          rw [List.append_assoc, List.take_append_drop]
        rw [whole] at split ample ⊢
        exact ih split goesOn ample (by rw [List.length_drop]; omega)

end Runs

/-! ### Reading the file back -/

section Reading

variable {records : List (List (List Char))} {record : List (List Char)} {text : List Char}

def AllQuotable (values : List (Option (List Char))) : Prop :=
  ∀ text, some text ∈ values → Quotable text

theorem plain_of_not_needsQuotes (plain : needsQuotes text = false) :
    ∀ char ∈ text, char = '\r' ∨ Csv.special char = false := by
  rw [needsQuotes, List.any_eq_false] at plain
  intro char listed
  have none := plain char listed
  simp only [Bool.or_eq_true, decide_eq_true_eq, not_or] at none
  by_cases carriage : char = '\r'
  · exact .inl carriage
  · right
    simp [Csv.special, none, carriage]

theorem feedAll_csvValue {separator : Char} (ends : separator = ',' ∨ separator = '\n')
    {value : Option (List Char)} (quotable : ∀ text, value = some text → Quotable text) :
    (Csv.Reading.mk records record [] .start).feedAll (csvValue value ++ [separator]) =
      (Csv.Reading.mk records record (value.getD []) .start).endField separator := by
  cases value with
  | none => exact Csv.Reading.feedAll_plain nofun ends (.inl rfl)
  | some text =>
    rw [csvValue, Option.getD_some]
    split_ifs with quotes
    · exact Csv.Reading.feedAll_quoted ends rfl rfl text
    · have carriage : '\r' ∉ text := fun listed => quotes (quotable text rfl listed)
      have plain := plain_of_not_needsQuotes (Bool.not_eq_true _ ▸ quotes)
      refine Csv.Reading.feedAll_plain (fun char listed => ?_) ends (.inl rfl)
      exact (plain char listed).resolve_left fun same => carriage (same ▸ listed)

theorem feedAll_unquotable (unquotable : ¬ Quotable text) (rest : List Char) :
    (Csv.Reading.mk records record [] .start).feedAll (csvValue (some text) ++ rest) = none := by
  obtain ⟨carriage, plain⟩ := Classical.not_imp.mp unquotable
  rw [csvValue, if_neg plain, Csv.Reading.feedAll_append, Csv.Reading.feedAll_carriage carriage
    (plain_of_not_needsQuotes (Bool.not_eq_true _ ▸ plain)) (.inl rfl)]
  rfl

theorem valueLine_cons_cons (value other : Option (List Char))
    (values : List (Option (List Char))) :
    [','].intercalate ((value :: other :: values).map csvValue) ++ ['\n'] =
      (csvValue value ++ [',']) ++
        ([','].intercalate ((other :: values).map csvValue) ++ ['\n']) := by
  simp [List.intercalate]

theorem feedAll_values {values : List (Option (List Char))} (filled : values ≠ [])
    (quotable : AllQuotable values) :
    (Csv.Reading.mk records record [] .start).feedAll
        ([','].intercalate (values.map csvValue) ++ ['\n']) =
      some ⟨records ++ [record ++ values.map (Option.getD · [])], [], [], .start⟩ := by
  induction values generalizing record with
  | nil => exact absurd rfl filled
  | cons value values ih =>
    have first : ∀ text, value = some text → Quotable text := fun text same =>
      quotable text (same ▸ List.mem_cons_self)
    have later : AllQuotable values := fun text listed =>
      quotable text (List.mem_cons_of_mem _ listed)
    cases values with
    | nil =>
      have line : [','].intercalate ([value].map csvValue) = csvValue value := by
        simp [List.intercalate]
      rw [line, feedAll_csvValue (.inr rfl) first]
      rfl
    | cons other values =>
      rw [valueLine_cons_cons, Csv.Reading.feedAll_append, feedAll_csvValue (.inl rfl) first]
      refine (ih (List.cons_ne_nil _ _) later).trans ?_
      simp

theorem feedAll_values_unquotable {values : List (Option (List Char))}
    (unquotable : ¬ AllQuotable values) :
    (Csv.Reading.mk records record [] .start).feedAll
        ([','].intercalate (values.map csvValue) ++ ['\n']) = none := by
  induction values generalizing record with
  | nil => exact absurd nofun unquotable
  | cons value values ih =>
    by_cases first : ∀ text, value = some text → Quotable text
    · have later : ¬ AllQuotable values := by
        intro quotable
        apply unquotable
        intro text listed
        obtain same | listed := List.mem_cons.mp listed
        · exact first text same.symm
        · exact quotable text listed
      cases values with
      | nil => exact absurd nofun later
      | cons other values =>
        rw [valueLine_cons_cons, Csv.Reading.feedAll_append, feedAll_csvValue (.inl rfl) first]
        exact ih later
    · obtain ⟨text, first⟩ := not_forall.mp first
      obtain ⟨rfl, bad⟩ := Classical.not_imp.mp first
      cases values with
      | nil =>
        have line : [','].intercalate ([some text].map csvValue) = csvValue (some text) := by
          simp [List.intercalate]
        rw [line]
        exact feedAll_unquotable bad _
      | cons other values =>
        rw [valueLine_cons_cons, List.append_assoc]
        exact feedAll_unquotable bad _

theorem values_ne_nil (row : Row) : row.values ≠ [] := List.cons_ne_nil _ _

theorem feedAll_rows {rows : List Row} (quotable : ∀ row ∈ rows, AllQuotable row.values) :
    (Csv.Reading.mk records [] [] .start).feedAll (rows.map csvRow).flatten =
      some ⟨records ++ rows.map Row.fields, [], [], .start⟩ := by
  induction rows generalizing records with
  | nil => simp [Csv.Reading.feedAll]
  | cons row rows ih =>
    rw [List.map_cons, List.flatten_cons, Csv.Reading.feedAll_append, csvRow,
      feedAll_values (values_ne_nil row) (quotable row List.mem_cons_self)]
    refine (ih fun row listed =>
      quotable row (List.mem_cons_of_mem _ listed)).trans ?_
    simp [Row.fields]

theorem feedAll_rows_unquotable {rows : List Row}
    (unquotable : ¬ ∀ row ∈ rows, AllQuotable row.values) :
    (Csv.Reading.mk records [] [] .start).feedAll (rows.map csvRow).flatten = none := by
  induction rows generalizing records with
  | nil => exact absurd nofun unquotable
  | cons row rows ih =>
    rw [List.map_cons, List.flatten_cons, Csv.Reading.feedAll_append, csvRow]
    by_cases first : AllQuotable row.values
    · rw [feedAll_values (values_ne_nil row) first]
      apply ih
      intro later
      apply unquotable
      intro other listed
      obtain rfl | listed := List.mem_cons.mp listed
      · exact first
      · exact later other listed
    · rw [feedAll_values_unquotable first]
      rfl

theorem feedAll_header : Csv.Reading.init.feedAll (header .csv).flatten =
    some ⟨[CSV_COLUMNS], [], [], .start⟩ := by
  have plain : ∀ column ∈ CSV_COLUMNS, needsQuotes column = false ∧ '\r' ∉ column := by
    decide +kernel
  have line : (header .csv).flatten =
      [','].intercalate ((CSV_COLUMNS.map some).map csvValue) ++ ['\n'] := by
    have same : (CSV_COLUMNS.map some).map csvValue = CSV_COLUMNS := by
      rw [List.map_map, List.map_congr_left, List.map_id]
      intro column listed
      simp [csvValue, plain column listed]
    rw [same, header, List.flatten_singleton]
  have quotable : AllQuotable (CSV_COLUMNS.map some) := by
    intro text listed carriage
    obtain ⟨column, among, rfl⟩ : ∃ column ∈ CSV_COLUMNS, column = text := by simpa using listed
    exact absurd carriage (plain column among).2
  rw [line, Csv.Reading.init, feedAll_values (by decide) quotable]
  simp [Function.comp_def]

theorem parse_fileOf_iff (rows : List Row) :
    Csv.parse (fileOf .csv rows).text = some (CSV_COLUMNS :: rows.map Row.fields) ↔
      ∀ row ∈ rows, AllQuotable row.values := by
  rw [Csv.parse, File.text, chunks_fileOf, List.flatten_append, Csv.Reading.feedAll_append,
    feedAll_header, Option.bind_some]
  show (((Csv.Reading.mk [CSV_COLUMNS] [] [] .start).feedAll (rows.map csvRow).flatten).bind _) =
    _ ↔ _
  by_cases quotable : ∀ row ∈ rows, AllQuotable row.values
  · rw [feedAll_rows quotable]
    exact iff_of_true rfl quotable
  · rw [feedAll_rows_unquotable quotable]
    exact iff_of_false nofun quotable

end Reading

/-! ### What a job leaves -/

theorem selects_of_succeeded {snapshot : Snapshot} {filter : Filter} {format : Format}
    {quota : Quota} {observe : ℕ → Observation} {fuel : ℕ} {incomplete : Bool} {file : File}
    (ends : exportJob snapshot filter format quota observe fuel =
      some (.succeeded incomplete file)) : ∃ selects, filter.selects? = some selects := by
  cases fuel with
  | zero => cases ends
  | succ fuel =>
    cases selected : filter.selects? with
    | some selects => exact ⟨selects, rfl⟩
    | none =>
      have refused : snapshot.page? filter (.ofRat 0) = none := by
        rw [Snapshot.page?, selected]
        cases bigint? (.ofRat 0) <;> rfl
      rw [exportJob, exportFrom, refused] at ends
      cases ends

section Results

variable {snapshot : Snapshot} {filter : Filter} {format : Format}

theorem quotable_of_exports (exports : Exports snapshot filter .csv) {matching : List Row}
    (matched : snapshot.matching? filter = some matching) :
    ∀ row ∈ matching, AllQuotable row.values := by
  obtain ⟨selects, selected, rfl⟩ := Option.map_eq_some_iff.mp matched
  obtain ⟨rows, sorted⟩ : ∃ rows, rows = (snapshot.selected selects).map snapshot.read := ⟨_, rfl⟩
  let quota : Quota := ⟨rows.length + 1, (fileOf .csv rows).bytes + 1, Nat.succ_pos _⟩
  have ample : Ample quota .csv (([] ++ snapshot.selected selects).map snapshot.read) := by
    rw [List.nil_append, ← sorted]
    exact ⟨Nat.lt_succ_self _, Nat.lt_succ_self _⟩
  have ends := @exportFrom_ample _ _ _ .csv quota selected _ 0 _ _ _ (List.nil_append _).symm
    (page?_first selected) ample (Nat.lt_succ_self _)
  rw [List.nil_append, ← sorted] at ends
  obtain ⟨found, count, same, exported⟩ := exports _ _ _ _ _ ends
  cases matched.symm.trans same
  rw [← sorted] at exported ⊢
  have all := exported.all.mpr rfl
  have parses := exported.parses rfl
  rw [all, List.take_length] at parses
  exact (parse_fileOf_iff rows).mp parses

theorem exports_of_quotable (quotable : format = .csv → ∀ matching,
    snapshot.matching? filter = some matching → ∀ row ∈ matching, AllQuotable row.values) :
    Exports snapshot filter format := by
  intro quota observe fuel incomplete file ends
  obtain ⟨selects, selected⟩ := selects_of_succeeded ends
  have matched : snapshot.matching? filter =
      some ((snapshot.selected selects).map snapshot.read) := by
    rw [Snapshot.matching?, selected]
    rfl
  obtain ⟨count, most, rfl, complete, within⟩ := exportFrom_succeeded selected
    (List.nil_append _).symm (page?_first selected) within_start ends
  rw [List.nil_append, List.map_take] at within ⊢
  rw [← List.length_map (f := snapshot.read)] at most complete
  refine ⟨_, count, matched, most, chunks_fileOf _, ?_, ?_, complete, ?_⟩
  · have rows := within.rows
    rw [rows_fileOf, List.length_take] at rows
    omega
  · rw [← bytes_fileOf]
    exact within.bytes
  · rintro rfl
    exact (parse_fileOf_iff _).mpr fun row listed =>
      quotable rfl _ matched row (List.mem_of_mem_take listed)

end Results

/-- The files of the jobs hold the first matching rows, and are read as these rows, exactly where
every carriage return comes with something that has its value quoted. -/
theorem exports_iff (snapshot : Snapshot) (filter : Filter) (format : Format) :
    Exports snapshot filter format ↔ (format = .csv → ∀ matching,
      snapshot.matching? filter = some matching → ∀ row ∈ matching, AllQuotable row.values) := by
  constructor
  · rintro exports rfl matching matched
    exact quotable_of_exports exports matched
  · exact exports_of_quotable

def carriageEvent : Event := ⟨1, 5, ['C'], ['f'], ['a', '\r', 'b'], none, none⟩

def carriageSnapshot : Snapshot where
  events := [carriageEvent]
  contractName _ := none
  positive := by simp [carriageEvent]
  small := by simp [carriageEvent]
  distinct := List.nodup_singleton _

theorem carriage_unreadable : ¬ Exports carriageSnapshot ⟨none, none, none⟩ .csv := by
  intro exports
  have matched : carriageSnapshot.matching? ⟨none, none, none⟩ =
      some [carriageSnapshot.read carriageEvent] := rfl
  have quotable := quotable_of_exports exports matched _ List.mem_cons_self ['a', '\r', 'b']
    (by simp [Row.values, Snapshot.read, carriageEvent])
  exact absurd (quotable (by decide)) (by decide)

end SorobanExplorer.Indexer.JobExport
