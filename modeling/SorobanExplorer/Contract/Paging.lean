import SorobanExplorer.Contract.Window

/-!
Owns reading the event log by page. Over a ring that holds the submitted
events, a page is a piece of the list of retained events; a reader that follows
the cursor gets every retained event once, in order, and stops.
-/

namespace SorobanExplorer.Contract

open Library

variable {host : Host}

/-! ### One page -/

theorem toNat_max (left right : UInt64) : (max left right).toNat = max left.toNat right.toNat := by
  change (if left ≤ right then right else left).toNat = _
  split
  next le =>
    rw [UInt64.le_iff_toNat_le] at le
    omega
  next notLe =>
    rw [UInt64.le_iff_toNat_le] at notLe
    omega

section Page

variable {inputs : List EventInput} {world : World}

theorem RingHolds.pushEvent (holds : RingHolds inputs world)
    (counted : (eventSeq world).toNat = inputs.length) {seq : UInt64}
    (lower : (eventSeq world).toNat ≤ seq.toNat + (maxEvents world).toNat)
    (below : seq.toNat < (numbered inputs).length) (out : List DecodedEvent) :
    pushEvent world seq out = out ++ [(numbered inputs)[seq.toNat]] := by
  have stored : slotEvent world seq = some (numbered inputs)[seq.toNat] := by
    rw [slotEvent_eq]
    refine holds.resident seq.toNat below ?_
    rw [numbered_length]
    omega
  have tagged : ((numbered inputs)[seq.toNat]).seq = seq := by
    have entry := numbered_getElem? inputs seq.toNat
    rw [List.getElem?_eq_getElem below] at entry
    obtain ⟨input, _, same⟩ := Option.map_eq_some_iff.mp entry.symm
    rw [← same]
    exact UInt64.ofNat_toNat
  simp [Contract.pushEvent, stored, tagged]

theorem RingHolds.collectEvents (holds : RingHolds inputs world)
    (counted : (eventSeq world).toNat = inputs.length) (limit : UInt32) {remaining : Nat}
    {seq : UInt64} (lower : (eventSeq world).toNat ≤ seq.toNat + (maxEvents world).toNat)
    (total : seq.toNat + remaining = (numbered inputs).length) (out : List DecodedEvent) :
    collectEvents world limit remaining seq out =
      out ++ ((numbered inputs).drop seq.toNat).take (limit.toNat - out.length) := by
  induction remaining generalizing seq out with
  | zero =>
    rw [Contract.collectEvents, List.drop_eq_nil_of_le (by omega)]
    simp
  | succ remaining ih =>
    have bound := (eventSeq world).toNat_lt_size
    have length : (numbered inputs).length = inputs.length := numbered_length inputs
    have below : seq.toNat < (numbered inputs).length := by omega
    have next : (seq + 1).toNat = seq.toNat + 1 := by
      rw [UInt64.toNat_add, UInt64.toNat_one,
        Nat.mod_eq_of_lt (by simp only [UInt64.size] at bound; omega)]
    rw [Contract.collectEvents]
    split
    next room =>
      rw [holds.pushEvent counted lower below,
        ih (by rw [next]; omega) (by rw [next]; omega), next,
        List.append_assoc, List.drop_eq_getElem_cons below]
      have more : limit.toNat - out.length =
          (limit.toNat - (out ++ [(numbered inputs)[seq.toNat]]).length) + 1 := by
        rw [List.length_append, List.length_singleton]
        omega
      rw [more, List.take_succ_cons]
      rfl
    next full =>
      rw [Nat.sub_eq_zero_of_le (by omega), List.take_zero, List.append_nil]

def pageStart (world : World) (cursor : UInt64) : Nat :=
  max cursor.toNat ((eventSeq world).toNat - (maxEvents world).toNat)

theorem RingHolds.getEvents (holds : RingHolds inputs world)
    (counted : (eventSeq world).toNat = inputs.length) (cursor : UInt64) (limit : UInt32) :
    getEvents world cursor limit =
      ((numbered inputs).drop (pageStart world cursor)).take limit.toNat := by
  have start : (max cursor (oldestRetained (eventSeq world) (maxEvents world))).toNat =
      pageStart world cursor := by
    rw [toNat_max, oldestRetained_toNat]
    rfl
  have lower : (eventSeq world).toNat ≤ pageStart world cursor + (maxEvents world).toNat := by
    unfold pageStart
    omega
  have length : (numbered inputs).length = (eventSeq world).toNat := by
    rw [numbered_length, counted]
  rw [Contract.getEvents]
  by_cases beyond : (eventSeq world).toNat ≤ pageStart world cursor
  · rw [start, Nat.sub_eq_zero_of_le beyond, List.drop_eq_nil_of_le (by omega)]
    simp [Contract.collectEvents]
  · rw [holds.collectEvents counted limit (by rw [start]; exact lower) (by rw [start]; omega), start]
    rfl

end Page

/-! ### Following the cursor -/

/-- The pages a reader gets from a cursor on: it continues behind the last
event of a page until it gets an empty one. -/
inductive Pages (world : World) (limit : UInt32) : UInt64 → List (List DecodedEvent) → Prop
  | done {cursor : UInt64} (empty : getEvents world cursor limit = []) :
      Pages world limit cursor []
  | page {cursor : UInt64} {last : DecodedEvent} {rest : List (List DecodedEvent)}
      (found : (getEvents world cursor limit).getLast? = some last)
      (later : Pages world limit (last.seq + 1) rest) :
      Pages world limit cursor (getEvents world cursor limit :: rest)

/-- What a reader is owed from a cursor on: all the events of a list, once and
in order, in full pages. -/
structure PagesCover (limit : UInt32) (events : List DecodedEvent)
    (pages : List (List DecodedEvent)) : Prop where
  flatten : pages.flatten = events
  full : ∀ before page after, pages = before ++ page :: after →
    page.length = min limit.toNat (events.length - before.flatten.length)

theorem PagesCover.done (limit : UInt32) : PagesCover limit [] [] := by
  refine ⟨rfl, fun before page after split => ?_⟩
  cases before <;> cases split

theorem PagesCover.page {limit : UInt32} {events : List DecodedEvent}
    {rest : List (List DecodedEvent)}
    (cover : PagesCover limit (events.drop limit.toNat) rest) :
    PagesCover limit events (events.take limit.toNat :: rest) := by
  constructor
  · rw [List.flatten_cons, cover.flatten, List.take_append_drop]
  · intro before page after split
    cases before with
    | nil =>
      cases split
      simp
    | cons first before =>
      have later : rest = before ++ page :: after := (List.cons.inj split).2
      obtain rfl : first = events.take limit.toNat := (List.cons.inj split).1.symm
      subst later
      have full := cover.full before page after rfl
      rw [full, List.length_drop, List.flatten_cons, List.length_append, List.length_take]
      have whole : before.flatten.length ≤ events.length - limit.toNat := by
        have parts := congrArg List.length cover.flatten
        rw [List.flatten_append, List.length_append, List.length_drop] at parts
        omega
      omega

section Reader

variable {inputs : List EventInput} {world : World} {limit : UInt32}

theorem RingHolds.page_end (holds : RingHolds inputs world)
    (counted : (eventSeq world).toNat = inputs.length) {cursor : UInt64} {last : DecodedEvent}
    (found : (Contract.getEvents world cursor limit).getLast? = some last) :
    pageStart world (last.seq + 1) =
      pageStart world cursor + (Contract.getEvents world cursor limit).length := by
  have bound := (eventSeq world).toNat_lt_size
  have length : (numbered inputs).length = (eventSeq world).toNat := by
    rw [numbered_length, counted]
  rw [holds.getEvents counted] at found ⊢
  generalize page_eq : ((numbered inputs).drop (pageStart world cursor)).take limit.toNat = page
    at found
  have page_length : page.length =
      min limit.toNat ((numbered inputs).length - pageStart world cursor) := by
    rw [← page_eq, List.length_take, List.length_drop]
  have nonempty : page ≠ [] := by
    rintro rfl
    cases found
  have positive := List.length_pos_of_ne_nil nonempty
  -- The last event of the page carries its position in the whole list.
  rw [List.getLast?_eq_getElem?, ← page_eq, List.getElem?_take_of_lt (by rw [page_eq]; omega),
    List.getElem?_drop, page_eq, numbered_getElem?] at found
  obtain ⟨input, _, rfl⟩ := Option.map_eq_some_iff.mp found
  have value : (UInt64.ofNat (pageStart world cursor + (page.length - 1)) + 1).toNat =
      pageStart world cursor + page.length := by
    rw [UInt64.toNat_add, UInt64.toNat_one, UInt64.toNat_ofNat_of_lt' (by omega),
      Nat.mod_eq_of_lt (by simp only [UInt64.size] at bound; omega)]
    omega
  have start : (eventSeq world).toNat - (maxEvents world).toNat ≤ pageStart world cursor :=
    Nat.le_max_right _ _
  rw [pageStart, decodedEvent, value]
  omega

theorem RingHolds.pages_cover (holds : RingHolds inputs world)
    (counted : (eventSeq world).toNat = inputs.length) (limit_pos : 1 ≤ limit)
    {cursor : UInt64} {pages : List (List DecodedEvent)} (read : Pages world limit cursor pages) :
    PagesCover limit ((numbered inputs).drop (pageStart world cursor)) pages := by
  have positive : 1 ≤ limit.toNat := UInt32.le_iff_toNat_le.mp limit_pos
  induction read with
  | done empty =>
    rw [holds.getEvents counted, List.take_eq_nil_iff] at empty
    rcases empty with zero | rest
    · omega
    · rw [rest]
      exact .done limit
  | @page cursor last rest found _ ih =>
    have next := holds.page_end counted found
    rw [next] at ih
    rw [holds.getEvents counted] at ih ⊢
    refine .page ?_
    rw [List.drop_drop]
    have same : (numbered inputs).drop (pageStart world cursor +
        (((numbered inputs).drop (pageStart world cursor)).take limit.toNat).length) =
          (numbered inputs).drop (pageStart world cursor + limit.toNat) := by
      rw [List.length_take, List.length_drop]
      by_cases full : limit.toNat ≤ (numbered inputs).length - pageStart world cursor
      · rw [Nat.min_eq_left full]
      · rw [Nat.min_eq_right (by omega), List.drop_eq_nil_of_le (by omega),
          List.drop_eq_nil_of_le (by omega)]
    rwa [same] at ih

theorem RingHolds.pages_exist (holds : RingHolds inputs world)
    (counted : (eventSeq world).toNat = inputs.length) (cursor : UInt64) : ∃ pages, Pages world limit cursor pages := by
  -- Every nonempty page moves the cursor closer to the end of the list.
  induction distance : (numbered inputs).length - pageStart world cursor using
    Nat.strongRecOn generalizing cursor with
  | ind remaining ih =>
    cases found : (Contract.getEvents world cursor limit).getLast? with
    | none => exact ⟨[], .done (List.getLast?_eq_none_iff.mp found)⟩
    | some last =>
      have next := holds.page_end counted found
      have nonempty : Contract.getEvents world cursor limit ≠ [] := by
        intro empty
        rw [empty] at found
        cases found
      have positive := List.length_pos_of_ne_nil nonempty
      have page_length := congrArg List.length (holds.getEvents counted cursor limit)
      rw [List.length_take, List.length_drop] at page_length
      obtain ⟨rest, later⟩ := ih
        ((numbered inputs).length - pageStart world (last.seq + 1)) (by omega)
        (last.seq + 1) rfl
      exact ⟨_, .page found later⟩

end Reader

/-! ### Runs -/

/-- `set_max_events` is not called after the first submitted event. -/
def ResizesFirst (actions : List (Action host)) : Prop :=
  ∀ history env caller newMax,
    history ++ [.call env (.setMaxEvents caller newMax)] <+: actions → submissions history = []

theorem ResizesFirst.resizeFits {balances : Balances} {actions : List (Action host)}
    (resizesFirst : ResizesFirst actions) :
    EachStep (Step host) (World.deployed balances) actions ResizeFits := by
  intro history action below before reached
  unfold ResizeFits
  split
  next env caller newMax =>
    rw [(reachable_counted reached).counted, resizesFirst history env caller newMax below]
    exact Nat.zero_le _
  next => trivial

def retainedEvents (history : List (Action host)) (world : World) : List DecodedEvent :=
  (numbered (submissions history)).drop (oldestRetained (eventSeq world) (maxEvents world)).toNat

theorem numbered_drop_seqs {inputs : List EventInput} {world : World}
    (counted : (eventSeq world).toNat = inputs.length) (first : UInt64) :
    ((numbered inputs).drop first.toNat).map DecodedEvent.seq =
      seqRange first (eventSeq world) := by
  refine List.ext_getElem? fun index => ?_
  rw [List.getElem?_map, List.getElem?_drop, numbered_getElem?, seqRange, List.getElem?_map,
    counted]
  by_cases below : index < inputs.length - first.toNat
  · rw [List.getElem?_eq_getElem (by omega), List.getElem?_range below, Option.map_some,
      Option.map_some, Option.map_some, decodedEvent, UInt64.ofNat_add, UInt64.ofNat_toNat]
  · rw [List.getElem?_eq_none (by omega), List.getElem?_eq_none (by simpa using below)]
    rfl

/-- In a run that resizes before the first submission only, a reader that
starts at cursor `0` and continues behind the last event of every page gets to
an empty page, and has then got every retained event once, in increasing order,
in pages that are full up to the last. -/
theorem pages_read_window {balances : Balances} {actions : List (Action host)} {world : World}
    (run : Run (Step host) (World.deployed balances) actions world)
    (resizesFirst : ResizesFirst actions) {limit : UInt32} (limit_pos : 1 ≤ limit) :
    (∃ pages, Pages world limit 0 pages) ∧ ∀ pages, Pages world limit 0 pages →
      PagesCover limit (retainedEvents actions world) pages ∧
        pages.flatten.map DecodedEvent.seq =
          seqRange (oldestRetained (eventSeq world) (maxEvents world)) (eventSeq world) := by
  have holds := ringHolds_along resizesFirst.resizeFits _ (List.prefix_refl _) _ run
  have counted := (reachable_counted run).counted
  refine ⟨holds.pages_exist counted 0, fun pages read => ?_⟩
  have start : pageStart world 0 = (oldestRetained (eventSeq world) (maxEvents world)).toNat := by
    rw [oldestRetained_toNat, pageStart, UInt64.toNat_zero, Nat.zero_max]
  have cover := holds.pages_cover counted limit_pos read
  rw [start] at cover
  refine ⟨cover, ?_⟩
  rw [cover.flatten, numbered_drop_seqs counted]

/-- A thousand and one events, read in pages of fifty. -/
theorem pages_read_filled :
    ∃ pages, Pages filledWorld 50 0 pages ∧
      PagesCover 50 (retainedEvents fillActions filledWorld) pages := by
  have resizesFirst : ResizesFirst fillActions := by
    intro history env caller newMax below
    have member : .call env (.setMaxEvents caller newMax) ∈ fillActions := below.subset (by simp)
    rcases List.mem_append.mp member with first | later
    · cases List.mem_singleton.mp first
    · cases List.eq_of_mem_replicate later
  obtain ⟨⟨pages, read⟩, cover⟩ := pages_read_window fillActions_run resizesFirst
    (by decide : (1 : UInt32) ≤ 50)
  exact ⟨pages, read, (cover pages read).1⟩

end SorobanExplorer.Contract
