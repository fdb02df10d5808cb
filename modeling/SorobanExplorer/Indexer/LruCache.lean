import SorobanExplorer.Indexer.CacheLayer
import SorobanExplorer.Indexer.Cursor
import SorobanExplorer.Library.Glob
import SorobanExplorer.Library.LeastRecent

/-!
Owns `LRUCache` as a least recently used map with expiry, over all sequences of requests, and which
patterns remove from it the keys that `MATCH` of Redis removes.

How Redis matches is a parameter: it does what is documented for a pattern whose meaning is settled,
byte by byte.
-/

namespace SorobanExplorer.Indexer

open Library
open Filters (js JsString)

namespace CacheLayer

namespace LRUCache

/-! ### Requests -/

inductive Request where
  | get (key : JsString)
  | set (key : JsString) (value : Value) (ttlMs computeMs : ℕ)
  | delete (key : JsString)
  | deletePattern (pattern : JsString)

def serve (map : LRUCache) (maxSize now : ℕ) : Request → Option Entry × LRUCache
  | .get key => map.get now key
  | .set key value ttlMs computeMs =>
    (none, map.insert maxSize key ⟨value, now + ttlMs, computeMs⟩)
  | .delete key => (none, map.erase key)
  | .deletePattern pattern => (none, map.deletePattern pattern)

def serveAll (maxSize : ℕ) : LRUCache → List (ℕ × Request) → List (Option Entry) × LRUCache
  | map, [] => ([], map)
  | map, (now, request) :: requests =>
    let served := map.serve maxSize now request
    let rest := serveAll maxSize served.2 requests
    (served.1 :: rest.1, rest.2)

def Request.meaning (now : ℕ) : Request → LeastRecent.Request JsString Entry
  | .get key => .get key
  | .set key value ttlMs computeMs => .set key ⟨value, now + ttlMs, computeMs⟩
  | .delete key => .remove (· = key)
  | .deletePattern pattern => .remove (selects pattern)

/-- After all requests the size is within the limit, and the answers and the map are the ones of a
least recently used map. -/
def Refines (maxSize : ℕ) : Prop :=
  ∀ requests : List (ℕ × Request),
    (serveAll maxSize .empty requests).2.size ≤ maxSize ∧
    ∃ lru, LeastRecent.Runs Entry.expiresAt maxSize 0 .empty
        (requests.map fun request => (request.1, request.2.meaning request.1))
        (serveAll maxSize .empty requests).1 lru ∧
      LeastRecent.Represents requests.length (serveAll maxSize .empty requests).2 lru

section Refinement

variable {maxSize tick now : ℕ} {map : LRUCache} {lru : LeastRecent JsString Entry} {key : JsString}

theorem get_refines (represents : LeastRecent.Represents tick map lru) :
    (∃ next, LeastRecent.Serves Entry.expiresAt maxSize tick now lru (.get key)
        (map.get now key).1 next ∧ LeastRecent.Represents (tick + 1) (map.get now key).2 next) ∧
      (map.get now key).2.size ≤ map.size := by
  have held := represents.held key
  unfold LRUCache.get
  cases found : OrderedMap.get map key with
  | none => exact ⟨⟨lru, .miss (held.trans found), represents.later⟩, le_rfl⟩
  | some entry =>
    have there := held.trans found
    dsimp only
    split_ifs with past
    · exact ⟨⟨_, .expire there past, (represents.erase key).later⟩, List.length_filter_le _ _⟩
    · refine ⟨⟨_, .hit there (not_lt.mp past), represents.use⟩, ?_⟩
      have entry' := map.mem_entries_iff.mpr found
      have fewer : (map.erase key).size < map.size :=
        List.length_filter_lt_length_iff_exists.mpr ⟨_, entry', by simp⟩
      rw [LeastRecent.size_set_erase]
      exact fewer

theorem insert_refines (positive : 1 ≤ maxSize) (bounded : map.size ≤ maxSize) {entry : Entry}
    (represents : LeastRecent.Represents tick map lru) :
    (∃ next, LeastRecent.Serves Entry.expiresAt maxSize tick now lru (.set key entry) none next ∧
        LeastRecent.Represents (tick + 1) (map.insert maxSize key entry) next) ∧
      (map.insert maxSize key entry).size ≤ maxSize := by
  have others : (lru.others key).encard = (map.erase key).size := by
    rw [represents.others, LeastRecent.encard_keys]
  unfold LRUCache.insert
  dsimp only
  split_ifs with full
  · obtain ⟨victim, first⟩ := LeastRecent.oldest_isSome (map.erase key) (by omega)
    have least := (represents.erase key).least first
    have room := LeastRecent.size_erase_oldest (map.erase key) first
    have swapped : (map.erase key).erase victim = (map.erase victim).erase key := by
      simp only [OrderedMap.erase, List.filter_filter, Bool.and_comm]
    have smaller : (map.erase key).size ≤ map.size := List.length_filter_le _ _
    rw [first, Option.elim_some, swapped]
    refine ⟨⟨_, @LeastRecent.Serves.evict _ _ _ _ _ _ _ _ _ victim _ ?_ ?_ ?_,
      (represents.erase victim).use⟩, ?_⟩
    · rw [others]
      exact_mod_cast full
    · rw [represents.others]
      exact least.1
    · intro other listed
      rw [represents.others] at listed
      exact least.2 other listed
    · rw [LeastRecent.size_set_erase, ← swapped]
      omega
  · refine ⟨⟨_, .set ?_, represents.use⟩, ?_⟩
    · rw [others]
      exact_mod_cast not_le.mp full
    · rw [LeastRecent.size_set_erase]
      omega

theorem serve_refines (positive : 1 ≤ maxSize) (bounded : map.size ≤ maxSize)
    (represents : LeastRecent.Represents tick map lru) (request : Request) :
    (∃ next, LeastRecent.Serves Entry.expiresAt maxSize tick now lru (request.meaning now)
        (map.serve maxSize now request).1 next ∧
      LeastRecent.Represents (tick + 1) (map.serve maxSize now request).2 next) ∧
    (map.serve maxSize now request).2.size ≤ maxSize := by
  cases request with
  | get key =>
    have refined := @get_refines maxSize _ now _ _ key represents
    exact ⟨refined.1, refined.2.trans bounded⟩
  | set key value ttlMs computeMs => exact insert_refines positive bounded represents
  | delete key =>
    exact ⟨⟨_, .remove, (represents.erase key).later⟩,
      (List.length_filter_le _ _).trans bounded⟩
  | deletePattern pattern =>
    exact ⟨⟨_, .remove, (represents.discard (selects pattern)).later⟩,
      (LeastRecent.size_discard map _).trans bounded⟩

theorem serveAll_refines (positive : 1 ≤ maxSize) (bounded : map.size ≤ maxSize)
    (represents : LeastRecent.Represents tick map lru) (requests : List (ℕ × Request)) :
    (serveAll maxSize map requests).2.size ≤ maxSize ∧
    ∃ last, LeastRecent.Runs Entry.expiresAt maxSize tick lru
        (requests.map fun request => (request.1, request.2.meaning request.1))
        (serveAll maxSize map requests).1 last ∧
      LeastRecent.Represents (tick + requests.length) (serveAll maxSize map requests).2 last := by
  induction requests generalizing tick map lru with
  | nil => exact ⟨bounded, lru, .nil, represents⟩
  | cons request requests ih =>
    obtain ⟨now, request⟩ := request
    obtain ⟨⟨next, serves, later⟩, within⟩ :=
      @serve_refines _ _ now _ _ positive bounded represents request
    obtain ⟨small, last, runs, final⟩ := ih within later
    refine ⟨small, last, .cons serves runs, ?_⟩
    rw [List.length_cons, Nat.add_comm requests.length 1, ← Nat.add_assoc]
    exact final

theorem refines (positive : 1 ≤ maxSize) : Refines maxSize := by
  intro requests
  have run := @serveAll_refines _ _ .empty _ positive (Nat.zero_le _)
    (LeastRecent.represents_empty 0) requests
  rwa [Nat.zero_add] at run

end Refinement

/-! ### Patterns -/

/-- What is documented of `MATCH`. -/
def Documented (globMatch : List UInt8 → List UInt8 → Bool) : Prop :=
  ∀ pattern items, Glob.read pattern = some items →
    ∀ key, globMatch pattern key = true ↔ Glob.Matches items key

def Agrees (globMatch : List UInt8 → List UInt8 → Bool) (pattern : JsString) : Prop :=
  ∀ (map : LRUCache) (key : JsString), OrderedMap.get (map.deletePattern pattern) key =
    if globMatch (utf8 pattern) (utf8 key) then none else OrderedMap.get map key

/-- The characters that a text at the start of a pattern must not have: the special ones, and the
one that a lone surrogate is sent as. -/
def special : List Char := ['*', '?', '[', '\\', Char.ofNat 0xFFFD]

def TextAndStar (pattern : JsString) : Prop :=
  ∃ text : List Char, text ≠ [] ∧ (∀ char ∈ text, char ∉ special) ∧
    pattern = Utf16.encode text ++ [0x2A]

theorem utf8_decode_encode (key : JsString) :
    utf8 (Utf16.encode (Utf16.decode key)) = utf8 key := by
  rw [utf8, Utf16.decode_encode, utf8]

section Patterns

variable {globMatch : List UInt8 → List UInt8 → Bool} {pattern stem key : JsString}
  {items : List Glob.Item}

theorem agrees_iff :
    Agrees globMatch pattern ↔
      ∀ key, globMatch (utf8 pattern) (utf8 key) = true ↔ selects pattern key = true := by
  unfold Agrees deletePattern
  constructor
  · intro agrees key
    have alone := agrees (OrderedMap.empty.set key ⟨⟨[], 0⟩, 0, 0⟩) key
    rw [OrderedMap.get_discard, OrderedMap.get_set, if_pos rfl] at alone
    split_ifs at alone with selected matched matched
    · exact iff_of_true matched selected
    · exact iff_of_false matched selected
  · intro same map key
    rw [OrderedMap.get_discard]
    simp only [same key]

theorem selects_stem (nonempty : stem ≠ []) :
    selects (stem ++ [0x2A]) key = true ↔ stem <+: key := by
  rw [selects, if_pos ⟨List.getLast?_concat, by simpa using nonempty⟩, List.dropLast_concat,
    List.isPrefixOf_iff_prefix]

theorem selects_own (exact : ∀ stem, stem ≠ [] → pattern ≠ stem ++ [0x2A]) :
    selects pattern key = true ↔ key = pattern := by
  rw [selects, if_neg, decide_eq_true_eq]
  rintro ⟨star, nonempty⟩
  apply exact pattern.dropLast nonempty
  exact (List.dropLast_append_getLast? _ star).symm

theorem utf8_star (stem : JsString) : utf8 (stem ++ [0x2A]) = utf8 stem ++ [0x2A] := by
  rw [utf8, Utf16.decode_append_cons rfl, Utf8.encode_append]
  rfl

theorem text_of_isPrefix (starts : stem <+: Utf16.encode (Utf16.decode stem)) :
    stem = Utf16.encode (Utf16.decode stem) :=
  starts.eq_of_length (Utf16.length_encode_decode stem).symm

theorem not_agrees_own (documented : Documented globMatch) (starred : isPattern pattern = true)
    (exact : ∀ stem, stem ≠ [] → pattern ≠ stem ++ [0x2A])
    (parsed : Glob.read (utf8 pattern) = some items) : ¬ Agrees globMatch pattern := by
  intro agrees
  have same (key : JsString) : Glob.Matches items (utf8 key) ↔ key = pattern :=
    (documented _ _ parsed _).symm.trans ((agrees_iff.mp agrees key).trans (selects_own exact))
  have own := (same pattern).mpr rfl
  have star := Utf16.mem_decode (List.contains_iff_mem.mp starred) (by decide)
  by_cases free : Glob.Item.star ∈ items
  · have twice := own.twice free
    obtain ⟨text, decoded⟩ : ∃ text, text = Utf16.decode pattern := ⟨_, rfl⟩
    have both : utf8 (Utf16.encode (text ++ text)) = utf8 pattern ++ utf8 pattern := by
      rw [utf8_encode, Utf8.encode_append, decoded, utf8]
    rw [← both, same] at twice
    have double := congrArg (List.length ∘ Utf16.decode) twice
    simp only [Function.comp, Utf16.decode_encode, ← decoded, List.length_append] at double
    rw [← decoded] at star
    have filled := List.length_pos_of_mem star
    omega
  · have full := Glob.read_full parsed (own.length_eq free).symm
    have byte : 0x2A ∈ utf8 pattern := (Utf8.mem_encode_iff (by decide)).mpr star
    exact free (full.1 ▸ List.mem_map_of_mem byte)

theorem matches_marked {left right : List Char}
    (stars : 0x2A ∉ Utf8.encode (left ++ '?' :: right)) :
    Glob.Matches ((Utf8.encode (left ++ '?' :: right)).map Glob.direct)
      (Utf8.encode (left ++ 'a' :: right)) := by
  rw [Utf8.encode_append, Utf8.encode_cons] at stars ⊢
  rw [List.mem_append, List.mem_append, not_or, not_or] at stars
  rw [Utf8.encode_append, Utf8.encode_cons, List.map_append, List.map_append]
  refine Glob.matches_append_iff.mpr ⟨_, _, rfl, Glob.matches_direct stars.1, ?_⟩
  exact .one rfl (Glob.matches_direct stars.2.2)

theorem utf8_replaced (left right : List Char) :
    utf8 (Utf16.encode left ++ 0xDC00 :: Utf16.encode right) =
      Utf8.encode (left ++ Char.ofNat 0xFFFD :: right) := by
  rw [utf8, Utf16.decode_encode_append, Utf16.decode_cons_single rfl, Utf16.decode_encode]
  rfl

theorem textAndStar_of_agrees (documented : Documented globMatch) (nonempty : stem ≠ [])
    (parsed : Glob.read (utf8 (stem ++ [0x2A])) = some items)
    (agrees : Agrees globMatch (stem ++ [0x2A])) : TextAndStar (stem ++ [0x2A]) := by
  have same (key : JsString) : Glob.Matches items (utf8 key) ↔ stem <+: key :=
    (documented _ _ parsed _).symm.trans ((agrees_iff.mp agrees key).trans (selects_stem nonempty))
  obtain ⟨text, decoded⟩ : ∃ text, text = Utf16.decode stem := ⟨_, rfl⟩
  have bytes : utf8 stem = Utf8.encode text := by rw [decoded, utf8]
  have own := (same stem).mpr (List.prefix_refl stem)
  -- The text that is sent in the stem's place is matched too.
  have units : stem = Utf16.encode text := by
    rw [decoded]
    apply text_of_isPrefix
    rwa [← same, utf8_decode_encode]
  have among (other : List Char) (matched : Glob.Matches items (Utf8.encode other)) :
      text <+: other := by
    rw [← utf8_encode, same, units] at matched
    obtain ⟨rest, same⟩ := matched
    have decodes := congrArg Utf16.decode same
    rw [Utf16.decode_encode_append, Utf16.decode_encode] at decodes
    exact ⟨_, decodes⟩
  rw [bytes] at own
  rw [utf8_star, bytes, Glob.read] at parsed
  obtain ⟨before, prior, rfl⟩ | ⟨⟨before, rfl⟩, escaped⟩ := Glob.readFrom_star parsed
  · obtain ⟨left, right, split, unfinished, matched⟩ | ⟨rfl, stars, escapes, classes⟩ :=
      Glob.stem_cases prior own
    · obtain ⟨other, ⟨between, begins⟩, apart⟩ := Utf8.diverges split unfinished
      have longer := among (other ++ text)
      rw [Utf8.encode_append, ← begins, List.append_assoc] at longer
      exact absurd (longer (matched between)) (apart text)
    · refine ⟨text, ?_, ?_, by rw [units]⟩
      · rintro rfl
        exact nonempty units
      · intro char listed forbidden
        obtain ⟨left, right, rfl⟩ := List.append_of_mem listed
        simp only [special, List.mem_cons, List.not_mem_nil, or_false] at forbidden
        obtain rfl | rfl | rfl | rfl | rfl := forbidden
        · exact stars ((Utf8.mem_encode_iff (by decide)).mpr listed)
        · have marked := among (left ++ 'a' :: right)
            (Glob.matches_append_iff.mpr ⟨_, [], (List.append_nil _).symm,
              matches_marked stars, .star [] .nil⟩)
          have equal := marked.eq_of_length (by simp)
          simp at equal
        · exact classes ((Utf8.mem_encode_iff (by decide)).mpr listed)
        · exact escapes ((Utf8.mem_encode_iff (by decide)).mpr listed)
        · have replaced := (same (Utf16.encode left ++ 0xDC00 :: Utf16.encode right)).mp
            (by rwa [utf8_replaced])
          rw [units, Utf16.encode_append, Utf16.encode_cons, List.prefix_append_right_inj]
            at replaced
          exact absurd (List.cons_prefix_cons.mp replaced).1 (by decide)
  · obtain ⟨left, right, split, -, last⟩ := Glob.matches_append_iff.mp own
    have final : right = [0x2A] := Glob.matches_literals_iff.mp last
    rw [split, final, List.getLast?_concat] at escaped
    simp at escaped

theorem agrees_of_textAndStar (documented : Documented globMatch) (plain : TextAndStar pattern) :
    Agrees globMatch pattern := by
  obtain ⟨text, nonempty, characters, rfl⟩ := plain
  have absent {byte : UInt8} (ascii : byte.toNat < 0x80)
      (forbidden : Char.ofNat byte.toNat ∈ special) : byte ∉ Utf8.encode text := fun listed =>
    characters _ ((Utf8.mem_encode_iff ascii).mp listed) forbidden
  have real : Char.ofNat 0xFFFD ∉ text := fun listed => characters _ listed (by decide)
  have parsed : Glob.read (utf8 (Utf16.encode text ++ [0x2A])) =
      some ((Utf8.encode text).map .literal ++ [.star]) := by
    rw [utf8_star, utf8_encode, Glob.read_literals (absent (by decide) (by decide))
      (absent (by decide) (by decide)) (absent (by decide) (by decide))
      (absent (by decide) (by decide))]
    rfl
  rw [agrees_iff]
  intro key
  rw [documented _ _ parsed, selects_stem (Utf16.encode_ne_nil nonempty)]
  constructor
  · intro matched
    obtain ⟨left, right, split, own, -⟩ := Glob.matches_append_iff.mp matched
    have starts : text <+: Utf16.decode key := by
      rw [← Utf8.encode_isPrefix_iff, ← Glob.matches_literals_iff.mp own]
      exact ⟨right, split.symm⟩
    obtain ⟨rest, decoded⟩ := starts
    obtain ⟨tail, rfl, -⟩ := Utf16.units_of_decode decoded.symm real
    exact List.prefix_append ..
  · rintro ⟨rest, rfl⟩
    rw [utf8, Utf16.decode_encode_append, Utf8.encode_append]
    refine Glob.matches_append_iff.mpr ⟨_, _, rfl, Glob.matches_literals_iff.mpr rfl, ?_⟩
    exact Glob.matches_star_iff.mpr ⟨_, [], (List.append_nil _).symm, .nil⟩

theorem exists_documented :
    ∃ globMatch, Documented globMatch ∧ ∀ pattern key, globMatch pattern key = true →
      ∃ items, Glob.read pattern = some items := by
  classical
  refine ⟨fun pattern key => decide (∃ items, Glob.read pattern = some items ∧
    Glob.Matches items key), ?_, ?_⟩
  · intro pattern items parsed key
    simp [parsed]
  · intro pattern key matched
    obtain ⟨items, parsed, -⟩ := of_decide_eq_true matched
    exact ⟨items, parsed⟩

theorem agrees_iff_textAndStar (starred : isPattern pattern = true) :
    (∀ globMatch, Documented globMatch → Agrees globMatch pattern) ↔ TextAndStar pattern := by
  constructor
  · intro every
    obtain ⟨globMatch, documented, settled⟩ := exists_documented
    have agrees := every globMatch documented
    have read (key : JsString) (selected : selects pattern key = true) :
        ∃ items, Glob.read (utf8 pattern) = some items :=
      settled _ _ ((agrees_iff.mp agrees key).mpr selected)
    by_cases stemmed : ∃ stem, stem ≠ [] ∧ pattern = stem ++ [0x2A]
    · obtain ⟨stem, nonempty, rfl⟩ := stemmed
      obtain ⟨items, parsed⟩ := read stem ((selects_stem nonempty).mpr (List.prefix_refl stem))
      exact textAndStar_of_agrees documented nonempty parsed agrees
    · have exact (stem : JsString) (nonempty : stem ≠ []) (same : pattern = stem ++ [0x2A]) :=
        stemmed ⟨stem, nonempty, same⟩
      obtain ⟨items, parsed⟩ := read pattern ((selects_own exact).mpr rfl)
      exact absurd agrees (not_agrees_own documented starred exact parsed)
  · intro plain globMatch documented
    exact agrees_of_textAndStar documented plain

/-- The cache is a least recently used map with expiry; and L1 removes what Redis removes exactly
for a text without special characters and a star after it. -/
theorem refines_and_agrees_iff {maxSize : ℕ} (positive : 1 ≤ maxSize)
    (starred : isPattern pattern = true) :
    Refines maxSize ∧ ((∀ globMatch, Documented globMatch → Agrees globMatch pattern) ↔
      TextAndStar pattern) :=
  ⟨refines positive, agrees_iff_textAndStar starred⟩

theorem refines_and_agrees_eventsList :
    Refines 1 ∧ ((∀ globMatch, Documented globMatch → Agrees globMatch (js "events:list:*")) ↔
      TextAndStar (js "events:list:*")) :=
  refines_and_agrees_iff (le_refl 1) (by decide)

/-- The key of a contract on a network is not removed for all networks. -/
theorem singleContract_disagrees :
    ¬ (Refines 1 ∧ ∀ globMatch, Documented globMatch →
      Agrees globMatch (js "contracts:single:*:id")) := by
  rintro ⟨-, agrees⟩
  obtain ⟨text, nonempty, characters, same⟩ := (agrees_iff_textAndStar (by decide)).mp agrees
  have last := congrArg List.getLast? same
  rw [List.getLast?_concat] at last
  exact absurd last (by decide)

end Patterns

end LRUCache

end CacheLayer

end SorobanExplorer.Indexer
