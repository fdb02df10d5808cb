import SorobanExplorer.Contract.Window
import SorobanExplorer.Library.MountainRange

/-!
Owns the rolling commitment: the bytes hashed for an event, `append` and `root`
over storage against the mountain range of the leaves, and what `get_root`
reports of the events submitted in a run. Last, runs of `append` alone: what the storage holds
after any number of leaves, and what `root` bags of it.
-/

namespace SorobanExplorer.Contract

open Library

/-! ### Leaves -/

/-- `to_be_bytes` of a number of `width` bytes. -/
def bigEndian : (width : Nat) → Nat → List UInt8
  | 0, _ => []
  | width + 1, value => bigEndian width (value / 256) ++ [UInt8.ofNat value]

@[simp] theorem bigEndian_length (width value : Nat) : (bigEndian width value).length = width := by
  induction width generalizing value with
  | zero => rfl
  | succ width ih => simp [bigEndian, ih]

theorem bigEndian_injective {width left right : Nat} (leftSmall : left < 256 ^ width)
    (rightSmall : right < 256 ^ width) (same : bigEndian width left = bigEndian width right) :
    left = right := by
  induction width generalizing left right with
  | zero => omega
  | succ width ih =>
    obtain ⟨high, low⟩ := List.append_inj' same rfl
    have leftQuotient : left / 256 < 256 ^ width := by
      rw [pow_succ] at leftSmall
      omega
    have rightQuotient : right / 256 < 256 ^ width := by
      rw [pow_succ] at rightSmall
      omega
    have quotient := ih leftQuotient rightQuotient high
    have remainder : left % 256 = right % 256 := by
      have bytes := congrArg UInt8.toNat (List.singleton_inj.mp low)
      simpa [UInt8.toNat_ofNat'] using bytes
    omega

/-- The bytes `event_leaf` hashes. -/
def eventPreimage (event : DecodedEvent) : List UInt8 :=
  bigEndian 8 event.seq.toNat ++ event.contractId.toList ++ event.function.bytes ++
    bigEndian 4 event.ledger.toNat ++ event.description.items ++ event.rawData.items

/-- `event_leaf` -/
def eventLeaf (host : Host) (event : DecodedEvent) : BytesN 32 := host.sha256 (eventPreimage event)

def eventTail (event : DecodedEvent) : List UInt8 :=
  bigEndian 4 event.ledger.toNat ++ event.description.items ++ event.rawData.items

/-- The second function name goes on with the first bytes of the first tail, and
the second tail with the rest of them. -/
def Slides (first second : DecodedEvent) : Prop :=
  ∃ shift, second.function.bytes = first.function.bytes ++ shift ∧
    eventTail first = shift ++ eventTail second

def Confusable (first second : DecodedEvent) : Prop :=
  first.seq = second.seq ∧ first.contractId = second.contractId ∧
    (Slides first second ∨ Slides second first)

theorem eventPreimage_eq (event : DecodedEvent) : eventPreimage event =
    bigEndian 8 event.seq.toNat ++ (event.contractId.toList ++
      (event.function.bytes ++ eventTail event)) := by
  simp [eventPreimage, eventTail]

theorem eventPreimage_eq_iff (first second : DecodedEvent) :
    eventPreimage first = eventPreimage second ↔ Confusable first second := by
  have small (event : DecodedEvent) : event.seq.toNat < 256 ^ 8 := event.seq.toNat_lt_size
  rw [eventPreimage_eq, eventPreimage_eq]
  constructor
  · intro same
    obtain ⟨seqs, rest⟩ := List.append_inj same (by simp)
    obtain ⟨ids, rest⟩ := List.append_inj rest (by simp)
    refine ⟨?_, ?_, ?_⟩
    · exact UInt64.toNat_inj.mp (bigEndian_injective (small first) (small second) seqs)
    · exact Vector.toList_inj.mp ids
    · exact List.append_eq_append_iff.mp rest
  · rintro ⟨seqs, ids, slides⟩
    rw [seqs, ids, List.append_eq_append_iff.mpr slides]

/-- Two events have different pre-images unless they are confusable. -/
theorem eventPreimage_separates_iff (first second : DecodedEvent) :
    (first ≠ second → eventPreimage first ≠ eventPreimage second) ↔
      (first = second ∨ ¬ Confusable first second) := by
  rw [ne_eq, ne_eq, eventPreimage_eq_iff]
  exact Decidable.imp_iff_or_not.trans (by tauto)

/-- A description and data that are cut at another place. -/
theorem eventPreimage_collides : ¬ ∀ first second : DecodedEvent, first ≠ second →
    eventPreimage first ≠ eventPreimage second := by
  intro claim
  apply claim
    { decodedEvent 0 exampleInput with description := ⟨[97, 98], by decide⟩ }
    { decodedEvent 0 exampleInput with
      description := ⟨[97], by decide⟩, rawData := ⟨[98], by decide⟩ }
  · decide
  · decide

/-! ### Appending -/

namespace Mmr

variable (host : Host)

/-- The `while` loop over the levels still to visit, and the write after it. A
shift by 64 overflows. -/
def carryUp (count : UInt64) : List UInt32 → BytesN 32 → Call Unit
  | [], _ => Tx.abort .trap
  | level :: levels, carry =>
    if count &&& (1 <<< level.toUInt64) ≠ 0 then do
      let left ← unwrap (← get (.mmrPeak level))
      remove (.mmrPeak level)
      carryUp count levels (hashPair host left carry)
    else set (.mmrPeak level) carry

def append (leaf : BytesN 32) : Call Unit := do
  let stored ← get .mmrLeafCount
  let count : UInt64 := stored.getD 0
  carryUp host count ((List.range 64).map UInt32.ofNat) leaf
  let next ← unwrap (checkedAdd64 count 1)
  set .mmrLeafCount next

def levelsFrom (level : Nat) : List UInt32 := (List.range' level (64 - level)).map UInt32.ofNat

theorem levelsFrom_zero : levelsFrom 0 = (List.range 64).map UInt32.ofNat := by
  rw [levelsFrom, List.range_eq_range']

theorem levelsFrom_of_lt {level : Nat} (below : level < 64) :
    levelsFrom level = UInt32.ofNat level :: levelsFrom (level + 1) := by
  have count : 64 - level = (64 - (level + 1)) + 1 := by omega
  rw [levelsFrom, count, List.range'_succ, List.map_cons, levelsFrom]

theorem ofNat_level_inj {left right : Nat} (leftBelow : left < 64) (rightBelow : right < 64)
    (same : UInt32.ofNat left = UInt32.ofNat right) : left = right := by
  have numbers := congrArg UInt32.toNat same
  rwa [UInt32.toNat_ofNat_of_lt' (by simp [UInt32.size]; omega),
    UInt32.toNat_ofNat_of_lt' (by simp [UInt32.size]; omega)] at numbers

theorem mask_ne_zero_iff (count : UInt64) {level : Nat} (below : level < 64) :
    count &&& (1 <<< (UInt32.ofNat level).toUInt64) ≠ 0 ↔ count.toNat.testBit level = true := by
  have shift : ((1 : UInt64) <<< (UInt32.ofNat level).toUInt64).toNat = 2 ^ level := by
    rw [UInt64.toNat_shiftLeft, UInt32.toNat_toUInt64,
      UInt32.toNat_ofNat_of_lt' (by simp [UInt32.size]; omega), Nat.mod_eq_of_lt below]
    have small : 2 ^ level < 2 ^ 64 := Nat.pow_lt_pow_right (by norm_num) below
    simpa [Nat.shiftLeft_eq] using small
  rw [ne_eq, ← UInt64.toNat_inj, UInt64.toNat_and, shift, Nat.and_two_pow]
  cases count.toNat.testBit level <;> simp

def PeaksFrom (level : Nat) (peaks : List (Option (BytesN 32))) (storage : Storage) : Prop :=
  ∀ place, level + place < 64 →
    storage (.mmrPeak (UInt32.ofNat (level + place))) = peaks[place]?.join

def MatchBits (level : Nat) (peaks : List (Option (BytesN 32))) (count : UInt64) : Prop :=
  ∀ place, level + place < 64 →
    (peaks[place]?.join).isSome = count.toNat.testBit (level + place)

theorem PeaksFrom.tail {level : Nat} {peak : Option (BytesN 32)}
    {peaks : List (Option (BytesN 32))} {storage : Storage}
    (stored : PeaksFrom level (peak :: peaks) storage) : PeaksFrom (level + 1) peaks storage := by
  intro place below
  have shifted := stored (place + 1) (by omega)
  rwa [List.getElem?_cons_succ, show level + (place + 1) = level + 1 + place by omega] at shifted

theorem MatchBits.tail {level : Nat} {peak : Option (BytesN 32)}
    {peaks : List (Option (BytesN 32))} {count : UInt64}
    (bits : MatchBits level (peak :: peaks) count) : MatchBits (level + 1) peaks count := by
  intro place below
  have shifted := bits (place + 1) (by omega)
  rwa [List.getElem?_cons_succ, show level + (place + 1) = level + 1 + place by omega] at shifted

theorem PeaksFrom.put {level : Nat} (below : level < 64) {peaks : List (Option (BytesN 32))}
    {storage : Storage} (stored : PeaksFrom (level + 1) peaks storage) (carry : BytesN 32) :
    PeaksFrom level (some carry :: peaks)
      (storage.put (.mmrPeak (UInt32.ofNat level)) carry) := by
  intro place bound
  cases place with
  | zero => exact Store.put_same ..
  | succ place =>
    have other : DataKey.mmrPeak (UInt32.ofNat (level + (place + 1))) ≠
        .mmrPeak (UInt32.ofNat level) := by
      intro same
      have levels := ofNat_level_inj bound below (DataKey.mmrPeak.inj same)
      omega
    rw [Store.put_of_ne _ _ other, List.getElem?_cons_succ,
      show level + (place + 1) = level + 1 + place by omega]
    exact stored place (by omega)

theorem carryUp_ok {count : UInt64} {level : Nat} {peaks : List (Option (BytesN 32))}
    {carry : BytesN 32} {world : World} (stored : PeaksFrom level peaks world.storage)
    (bits : MatchBits level peaks count)
    (free : ∃ top, level ≤ top ∧ top < 64 ∧ count.toNat.testBit top = false) :
    ∃ after, carryUp host count (levelsFrom level) carry world = .ok ((), after) ∧
      PeaksFrom level (MountainRange.push (hashPair host) peaks carry) after.storage ∧
        ∀ key, (∀ place, level ≤ place → place < 64 → key ≠ .mmrPeak (UInt32.ofNat place)) →
          after.storage key = world.storage key := by
  induction peaks generalizing level carry world with
  | nil =>
    obtain ⟨top, le, below, _⟩ := free
    have inside : level < 64 := by omega
    have unset := bits 0 inside
    have noMask := (mask_ne_zero_iff count inside).not.mpr (by simpa using unset.symm)
    refine ⟨world.put (.mmrPeak (UInt32.ofNat level)) carry, ?_, ?_, ?_⟩
    · rw [levelsFrom_of_lt inside, carryUp, if_neg noMask]
      rfl
    · apply PeaksFrom.put inside
      intro place bound
      have shifted := stored (place + 1) (by omega)
      rwa [show level + (place + 1) = level + 1 + place by omega] at shifted
    · intro key other
      exact Store.put_of_ne _ _ (other level le_rfl inside)
  | cons peak peaks ih =>
    obtain ⟨top, le, below, open_⟩ := free
    have inside : level < 64 := by omega
    have bit : peak.isSome = count.toNat.testBit level := bits 0 inside
    have read : world.storage (.mmrPeak (UInt32.ofNat level)) = peak := stored 0 inside
    cases peak with
    | none =>
      have noMask := (mask_ne_zero_iff count inside).not.mpr (by simp [← bit])
      refine ⟨world.put (.mmrPeak (UInt32.ofNat level)) carry, ?_, ?_, ?_⟩
      · rw [levelsFrom_of_lt inside, carryUp, if_neg noMask]
        rfl
      · exact PeaksFrom.put inside stored.tail carry
      · intro key other
        exact Store.put_of_ne _ _ (other level le_rfl inside)
    | some left =>
      have mask := (mask_ne_zero_iff count inside).mpr bit.symm
      have erased : PeaksFrom (level + 1) peaks
          (world.erase (.mmrPeak (UInt32.ofNat level))).storage := by
        intro place bound
        have other : DataKey.mmrPeak (UInt32.ofNat (level + 1 + place)) ≠
            .mmrPeak (UInt32.ofNat level) := by
          intro same
          have levels := ofNat_level_inj bound inside (DataKey.mmrPeak.inj same)
          omega
        exact (Store.erase_of_ne _ other).trans (stored.tail place bound)
      have above : level + 1 ≤ top := by
        apply Nat.lt_of_le_of_ne le
        rintro rfl
        rw [← bit] at open_
        cases open_
      obtain ⟨after, ran, pushed, frame⟩ := @ih _ (hashPair host left carry)
        _ erased bits.tail ⟨top, above, below, open_⟩
      refine ⟨after, ?_, ?_, ?_⟩
      · rw [levelsFrom_of_lt inside, carryUp, if_pos mask]
        simp only [read_bind_ok, unwrap_bind_ok, update_bind_ok]
        exact ⟨left, read, ran⟩
      · intro place bound
        cases place with
        | zero =>
          have untouched : after.storage (.mmrPeak (UInt32.ofNat level)) =
              (world.erase (.mmrPeak (UInt32.ofNat level))).storage
                (.mmrPeak (UInt32.ofNat level)) := by
            apply frame
            intro place above small same
            have levels := ofNat_level_inj inside small (DataKey.mmrPeak.inj same)
            omega
          exact untouched.trans (Store.erase_same ..)
        | succ place =>
          rw [show level + (place + 1) = level + 1 + place by omega]
          exact pushed place (by omega)
      · intro key other
        have kept := frame key fun place above => other place (by omega)
        exact kept.trans (Store.erase_of_ne _ (other level le_rfl inside))

def rangeRoot (leaves : List (BytesN 32)) : BytesN 32 :=
  (MountainRange.root (hashPair host) leaves).getD (Vector.replicate 32 0)

structure Commits (leaves : List (BytesN 32)) (storage : Storage) : Prop where
  count : ((storage .mmrLeafCount).getD 0).toNat = leaves.length
  peaks : PeaksFrom 0 (MountainRange.counter (hashPair host) leaves) storage

variable {host} {leaves : List (BytesN 32)} {world : World}

theorem Commits.of_unused (count : world.storage .mmrLeafCount = none)
    (peaks : ∀ level, world.storage (.mmrPeak level) = none) :
    Commits host [] world.storage where
  count := by rw [count]; rfl
  peaks := fun place _ => by rw [peaks]; rfl

theorem Commits.matchBits (commits : Commits host leaves world.storage) :
    MatchBits 0 (MountainRange.counter (hashPair host) leaves)
      ((world.storage .mmrLeafCount).getD 0) := by
  intro place _
  rw [MountainRange.counter_getElem?, MountainRange.peakAt_isSome, commits.count, Nat.zero_add]

theorem append_commits (commits : Commits host leaves world.storage)
    (room : leaves.length + 1 < UInt64.size) (leaf : BytesN 32) :
    ∃ after, append host leaf world = .ok ((), after) ∧
      Commits host (leaves ++ [leaf]) after.storage := by
  have free := @MountainRange.exists_unset_bit _ 64 room
  rw [← commits.count] at free
  obtain ⟨top, below, unset⟩ := free
  obtain ⟨carried, ran, pushed, frame⟩ := @carryUp_ok host _ _ _ leaf _ commits.peaks
    commits.matchBits ⟨top, Nat.zero_le top, below, unset⟩
  obtain ⟨next, added, value⟩ : ∃ next,
      checkedAdd64 ((world.storage .mmrLeafCount).getD 0) 1 = some next ∧
        next.toNat = leaves.length + 1 := by
    refine ⟨UInt64.ofNat (leaves.length + 1), ?_, UInt64.toNat_ofNat_of_lt' room⟩
    rw [checkedAdd64_eq_some, UInt64.toNat_ofNat_of_lt' room, commits.count]
    rfl
  refine ⟨carried.put .mmrLeafCount next, ?_, ?_, ?_⟩
  · rw [append, read_bind_ok, ← levelsFrom_zero, Tx.bind_eq_ok]
    exact ⟨(), carried, ran, unwrap_bind_ok.mpr ⟨next, added, rfl⟩⟩
  · rw [World.put_storage, Store.put_same, List.length_append]
    exact value
  · intro place bound
    rw [World.put_storage, Store.put_of_ne _ _ (by simp), MountainRange.counter_snoc]
    exact pushed place bound

theorem bagPeaks_apply {count : UInt64} {peak : Nat → Option (BytesN 32)} {levels : List Nat}
    (inside : ∀ level ∈ levels, level < 64)
    (stored : ∀ level < 64, world.storage (.mmrPeak (UInt32.ofNat level)) = peak level)
    (bits : ∀ level < 64, (peak level).isSome = count.toNat.testBit level)
    (acc : Option (BytesN 32)) :
    bagPeaks host count (levels.map UInt32.ofNat) acc world =
      .ok (levels.foldl (fun acc level => MountainRange.bagPeak (hashPair host) acc (peak level)) acc,
        world) := by
  induction levels generalizing acc with
  | nil => rfl
  | cons level levels ih =>
    obtain ⟨here, rest⟩ := List.forall_mem_cons.mp inside
    rw [List.map_cons, bagPeaks, List.foldl_cons]
    cases found : peak level with
    | none =>
      have noMask := (mask_ne_zero_iff count here).not.mpr (by simp [← bits level here, found])
      rw [if_neg noMask]
      exact ih rest acc
    | some value =>
      have mask := (mask_ne_zero_iff count here).mpr (by simp [← bits level here, found])
      rw [if_pos mask, read_bind_ok, stored level here, unwrap_bind_ok]
      cases acc with
      | none => exact ⟨value, found, ih rest _⟩
      | some right => exact ⟨value, found, ih rest _⟩

theorem root_commits (commits : Commits host leaves world.storage) :
    root host world = .ok ((rangeRoot host leaves, (world.storage .mmrLeafCount).getD 0), world) := by
  have small : leaves.length < 2 ^ 64 := commits.count ▸ UInt64.toNat_lt_size _
  rw [root, read_bind_ok]
  by_cases zero : (world.storage .mmrLeafCount).getD 0 = 0
  · have empty : leaves = [] := by
      rw [← List.length_eq_zero_iff, ← commits.count, zero]
      rfl
    rw [if_pos zero, zero, empty]
    rfl
  · rw [if_neg zero, Tx.bind_eq_ok]
    have stored (level : Nat) (below : level < 64) :
        world.storage (.mmrPeak (UInt32.ofNat level)) =
          MountainRange.peakAt (hashPair host) leaves level := by
      rw [← MountainRange.counter_getElem?, ← commits.peaks level (by omega), Nat.zero_add]
    have bits (level : Nat) (_ : level < 64) :
        (MountainRange.peakAt (hashPair host) leaves level).isSome =
          ((world.storage .mmrLeafCount).getD 0).toNat.testBit level := by
      rw [MountainRange.peakAt_isSome, commits.count]
    have bagged := @bagPeaks_apply host _ _ _ (List.range 64)
      (fun level => List.mem_range.mp) stored bits none
    have nonempty : leaves ≠ [] := by
      rintro rfl
      exact zero (UInt64.toNat_inj.mp commits.count)
    obtain ⟨value, some_root⟩ := Option.isSome_iff_exists.mp
      (MountainRange.root_isSome (hashPair host) nonempty)
    refine ⟨_, world, bagged, ?_⟩
    rw [show List.foldl _ none (List.range 64) = MountainRange.root (hashPair host) leaves from
      MountainRange.bagBelow_root (hashPair host) small, unwrap_bind_ok]
    exact ⟨value, some_root, by rw [rangeRoot, some_root]; rfl⟩

end Mmr

/-! ### What a run commits to -/

variable {host : Host}

def commitmentKeys : Set DataKey :=
  { key | match key with
    | .mmrLeafCount | .mmrPeak _ => True
    | _ => False }

theorem commitmentKeys_outside {key : DataKey} (member : key ∈ commitmentKeys) :
    key ∈ configurationKeysᶜ ∧ key ∈ registryKeysᶜ ∧ key ∈ eventKeysᶜ := by
  refine ⟨?_, ?_, ?_⟩ <;> intro inside <;> cases key <;> first | exact inside | exact member

theorem Step.commitment {before after : World} {action : Action host}
    (step : Step host before action after) :
    Store.AgreeOn commitmentKeys before.storage after.storage := by
  have start := Store.AgreeOn.refl commitmentKeys before.storage
  cases step.transition with
  | others | read => exact start
  | configured isConfiguration frame =>
    exact fun key member => frame key (commitmentKeys_outside member).1
  | initialized ok =>
    obtain ⟨_, cap, _, _, _, rfl⟩ := init_ok.mp ok
    exact ((((start.put_right id _).put_right id _).put_right id _).put_right id _).put_right id _
  | resized ok =>
    obtain ⟨_, _, _, rfl⟩ := setMaxEvents_ok.mp ok
    exact start.put_right id _
  | paused ok | unpaused ok =>
    obtain ⟨_, _, rfl⟩ := setPaused_ok.mp ok
    exact start.put_right id _
  | registered | updated | deregistered | attested | claimed =>
    exact fun key member => registry_frame rfl step key (commitmentKeys_outside member).2.1
  | submitted ok =>
    exact fun key member => submitEvent_frame ok key (commitmentKeys_outside member).2.2
  | submittedBatch ok =>
    exact fun key member => submitEvents_frame ok key (commitmentKeys_outside member).2.2

section Runs

variable {balances : Balances} {history : List (Action host)} {world : World}

theorem reachable_commits (reached : Run (Step host) (World.deployed balances) history world) :
    Mmr.Commits host [] world.storage := by
  have unwritten : Store.AgreeOn commitmentKeys (World.deployed balances).storage world.storage := by
    apply reached.invariant (P := fun world =>
      Store.AgreeOn commitmentKeys (World.deployed balances).storage world.storage)
    · exact Store.AgreeOn.refl _ _
    · exact fun _ _ _ agree step => agree.trans (Step.commitment step)
  apply Mmr.Commits.of_unused
  · exact (unwritten .mmrLeafCount trivial).symm
  · exact fun level => (unwritten (.mmrPeak level) trivial).symm

theorem reachable_root (reached : Run (Step host) (World.deployed balances) history world) :
    Mmr.root host world = .ok ((Vector.replicate 32 0, 0), world) := by
  have commits := reachable_commits reached
  have zero : (world.storage .mmrLeafCount).getD 0 = (0 : UInt64) :=
    UInt64.toNat_inj.mp commits.count
  rw [Mmr.root_commits commits, zero]
  rfl

/-- `get_root` reports the root over the leaves of all submitted events, and
`EventSeq`. -/
def CommitmentExact (history : List (Action host)) (world : World) : Prop :=
  Mmr.root host world = .ok ((Mmr.rangeRoot host
    ((numbered (submissions history)).map (eventLeaf host)), eventSeq world), world)

theorem CommitmentExact.silent (exact_root : CommitmentExact history world)
    (reached : Run (Step host) (World.deployed balances) history world) :
    submissions history = [] := by
  rw [CommitmentExact, reachable_root reached] at exact_root
  have noEvents : (0 : UInt64) = eventSeq world :=
    congrArg (fun report => report.1.2) (Except.ok.inj exact_root)
  have counted := (reachable_counted reached).counted
  rw [← noEvents] at counted
  exact List.length_eq_zero_iff.mp counted.symm

/-- In a run `get_root` commits to the submitted events throughout if and only
if no step submits an event. -/
theorem commitmentExact_along_iff {actions : List (Action host)} {final : World}
    (run : Run (Step host) (World.deployed balances) actions final) :
    Along (Step host) (World.deployed balances) actions CommitmentExact ↔
      EachStep (Step host) (World.deployed balances) actions
        fun _ action => action.submissions = [] := by
  apply run.along_iff_eachStep (I := fun history _ => submissions history = [])
    (step_deterministic host) rfl
  · intro history world reached silent
    have noEvents : eventSeq world = 0 := by
      apply UInt64.toNat_inj.mp
      rw [(reachable_counted reached).counted, silent]
      rfl
    rw [CommitmentExact, reachable_root reached, noEvents, silent]
    rfl
  · intro history action before after _ silent guard _
    rw [submissions_snoc, silent, guard, List.append_nil]
  · intro history action before after reached silent step exact_root
    have still := exact_root.silent (reached.snoc step)
    rwa [submissions_snoc, silent, List.nil_append] at still

end Runs

/-- Before the first event the commitment is exact. -/
theorem commitmentExact_along_start :
    Along (Step exampleHost) (World.deployed fun _ _ => 0)
      [.call exampleEnv (.init exampleAdmin MIN_MAX_EVENTS)] CommitmentExact :=
  (commitmentExact_along_iff exampleStart_run).mpr
    (EachStep.of_forall fun action member _ => by rw [List.mem_singleton.mp member]; rfl)

/-- One submitted event is not committed to. -/
theorem submission_uncommitted :
    ∃ final, Run (Step exampleHost) (World.deployed fun _ _ => 0)
      ([.call exampleEnv (.init exampleAdmin MIN_MAX_EVENTS)] ++ [submitAction]) final ∧
        ¬ CommitmentExact
          ([.call exampleEnv (.init exampleAdmin MIN_MAX_EVENTS)] ++ [submitAction]) final := by
  have submitted : Run (Step exampleHost) exampleStart (List.replicate 1 submitAction) _ :=
    submitted_run (exampleEnv_authorized 1) rfl initialized_paused initialized_admin 1
      (by rw [initialized_eventSeq]; decide)
  have run := exampleStart_run.append submitted
  refine ⟨_, run, fun exact_root => ?_⟩
  cases exact_root.silent run

end SorobanExplorer.Contract

namespace SorobanExplorer.Contract.Mmr

open Library

variable (host : Host)

/-- `append` of one leaf after the other. -/
def appendAll : List (BytesN 32) → Call Unit
  | [] => pure ()
  | leaf :: leaves => do
      append host leaf
      appendAll leaves

def storedPeaks (storage : Storage) : List (BytesN 32) :=
  (List.range 64).reverse.filterMap fun level => storage (.mmrPeak (UInt32.ofNat level))

def NoneAbove (storage : Storage) : Prop :=
  ∀ level : UInt32, 64 ≤ level.toNat → storage (.mmrPeak level) = none

variable {host} {world after : World}

theorem carryUp_frame {count : UInt64} {levels : List UInt32} {carry : BytesN 32}
    (ran : carryUp host count levels carry world = .ok ((), after)) (level : UInt32)
    (outside : level ∉ levels) : after.storage (.mmrPeak level) = world.storage (.mmrPeak level) := by
  induction levels generalizing carry world with
  | nil => cases ran
  | cons first levels ih =>
    have other : DataKey.mmrPeak level ≠ .mmrPeak first := by
      intro same
      exact outside (DataKey.mmrPeak.inj same ▸ List.mem_cons_self)
    rw [carryUp] at ran
    split at ran
    · rw [read_bind_ok, unwrap_bind_ok] at ran
      obtain ⟨left, found, ran⟩ := ran
      rw [update_bind_ok] at ran
      have kept := ih ran (fun later => outside (List.mem_cons_of_mem _ later))
      exact kept.trans (Store.erase_of_ne _ other)
    · cases ran
      exact Store.put_of_ne _ _ other

theorem append_noneAbove {leaf : BytesN 32} (noneAbove : NoneAbove world.storage)
    (ran : append host leaf world = .ok ((), after)) : NoneAbove after.storage := by
  intro level above
  rw [append, read_bind_ok, Tx.bind_eq_ok] at ran
  obtain ⟨_, carried, ran, stored⟩ := ran
  rw [unwrap_bind_ok] at stored
  obtain ⟨next, _, stored⟩ := stored
  cases stored
  rw [World.put_storage, Store.put_of_ne _ _ (by simp), ← noneAbove level above]
  apply carryUp_frame ran
  intro member
  obtain ⟨place, inside, rfl⟩ := List.mem_map.mp member
  have below := List.mem_range.mp inside
  rw [UInt32.toNat_ofNat_of_lt' (by simp [UInt32.size]; omega)] at above
  omega

theorem appendAll_commits {before leaves : List (BytesN 32)}
    (commits : Commits host before world.storage) (noneAbove : NoneAbove world.storage)
    (room : before.length + leaves.length < UInt64.size) :
    ∃ after, appendAll host leaves world = .ok ((), after) ∧
      Commits host (before ++ leaves) after.storage ∧ NoneAbove after.storage := by
  induction leaves generalizing before world with
  | nil => exact ⟨world, rfl, by rwa [List.append_nil], noneAbove⟩
  | cons leaf leaves ih =>
    rw [List.length_cons] at room
    obtain ⟨middle, ran, extended⟩ := append_commits commits (by omega) leaf
    obtain ⟨after, rest, whole, above⟩ := ih extended
      (append_noneAbove noneAbove ran)
      (by rw [List.length_append, List.length_singleton]; omega)
    refine ⟨after, ?_, ?_, above⟩
    · rw [appendAll, Tx.bind_ok ran, rest]
    · rwa [List.append_assoc, List.singleton_append] at whole

theorem Commits.peak {leaves : List (BytesN 32)} {storage : Storage}
    (commits : Commits host leaves storage) (noneAbove : NoneAbove storage) (level : UInt32) :
    storage (.mmrPeak level) = MountainRange.peakAt (hashPair host) leaves level.toNat := by
  by_cases below : level.toNat < 64
  · have stored := commits.peaks level.toNat (by omega)
    rwa [Nat.zero_add, UInt32.ofNat_toNat, MountainRange.counter_getElem?] at stored
  · have small : leaves.length < 2 ^ 64 := commits.count ▸ UInt64.toNat_lt_size _
    rw [noneAbove level (by omega), MountainRange.peakAt_none (hashPair host) small (by omega)]

/-- What is appended to an empty commitment is stored as the mountain range of the
leaves: the count, a peak for every set bit over its block, and no other peak. `root`
bags the peaks from the right. -/
theorem appended_range (host : Host) {world : World} {leaves : List (BytesN 32)} (room : leaves.length < 2 ^ 64 - 1)
    (noCount : world.storage .mmrLeafCount = none)
    (noPeaks : ∀ level, world.storage (.mmrPeak level) = none) :
    ∃ after, appendAll host leaves world = .ok ((), after) ∧
      ((after.storage .mmrLeafCount).getD 0).toNat = leaves.length ∧
      (∀ level, (after.storage (.mmrPeak level)).isSome = leaves.length.testBit level.toNat) ∧
      (∀ level peak, after.storage (.mmrPeak level) = some peak →
        MountainRange.IsPerfect (hashPair host) level.toNat
          (MountainRange.block leaves level.toNat) peak) ∧
      (List.range 64).reverse.flatMap (MountainRange.block leaves) = leaves ∧
      root host after = .ok (((MountainRange.bagRight (hashPair host)
        (storedPeaks after.storage)).getD (Vector.replicate 32 0),
          (after.storage .mmrLeafCount).getD 0), after) := by
  have small : leaves.length < 2 ^ 64 := by omega
  obtain ⟨after, ran, commits, noneAbove⟩ := appendAll_commits (@Commits.of_unused host _ noCount noPeaks)
    (fun level _ => noPeaks level) (by simpa [UInt64.size] using small)
  rw [List.nil_append] at commits
  have peak := commits.peak noneAbove
  refine ⟨after, ran, commits.count, ?_, ?_, MountainRange.flatMap_block_eq small, ?_⟩
  · intro level
    rw [peak, MountainRange.peakAt_isSome]
  · intro level root found
    rw [peak] at found
    exact MountainRange.peakAt_isPerfect (hashPair host) found
  · have peaks : storedPeaks after.storage = (List.range 64).reverse.filterMap
        (MountainRange.peakAt (hashPair host) leaves) := by
      apply List.filterMap_congr
      intro level member
      have below : level < 64 := by simpa using member
      rw [peak, UInt32.toNat_ofNat_of_lt' (by simp [UInt32.size]; omega)]
    rw [root_commits commits, peaks, ← MountainRange.bagBelow_eq_bagRight,
      MountainRange.bagBelow_root (hashPair host) small]
    rfl

/-- Of three leaves the first two are under the peak of level one. -/
theorem appended_range_three : ∃ after,
    appendAll exampleHost [Vector.replicate 32 1, Vector.replicate 32 2, Vector.replicate 32 3]
      (World.deployed fun _ _ => 0) = .ok ((), after) ∧
    ((after.storage .mmrLeafCount).getD 0).toNat = 3 ∧
    (after.storage (.mmrPeak 2)).isSome = false ∧
    ∃ peak, after.storage (.mmrPeak 1) = some peak ∧
      MountainRange.IsPerfect (hashPair exampleHost) 1
        [Vector.replicate 32 1, Vector.replicate 32 2] peak := by
  obtain ⟨after, ran, count, present, perfect, -, -⟩ := @appended_range exampleHost
    (World.deployed fun _ _ => 0)
    [Vector.replicate 32 1, Vector.replicate 32 2, Vector.replicate 32 3] (by decide) rfl (fun _ => rfl)
  obtain ⟨peak, found⟩ := Option.isSome_iff_exists.mp (present 1)
  exact ⟨after, ran, count, present 2, peak, found, perfect 1 peak found⟩

end SorobanExplorer.Contract.Mmr
