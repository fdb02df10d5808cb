import SorobanExplorer.Contract.Commitment
import SorobanExplorer.Library.Hex

/-!
Owns the indexer's copy of the commitment, `EventMmr`, whose masks are 32-bit
integers and whose hashes are hexadecimal text, and its agreement with the
contract's `append` and `root`.
-/

namespace SorobanExplorer.Indexer

open Library
open Contract (Host BytesN World Call Balances)

def hashLeaf (host : Host) (value : List UInt8) : Hex := Hex.encode (host.sha256 value).toList

/-- `Buffer.from(.., "hex")` reads the digits back. -/
def hashPair (host : Host) (left right : Hex) : Hex :=
  hashLeaf host (Hex.decode left ++ Hex.decode right)

/-- A peak is a hash or `null`. -/
structure EventMmr where
  peaks : List (Option Hex)
  leafCount : Nat

structure Report where
  root : Hex
  leafCount : Nat

namespace EventMmr

def empty : EventMmr := ⟨[], 0⟩

/-- `this.leafCount & (1 << level)`: both sides are 32-bit integers, and the shift
is taken modulo 32. -/
def mask (leafCount level : Nat) : BitVec 32 :=
  BitVec.ofNat 32 leafCount &&& (1#32 <<< (level % 32))

/-- The `while` loop over the peaks from a level on, and the write after it.
`Buffer.from` throws on a peak that is `null` or not there. -/
def carryUp (host : Host) (leafCount : Nat) :
    Nat → List (Option Hex) → Hex → Option (List (Option Hex))
  | level, [], carry => if mask leafCount level ≠ 0 then none else some [some carry]
  | level, peak :: peaks, carry =>
    if mask leafCount level ≠ 0 then
      peak.bind fun left =>
        (carryUp host leafCount (level + 1) peaks (hashPair host left carry)).map (none :: ·)
    else some (some carry :: peaks)

def append (host : Host) (mmr : EventMmr) (leaf : Hex) : Option EventMmr :=
  (carryUp host mmr.leafCount 0 mmr.peaks leaf).map (⟨·, mmr.leafCount + 1⟩)

/-- `if (peak)`: neither `null` nor empty. -/
def truthy (peak : Option Hex) : Option Hex := peak.filter (· ≠ [])

/-- One round of the `for` loop in `root`. -/
def bagPeak (host : Host) (root peak : Option Hex) : Option Hex :=
  match truthy peak, truthy root with
  | some peak, some root => some (hashPair host peak root)
  | some peak, none => some peak
  | none, _ => root

def root (host : Host) (mmr : EventMmr) : Report where
  root := (mmr.peaks.foldl (bagPeak host) none).getD (Hex.encode (List.replicate 32 0))
  leafCount := mmr.leafCount

/-- One `append` after the other. -/
def appendAll (host : Host) (leaves : List Hex) : Option EventMmr :=
  leaves.foldlM (append host) empty

/-! ### Masks -/

theorem mask_ne_zero_iff (leafCount level : Nat) :
    mask leafCount level ≠ 0 ↔ leafCount.testBit (level % 32) = true := by
  have below : level % 32 < 32 := Nat.mod_lt _ (by norm_num)
  have small : 2 ^ (level % 32) < 2 ^ 32 := Nat.pow_lt_pow_right (by norm_num) below
  have value : (mask leafCount level).toNat =
      (leafCount % 2 ^ 32) &&& 2 ^ (level % 32) := by
    rw [mask, BitVec.toNat_and, BitVec.toNat_ofNat, BitVec.toNat_shiftLeft, Nat.shiftLeft_eq]
    simp only [BitVec.toNat_ofNat, Nat.one_mod, one_mul]
    rw [Nat.mod_eq_of_lt small]
  rw [ne_eq, ← BitVec.toNat_inj, value, Nat.and_two_pow, Nat.testBit_mod_two_pow]
  cases leafCount.testBit (level % 32) <;> simp [below]

theorem mask_full {leafCount : Nat} (full : leafCount + 1 = 2 ^ 32) (level : Nat) :
    mask leafCount level ≠ 0 := by
  have value : leafCount = 2 ^ 32 - 1 := by omega
  rw [mask_ne_zero_iff, value, Nat.testBit_two_pow_sub_one, decide_eq_true_iff]
  exact Nat.mod_lt _ (by norm_num)

/-! ### Hexadecimal peaks -/

section Hexadecimal

variable {host : Host}

def toHex (hash : BytesN 32) : Hex := Hex.encode hash.toList

theorem toHex_ne_nil (hash : BytesN 32) : toHex hash ≠ [] := by
  intro empty
  have noBytes := congrArg List.length (Hex.encode_eq_nil.mp empty)
  rw [Vector.length_toList] at noBytes
  cases noBytes

theorem hashPair_toHex (left right : BytesN 32) :
    hashPair host (toHex left) (toHex right) = toHex (Contract.Mmr.hashPair host left right) := by
  rw [hashPair, toHex, toHex, Hex.decode_encode, Hex.decode_encode]
  rfl

theorem truthy_toHex (peak : Option (BytesN 32)) : truthy (peak.map toHex) = peak.map toHex := by
  cases peak with
  | none => rfl
  | some hash => simp [truthy, toHex_ne_nil]

theorem bagPeak_toHex (acc peak : Option (BytesN 32)) :
    bagPeak host (acc.map toHex) (peak.map toHex) =
      (MountainRange.bagPeak (Contract.Mmr.hashPair host) acc peak).map toHex := by
  rw [bagPeak, truthy_toHex, truthy_toHex]
  cases peak with
  | none => rfl
  | some hash =>
    cases acc with
    | none => rfl
    | some right => exact congrArg some (hashPair_toHex hash right)

theorem foldl_bagPeak_toHex (peaks : List (Option (BytesN 32))) (acc : Option (BytesN 32)) :
    (peaks.map (Option.map toHex)).foldl (bagPeak host) (acc.map toHex) =
      (peaks.foldl (MountainRange.bagPeak (Contract.Mmr.hashPair host)) acc).map toHex := by
  induction peaks generalizing acc with
  | nil => rfl
  | cons peak peaks ih =>
    rw [List.map_cons, List.foldl_cons, List.foldl_cons, bagPeak_toHex, ih]

theorem carryUp_toHex {leafCount level : Nat} {peaks : List (Option (BytesN 32))}
    (bits : ∀ place, level + place < 32 →
      (peaks[place]?.join).isSome = leafCount.testBit (level + place))
    (free : ∃ top, level ≤ top ∧ top < 32 ∧ leafCount.testBit top = false) (carry : BytesN 32) :
    carryUp host leafCount level (peaks.map (Option.map toHex)) (toHex carry) =
      some ((MountainRange.push (Contract.Mmr.hashPair host) peaks carry).map (Option.map toHex)) := by
  induction peaks generalizing level carry with
  | nil =>
    obtain ⟨top, le, below, _⟩ := free
    have here : false = leafCount.testBit level := bits 0 (by omega)
    have unset : ¬ mask leafCount level ≠ 0 := by
      rw [mask_ne_zero_iff, Nat.mod_eq_of_lt (by omega), ← here]
      decide
    rw [List.map_nil, carryUp, if_neg unset]
    rfl
  | cons peak peaks ih =>
    obtain ⟨top, le, below, open_⟩ := free
    have here : peak.isSome = leafCount.testBit level := bits 0 (by omega)
    have masked : mask leafCount level ≠ 0 ↔ peak.isSome = true := by
      rw [mask_ne_zero_iff, Nat.mod_eq_of_lt (by omega), here]
    rw [List.map_cons, carryUp]
    cases peak with
    | none =>
      rw [if_neg (masked.not.mpr (by decide))]
      rfl
    | some left =>
      have above : level + 1 ≤ top := by
        apply Nat.lt_of_le_of_ne le
        rintro rfl
        rw [← here] at open_
        cases open_
      have rest (place : Nat) (inside : level + 1 + place < 32) :
          (peaks[place]?.join).isSome = leafCount.testBit (level + 1 + place) := by
        have shifted := bits (place + 1) (by omega)
        rwa [List.getElem?_cons_succ, show level + (place + 1) = level + 1 + place by omega]
          at shifted
      rw [if_pos (masked.mpr rfl), Option.map_some, Option.bind_some, hashPair_toHex,
        ih rest ⟨top, above, below, open_⟩]
      rfl

theorem carryUp_throws {leafCount : Nat} (full : ∀ level, mask leafCount level ≠ 0) (level : Nat)
    (peaks : List (Option Hex)) (carry : Hex) :
    carryUp host leafCount level peaks carry = none := by
  induction peaks generalizing level carry with
  | nil => rw [carryUp, if_pos (full level)]
  | cons peak peaks ih =>
    rw [carryUp, if_pos (full level)]
    cases peak with
    | none => rfl
    | some left => rw [Option.bind_some, ih, Option.map_none]

end Hexadecimal

/-! ### Runs of `append` -/

section Runs

variable {host : Host}

def ofLeaves (host : Host) (leaves : List (BytesN 32)) : EventMmr where
  peaks := (MountainRange.counter (Contract.Mmr.hashPair host) leaves).map (Option.map toHex)
  leafCount := leaves.length

theorem appendAll_snoc (leaves : List (BytesN 32)) (leaf : BytesN 32) :
    appendAll host ((leaves ++ [leaf]).map toHex) =
      (appendAll host (leaves.map toHex)).bind (append host · (toHex leaf)) := by
  rw [appendAll, List.map_append, List.foldlM_append]
  congr 1
  funext mmr
  exact bind_pure _

theorem append_ofLeaves {leaves : List (BytesN 32)} (room : leaves.length + 1 < 2 ^ 32)
    (leaf : BytesN 32) : append host (ofLeaves host leaves) (toHex leaf) =
      some (ofLeaves host (leaves ++ [leaf])) := by
  obtain ⟨top, below, unset⟩ := MountainRange.exists_unset_bit room
  have bits (place : Nat) (_ : 0 + place < 32) :
      ((MountainRange.counter (Contract.Mmr.hashPair host) leaves)[place]?.join).isSome =
        leaves.length.testBit (0 + place) := by
    rw [MountainRange.counter_getElem?, MountainRange.peakAt_isSome, Nat.zero_add]
  have carried := @carryUp_toHex host _ _ _ bits ⟨top, Nat.zero_le top, below, unset⟩ leaf
  simp only [append, ofLeaves, carried, Option.map_some, MountainRange.counter_snoc,
    List.length_append, List.length_singleton]

theorem appendAll_ofLeaves {leaves : List (BytesN 32)} (short : leaves.length < 2 ^ 32) :
    appendAll host (leaves.map toHex) = some (ofLeaves host leaves) := by
  induction leaves using List.reverseRecOn with
  | nil => rfl
  | append_singleton leaves leaf ih =>
    rw [List.length_append, List.length_singleton] at short
    rw [appendAll_snoc, ih (by omega), Option.bind_some, append_ofLeaves short]

theorem appendAll_throws {leaves : List (BytesN 32)} (full : leaves.length = 2 ^ 32) :
    appendAll host (leaves.map toHex) = none := by
  obtain ⟨start, last, rfl⟩ := (List.eq_nil_or_concat' leaves).resolve_left (by
    rintro rfl
    simp at full)
  rw [List.length_append, List.length_singleton] at full
  rw [appendAll_snoc, appendAll_ofLeaves (by omega), Option.bind_some, append,
    show (ofLeaves host start).leafCount = start.length from rfl, carryUp_throws (mask_full full),
    Option.map_none]

theorem root_ofLeaves (leaves : List (BytesN 32)) : root host (ofLeaves host leaves) =
    ⟨toHex (Contract.Mmr.rangeRoot host leaves), leaves.length⟩ := by
  have bagged := @foldl_bagPeak_toHex host
    (MountainRange.counter (Contract.Mmr.hashPair host) leaves) none
  have range := MountainRange.bag_counter (Contract.Mmr.hashPair host) leaves
  rw [MountainRange.bag] at range
  rw [range, Option.map_none] at bagged
  rw [root, ofLeaves, bagged, Contract.Mmr.rangeRoot]
  cases MountainRange.root (Contract.Mmr.hashPair host) leaves with
  | none => rfl
  | some hash => rfl

end Runs

end EventMmr

/-! ### Agreement with the contract -/

section Agreement

variable (host : Host) (balances : Balances)

def contractReport (leaves : List (BytesN 32)) : Call (BytesN 32 × UInt64) := do
  forM leaves (Contract.Mmr.append host)
  Contract.Mmr.root host

def SameReport (leaves : List (BytesN 32)) : Prop :=
  ∃ mmr root count after,
    EventMmr.appendAll host (leaves.map EventMmr.toHex) = some mmr ∧
      contractReport host leaves (World.deployed balances) = .ok ((root, count), after) ∧
        mmr.root host = ⟨EventMmr.toHex root, count.toNat⟩

def SameReports (leaves : List (BytesN 32)) : Prop :=
  ∀ appended, appended <+: leaves → appended ≠ [] → SameReport host balances appended

variable {host} {balances}

theorem contract_commits {leaves : List (BytesN 32)} (small : leaves.length < UInt64.size) :
    ∃ after, forM leaves (Contract.Mmr.append host) (World.deployed balances) = .ok ((), after) ∧
      Contract.Mmr.Commits host leaves after.storage := by
  induction leaves using List.reverseRecOn with
  | nil => exact ⟨_, rfl, Contract.Mmr.Commits.of_unused rfl fun _ => rfl⟩
  | append_singleton leaves leaf ih =>
    rw [List.length_append, List.length_singleton] at small
    obtain ⟨before, ran, commits⟩ := ih (by omega)
    obtain ⟨after, appended, extended⟩ := Contract.Mmr.append_commits commits small leaf
    refine ⟨after, ?_, extended⟩
    rw [List.forM_append, Tx.bind_eq_ok]
    refine ⟨(), before, ran, ?_⟩
    rw [List.forM_cons, Tx.bind_eq_ok]
    exact ⟨(), after, appended, rfl⟩

theorem contractReport_ok {leaves : List (BytesN 32)} (small : leaves.length < UInt64.size) :
    ∃ count after, contractReport host leaves (World.deployed balances) =
      .ok ((Contract.Mmr.rangeRoot host leaves, count), after) ∧ count.toNat = leaves.length := by
  obtain ⟨after, ran, commits⟩ := @contract_commits host balances leaves small
  refine ⟨_, after, ?_, commits.count⟩
  rw [contractReport, Tx.bind_eq_ok]
  exact ⟨(), after, ran, Contract.Mmr.root_commits commits⟩

theorem sameReport_of_lt {leaves : List (BytesN 32)} (short : leaves.length < 2 ^ 32) :
    SameReport host balances leaves := by
  have small : leaves.length < UInt64.size := by
    simp only [UInt64.size]
    omega
  obtain ⟨count, after, reported, counted⟩ :=
    @contractReport_ok host balances leaves small
  refine ⟨_, _, count, after, EventMmr.appendAll_ofLeaves short, reported, ?_⟩
  rw [EventMmr.root_ofLeaves, counted]

theorem not_sameReports_of_le {leaves : List (BytesN 32)} (long : 2 ^ 32 ≤ leaves.length) :
    ¬ SameReports host balances leaves := by
  intro same
  have full : (leaves.take (2 ^ 32)).length = 2 ^ 32 := List.length_take_of_le long
  have nonempty : leaves.take (2 ^ 32) ≠ [] := by
    intro empty
    rw [empty] at full
    cases full
  obtain ⟨mmr, _, _, _, appended, _⟩ := same _ (List.take_prefix _ _) nonempty
  rw [EventMmr.appendAll_throws full] at appended
  cases appended

/-- The two report the same after every append if and only if there are fewer than
2^32 leaves. -/
theorem sameReports_iff {leaves : List (BytesN 32)} :
    SameReports host balances leaves ↔ leaves.length < 2 ^ 32 := by
  constructor
  · intro same
    by_contra long
    exact not_sameReports_of_le (Nat.le_of_not_lt long) same
  · intro short appended isPrefix _
    exact sameReport_of_lt (isPrefix.length_le.trans_lt short)

/-- 2^32 equal leaves. -/
theorem sameReports_fails : ¬ ∀ leaves : List (BytesN 32), leaves.length < UInt64.size →
    SameReports Contract.exampleHost (fun _ _ => 0) leaves := by
  intro claim
  have length : (List.replicate (2 ^ 32) Contract.exampleId).length = 2 ^ 32 :=
    List.length_replicate
  apply not_sameReports_of_le length.ge
  apply claim
  rw [length]
  decide

end Agreement

end SorobanExplorer.Indexer
