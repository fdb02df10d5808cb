import SorobanExplorer.Contract.Types
import Mathlib.Data.List.Range

/-!
Owns the pure decisions of `state.rs`, one definition per function on the
machine integers of the source, each with the lemma that says what it decides
over the natural numbers.
-/

namespace SorobanExplorer.Contract

/-! ### Checked arithmetic -/

/-- `u32::checked_add`. -/
def checkedAdd32 (left right : UInt32) : Option UInt32 :=
  if left.toNat + right.toNat < UInt32.size then some (left + right) else none

/-- `u64::checked_add`. -/
def checkedAdd64 (left right : UInt64) : Option UInt64 :=
  if left.toNat + right.toNat < UInt64.size then some (left + right) else none

/-- `u64::checked_sub`. -/
def checkedSub64 (left right : UInt64) : Option UInt64 :=
  if right ≤ left then some (left - right) else none

/-- `u64::saturating_sub`. -/
def saturatingSub64 (left right : UInt64) : UInt64 :=
  if right ≤ left then left - right else 0

theorem checkedAdd32_eq_some {left right sum : UInt32} :
    checkedAdd32 left right = some sum ↔ sum.toNat = left.toNat + right.toNat := by
  unfold checkedAdd32
  have bound := sum.toNat_lt_size
  constructor
  · intro added
    split at added
    · cases added
      rw [UInt32.toNat_add, Nat.mod_eq_of_lt (by assumption)]
    · cases added
  · intro equal
    rw [if_pos (by omega)]
    congr 1
    apply UInt32.toNat_inj.mp
    rw [UInt32.toNat_add, equal, Nat.mod_eq_of_lt (by simp only [UInt32.size] at bound; omega)]

theorem checkedAdd64_eq_some {left right sum : UInt64} :
    checkedAdd64 left right = some sum ↔ sum.toNat = left.toNat + right.toNat := by
  unfold checkedAdd64
  have bound := sum.toNat_lt_size
  constructor
  · intro added
    split at added
    · cases added
      rw [UInt64.toNat_add, Nat.mod_eq_of_lt (by assumption)]
    · cases added
  · intro equal
    rw [if_pos (by omega)]
    congr 1
    apply UInt64.toNat_inj.mp
    rw [UInt64.toNat_add, equal, Nat.mod_eq_of_lt (by simp only [UInt64.size] at bound; omega)]

/-! ### Registry decisions -/

def ensureWritable (paused : Bool) : Except Error Unit :=
  if paused then .error .contractPaused else .ok ()

def canModifyEntry (callerIsAdmin callerIsOwner : Bool) : Bool :=
  callerIsAdmin || callerIsOwner

/-- `verifiedOwner` is `none` for an unverified entry, otherwise whether the
caller is the verified owner. -/
def canUpdateEntry (callerIsAdmin callerIsOwner : Bool) (verifiedOwner : Option Bool) : Bool :=
  match verifiedOwner with
  | some callerIsVerifiedOwner => callerIsVerifiedOwner
  | none => canModifyEntry callerIsAdmin callerIsOwner

def nextAbiVersion (current submitted : UInt32) : Except Error UInt32 :=
  match checkedAdd32 current 1 with
  | none => .error .invalidInput
  | some expected => if submitted ≠ expected then .error .unauthorized else .ok expected

/-- `0..=abi_version`. -/
def versionsToRemove (abiVersion : UInt32) : List UInt32 :=
  (List.range (abiVersion.toNat + 1)).map UInt32.ofNat

theorem ensureWritable_ok {paused : Bool} {result : Unit} :
    ensureWritable paused = .ok result ↔ paused = false := by
  cases paused <;> simp [ensureWritable]

theorem nextAbiVersion_ok {current submitted next : UInt32} :
    nextAbiVersion current submitted = .ok next ↔
      submitted = next ∧ next.toNat = current.toNat + 1 := by
  unfold nextAbiVersion
  cases added : checkedAdd32 current 1 with
  | none =>
    have overflow : ∀ sum : UInt32, sum.toNat ≠ current.toNat + 1 := by
      intro sum equal
      have summed : checkedAdd32 current 1 = some sum := checkedAdd32_eq_some.mpr equal
      simp [added] at summed
    simp [overflow]
  | some expected =>
    have value : expected.toNat = current.toNat + 1 := checkedAdd32_eq_some.mp added
    by_cases same : submitted = expected
    · subst same
      simp only [ne_eq, not_true_eq_false, ↓reduceIte, Except.ok.injEq]
      constructor
      · rintro rfl
        exact ⟨rfl, value⟩
      · exact fun ⟨equal, _⟩ => equal
    · simp only [ne_eq, same, not_false_eq_true, ↓reduceIte, reduceCtorEq, false_iff]
      rintro ⟨rfl, equal⟩
      exact same (UInt32.toNat_inj.mp (equal.trans value.symm))

@[simp] theorem mem_versionsToRemove {abiVersion version : UInt32} :
    version ∈ versionsToRemove abiVersion ↔ version ≤ abiVersion := by
  simp only [versionsToRemove, List.mem_map, List.mem_range, UInt32.le_iff_toNat_le]
  constructor
  · rintro ⟨index, below, rfl⟩
    have := abiVersion.toNat_lt_size
    rw [UInt32.toNat_ofNat_of_lt' (by omega)]
    omega
  · intro below
    exact ⟨version.toNat, by omega, UInt32.ofNat_toNat⟩

/-! ### Event-log decisions -/

def reserveSeqs (nextSeq : UInt64) (count : UInt32) : Except Error UInt64 :=
  match checkedAdd64 nextSeq count.toUInt64 with
  | none => .error .invalidInput
  | some next => .ok next

def checkBatch (count maxEvents : UInt32) : Except Error Unit :=
  if count = 0 then .error .emptyBatch
  else if count > MAX_BATCH ∨ count > maxEvents then .error .invalidInput
  else .ok ()

/-- Requires `maxEvents > 0`, as the source says. -/
def ringSlot (seq : UInt64) (maxEvents : UInt32) : UInt64 :=
  seq % maxEvents.toUInt64

def evictedSeq (seq : UInt64) (maxEvents : UInt32) : Option UInt64 :=
  checkedSub64 seq maxEvents.toUInt64

def retainedCount (nextSeq : UInt64) (maxEvents : UInt32) : UInt64 :=
  min nextSeq maxEvents.toUInt64

def oldestRetained (nextSeq : UInt64) (maxEvents : UInt32) : UInt64 :=
  saturatingSub64 nextSeq maxEvents.toUInt64

def checkResize (nextSeq : UInt64) (currentMax newMax : UInt32) : Except Error Unit :=
  if newMax < MIN_MAX_EVENTS then .error .belowFloor
  else if nextSeq ≥ currentMax.toUInt64 then .error .invalidInput
  else .ok ()

theorem reserveSeqs_ok {nextSeq next : UInt64} {count : UInt32} :
    reserveSeqs nextSeq count = .ok next ↔ next.toNat = nextSeq.toNat + count.toNat := by
  unfold reserveSeqs
  have exact_sum : ∀ sum : UInt64, checkedAdd64 nextSeq count.toUInt64 = some sum ↔
      sum.toNat = nextSeq.toNat + count.toNat := by
    intro sum
    rw [checkedAdd64_eq_some, UInt32.toNat_toUInt64]
  cases added : checkedAdd64 nextSeq count.toUInt64 with
  | none =>
    have overflow : next.toNat ≠ nextSeq.toNat + count.toNat := fun equal => by
      simpa [added] using (exact_sum next).mpr equal
    simp [overflow]
  | some sum =>
    rw [Except.ok.injEq, ← exact_sum, added, Option.some.injEq]

theorem checkBatch_ok {count maxEvents : UInt32} {result : Unit} :
    checkBatch count maxEvents = .ok result ↔
      count ≠ 0 ∧ count ≤ MAX_BATCH ∧ count ≤ maxEvents := by
  unfold checkBatch
  by_cases zero : count = 0
  · simp [zero]
  · by_cases large : count > MAX_BATCH ∨ count > maxEvents
    · simp only [zero, large, ↓reduceIte, reduceCtorEq, false_iff]
      rintro ⟨_, small, fits⟩
      simp only [gt_iff_lt, UInt32.lt_iff_toNat_lt, UInt32.le_iff_toNat_le] at large small fits
      omega
    · simp only [zero, large, ↓reduceIte, true_iff]
      simp only [gt_iff_lt, not_or, UInt32.lt_iff_toNat_lt, Nat.not_lt] at large
      exact ⟨zero, UInt32.le_iff_toNat_le.mpr large.1, UInt32.le_iff_toNat_le.mpr large.2⟩

@[simp] theorem ringSlot_toNat (seq : UInt64) (maxEvents : UInt32) :
    (ringSlot seq maxEvents).toNat = seq.toNat % maxEvents.toNat := by
  simp [ringSlot]

@[simp] theorem retainedCount_toNat (nextSeq : UInt64) (maxEvents : UInt32) :
    (retainedCount nextSeq maxEvents).toNat = min nextSeq.toNat maxEvents.toNat := by
  change (if nextSeq ≤ maxEvents.toUInt64 then nextSeq else maxEvents.toUInt64).toNat = _
  split
  next le =>
    simp only [UInt64.le_iff_toNat_le, UInt32.toNat_toUInt64] at le
    omega
  next notLe =>
    simp only [UInt64.le_iff_toNat_le, UInt32.toNat_toUInt64] at notLe ⊢
    omega

@[simp] theorem oldestRetained_toNat (nextSeq : UInt64) (maxEvents : UInt32) :
    (oldestRetained nextSeq maxEvents).toNat = nextSeq.toNat - maxEvents.toNat := by
  unfold oldestRetained saturatingSub64
  split
  next le =>
    rw [UInt64.toNat_sub_of_le _ _ le, UInt32.toNat_toUInt64]
  next notLe =>
    simp only [UInt64.le_iff_toNat_le, UInt32.toNat_toUInt64] at notLe
    simp only [UInt64.toNat_zero]
    omega

theorem checkResize_ok {nextSeq : UInt64} {currentMax newMax : UInt32} {result : Unit} :
    checkResize nextSeq currentMax newMax = .ok result ↔
      MIN_MAX_EVENTS ≤ newMax ∧ nextSeq.toNat < currentMax.toNat := by
  unfold checkResize
  by_cases low : newMax < MIN_MAX_EVENTS
  · simp only [low, ↓reduceIte, reduceCtorEq, false_iff]
    rintro ⟨floor, _⟩
    rw [UInt32.lt_iff_toNat_lt] at low
    rw [UInt32.le_iff_toNat_le] at floor
    omega
  · have floor : MIN_MAX_EVENTS ≤ newMax := by
      rw [UInt32.lt_iff_toNat_lt] at low
      rw [UInt32.le_iff_toNat_le]
      omega
    by_cases wrapped : nextSeq ≥ currentMax.toUInt64
    · simp only [low, wrapped, ↓reduceIte, reduceCtorEq, false_iff]
      rintro ⟨_, unwrapped⟩
      simp only [ge_iff_le, UInt64.le_iff_toNat_le, UInt32.toNat_toUInt64] at wrapped
      omega
    · simp only [low, wrapped, ↓reduceIte, true_iff]
      simp only [ge_iff_le, UInt64.le_iff_toNat_le, UInt32.toNat_toUInt64] at wrapped
      exact ⟨floor, by omega⟩

end SorobanExplorer.Contract
