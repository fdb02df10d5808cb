import SorobanExplorer.Contract.Host

/-!
Owns the rolling commitment over submitted events that `get_root` reads: the
pair hash and the bagging of the stored peaks.
-/

namespace SorobanExplorer.Contract.Mmr

open Library

def hashPair (host : Host) (left right : BytesN 32) : BytesN 32 :=
  host.sha256 (left.toList ++ right.toList)

/-- The `for level in 0..64` loop over the levels still to visit. -/
def bagPeaks (host : Host) (count : UInt64) :
    List UInt32 → Option (BytesN 32) → Call (Option (BytesN 32))
  | [], acc => pure acc
  | level :: levels, acc =>
    if count &&& (1 <<< level.toUInt64) ≠ 0 then do
      let peak ← unwrap (← get (.mmrPeak level))
      bagPeaks host count levels
        (some (match acc with
          | some right => hashPair host peak right
          | none => peak))
    else bagPeaks host count levels acc

def root (host : Host) : Call (BytesN 32 × UInt64) := do
  let stored ← get .mmrLeafCount
  let count : UInt64 := stored.getD 0
  if count = 0 then return (Vector.replicate 32 0, 0)
  let acc ← bagPeaks host count ((List.range 64).map UInt32.ofNat) none
  let bagged ← unwrap acc
  return (bagged, count)

theorem bagPeaks_ok {host : Host} {count : UInt64} {levels : List UInt32}
    {acc result : Option (BytesN 32)} {world after : World}
    (bagged : bagPeaks host count levels acc world = .ok (result, after)) : after = world := by
  induction levels generalizing acc with
  | nil => exact (Tx.pure_eq_ok.mp bagged).2
  | cons level levels ih =>
    unfold bagPeaks at bagged
    split at bagged
    · simp only [read_bind_ok, unwrap_bind_ok] at bagged
      obtain ⟨_, _, bagged⟩ := bagged
      exact ih bagged
    · exact ih bagged

theorem root_ok {host : Host} {result : BytesN 32 × UInt64} {world after : World}
    (read : root host world = .ok (result, after)) : after = world := by
  unfold root at read
  rw [read_bind_ok] at read
  split at read
  · exact (Tx.pure_eq_ok.mp read).2
  · simp only [Tx.bind_eq_ok, unwrap_ok, Tx.pure_eq_ok] at read
    obtain ⟨_, _, bagged, _, _, ⟨_, rfl⟩, _, rfl⟩ := read
    exact bagPeaks_ok bagged

end SorobanExplorer.Contract.Mmr
