import SorobanExplorer.Filters.JsValue
import SorobanExplorer.Library.DecimalText
import Mathlib.Data.Rat.Defs

/-!
Owns the choice between the primary and its read replicas: positions in the write-ahead log and
their texts, `getReadPool`, and when the replica it returns is not behind a required position.
-/

namespace SorobanExplorer.Indexer

open Library
open Filters (js JsString)

namespace ReadReplicas

/-! ### Positions in the log -/

structure Lsn where
  position : ℕ
  fits : position < 2 ^ 64

namespace Lsn

def hi (lsn : Lsn) : ℕ := lsn.position / 2 ^ 32

def lo (lsn : Lsn) : ℕ := lsn.position % 2 ^ 32

end Lsn

def hexUnit (digit : ℕ) : UInt16 := UInt16.ofNat (if digit < 10 then 0x30 + digit else 0x37 + digit)

/-- `%X` -/
def hexText (value : ℕ) : JsString := (DigitOrder.numeral 16 value).map hexUnit

/-- The text of a position, as `pg_current_wal_lsn` returns it. -/
def Lsn.text (lsn : Lsn) : JsString := hexText lsn.hi ++ 0x2F :: hexText lsn.lo

/-! ### Replicas -/

/-- What the check of a replica gets: the query fails, or there is a row with these columns. -/
inductive Reply where
  | failed
  | row (lagMs : Option ℚ) (replayLsn : Option Lsn)

structure Replica where
  healthy : Bool
  lagMs : ℚ
  replayLsn : Option Lsn

inductive Pool where
  | primary
  | replica (index : ℕ)
deriving DecidableEq

/-- `replica.healthy` for a row. The limit is NaN where `REPLICA_MAX_LAG_MS` is no number; a missing
or empty required position is no requirement. -/
def healthy (maxLagMs : Option ℚ) (requiredLsn : Option JsString) (lagMs : ℚ)
    (replayLsn : Option Lsn) : Bool :=
  maxLagMs.any (fun most => decide (lagMs ≤ most)) &&
    match requiredLsn, replayLsn with
    | none, _ | some [], _ | _, none => true
    | some required, some replay => !decide (replay.text < required)

def checked (maxLagMs : Option ℚ) (requiredLsn : Option JsString) (replica : Replica) :
    Reply → Replica
  | .failed => { replica with healthy := false }
  | .row lagMs replayLsn =>
    ⟨healthy maxLagMs requiredLsn (lagMs.getD 0) replayLsn, lagMs.getD 0, replayLsn⟩

def search (maxLagMs : Option ℚ) (requiredLsn : Option JsString) :
    ℕ → List (Replica × Reply) → Pool × List Replica
  | _, [] => (.primary, [])
  | index, (replica, reply) :: rest =>
    let next := checked maxLagMs requiredLsn replica reply
    if next.healthy then (.replica index, next :: rest.map Prod.fst)
    else
      let found := search maxLagMs requiredLsn (index + 1) rest
      (found.1, next :: found.2)

def getReadPool (maxLagMs : Option ℚ) (requiredLsn : Option JsString)
    (replicas : List (Replica × Reply)) : Pool × List Replica :=
  search maxLagMs requiredLsn 0 replicas

/-! ### Statement -/

def Reply.replayLsn? : Reply → Option Lsn
  | .failed => none
  | .row _ replayLsn => replayLsn

def ReadsOwnWrites (maxLagMs : Option ℚ) (required : Lsn) (replicas : List (Replica × Reply)) :
    Prop :=
  match (getReadPool maxLagMs (some required.text) replicas).1 with
  | .primary => True
  | .replica index => ∃ replica reply replay, replicas[index]? = some (replica, reply) ∧
      reply.replayLsn? = some replay ∧ required.position ≤ replay.position

/-- The part of the position that decides has as many digits as the required one: the high part
where these differ, the low part otherwise. -/
def LongEnough (required replay : Lsn) : Prop :=
  if replay.hi = required.hi then (hexText required.lo).length ≤ (hexText replay.lo).length
  else (hexText required.hi).length ≤ (hexText replay.hi).length

def admits (maxLagMs : Option ℚ) (required : Lsn) : Reply → Bool
  | .failed => false
  | .row lagMs replayLsn => healthy maxLagMs (some required.text) (lagMs.getD 0) replayLsn

def FirstLongEnough (maxLagMs : Option ℚ) (required : Lsn) (replicas : List (Replica × Reply)) :
    Prop :=
  ∀ reply, (replicas.map Prod.snd).find? (admits maxLagMs required) = some reply →
    ∃ replay, reply.replayLsn? = some replay ∧ LongEnough required replay

/-! ### Texts of positions -/

theorem hexUnit_mono {low high : ℕ} (less : low < high) (below : high < 16) :
    hexUnit low < hexUnit high := by
  rw [UInt16.lt_iff_toNat_lt, hexUnit, hexUnit, UInt16.toNat_ofNat', UInt16.toNat_ofNat']
  split_ifs <;> omega

theorem units_asymm (low high : UInt16) (less : low < high) : ¬ high < low := by
  rw [UInt16.lt_iff_toNat_lt] at less ⊢
  omega

theorem hexText_append_lt_iff {left right : ℕ}
    (same : (hexText left).length = (hexText right).length) (leftRest rightRest : JsString) :
    hexText left ++ leftRest < hexText right ++ rightRest ↔
      left < right ∨ left = right ∧ leftRest < rightRest := by
  rw [hexText, hexText, List.length_map, List.length_map] at same
  have decided := @DigitOrder.append_lt_append_iff 16 _ _ hexUnit (by decide) units_asymm
    (fun _ _ => hexUnit_mono) _ _ same (fun _ => DigitOrder.lt_of_mem_numeral (by decide))
    (fun _ => DigitOrder.lt_of_mem_numeral (by decide)) leftRest rightRest
  rw [DigitOrder.ofDigits_numeral, DigitOrder.ofDigits_numeral] at decided
  refine decided.trans (or_congr Iff.rfl (and_congr_left' ⟨DigitOrder.numeral_injective, ?_⟩))
  exact fun equal => by rw [equal]

theorem lt_of_hexText_length {left right : ℕ}
    (shorter : (hexText left).length < (hexText right).length) : left < right := by
  rw [hexText, hexText, List.length_map, List.length_map] at shorter
  exact DigitOrder.lt_of_length_lt shorter

theorem position_le_iff (left right : Lsn) :
    left.position ≤ right.position ↔
      left.hi < right.hi ∨ left.hi = right.hi ∧ left.lo ≤ right.lo := by
  unfold Lsn.hi Lsn.lo
  omega

theorem position_le_iff_longEnough {required replay : Lsn}
    (notBefore : ¬ replay.text < required.text) :
    required.position ≤ replay.position ↔ LongEnough required replay := by
  rw [position_le_iff, LongEnough]
  by_cases same : replay.hi = required.hi
  · -- The texts share what comes before the low parts.
    have low : ¬ hexText replay.lo ++ [] < hexText required.lo ++ [] := by
      intro less
      apply notBefore
      rw [Lsn.text, Lsn.text, same, hexText_append_lt_iff rfl]
      refine .inr ⟨rfl, ?_⟩
      rw [List.append_nil, List.append_nil] at less
      exact List.cons_lt_cons_iff.mpr (.inr ⟨rfl, less⟩)
    rw [if_pos same]
    constructor
    · rintro (less | ⟨-, le⟩)
      · omega
      · by_contra shorter
        have less := lt_of_hexText_length (not_le.mp shorter)
        omega
    · intro long
      refine .inr ⟨same.symm, ?_⟩
      rcases long.lt_or_eq with longer | equal
      · exact (lt_of_hexText_length longer).le
      · by_contra less
        exact low ((hexText_append_lt_iff equal.symm [] []).mpr (.inl (not_le.mp less)))
  · rw [if_neg same]
    constructor
    · rintro (less | ⟨equal, -⟩)
      · by_contra shorter
        have reverse := lt_of_hexText_length (not_le.mp shorter)
        omega
      · exact absurd equal.symm same
    · intro long
      refine .inl ?_
      rcases long.lt_or_eq with longer | equal
      · exact lt_of_hexText_length longer
      · by_contra notLess
        have less : replay.hi < required.hi := by omega
        exact notBefore ((hexText_append_lt_iff equal.symm _ _).mpr (.inl less))

/-! ### The replica that is returned -/

section Found

variable {maxLagMs : Option ℚ} {required : Lsn}

theorem healthy_checked (replica : Replica) (reply : Reply) :
    (checked maxLagMs (some required.text) replica reply).healthy =
      admits maxLagMs required reply := by
  cases reply with
  | failed => rfl
  | row => rfl

theorem search_spec (replicas : List (Replica × Reply)) (index : ℕ) :
    (search maxLagMs (some required.text) index replicas).1 = .primary ∧
        (replicas.map Prod.snd).find? (admits maxLagMs required) = none ∨
      ∃ after replica reply,
        (search maxLagMs (some required.text) index replicas).1 = .replica (index + after) ∧
          replicas[after]? = some (replica, reply) ∧
          (replicas.map Prod.snd).find? (admits maxLagMs required) = some reply := by
  induction replicas generalizing index with
  | nil => exact .inl ⟨rfl, rfl⟩
  | cons first rest ih =>
    obtain ⟨replica, reply⟩ := first
    simp only [search, healthy_checked, List.map_cons]
    cases through : admits maxLagMs required reply with
    | true =>
      rw [List.find?_cons_of_pos through]
      exact .inr ⟨0, replica, reply, rfl, rfl, rfl⟩
    | false =>
      rw [List.find?_cons_of_neg (Bool.eq_false_iff.mp through)]
      simp only [Bool.false_eq_true, if_false]
      obtain ⟨primary, none⟩ | ⟨after, found⟩ := ih (index + 1)
      · exact .inl ⟨primary, none⟩
      · obtain ⟨replica, reply, pool, there, first⟩ := found
        refine .inr ⟨after + 1, replica, reply, pool.trans ?_, there, first⟩
        rw [Nat.add_right_comm, Nat.add_assoc]

theorem text_ne_nil (lsn : Lsn) : lsn.text ≠ [] :=
  List.append_ne_nil_of_right_ne_nil _ (List.cons_ne_nil _ _)

theorem not_before_of_admits {reply : Reply} {replay : Lsn}
    (through : admits maxLagMs required reply = true) (reports : reply.replayLsn? = some replay) :
    ¬ replay.text < required.text := by
  cases reply with
  | failed => cases reports
  | row lagMs replayLsn =>
    cases reports
    rw [admits, healthy, Bool.and_eq_true] at through
    · simpa using through.2
    · exact text_ne_nil required

/-- The pool that is returned is never behind the required position exactly where the first reply
that the check lets through reports a position that is long enough. -/
theorem readsOwnWrites_iff (maxLagMs : Option ℚ) (required : Lsn)
    (replicas : List (Replica × Reply)) :
    ReadsOwnWrites maxLagMs required replicas ↔ FirstLongEnough maxLagMs required replicas := by
  rw [ReadsOwnWrites, FirstLongEnough, getReadPool]
  obtain ⟨primary, none⟩ | ⟨after, replica, reply, pool, there, first⟩ :=
    @search_spec maxLagMs required replicas 0
  · rw [primary, none]
    exact iff_of_true trivial nofun
  · rw [pool, first]
    have through := List.find?_some first
    constructor
    · rintro ⟨replica', reply', replay, there', reports, reached⟩ _ same
      cases same
      rw [Nat.zero_add, there] at there'
      cases there'
      have notBefore := not_before_of_admits through reports
      exact ⟨replay, reports, (position_le_iff_longEnough notBefore).mp reached⟩
    · intro enough
      obtain ⟨replay, reports, long⟩ := enough reply rfl
      have notBefore := not_before_of_admits through reports
      rw [← position_le_iff_longEnough notBefore] at long
      exact ⟨replica, reply, replay, by rwa [Nat.zero_add], reports, long⟩

end Found

/-- The client's write is at 10/0 and the replica at 9/FFFFFFF0. -/
theorem replica_behind :
    ¬ ReadsOwnWrites (some 5000) ⟨0x1000000000, by decide⟩
      [(⟨true, 0, none⟩, .row (some 12) (some ⟨0x9FFFFFFF0, by decide⟩))] := by
  rw [ReadsOwnWrites]
  have found : (getReadPool (some 5000) (some (Lsn.text ⟨0x1000000000, by decide⟩))
      [(⟨true, 0, none⟩, .row (some 12) (some ⟨0x9FFFFFFF0, by decide⟩))]).1 = .replica 0 := by
    decide +kernel
  rw [found]
  rintro ⟨replica, reply, replay, there, reports, reached⟩
  cases there
  cases reports
  exact absurd reached (by decide)

end ReadReplicas

end SorobanExplorer.Indexer
