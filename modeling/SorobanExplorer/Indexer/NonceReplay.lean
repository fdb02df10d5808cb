import SorobanExplorer.Indexer.RequestSigning
import SorobanExplorer.Library.Run
import SorobanExplorer.Library.Slots
import Mathlib.Algebra.Order.Archimedean.Real.Basic
import Mathlib.Tactic.NormNum

/-!
Owns the replay protection of signed requests: requests that arrive and are answered later, the
nonces that the database holds, and their pruning, all by one clock.

A timestamp is compared in whole seconds, while a nonce expires at an exact time.
-/

namespace SorobanExplorer.Indexer.RequestSigning

open Library
open RouteScopes (foldCase)

abbrev RequestId := ℕ

structure Accepted where
  keyId : String
  timestamp : String
  nonce : String
deriving DecidableEq

/-- `nonces` are the rows of `used_nonces` with their `expires_at`; `pending` are the requests
whose `nowSec` was read at some time and that are not answered yet. -/
structure Server where
  now : ℝ
  nonces : (keyId nonce : String) → Option ℝ
  pending : RequestId → Option (Signed × ℝ)
  accepted : List Accepted

inductive Action where
  | arrive (id : RequestId) (signed : Signed) (time : ℝ)
  /-- The nonce is claimed at this time, with what `getSecrets` returned. -/
  | answer (id : RequestId) (secrets : Option (List String)) (time : ℝ)
  | pruneNonces (time : ℝ)

namespace Server

def start : Server := ⟨0, fun _ _ => none, fun _ => none, []⟩

/-- `INSERT … ON CONFLICT (key_id, nonce) DO NOTHING` -/
noncomputable def storage (server : Server) (skewSec : ℕ) (started : ℝ)
    (secrets : Option (List String)) : Storage where
  nowSec := ⌊started⌋₊
  skewSec
  getSecrets _ := secrets
  claimNonce keyId nonce _ := some (server.nonces keyId nonce).isNone

noncomputable def answer (server : Server) (skewSec : ℕ) (id : RequestId) (signed : Signed)
    (time : ℝ) : Option Verification → Server
  | some (.ok keyId nonce) =>
    { now := time
      nonces := Function.update server.nonces keyId
        (Function.update (server.nonces keyId) nonce (some (time + skewSec * 2)))
      pending := Function.update server.pending id none
      accepted := ⟨keyId, (RouteScopes.truthy signed.headers.timestamp).getD "", nonce⟩ :: server.accepted }
  | _ => { server with now := time, pending := Function.update server.pending id none }

/-- `DELETE FROM used_nonces WHERE expires_at < NOW()` -/
noncomputable def prune (server : Server) (time : ℝ) : Server :=
  { server with
    now := time
    nonces := fun keyId nonce => (server.nonces keyId nonce).filter fun expires => time ≤ expires }

end Server

inductive Step (digests : Digests) (skewSec : ℕ) : Server → Action → Server → Prop
  | arrive {server : Server} (id : RequestId) (signed : Signed) (time : ℝ)
      (later : server.now ≤ time) (unused : server.pending id = none) :
      Step digests skewSec server (.arrive id signed time)
        { server with
          now := time, pending := Function.update server.pending id (some (signed, time)) }
  | answer {server : Server} {signed : Signed} {started : ℝ} (id : RequestId)
      (secrets : Option (List String)) (time : ℝ) (later : server.now ≤ time)
      (pending : server.pending id = some (signed, started)) :
      Step digests skewSec server (.answer id secrets time)
        (server.answer skewSec id signed time
          (verifySignedRequest digests (server.storage skewSec started secrets) signed))
  | pruneNonces {server : Server} (time : ℝ) (later : server.now ≤ time) :
      Step digests skewSec server (.pruneNonces time) (server.prune time)

theorem deterministic_nonces (digests : Digests) (skewSec : ℕ) :
    Deterministic (Step digests skewSec) := by
  intro before action first second one two
  cases one with
  | arrive | pruneNonces =>
    cases two
    rfl
  | answer _ _ _ _ pending =>
    cases two with
    | answer _ _ _ _ other =>
      cases pending.symm.trans other
      rfl

/-! ### Stale timestamps -/

def Expired (skewSec : ℕ) (timestamp : String) (time : ℝ) : Prop :=
  ∀ ts, integer? (Filters.stringToNumber (Filters.js timestamp)) = some ts → ts + skewSec < ⌊time⌋₊

def WasFresh (skewSec : ℕ) (timestamp : String) (started : ℝ) : Prop :=
  ∃ ts, integer? (Filters.stringToNumber (Filters.js timestamp)) = some ts ∧
    |(⌊started⌋₊ : ℤ) - ts| ≤ skewSec

variable {digests : Digests} {skewSec : ℕ} {timestamp : String} {time later started : ℝ}

theorem wasFresh_of_isFresh {server : Server} {secrets : Option (List String)}
    (fresh : isFresh (server.storage skewSec started secrets) timestamp = true) :
    WasFresh skewSec timestamp started := by
  unfold isFresh at fresh
  split at fresh
  · next ts same => exact ⟨ts, same, of_decide_eq_true fresh⟩
  · nomatch fresh

theorem Expired.not_wasFresh (expired : Expired skewSec timestamp time) (after : time ≤ later) :
    ¬ WasFresh skewSec timestamp later := by
  rintro ⟨ts, same, near⟩
  have past := expired ts same
  have floors : ⌊time⌋₊ ≤ ⌊later⌋₊ := Nat.floor_le_floor after
  have bound := abs_le.mp near
  omega

/-- A nonce that was claimed at least a second after its timestamp became fresh outlives it. -/
theorem expired_of_claimed {claimed : ℝ} (pruned : claimed + skewSec * 2 < time)
    (late : ∀ ts, integer? (Filters.stringToNumber (Filters.js timestamp)) = some ts →
      (ts : ℝ) - skewSec + 1 ≤ claimed) : Expired skewSec timestamp time := by
  intro ts same
  have bound := late ts same
  have above : ((ts + skewSec + 1 : ℤ) : ℝ) ≤ time := by
    push_cast
    linarith
  have floor := Int.le_floor.mpr above
  have natural : ⌊time⌋.toNat = ⌊time⌋₊ := Int.floor_toNat time
  omega

/-! ### Whole runs -/

structure Accepted.CarriedBy (entry : Accepted) (signed : Signed) : Prop where
  keyId : RouteScopes.truthy signed.headers.keyId = some entry.keyId
  timestamp : RouteScopes.truthy signed.headers.timestamp = some entry.timestamp
  nonce : RouteScopes.truthy signed.headers.nonce = some entry.nonce

def Settled (skewSec : ℕ) (server : Server) (entry : Accepted) : Prop :=
  ∀ id signed started, server.pending id = some (signed, started) → entry.CarriedBy signed →
    ¬ WasFresh skewSec entry.timestamp started

def Timely (skewSec : ℕ) (server : Server) : Action → Prop
  | .pruneNonces time => ∀ entry ∈ server.accepted, ∀ expires,
      server.nonces entry.keyId entry.nonce = some expires → expires < time →
        Expired skewSec entry.timestamp time ∧ Settled skewSec server entry
  | _ => True

def Safe (skewSec : ℕ) (server : Server) (entry : Accepted) : Prop :=
  (server.nonces entry.keyId entry.nonce).isSome = true ∨
    (∀ later, server.now ≤ later → ¬ WasFresh skewSec entry.timestamp later) ∧
      Settled skewSec server entry

structure Replayless (skewSec : ℕ) (server : Server) : Prop where
  once : server.accepted.Nodup
  safe : ∀ entry ∈ server.accepted, Safe skewSec server entry

section Steps

variable {server before after : Server} {entry : Accepted} {action : Action}

theorem Safe.mono (safe : Safe skewSec before entry)
    (nonces : (before.nonces entry.keyId entry.nonce).isSome = true →
      (after.nonces entry.keyId entry.nonce).isSome = true)
    (now : before.now ≤ after.now)
    (pending : ∀ id found, after.pending id = some found → before.pending id = some found) :
    Safe skewSec after entry :=
  safe.imp nonces fun ⟨stale, settled⟩ =>
    ⟨fun later past => stale later (now.trans past),
      fun id signed started found => settled id signed started (pending id _ found)⟩

namespace Replayless

theorem arrive (kept : Replayless skewSec server) {id : RequestId} {signed : Signed}
    (past : server.now ≤ time) :
    Replayless skewSec { server with
      now := time, pending := Function.update server.pending id (some (signed, time)) } := by
  refine ⟨kept.once, fun entry member => (kept.safe entry member).imp_right ?_⟩
  rintro ⟨stale, settled⟩
  refine ⟨fun later after => stale later (past.trans after), fun other request started found => ?_⟩
  change Function.update server.pending id (some (signed, time)) other = some (request, started)
    at found
  obtain ⟨-, new⟩ | ⟨-, there⟩ := of_update found
  · cases new
    exact fun _ => stale time past
  · exact settled other request started there

theorem answer (kept : Replayless skewSec server) {id : RequestId} {signed : Signed}
    {secrets : Option (List String)} (past : server.now ≤ time)
    (pending : server.pending id = some (signed, started)) :
    Replayless skewSec (server.answer skewSec id signed time
      (verifySignedRequest digests (server.storage skewSec started secrets) signed)) := by
  have others : Replayless skewSec
      { server with now := time, pending := Function.update server.pending id none } :=
    ⟨kept.once, fun entry member =>
      (kept.safe entry member).mono (fun stored => stored) past fun _ _ found =>
        (of_update_none found).2⟩
  unfold Server.answer
  split
  · next keyId nonce verified =>
      obtain ⟨timestamp, signature, secrets, keyed, timed, named, -, -, fresh, -, -, claimed⟩ :=
        (verifySignedRequest_eq_ok_iff digests).mp verified
      have wasFresh := wasFresh_of_isFresh fresh
      have absent : server.nonces keyId nonce = none :=
        Option.isNone_iff_eq_none.mp (Option.some.inj claimed)
      rw [timed, Option.getD_some]
      refine ⟨List.nodup_cons.mpr ⟨fun member => ?_, kept.once⟩, fun entry member => ?_⟩
      · obtain stored | ⟨-, settled⟩ := kept.safe _ member
        · rw [absent] at stored
          nomatch stored
        · exact settled id signed started pending ⟨keyed, timed, named⟩ wasFresh
      · obtain rfl | old := List.mem_cons.mp member
        · left
          simp
        · refine (others.safe entry old).mono (fun stored => ?_) (le_refl _) fun _ _ found => found
          change (Function.update server.nonces keyId _ entry.keyId entry.nonce).isSome = true
          rw [Function.update_apply]
          split
          · next sameKey =>
              rw [Function.update_apply]
              split
              · rfl
              · rw [← sameKey]
                exact stored
          · exact stored
  · exact others

theorem prune (kept : Replayless skewSec server) (past : server.now ≤ time)
    (timely : Timely skewSec server (.pruneNonces time)) :
    Replayless skewSec (server.prune time) := by
  refine ⟨kept.once, fun entry member => ?_⟩
  obtain stored | ⟨stale, settled⟩ := kept.safe entry member
  · obtain ⟨expires, found⟩ := Option.isSome_iff_exists.mp stored
    by_cases gone : expires < time
    · obtain ⟨expired, settled⟩ := timely entry member expires found gone
      exact .inr ⟨fun later after => expired.not_wasFresh after, settled⟩
    · left
      simp [Server.prune, found, Option.filter, not_lt.mp gone]
  · exact .inr ⟨fun later after => stale later (past.trans after), settled⟩

theorem step (kept : Replayless skewSec before) (timely : Timely skewSec before action)
    (taken : Step digests skewSec before action after) : Replayless skewSec after := by
  cases taken with
  | arrive id signed time past => exact kept.arrive past
  | answer id secrets time past pending => exact kept.answer past pending
  | pruneNonces time past => exact kept.prune past timely

end Replayless

end Steps

/-- In every run that prunes in time, no two requests with the same key id, timestamp and nonce are
accepted. -/
theorem replayless_of_eachStep (digests : Digests) (skewSec : ℕ) {actions : List Action}
    (timely : EachStep (Step digests skewSec) .start actions (Timely skewSec)) :
    Along (Step digests skewSec) .start actions fun _ server => server.accepted.Nodup := by
  have kept := timely.along (P := fun _ server => Replayless skewSec server)
    ⟨List.nodup_nil, fun _ member => absurd member List.not_mem_nil⟩
    fun _ _ _ _ _ kept guard taken => kept.step guard taken
  exact fun history isPrefix server run => (kept history isPrefix server run).once

section OneRequest

variable (digests : Digests)

/-- A request of second 1000, signed with the secret `s`. -/
def signedAt1000 : Signed where
  headers := ⟨some "k", some "1000", some "aaaaaaaaaaaaaaaa",
    some (signRequest digests "s" "POST" "/api/contracts" [] "1000" "aaaaaaaaaaaaaaaa")⟩
  method := "POST"
  path := "/api/contracts"
  rawBody := []

def entryAt1000 : Accepted := ⟨"k", "1000", "aaaaaaaaaaaaaaaa"⟩

theorem integer?_1000 : integer? (Filters.stringToNumber (Filters.js "1000")) = some 1000 := by
  decide +kernel

theorem step_accepted {server : Server} (id : RequestId) (past : server.now ≤ time)
    (pending : server.pending id = some (signedAt1000 digests, started))
    (near : |(⌊started⌋₊ : ℤ) - 1000| ≤ (300 : ℕ))
    (absent : server.nonces "k" "aaaaaaaaaaaaaaaa" = none) :
    Step digests 300 server (.answer id (some ["s"]) time)
      (server.answer 300 id (signedAt1000 digests) time (some (.ok "k" "aaaaaaaaaaaaaaaa"))) := by
  have fresh : isFresh (server.storage 300 started (some ["s"])) "1000" = true := by
    unfold isFresh
    rw [integer?_1000]
    exact decide_eq_true near
  have verified : verifySignedRequest digests (server.storage 300 started (some ["s"]))
      (signedAt1000 digests) = some (.ok "k" "aaaaaaaaaaaaaaaa") := by
    refine (verifySignedRequest_eq_ok_iff digests).mpr ⟨"1000", _, ["s"], rfl, rfl, rfl, ?_,
      by decide, fresh, rfl, ⟨"s", List.mem_singleton_self _, (foldCase_hex _).symm⟩, ?_⟩
    · exact if_pos (decide_eq_true (hex_ne_empty _))
    · exact congrArg some (Option.isNone_iff_eq_none.mpr absent)
  have step : Step digests 300 server _ _ := .answer id (some ["s"]) time past pending
  rwa [verified] at step

def prunedLate : List Action :=
  [.arrive 0 (signedAt1000 digests) 1000, .answer 0 (some ["s"]) 1000, .pruneNonces 2000]

noncomputable def replayed : List Action :=
  [.arrive 0 (signedAt1000 digests) 700.2, .answer 0 (some ["s"]) 700.2, .pruneNonces 1300.5,
    .arrive 1 (signedAt1000 digests) 1300.8, .answer 1 (some ["s"]) 1300.8]

def PrunedLateReplayless : Prop := ∀ digests,
  (∃ server, Run (Step digests 300) .start (prunedLate digests) server) ∧
    Along (Step digests 300) .start (prunedLate digests) fun _ server => server.accepted.Nodup

theorem prunedLate_replayless : PrunedLateReplayless := by
  intro digests
  have nothing : Run (Step digests 300) .start [] .start ∧
      EachStep (Step digests 300) .start [] (Timely 300) := ⟨Run.nil, EachStep.nil⟩
  have arrived := EachStep.extend (deterministic_nonces digests 300) nothing
    (show Timely 300 _ (.arrive 0 (signedAt1000 digests) 1000) from trivial)
    (.arrive 0 (signedAt1000 digests) 1000 (by norm_num [Server.start]) rfl)
  have accepted := EachStep.extend (deterministic_nonces digests 300) arrived
    (show Timely 300 _ (.answer 0 (some ["s"]) 1000) from trivial)
    (step_accepted digests 0 (le_refl _) rfl (by simp) rfl)
  have pruned := EachStep.extend (deterministic_nonces digests 300) accepted
    (show Timely 300 _ (.pruneNonces 2000) from fun entry member expires stored past => by
      cases List.mem_singleton.mp member
      refine ⟨fun ts same => ?_, fun id signed started found => ?_⟩
      · cases integer?_1000.symm.trans same
        norm_num
      · match id with
        | 0 => nomatch found
        | _ + 1 => nomatch found)
    (.pruneNonces 2000 (by norm_num [Server.answer]))
  exact ⟨⟨_, pruned.1⟩, replayless_of_eachStep digests 300 pruned.2⟩

theorem replayed_twice : ¬∃ digests, Along (Step digests 300) .start (replayed digests)
    fun _ server => server.accepted.Nodup := by
  rintro ⟨digests, once⟩
  have arrived : Run (Step digests 300) .start [.arrive 0 (signedAt1000 digests) 700.2] _ :=
    Run.one (.arrive 0 (signedAt1000 digests) 700.2 (by norm_num [Server.start]) rfl)
  have early : |(⌊(700.2 : ℝ)⌋₊ : ℤ) - 1000| ≤ (300 : ℕ) := by
    rw [show ⌊(700.2 : ℝ)⌋₊ = 700 from
      (Nat.floor_eq_iff (by norm_num)).mpr ⟨by norm_num, by norm_num⟩]
    norm_num
  have late : |(⌊(1300.8 : ℝ)⌋₊ : ℤ) - 1000| ≤ (300 : ℕ) := by
    rw [show ⌊(1300.8 : ℝ)⌋₊ = 1300 from
      (Nat.floor_eq_iff (by norm_num)).mpr ⟨by norm_num, by norm_num⟩]
    norm_num
  have accepted := arrived.snoc (step_accepted digests 0 (le_refl _) rfl early rfl)
  have pruned := accepted.snoc (.pruneNonces 1300.5 (by norm_num [Server.answer]))
  have again := pruned.snoc
    (.arrive 1 (signedAt1000 digests) 1300.8 (by norm_num [Server.prune]) rfl)
  have twice := again.snoc (step_accepted digests 1 (le_refl _) rfl late
    (by norm_num [Server.prune, Server.answer, Option.filter]))
  exact (List.nodup_cons.mp (once _ (List.prefix_refl _) _ twice)).1 List.mem_cons_self

end OneRequest

end SorobanExplorer.Indexer.RequestSigning
