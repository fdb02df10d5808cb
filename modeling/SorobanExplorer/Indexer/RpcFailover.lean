import Mathlib.Data.Finset.Card
import Mathlib.Data.Finset.Range
import Mathlib.Data.List.Range
import Mathlib.Tactic.Common

/-!
Owns the failover between RPC nodes: `nextHealthy`, the attempts of `callWithFailover`, and for
which pools a call gives up only when every node has failed or lagged behind in it.

Nobody else changes the pool during the call. Statistics and log lines are left out.
-/

namespace SorobanExplorer.Indexer

namespace RpcFailover

variable {α : Type}

/-! ### Nodes -/

structure Node where
  healthy : Bool
  latestLedger : ℕ

structure Pool where
  nodes : List Node
  primaryIndex : ℕ

def healthyAt (nodes : List Node) (index : ℕ) : Bool := nodes[index]?.elim false Node.healthy

/-- `node.healthy = false` -/
def markDown (nodes : List Node) (index : ℕ) : List Node :=
  nodes.modify index fun node => { node with healthy := false }

def nextHealthy (nodes : List Node) (startIndex : ℕ) : ℕ × List Node :=
  let after (step : ℕ) : ℕ := (startIndex + (step + 1)) % nodes.length
  match (List.range nodes.length).find? fun step => healthyAt nodes (after step) with
  | some step => (after step, nodes)
  | none => (0, nodes.map fun node => { node with healthy := true })

/-- What a node answers to one attempt: a result with its ledger fields, or it fails or takes too
long. -/
inductive Answer (α : Type) where
  | failed
  | result (value : α) (latestLedger sequence : Option ℕ)

/-- `if (ledger) node.latestLedger = ledger` -/
def learn (nodes : List Node) (index : ℕ) (latestLedger sequence : Option ℕ) : List Node :=
  match latestLedger.or sequence with
  | none | some 0 => nodes
  | some ledger => nodes.modify index fun node => { node with latestLedger := ledger }

def bestLedger (nodes : List Node) : ℕ := (nodes.map Node.latestLedger).foldr max 0

def behind (nodes : List Node) (index : ℕ) : ℕ :=
  bestLedger nodes - nodes[index]?.elim 0 Node.latestLedger

/-! ### Attempts -/

inductive Verdict where
  | failed
  | lagging
deriving DecidableEq

inductive Outcome (α : Type) where
  | returned (value : α) (index : ℕ)
  | thrown

structure Call (α : Type) where
  outcome : Outcome α
  /-- The nodes that were given up, in order. -/
  tried : List (ℕ × Verdict)
  pool : Pool

def Call.after (index : ℕ) (verdict : Verdict) (call : Call α) : Call α :=
  { call with tried := (index, verdict) :: call.tried }

def attempts (LAG_THRESHOLD : ℕ) (answers : ℕ → ℕ → Answer α) : ℕ → ℕ → Pool → ℕ → Call α
  | 0, _, pool, _ => ⟨.thrown, [], pool⟩
  | remaining + 1, attempt, pool, idx =>
    match answers attempt idx with
    | .failed =>
      let next := nextHealthy (markDown pool.nodes idx) idx
      (attempts LAG_THRESHOLD answers remaining (attempt + 1)
        { pool with nodes := next.2 } next.1).after idx .failed
    | .result value latestLedger sequence =>
      let nodes := learn pool.nodes idx latestLedger sequence
      if LAG_THRESHOLD < behind nodes idx then
        let next := nextHealthy (markDown nodes idx) idx
        (attempts LAG_THRESHOLD answers remaining (attempt + 1) ⟨next.2, next.1⟩
          next.1).after idx .lagging
      else ⟨.returned value idx, [], ⟨nodes, idx⟩⟩

def callWithFailover (LAG_THRESHOLD : ℕ) (answers : ℕ → ℕ → Answer α) (pool : Pool) : Call α :=
  attempts LAG_THRESHOLD answers pool.nodes.length 0 pool pool.primaryIndex

/-! ### Statement -/

/-- A result is one that a node answered in this call, and the node is not too far behind; the call
gives up only when every node was given up in it. -/
def Reliable (LAG_THRESHOLD : ℕ) (answers : ℕ → ℕ → Answer α) (pool : Pool) : Prop :=
  let call := callWithFailover LAG_THRESHOLD answers pool
  match call.outcome with
  | .returned value index =>
    (∃ attempt latestLedger sequence,
      answers attempt index = .result value latestLedger sequence) ∧
      behind call.pool.nodes index ≤ LAG_THRESHOLD
  | .thrown => ∀ index < pool.nodes.length, index ∈ call.tried.map Prod.fst

def DownFirst (pool : Pool) : Prop :=
  ∃ count, ∀ index < pool.nodes.length,
    (index ≠ pool.primaryIndex ∧ healthyAt pool.nodes index = false) ↔ index < count

/-! ### Marks -/

section Marks

variable {nodes : List Node}

theorem length_markDown (nodes : List Node) (index : ℕ) :
    (markDown nodes index).length = nodes.length := List.length_modify ..

theorem healthyAt_markDown (nodes : List Node) (index other : ℕ) :
    healthyAt (markDown nodes index) other = (healthyAt nodes other && decide (other ≠ index)) := by
  rw [healthyAt, markDown, List.getElem?_modify, healthyAt]
  by_cases same : index = other
  · subst same
    cases nodes[index]? <;> simp
  · cases nodes[other]? <;> simp [same, Ne.symm same]

theorem length_learn (nodes : List Node) (index : ℕ) (latestLedger sequence : Option ℕ) :
    (learn nodes index latestLedger sequence).length = nodes.length := by
  unfold learn
  split
  · rfl
  · rfl
  · exact List.length_modify ..

theorem healthyAt_learn (nodes : List Node) (index : ℕ) (latestLedger sequence : Option ℕ)
    (other : ℕ) :
    healthyAt (learn nodes index latestLedger sequence) other = healthyAt nodes other := by
  unfold learn
  split
  · rfl
  · rfl
  · rw [healthyAt, List.getElem?_modify, healthyAt]
    cases nodes[other]? with
    | none => rfl
    | some node =>
      simp only [Option.map_eq_map, Option.map_some, Option.elim_some]
      split_ifs <;> rfl

theorem lt_of_healthyAt {index : ℕ} (healthy : healthyAt nodes index = true) :
    index < nodes.length := by
  by_contra outside
  rw [healthyAt, List.getElem?_eq_none (not_lt.mp outside)] at healthy
  cases healthy

theorem exists_step {length index : ℕ} (inside : index < length) (startIndex : ℕ) :
    ∃ step < length, (startIndex + (step + 1)) % length = index := by
  have positive : 0 < length := by omega
  have first := Nat.mod_lt (startIndex + 1) positive
  have cut (step : ℕ) : (startIndex + (step + 1)) % length =
      ((startIndex + 1) % length + step) % length := by
    rw [Nat.mod_add_mod]
    congr 1
    omega
  rcases Nat.lt_or_ge index ((startIndex + 1) % length) with before | notBefore
  · refine ⟨length + index - (startIndex + 1) % length, by omega, ?_⟩
    rw [cut, show (startIndex + 1) % length + (length + index - (startIndex + 1) % length) =
      index + length by omega, Nat.add_mod_right, Nat.mod_eq_of_lt inside]
  · refine ⟨index - (startIndex + 1) % length, by omega, ?_⟩
    rw [cut, Nat.add_sub_cancel' notBefore, Nat.mod_eq_of_lt inside]

theorem nextHealthy_spec (nodes : List Node) (startIndex : ℕ) :
    (∃ index, healthyAt nodes index = true ∧ nextHealthy nodes startIndex = (index, nodes)) ∨
      (∀ index, healthyAt nodes index = false) ∧
        nextHealthy nodes startIndex =
          (0, nodes.map fun node => { node with healthy := true }) := by
  unfold nextHealthy
  simp only
  split
  · next step found =>
      exact .inl ⟨_, by simpa using List.find?_some found, rfl⟩
  · next none =>
      refine .inr ⟨fun index => ?_, rfl⟩
      by_contra healthy
      have inside := lt_of_healthyAt (Bool.not_eq_false _ ▸ healthy)
      obtain ⟨step, below, reaches⟩ := exists_step inside startIndex
      have down := List.find?_eq_none.mp none step (List.mem_range.mpr below)
      rw [reaches] at down
      exact healthy (Bool.not_eq_true _ ▸ down)

theorem nextHealthy_succ {index : ℕ} (healthy : healthyAt nodes (index + 1) = true) :
    nextHealthy nodes index = (index + 1, nodes) := by
  have inside := lt_of_healthyAt healthy
  have next : (index + (0 + 1)) % nodes.length = index + 1 := Nat.mod_eq_of_lt inside
  have nonempty : List.range nodes.length = 0 :: (List.range (nodes.length - 1)).map (· + 1) := by
    rw [← List.range_succ_eq_map, Nat.sub_add_cancel (by omega)]
  unfold nextHealthy
  simp only
  rw [nonempty, List.find?_cons_of_pos]
  · simp only [next]
  · rw [next, healthy]

theorem healthyAt_reset {index : ℕ} (inside : index < nodes.length) :
    healthyAt (nodes.map fun node => { node with healthy := true }) index = true := by
  rw [healthyAt, List.getElem?_map, List.getElem?_eq_getElem inside]
  rfl

end Marks

/-! ### The order of the attempts -/

section Order

variable {LAG_THRESHOLD : ℕ} {answers : ℕ → ℕ → Answer α}

theorem attempts_thrown {remaining attempt idx : ℕ} {pool : Pool}
    (thrown : (attempts LAG_THRESHOLD answers (remaining + 1) attempt pool idx).outcome = .thrown) :
    ∃ (nodes : List Node) (rest : Pool), nodes.length = pool.nodes.length ∧
      (∀ index, healthyAt nodes index =
        (healthyAt pool.nodes index && decide (index ≠ idx))) ∧
      rest.nodes = (nextHealthy nodes idx).2 ∧
      (attempts LAG_THRESHOLD answers remaining (attempt + 1) rest
        (nextHealthy nodes idx).1).outcome = .thrown ∧
      (attempts LAG_THRESHOLD answers (remaining + 1) attempt pool idx).tried.map Prod.fst =
        idx :: (attempts LAG_THRESHOLD answers remaining (attempt + 1) rest
          (nextHealthy nodes idx).1).tried.map Prod.fst := by
  rw [attempts] at thrown ⊢
  cases answer : answers attempt idx with
  | failed =>
    simp only [answer] at thrown ⊢
    exact ⟨markDown pool.nodes idx, _, length_markDown .., healthyAt_markDown _ _, rfl, thrown,
      rfl⟩
  | result value latestLedger sequence =>
    simp only [answer] at thrown ⊢
    split_ifs at thrown ⊢ with lagging
    refine ⟨markDown (learn pool.nodes idx latestLedger sequence) idx, _, ?_, fun index => ?_,
      rfl, thrown, rfl⟩
    · rw [length_markDown, length_learn]
    · rw [healthyAt_markDown, healthyAt_learn]

theorem tried_sweep {remaining attempt idx : ℕ} {pool : Pool}
    (healthy : ∀ index, idx ≤ index → index < pool.nodes.length →
      healthyAt pool.nodes index = true)
    (fits : idx + remaining ≤ pool.nodes.length)
    (thrown : (attempts LAG_THRESHOLD answers remaining attempt pool idx).outcome = .thrown) :
    (attempts LAG_THRESHOLD answers remaining attempt pool idx).tried.map Prod.fst =
      List.range' idx remaining := by
  induction remaining generalizing attempt idx pool with
  | zero => rfl
  | succ remaining ih =>
    obtain ⟨nodes, rest, length, marks, same, after, tried⟩ := attempts_thrown thrown
    rw [tried, List.range'_succ]
    congr 1
    cases remaining with
    | zero => rfl
    | succ remaining =>
      have next : healthyAt nodes (idx + 1) = true := by
        rw [marks, healthy (idx + 1) (by omega) (by omega)]
        simp
      rw [nextHealthy_succ next] at same after ⊢
      have unchanged : rest.nodes = nodes := same
      apply ih _ _ after
      · intro index le inside
        rw [unchanged] at inside ⊢
        rw [marks, healthy index (by omega) (by omega), decide_eq_true (by omega)]
        rfl
      · rw [unchanged, length]
        omega

def upcoming (nodes : List Node) (idx : ℕ) : Finset ℕ :=
  (Finset.range nodes.length).filter fun index => healthyAt nodes index = true ∨ index = idx

theorem mem_upcoming {nodes : List Node} {idx index : ℕ} (inside : idx < nodes.length) :
    index ∈ upcoming nodes idx ↔ healthyAt nodes index = true ∨ index = idx := by
  rw [upcoming, Finset.mem_filter, Finset.mem_range, and_iff_right_iff_imp]
  rintro (healthy | rfl)
  · exact lt_of_healthyAt healthy
  · exact inside

theorem mem_tried_iff {remaining attempt idx : ℕ} {pool : Pool} (inside : idx < pool.nodes.length)
    (enough : (upcoming pool.nodes idx).card ≤ remaining) (few : remaining ≤ pool.nodes.length)
    (thrown : (attempts LAG_THRESHOLD answers remaining attempt pool idx).outcome = .thrown)
    (index : ℕ) :
    index ∈ (attempts LAG_THRESHOLD answers remaining attempt pool idx).tried.map Prod.fst ↔
      index ∈ upcoming pool.nodes idx ∨
        index < remaining - (upcoming pool.nodes idx).card := by
  have here : idx ∈ upcoming pool.nodes idx := (mem_upcoming inside).mpr (.inr rfl)
  induction remaining generalizing attempt idx pool with
  | zero =>
    rw [Nat.le_zero, Finset.card_eq_zero] at enough
    rw [enough] at here
    cases here
  | succ remaining ih =>
    obtain ⟨nodes, rest, length, marks, same, after, tried⟩ := attempts_thrown thrown
    rw [tried, List.mem_cons]
    obtain ⟨next, healthy, found⟩ | ⟨down, reset⟩ := nextHealthy_spec nodes idx
    · have unchanged : rest.nodes = nodes := by rw [same, found]
      have left : upcoming rest.nodes next = (upcoming pool.nodes idx).erase idx := by
        ext other
        rw [unchanged, mem_upcoming (lt_of_healthyAt healthy), Finset.mem_erase,
          mem_upcoming inside]
        constructor
        · intro upcoming
          have up : healthyAt nodes other = true := by
            rcases upcoming with up | rfl
            · exact up
            · exact healthy
          rw [marks, Bool.and_eq_true, decide_eq_true_eq] at up
          exact ⟨up.2, .inl up.1⟩
        · rintro ⟨other_ne, up | rfl⟩
          · rw [marks, up, decide_eq_true other_ne]
            exact .inl rfl
          · exact absurd rfl other_ne
      have positive : 0 < (upcoming pool.nodes idx).card := Finset.card_pos.mpr ⟨idx, here⟩
      have card := Finset.card_erase_of_mem here
      rw [← left] at card
      have nextInside : next < rest.nodes.length := unchanged ▸ lt_of_healthyAt healthy
      rw [found] at after ⊢
      have later := ih nextInside (by omega) (by rw [unchanged, length]; omega)
        after ((mem_upcoming nextInside).mpr (.inr rfl))
      have counts : remaining - (upcoming rest.nodes next).card =
          remaining + 1 - (upcoming pool.nodes idx).card := by omega
      rw [counts, left, Finset.mem_erase] at later
      refine Iff.trans (or_congr Iff.rfl later) ?_
      by_cases self : index = idx
      · simp [self, here]
      · simp [self]
    · have alone : upcoming pool.nodes idx = {idx} := by
        ext other
        rw [mem_upcoming inside, Finset.mem_singleton, or_iff_right_iff_imp]
        intro up
        by_contra other_ne
        have gone := down other
        rw [marks, up, decide_eq_true other_ne] at gone
        cases gone
      have sweep : (attempts LAG_THRESHOLD answers remaining (attempt + 1) rest 0).tried.map
          Prod.fst = List.range' 0 remaining := by
        rw [reset] at after
        apply tried_sweep _ _ after
        · intro other _ below
          rw [same, reset] at below ⊢
          rw [List.length_map] at below
          exact healthyAt_reset below
        · rw [same, reset, List.length_map, length]
          omega
      rw [reset, sweep, alone, Finset.mem_singleton, Finset.card_singleton, List.mem_range'_1]
      omega

theorem returned_spec {remaining attempt idx : ℕ} {pool : Pool} {value : α} {index : ℕ}
    (returned : (attempts LAG_THRESHOLD answers remaining attempt pool idx).outcome =
      .returned value index) :
    (∃ attempt latestLedger sequence,
      answers attempt index = .result value latestLedger sequence) ∧
      behind (attempts LAG_THRESHOLD answers remaining attempt pool idx).pool.nodes index ≤
        LAG_THRESHOLD := by
  induction remaining generalizing attempt idx pool with
  | zero => cases returned
  | succ remaining ih =>
    rw [attempts] at returned ⊢
    cases answer : answers attempt idx with
    | failed =>
      simp only [answer] at returned ⊢
      exact ih returned
    | result result latestLedger sequence =>
      simp only [answer] at returned ⊢
      split_ifs at returned ⊢ with lagging
      · exact ih returned
      · cases returned
        exact ⟨⟨attempt, latestLedger, sequence, answer⟩, not_lt.mp lagging⟩

theorem thrown_of_failed (remaining attempt idx : ℕ) (pool : Pool) :
    (attempts LAG_THRESHOLD (fun _ _ => (.failed : Answer α)) remaining attempt pool idx).outcome =
      .thrown := by
  induction remaining generalizing attempt idx pool with
  | zero => rfl
  | succ remaining ih => exact ih _ _ _

end Order

/-! ### When no pattern of failures misleads a call -/

section Exact

variable {pool : Pool}

def downNodes (pool : Pool) : Finset ℕ :=
  (Finset.range pool.nodes.length).filter fun index =>
    index ≠ pool.primaryIndex ∧ healthyAt pool.nodes index = false

theorem mem_downNodes {index : ℕ} :
    index ∈ downNodes pool ↔ index < pool.nodes.length ∧ index ≠ pool.primaryIndex ∧
      healthyAt pool.nodes index = false := by
  rw [downNodes, Finset.mem_filter, Finset.mem_range]

theorem not_mem_upcoming_iff {index : ℕ} (inside : pool.primaryIndex < pool.nodes.length)
    (below : index < pool.nodes.length) :
    index ∉ upcoming pool.nodes pool.primaryIndex ↔ index ∈ downNodes pool := by
  rw [mem_upcoming inside, mem_downNodes, not_or, Bool.not_eq_true, and_comm]
  exact (and_iff_right below).symm

theorem card_downNodes (inside : pool.primaryIndex < pool.nodes.length) :
    pool.nodes.length - (upcoming pool.nodes pool.primaryIndex).card = (downNodes pool).card ∧
      (upcoming pool.nodes pool.primaryIndex).card ≤ pool.nodes.length := by
  have split : downNodes pool =
      Finset.range pool.nodes.length \ upcoming pool.nodes pool.primaryIndex := by
    ext index
    rw [Finset.mem_sdiff, Finset.mem_range]
    constructor
    · intro down
      have below := (mem_downNodes.mp down).1
      exact ⟨below, (not_mem_upcoming_iff inside below).mpr down⟩
    · exact fun outside => (not_mem_upcoming_iff inside outside.1).mp outside.2
  have part : upcoming pool.nodes pool.primaryIndex ⊆ Finset.range pool.nodes.length :=
    Finset.filter_subset _ _
  have card := Finset.card_sdiff_add_card_eq_card part
  rw [← split, Finset.card_range] at card
  omega

theorem mem_tried_of_thrown {LAG_THRESHOLD : ℕ} {answers : ℕ → ℕ → Answer α}
    (inside : pool.primaryIndex < pool.nodes.length)
    (thrown : (callWithFailover LAG_THRESHOLD answers pool).outcome = .thrown) (index : ℕ) :
    index ∈ (callWithFailover LAG_THRESHOLD answers pool).tried.map Prod.fst ↔
      index ∈ upcoming pool.nodes pool.primaryIndex ∨ index < (downNodes pool).card := by
  obtain ⟨count, few⟩ := card_downNodes inside
  rw [← count]
  exact mem_tried_iff inside few le_rfl thrown index

theorem reliable_of_downFirst (inside : pool.primaryIndex < pool.nodes.length)
    (first : DownFirst pool) (LAG_THRESHOLD : ℕ) (answers : ℕ → ℕ → Answer α) :
    Reliable LAG_THRESHOLD answers pool := by
  unfold Reliable
  simp only
  split
  · next value index returned => exact returned_spec returned
  · next thrown =>
      intro index below
      rw [mem_tried_of_thrown inside thrown]
      by_cases upcoming : index ∈ upcoming pool.nodes pool.primaryIndex
      · exact .inl upcoming
      · obtain ⟨count, exactly⟩ := first
        have down := (not_mem_upcoming_iff inside below).mp upcoming
        have early := (exactly index below).mp (mem_downNodes.mp down).2
        have before : Finset.range (index + 1) ⊆ downNodes pool := by
          intro other listed
          rw [Finset.mem_range] at listed
          have otherBelow : other < pool.nodes.length := by omega
          exact mem_downNodes.mpr ⟨otherBelow, (exactly other otherBelow).mpr (by omega)⟩
        have card := Finset.card_le_card before
        rw [Finset.card_range] at card
        exact .inr card

theorem downFirst_of_tried (inside : pool.primaryIndex < pool.nodes.length)
    (all : ∀ index < pool.nodes.length,
      index ∈ upcoming pool.nodes pool.primaryIndex ∨ index < (downNodes pool).card) :
    DownFirst pool := by
  have early : downNodes pool ⊆ Finset.range (downNodes pool).card := by
    intro index down
    have below := (mem_downNodes.mp down).1
    have outside := (not_mem_upcoming_iff inside below).mpr down
    exact Finset.mem_range.mpr ((all index below).resolve_left outside)
  have same := Finset.eq_of_subset_of_card_le early (Finset.card_range _).le
  refine ⟨(downNodes pool).card, fun index below => ?_⟩
  rw [← Finset.mem_range, ← same, mem_downNodes]
  exact (and_iff_right below).symm

/-- No pattern of failures and lags misleads a call exactly where the nodes that are down come
first. -/
theorem reliable_iff_downFirst (LAG_THRESHOLD : ℕ) {pool : Pool}
    (inside : pool.primaryIndex < pool.nodes.length) :
    (∀ answers : ℕ → ℕ → Answer α, Reliable LAG_THRESHOLD answers pool) ↔ DownFirst pool := by
  constructor
  · intro reliable
    have thrown : (callWithFailover LAG_THRESHOLD (fun _ _ => (.failed : Answer α)) pool).outcome =
        .thrown := thrown_of_failed ..
    have all := reliable fun _ _ => .failed
    unfold Reliable at all
    simp only [thrown] at all
    apply downFirst_of_tried inside
    intro index below
    exact (mem_tried_of_thrown inside thrown index).mp (all index below)
  · exact fun first answers => reliable_of_downFirst inside first LAG_THRESHOLD answers

def markedPool : Pool := ⟨[⟨true, 100⟩, ⟨false, 100⟩, ⟨true, 100⟩], 0⟩

theorem reliable_iff_markedPool :
    (∀ answers : ℕ → ℕ → Answer Unit, Reliable 3 answers markedPool) ↔ DownFirst markedPool :=
  reliable_iff_downFirst 3 (by decide)

/-- The first and the third node fail, and then the first again. -/
theorem marked_never_tried : ¬ Reliable 3 (fun _ _ => (.failed : Answer Unit)) markedPool := by
  intro reliable
  have tried := reliable 1 (by decide)
  revert tried
  decide

end Exact

end RpcFailover

end SorobanExplorer.Indexer
