import Mathlib.Data.List.Induction
import SorobanExplorer.Library.Numeral
import SorobanExplorer.Library.Table

/-!
Owns the token holders: `applyMint`, `applyTransfer` and `applyBurn` on the table of
balances. A balance is a text; the text of an address that is new is the amount itself,
whether the address receives it or sends it.

Amounts are integers, and `NUMERIC` is unbounded.
-/

namespace SorobanExplorer.Indexer

open Library

namespace TokenHolders

/-! ### Amounts -/

def integerText (value : ℤ) : List Char := (Numeral.ofInt value).text

/-- An integer as `NUMERIC` reads it. -/
def readInteger? (text : List Char) : Option ℤ :=
  (Numeral.recognize text).bind fun numeral =>
    if numeral.integral then some numeral.integer else none

@[simp] theorem readInteger?_integerText (value : ℤ) :
    readInteger? (integerText value) = some value := by
  simp [readInteger?, integerText]

/-- `COALESCE(NULLIF(balance_raw, ''), '0')::NUMERIC` -/
def balance? (balanceRaw : List Char) : Option ℤ :=
  readInteger? (if balanceRaw = [] then ['0'] else balanceRaw)

theorem balance?_integerText (value : ℤ) : balance? (integerText value) = some value := by
  have written : integerText value ≠ [] := by
    intro empty
    have reads := readInteger?_integerText value
    rw [empty] at reads
    cases reads
  rw [balance?, if_neg written, readInteger?_integerText]

/-! ### The table -/

structure HolderKey where
  contractId : String
  address : String
deriving DecidableEq, Repr

/-- `token_holders`: the `balance_raw` of an address of a contract. -/
abbrev Holders := Table HolderKey (List Char)

def upsert (change : ℤ → ℤ → ℤ) (key : HolderKey) (amount : ℤ) (holders : Holders) :
    Option Holders :=
  match holders.lookup key with
  | none => some (holders.insert key (integerText amount))
  | some balanceRaw =>
    (balance? balanceRaw).map fun balance =>
      holders.insert key (integerText (change balance amount))

def applyTransfer (contractId sender recipient : String) (amount : ℤ) (holders : Holders) :
    Option Holders :=
  (upsert (· - ·) ⟨contractId, sender⟩ amount holders).bind
    (upsert (· + ·) ⟨contractId, recipient⟩ amount)

def applyMint (contractId recipient : String) (amount : ℤ) (holders : Holders) : Option Holders :=
  upsert (· + ·) ⟨contractId, recipient⟩ amount holders

def applyBurn (contractId sender : String) (amount : ℤ) (holders : Holders) : Option Holders :=
  upsert (· - ·) ⟨contractId, sender⟩ amount holders

inductive Call where
  | mint (contractId recipient : String) (amount : ℤ)
  | transfer (contractId sender recipient : String) (amount : ℤ)
  | burn (contractId sender : String) (amount : ℤ)
deriving DecidableEq, Repr

def Call.apply : Call → Holders → Option Holders
  | mint contractId recipient amount => applyMint contractId recipient amount
  | transfer contractId sender recipient amount => applyTransfer contractId sender recipient amount
  | burn contractId sender amount => applyBurn contractId sender amount

/-- The table after calls on a table without rows; `none` where one of them fails. -/
def applyCalls (calls : List Call) : Option Holders :=
  calls.foldlM (fun holders call => call.apply holders) ∅

/-! ### What the calls say -/

def Call.received (key : HolderKey) : Call → ℤ
  | mint contractId recipient amount => if key = ⟨contractId, recipient⟩ then amount else 0
  | transfer contractId _ recipient amount => if key = ⟨contractId, recipient⟩ then amount else 0
  | burn _ _ _ => 0

def Call.sent (key : HolderKey) : Call → ℤ
  | mint _ _ _ => 0
  | transfer contractId sender _ amount => if key = ⟨contractId, sender⟩ then amount else 0
  | burn contractId sender amount => if key = ⟨contractId, sender⟩ then amount else 0

def Call.minted (contract : String) : Call → ℤ
  | mint contractId _ amount => if contract = contractId then amount else 0
  | transfer _ _ _ _ | burn _ _ _ => 0

def Call.burned (contract : String) : Call → ℤ
  | burn contractId _ amount => if contract = contractId then amount else 0
  | transfer _ _ _ _ | mint _ _ _ => 0

def sumOver (measure : Call → ℤ) (calls : List Call) : ℤ := (calls.map measure).sum

def Holders.balance (holders : Holders) (key : HolderKey) : Option ℤ :=
  match holders.lookup key with
  | none => some 0
  | some balanceRaw => balance? balanceRaw

def Holders.supply (holders : Holders) (contract : String) : ℤ :=
  holders.total fun key balanceRaw =>
    if key.contractId = contract then (balance? balanceRaw).getD 0 else 0

/-- The balances are what the calls moved, and they add up to what they minted and did
not burn. -/
structure Balanced (calls : List Call) (holders : Holders) : Prop where
  balances : ∀ key, holders.balance key =
    some (sumOver (Call.received key) calls - sumOver (Call.sent key) calls)
  supply : ∀ contract, holders.supply contract =
    sumOver (Call.minted contract) calls - sumOver (Call.burned contract) calls

/-! ### Movements -/

structure Movement where
  key : HolderKey
  credit : Bool
  amount : ℤ
deriving DecidableEq, Repr

def Movement.signed (movement : Movement) : ℤ :=
  if movement.credit then movement.amount else -movement.amount

def Movement.apply (movement : Movement) (holders : Holders) : Option Holders :=
  upsert (if movement.credit then (· + ·) else (· - ·)) movement.key movement.amount holders

def Call.movements : Call → List Movement
  | mint contractId recipient amount => [⟨⟨contractId, recipient⟩, true, amount⟩]
  | transfer contractId sender recipient amount =>
    [⟨⟨contractId, sender⟩, false, amount⟩, ⟨⟨contractId, recipient⟩, true, amount⟩]
  | burn contractId sender amount => [⟨⟨contractId, sender⟩, false, amount⟩]

def movements (calls : List Call) : List Movement := calls.flatMap Call.movements

def applyMovements (moves : List Movement) (holders : Holders) : Option Holders :=
  moves.foldlM (fun holders movement => movement.apply holders) holders

theorem applyMovements_cons (movement : Movement) (moves : List Movement) (holders : Holders) :
    applyMovements (movement :: moves) holders =
      (movement.apply holders).bind (applyMovements moves) := rfl

theorem applyMovements_append (left right : List Movement) (holders : Holders) :
    applyMovements (left ++ right) holders =
      (applyMovements left holders).bind (applyMovements right) :=
  List.foldlM_append

theorem Call.apply_eq (call : Call) (holders : Holders) :
    call.apply holders = applyMovements call.movements holders := by
  cases call with
  | mint contractId recipient amount | burn contractId sender amount =>
    exact (Option.bind_fun_some _).symm
  | transfer contractId sender recipient amount =>
    rw [Call.movements, applyMovements_cons]
    apply congrArg (Option.bind (upsert (· - ·) ⟨contractId, sender⟩ amount holders))
    funext middle
    exact (Option.bind_fun_some _).symm

theorem applyCalls_eq (calls : List Call) :
    applyCalls calls = applyMovements (movements calls) ∅ := by
  unfold applyCalls
  generalize (∅ : Holders) = start
  induction calls generalizing start with
  | nil => rfl
  | cons call calls ih =>
    rw [List.foldlM_cons, movements, List.flatMap_cons, applyMovements_append, Call.apply_eq]
    apply congrArg (Option.bind (applyMovements call.movements start))
    funext middle
    exact ih middle

/-! ### Balances after movements -/

def Movement.settle (movement : Movement) (key : HolderKey) (balance : Option ℤ) : Option ℤ :=
  if key = movement.key then some (balance.elim movement.amount (· + movement.signed))
  else balance

def settled (key : HolderKey) (moves : List Movement) : Option ℤ :=
  moves.foldl (fun balance movement => movement.settle key balance) none

theorem settled_snoc (key : HolderKey) (moves : List Movement) (movement : Movement) :
    settled key (moves ++ [movement]) = movement.settle key (settled key moves) := by
  rw [settled, List.foldl_append]
  rfl

theorem lookup_apply {holders : Holders} {balances : HolderKey → Option ℤ}
    (shown : ∀ key, holders.lookup key = (balances key).map integerText) (movement : Movement) :
    movement.apply holders = some (holders.insert movement.key
      (integerText ((balances movement.key).elim movement.amount (· + movement.signed)))) := by
  rw [Movement.apply, upsert, shown]
  cases known : balances movement.key with
  | none => rfl
  | some balance =>
    rw [Option.map_some]
    dsimp only
    rw [balance?_integerText, Option.map_some, Option.elim_some, Movement.signed]
    cases movement.credit with
    | true => rfl
    | false =>
      simp only [Bool.false_eq_true, if_false]
      rw [sub_eq_add_neg]

theorem applyMovements_settled (moves : List Movement) :
    ∃ holders, applyMovements moves ∅ = some holders ∧
      ∀ key, holders.lookup key = (settled key moves).map integerText := by
  induction moves using List.reverseRecOn with
  | nil => exact ⟨∅, rfl, fun key => AList.lookup_empty key⟩
  | append_singleton moves movement ih =>
    obtain ⟨holders, applied, shown⟩ := ih
    refine ⟨holders.insert movement.key (integerText
      ((settled movement.key moves).elim movement.amount (· + movement.signed))), ?_, ?_⟩
    · rw [applyMovements_append, applied, Option.bind_some, applyMovements_cons,
        lookup_apply shown, Option.bind_some]
      rfl
    · intro key
      rw [Table.lookup_insert_eq, settled_snoc, Movement.settle]
      by_cases same : key = movement.key
      · rw [if_pos same, if_pos same, Option.map_some, same]
      · rw [if_neg same, if_neg same, shown]

def net (key : HolderKey) (moves : List Movement) : ℤ :=
  (moves.map fun movement => if key = movement.key then movement.signed else 0).sum

def firstMove (key : HolderKey) (moves : List Movement) : Option Movement :=
  moves.find? fun movement => key = movement.key

theorem settled_eq_none {key : HolderKey} {moves : List Movement} :
    settled key moves = none ↔ firstMove key moves = none := by
  induction moves using List.reverseRecOn with
  | nil => simp [settled, firstMove]
  | append_singleton moves movement ih =>
    rw [settled_snoc, Movement.settle, firstMove, List.find?_append, Option.or_eq_none_iff]
    by_cases same : key = movement.key
    · simp [same]
    · rw [firstMove] at ih
      simpa [same] using ih

theorem settled_value (key : HolderKey) (moves : List Movement) :
    (settled key moves).getD 0 = net key moves +
      (firstMove key moves).elim 0 fun first => first.amount - first.signed := by
  induction moves using List.reverseRecOn with
  | nil => rfl
  | append_singleton moves movement ih =>
    rw [settled_snoc, Movement.settle, net, List.map_append, List.sum_append, firstMove,
      List.find?_append]
    by_cases same : key = movement.key
    · cases known : settled key moves with
      | none =>
        have first := settled_eq_none.mp known
        rw [known, first] at ih
        rw [firstMove] at first
        simp only [same, net] at ih first
        simp only [same, first, decide_true, List.find?_cons_of_pos, Option.none_or, if_true,
          List.map_cons, List.map_nil, List.sum_cons, List.sum_nil, Option.elim_some,
          Option.elim_none, Option.getD_some, Option.getD_none] at ih ⊢
        omega
      | some balance =>
        have first : firstMove key moves ≠ none := fun absent => by
          rw [settled_eq_none.mpr absent] at known
          cases known
        obtain ⟨start, found⟩ := Option.ne_none_iff_exists'.mp first
        rw [known, found] at ih
        rw [firstMove] at found
        simp only [same, net] at ih found
        simp only [same, found, Option.some_or, if_true, List.map_cons, List.map_nil,
          List.sum_cons, List.sum_nil, Option.elim_some, Option.getD_some]
          at ih ⊢
        omega
    · have last : List.find? (fun movement => decide (key = movement.key)) [movement] = none := by
        simp [same]
      rw [last, Option.or_none, if_neg same]
      rw [net, firstMove] at ih
      simpa [same] using ih

/-! ### Balance and supply -/

def ArrivesFirst (moves : List Movement) : Prop :=
  ∀ key, ∀ first ∈ firstMove key moves, first.credit = true ∨ first.amount = 0

theorem signed_eq_amount {movement : Movement} :
    movement.amount - movement.signed = 0 ↔ movement.credit = true ∨ movement.amount = 0 := by
  rw [Movement.signed]
  cases movement.credit with
  | true => simp
  | false =>
    simp only [Bool.false_eq_true, if_false, false_or]
    omega

theorem ArrivesFirst.of_append {left right : List Movement} (arrives : ArrivesFirst (left ++ right)) :
    ArrivesFirst left := by
  intro key first found
  apply arrives key first
  rw [firstMove, List.find?_append, ← firstMove, found]
  rfl

theorem settled_of_arrivesFirst {moves : List Movement} (arrives : ArrivesFirst moves)
    (key : HolderKey) : (settled key moves).getD 0 = net key moves := by
  rw [settled_value]
  cases found : firstMove key moves with
  | none => exact add_zero _
  | some first => rw [Option.elim_some, signed_eq_amount.mpr (arrives key first found), add_zero]

theorem balance_eq {holders : Holders} {moves : List Movement}
    (shown : ∀ key, holders.lookup key = (settled key moves).map integerText) (key : HolderKey) :
    holders.balance key = some ((settled key moves).getD 0) := by
  rw [Holders.balance, shown]
  cases settled key moves with
  | none => rfl
  | some balance => exact balance?_integerText balance

def flow (contract : String) (moves : List Movement) : ℤ :=
  (moves.map fun movement =>
    if contract = movement.key.contractId then movement.signed else 0).sum

theorem flow_snoc (contract : String) (moves : List Movement) (movement : Movement) :
    flow contract (moves ++ [movement]) = flow contract moves +
      if contract = movement.key.contractId then movement.signed else 0 := by
  simp [flow]

theorem supply_insert (holders : Holders) (contract : String) {movement : Movement}
    {old : Option ℤ} (known : holders.lookup movement.key = old.map integerText)
    (fair : old = none → movement.amount = movement.signed) :
    Holders.supply (holders.insert movement.key
        (integerText (old.elim movement.amount (· + movement.signed)))) contract =
      holders.supply contract +
        if contract = movement.key.contractId then movement.signed else 0 := by
  rw [Holders.supply, Table.total_insert, known, Holders.supply]
  rw [balance?_integerText, Option.getD_some]
  by_cases same : contract = movement.key.contractId
  · rw [if_pos same.symm, if_pos same]
    cases old with
    | none =>
      rw [Option.map_none, Option.elim_none, Option.elim_none, fair rfl]
      ring
    | some balance =>
      rw [Option.map_some, Option.elim_some, Option.elim_some, balance?_integerText,
        if_pos same.symm, Option.getD_some]
      ring
  · rw [if_neg (Ne.symm same), if_neg same]
    cases old with
    | none => simp
    | some balance =>
      rw [Option.map_some, Option.elim_some, if_neg (Ne.symm same)]
      ring

theorem supply_eq_flow {moves : List Movement} (arrives : ArrivesFirst moves) {holders : Holders}
    (applied : applyMovements moves ∅ = some holders) (contract : String) :
    holders.supply contract = flow contract moves := by
  induction moves using List.reverseRecOn generalizing holders with
  | nil =>
    cases applied
    rfl
  | append_singleton moves movement ih =>
    obtain ⟨before, earlier, shown⟩ := applyMovements_settled moves
    have fair : settled movement.key moves = none → movement.amount = movement.signed := by
      intro absent
      have noFirst := settled_eq_none.mp absent
      have first : firstMove movement.key (moves ++ [movement]) = some movement := by
        rw [firstMove, List.find?_append, ← firstMove, noFirst]
        simp
      exact sub_eq_zero.mp (signed_eq_amount.mpr (arrives movement.key movement first))
    rw [applyMovements_append, earlier, Option.bind_some, applyMovements_cons,
      lookup_apply shown, Option.bind_some] at applied
    cases applied
    rw [supply_insert before contract (shown movement.key) fair,
      ih arrives.of_append earlier, flow_snoc]

/-! ### Calls -/

theorem sumOver_sub (left right : Call → ℤ) (calls : List Call) :
    sumOver left calls - sumOver right calls =
      (calls.map fun call => left call - right call).sum := by
  induction calls with
  | nil => rfl
  | cons call calls ih =>
    simp only [sumOver, List.map_cons, List.sum_cons] at ih ⊢
    rw [← ih]
    ring

theorem sum_movements (measure : Movement → ℤ) (calls : List Call) :
    ((movements calls).map measure).sum =
      (calls.map fun call => (call.movements.map measure).sum).sum := by
  induction calls with
  | nil => rfl
  | cons call calls ih =>
    rw [movements, List.flatMap_cons, List.map_append, List.sum_append, List.map_cons,
      List.sum_cons]
    exact congrArg (_ + ·) ih

theorem net_movements (key : HolderKey) (calls : List Call) : net key (movements calls) =
    sumOver (Call.received key) calls - sumOver (Call.sent key) calls := by
  rw [net, sum_movements, sumOver_sub]
  congr 2
  funext call
  cases call with
  | mint contractId recipient amount =>
    simp [Call.movements, Call.received, Call.sent, Movement.signed]
  | transfer contractId sender recipient amount =>
    simp only [Call.movements, Call.received, Call.sent, Movement.signed, List.map_cons,
      List.map_nil, List.sum_cons, List.sum_nil, if_true, Bool.false_eq_true, if_false]
    split_ifs <;> ring
  | burn contractId sender amount =>
    simp only [Call.movements, Call.received, Call.sent, Movement.signed, List.map_cons,
      List.map_nil, List.sum_cons, List.sum_nil, Bool.false_eq_true, if_false]
    split_ifs <;> ring

theorem flow_movements (contract : String) (calls : List Call) : flow contract (movements calls) =
    sumOver (Call.minted contract) calls - sumOver (Call.burned contract) calls := by
  rw [flow, sum_movements, sumOver_sub]
  congr 2
  funext call
  cases call with
  | mint contractId recipient amount =>
    simp [Call.movements, Call.minted, Call.burned, Movement.signed]
  | transfer contractId sender recipient amount =>
    simp only [Call.movements, Call.minted, Call.burned, Movement.signed, List.map_cons,
      List.map_nil, List.sum_cons, List.sum_nil, if_true, Bool.false_eq_true, if_false]
    split_ifs <;> ring
  | burn contractId sender amount =>
    simp only [Call.movements, Call.minted, Call.burned, Movement.signed, List.map_cons,
      List.map_nil, List.sum_cons, List.sum_nil, Bool.false_eq_true, if_false]
    split_ifs <;> ring

theorem applyCalls_settled (calls : List Call) :
    ∃ holders, applyCalls calls = some holders ∧
      ∀ key, holders.lookup key = (settled key (movements calls)).map integerText := by
  rw [applyCalls_eq]
  exact applyMovements_settled (movements calls)

/-- Balances and supply are exact if and only if every address is first a recipient. -/
theorem balanced_iff_arrivesFirst (calls : List Call) :
    (∃ holders, applyCalls calls = some holders ∧ Balanced calls holders) ↔
      ArrivesFirst (movements calls) := by
  constructor
  · rintro ⟨holders, applied, balanced⟩ key first found
    obtain ⟨same, appliedSame, shown⟩ := applyCalls_settled calls
    rw [applied] at appliedSame
    cases appliedSame
    have exact := balanced.balances key
    rw [balance_eq shown, settled_value, found, net_movements, Option.elim_some,
      Option.some_inj] at exact
    exact signed_eq_amount.mp (left_eq_add.mp exact.symm)
  · intro arrives
    obtain ⟨holders, applied, shown⟩ := applyCalls_settled calls
    refine ⟨holders, applied, ?_, ?_⟩
    · intro key
      rw [balance_eq shown, settled_of_arrivesFirst arrives, net_movements]
    · intro contract
      rw [applyCalls_eq] at applied
      rw [supply_eq_flow arrives applied, flow_movements]

/-- A transfer from an address that the table does not know credits the sender. -/
theorem unknownSender_credited :
    ¬ ∃ holders, applyCalls [.transfer "C" "A" "B" 5] = some holders ∧
      Balanced [.transfer "C" "A" "B" 5] holders := by
  rintro ⟨holders, applied, balanced⟩
  obtain ⟨same, appliedSame, shown⟩ := applyCalls_settled [.transfer "C" "A" "B" 5]
  rw [applied] at appliedSame
  cases appliedSame
  have exact := balanced.balances ⟨"C", "A"⟩
  rw [balance_eq shown] at exact
  revert exact
  decide

end TokenHolders

end SorobanExplorer.Indexer
