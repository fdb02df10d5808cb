import SorobanExplorer.Collab.Server

/-!
Owns the persistence of shared documents: what a room applied reaches the row, unless a save
overwrites what it does not contain.

A room that closes leaves its save behind and may be opened again from the row before the save, and
saves of one session reach the row in any order.
-/

namespace SorobanExplorer.Collab

open Library

universe u

variable {Doc : Type u} [SemilatticeSup Doc] [OrderBot Doc]

def merge (docs : List Doc) : Doc := docs.foldr (· ⊔ ·) ⊥

namespace Server

def stored (server : Server Doc) : Doc := server.row.state.getD ⊥

def opened (server : Server Doc) : Doc := (server.room.map Room.doc).getD ⊥

def reach (server : Server Doc) : Doc := server.stored ⊔ (server.opened ⊔ merge server.saves)

def Persisted (server : Server Doc) : Prop :=
  server.room = none → server.saves = [] → ∀ update ∈ server.applied, update ≤ server.stored

/-- A save overwrites nothing, and a failing save loses nothing, that is in none of the places from
which it can still reach the row. -/
def Covered (server : Server Doc) : Action Doc → Prop
  | .save index => ∀ state, server.saves[index]? = some state →
      server.stored ≤ state ⊔ (server.opened ⊔ merge (server.saves.eraseIdx index))
  | .saveFailed index => ∀ state, server.saves[index]? = some state →
      state ≤ server.stored ⊔ (server.opened ⊔ merge (server.saves.eraseIdx index))
  | _ => True

end Server

/-! ### Merging -/

section Merge

variable {docs : List Doc} {doc : Doc}

theorem merge_append_singleton : merge (docs ++ [doc]) = merge docs ⊔ doc := by
  induction docs with
  | nil => exact sup_comm doc ⊥
  | cons first docs ih =>
    change first ⊔ merge (docs ++ [doc]) = first ⊔ merge docs ⊔ doc
    rw [ih, sup_assoc]

theorem merge_eraseIdx {index : ℕ} (found : docs[index]? = some doc) :
    merge docs = doc ⊔ merge (docs.eraseIdx index) := by
  induction docs generalizing index with
  | nil => nomatch found
  | cons first docs ih =>
    cases index with
    | zero =>
      cases found
      rfl
    | succ index =>
      change first ⊔ merge docs = doc ⊔ (first ⊔ merge (docs.eraseIdx index))
      rw [ih (by simpa using found), sup_left_comm]

end Merge

/-! ### One step -/

namespace Server

variable {config : Config Doc} {server before after : Server Doc} {room : Room Doc}
  {action : Action Doc}

theorem opened_eq (found : server.room = some room) : server.opened = room.doc := by
  unfold opened
  rw [found]
  rfl

theorem reach_le_of_le {next : Server Doc} (stored : next.row.state = server.row.state)
    (opened : server.opened ≤ next.opened) (saves : merge server.saves ≤ merge next.saves) :
    server.reach ≤ next.reach := by
  have same : server.stored = next.stored := by
    unfold Server.stored
    rw [stored]
  exact sup_le_sup same.le (sup_le_sup opened saves)

theorem reach_leave {index : ℕ} (found : server.room = some room) :
    server.reach ≤ (server.leave room index).reach := by
  unfold leave
  dsimp only
  split
  · unfold reach
    rw [opened_eq found, merge_append_singleton]
    refine sup_le_sup le_rfl (le_trans ?_ le_sup_right)
    rw [sup_comm]
  · exact reach_le_of_le rfl (opened_eq found).le le_rfl

theorem reach_save {index : ℕ} {state : Doc} (sent : server.saves[index]? = some state)
    (covered : server.Covered (.save index)) :
    server.reach ≤ state ⊔ (server.opened ⊔ merge (server.saves.eraseIdx index)) := by
  unfold reach
  rw [merge_eraseIdx sent]
  refine sup_le (covered state sent) ?_
  rw [sup_left_comm]

theorem reach_saveFailed {index : ℕ} {state : Doc} (sent : server.saves[index]? = some state)
    (covered : server.Covered (.saveFailed index)) :
    server.reach ≤ server.stored ⊔ (server.opened ⊔ merge (server.saves.eraseIdx index)) := by
  unfold reach
  rw [merge_eraseIdx sent, sup_left_comm server.opened]
  exact sup_le le_sup_left (sup_le (covered state sent) le_sup_right)

theorem reach_le_of_step (covered : before.Covered action)
    (taken : Step config before action after) : before.reach ≤ after.reach := by
  cases taken with
  | join token found =>
    exact reach_le_of_le rfl ((opened_eq found).trans doc_addConn.symm).le le_rfl
  | load | read => exact le_rfl
  | @loaded index token row =>
    refine reach_le_of_le rfl ?_ le_rfl
    cases found : before.room with
    | none =>
      unfold opened
      rw [found]
      exact bot_le
    | some room =>
      have same : (before.install config index token row).opened = room.doc := by
        unfold install opened
        rw [found]
        exact doc_addConn
      exact ((opened_eq found).trans same.symm).le
  | update found => exact reach_le_of_le rfl ((opened_eq found).le.trans le_sup_left) le_rfl
  | refused found => exact reach_le_of_le rfl (opened_eq found).le le_rfl
  | leave found => exact reach_leave found
  | timeout found =>
    refine reach_le_of_le rfl (opened_eq found).le ?_
    change _ ≤ merge (before.saves ++ [_])
    rw [merge_append_singleton]
    exact le_sup_left
  | save sent => exact reach_save sent covered
  | saveFailed sent => exact reach_saveFailed (List.getElem?_eq_getElem sent) covered
  | rotate => exact reach_le_of_le (state_setTokenHash ..) le_rfl le_rfl
  | rotated | kickParticipants =>
    refine reach_le_of_le rfl ?_ le_rfl
    change _ ≤ ((before.room.map _).map Room.doc).getD ⊥
    rw [Option.map_map]
    exact le_rfl

def Reached (server : Server Doc) : Prop := ∀ update ∈ server.applied, update ≤ server.reach

theorem Reached.persisted (reached : server.Reached) : server.Persisted := by
  intro closed saved update listed
  have within := reached update listed
  unfold reach opened at within
  rw [closed, saved] at within
  simpa [merge] using within

theorem Reached.step (reached : before.Reached) (covered : before.Covered action)
    (taken : Step config before action after) : after.Reached := by
  have grows := reach_le_of_step covered taken
  cases taken with
  | update =>
    intro update listed
    obtain rfl | earlier := List.mem_cons.mp listed
    · exact le_sup_right.trans (le_sup_left.trans le_sup_right)
    · exact (reached update earlier).trans grows
  | leave =>
    intro update listed
    unfold leave at listed
    dsimp only at listed
    split at listed
    · exact (reached update listed).trans grows
    · exact (reached update listed).trans grows
  | join | load | read | loaded | refused | timeout | save | saveFailed | rotate | rotated
  | kickParticipants => exact fun update listed => (reached update listed).trans grows

end Server

/-! ### Whole runs -/

def savedRoom : List (Action (Finset ℕ)) :=
  [.upgrade (some "edit"), .read 0, .loaded 0, .update 0 {1}, .leave 0, .save 0]

def reopened : List (Action (Finset ℕ)) :=
  [.upgrade (some "edit"), .read 0, .loaded 0, .update 0 {1}, .leave 0,
    .upgrade (some "edit"), .read 0, .loaded 0, .save 0, .update 0 {2}, .leave 0, .save 0]

end SorobanExplorer.Collab
