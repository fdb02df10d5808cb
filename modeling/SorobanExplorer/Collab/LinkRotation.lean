import SorobanExplorer.Collab.Server

/-!
Owns the rotation of link tokens: once a rotation has resolved, the hash that it replaced opens no
connection, and the connections that it had opened are told to close.

A load that was answered before the rotation opens a room with the old hashes after it, and of two
rotations of a role the one that resolves last decides in the room, whichever the database executed
last.
-/

namespace SorobanExplorer.Collab

open Library

universe u

variable {Doc : Type u}

def Row.Current (retired : List (Role × Hash)) (row : Row Doc) : Prop :=
  ∀ role, (role, row.tokenHash role) ∉ retired

/-- Every connection that was admitted with a replaced hash has been told to close. One that is
admitted later has not, so this also says that none is. -/
def Room.Revoked (retired : List (Role × Hash)) (room : Room Doc) : Prop :=
  ∀ conn ∈ room.conns, ∀ hash, conn.token = some hash → (conn.role, hash) ∈ retired →
    conn.closing = true

namespace Server

def Revoked (server : Server Doc) : Prop :=
  ∀ room, server.room = some room → room.Revoked server.retired

def Timely (server : Server Doc) : Action Doc → Prop
  | .loaded index => server.room = none → ∀ token row,
      server.loads[index]? = some ⟨token, some row⟩ → row.Current server.retired
  | .rotated index => server.room ≠ none → ∀ rotation,
      server.rotations[index]? = some rotation → (rotation.role, rotation.hash) ∉ server.retired
  | _ => True

/-- `rotations`: a rotation that has not resolved replaced another hash of an edit or view link. -/
structure Rotated (server : Server Doc) : Prop where
  issued : ∀ role, server.row.tokenHash role ∈ server.issued
  rotations : ∀ rotation ∈ server.rotations,
    rotation.role ≠ .owner ∧ rotation.hash ≠ rotation.old
  row : ∀ room, server.room = some room → room.row.Current server.retired
  conns : server.Revoked

end Server

/-! ### Rows and rooms -/

section Room

variable {config : Config Doc} {retired : List (Role × Hash)} {row : Row Doc} {room : Room Doc}
  {role : Role} {token : Option Hash} {hash : Hash}

theorem tokenHash_of_roleFor (found : roleFor row token = some role) :
    token = some (row.tokenHash role) := by
  unfold roleFor at found
  split at found
  · nomatch found
  · split at found
    · next same =>
        cases found
        exact congrArg some same
    · split at found
      · next same =>
          cases found
          exact congrArg some same
      · split at found
        · next same =>
            cases found
            exact congrArg some same
        · nomatch found

theorem tokenHash_setTokenHash (link : role ≠ .owner) (other : Role) :
    (row.setTokenHash role hash).tokenHash other =
      if other = role then hash else row.tokenHash other := by
  cases role with
  | owner => exact absurd rfl link
  | edit | view =>
    cases other with
    | owner | edit | view => rfl

theorem Room.Revoked.addConn (revoked : room.Revoked retired) (current : room.row.Current retired) :
    (room.addConn config token).Revoked retired := by
  unfold Room.addConn
  split
  · exact revoked
  · next role found =>
      split
      · exact revoked
      · intro conn listed hash presented replaced
        obtain earlier | new := List.mem_append.mp listed
        · exact revoked conn earlier hash presented replaced
        · cases List.mem_singleton.mp new
          cases (tokenHash_of_roleFor found).symm.trans presented
          exact absurd replaced (current role)

theorem Room.Revoked.kick (revoked : room.Revoked retired) (kicked : Option Role) :
    (room.kick kicked).Revoked retired := by
  intro conn listed hash presented replaced
  obtain ⟨earlier, member, rfl⟩ := List.mem_map.mp listed
  split
  · rfl
  · next stays =>
      rw [if_neg stays] at presented replaced
      exact revoked earlier member hash presented replaced

theorem Room.Revoked.rotate (revoked : room.Revoked retired) (link : role ≠ .owner) (old : Hash) :
    (room.rotate role hash).Revoked ((role, old) :: retired) := by
  intro conn listed presentedHash presented replaced
  obtain ⟨earlier, member, rfl⟩ := List.mem_map.mp listed
  split
  · rfl
  · next stays =>
      rw [if_neg stays] at presented replaced
      obtain same | before := List.mem_cons.mp replaced
      · cases same
        exact absurd ⟨link, .inr rfl⟩ stays
      · exact revoked earlier member presentedHash presented before

theorem Room.Revoked.of_subset {fewer : Room Doc} (revoked : room.Revoked retired)
    (subset : fewer.conns ⊆ room.conns) : fewer.Revoked retired :=
  fun conn listed => revoked conn (subset listed)

theorem Room.Revoked.close {index : ℕ} {conn : Conn} (revoked : room.Revoked retired) :
    (room.close index conn).Revoked retired := by
  intro other listed hash presented replaced
  obtain member | rfl := List.mem_or_eq_of_mem_set listed
  · exact revoked other member hash presented replaced
  · rfl

theorem Row.Current.rotate {old : Hash} (current : row.Current retired) (link : role ≠ .owner)
    (timely : (role, hash) ∉ retired) (distinct : hash ≠ old) :
    (row.setTokenHash role hash).Current ((role, old) :: retired) := by
  intro other replaced
  rw [tokenHash_setTokenHash link] at replaced
  obtain same | before := List.mem_cons.mp replaced
  · split at same
    · cases same
      exact distinct rfl
    · next apart => exact apart (congrArg Prod.fst same)
  · split at before
    · next same =>
        cases same
        exact timely before
    · exact current other before

end Room

/-! ### One step -/

namespace Server.Rotated

variable {config : Config Doc} {server before after : Server Doc} {room : Room Doc}

theorem start (row : Row Doc) : (Server.start row).Rotated where
  issued role := by
    cases role with
    | owner => exact .head _
    | edit => exact .tail _ (.head _)
    | view => exact .tail _ (.tail _ (.head _))
  rotations := nofun
  row := nofun
  conns := nofun

theorem enter (kept : server.Rotated) (next : Server Doc) (opened : next.room = some room)
    (row : next.row.tokenHash = server.row.tokenHash) (issued : next.issued = server.issued)
    (rotations : next.rotations = server.rotations) (retired : next.retired = server.retired)
    (current : room.row.Current server.retired) (revoked : room.Revoked server.retired) :
    next.Rotated where
  issued role := by
    rw [row, issued]
    exact kept.issued role
  rotations := rotations ▸ kept.rotations
  row other same := by
    cases opened.symm.trans same
    exact retired ▸ current
  conns other same := by
    cases opened.symm.trans same
    exact retired ▸ revoked

theorem step [SemilatticeSup Doc] [OrderBot Doc] {action : Action Doc} (kept : before.Rotated)
    (timely : before.Timely action) (taken : Step config before action after) : after.Rotated := by
  cases taken with
  | join token opened =>
    refine kept.enter _ rfl rfl rfl rfl rfl ?_ ((kept.conns _ opened).addConn (kept.row _ opened))
    rw [row_addConn]
    exact kept.row _ opened
  | load | read | saveFailed => exact ⟨kept.issued, kept.rotations, kept.row, kept.conns⟩
  | @loaded _ token row answered =>
    have current : (before.room.getD (.new row)).row.Current before.retired := by
      cases present : before.room with
      | none => exact timely present _ _ answered
      | some room => exact kept.row room present
    have revoked : (before.room.getD (.new row)).Revoked before.retired := by
      cases present : before.room with
      | none => exact nofun
      | some room => exact kept.conns room present
    refine kept.enter _ rfl rfl rfl rfl rfl ?_ (revoked.addConn current)
    rw [row_addConn]
    exact current
  | update opened | timeout opened =>
    have current := kept.row _ opened
    exact kept.enter _ rfl rfl rfl rfl rfl current
      ((kept.conns _ opened).of_subset fun _ => id)
  | refused opened =>
    have current := kept.row _ opened
    exact kept.enter _ rfl rfl rfl rfl rfl current (kept.conns _ opened).close
  | leave opened =>
    unfold Server.leave
    dsimp only
    split
    · exact ⟨kept.issued, kept.rotations, nofun, nofun⟩
    · have current := kept.row _ opened
      exact kept.enter _ rfl rfl rfl rfl rfl current
        ((kept.conns _ opened).of_subset (List.eraseIdx_sublist _ _).subset)
  | save sent => exact ⟨fun role => kept.issued role, kept.rotations, kept.row, kept.conns⟩
  | @rotate role hash link fresh =>
    refine ⟨fun other => ?_, fun rotation listed => ?_, kept.row, kept.conns⟩
    · change (before.row.setTokenHash role hash).tokenHash other ∈ hash :: before.issued
      rw [tokenHash_setTokenHash link]
      split
      · exact .head _
      · exact .tail _ (kept.issued other)
    · obtain earlier | new := List.mem_append.mp listed
      · exact kept.rotations rotation earlier
      · cases List.mem_singleton.mp new
        exact ⟨link, fun (same : hash = _) => fresh (same ▸ kept.issued role)⟩
  | @rotated index rotation executed =>
    obtain ⟨link, distinct⟩ := kept.rotations rotation (List.mem_of_getElem? executed)
    refine ⟨kept.issued,
      fun other listed => kept.rotations other ((List.eraseIdx_sublist _ _).subset listed),
      fun room same => ?_, fun room same => ?_⟩
    · obtain ⟨earlier, opened, rfl⟩ := Option.map_eq_some_iff.mp same
      have unreplaced := timely (opened ▸ Option.some_ne_none _) rotation executed
      exact (kept.row earlier opened).rotate link unreplaced distinct
    · obtain ⟨earlier, opened, rfl⟩ := Option.map_eq_some_iff.mp same
      exact (kept.conns earlier opened).rotate link rotation.old
  | kickParticipants =>
    refine ⟨kept.issued, kept.rotations, fun room same => ?_, fun room same => ?_⟩
    · obtain ⟨earlier, opened, rfl⟩ := Option.map_eq_some_iff.mp same
      exact kept.row earlier opened
    · obtain ⟨earlier, opened, rfl⟩ := Option.map_eq_some_iff.mp same
      exact (kept.conns earlier opened).kick none

end Server.Rotated

/-! ### Whole runs -/

/-- Replaced hashes open nothing in every run in which no load opens a room with one and no
rotation that resolves late brings one back. -/
theorem revoked_of_eachStep [SemilatticeSup Doc] [OrderBot Doc] (config : Config Doc)
    (row : Row Doc) {actions : List (Action Doc)}
    (each : EachStep (Step config) (.start row) actions Server.Timely) :
    Along (Step config) (.start row) actions fun _ server => server.Revoked := by
  have along : Along (Step config) (.start row) actions fun _ server => server.Rotated :=
    each.along (Server.Rotated.start row)
      fun _ _ _ _ _ kept timely taken => kept.step timely taken
  exact fun history isPrefix server run => (along history isPrefix server run).conns

def kickedOut : List (Action (Finset ℕ)) :=
  [.upgrade (some "edit"), .read 0, .loaded 0, .rotate .edit "edit2", .rotated 0,
    .upgrade (some "edit2")]

def readBefore : List (Action (Finset ℕ)) :=
  [.upgrade (some "edit"), .read 0, .rotate .edit "edit2", .rotated 0, .loaded 0]

theorem kickedOut_revoked : ∃ final, Run (Step sessionConfig) (.start newSession) kickedOut final ∧
    Along (Step sessionConfig) (.start newSession) kickedOut fun _ server => server.Revoked := by
  have asked := EachStep.extend (deterministic sessionConfig) ⟨Run.nil, EachStep.nil⟩
    (show Server.Timely (.start newSession) (.upgrade (some "edit")) from trivial) (.load _ rfl)
  have read := EachStep.extend (deterministic _) asked
    (show Server.Timely _ (.read 0) from trivial) (.read rfl)
  have loaded := EachStep.extend (deterministic _) read
    (show Server.Timely _ (.loaded 0) from fun _ _ _ _ _ => List.not_mem_nil) (.loaded rfl)
  have executed := EachStep.extend (deterministic _) loaded
    (show Server.Timely _ (.rotate .edit "edit2") from trivial) (.rotate (by decide) (by decide))
  have rotated := EachStep.extend (deterministic _) executed
    (show Server.Timely _ (.rotated 0) from fun _ _ _ => List.not_mem_nil) (.rotated rfl)
  have joined := EachStep.extend (deterministic _) rotated
    (show Server.Timely _ (.upgrade (some "edit2")) from trivial) (.join _ rfl)
  exact ⟨_, joined.1, revoked_of_eachStep _ _ joined.2⟩

theorem readBefore_unrevoked : ∃ final,
    Run (Step sessionConfig) (.start newSession) readBefore final ∧ ¬ final.Revoked := by
  have asked : Run (Step sessionConfig) (.start newSession) [.upgrade (some "edit")] _ :=
    Run.one (.load _ rfl)
  have read := asked.snoc (show Step _ _ (.read 0) _ from .read rfl)
  have executed := read.snoc
    (show Step _ _ (.rotate .edit "edit2") _ from .rotate (by decide) (by decide))
  have rotated := executed.snoc (show Step _ _ (.rotated 0) _ from .rotated rfl)
  have loaded := rotated.snoc (show Step _ _ (.loaded 0) _ from .loaded rfl)
  refine ⟨_, loaded, fun revoked => ?_⟩
  have closing := revoked _ rfl ⟨.edit, some "edit", false⟩ (by decide) "edit" rfl (by decide)
  nomatch closing

end SorobanExplorer.Collab
