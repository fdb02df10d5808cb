import SorobanExplorer.Library.Run
import Mathlib.Data.Finset.Card
import Mathlib.Data.Finset.Lattice.Basic
import Mathlib.Tactic.Common

/-!
Owns the server of one shared session: its row in the database, the room that is open in memory,
and what is under way between the two: loads, saves and rotations of a link token.

Documents are a semilattice: applying an update is a join. What follows an awaited reply runs before
the next reply is handled, but the database executes queries, and answers them, in any order.
-/

namespace SorobanExplorer.Collab

open Library

universe u

variable {Doc : Type u}

abbrev Hash := String

inductive Role where
  | owner
  | edit
  | view
deriving DecidableEq

/-! ### The row -/

/-- A row of `collab_sessions`. The state is null until the first save. -/
structure Row (Doc : Type u) where
  ownerTokenHash : Hash
  editTokenHash : Hash
  viewTokenHash : Hash
  state : Option Doc

namespace Row

def tokenHash (row : Row Doc) : Role → Hash
  | .owner => row.ownerTokenHash
  | .edit => row.editTokenHash
  | .view => row.viewTokenHash

def setTokenHash (row : Row Doc) (role : Role) (hash : Hash) : Row Doc :=
  match role with
  | .owner => row
  | .edit => { row with editTokenHash := hash }
  | .view => { row with viewTokenHash := hash }

end Row

def roleFor (row : Row Doc) (token : Option Hash) : Option Role :=
  match token with
  | none => none
  | some hash =>
    if hash = row.ownerTokenHash then some .owner
    else if hash = row.editTokenHash then some .edit
    else if hash = row.viewTokenHash then some .view
    else none

/-! ### The room -/

structure Config (Doc : Type u) where
  MAX_PARTICIPANTS : ℕ
  MAX_DOC_BYTES : ℕ
  byteLength : Doc → ℕ

/-- A connection and the token it was admitted with. It is `closing` once `close` was called. -/
structure Conn where
  role : Role
  token : Option Hash
  closing : Bool
deriving DecidableEq

structure Room (Doc : Type u) where
  row : Row Doc
  doc : Doc
  conns : List Conn
  persistTimer : Bool
  tooLarge : Bool

namespace Room

/-- `new Room(id, row)` -/
def new [Bot Doc] (row : Row Doc) : Room Doc := ⟨row, row.state.getD ⊥, [], false, false⟩

def addConn (config : Config Doc) (room : Room Doc) (token : Option Hash) : Room Doc :=
  match roleFor room.row token with
  | none => room
  | some role =>
    if room.conns.length ≥ config.MAX_PARTICIPANTS then room
    else { room with conns := room.conns ++ [⟨role, token, false⟩] }

def apply [Max Doc] (config : Config Doc) (room : Room Doc) (update : Doc) : Room Doc :=
  { room with
    doc := room.doc ⊔ update
    persistTimer := true
    tooLarge := config.byteLength (room.doc ⊔ update) > config.MAX_DOC_BYTES }

def close (room : Room Doc) (index : ℕ) (conn : Conn) : Room Doc :=
  { room with conns := room.conns.set index { conn with closing := true } }

def kick (room : Room Doc) (role : Option Role) : Room Doc :=
  { room with
    conns := room.conns.map fun conn =>
      if conn.role ≠ .owner ∧ (role = none ∨ role = some conn.role) then
        { conn with closing := true }
      else conn }

/-- `room.row[…] = hash; room.kick(role)` -/
def rotate (room : Room Doc) (role : Role) (hash : Hash) : Room Doc :=
  { room with row := room.row.setTokenHash role hash }.kick (some role)

end Room

section

variable {config : Config Doc} {room : Room Doc} {token : Option Hash}

theorem row_addConn : (room.addConn config token).row = room.row := by
  unfold Room.addConn
  split
  · rfl
  · split
    · rfl
    · rfl

theorem doc_addConn : (room.addConn config token).doc = room.doc := by
  unfold Room.addConn
  split
  · rfl
  · split
    · rfl
    · rfl

theorem state_setTokenHash (row : Row Doc) (role : Role) (hash : Hash) :
    (row.setTokenHash role hash).state = row.state := by
  cases role with
  | owner | edit | view => rfl

end

/-! ### The server -/

/-- An upgrade that waits for the row, and the row once the database has read it. -/
structure Load (Doc : Type u) where
  token : Option Hash
  row : Option (Row Doc)

/-- A rotation whose `UPDATE` is executed, and the hash that it replaced. -/
structure Rotation where
  role : Role
  hash : Hash
  old : Hash

/-- `saves` are the states on their way to the row. Beside the server stand the hashes of all
tokens, those that a resolved rotation replaced, and the updates that rooms applied. -/
structure Server (Doc : Type u) where
  row : Row Doc
  room : Option (Room Doc)
  loads : List (Load Doc)
  saves : List Doc
  rotations : List Rotation
  issued : List Hash
  retired : List (Role × Hash)
  applied : List Doc

inductive Action (Doc : Type u) where
  | upgrade (token : Option Hash)
  | read (load : ℕ)
  | loaded (load : ℕ)
  | update (conn : ℕ) (update : Doc)
  | leave (conn : ℕ)
  | timeout
  | save (save : ℕ)
  | saveFailed (save : ℕ)
  | rotate (role : Role) (hash : Hash)
  | rotated (rotation : ℕ)
  | kickParticipants

namespace Server

def start (row : Row Doc) : Server Doc where
  row := row
  room := none
  loads := []
  saves := []
  rotations := []
  issued := [row.ownerTokenHash, row.editTokenHash, row.viewTokenHash]
  retired := []
  applied := []

/-- `rooms.get(id) ?? new Room(id, row)`, and the upgrade goes on with it. -/
def install [Bot Doc] (config : Config Doc) (server : Server Doc) (index : ℕ)
    (token : Option Hash) (row : Row Doc) : Server Doc :=
  { server with
    room := some ((server.room.getD (.new row)).addConn config token)
    loads := server.loads.eraseIdx index }

def leave (server : Server Doc) (room : Room Doc) (index : ℕ) : Server Doc :=
  let conns := room.conns.eraseIdx index
  if conns = [] then { server with room := none, saves := server.saves ++ [room.doc] }
  else { server with room := some { room with conns := conns } }

def persist (config : Config Doc) (server : Server Doc) (room : Room Doc) : Server Doc :=
  { server with
    room := some
      { room with
        persistTimer := false
        tooLarge := config.byteLength room.doc > config.MAX_DOC_BYTES }
    saves := server.saves ++ [room.doc] }

def rotate (server : Server Doc) (role : Role) (hash : Hash) : Server Doc :=
  { server with
    row := server.row.setTokenHash role hash
    rotations := server.rotations ++ [⟨role, hash, server.row.tokenHash role⟩]
    issued := hash :: server.issued }

def rotated (server : Server Doc) (index : ℕ) (rotation : Rotation) : Server Doc :=
  { server with
    room := server.room.map fun room => room.rotate rotation.role rotation.hash
    rotations := server.rotations.eraseIdx index
    retired := (rotation.role, rotation.old) :: server.retired }

end Server

/-- New tokens are random, so that no two have the same hash. An update that the document contains
already changes nothing, and so does one of a viewer. -/
inductive Step [SemilatticeSup Doc] [OrderBot Doc] (config : Config Doc) :
    Server Doc → Action Doc → Server Doc → Prop
  | join {server : Server Doc} {room : Room Doc} (token : Option Hash)
      (opened : server.room = some room) :
      Step config server (.upgrade token) { server with room := some (room.addConn config token) }
  | load {server : Server Doc} (token : Option Hash) (closed : server.room = none) :
      Step config server (.upgrade token)
        { server with loads := server.loads ++ [⟨token, none⟩] }
  | read {server : Server Doc} {index : ℕ} {token : Option Hash}
      (sent : server.loads[index]? = some ⟨token, none⟩) :
      Step config server (.read index)
        { server with loads := server.loads.set index ⟨token, some server.row⟩ }
  | loaded {server : Server Doc} {index : ℕ} {token : Option Hash} {row : Row Doc}
      (answered : server.loads[index]? = some ⟨token, some row⟩) :
      Step config server (.loaded index) (server.install config index token row)
  | update {server : Server Doc} {room : Room Doc} {index : ℕ} {conn : Conn} {update : Doc}
      (opened : server.room = some room) (found : room.conns[index]? = some conn)
      (canEdit : conn.role ≠ .view ∧ room.tooLarge = false) (news : ¬ update ≤ room.doc) :
      Step config server (.update index update)
        { server with
          room := some (room.apply config update)
          applied := update :: server.applied }
  | refused {server : Server Doc} {room : Room Doc} {index : ℕ} {conn : Conn} {update : Doc}
      (opened : server.room = some room) (found : room.conns[index]? = some conn)
      (editor : conn.role ≠ .view) (full : room.tooLarge = true) :
      Step config server (.update index update)
        { server with room := some (room.close index conn) }
  | leave {server : Server Doc} {room : Room Doc} {index : ℕ}
      (opened : server.room = some room) (inside : index < room.conns.length) :
      Step config server (.leave index) (server.leave room index)
  | timeout {server : Server Doc} {room : Room Doc} (opened : server.room = some room)
      (armed : room.persistTimer = true) :
      Step config server .timeout (server.persist config room)
  | save {server : Server Doc} {index : ℕ} {state : Doc}
      (sent : server.saves[index]? = some state) :
      Step config server (.save index)
        { server with
          row := { server.row with state := some state }
          saves := server.saves.eraseIdx index }
  | saveFailed {server : Server Doc} {index : ℕ} (sent : index < server.saves.length) :
      Step config server (.saveFailed index)
        { server with saves := server.saves.eraseIdx index }
  | rotate {server : Server Doc} {role : Role} {hash : Hash} (link : role ≠ .owner)
      (fresh : hash ∉ server.issued) :
      Step config server (.rotate role hash) (server.rotate role hash)
  | rotated {server : Server Doc} {index : ℕ} {rotation : Rotation}
      (executed : server.rotations[index]? = some rotation) :
      Step config server (.rotated index) (server.rotated index rotation)
  | kickParticipants {server : Server Doc} :
      Step config server .kickParticipants
        { server with room := server.room.map fun room => room.kick none }

theorem deterministic [SemilatticeSup Doc] [OrderBot Doc] (config : Config Doc) :
    Deterministic (Step config) := by
  intro before action first second one two
  cases one with
  | join _ opened =>
    cases two with
    | join _ other =>
      cases opened.symm.trans other
      rfl
    | load _ closed => nomatch opened.symm.trans closed
  | load _ closed =>
    cases two with
    | join _ opened => nomatch opened.symm.trans closed
    | load => rfl
  | read sent =>
    cases two with
    | read other =>
      cases sent.symm.trans other
      rfl
  | saveFailed | rotate | kickParticipants =>
    cases two
    rfl
  | loaded answered =>
    cases two with
    | loaded other =>
      cases answered.symm.trans other
      rfl
  | update opened _ canEdit =>
    cases two with
    | update other =>
      cases opened.symm.trans other
      rfl
    | refused other _ _ full =>
      cases opened.symm.trans other
      nomatch full.symm.trans canEdit.2
  | refused opened found _ full =>
    cases two with
    | update other _ canEdit =>
      cases opened.symm.trans other
      nomatch full.symm.trans canEdit.2
    | refused other again =>
      cases opened.symm.trans other
      cases found.symm.trans again
      rfl
  | leave opened =>
    cases two with
    | leave other =>
      cases opened.symm.trans other
      rfl
  | timeout opened =>
    cases two with
    | timeout other =>
      cases opened.symm.trans other
      rfl
  | save sent =>
    cases two with
    | save other =>
      cases sent.symm.trans other
      rfl
  | rotated executed =>
    cases two with
    | rotated other =>
      cases executed.symm.trans other
      rfl

/-! ### A session of the examples -/

def sessionConfig : Config (Finset ℕ) := ⟨20, 2 * 1024 * 1024, Finset.card⟩

def newSession : Row (Finset ℕ) := ⟨"owner", "edit", "view", none⟩

end SorobanExplorer.Collab
