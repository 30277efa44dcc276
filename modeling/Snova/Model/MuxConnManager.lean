import Snova.Model.Auth
import Mathlib.Data.List.AList

/-!
# The table of connections

`MuxConnManager` (`snova/mux/mux_conn_manager.cc`): for each user and connection type a table of
sessions by client id, and in each session an array of connections in which a removed connection
leaves an empty slot.

Connections are compared as pointers, so their type is arbitrary here; `getType` is
`MuxConnection::GetType`, which does not change any more once a connection is authenticated.  The
order of an association list stands for the order in which a hash table is iterated.
-/

namespace Snova

/-- `MuxSession`. -/
structure MuxSession (κ : Type) where
  conns : List (Option κ) := []

/-- `UserMuxConn`. -/
structure UserMuxConn (κ : Type) where
  sessions : MuxConnectionType → AList fun _ : UInt64 => MuxSession κ

/-- `MuxConnManager`. -/
structure MuxConnManager (κ : Type) where
  muxConns : AList fun _ : Bytes => UserMuxConn κ

section

variable {κ : Type}

/-- The loop of `MuxConnManager::Add`: the first empty slot takes the connection, or it is
appended.  The result has the slot's index. -/
def addConn (conn : κ) : List (Option κ) → List (Option κ) × ℕ
  | [] => ([some conn], 0)
  | none :: rest => (some conn :: rest, 0)
  | some c :: rest =>
      let (rest', idx) := addConn conn rest
      (some c :: rest', idx + 1)

variable [DecidableEq κ]

/-- The loop of `MuxConnManager::Remove`, with its variables `all_empty` and `match`. -/
def removeConn (conn : κ) : List (Option κ) → Bool → Bool → List (Option κ) × Bool
  | [], allEmpty, _ => ([], allEmpty)
  | c :: rest, allEmpty, isMatch =>
      let isMatch := if c = some conn then true else isMatch
      let c := if c = some conn then none else c
      if c.isSome then
        if isMatch then (c :: rest, false)
        else
          let (rest', allEmpty) := removeConn conn rest false isMatch
          (c :: rest', allEmpty)
      else
        let (rest', allEmpty) := removeConn conn rest allEmpty isMatch
        (c :: rest', allEmpty)

end

namespace MuxConnManager

variable {κ : Type}

def empty : MuxConnManager κ := ⟨∅⟩

/-- `MuxConnManager::GetUserMuxConn`, without the new entry for a user that has none. -/
def getUserMuxConn (m : MuxConnManager κ) (user : Bytes) : UserMuxConn κ :=
  (m.muxConns.lookup user).getD ⟨fun _ => ∅⟩

/-- The table with `sessions[type]` of a user replaced. -/
def setSessions (m : MuxConnManager κ) (user : Bytes) (type : MuxConnectionType)
    (table : AList fun _ : UInt64 => MuxSession κ) : MuxConnManager κ :=
  ⟨m.muxConns.insert user ⟨Function.update (m.getUserMuxConn user).sessions type table⟩⟩

/-- `MuxConnManager::Add`, with the value of `*conn_idx`. -/
def add (getType : κ → MuxConnectionType) (m : MuxConnManager κ) (user : Bytes) (clientId : UInt64)
    (conn : κ) : MuxConnManager κ × UInt32 :=
  let table := (m.getUserMuxConn user).sessions (getType conn)
  let session : MuxSession κ := (table.lookup clientId).getD {}
  let (conns, idx) := addConn conn session.conns
  (m.setSessions user (getType conn) (table.insert clientId ⟨conns⟩), UInt32.ofNat idx)

/-- `MuxConnManager::Remove`. -/
def remove [DecidableEq κ] (getType : κ → MuxConnectionType) (m : MuxConnManager κ) (user : Bytes)
    (clientId : UInt64) (conn : κ) : MuxConnManager κ :=
  match m.muxConns.lookup user with
  | none => m
  | some userConn =>
      let table := userConn.sessions (getType conn)
      match table.lookup clientId with
      | none => m
      | some session =>
          let (conns, allEmpty) := removeConn conn session.conns true false
          m.setSessions user (getType conn)
            (if allEmpty then table.erase clientId else table.insert clientId ⟨conns⟩)

/-- `MuxConnManager::GetRelayEventWriterFactory`: the session it takes, with its client id. -/
def getRelayEventWriterFactory (m : MuxConnManager κ) (user : Bytes) :
    Option (UInt64 × MuxSession κ) := do
  let userConn ← m.muxConns.lookup user
  let entry ← (userConn.sessions .exit).entries.find? fun entry => entry.2.conns.length ≠ 0
  some (entry.1, entry.2)

end MuxConnManager

/-- A call of `MuxConnManager`. -/
inductive ConnOp (κ : Type)
  | add (user : Bytes) (clientId : UInt64) (conn : κ)
  | remove (user : Bytes) (clientId : UInt64) (conn : κ)

namespace MuxConnManager

variable {κ : Type} [DecidableEq κ]

def perform (getType : κ → MuxConnectionType) (m : MuxConnManager κ) :
    ConnOp κ → MuxConnManager κ
  | .add user clientId conn => (m.add getType user clientId conn).1
  | .remove user clientId conn => m.remove getType user clientId conn

/-- The table after a sequence of calls. -/
def performAll (getType : κ → MuxConnectionType) (ops : List (ConnOp κ)) : MuxConnManager κ :=
  ops.foldl (perform getType) empty

end MuxConnManager

end Snova
