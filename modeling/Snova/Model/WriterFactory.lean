import Snova.Model.MuxConnManager
import Snova.Model.WindowCounters

/-!
# Choosing a connection to write to

`MuxConnection::ComparePriority` (`snova/mux/mux_connection.cc`) and the factory of
`MuxSession::GetEventWriterFactory` (`snova/mux/mux_conn_manager.cc`); and the table of sessions
together with the session of the local client (`snova/mux/mux_client.cc`), which `MuxClient` fills
and clears by itself.

The client holds its session as a pointer.  It is the one in the table until `Remove` drops it from
there; from then on the client has it alone.
-/

namespace Snova

/-! ## One session -/

/-- What `ComparePriority` reads of a connection: `GetWaitCount` and `IsLocked` of its write mutex,
and its send counters. -/
structure ConnLoad where
  waitCount : ℕ
  locked : Bool
  sendRing : WindowRing

/-- `MuxConnection::ComparePriority`. -/
def ConnLoad.comparePriority (self other : ConnLoad) : ℤ :=
  if self.waitCount < other.waitCount then 1
  else if self.waitCount > other.waitCount then -1
  else if !self.locked && other.locked then 1
  else if self.locked && !other.locked then -1
  else
    let latestSendBytes := self.sendRing.total
    let otherLatestSendBytes := other.sendRing.total
    if latestSendBytes < otherLatestSendBytes then 1
    else if latestSendBytes > otherLatestSendBytes then -1
    else 0

section

variable {κ : Type}

/-- The loop of the factory over the slots from `i` on.  `selected` is `select_idx` with the
connection in that slot, or `none` for -1. -/
def selectLoop (load : κ → ConnLoad) : List (Option κ) → ℕ → Option (ℕ × κ) → Option (ℕ × κ)
  | [], _, selected => selected
  | none :: rest, i, selected => selectLoop load rest (i + 1) selected
  | some conn :: rest, i, none => selectLoop load rest (i + 1) (some (i, conn))
  | some conn :: rest, i, some (selectIdx, best) =>
      if 0 < (load conn).comparePriority (load best) then
        selectLoop load rest (i + 1) (some (i, conn))
      else selectLoop load rest (i + 1) (some (selectIdx, best))

/-- A call of the factory that `MuxSession::GetEventWriterFactory` returns: the slot its writer
writes to, or `none` for no writer. -/
def MuxSession.eventWriter (load : κ → ConnLoad) (session : MuxSession κ) : Option ℕ :=
  (selectLoop load session.conns 0 none).map Prod.fst

/-! ## The session of the client -/

/-- `MuxConnManager::GetSession`, with the session it returns. -/
def MuxConnManager.getSession (m : MuxConnManager κ) (user : Bytes) (clientId : UInt64)
    (type : MuxConnectionType) : MuxConnManager κ × MuxSession κ :=
  let table := (m.getUserMuxConn user).sessions type
  let session := (table.lookup clientId).getD {}
  (m.setSessions user type (table.insert clientId session), session)

/-- `conns.resize(n)`. -/
def resizeConns (n : ℕ) (conns : List (Option κ)) : List (Option κ) :=
  conns.take n ++ List.replicate (n - conns.length) none

/-- `remote_session_` of `MuxClient`, with its connections if it is not in the table any more. -/
structure RemoteSession (κ : Type) where
  user : Bytes
  clientId : UInt64
  type : MuxConnectionType
  detached : Option (List (Option κ)) := none

/-- The table of a node and the session of its client. -/
structure SessionNode (κ : Type) where
  manager : MuxConnManager κ
  remote : Option (RemoteSession κ)

inductive SessionOp (κ : Type)
  -- a connection of a server is added or removed
  | call (op : ConnOp κ)
  -- `GetSession` in `tunnel_server_handler`
  | getSession (user : Bytes) (clientId : UInt64) (type : MuxConnectionType)
  -- `MuxClient::Init` up to its first connection
  | init (user : Bytes) (clientId : UInt64) (type : MuxConnectionType) (connNum : ℕ)
  -- `remote_session_->conns[idx] = conn`: a new connection, or one that has ended or is retired
  | setConn (idx : ℕ) (conn : Option κ)

namespace SessionNode

def empty : SessionNode κ := ⟨.empty, none⟩

/-- The connections of the session with this client id, if there is one. -/
def connsAt (s : SessionNode κ) (user : Bytes) (clientId : UInt64) (type : MuxConnectionType) :
    Option (List (Option κ)) :=
  (((s.manager.getUserMuxConn user).sessions type).lookup clientId).map MuxSession.conns

variable [DecidableEq κ]

/-- What becomes of the client's session when a connection is removed: if it is dropped from the
table, the client keeps what `Remove` has left of it. -/
def dropRemote (getType : κ → MuxConnectionType) (s : SessionNode κ) (user : Bytes)
    (clientId : UInt64) (conn : κ) (remote : RemoteSession κ) : RemoteSession κ :=
  if remote.detached = none ∧ remote.user = user ∧ remote.clientId = clientId ∧
      remote.type = getType conn then
    match s.connsAt user clientId (getType conn) with
    | none => remote
    | some conns =>
        let (conns', allEmpty) := removeConn conn conns true false
        if allEmpty then { remote with detached := some conns' } else remote
  else remote

/-- `none` where the action is not possible. -/
def step (getType : κ → MuxConnectionType) (s : SessionNode κ) :
    SessionOp κ → Option (SessionNode κ)
  | .call (.add user clientId conn) =>
      some { s with manager := (s.manager.add getType user clientId conn).1 }
  | .call (.remove user clientId conn) =>
      some ⟨s.manager.remove getType user clientId conn,
        s.remote.map (s.dropRemote getType user clientId conn)⟩
  | .getSession user clientId type =>
      some { s with manager := (s.manager.getSession user clientId type).1 }
  | .init user clientId type connNum =>
      match s.remote with
      | some _ => none
      | none =>
          let (manager, session) := s.manager.getSession user clientId type
          let table := (manager.getUserMuxConn user).sessions type
          some ⟨manager.setSessions user type
              (table.insert clientId ⟨resizeConns connNum session.conns⟩),
            some { user := user, clientId := clientId, type := type }⟩
  | .setConn idx conn =>
      match s.remote with
      | none => none
      | some remote =>
          match remote.detached with
          | some conns =>
              some { s with remote := some { remote with detached := some (conns.set idx conn) } }
          | none =>
              let table := (s.manager.getUserMuxConn remote.user).sessions remote.type
              let conns := ((table.lookup remote.clientId).getD {}).conns
              let table := table.insert remote.clientId ⟨conns.set idx conn⟩
              some { s with manager := s.manager.setSessions remote.user remote.type table }

end SessionNode

end

end Snova
