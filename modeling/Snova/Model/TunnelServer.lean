import Snova.Framework.Exec
import Snova.Model.MuxEvent
import Mathlib.Logic.Function.Basic

/-!
# Tunnel servers of an entry node

`start_tunnel_server`, `tunnel_server_handler` and `close_tunnel_server`
(`snova/server/tunnel_server.cc`), with the sessions of exit nodes in `MuxConnManager` and their
destructor (`snova/mux/mux_conn_manager.cc`).

A session is found by user and client id; it is numbered in the order of creation, since a client
id can get a new session while an old one is still alive.  The manager forgets a session when its
last connection is removed, and it is destroyed when nobody holds it any more: a handler that is
suspended in `start_tunnel_server` does.
-/

namespace Snova

/-- The part of `NetAddress` that tunnels use. -/
structure NetAddress where
  host : Bytes
  port : UInt16

/-- `NetAddress::String`. -/
def NetAddress.string (a : NetAddress) : Bytes :=
  a.host ++ 58 :: (Nat.toDigits 10 a.port.toNat).map fun c => UInt8.ofNat c.toNat

/-- `"0.0.0.0"`. -/
def anyHost : Bytes := [48, 46, 48, 46, 48, 46, 48]

/-- `TunnelServer`, without its socket. -/
structure TunnelServer where
  addr : Bytes
  tunnelAddr : Bytes

/-- A call of `start_tunnel_server` that is suspended in `GetEndpoint`, for a session or for a
local tunnel. -/
structure TunnelStart where
  session : Option ℕ
  serverAddr : Bytes
  dstAddr : Bytes

structure TunnelNode where
  tunnelServers : ℕ → Option TunnelServer
  addr2ids : Bytes → Option ℕ
  idSeed : ℕ
  -- the exit sessions of `MuxConnManager`, by user and client id
  sessions : List ((Bytes × UInt64) × ℕ)
  -- how many sessions have been created, and which of them are destroyed
  created : ℕ
  destroyed : ℕ → Bool
  -- `session->tunnel_servers`: the ids of the successful answers
  granted : ℕ → List ℕ
  starts : List TunnelStart

inductive TunnelAction
  -- `tunnel_server_handler` is called for a connection of a client
  | request (client : Bytes × UInt64) (event : TunnelOpenRequest)
  -- a local tunnel is started
  | startLocal (listenAddr dstAddr : NetAddress)
  -- a suspended `start_tunnel_server` goes on: the address is resolved, and bind and listen
  -- succeed, or one of them fails
  | resume (start : ℕ) (ok : Bool)
  -- `MuxConnManager::Add` of a connection, and `Remove` of the last one
  | add (client : Bytes × UInt64)
  | remove (client : Bytes × UInt64)
  -- `~MuxSession`
  | destroy (session : ℕ)

namespace TunnelNode

def init : TunnelNode where
  tunnelServers := fun _ => none
  addr2ids := fun _ => none
  idSeed := 1
  sessions := []
  created := 0
  destroyed := fun _ => false
  granted := fun _ => []
  starts := []

/-- `close_tunnel_server`, whose parameter is a `uint32_t`. -/
def closeTunnelServer (s : TunnelNode) (serverId : ℕ) : TunnelNode :=
  let serverId := serverId % 2 ^ 32
  match s.tunnelServers serverId with
  | none => s
  | some server =>
      { s with
        tunnelServers := Function.update s.tunnelServers serverId none
        addr2ids := Function.update s.addr2ids server.addr none }

/-- `MuxConnManager::GetSession`: the session of a client, a new one if there is none. -/
def getSession (s : TunnelNode) (client : Bytes × UInt64) : TunnelNode × ℕ :=
  match s.sessions.lookup client with
  | some session => (s, session)
  | none =>
      ({ s with sessions := (client, s.created) :: s.sessions, created := s.created + 1 },
        s.created)

/-- The server that listens on an address already. -/
def existServer (s : TunnelNode) (serverAddr : Bytes) : Option (ℕ × TunnelServer) := do
  let existId ← s.addr2ids serverAddr
  let server ← s.tunnelServers existId
  some (existId, server)

/-- `tunnel_server_handler` answers with success, or `start_tunnel_server` returns to its other
caller. -/
def grant (s : TunnelNode) (session : Option ℕ) (serverId : ℕ) : TunnelNode :=
  match session with
  | some session =>
      { s with granted := Function.update s.granted session (s.granted session ++ [serverId]) }
  | none => s

/-- `start_tunnel_server` up to `GetEndpoint`. -/
def startTunnelServer (s : TunnelNode) (session : Option ℕ) (serverAddr dstAddr : Bytes) :
    TunnelNode :=
  match s.existServer serverAddr with
  | some (existId, server) =>
      -- another destination is `address_in_use`
      if server.tunnelAddr = dstAddr then s.grant session existId else s
  | none => { s with starts := s.starts ++ [⟨session, serverAddr, dstAddr⟩] }

/-- `start_tunnel_server` when it listens on its address. -/
def listen (s : TunnelNode) (start : TunnelStart) : TunnelNode :=
  let serverId := s.idSeed
  { s with
    idSeed := (s.idSeed + 1) % 2 ^ 64
    tunnelServers :=
      Function.update s.tunnelServers serverId (some ⟨start.serverAddr, start.dstAddr⟩)
    addr2ids := Function.update s.addr2ids start.serverAddr (some serverId) }.grant
      start.session serverId

/-- The addresses of a request. -/
def listenAddr (event : TunnelOpenRequest) : Bytes :=
  (NetAddress.mk anyHost event.remotePort.toUInt16).string

def tunnelAddr (event : TunnelOpenRequest) : Bytes :=
  (NetAddress.mk event.localHost.bytes event.localPort.toUInt16).string

/-- A session can be destroyed when neither the manager nor a suspended handler holds it. -/
def Released (s : TunnelNode) (session : ℕ) : Prop :=
  session < s.created ∧ s.destroyed session = false ∧ (∀ p ∈ s.sessions, p.2 ≠ session) ∧
    ∀ start ∈ s.starts, start.session ≠ some session

instance (s : TunnelNode) (session : ℕ) : Decidable (s.Released session) :=
  inferInstanceAs (Decidable (_ ∧ _ ∧ _ ∧ _))

/-- `MuxSession::~MuxSession`. -/
def destroySession (s : TunnelNode) (session : ℕ) : TunnelNode :=
  (s.granted session).foldl closeTunnelServer
    { s with destroyed := Function.update s.destroyed session true }

def step (s : TunnelNode) : TunnelAction → Option TunnelNode
  | .request client event =>
      let (s, session) := s.getSession client
      some (s.startTunnelServer (some session) (listenAddr event) (tunnelAddr event))
  | .startLocal listenAddr dstAddr =>
      some (s.startTunnelServer none listenAddr.string dstAddr.string)
  | .resume i ok =>
      match s.starts[i]? with
      | some start =>
          let s := { s with starts := s.starts.eraseIdx i }
          some (if ok then s.listen start else s)
      | none => none
  | .add client => some (s.getSession client).1
  | .remove client => some { s with sessions := s.sessions.filter fun p => p.1 ≠ client }
  | .destroy session => if s.Released session then some (s.destroySession session) else none

end TunnelNode

end Snova
