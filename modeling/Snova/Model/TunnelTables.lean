import Snova.Model.TunnelServer

/-!
# The two tables of tunnel servers

`start_tunnel_server` and `close_tunnel_server` (`snova/server/tunnel_server.cc`) for themselves:
the servers with all their fields, the calls that are suspended in the resolution of their address,
and what the calls return.  All callers listen on a `NetAddress` without schema and path.
-/

namespace Snova

deriving instance DecidableEq for NetAddress

/-- `TunnelServer`, with the address its acceptor is bound to and the destination of its
`server_loop`. -/
structure ListenServer extends TunnelServer where
  id : ℕ
  listenAddr : NetAddress
  dstAddr : NetAddress

/-- The arguments of `start_tunnel_server`. -/
structure StartCall where
  listenAddr : NetAddress
  dstAddr : NetAddress

inductive TunnelErrc
  | addressInUse
  -- an error of the resolver, of `bind` or of `listen`
  | system (value : Int)

/-- A call that has returned, with its `TunnelServerListenResult`. -/
structure StartReturn where
  call : StartCall
  result : Except TunnelErrc ℕ

structure TunnelTables where
  -- `g_tunnel_servers`, `g_tunnel_server_addr2ids` and `g_tunnel_server_id_seed`
  servers : ℕ → Option ListenServer
  addr2ids : Bytes → Option ℕ
  idSeed : ℕ
  starts : List StartCall
  returned : List StartReturn
  -- every server that has been registered, in the order of registration
  registered : List ListenServer

inductive TablesAction
  | start (call : StartCall)
  -- a suspended call goes on: it listens, or gets an error
  | resume (i : ℕ) (ec : Option Int)
  | close (serverId : UInt32)

namespace TunnelTables

def init : TunnelTables := ⟨fun _ => none, fun _ => none, 1, [], [], []⟩

/-- `close_tunnel_server`. -/
def closeTunnelServer (s : TunnelTables) (serverId : UInt32) : TunnelTables :=
  match s.servers serverId.toNat with
  | none => s
  | some server =>
      { s with
        servers := Function.update s.servers serverId.toNat none
        addr2ids := Function.update s.addr2ids server.addr none }

/-- A call of `start_tunnel_server` returns. -/
def ret (s : TunnelTables) (call : StartCall) (result : Except TunnelErrc ℕ) : TunnelTables :=
  { s with returned := s.returned ++ [⟨call, result⟩] }

/-- `start_tunnel_server` up to the resolution of its address. -/
def startTunnelServer (s : TunnelTables) (call : StartCall) : TunnelTables :=
  match (s.addr2ids call.listenAddr.string).bind s.servers with
  | some existServer =>
      if existServer.tunnelAddr = call.dstAddr.string then s.ret call (.ok existServer.id)
      else s.ret call (.error .addressInUse)
  | none => { s with starts := s.starts ++ [call] }

/-- The server a call registers. -/
def newServer (s : TunnelTables) (call : StartCall) : ListenServer where
  addr := call.listenAddr.string
  tunnelAddr := call.dstAddr.string
  id := s.idSeed
  listenAddr := call.listenAddr
  dstAddr := call.dstAddr

/-- The end of `start_tunnel_server`, behind `listen`. -/
def register (s : TunnelTables) (call : StartCall) : TunnelTables :=
  { s with
    idSeed := (s.idSeed + 1) % 2 ^ 64
    servers := Function.update s.servers s.idSeed (some (s.newServer call))
    addr2ids := Function.update s.addr2ids call.listenAddr.string (some s.idSeed)
    registered := s.registered ++ [s.newServer call] }.ret call (.ok s.idSeed)

def step (s : TunnelTables) : TablesAction → Option TunnelTables
  | .start call => some (s.startTunnelServer call)
  | .resume i ec =>
      match s.starts[i]? with
      | some call =>
          let s := { s with starts := s.starts.eraseIdx i }
          match ec with
          | none => some (s.register call)
          | some value => some (s.ret call (.error (.system value)))
      | none => none
  | .close serverId => some (s.closeTunnelServer serverId)

end TunnelTables

end Snova
