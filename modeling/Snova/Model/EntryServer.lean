import Snova.Model.HttpProxy
import Snova.Model.Sni

/-!
# The entry server

`handle_conn` (`snova/server/entry_server.cc`) looks at the first bytes of a connection and gives
it to `handle_socks5_connection` (`snova/server/socks5.cc`), `handle_tls_connection`
(`snova/server/tls.cc`) or `handle_http_connection`; a tunnel port has a `handle_conn` of its own
(`snova/server/tunnel_server.cc`).

The handlers take the socket and the buffer as rvalue references and move them into variables of
their own, so a call says what the variables of its caller are afterwards.  A `Bytes` points into
the buffer: it shows nothing once the buffer is gone.  What is written to a client is left out, as
the handlers ignore whether a write succeeds.
-/

namespace Snova

/-- An `asio` endpoint, with the bytes of its address. -/
structure TcpEndpoint where
  address : Bytes
  port : UInt16
  deriving DecidableEq

/-- The configuration of an entry node, and what it uses of `asio`'s addresses. -/
structure EntryEnv where
  user : Bytes
  isRedirectNode : Bool
  toString : Bytes → Bytes
  isPrivateAddress : Bytes → Bool

/-- The variables that own a connection: its socket and its buffer, `none` for a null pointer. -/
structure ConnVars where
  sock : TcpSocket
  buffer : Option Bytes
  deriving DecidableEq

/-- The variables after `std::move`. -/
def ConnVars.movedFrom : ConnVars := ⟨.movedFrom, none⟩

/-- The first bytes of the buffer. -/
def ConnVars.view (vars : ConnVars) (n : ℕ) : Option Bytes := vars.buffer.map (·.take n)

/-! ## TLS -/

/-- What `handle_tls_connection` returns, what is left to its caller, and the relay it starts. -/
structure TlsResult where
  success : Bool
  vars : ConnVars
  call : Option RelayCall

/-- The server name that is not relayed. -/
def excludedHost : Bytes := ascii "courier.push.apple.com".toList

/-- `handle_tls_connection`. -/
def handleTlsConnection (env : EntryEnv) (caller : ConnVars) (readableData : Bytes)
    (origRemoteEndpoint : Option TcpEndpoint) (unread : List Bytes) : TlsResult :=
  let remotePort := (origRemoteEndpoint.map TcpEndpoint.port).getD 443
  let vars := caller
  let caller := ConnVars.movedFrom
  match parseSni readableData with
  | .error _ => ⟨false, caller, none⟩
  | .ok remoteHost =>
      if remoteHost = excludedHost then ⟨false, caller, none⟩
      else ⟨true, caller, some ⟨vars.sock, some readableData, unread,
        { user := env.user, remoteHost := remoteHost, remotePort := remotePort,
          isTls := true, isTcp := true, direct := false }⟩⟩

/-! ## SOCKS5 -/

/-- A request that is accepted. -/
structure Socks5Target where
  remoteHost : Bytes
  remotePort : UInt16
  remoteEndpoint : Option TcpEndpoint
  deriving DecidableEq

/-- The methods of the greeting have the one without authentication. -/
def noAuthOffered (buffer : Bytes) : Bool :=
  ((buffer.drop 2).take (byteAt buffer 1)).contains 0

/-- The checks on a request of `n` bytes in the buffer: `none` if it is rejected. -/
def socks5Target (env : EntryEnv) (buffer : Bytes) (n : ℕ) : Option Socks5Target :=
  if n < 4 then none
  else if byteAt buffer 0 ≠ 5 then none
  else if byteAt buffer 1 ≠ 1 then none
  else
    let remotePort := UInt16.ofNat (shortAt buffer (n - 2))
    match byteAt buffer 3 with
    | 1 =>
        if n ≠ 10 then none
        else
          let address := (buffer.drop 4).take 4
          some ⟨env.toString address, remotePort, some ⟨address, remotePort⟩⟩
    | 4 =>
        if n ≠ 22 then none
        else
          let address := (buffer.drop 4).take 16
          some ⟨env.toString address, remotePort, some ⟨address, remotePort⟩⟩
    | 3 =>
        if n ≠ 7 + byteAt buffer 4 then none
        else some ⟨(buffer.drop 5).take (byteAt buffer 4), remotePort, none⟩
    | _ => none

/-- The rest of `handle_socks5_connection`, behind the read of the first payload. -/
def relaySocks5 (env : EntryEnv) (vars : ConnVars) (target : Socks5Target) (payload : Bytes)
    (unread : List Bytes) : Option RelayCall :=
  let rn := payload.length
  let raw (vars : ConnVars) : RelayCall := ⟨vars.sock, vars.view rn, unread,
    { user := env.user, remoteHost := target.remoteHost, remotePort := target.remotePort,
      isTls := false, isTcp := true, direct := false }⟩
  if 3 < rn ∧ byteAt payload 0 = 0x16 then
    if byteAt payload 1 < 3 then none
    else
      let tls := handleTlsConnection env vars payload target.remoteEndpoint unread
      if tls.success then tls.call else some (raw tls.vars)
  else some (raw vars)

/-- `handle_socks5_connection`: the relay it starts, if it does.  The greeting is in the buffer; a
read leaves what is behind the bytes it reads as it was. -/
def handleSocks5Connection (env : EntryEnv) (vars : ConnVars) (segments : List Bytes) :
    Option RelayCall :=
  match vars.buffer, segments with
  | some buffer, request :: payload :: unread =>
      if noAuthOffered buffer then
        let buffer := request ++ buffer.drop request.length
        match socks5Target env buffer request.length with
        | none => none
        | some target =>
            let buffer := payload ++ buffer.drop payload.length
            relaySocks5 env ⟨vars.sock, some buffer⟩ target payload unread
      else none
  | _, _ => none

/-! ## Connections -/

/-- The first three letters of the HTTP methods. -/
def httpMethods : List Bytes :=
  ["GET", "CON", "PUT", "POS", "DEL", "OPT", "TRA", "PAT", "HEA", "UPG"].map (ascii ·.toList)

/-- `cmd3` is the beginning of an HTTP method. -/
def isHttpMethod (cmd3 : Bytes) : Bool := httpMethods.any fun method => equalsIgnoreCase cmd3 method

/-- The address a connection was redirected from, with what `get_orig_dst` gives. -/
def redirectEndpoint (env : EntryEnv) (origDst : Option TcpEndpoint) : Option TcpEndpoint :=
  if env.isRedirectNode then origDst.filter fun endpoint => !env.isPrivateAddress endpoint.address
  else none

/-- The end of `handle_conn`: a connection that no handler has taken goes to the address it was
redirected from. -/
def relayDirect (env : EntryEnv) (vars : ConnVars) (n : ℕ) (remoteEndpoint : Option TcpEndpoint)
    (unread : List Bytes) : List RelayCall :=
  match remoteEndpoint with
  | none => []
  | some endpoint =>
      [⟨vars.sock, vars.view n, unread,
        { user := [], remoteHost := env.toString endpoint.address, remotePort := endpoint.port,
          isTls := false, isTcp := true, direct := true }⟩]

/-- `handle_conn` of an entry server: the relays it starts.  `stale` is what the buffer holds
behind the bytes of the first read. -/
def handleConn (env : EntryEnv) (origDst : Option TcpEndpoint) (sock : TcpSocket) (stale : Bytes)
    (segments : List Bytes) : List RelayCall :=
  let remoteEndpoint := redirectEndpoint env origDst
  match segments with
  | [] => []
  | first :: later =>
      let n := first.length
      let vars : ConnVars := ⟨sock, some (first ++ stale)⟩
      if n < 3 then []
      else if remoteEndpoint.isNone ∧ byteAt first 0 = 5 then
        (handleSocks5Connection env vars later).toList
          ++ relayDirect env .movedFrom n remoteEndpoint later
      else if remoteEndpoint.isNone ∧ byteAt first 0 = 4 then []
      else if byteAt first 0 = 0x16 then
        if byteAt first 1 < 3 then []
        else
          let tls := handleTlsConnection env vars first remoteEndpoint later
          if tls.success then tls.call.toList
          else relayDirect env tls.vars n remoteEndpoint later
      else if isHttpMethod (first.take 3) then (handleHttpConnection sock first later).toList
      else relayDirect env vars n remoteEndpoint later

/-- `handle_conn` of a tunnel server: the relay it starts, with the destination of the tunnel. -/
def handleTunnelConn (env : EntryEnv) (dstHost : Bytes) (dstPort : UInt16) (sock : TcpSocket)
    (unread : List Bytes) : RelayCall :=
  ⟨sock, some [], unread,
    { user := env.user, remoteHost := dstHost, remotePort := dstPort,
      isTls := false, isTcp := true, direct := false }⟩

end Snova
