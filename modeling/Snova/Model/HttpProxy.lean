import Snova.Model.Relay
import Snova.Model.TrustedNs

/-!
# HTTP proxy requests

`handle_http_connection` (`snova/server/http.cc`) with `read_until` (`snova/io/io_util.cc`),
`parse_http_hostport` and `http_get_header` (`snova/util/http_helper.cc`).

What arrives on the connection is a list of segments, one for each read that succeeds; a read
behind the last of them fails.  A socket variable holds the connection or, once it has been moved
from, nothing, and a read from such a variable fails.
-/

namespace Snova

/-! ## Views -/

/-- A `string_view` into a text: where it begins and its size. -/
structure StringView where
  pos : ℕ
  size : ℕ
  deriving DecidableEq

/-- The text a view shows. -/
def StringView.bytes (v : StringView) (text : Bytes) : Bytes := (text.drop v.pos).take v.size

/-- `absl::StripAsciiWhitespace` of a view. -/
def StringView.strip (v : StringView) (text : Bytes) : StringView where
  pos := v.pos + ((v.bytes text).takeWhile asciiIsSpace).length
  size := (stripAsciiWhitespace (v.bytes text)).length

/-- `http_get_header`, with its value as a view of the data; `none` for -1. -/
def httpGetHeaderView (recvData header : Bytes) : Option StringView := do
  let pos ← find header recvData
  let endPos ← findFrom [13, 10] recvData pos
  some (StringView.strip ⟨pos + header.length, endPos - pos - header.length⟩ recvData)

/-- `parse_http_hostport`. -/
def parseHttpHostport (recvData : Bytes) : Option Bytes :=
  httpGetHeader recvData (ascii "Host:".toList)

/-! ## Numbers and names -/

/-- `std::stoi`: `none` where it throws. -/
def stoi (text : Bytes) : Option ℤ :=
  let text := text.dropWhile asciiIsSpace
  let negative := text.head? = some 45
  let digits := (if text.head? = some 45 ∨ text.head? = some 43 then text.tail else text).takeWhile
    fun b => 48 ≤ b && b ≤ 57
  if digits = [] then none
  else
    let value : ℤ := digits.foldl (fun acc b => 10 * acc + (b.toNat - 48)) 0
    let value := if negative then -value else value
    if -2 ^ 31 ≤ value ∧ value < 2 ^ 31 then some value else none

/-- `absl::ascii_tolower`. -/
def asciiToLower (b : UInt8) : UInt8 := if 65 ≤ b ∧ b ≤ 90 then b + 32 else b

/-- `absl::EqualsIgnoreCase`. -/
def equalsIgnoreCase (a b : Bytes) : Bool := a.map asciiToLower = b.map asciiToLower

/-! ## The request -/

/-- A socket variable. -/
structure TcpSocket where
  isOpen : Bool
  deriving DecidableEq

/-- What a socket variable is after `std::move`. -/
def TcpSocket.movedFrom : TcpSocket := ⟨false⟩

/-- `read_until`: where `delim` begins, what has been read by then and what has not. -/
def readUntil (socket : TcpSocket) (delim : Bytes) :
    Bytes → List Bytes → Option (ℕ × Bytes × List Bytes)
  | buf, [] => (find delim buf).map fun pos => (pos, buf, [])
  | buf, segment :: later =>
      match find delim buf with
      | some pos => some (pos, buf, segment :: later)
      | none =>
          if socket.isOpen ∧ segment ≠ [] then readUntil socket delim (buf ++ segment) later
          else none

/-- A relay that is started: the socket it is given, the bytes that have been read already (`none`
if their buffer is gone), the segments that have not been read yet, and the context. -/
structure RelayCall where
  sock : TcpSocket
  readedData : Option Bytes
  unread : List Bytes
  ctx : RelayContext

/-- The host and the port of a `Host` header; `none` if the port is no number. -/
def hostAndPort (hostPort : Bytes) : Option (Bytes × UInt16) :=
  match hostPort.splitOn 58 with
  | [host, port] => (stoi port).map fun value => (host, UInt16.ofInt value)
  | _ => some (hostPort, 0)

/-- Where a request goes. -/
structure HttpRoute where
  isConnect : Bool
  remoteHost : Bytes
  remotePort : UInt16
  isTls : Bool
  deriving DecidableEq

/-- The route of a request with a method and a target; a port of 0 is none. -/
def methodRoute (method : Bytes) (target : Bytes × UInt16) : HttpRoute :=
  if equalsIgnoreCase method (ascii "CONNECT".toList) then
    ⟨true, target.1, if target.2 = 0 then 443 else target.2, target.2 = 0⟩
  else ⟨false, target.1, if target.2 = 0 then 80 else target.2, false⟩

/-- `handle_http_connection` on the headers, up to the relay; `none` if it rejects the request. -/
def httpRoute (headers : Bytes) : Option HttpRoute := do
  let view := stripAsciiWhitespace headers
  let hostPort ← parseHttpHostport view
  let target ← hostAndPort hostPort
  let pos ← find [32] view
  some (methodRoute (view.take pos) target)

/-- The context of the relay.  Its user is not set. -/
def HttpRoute.ctx (route : HttpRoute) : RelayContext where
  user := []
  remoteHost := route.remoteHost
  remotePort := route.remotePort
  isTls := route.isTls
  isTcp := true
  direct := false

/-- `handle_http_connection`: the relay it starts, if it does.  `first` has been read already. -/
def handleHttpConnection (s : TcpSocket) (first : Bytes) (later : List Bytes) :
    Option RelayCall := do
  let sock := s
  let s := TcpSocket.movedFrom
  let (endPos, readableData, unread) ← readUntil s [13, 10, 13, 10] first later
  let route ← httpRoute (readableData.take endPos)
  some ⟨sock, some (if route.isConnect then [] else readableData), unread, route.ctx⟩

end Snova
