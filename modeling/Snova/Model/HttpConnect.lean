import Snova.Framework.Exec
import Snova.Model.ReadUntil

/-!
# A connection through an HTTP proxy

`connect_remote_via_http_proxy` (`snova/util/net_helper.cc`).  The client writes a CONNECT request
and reads up to the empty line behind the head of the response.  What has been read behind that
line stays in the buffer, which the function gives back to the pool: the client's tunnel begins with
what the socket has not read yet.
-/

namespace Snova

/-- `conn_req`. -/
def connReq (remoteHost : Bytes) (remotePort : UInt16) : Bytes :=
  let hostport := remoteHost ++ [58] ++ ascii (Nat.toDigits 10 remotePort.toNat)
  ascii "CONNECT ".toList ++ hostport ++ ascii " HTTP/1.1".toList ++ [13, 10] ++
    (ascii "Host: ".toList ++ hostport ++ [13, 10]) ++
    (ascii "Connection: keep-alive".toList ++ [13, 10]) ++
    (ascii "Proxy-Connection: keep-alive".toList ++ [13, 10, 13, 10])

def headEnd : Bytes := [13, 10, 13, 10]

/-- What `response_view` has to start with. -/
def isSuccess (response : Bytes) : Bool :=
  (ascii "HTTP/1.1 2".toList).isPrefixOf response || (ascii "HTTP/1.0 2".toList).isPrefixOf response

inductive ConnectPhase
  -- in `resolve_endpoint`, `async_connect` and `async_write`
  | resolving
  | connecting
  | writing
  -- in `read_until`
  | reading
  | succeeded
  -- the response has another status
  | refused
  -- one of the four has failed
  | failed
  deriving DecidableEq

structure HttpConnect where
  phase : ConnectPhase
  sent : Bytes
  response : ReadUntil
  -- the reads of the socket so far, and what the proxy sends behind them
  reads : List Bytes
  unread : Bytes

inductive HttpConnectAction
  | resolve (ok : Bool)
  | connect (ok : Bool)
  -- `async_write` returns when `n` bytes have been written, with an error if there are more
  | write (n : ℕ)
  -- a read returns `n` bytes, and none when it fails
  | read (n : ℕ)

namespace HttpConnect

def init (stream : Bytes) : HttpConnect := ⟨.resolving, [], ⟨[], 0, none⟩, [], stream⟩

/-- What follows `read_until`. -/
def verdict (response : ReadUntil) : ConnectPhase :=
  match response.rc with
  | none => .reading
  | some endPos =>
      if endPos < 0 then .failed
      else if isSuccess (response.buf.take endPos.toNat) then .succeeded else .refused

/-- A step of the call for `request`, which is given the buffer `buf`. -/
def step (request buf : Bytes) (s : HttpConnect) : HttpConnectAction → Option HttpConnect
  | .resolve ok =>
      if s.phase = .resolving then some { s with phase := if ok then .connecting else .failed }
      else none
  | .connect ok =>
      if s.phase = .connecting then some { s with phase := if ok then .writing else .failed }
      else none
  | .write n =>
      if s.phase = .writing ∧ n ≤ request.length then
        let s := { s with sent := request.take n }
        if n < request.length then some { s with phase := .failed }
        else
          let response := ReadUntil.loop headEnd buf 0
          some { s with response := response, phase := verdict response }
      else none
  | .read n =>
      if s.phase = .reading ∧ n ≤ s.unread.length then
        let data := s.unread.take n
        (s.response.onRead headEnd data).map fun response =>
          { s with
            response := response
            phase := verdict response
            reads := s.reads ++ [data]
            unread := s.unread.drop n }
      else none

end HttpConnect

end Snova
