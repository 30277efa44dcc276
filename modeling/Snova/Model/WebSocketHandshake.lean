import Snova.Framework.Exec
import Snova.Model.MuxEvent
import Snova.Model.TrustedNs
import Snova.Model.WebSocket

/-!
# The WebSocket handshake

`WebSocket::AsyncConnect` and `AsyncAccept` (`snova/io/ws_socket.cc`).  Each side reads the message
of the other one with a single `AsyncRead`, and takes what it gets for the whole of it: if the
message came in two pieces, the rest of it is what the side reads next.

The key is Base64 of the time, and the accept key Base64 of a hash of it
(`ws_get_accept_secret_key`, `snova/util/http_helper.cc`).  The client looks for the header with the
accept key, but not at its value.

The machine has the two sides and the bytes on their way between them.  The transport takes and
delivers as many of them as it likes, and a write or a read may fail at any of them.  Behind the
handshake a side writes what it likes, and the transport's pieces are those its reads find
(`BufferedIo.source`).
-/

namespace Snova

/-! ## Messages -/

def crlf : Bytes := [13, 10]

/-- The request of `AsyncConnect`. -/
def wsRequest (host wsSecKey : Bytes) : Bytes :=
  ascii "GET /echo HTTP/1.1".toList ++ crlf ++
    (ascii "Host: ".toList ++ host ++ crlf) ++
    (ascii "User-Agent: Go-http-client/1.1".toList ++ crlf) ++
    (ascii "Connection: Upgrade".toList ++ crlf) ++
    (ascii "Sec-WebSocket-Key: ".toList ++ wsSecKey ++ crlf) ++
    (ascii "Sec-WebSocket-Version: 13".toList ++ crlf) ++
    (ascii "Upgrade: websocket".toList ++ crlf ++ crlf)

/-- The response of `AsyncAccept`. -/
def wsResponse (respTextKey : Bytes) : Bytes :=
  ascii "HTTP/1.1 101 Switching Protocols".toList ++ crlf ++
    (ascii "Upgrade: websocket".toList ++ crlf) ++
    (ascii "Connection: Upgrade".toList ++ crlf) ++
    (ascii "Sec-WebSocket-Accept: ".toList ++ respTextKey ++ crlf ++ crlf)

def secWebSocketKey : Bytes := ascii "Sec-WebSocket-Key:".toList

def secWebSocketAccept : Bytes := ascii "Sec-WebSocket-Accept:".toList

/-! ## The two sides -/

inductive WsSide
  | client
  | server
  deriving DecidableEq

def WsSide.other : WsSide → WsSide
  | .client => .server
  | .server => .client

/-- What a side knows besides what it reads: how the server makes the accept key, and the page it
sends to somebody who does not ask for a WebSocket. -/
structure WsTexts where
  acceptKey : Bytes → Bytes
  errorPage : Bytes

/-- What `AsyncConnect` and `AsyncAccept` return: no error, `bad_message`, or the error of a read or
a write. -/
inductive WsResult
  | ok
  | badMessage
  | failed (ec : Int)
  deriving DecidableEq

/-- `AsyncConnect` up to its read: what it writes, and what it returns for the result `wec` of the
write, unless it goes on. -/
def wsAsyncConnect (host wsSecKey : Bytes) : Bytes × (Option Int → Option WsResult) :=
  (wsRequest host wsSecKey, fun wec => wec.map .failed)

/-- `AsyncConnect` from its read on. -/
def wsAsyncConnectRead (io : BufferedIo) : Except IoStop (WsResult × BufferedIo) := do
  let (recvResponse, io) ← io.asyncRead kMaxChunkSize
  match httpGetHeader recvResponse secWebSocketAccept with
  | none => return (.badMessage, io)
  | some _ => return (.ok, io)

/-- `AsyncAccept`: what it writes behind its read, and what it returns for the result `wec` of the
write. -/
def wsAsyncAccept (texts : WsTexts) (io : BufferedIo) :
    Except IoStop ((Bytes × (Option Int → Option WsResult)) × BufferedIo) := do
  let (recvRequest, io) ← io.asyncRead kMaxChunkSize
  match httpGetHeader recvRequest secWebSocketKey with
  -- The result of this write is not looked at.
  | none => return ((texts.errorPage, fun _ => some .badMessage), io)
  | some secWsKey =>
      return ((wsResponse (texts.acceptKey secWsKey), fun wec => some (wec.elim .ok .failed)), io)

/-! ## The machine -/

inductive WsPhase
  -- in the write of the request, or of the answer
  | writing
  -- in the read of the handshake
  | shaking
  | returned (result : WsResult)
  deriving DecidableEq

structure WsEnd where
  phase : WsPhase
  io : BufferedIo
  -- what the read of the handshake returned
  first : Bytes
  -- what the transport has taken of the message of the handshake, and what it has not
  said : Bytes
  unsent : Bytes
  -- what is returned behind the write
  behind : Option Int → Option WsResult
  -- what was written behind the handshake
  written : Bytes

structure WsPair where
  side : WsSide → WsEnd
  -- the bytes on their way to a side
  toward : WsSide → Bytes

inductive WsAction
  -- the transport takes `n` bytes of the message of a side, or the write of it fails
  | send (e : WsSide) (n : ℕ)
  | writeError (e : WsSide) (ec : Int)
  -- the transport delivers `n` bytes to a side, or the read of the handshake fails
  | deliver (e : WsSide) (n : ℕ)
  | readError (e : WsSide) (ec : Int)
  -- a side writes, behind the handshake
  | write (e : WsSide) (bs : Bytes)

/-- The write of the handshake has returned `wec`. -/
def WsEnd.wrote (f : WsEnd) (wec : Option Int) : WsEnd :=
  match f.behind wec with
  | some result => { f with phase := .returned result }
  | none => { f with phase := .shaking }

/-- The transport has taken `n` bytes.  The write returns when there are no more. -/
def WsEnd.sent (f : WsEnd) (n : ℕ) : WsEnd :=
  let f' := { f with said := f.said ++ f.unsent.take n, unsent := f.unsent.drop n }
  if f'.unsent = [] then f'.wrote none else f'

namespace WsPair

/-- The client begins to write its request. -/
def init (host wsSecKey : Bytes) : WsPair where
  side
    | .client =>
        let (request, behind) := wsAsyncConnect host wsSecKey
        ⟨.writing, ⟨[], 0, []⟩, [], [], request, behind, []⟩
    | .server => ⟨.shaking, ⟨[], 0, []⟩, [], [], [], fun _ => none, []⟩
  toward _ := []

def setSide (s : WsPair) (e : WsSide) (f : WsEnd) : WsPair :=
  { s with side := Function.update s.side e f }

def send (s : WsPair) (e : WsSide) (bs : Bytes) : WsPair :=
  { s with toward := Function.update s.toward e (s.toward e ++ bs) }

/-- The read of the handshake returns a piece. -/
def handshake (texts : WsTexts) (s : WsPair) (e : WsSide) (piece : Bytes) : Option WsPair :=
  let f := s.side e
  let io := { f.io with source := f.io.source ++ [.ok piece] }
  match e with
  | .client =>
      match wsAsyncConnectRead io with
      | .error _ => none
      | .ok (result, io) =>
          some (s.setSide .client { f with phase := .returned result, io := io, first := piece })
  | .server =>
      match wsAsyncAccept texts io with
      | .error _ => none
      | .ok ((answer, behind), io) =>
          some (s.setSide .server { f with
            phase := .writing
            io := io
            first := piece
            unsent := answer
            behind := behind })

def step (texts : WsTexts) (s : WsPair) : WsAction → Option WsPair
  | .send e n =>
      let f := s.side e
      if f.phase = .writing ∧ n ≤ f.unsent.length then
        some ((s.setSide e (f.sent n)).send e.other (f.unsent.take n))
      else none
  | .writeError e ec =>
      let f := s.side e
      if f.phase = .writing then some (s.setSide e (f.wrote (some ec))) else none
  | .deliver e n =>
      let piece := (s.toward e).take n
      if 0 < n ∧ n ≤ (s.toward e).length ∧ n ≤ kMaxChunkSize then
        let s' := { s with toward := Function.update s.toward e ((s.toward e).drop n) }
        match (s.side e).phase with
        | .shaking => s'.handshake texts e piece
        | .returned .ok =>
            let f := s.side e
            some (s'.setSide e { f with io := { f.io with source := f.io.source ++ [.ok piece] } })
        | _ => none
      else none
  | .readError e ec =>
      let f := s.side e
      if f.phase = .shaking then
        some (s.setSide e { f with phase := .returned (.failed ec) })
      else none
  | .write e bs =>
      let f := s.side e
      if f.phase = .returned .ok then
        some ((s.setSide e { f with written := f.written ++ bs }).send e.other bs)
      else none

end WsPair

end Snova
