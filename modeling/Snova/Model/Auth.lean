import Snova.Model.ReadEvent
import Snova.Model.Write

/-!
# Authenticating a connection

`MuxConnection::ClientAuth` and `MuxConnection::ServerAuth` (`snova/mux/mux_connection.cc`), and
what their callers do with a connection afterwards: `handle_conn` (`snova/server/mux_server.cc`)
runs `ReadEventLoop` on it if `ServerAuth` succeeded and drops it otherwise, and so does
`MuxClient::NewConnection` on the other side.

`Endpoint` is one end of a connection.  Its coroutines are given by the code between their
suspension points: `clientAuth` and `serverAuth` start the two handshakes, `afterWrite` continues
what waited for an `AsyncWrite`, and `afterRead` what waited for an `AsyncRead`.  During the
handshake nobody else uses the connection.  Later any coroutine may write, one at a time because
of the write mutex, and the read loop calls `ReadEvent` again and again.

`AuthState` connects two ends.  The bytes an end has transmitted and the other has not read yet
are its `link`; the transport moves them on in pieces of any size, and an `AsyncWrite` that
reports an error is the last one that transmitted anything.
-/

namespace Snova

/-- `MuxConnectionType`. -/
inductive MuxConnectionType
  | entry
  | exit
  deriving DecidableEq

/-- The role of a node: `g_is_entry_node`, `g_is_exit_node`, `g_is_middle_node`. -/
structure NodeFlags where
  isEntryNode : Bool := false
  isExitNode : Bool := false
  isMiddleNode : Bool := false

/-- The largest value of `random_uint64(0, 102 * 1024 * 1024LL)`. -/
def maxAuthIv : UInt64 := 102 * 1024 * 1024

/-- Where an end of a connection stands. -/
inductive AuthPhase
  | start
  -- `ClientAuth`: in `WriteEvent`, then in `ReadEvent`
  | writingRequest (user : Bytes)
  | readingResponse (user : Bytes) (current : Span)
  -- `ServerAuth`: in `ReadEvent`, with the number `random_uint64` will give, then in `WriteEvent`
  | readingRequest (iv : UInt64) (current : Span)
  | writingResponse (request : AuthRequest) (iv : UInt64)
  -- the handshake reported failure, or success
  | failed
  | ready (reading : ReadPhase)

/-- `current_read_buffer` of a pending `AsyncRead`. -/
def AuthPhase.current : AuthPhase → Option Span
  | .readingResponse _ current => some current
  | .readingRequest _ current => some current
  | .ready (.reading current) => some current
  | _ => none

/-- One end of a connection. -/
structure Endpoint where
  isLocal : Bool
  flags : NodeFlags
  type : MuxConnectionType
  clientId : UInt64
  authUser : Bytes
  isAuthed : Bool
  reader : Reader
  phase : AuthPhase
  -- the frame of a pending `AsyncWrite`, and how much of it the transport has taken
  sending : Option (Bytes × ℕ)
  sendFailed : Bool
  link : Bytes
  -- the iv of the `AuthResponse` this end wrote or accepted
  authIv : Option UInt64
  -- what was encrypted for the peer, and what was read, after the handshake
  written : List MuxEvent
  events : List MuxEvent
  -- the calls of `Encrypt`: what they returned, and their calls of `EVP_AEAD_CTX_seal`
  encrypts : List (Int × List SealCall)

inductive EndpointAction
  | clientAuth (user : Bytes) (clientId : UInt64)
  | serverAuth (iv : UInt64)
  -- the transport takes `n` bytes of the pending `AsyncWrite`, which then completes or fails
  | transmit (n : ℕ)
  | written
  | writeError
  -- the pending `AsyncRead` fails, or reaches the end of the stream
  | readError (rc : Int)
  -- on an authenticated connection, a call of `Write` gets the mutex, and the read loop turns
  | write (event : MuxEvent)
  | readEvent

namespace Endpoint

variable (A : Aead) (pb : Nanopb)

/-- `MuxConnection::MuxConnection`. -/
def new (type : MuxConnectionType) (ctx : CipherContext) (isLocal : Bool) (flags : NodeFlags) :
    Endpoint where
  isLocal := isLocal
  flags := flags
  type := type
  clientId := 0
  authUser := []
  isAuthed := false
  reader := .new ctx
  phase := .start
  sending := none
  sendFailed := false
  link := []
  authIv := none
  written := []
  events := []
  encrypts := []

def setReader (e : Endpoint) (r : Reader) : Endpoint := { e with reader := r }

def setCtx (e : Endpoint) (ctx : CipherContext) : Endpoint :=
  e.setReader { e.reader with cipherCtx := ctx }

def setClientId (e : Endpoint) (clientId : UInt64) : Endpoint := { e with clientId := clientId }

def setType (e : Endpoint) (type : MuxConnectionType) : Endpoint := { e with type := type }

def setAuthUser (e : Endpoint) (user : Bytes) : Endpoint := { e with authUser := user }

def setAuthIv (e : Endpoint) (iv : UInt64) : Endpoint := { e with authIv := some iv }

def enter (e : Endpoint) (phase : AuthPhase) : Endpoint := { e with phase := phase }

/-! ## Writing -/

def logEncrypt (e : Endpoint) (rc : Int) (seals : List SealCall) : Endpoint :=
  { e with encrypts := e.encrypts ++ [(rc, seals)] }

/-- `AsyncWrite` begins. -/
def asyncWrite (e : Endpoint) (frame : Bytes) : Endpoint := { e with sending := some (frame, 0) }

/-- `Write` from the return of `Lock` to the suspension in `AsyncWrite`; false if `Encrypt`
failed. -/
def startWrite (e : Endpoint) (event : MuxEvent) : Endpoint × Bool :=
  let r := e.reader.cipherCtx.encrypt A pb event writeBufferSize
  let e := (e.setCtx r.ctx).logEncrypt r.rc r.seals
  if r.rc ≠ 0 then (e, false) else (e.asyncWrite r.out, true)

/-- The bytes of the pending `AsyncWrite` that the transport has not taken. -/
def unsent (e : Endpoint) : Bytes :=
  match e.sending with
  | some (frame, sent) => frame.drop sent
  | none => []

/-- A call of `Write` on an authenticated connection. -/
def write (e : Endpoint) (event : MuxEvent) : Endpoint :=
  match e.startWrite A pb event with
  | (e', true) => { e' with written := e.written ++ [event] }
  | (e', false) => e'

/-! ## ClientAuth -/

/-- The request of `ClientAuth`. -/
def authRequest (flags : NodeFlags) (user : Bytes) (clientId : UInt64) : AuthRequest where
  user := .snprintf 256 pos_256 user
  clientId := clientId
  isEntry := flags.isEntryNode
  isExit := flags.isExitNode
  isMiddle := flags.isMiddleNode

/-- `MuxConnection::ClientAuth`. -/
def clientAuth (e : Endpoint) (user : Bytes) (clientId : UInt64) : Endpoint :=
  if e.isLocal = false then e.enter .failed
  else
    match (e.setClientId clientId).startWrite A pb
        (.ofBody (.proto .authRequest (authRequest e.flags user clientId))) with
    | (e, true) => e.enter (.writingRequest user)
    | (e, false) => e.enter .failed

/-- `UpdateNonce`. -/
def updateNonce (e : Endpoint) (iv : UInt64) : Endpoint :=
  e.setCtx (e.reader.cipherCtx.updateNonce iv)

/-- The end of `ClientAuth` after a positive response. -/
def accept (e : Endpoint) (user : Bytes) (iv : UInt64) : Endpoint :=
  { ((e.updateNonce iv).setAuthUser user).setAuthIv iv with isAuthed := true }.enter
    (.ready .idle)

/-- `ClientAuth` when its `ReadEvent` has run. -/
def afterResponse (e : Endpoint) (user : Bytes) : Reader × ReadStatus → Endpoint
  | (r, .reading current) => (e.setReader r).enter (.readingResponse user current)
  | (r, .returned rc event) =>
      if rc ≠ 0 then (e.setReader r).enter .failed
      else
        match event.map MuxEvent.body with
        | some (.proto .authResponse response) =>
            if response.success then (e.setReader r).accept user response.iv
            else ((e.setReader r).setAuthUser user).enter .failed
        | _ => (e.setReader r).enter .failed

/-! ## ServerAuth -/

/-- A client may not have a role the server has. -/
def roleConflict (flags : NodeFlags) (request : AuthRequest) : Bool :=
  (flags.isEntryNode && request.isEntry) || (flags.isExitNode && request.isExit) ||
    (flags.isMiddleNode && request.isMiddle)

/-- The type of the server's connection. -/
def authType (request : AuthRequest) : MuxConnectionType :=
  if request.isEntry then .entry else if request.isExit then .exit else .entry

/-- The last part of `ServerAuth`, when its `WriteEvent` has returned. -/
def finishServerAuth (e : Endpoint) (request : AuthRequest) (iv : UInt64) (success : Bool) :
    Endpoint :=
  let e := if success then e.updateNonce iv else e
  ((e.setClientId request.clientId).setAuthUser request.user.bytes).enter
    (if success then .ready .idle else .failed)

/-- `ServerAuth` from a request to the suspension in `WriteEvent`. -/
def answer (e : Endpoint) (request : AuthRequest) (iv : UInt64) : Endpoint :=
  if roleConflict e.flags request then e.enter .failed
  else
    match (e.setType (authType request)).startWrite A pb
        (.ofBody (.proto .authResponse { success := true, iv := iv })) with
    | (e, true) => (e.setAuthIv iv).enter (.writingResponse request iv)
    | (e, false) => e.finishServerAuth request iv false

/-- `ServerAuth` when its `ReadEvent` has run. -/
def afterRequest (e : Endpoint) (iv : UInt64) : Reader × ReadStatus → Endpoint
  | (r, .reading current) => (e.setReader r).enter (.readingRequest iv current)
  | (r, .returned rc event) =>
      if rc ≠ 0 then (e.setReader r).enter .failed
      else
        match event.map MuxEvent.body with
        | some (.proto .authRequest request) => (e.setReader r).answer A pb request iv
        | _ => (e.setReader r).enter .failed

/-- `MuxConnection::ServerAuth`. -/
def serverAuth (e : Endpoint) (iv : UInt64) : Endpoint :=
  if e.isLocal then e.enter .failed
  else e.afterRequest A pb iv (e.reader.readEvent A pb)

/-! ## The connection's coroutines -/

/-- The read loop when its `ReadEvent` has run. -/
def afterLoopRead (e : Endpoint) : Reader × ReadStatus → Endpoint
  | (r, .reading current) => (e.setReader r).enter (.ready (.reading current))
  | (r, .returned rc event) =>
      if rc = 0 then
        { e.setReader r with events := e.events ++ event.toList }.enter (.ready .idle)
      else (e.setReader r).enter (.ready (.failed rc))

/-- The coroutine that waited for an `AsyncRead`. -/
def afterRead (e : Endpoint) (p : Reader × ReadStatus) : Endpoint :=
  match e.phase with
  | .readingResponse user _ => e.afterResponse user p
  | .readingRequest iv _ => e.afterRequest A pb iv p
  | _ => e.afterLoopRead p

/-- The coroutine that waited for an `AsyncWrite`. -/
def afterWrite (e : Endpoint) (success : Bool) : Endpoint :=
  match e.phase with
  | .writingRequest user =>
      if success then e.afterResponse user (e.reader.readEvent A pb)
      else e.enter .failed
  | .writingResponse request iv => e.finishServerAuth request iv success
  | _ => e

/-- What an end does by itself. -/
def step (e : Endpoint) : EndpointAction → Option Endpoint
  | .clientAuth user clientId =>
      match e.phase with
      | .start => some (e.clientAuth A pb user clientId)
      | _ => none
  | .serverAuth iv =>
      match e.phase with
      | .start => if iv ≤ maxAuthIv then some (e.serverAuth A pb iv) else none
      | _ => none
  | .transmit n =>
      match e.sending with
      | some (frame, sent) =>
          if e.sendFailed = false ∧ 0 < n ∧ sent + n ≤ frame.length then
            some { e with
              link := e.link ++ (frame.drop sent).take n
              sending := some (frame, sent + n) }
          else none
      | none => none
  | .written =>
      match e.sending with
      | some (frame, sent) =>
          if sent = frame.length then some ({ e with sending := none }.afterWrite A pb true)
          else none
      | none => none
  | .writeError =>
      match e.sending with
      | some _ => some ({ e with sending := none, sendFailed := true }.afterWrite A pb false)
      | none => none
  | .readError rc =>
      match e.phase, e.phase.current with
      | .ready _, some current =>
          if rc = 0 then none
          else some ((e.setReader (e.reader.readEventError current rc).1).enter
            (.ready (.disconnected rc)))
      | _, some current =>
          if rc = 0 then none else some (e.afterRead A pb (e.reader.readEventError current rc))
      | _, none => none
  | .write event =>
      match e.phase, e.sending with
      | .ready _, none => some (e.write A pb event)
      | _, _ => none
  | .readEvent =>
      match e.phase with
      | .ready .idle => some (e.afterLoopRead (e.reader.readEvent A pb))
      | _ => none

/-- The pending `AsyncRead` delivers bytes: at least one, and no more than it has room for. -/
def data (e : Endpoint) (bs : Bytes) : Option Endpoint :=
  match e.phase.current with
  | some current =>
      if h : bs ≠ [] ∧ current.len + bs.length ≤ readBufferSize then
        some (e.afterRead A pb (e.reader.readEventResume A pb current bs (room_of_piece h)))
      else none
  | none => none

end Endpoint

/-! ## Two ends -/

structure AuthState where
  client : Endpoint
  server : Endpoint

inductive AuthAction
  | client (a : EndpointAction)
  | server (a : EndpointAction)
  -- the transport moves `n` bytes to the client, or to the server
  | toClient (n : ℕ)
  | toServer (n : ℕ)

namespace AuthState

variable (A : Aead) (pb : Nanopb)

/-- The connections `MuxClient::NewConnection` and `handle_conn` make, before the handshake. -/
def init (ctx : CipherContext) (clientType : MuxConnectionType) (clientFlags : NodeFlags)
    (serverFlags : NodeFlags) : AuthState where
  client := .new clientType ctx true clientFlags
  server := .new .entry ctx false serverFlags

def step (s : AuthState) : AuthAction → Option AuthState
  | .client a => (s.client.step A pb a).map fun e => { s with client := e }
  | .server a => (s.server.step A pb a).map fun e => { s with server := e }
  | .toClient n =>
      (s.client.data A pb (s.server.link.take n)).map fun e =>
        { client := e, server := { s.server with link := s.server.link.drop n } }
  | .toServer n =>
      (s.server.data A pb (s.client.link.take n)).map fun e =>
        { client := { s.client with link := s.client.link.drop n }, server := e }

end AuthState

end Snova
