import Snova.Model.MuxEvent

/-!
# Opening tunnels on a new connection

`MuxClient::NewConnection` (`snova/mux/mux_client.cc`) on an exit node, from the point where the
connection is authenticated: `OpenTunnel` for each remote tunnel option, then `ReadEventLoop`
(`snova/mux/mux_connection.cc`).  `OpenTunnel` writes its request and takes the next event it
reads as the response.

The entry node has registered the connection by then, and its relays may write to it.  What
arrives is a list here, in the order in which it arrives; a prefix of the list is what has arrived
up to some moment.
-/

namespace Snova

/-- What a call of `ReadEvent` returns. -/
inductive Incoming
  | event (event : MuxEvent)
  | error (rc : Int)

/-- `RemoteTunnelOption`. -/
structure RemoteTunnelOption where
  remotePort : UInt16
  localHost : Bytes
  localPort : UInt16

/-- `dynamic_cast<TunnelOpenResponse*>`. -/
def MuxEvent.tunnelOpenResponse? (event : MuxEvent) : Option TunnelOpenResponse :=
  match event.body with
  | .proto .tunnelOpenResponse message => some message
  | _ => none

/-- The request `OpenTunnel` writes. -/
def tunnelOpenRequest (opt : RemoteTunnelOption) (isTcp : Bool) : MuxEvent :=
  .ofBody (.proto .tunnelOpenRequest
    { localHost := .snprintf 512 pos_512 opt.localHost
      localPort := opt.localPort.toUInt32
      remotePort := opt.remotePort.toUInt32
      isTcp := isTcp })

inductive OpenResult
  -- in `ReadEvent`
  | waiting
  | returned (success : Bool) (rest : List Incoming)
  -- `tunnel_res_event->head` of a null pointer
  | nullDeref

/-- `MuxConnection::OpenTunnel`, with the outcome of its `WriteEvent`.  `logsErrors` says whether
the arguments of `SNOVA_ERROR` are evaluated. -/
def openTunnel (logsErrors written : Bool) (incoming : List Incoming) : OpenResult :=
  if written then
    match incoming with
    | [] => .waiting
    | .error _ :: rest => .returned false rest
    | .event event :: rest =>
        match event.tunnelOpenResponse? with
        | none => if logsErrors then .nullDeref else .returned false rest
        | some response => .returned response.success rest
  else .returned false incoming

/-- The cases of `ProcessReadEvent`. -/
inductive ReadCase
  | retireConn
  | tunnelServerHandler
  | serverRelay
  | streamClose
  | streamOffer
  | unknown

def MuxEvent.readCase (event : MuxEvent) : ReadCase :=
  if event.head.type = 6 then .retireConn
  else if event.head.type = 7 then .tunnelServerHandler
  else if event.head.type = 3 then .serverRelay
  else if event.head.type = 4 then .streamClose
  else if event.head.type = 5 then .streamOffer
  else .unknown

inductive ConnPhase
  -- in `ReadEvent` of `OpenTunnel`, or of `ReadEventLoop`
  | opening
  | looping
  -- `NewConnection` returned an error, or `ReadEventLoop` has ended
  | failed
  | closed
  | nullDeref

/-- How far a connection has come: the requests written, what the calls of `OpenTunnel` returned,
and the events dispatched by the read loop. -/
structure ConnOutcome where
  phase : ConnPhase
  requests : List MuxEvent := []
  results : List Bool := []
  dispatched : List (MuxEvent × ReadCase) := []

/-- `MuxConnection::ReadEventLoop`. -/
def readEventLoop : List Incoming → ConnOutcome
  | [] => { phase := .looping }
  | .event event :: rest =>
      let outcome := readEventLoop rest
      { outcome with dispatched := (event, event.readCase) :: outcome.dispatched }
  | .error rc :: rest =>
      if rc ≠ 0 ∧ rc ≠ ERR_NEED_MORE_INPUT_DATA then { phase := .closed } else readEventLoop rest

/-- A call of `OpenTunnel` that returned, before the rest. -/
def ConnOutcome.after (outcome : ConnOutcome) (opt : RemoteTunnelOption) : ConnOutcome :=
  { outcome with
    requests := tunnelOpenRequest opt true :: outcome.requests
    results := true :: outcome.results }

/-- `NewConnection` behind `ClientAuth`, with the tunnel options and whether the request for each
of them is written. -/
def newConnection (logsErrors : Bool) :
    List (RemoteTunnelOption × Bool) → List Incoming → ConnOutcome
  | [], incoming => readEventLoop incoming
  | (opt, written) :: tunnels, incoming =>
      let requests := if written then [tunnelOpenRequest opt true] else []
      match openTunnel logsErrors written incoming with
      | .waiting => { phase := .opening, requests := requests }
      | .nullDeref => { phase := .nullDeref, requests := requests }
      | .returned false _ => { phase := .failed, requests := requests, results := [false] }
      | .returned true rest => (newConnection logsErrors tunnels rest).after opt

end Snova
