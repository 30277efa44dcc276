import Snova.Model.MuxSession

/-!
# Relaying a stream through a chain of nodes

`do_relay` and `relay_handler` (`snova/server/relay.cc`) in the direction from the client to the
server: an entry node takes the bytes of a connection, a middle node the chunks of a stream, and
either opens a stream to the next node and writes them to it; an exit node connects to the
destination.  `NodeRole` is an enumeration, as `main` accepts one role only
(`snova/app/snova.cc`).

A hop is the stream between two neighbours, with the events one of them writes to it.  The nodes
are connected: `GetRelayEventWriterFactory` finds the next one, and what is written to it arrives
there, in its order.
-/

namespace Snova

inductive NodeRole
  | entry
  | middle
  | exit
  deriving DecidableEq

/-- `RelayContext`. -/
structure RelayContext where
  user : Bytes
  remoteHost : Bytes
  remotePort : UInt16
  isTls : Bool
  isTcp : Bool
  direct : Bool

/-- A node of a chain, and the id it gives the stream it opens. -/
structure RelayNode where
  role : NodeRole
  sid : UInt32
  -- the user that the previous node authenticated as
  authUser : Bytes

/-- The stream between two nodes: the request that opens it and the chunks written to it. -/
structure Hop where
  openRequest : StreamOpenRequest
  chunks : List MuxEvent

/-- The chunk that `MuxStream::Write` makes of a buffer. -/
def streamChunk (isEntryNode : Bool) (sid : UInt32) (st : SendStream) (buf : Bytes) : MuxEvent :=
  .ofBody (.streamChunk (some buf) (UInt32.ofNat buf.length)
    (by rw [UInt32.toNat_ofNat', Option.getD_some]; exact Nat.mod_le _ _)) sid
    (SessionState.chunkFlags isEntryNode st)

/-- `transfer` into a stream: a `Write` for each buffer that is read. -/
def transferChunks (isEntryNode : Bool) (sid : UInt32) : SendStream → List Bytes → List MuxEvent
  | _, [] => []
  | st, buf :: reads =>
      streamChunk isEntryNode sid st buf ::
        transferChunks isEntryNode sid { st with writeBytes := st.writeBytes + buf.length } reads

/-- `do_relay`: `none` if the node connects to the destination itself.  `readedData` has been read
already, `reads` is what `transfer` reads. -/
def doRelay (node : RelayNode) (readedData : Bytes) (reads : List Bytes) (ctx : RelayContext) :
    Option Hop :=
  if node.role = .exit ∨ ctx.direct = true then none
  else
    let stream : SendStream := { made := true, isTls := ctx.isTls }
    some
      { openRequest := SessionState.openRequest ctx.remoteHost ctx.remotePort.toUInt32 ctx.isTcp
          ctx.isTls
        chunks := transferChunks (node.role = .entry) node.sid stream
          ((if readedData = [] then [] else [readedData]) ++ reads) }

/-- `relay`. -/
def relay (node : RelayNode) (readedData : Bytes) (reads : List Bytes) (ctx : RelayContext) :
    Option Hop :=
  doRelay node readedData reads { ctx with direct := false }

/-- The context that `relay_handler` makes of a request. -/
def relayHandler (authUser : Bytes) (request : StreamOpenRequest) : RelayContext where
  user := authUser
  remoteHost := request.remoteHost.bytes
  remotePort := request.remotePort.toUInt16
  isTls := request.isTls
  isTcp := request.isTcp
  direct := false

/-- The hops of a stream behind a node that relays it: every further node runs `relay_handler` on
the request and transfers the chunks. -/
def relayHops : List RelayNode → Hop → List Hop
  | [], _ => []
  | node :: nodes, hop =>
      let reads := hop.chunks.filterMap fun ev => ev.body.chunkBytes
      match doRelay node [] reads (relayHandler node.authUser hop.openRequest) with
      | none => []
      | some next => next :: relayHops nodes next

/-- All hops of a stream that an entry node relays to further nodes. -/
def relayChain (first : RelayNode) (nodes : List RelayNode) (readedData : Bytes)
    (reads : List Bytes) (ctx : RelayContext) : List Hop :=
  match relay first readedData reads ctx with
  | none => []
  | some hop => hop :: relayHops nodes hop

end Snova
