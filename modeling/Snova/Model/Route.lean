import Snova.Model.Connection
import Snova.Model.MuxStream
import Snova.Model.Relay

/-!
# From socket to socket

The bytes of many sockets on their way through one connection: for each socket of one node the
`transfer` into its stream (`snova/io/transfer.cc`), whose `MuxStream::Write`
(`snova/mux/mux_stream.cc`) calls `MuxConnection::Write`; on the other node `ReadEventLoop` with
`ProcessReadEvent` (`snova/mux/mux_connection.cc`), which offers the chunks to the streams; and for
each stream the `transfer` out of it.

The connection is a `Connection`, the receiving half of a stream a `StreamState` whose only offering
coroutine is the read loop.  The streams of the second node appear, in `relay_handler`, and are
closed when its coroutines please.  A write that fails ends its transfer here: the further attempts
of `WriteEvent` go to other connections.  What `ProcessReadEvent` answers to a chunk it has no
stream for goes the other way.
-/

namespace Snova

/-- Where the transfer from a socket to a stream stands. -/
inductive SourcePc
  -- in `async_read_some`
  | reading
  -- in `Write`, with the number of its call on the connection
  | writing (call : ℕ)
  -- behind its loop, in the request of `Close(false)`
  | closing (call : ℕ)
  | ended
  deriving DecidableEq

structure Source where
  stream : SendStream
  pc : SourcePc
  read : List Bytes

/-- Where the transfer from a stream to a socket stands. -/
inductive SinkPc
  -- at the beginning of its loop
  | starting
  -- in `Read`
  | reading
  -- in `async_write`
  | writing (chunk : Bytes)
  | ended
  deriving DecidableEq

/-- A stream of the second node, with the transfer out of it, what that has written to the socket,
and the chunks that came when the stream was not there. -/
structure Outlet where
  made : Bool
  registered : Bool
  stream : StreamState Unit Bytes
  pc : SinkPc
  written : List Bytes
  dropped : List Bytes

structure Route (κ : Type) where
  isEntryNode : Bool
  -- the stream of each transfer
  sid : κ → UInt32
  conn : Connection κ
  source : κ → Source
  -- how many of the events have been processed, and the stream `ProcessReadEvent` is offering to
  processed : ℕ
  offering : Option UInt32
  outlet : UInt32 → Outlet

inductive RouteAction (κ : Type)
  -- a socket of the first node delivers bytes, or ends; the writer goes on as far as it gets
  | sourceRead (c : κ) (buf : Bytes) (env : WriteEnv)
  | sourceEnd (c : κ) (env : WriteEnv)
  -- the call of `Write` has returned
  | sourceResume (c : κ)
  -- the connection
  | conn (a : ConnectionAction κ)
  -- `ReadEvent` has returned an event
  | process
  -- `Offer` returns
  | offerResume
  -- the second node: `MuxStream::New` and `Close(false)`
  | register (sid : UInt32)
  | closeOutlet (sid : UInt32)
  -- the transfer out of a stream
  | sinkRead (sid : UInt32)
  | sinkResume (sid : UInt32)
  | sinkWrote (sid : UInt32) (success : Bool)

/-- The bytes of a chunk for a stream. -/
def chunkOf (sid : UInt32) (event : MuxEvent) : Option Bytes :=
  if event.head.sid = sid then event.body.chunkBytes else none

namespace Route

variable {κ : Type} [DecidableEq κ] (A : Aead) (pb : Nanopb)

def newSource (isTls : Bool) : Source := ⟨{ made := true, isTls := isTls }, .reading, []⟩

def newOutlet : Outlet := ⟨false, false, .init, .starting, [], []⟩

def init (isEntryNode : Bool) (sid : κ → UInt32) (isTls : κ → Bool)
    (sender receiver : CipherContext) (masks : Bool) : Route κ where
  isEntryNode := isEntryNode
  sid := sid
  conn := .init sender receiver masks
  source := fun c => newSource (isTls c)
  processed := 0
  offering := none
  outlet := fun _ => newOutlet

def setSource (s : Route κ) (c : κ) (source : Source) : Route κ :=
  { s with source := Function.update s.source c source }

def setOutlet (s : Route κ) (sid : UInt32) (o : Outlet) : Route κ :=
  { s with outlet := Function.update s.outlet sid o }

def stepConn (s : Route κ) (a : ConnectionAction κ) : Option (Route κ) :=
  (s.conn.step A pb a).map fun conn => { s with conn := conn }

/-- `MuxStream::Write` of a buffer. -/
def writeChunk (s : Route κ) (c : κ) (buf : Bytes) (env : WriteEnv) : Option (Route κ) :=
  let st := (s.source c).stream
  (s.stepConn A pb (.write (.write c (streamChunk s.isEntryNode (s.sid c) st buf) env))).map
    fun s' => s'.setSource c
      { stream := { st with writeBytes := st.writeBytes + buf.length }
        pc := .writing s.conn.writer.calls
        read := (s.source c).read ++ [buf] }

/-- The request of `MuxStream::Close(false)`. -/
def writeClose (s : Route κ) (c : κ) (env : WriteEnv) : Option (Route κ) :=
  (s.stepConn A pb (.write (.write c (.ofBody .streamCloseRequest (s.sid c)) env))).map
    fun s' => s'.setSource c { s.source c with pc := .closing s.conn.writer.calls }

/-- The call of `Write` of a transfer has returned. -/
def resumeSource (s : Route κ) (c : κ) : Option (Route κ) :=
  match s.conn.writer.job c, (s.source c).pc with
  | .idle, .writing call =>
      some (s.setSource c { s.source c with
        pc := if s.conn.writer.returned.contains (call, true) then .reading else .ended })
  | .idle, .closing _ => some (s.setSource c { s.source c with pc := .ended })
  | _, _ => none

/-- `MuxStream::Close`, as far as the receiving half goes. -/
def close (s : Route κ) (sid : UInt32) : Route κ :=
  s.setOutlet sid { s.outlet sid with
    registered := false
    stream := (s.outlet sid).stream.stepClose }

/-- A chunk for a stream that is in the table. -/
def offer (s : Route κ) (sid : UInt32) (chunk : Bytes) : Route κ :=
  let stream := (s.outlet sid).stream.stepOffer () chunk
  { s.setOutlet sid { s.outlet sid with stream := stream } with
    offering := if stream.offerPc () = .idle then none else some sid }

/-- `ProcessReadEvent` behind `ReadEvent`. -/
def processEvent (s : Route κ) (event : MuxEvent) : Route κ :=
  let sid := event.head.sid
  match event.body.chunkBytes with
  | some chunk =>
      if (s.outlet sid).registered then s.offer sid chunk
      else
        s.setOutlet sid { s.outlet sid with dropped := (s.outlet sid).dropped ++ [chunk] }
  | none =>
      match event.body with
      | .streamCloseRequest => if (s.outlet sid).registered then s.close sid else s
      | _ => s

def step (s : Route κ) : RouteAction κ → Option (Route κ)
  | .sourceRead c buf env =>
      if (s.source c).pc = .reading ∧ buf ≠ [] ∧ buf.length ≤ kMaxChunkSize then
        s.writeChunk A pb c buf env
      else none
  | .sourceEnd c env => if (s.source c).pc = .reading then s.writeClose A pb c env else none
  | .sourceResume c => s.resumeSource c
  | .conn (.write (.write ..)) => none
  | .conn .readEvent =>
      if s.processed = s.conn.reader.events.length ∧ s.offering = none then
        s.stepConn A pb .readEvent
      else none
  | .conn a => s.stepConn A pb a
  | .process =>
      match s.offering, s.conn.reader.events[s.processed]? with
      | none, some event => some { s.processEvent event with processed := s.processed + 1 }
      | _, _ => none
  | .offerResume =>
      match s.offering with
      | some sid =>
          ((s.outlet sid).stream.step (.offerResume ())).map fun stream =>
            { s.setOutlet sid { s.outlet sid with stream := stream } with offering := none }
      | none => none
  | .register sid =>
      if (s.outlet sid).made then none
      else some (s.setOutlet sid { s.outlet sid with made := true, registered := true })
  | .closeOutlet sid => if (s.outlet sid).registered then some (s.close sid) else none
  | .sinkRead sid =>
      if (s.outlet sid).made = true ∧ (s.outlet sid).pc = .starting then
        ((s.outlet sid).stream.step .read).map fun stream =>
          s.setOutlet sid { s.outlet sid with
            stream := stream
            pc := if (s.outlet sid).stream.stream.closed then .ended else .reading }
      else none
  | .sinkResume sid =>
      if (s.outlet sid).pc = .reading then
        ((s.outlet sid).stream.step .readResume).map fun stream =>
          s.setOutlet sid { s.outlet sid with
            stream := stream
            pc := match (s.outlet sid).stream.readPc with
              | .received chunk => .writing chunk
              | _ => .ended }
      else none
  | .sinkWrote sid success =>
      match (s.outlet sid).pc with
      | .writing chunk =>
          some (s.setOutlet sid
            (if success then { s.outlet sid with
              pc := .starting, written := (s.outlet sid).written ++ [chunk] }
            else { s.outlet sid with pc := .ended }))
      | _ => none

end Route

end Snova
