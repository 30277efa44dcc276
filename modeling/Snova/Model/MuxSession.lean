import Snova.Framework.Exec
import Snova.Model.MuxEvent

/-!
# Streams over the connections of a session

The sending half of `MuxStream` (`snova/mux/mux_stream.{h,cc}`), the event writers of
`MuxSession::GetEventWriterFactory` (`snova/mux/mux_conn_manager.cc`), the maintenance of the
session's slots by `MuxClient` (`snova/mux/mux_client.cc`) and `MuxConnManager`, and on the other
node `MuxConnection::ProcessReadEvent` (`snova/mux/mux_connection.cc`).

A session is an array of slots, each with a connection or none.  A stream is not bound to a
connection: its `event_writer_` is a slot number, looked up again at every write, and a new slot
is chosen when a write fails.  Which connections the factory prefers depends on their mutexes and
on the bytes they sent lately; an action brings these along as `prio`.

A connection appears here as the sequence of events it has accepted from `AsyncWrite` and the
peer has not read yet (`Link.frames`): they are read in order, and those that have not been read
when the connection fails are lost.  `WriteEvent` suspends only inside `MuxConnection::Write`, so
a coroutine is idle or in such a call (`WritePc`).  The call ends when the transport has accepted
the whole frame (`accepted`), or with an error when it has not (`writeError`).

Streams of the receiving node appear and disappear as its coroutines please; `Offer` is recorded
when it is called.  A stream id names one stream, as `NextID` counts on before it repeats itself.
-/

namespace Snova

/-! ## Choosing a connection -/

/-- What `ComparePriority` looks at. -/
structure Priority where
  waitCount : ℕ := 0
  isLocked : Bool := false
  latestWindowSendBytes : ℕ := 0

/-- `MuxConnection::ComparePriority`. -/
def Priority.compare (p other : Priority) : Int :=
  if p.waitCount < other.waitCount then 1
  else if p.waitCount > other.waitCount then -1
  else if !p.isLocked && other.isLocked then 1
  else if p.isLocked && !other.isLocked then -1
  else if p.latestWindowSendBytes < other.latestWindowSendBytes then 1
  else if p.latestWindowSendBytes > other.latestWindowSendBytes then -1
  else 0

/-- The loop of the factory, from slot `i` on; `select` is the slot chosen so far and its
connection. -/
def selectIdx (prio : ℕ → Priority) : List (Option ℕ) → ℕ → Option (ℕ × ℕ) → Option (ℕ × ℕ)
  | [], _, select => select
  | none :: conns, i, select => selectIdx prio conns (i + 1) select
  | some conn :: conns, i, none => selectIdx prio conns (i + 1) (some (i, conn))
  | some conn :: conns, i, some (j, other) =>
      if (prio conn).compare (prio other) > 0 then selectIdx prio conns (i + 1) (some (i, conn))
      else selectIdx prio conns (i + 1) (some (j, other))

/-- `GetEventWriterFactory()()`: an event writer is the number of a slot. -/
def eventWriterFactory (prio : ℕ → Priority) (conns : List (Option ℕ)) : Option ℕ :=
  (selectIdx prio conns 0 none).map Prod.fst

/-- The connection an event writer writes to, if it has one. -/
def eventWriter (conns : List (Option ℕ)) (idx : ℕ) : Option ℕ := (conns[idx]?).join

/-! ## The state -/

/-- An event on its way.  A chunk also carries its number among those of its stream. -/
structure Frame where
  event : MuxEvent
  number : ℕ := 0

/-- The bytes of a chunk. -/
def EventBody.chunkBytes : EventBody → Option Bytes
  | .streamChunk chunk chunkLen _ => some ((chunk.getD []).take chunkLen.toNat)
  | _ => none

/-- A connection. -/
structure Link where
  up : Bool := false
  retired : Bool := false
  idx : ℕ := 0
  frames : List Frame := []

/-- The sending half of a stream, and the chunks that were passed to `Write`. -/
structure SendStream where
  -- whether `New` has made it
  made : Bool := false
  eventWriter : Option ℕ := none
  isTls : Bool := false
  writeBytes : ℕ := 0
  closed : Bool := false
  written : List Bytes := []

/-- A chunk that has been read from a connection. -/
structure Arrival where
  conn : ℕ
  number : ℕ
  chunk : Bytes

/-- The entry of a stream id in the peer's `g_streams`, the chunks offered to it, and all chunks
that were read for it. -/
structure RecvStream where
  registered : Bool := false
  offered : List Arrival := []
  arrived : List Arrival := []

/-- Where a coroutine stands in `WriteEvent`: in the call of `Write` on a connection, with a
number of attempts left. -/
inductive WritePc
  | idle
  | writing (frame : Frame) (left : ℕ) (conn : ℕ)

structure SessionState (κ : Type) where
  isEntryNode : Bool
  conns : List (Option ℕ)
  -- how many connections have been made
  made : ℕ
  links : ℕ → Link
  -- all frames a connection has accepted
  carried : ℕ → List Frame
  senders : UInt32 → SendStream
  pc : κ → WritePc
  receivers : UInt32 → RecvStream

inductive SessionAction (κ : Type)
  -- the sending node: `MuxStream::New`, `Open`, `Write`, `Close(false)`, and a close request of
  -- the peer
  | new (sid : UInt32) (prio : ℕ → Priority)
  | open (c : κ) (sid : UInt32) (host : Bytes) (port : UInt32) (isTcp isTls : Bool)
      (prio : ℕ → Priority)
  | write (c : κ) (sid : UInt32) (buf : Bytes) (len : UInt32) (prio : ℕ → Priority)
  | close (c : κ) (sid : UInt32) (prio : ℕ → Priority)
  | closeByRemote (sid : UInt32)
  -- a call of `MuxConnection::Write` succeeds, or fails
  | accepted (c : κ)
  | writeError (c : κ) (prio : ℕ → Priority)
  -- the slots: `NewConnection`, `MuxConnManager::Add`, the retirement in `CheckConnections`, the
  -- end of a client's read loop, `MuxConnManager::Remove`
  | newConnection (idx : ℕ)
  | add
  | retire (idx : ℕ)
  | loopExit (conn : ℕ)
  | remove (conn : ℕ)
  -- a connection fails
  | fail (conn : ℕ)
  -- the receiving node: `ProcessReadEvent`, and the streams it has
  | process (conn : ℕ)
  | register (sid : UInt32)
  | unregister (sid : UInt32)

namespace SessionState

variable {κ : Type} [DecidableEq κ]

def init (isEntryNode : Bool) (slots : ℕ) : SessionState κ where
  isEntryNode := isEntryNode
  conns := List.replicate slots none
  made := 0
  links := fun _ => {}
  carried := fun _ => []
  senders := fun _ => {}
  pc := fun _ => .idle
  receivers := fun _ => {}

def setSender (s : SessionState κ) (sid : UInt32) (st : SendStream) : SessionState κ :=
  { s with senders := Function.update s.senders sid st }

def setPc (s : SessionState κ) (c : κ) (pc : WritePc) : SessionState κ :=
  { s with pc := Function.update s.pc c pc }

def setLink (s : SessionState κ) (conn : ℕ) (l : Link) : SessionState κ :=
  { s with links := Function.update s.links conn l }

def setReceiver (s : SessionState κ) (sid : UInt32) (st : RecvStream) : SessionState κ :=
  { s with receivers := Function.update s.receivers sid st }

def setConns (s : SessionState κ) (conns : List (Option ℕ)) : SessionState κ :=
  { s with conns := conns }

/-! ## The sending node -/

/-- `event_writer_ = event_writer_factory_()`. -/
def renewWriter (s : SessionState κ) (prio : ℕ → Priority) (sid : UInt32) : SessionState κ :=
  s.setSender sid { s.senders sid with eventWriter := eventWriterFactory prio s.conns }

/-- The connection the stream's event writer writes to, if there is an event writer and it finds
one. -/
def writeConn (s : SessionState κ) (sid : UInt32) : Option ℕ :=
  (s.senders sid).eventWriter.bind (Snova.eventWriter s.conns)

/-- The loop of `WriteEvent` up to a call of `Write`, or to the end (false) if no attempt makes
one. -/
def attempt (s : SessionState κ) (prio : ℕ → Priority) (c : κ) (frame : Frame) :
    ℕ → SessionState κ × Bool
  | 0 => (s, false)
  | left + 1 =>
      match s.writeConn frame.event.head.sid with
      | some conn => (s.setPc c (.writing frame left conn), true)
      | none => (s.renewWriter prio frame.event.head.sid).attempt prio c frame left

/-- `close_ev` of `Close`. -/
def closeFrame (sid : UInt32) : Frame := { event := .ofBody .streamCloseRequest sid }

/-- `MuxStream::Close(false)`.  When the close request fails as well, `WriteEvent` calls `Close`
again, which finds the stream closed. -/
def closeLocal (s : SessionState κ) (prio : ℕ → Priority) (c : κ) (sid : UInt32) :
    SessionState κ :=
  if (s.senders sid).closed then s
  else
    ((s.setSender sid { s.senders sid with closed := true }).attempt prio c (closeFrame sid) 3).1

/-- `WriteEvent` with `left` attempts left. -/
def writeEvent (s : SessionState κ) (prio : ℕ → Priority) (c : κ) (frame : Frame) (left : ℕ) :
    SessionState κ :=
  match s.attempt prio c frame left with
  | (s, true) => s
  | (s, false) => s.closeLocal prio c frame.event.head.sid

/-- The request of `Open`. -/
def openRequest (host : Bytes) (port : UInt32) (isTcp isTls : Bool) : StreamOpenRequest where
  remoteHost := .snprintf 512 pos_512 host
  remotePort := port
  isTcp := isTcp
  isTls := isTls

/-- `MuxStream::Open`. -/
def openStream (s : SessionState κ) (prio : ℕ → Priority) (c : κ) (sid : UInt32) (host : Bytes)
    (port : UInt32) (isTcp isTls : Bool) : SessionState κ :=
  (s.setSender sid { s.senders sid with isTls := isTls }).writeEvent prio c
    { event := .ofBody (.proto .streamOpenRequest (openRequest host port isTcp isTls)) sid } 3

/-- The flags of a chunk: behind a TLS connection, only the first chunk of an entry node, with the
client hello, is encrypted. -/
def chunkFlags (isEntryNode : Bool) (st : SendStream) : MuxFlags :=
  if st.isTls then
    if st.writeBytes = 0 ∧ isEntryNode then { bodyNoEncrypt := false }
    else { bodyNoEncrypt := true }
  else {}

/-- The chunk `Write` makes of a buffer and a length within it. -/
def chunkFrame (s : SessionState κ) (sid : UInt32) (buf : Bytes) (len : UInt32)
    (h : len.toNat ≤ buf.length) : Frame where
  event := .ofBody (.streamChunk (some buf) len h) sid (chunkFlags s.isEntryNode (s.senders sid))
  number := (s.senders sid).written.length

/-- `MuxStream::Write`. -/
def writeChunk (s : SessionState κ) (prio : ℕ → Priority) (c : κ) (sid : UInt32) (buf : Bytes)
    (len : UInt32) (h : len.toNat ≤ buf.length) : SessionState κ :=
  (s.setSender sid
    { s.senders sid with
      writeBytes := (s.senders sid).writeBytes + len.toNat
      written := (s.senders sid).written ++ [buf.take len.toNat] }).writeEvent prio c
        (s.chunkFrame sid buf len h) 3

/-! ## Connections and slots -/

/-- The transport of a connection has taken a frame. -/
def accept (s : SessionState κ) (conn : ℕ) (frame : Frame) : SessionState κ :=
  { s.setLink conn { s.links conn with frames := (s.links conn).frames ++ [frame] } with
    carried := Function.update s.carried conn (s.carried conn ++ [frame]) }

/-- A new connection for slot `idx`. -/
def makeLink (s : SessionState κ) (idx : ℕ) : SessionState κ :=
  { s.setLink s.made { up := true, idx := idx } with made := s.made + 1 }

/-- The slot `MuxConnManager::Add` uses: the first empty one, or one past the end. -/
def freeSlot : List (Option ℕ) → ℕ
  | none :: _ => 0
  | some _ :: conns => freeSlot conns + 1
  | [] => 0

/-- `MuxConnManager::Add`. -/
def addConn (s : SessionState κ) : SessionState κ :=
  let idx := freeSlot s.conns
  (s.makeLink idx).setConns
    (if idx < s.conns.length then s.conns.set idx (some s.made) else s.conns ++ [some s.made])

/-! ## The receiving node -/

/-- `ProcessReadEvent` on an event of a stream.  The request for a new stream is handed to a
relay, which makes the stream later; a chunk for which there is no stream is dropped. -/
def receive (st : RecvStream) (conn : ℕ) (frame : Frame) : RecvStream :=
  match frame.event.body with
  | .streamChunk chunk chunkLen _ =>
      let a : Arrival := ⟨conn, frame.number, (chunk.getD []).take chunkLen.toNat⟩
      { st with
        offered := if st.registered then st.offered ++ [a] else st.offered
        arrived := st.arrived ++ [a] }
  | .streamCloseRequest => { st with registered := false }
  | _ => st

def step (s : SessionState κ) : SessionAction κ → Option (SessionState κ)
  | .new sid prio =>
      if (s.senders sid).made then none
      else some ((s.setSender sid { s.senders sid with made := true }).renewWriter prio sid)
  | .open c sid host port isTcp isTls prio =>
      match s.pc c, (s.senders sid).made with
      | .idle, true => some (s.openStream prio c sid host port isTcp isTls)
      | _, _ => none
  | .write c sid buf len prio =>
      match s.pc c, (s.senders sid).made with
      | .idle, true =>
          if h : len.toNat ≤ buf.length then some (s.writeChunk prio c sid buf len h) else none
      | _, _ => none
  | .close c sid prio =>
      match s.pc c, (s.senders sid).made with
      | .idle, true => some (s.closeLocal prio c sid)
      | _, _ => none
  | .closeByRemote sid => some (s.setSender sid { s.senders sid with closed := true })
  | .accepted c =>
      match s.pc c with
      | .writing frame _ conn =>
          if (s.links conn).up then
            some ((s.accept conn frame).setPc c .idle)
          else none
      | .idle => none
  | .writeError c prio =>
      match s.pc c with
      | .writing frame left _ =>
          some (((s.setPc c .idle).renewWriter prio frame.event.head.sid).writeEvent prio c frame
            left)
      | .idle => none
  | .newConnection idx =>
      if idx < s.conns.length then
        some ((s.makeLink idx).setConns (s.conns.set idx (some s.made)))
      else none
  | .add => some s.addConn
  | .retire idx =>
      match s.conns[idx]? with
      | some (some conn) =>
          some ((s.setLink conn { s.links conn with retired := true }).setConns
            (s.conns.set idx none))
      | _ => none
  | .loopExit conn =>
      if (s.links conn).retired then some s
      else some (s.setConns (s.conns.set (s.links conn).idx none))
  | .remove conn =>
      some (s.setConns (s.conns.map fun x => if x = some conn then none else x))
  | .fail conn => some (s.setLink conn { s.links conn with up := false, frames := [] })
  | .process conn =>
      match (s.links conn).frames with
      | frame :: rest =>
          some ((s.setLink conn { s.links conn with frames := rest }).setReceiver
            frame.event.head.sid
            (receive (s.receivers frame.event.head.sid) conn frame))
      | [] => none
  | .register sid => some (s.setReceiver sid { s.receivers sid with registered := true })
  | .unregister sid => some (s.setReceiver sid { s.receivers sid with registered := false })

end SessionState

end Snova
