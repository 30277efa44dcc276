import Snova.Model.ChunkDelivery
import Snova.Model.OpenTunnel
import Snova.Model.StreamTable

/-!
# The read loop and the streams

`MuxConnection::ProcessReadEvent` (`snova/mux/mux_connection.cc`) as far as it has to do with
streams: a chunk is offered to the stream it is for, and a `StreamCloseRequest` closes its stream.
For a chunk whose stream is not in the table the loop asks the peer to close it, unless the last
such chunk was of the same stream (`last_unmatch_stream_id_`).

While the loop waits for `Offer`, `Close` or `WriteEvent`, and between its events, the other
coroutines of the node work on the table: relays make, close and clean up their streams.
-/

namespace Snova

inductive LoopPc
  -- in `ReadEvent`
  | reading
  -- in `Offer` of a stream, in its `Close(true)`, or in the `WriteEvent` of a forced close
  | offering (c : ℕ)
  | closing (c : ℕ)
  | writing
  -- the event was not the chunk its type says
  | ended
  deriving DecidableEq

structure ReadLoop where
  table : StreamTable
  lastUnmatchStreamId : UInt32
  pc : LoopPc
  -- the chunks read, with what `Get` returned for them
  chunks : List (MuxEvent × Option ℕ)
  offered : List (ℕ × ChunkBuffer)
  -- the requests of the forced closes
  closeRequests : List MuxEvent

inductive ReadLoopAction
  -- another coroutine works on the table
  | table (a : TableAction)
  -- `ReadEvent` returns an event
  | event (event : MuxEvent)
  -- what the loop waits for returns
  | resume

def closeRequest (sid : UInt32) : MuxEvent := .ofBody .streamCloseRequest sid

namespace ReadLoop

def init : ReadLoop := ⟨.init, 0, .reading, [], [], []⟩

/-- `EVENT_STREAM_CHUNK`. -/
def streamChunk (s : ReadLoop) (clientId : UInt64) (event : MuxEvent) : ReadLoop :=
  let sid := event.head.sid
  let stream := s.table.get ⟨clientId, sid⟩
  let s := { s with chunks := s.chunks ++ [(event, stream)] }
  match stream with
  | none =>
      if s.lastUnmatchStreamId ≠ sid then
        { s with
          lastUnmatchStreamId := sid
          closeRequests := s.closeRequests ++ [closeRequest sid]
          pc := .writing }
      else s
  | some c =>
      match event.chunkBuffer with
      | none => { s with pc := .ended }
      | some chunk => { s with offered := s.offered ++ [(c, chunk)], pc := .offering c }

def step (clientId : UInt64) (s : ReadLoop) : ReadLoopAction → Option ReadLoop
  | .table a => (s.table.step a).map fun table => { s with table := table }
  | .event event =>
      if s.pc = .reading then
        match event.readCase with
        | .streamClose =>
            let id := ⟨clientId, event.head.sid⟩
            (s.table.step (.closeEvent id)).map fun table =>
              { s with
                table := table
                pc := match s.table.get id with
                  | none => .reading
                  | some c => .closing c }
        | .streamOffer => some (s.streamChunk clientId event)
        | _ => some s
      else none
  | .resume => if s.pc ≠ .reading ∧ s.pc ≠ .ended then some { s with pc := .reading } else none

end ReadLoop

end Snova
