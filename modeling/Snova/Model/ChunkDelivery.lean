import Snova.Model.MuxStream
import Snova.Model.ReadEvent

/-!
# From a frame to the transfer loop

The way of a chunk through a node: `ProcessReadEvent` (`snova/mux/mux_connection.cc`) reads an
event from its connection and, if it is a chunk of the stream, `Offer`s the chunk's buffer and
length; `transfer` (`snova/io/transfer.cc`) `Read`s them in a coroutine of its own and writes
`data->data()` to the socket, or moves the buffer into another stream's `Write`.

The machine puts the readers of Model.ReadEvent, one for each connection of the session, in front
of the stream of Model.MuxStream.  Each connection has one read loop, so a coroutine reads its
next event only after it has processed the last one and its `Offer` has returned.
-/

namespace Snova

/-- An element of `data_channel_`: the buffer pointer and the length. -/
abbrev ChunkBuffer := Option Bytes × UInt32

/-- `std::move(chunk->chunk), chunk->chunk_len`, if the event is a chunk. -/
def MuxEvent.chunkBuffer (ev : MuxEvent) : Option ChunkBuffer :=
  match ev.body with
  | .streamChunk chunk chunkLen _ => some (chunk, chunkLen)
  | _ => none

structure ChunkDelivery (κ : Type) where
  readers : κ → ReaderState
  -- how many of its events a connection has processed
  processed : κ → ℕ
  stream : StreamState κ ChunkBuffer
  -- the events whose buffers were offered to the stream
  offered : List MuxEvent

inductive ChunkAction (κ : Type)
  -- the connection's `ReadEvent` goes on
  | conn (c : κ) (a : ReaderAction)
  -- `ProcessReadEvent` behind `ReadEvent`; the stream is in the table or not
  | process (c : κ) (found : Bool)
  | offerResume (c : κ)
  | read
  | readResume
  | closeByRemote

namespace ChunkDelivery

variable (A : Aead) (pb : Nanopb) {κ : Type} [DecidableEq κ]

def init (ctx : κ → CipherContext) : ChunkDelivery κ :=
  ⟨fun c => .init (ctx c), fun _ => 0, .init, []⟩

/-- The connection may go on reading. -/
def canRead (s : ChunkDelivery κ) (c : κ) : Bool :=
  decide (s.processed c = (s.readers c).events.length) &&
    match s.stream.offerPc c with
    | .idle => true
    | _ => false

def stepStream (s : ChunkDelivery κ) (a : StreamAction κ ChunkBuffer) :
    Option (ChunkDelivery κ) :=
  (s.stream.step a).map fun st => { s with stream := st }

/-- `ProcessReadEvent` with the event it has read, for a stream with the id `sid`. -/
def stepProcess (sid : UInt32) (s : ChunkDelivery κ) (c : κ) (found : Bool) (ev : MuxEvent) :
    Option (ChunkDelivery κ) :=
  let s := { s with processed := Function.update s.processed c (s.processed c + 1) }
  match ev.chunkBuffer with
  | some buf =>
      if found ∧ ev.head.sid = sid then
        { s with offered := s.offered ++ [ev] }.stepStream (.offer c buf)
      else some s
  | none => some s

def step (sid : UInt32) (s : ChunkDelivery κ) : ChunkAction κ → Option (ChunkDelivery κ)
  | .conn c a =>
      if s.canRead c then
        ((s.readers c).step A pb a).map fun r =>
          { s with readers := Function.update s.readers c r }
      else none
  | .process c found =>
      match (s.readers c).events[s.processed c]? with
      | some ev => s.stepProcess sid c found ev
      | none => none
  | .offerResume c => s.stepStream (.offerResume c)
  | .read => s.stepStream .read
  | .readResume => s.stepStream .readResume
  | .closeByRemote => s.stepStream .closeByRemote

end ChunkDelivery

end Snova
