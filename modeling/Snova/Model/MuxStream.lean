import Snova.Framework.Exec
import Snova.Framework.Channel

/-!
# The receiving half of a stream

`MuxStream` (`snova/mux/mux_stream.{h,cc}`): the read loops of the connections `Offer` chunks,
the transfer loop `Read`s them, and the peer's close request runs `Close(true)`.  Between them
stands `data_channel_`, of capacity one, and the flag `closed_` that `Offer` and `Read` test
before they touch it.

As in the write mutex, a channel operation that completes only queues its coroutine, so the
machine `StreamState` keeps a chunk that has been handed to the reader (`ReadPc.received`) apart
from one that `Read` has returned, and an `Offer` whose send has completed (`OfferPc.sent`) apart
from one that has returned.  Any number of coroutines offer; one transfer loop reads.
-/

namespace Snova

/-- `MuxStream`, as far as its receiving half goes: `closed_` and `data_channel_`. -/
structure MuxStream (κ μ : Type) where
  closed : Bool
  dataChannel : Channel κ μ

namespace MuxStream

variable {κ μ : Type}

def new : MuxStream κ μ := ⟨false, .new 1⟩

/-- Where `Offer` ends, or waits. -/
inductive OfferResult (κ : Type)
  -- `no_link`, or the channel's error
  | failed
  -- the send completed; `receiver` is the waiting reader that got the chunk, if any
  | completed (receiver : Option κ)
  | suspended

/-- Where `Read` ends, or waits. -/
inductive ReadResult (κ μ : Type)
  | failed
  -- a chunk is there; `unblocked` is the suspended `Offer` this completes
  | completed (chunk : μ) (unblocked : Option κ)
  | suspended

/-- `MuxStream::Offer`, up to its `async_send`. -/
def offer (st : MuxStream κ μ) (c : κ) (chunk : μ) : MuxStream κ μ × OfferResult κ :=
  if st.closed then (st, .failed)
  else
    match st.dataChannel.send c chunk with
    | (ch, .handed r) => ({ st with dataChannel := ch }, .completed (some r))
    | (ch, .buffered) => ({ st with dataChannel := ch }, .completed none)
    | (ch, .suspended) => ({ st with dataChannel := ch }, .suspended)
    | (ch, .closed) => ({ st with dataChannel := ch }, .failed)

/-- `MuxStream::Read`, up to its `async_receive`. -/
def read (st : MuxStream κ μ) (c : κ) : MuxStream κ μ × ReadResult κ μ :=
  if st.closed then (st, .failed)
  else
    match st.dataChannel.receive c with
    | (ch, .received chunk unblocked) => ({ st with dataChannel := ch }, .completed chunk unblocked)
    | (ch, .suspended) => ({ st with dataChannel := ch }, .suspended)
    | (ch, .closed) => ({ st with dataChannel := ch }, .failed)

/-- `MuxStream::Close(true)`: nothing is written to the peer. -/
def closeByRemote (st : MuxStream κ μ) : MuxStream κ μ :=
  if st.closed then st else ⟨true, st.dataChannel.cancel.close⟩

end MuxStream

/-! ## The coroutines around it -/

/-- A coroutine that offers chunks. -/
inductive OfferPc (μ : Type)
  | idle
  -- suspended in `async_send`
  | sending (chunk : μ)
  -- the send of the chunk with this number completed; `Offer` has not returned yet
  | sent (number : ℕ)
  -- the send was cancelled; `Offer` has not returned yet
  | cancelled
  deriving DecidableEq

/-- The transfer loop. -/
inductive ReadPc (μ : Type)
  | idle
  -- suspended in `async_receive`
  | receiving
  -- the receive completed with this chunk; `Read` has not returned yet
  | received (chunk : μ)
  -- the receive was cancelled; `Read` has not returned yet
  | cancelled
  deriving DecidableEq

/-- A stream, its coroutines, and the record of what happened: the chunks the channel accepted,
numbered from zero; the numbers of those whose `Offer` returned success before `Close(true)`;
the chunks `Read` returned; and whether some `Read` returned an error. -/
structure StreamState (κ μ : Type) where
  stream : MuxStream (Option κ) μ
  offerPc : κ → OfferPc μ
  readPc : ReadPc μ
  accepted : List μ
  completed : List ℕ
  returned : List μ
  readFailed : Bool

inductive StreamAction (κ μ : Type)
  | offer (c : κ) (chunk : μ)
  | offerResume (c : κ)
  | read
  | readResume
  | closeByRemote
  deriving DecidableEq

namespace StreamState

variable {κ μ : Type} [DecidableEq κ]

def init : StreamState κ μ := ⟨.new, fun _ => .idle, .idle, [], [], [], false⟩

/-- The channel accepts the chunk of `c`. -/
def accept (s : StreamState κ μ) (c : κ) (chunk : μ) : StreamState κ μ :=
  { s with
    offerPc := Function.update s.offerPc c (.sent s.accepted.length)
    accepted := s.accepted ++ [chunk] }

def stepOffer (s : StreamState κ μ) (c : κ) (chunk : μ) : StreamState κ μ :=
  match s.stream.offer (some c) chunk with
  | (st, .failed) => { s with stream := st }
  | (st, .completed none) => { s.accept c chunk with stream := st }
  | (st, .completed (some _)) =>
      -- the only receiver is the transfer loop
      { s.accept c chunk with stream := st, readPc := .received chunk }
  | (st, .suspended) =>
      { s with stream := st, offerPc := Function.update s.offerPc c (.sending chunk) }

def stepRead (s : StreamState κ μ) : StreamState κ μ :=
  match s.stream.read none with
  | (st, .failed) => { s with stream := st, readFailed := true }
  | (st, .suspended) => { s with stream := st, readPc := .receiving }
  | (st, .completed chunk unblocked) =>
      let s := { s with stream := st, readPc := .received chunk }
      match unblocked with
      | some (some c) =>
          match s.offerPc c with
          | .sending chunk' => s.accept c chunk'
          | _ => s
      | _ => s

/-- What `cancel` does to a coroutine: its suspended operation completes with an error. -/
def cancelOffer : OfferPc μ → OfferPc μ
  | .sending _ => .cancelled
  | pc => pc

def cancelRead : ReadPc μ → ReadPc μ
  | .receiving => .cancelled
  | pc => pc

def stepClose (s : StreamState κ μ) : StreamState κ μ :=
  if s.stream.closed then s
  else
    { s with
      stream := s.stream.closeByRemote
      offerPc := fun c => cancelOffer (s.offerPc c)
      readPc := cancelRead s.readPc }

def step (s : StreamState κ μ) : StreamAction κ μ → Option (StreamState κ μ)
  | .offer c chunk =>
      match s.offerPc c with
      | .idle => some (s.stepOffer c chunk)
      | _ => none
  | .offerResume c =>
      match s.offerPc c with
      | .sent number =>
          some { s with
            offerPc := Function.update s.offerPc c .idle
            completed := if s.stream.closed then s.completed else s.completed ++ [number] }
      | .cancelled => some { s with offerPc := Function.update s.offerPc c .idle }
      | _ => none
  | .read =>
      match s.readPc with
      | .idle => some s.stepRead
      | _ => none
  | .readResume =>
      match s.readPc with
      | .received chunk => some { s with readPc := .idle, returned := s.returned ++ [chunk] }
      | .cancelled => some { s with readPc := .idle, readFailed := true }
      | _ => none
  | .closeByRemote => some s.stepClose

end StreamState

end Snova
