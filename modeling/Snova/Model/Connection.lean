import Snova.Model.ReadEvent
import Snova.Model.Write

/-!
# A connection from end to end

One direction of an authenticated connection: the coroutines that call `MuxConnection::Write` on
one node, the byte stream of the transport, and the coroutine that calls `MuxConnection::ReadEvent`
on the other one (`snova/mux/mux_connection.cc`).

The two halves are the machines `WriterState` and `ReaderState`.  They share nothing but the
stream: what the writer's transport has taken is `wire`, and a delivery hands the reader's pending
`AsyncRead` the next bytes of it, as many as the transport likes.  The events that were passed to
`Write` are recorded by the numbers of the calls.
-/

namespace Snova

structure Connection (κ : Type) where
  writer : WriterState κ
  reader : ReaderState
  -- the event of each call of `Write`
  started : List MuxEvent

inductive ConnectionAction (κ : Type)
  -- a step of the writing node
  | write (a : WriteAction κ)
  -- the reading node calls `ReadEvent`
  | readEvent
  -- the pending `AsyncRead` gets the next bytes, at most `n`
  | deliver (n : ℕ)
  -- the pending `AsyncRead` fails
  | disconnect (rc : Int)

/-- The event of the call a step begins, if it begins one. -/
def WriteAction.started {κ : Type} : WriteAction κ → List MuxEvent
  | .write _ event _ => [event]
  | _ => []

namespace Connection

variable {κ : Type} [DecidableEq κ] (A : Aead) (pb : Nanopb)

def init (sender receiver : CipherContext) (masks : Bool) : Connection κ :=
  ⟨.init sender masks, .init receiver, []⟩

/-- What the transport has taken and not delivered. -/
def inTransit (s : Connection κ) : Bytes := s.writer.wire.drop s.reader.received.length

def step (s : Connection κ) : ConnectionAction κ → Option (Connection κ)
  | .write a =>
      (s.writer.step A pb a).map fun writer =>
        { s with writer := writer, started := s.started ++ a.started }
  | .readEvent => (s.reader.step A pb .readEvent).map fun reader => { s with reader := reader }
  | .deliver n =>
      (s.reader.step A pb (.data (s.inTransit.take n))).map fun reader =>
        { s with reader := reader }
  | .disconnect rc =>
      (s.reader.step A pb (.error rc)).map fun reader => { s with reader := reader }

end Connection

end Snova
