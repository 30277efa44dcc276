import Snova.Framework.Exec

/-!
# The two transfers of a relay

`do_relay` (`snova/server/relay.cc`) and the four functions `transfer`
(`snova/io/transfer.cc`) it runs in both directions at once.  An end of a relay is a socket or a
stream; which of the functions runs depends on the kinds of the two ends, and they differ in what
they close behind their loop.

Closing an end completes its pending reads with an error, and the pending writes of a socket as
well: `Close` of a stream does not touch a coroutine that is in the stream's event writer.  A
completed operation only queues its coroutine, which goes on at `resume`.  What comes from outside
is what the sockets and the peer's streams deliver, when they take a chunk, the close request of a
peer, and the idle timer.

If there is no event writer for a remote stream, `do_relay` returns before there is one, and only
the local end is closed; the machine begins where there is.
-/

namespace Snova

inductive EndKind
  | socket
  | stream
  deriving DecidableEq

/-- `local_stream`, and `remote_socket` or `remote_stream`. -/
inductive RelayEnd
  | localEnd
  | remoteEnd
  deriving DecidableEq

def RelayEnd.other : RelayEnd → RelayEnd
  | .localEnd => .remoteEnd
  | .remoteEnd => .localEnd

/-- Where a `transfer` stands. -/
inductive TransferPc (μ : Type)
  -- it has not been called
  | idle
  -- at the beginning of its loop
  | starting
  | reading
  -- the read has completed, with a chunk or an error
  | readDone (result : Option μ)
  | writing (chunk : μ)
  | writeDone (success : Bool)
  -- in the `Close(false)` of a `Write` that has failed
  | closingFailed
  -- in the `Close(false)` behind the loop
  | closing
  | ended
  deriving DecidableEq

inductive RelayPhase
  -- in `get_connected_socket`, or in `Open` of the remote stream
  | opening
  -- in the write of `readed_data`
  | preWriting
  | transferring
  -- in the `Close(false)` of the remote stream, and of the local one
  | closingRemote
  | closingLocal
  | ended
  deriving DecidableEq

/-- A relay, and for each end the chunks that were read from it and the writes to the other end
that have completed, with their outcomes. -/
structure RelayState (μ : Type) where
  kind : RelayEnd → EndKind
  phase : RelayPhase
  closed : RelayEnd → Bool
  -- by the end a transfer reads from
  pc : RelayEnd → TransferPc μ
  -- `readed_data`, if there is any
  readedData : Option μ
  received : RelayEnd → List μ
  written : RelayEnd → List (μ × Bool)

inductive RelayAction (μ : Type)
  -- `get_connected_socket` or `Open` returns
  | opened (success : Bool)
  -- an end delivers a chunk; the stream of a socket ends
  | arrive (e : RelayEnd) (chunk : μ)
  | readError (e : RelayEnd)
  -- the write of the transfer from an end succeeds or fails
  | wrote (e : RelayEnd)
  | writeFailed (e : RelayEnd)
  -- the request of a `Close(false)` in the transfer from an end, or behind the transfers, returns
  | closeReturned (e : RelayEnd)
  | relayCloseReturned
  -- a transfer whose operation has completed goes on
  | resume (e : RelayEnd)
  -- both transfers have returned
  | join
  -- the peer closes a stream
  | closeByRemote (e : RelayEnd)
  -- `close_local`, called by the idle timer
  | closeLocal

namespace RelayState

variable {μ : Type}

def init (localKind remoteKind : EndKind) (readedData : Option μ) : RelayState μ where
  kind := fun
    | .localEnd => localKind
    | .remoteEnd => remoteKind
  phase := .opening
  closed := fun _ => false
  pc := fun _ => .idle
  readedData := readedData
  received := fun _ => []
  written := fun _ => []

def setPc (s : RelayState μ) (e : RelayEnd) (pc : TransferPc μ) : RelayState μ :=
  { s with pc := Function.update s.pc e pc }

def setPhase (s : RelayState μ) (phase : RelayPhase) : RelayState μ := { s with phase := phase }

/-- What closing an end does to a pending read from it. -/
def cancelRead : TransferPc μ → TransferPc μ
  | .reading => .readDone none
  | pc => pc

/-- What closing a socket does to a pending write to it; `e` is the end the transfer reads from. -/
def cancelWrite (s : RelayState μ) (e : RelayEnd) : RelayState μ :=
  match s.pc e with
  | .writing chunk =>
      { s.setPc e (.writeDone false) with
        written := Function.update s.written e (s.written e ++ [(chunk, false)]) }
  | _ => s

def markClosed (s : RelayState μ) (e : RelayEnd) : RelayState μ :=
  { s with
    closed := Function.update s.closed e true
    pc := Function.update s.pc e (cancelRead (s.pc e)) }

/-- `close` of a socket, or `Close` of a stream up to its request. -/
def close (s : RelayState μ) (e : RelayEnd) : RelayState μ :=
  if s.closed e then s
  else if s.kind e = .socket then (s.markClosed e).cancelWrite e.other
  else s.markClosed e

/-- `Close(false)`: the transfer that calls it waits for the request, unless the stream has been
closed already. -/
def closeStream (s : RelayState μ) (e target : RelayEnd) (waiting behind : TransferPc μ) :
    RelayState μ :=
  if s.closed target then s.setPc e behind else (s.close target).setPc e waiting

/-- What a transfer closes when its loop has ended. -/
def finish (s : RelayState μ) (e : RelayEnd) : RelayState μ :=
  match s.kind e, s.kind e.other with
  | .stream, .socket =>
      if s.closed e then (s.close e.other).setPc e .ended
      else (s.close e).setPc e .closing
  | _, .stream => s.closeStream e e.other .closing .ended
  | .socket, .socket => s.setPc e .ended

/-- What is left of that behind the request of `Close(false)`. -/
def finishClosed (s : RelayState μ) (e : RelayEnd) : RelayState μ :=
  match s.kind e, s.kind e.other with
  | .stream, .socket => (s.close e.other).setPc e .ended
  | _, _ => s.setPc e .ended

/-- `Read` of a stream that is closed, and `async_read_some` of a socket that is, fail. -/
def beginRead (s : RelayState μ) (e : RelayEnd) : RelayState μ :=
  if s.closed e then
    match s.kind e with
    | .stream => s.finish e
    | .socket => s.setPc e (.readDone none)
  else s.setPc e .reading

/-- The write of the transfer from `e` has completed. -/
def completeWrite (s : RelayState μ) (e : RelayEnd) (chunk : μ) (success : Bool)
    (pc : TransferPc μ) : RelayState μ :=
  { s.setPc e pc with written := Function.update s.written e (s.written e ++ [(chunk, success)]) }

/-- `async_write` to a socket that is closed fails; `Write` does not look whether its stream is. -/
def beginWrite (s : RelayState μ) (e : RelayEnd) (chunk : μ) : RelayState μ :=
  if s.kind e.other = .socket ∧ s.closed e.other = true then
    s.completeWrite e chunk false (.writeDone false)
  else s.setPc e (.writing chunk)

/-- A transfer goes on. -/
def resume (s : RelayState μ) (e : RelayEnd) : Option (RelayState μ) :=
  match s.phase, s.pc e with
  | .preWriting, .writeDone _ =>
      -- what became of `readed_data` is not looked at
      some { s with phase := .transferring, pc := fun _ => .starting }
  | .transferring, .starting => some (s.beginRead e)
  | .transferring, .readDone none => some (s.finish e)
  | .transferring, .readDone (some chunk) => some (s.beginWrite e chunk)
  | .transferring, .writeDone true => some (s.beginRead e)
  | .transferring, .writeDone false => some (s.finish e)
  | _, _ => none

/-- The local end, behind `do_relay`: `Close(false)` of a stream; the destructor of a socket. -/
def leaveLocal (s : RelayState μ) : RelayState μ :=
  match s.kind .localEnd with
  | .socket => (s.close .localEnd).setPhase .ended
  | .stream =>
      if s.closed .localEnd then s.setPhase .ended else (s.close .localEnd).setPhase .closingLocal

/-- The remote end, behind the transfers. -/
def leaveRemote (s : RelayState μ) : RelayState μ :=
  match s.kind .remoteEnd with
  | .socket => (s.close .remoteEnd).leaveLocal
  | .stream =>
      if s.closed .remoteEnd then s.leaveLocal
      else (s.close .remoteEnd).setPhase .closingRemote

/-- The remote end is there: `readed_data` is written, if there is any. -/
def beginRelay (s : RelayState μ) : RelayState μ :=
  match s.readedData with
  | none => { s with phase := .transferring, pc := fun _ => .starting }
  | some chunk =>
      { s with
        phase := .preWriting
        received := Function.update s.received .localEnd [chunk] }.beginWrite .localEnd chunk

def step (s : RelayState μ) : RelayAction μ → Option (RelayState μ)
  | .opened success =>
      if s.phase = .opening then
        match s.kind .remoteEnd, success with
        | .socket, false => some s.leaveLocal
        | .stream, false => some (s.close .remoteEnd).beginRelay
        | _, true => some s.beginRelay
      else none
  | .arrive e chunk =>
      match s.pc e with
      | .reading =>
          some { s.setPc e (.readDone (some chunk)) with
            received := Function.update s.received e (s.received e ++ [chunk]) }
      | _ => none
  | .readError e =>
      match s.kind e, s.pc e with
      | .socket, .reading => some (s.setPc e (.readDone none))
      | _, _ => none
  | .wrote e =>
      match s.pc e with
      | .writing chunk => some (s.completeWrite e chunk true (.writeDone true))
      | _ => none
  | .writeFailed e =>
      match s.pc e with
      | .writing chunk =>
          match s.kind e.other with
          | .socket => some (s.completeWrite e chunk false (.writeDone false))
          | .stream =>
              some ((s.completeWrite e chunk false (.writeDone false)).closeStream e e.other
                .closingFailed (.writeDone false))
      | _ => none
  | .closeReturned e =>
      match s.pc e with
      | .closingFailed => some (s.setPc e (.writeDone false))
      | .closing => some (s.finishClosed e)
      | _ => none
  | .relayCloseReturned =>
      match s.phase with
      | .closingRemote => some s.leaveLocal
      | .closingLocal => some (s.setPhase .ended)
      | _ => none
  | .resume e => s.resume e
  | .join =>
      match s.phase, s.pc .localEnd, s.pc .remoteEnd with
      | .transferring, .ended, .ended => some s.leaveRemote
      | _, _, _ => none
  | .closeByRemote e => if s.kind e = .stream then some (s.close e) else none
  | .closeLocal =>
      if s.phase = .closingLocal ∨ s.phase = .ended then none else some (s.close .localEnd)

end RelayState

end Snova
