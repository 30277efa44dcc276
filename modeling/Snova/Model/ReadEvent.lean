import Snova.Framework.Exec
import Snova.Model.CipherContext

/-!
# Reading events

The read side of a `MuxConnection` (`snova/mux/mux_connection.cc`): `ReadEventFromBuffer` and
`ReadEvent` over `read_buffer_`, a byte array of fixed size, and `readable_data_`, a span into
it.  `ReadEvent` is a coroutine, so it is given by the code between its suspension points:
`readEvent` runs from the call to the first `AsyncRead` (or to the return), `readEventResume`
from the completion of an `AsyncRead` to the next one.  The local variable
`current_read_buffer` of the suspended coroutine is part of its status.

`ReaderState` puts one reader behind a transport that delivers bytes in pieces of any size.  The
bytes delivered so far and the events returned so far are recorded beside it.
-/

namespace Snova

/-! ## The buffer -/

/-- `read_buffer_.size()`. -/
def readBufferSize : ℕ := 2 * kMaxChunkSize

/-- A span into `read_buffer_`. -/
structure Span where
  off : ℕ
  len : ℕ
  fits : off + len ≤ readBufferSize
  deriving DecidableEq

/-- `Span::remove_prefix`; no caller removes more than there is. -/
def Span.removePrefix (s : Span) (n : ℕ) : Span where
  off := s.off + min n s.len
  len := s.len - n
  fits := by have := s.fits; omega

/-- The empty span every connection starts with. -/
def Span.empty : Span := ⟨0, 0, Nat.zero_le _⟩

/-- `read_buffer_`. -/
structure ReadBuffer where
  bytes : Bytes
  size : bytes.length = readBufferSize

namespace ReadBuffer

def new : ReadBuffer := ⟨List.replicate readBufferSize 0, List.length_replicate⟩

/-- The bytes of a span. -/
def slice (b : ReadBuffer) (s : Span) : Bytes := (b.bytes.drop s.off).take s.len

lemma length_slice (b : ReadBuffer) (s : Span) : (b.slice s).length = s.len := by
  have hfits := s.fits
  rw [slice, List.length_take, List.length_drop, b.size]
  omega

/-- `memmove(read_buffer_.data(), s.data(), s.size())`. -/
def moveToFront (b : ReadBuffer) (s : Span) : ReadBuffer where
  bytes := b.slice s ++ b.bytes.drop s.len
  size := by
    have hfits := s.fits
    rw [List.length_append, length_slice, List.length_drop, b.size]
    omega

/-- Received bytes, stored at a position. -/
def store (b : ReadBuffer) (pos : ℕ) (data : Bytes) (h : pos + data.length ≤ readBufferSize) :
    ReadBuffer where
  bytes := b.bytes.take pos ++ (data ++ b.bytes.drop (pos + data.length))
  size := by
    rw [List.length_append, List.length_append, List.length_take, List.length_drop, b.size]
    omega

end ReadBuffer

/-! ## The coroutine -/

/-- The members of a `MuxConnection` that reading uses. -/
structure Reader where
  readBuffer : ReadBuffer
  readableData : Span
  cipherCtx : CipherContext

/-- Where a call of `ReadEvent` is. -/
inductive ReadStatus
  | returned (rc : Int) (event : Option MuxEvent)
  -- in `AsyncRead`, with the local `current_read_buffer`
  | reading (current : Span)

namespace Reader

variable (A : Aead) (pb : Nanopb)

def new (ctx : CipherContext) : Reader := ⟨.new, .empty, ctx⟩

/-- `MuxConnection::ReadEventFromBuffer`: the return code, the event and the span it leaves in
`buffer`. -/
def readEventFromBuffer (r : Reader) (buffer : Span) :
    Reader × Int × Option MuxEvent × Span :=
  if buffer.len = 0 then (r, ERR_NEED_MORE_INPUT_DATA, none, buffer)
  else
    let d := r.cipherCtx.decrypt A pb (r.readBuffer.slice buffer)
    let r := { r with cipherCtx := d.ctx }
    if d.rc = 0 then (r, 0, d.out, buffer.removePrefix d.decryptLen)
    else if d.rc ≠ ERR_NEED_MORE_INPUT_DATA then (r, d.rc, d.out, buffer)
    else if buffer.off ≠ 0 then
      -- The span still points to where the bytes were; only its size is used from here on.
      ({ r with readBuffer := r.readBuffer.moveToFront buffer }, ERR_NEED_MORE_INPUT_DATA, d.out,
        buffer)
    else (r, ERR_NEED_MORE_INPUT_DATA, d.out, buffer)

/-- One turn of the loop of `ReadEvent`, up to its `AsyncRead` or its end. -/
def readEventTurn (r : Reader) (current : Span) : Reader × ReadStatus :=
  match r.readEventFromBuffer A pb current with
  | (r, rc, event, current) =>
      if rc = ERR_NEED_MORE_INPUT_DATA then (r, .reading current)
      else ({ r with readableData := current }, .returned rc event)

/-- `MuxConnection::ReadEvent`. -/
def readEvent (r : Reader) : Reader × ReadStatus := r.readEventTurn A pb r.readableData

/-- `AsyncRead` completed with `data`. -/
def readEventResume (r : Reader) (current : Span) (data : Bytes)
    (h : current.len + data.length ≤ readBufferSize) : Reader × ReadStatus :=
  let r := { r with readBuffer := r.readBuffer.store current.len data h }
  r.readEventTurn A pb ⟨0, current.len + data.length, by omega⟩

/-- `AsyncRead` failed, or reached the end of the stream: `rc` is the error's value or
`ERR_READ_EOF`. -/
def readEventError (r : Reader) (current : Span) (rc : Int) : Reader × ReadStatus :=
  ({ r with readableData := current }, .returned rc none)

end Reader

/-! ## One reader behind a transport -/

/-- What the read loop of a connection is doing. -/
inductive ReadPhase
  -- between two calls of `ReadEvent`
  | idle
  | reading (current : Span)
  -- a call returned an error: a decoding error, or one of the transport
  | failed (rc : Int)
  | disconnected (rc : Int)
  deriving DecidableEq

/-- What a read delivers has room in the buffer. -/
lemma room_of_piece {current : Span} {bs : Bytes}
    (h : bs ≠ [] ∧ current.len + bs.length ≤ readBufferSize) :
    current.len + bs.length ≤ readBufferSize :=
  h.2

structure ReaderState where
  reader : Reader
  phase : ReadPhase
  -- every byte the transport delivered, and the events the calls returned
  received : Bytes
  events : List MuxEvent

inductive ReaderAction
  -- call `ReadEvent`
  | readEvent
  -- the pending `AsyncRead` delivers bytes
  | data (bs : Bytes)
  -- the pending `AsyncRead` fails
  | error (rc : Int)

namespace ReaderState

variable (A : Aead) (pb : Nanopb)

def init (ctx : CipherContext) : ReaderState := ⟨.new ctx, .idle, [], []⟩

/-- Record how far a call of `ReadEvent` got. -/
def afterRead (s : ReaderState) (p : Reader × ReadStatus) : ReaderState :=
  match p.2 with
  | .reading current => { s with reader := p.1, phase := .reading current }
  | .returned rc event =>
      if rc = 0 then { s with reader := p.1, phase := .idle, events := s.events ++ event.toList }
      else { s with reader := p.1, phase := .failed rc }

/-- A piece is not empty and not larger than the space offered to `AsyncRead`. -/
def step (s : ReaderState) : ReaderAction → Option ReaderState
  | .readEvent =>
      match s.phase with
      | .idle => some (s.afterRead (s.reader.readEvent A pb))
      | _ => none
  | .data bs =>
      match s.phase with
      | .reading current =>
          if h : bs ≠ [] ∧ current.len + bs.length ≤ readBufferSize then
            some ({ s with received := s.received ++ bs }.afterRead
              (s.reader.readEventResume A pb current bs (room_of_piece h)))
          else none
      | _ => none
  | .error rc =>
      match s.phase with
      | .reading current =>
          if rc = 0 then none
          else some { s with
            reader := (s.reader.readEventError current rc).1, phase := .disconnected rc }
      | _ => none

end ReaderState

end Snova
