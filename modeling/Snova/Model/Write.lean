import Snova.Model.AsyncChannelMutex
import Snova.Model.CipherContext
import Snova.Model.WebSocket

/-!
# Writing events

`MuxConnection::Write` (`snova/mux/mux_connection.cc`), called by any number of coroutines on
one connection: take the write mutex, ignoring what `Lock` returns; `Encrypt` into the shared
`write_buffer_`; hand the bytes to the transport; `Unlock`; return.  `Close` closes the transport
and the mutex.

The transport is an `IOConnection`.  It takes the bytes of `write_buffer_` piece by piece while
`AsyncWrite` is pending, and nothing once it is closed; a pending or later `AsyncWrite` then
reports an error.  A WebSocket client masks the payload in place before it sends it, with a key
of its own choice (`WebSocket::AsyncWrite`, `snova/io/ws_socket.cc`), and its peer removes the
mask; `wire` is the stream the peer's `AsyncRead` delivers.

Beside the members of the connection the state records, for each call, its number and event, and
which calls have had their frame sent (`done`) or have returned.
-/

namespace Snova

/-- `write_buffer_.size()`. -/
def writeBufferSize : ℕ := kMaxChunkSize + kEventHeadSize + kReservedBufferSize

/-- A call that is in `AsyncWrite`. -/
structure Writing where
  call : ℕ
  event : MuxEvent
  -- what `Encrypt` wrote to `write_buffer_`
  frame : Bytes
  maskKey : Bytes
  -- how many bytes the transport has taken
  sent : ℕ

/-- Where a coroutine stands in `MuxConnection::Write`. -/
inductive WriteJob
  | idle
  | locking (call : ℕ) (event : MuxEvent)
  | writing (w : Writing)
  | unlocking (call : ℕ) (success : Bool)

/-- What a stretch of `Write` does not determine itself: the bytes a failed `Encrypt` leaves in
`write_buffer_`, and the masking key. -/
structure WriteEnv where
  scratch : Bytes
  maskKey : Bytes

structure WriterState (κ : Type) where
  writeMutex : MutexState κ
  job : κ → WriteJob
  cipherCtx : CipherContext
  writeBuffer : Bytes
  -- the transport masks payloads
  masks : Bool
  wire : Bytes
  calls : ℕ
  -- how many calls had been started when `Close` ran, if it has
  closedAt : Option ℕ
  done : List (ℕ × MuxEvent)
  returned : List (ℕ × Bool)

inductive WriteAction (κ : Type)
  -- an idle coroutine calls `Write`
  | write (c : κ) (event : MuxEvent) (env : WriteEnv)
  -- a coroutine woken in `Lock` resumes
  | resume (c : κ) (env : WriteEnv)
  -- the transport takes the next `n` bytes
  | transmit (c : κ) (n : ℕ)
  -- `AsyncWrite` completes, or reports an error
  | complete (c : κ)
  | writeError (c : κ)
  -- a coroutine whose `async_send` completed resumes in `Unlock`
  | unlocked (c : κ)
  | close

namespace WriterState

variable {κ : Type} [DecidableEq κ] (A : Aead) (pb : Nanopb)

def init (ctx : CipherContext) (masks : Bool) : WriterState κ where
  writeMutex := .init
  job := fun _ => .idle
  cipherCtx := ctx
  writeBuffer := List.replicate writeBufferSize 0
  masks := masks
  wire := []
  calls := 0
  closedAt := none
  done := []
  returned := []

/-- A call begins: it is in `Lock`. -/
def start (s : WriterState κ) (c : κ) (event : MuxEvent) : WriterState κ :=
  { s with
    calls := s.calls + 1
    job := Function.update s.job c (.locking s.calls event) }

/-- `Unlock`, and the return of the call if it does not suspend. -/
def runUnlock (s : WriterState κ) (c : κ) (call : ℕ) (success : Bool) : Option (WriterState κ) :=
  (s.writeMutex.step (.unlock c)).map fun m =>
    if m.pc c = .idle then
      { s with
        writeMutex := m
        job := Function.update s.job c .idle
        returned := s.returned ++ [(call, success)] }
    else { s with writeMutex := m, job := Function.update s.job c (.unlocking call success) }

/-- From the return of `Lock` to the suspension in `AsyncWrite`. -/
def runEncrypt (s : WriterState κ) (c : κ) (call : ℕ) (event : MuxEvent) (env : WriteEnv) :
    Option (WriterState κ) :=
  let r := s.cipherCtx.encrypt A pb event writeBufferSize
  if r.rc ≠ 0 then
    { s with cipherCtx := r.ctx, writeBuffer := env.scratch }.runUnlock c call false
  else
    let maskKey := if s.masks then env.maskKey else []
    some { s with
      cipherCtx := r.ctx
      writeBuffer := maskPayload maskKey r.out ++ s.writeBuffer.drop r.out.length
      job := Function.update s.job c (.writing ⟨call, event, r.out, maskKey, 0⟩) }

/-- A stretch of `Lock` has run and left the mutex in state `m`. -/
def afterLock (s : WriterState κ) (c : κ) (call : ℕ) (event : MuxEvent) (env : WriteEnv)
    (m : MutexState κ) : Option (WriterState κ) :=
  if m.pc c = .holding ∨ m.pc c = .passing then
    { s with writeMutex := m }.runEncrypt A pb c call event env
  else some { s with writeMutex := m, job := Function.update s.job c (.locking call event) }

/-- The payload the peer gets, as it stands in `write_buffer_`. -/
def payload (s : WriterState κ) (w : Writing) : Bytes :=
  maskPayload w.maskKey (s.writeBuffer.take w.frame.length)

def step (s : WriterState κ) : WriteAction κ → Option (WriterState κ)
  | .write c event env =>
      match s.job c with
      | .idle =>
          (s.writeMutex.step (.lock c)).bind
            ((s.start c event).afterLock A pb c s.calls event env)
      | _ => none
  | .resume c env =>
      match s.job c with
      | .locking call event =>
          (s.writeMutex.step (.resume c)).bind (s.afterLock A pb c call event env)
      | _ => none
  | .transmit c n =>
      match s.job c with
      | .writing w =>
          if s.closedAt = none ∧ 0 < n ∧ w.sent + n ≤ w.frame.length then
            some { s with
              wire := s.wire ++ ((s.payload w).drop w.sent).take n
              job := Function.update s.job c (.writing { w with sent := w.sent + n }) }
          else none
      | _ => none
  | .complete c =>
      match s.job c with
      | .writing w =>
          if w.sent = w.frame.length then
            { s with done := s.done ++ [(w.call, w.event)] }.runUnlock c w.call true
          else none
      | _ => none
  | .writeError c =>
      match s.job c with
      | .writing w => s.runUnlock c w.call false
      | _ => none
  | .unlocked c =>
      match s.job c with
      | .unlocking call success =>
          (s.writeMutex.step (.finish c)).map fun m =>
            { s with
              writeMutex := m
              job := Function.update s.job c .idle
              returned := s.returned ++ [(call, success)] }
      | _ => none
  | .close =>
      (s.writeMutex.step .close).map fun m =>
        { s with writeMutex := m, closedAt := s.closedAt.or (some s.calls) }

end WriterState

end Snova
