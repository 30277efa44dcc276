import Snova.Model.ReadEvent
import Snova.Model.WebSocket

/-!
# Reading events through a WebSocket

`MuxConnection::ReadEvent` (`snova/mux/mux_connection.cc`) on a connection whose `io_conn_` is a
`WebSocket` (`snova/io/ws_socket.cc`) over a `BufferedIO` (`snova/io/buffered_io.cc`): three
buffers, one above the other.  The TCP connection below delivers pieces of any size up to
`kMaxChunkSize`; each `AsyncRead` of the WebSocket delivers the payload of one frame, or fails.

A call of `WebSocket::AsyncRead` that has not got its whole frame yet waits, and is repeated from
its start when a further piece has arrived: between its suspension points it changes nothing but
its position in the stream.
-/

namespace Snova

structure WebSocketReader where
  io : BufferedIo
  reader : ReaderState

inductive WebSocketReaderAction
  -- the TCP connection delivers a piece
  | arrive (piece : Bytes)
  -- call `ReadEvent`
  | readEvent
  -- the pending `WebSocket::AsyncRead` completes
  | asyncRead

namespace WebSocketReader

variable (A : Aead) (pb : Nanopb)

def init (ctx : CipherContext) : WebSocketReader := ⟨⟨[], 0, []⟩, .init ctx⟩

/-- What `ReadEvent` does with the result of `AsyncRead`: no bytes are the end of the stream. -/
def afterAsyncRead (s : WebSocketReader) : Except IoStop (Bytes × BufferedIo) →
    Option WebSocketReader
  | .error .waiting => none
  | .error (.error ec) =>
      (s.reader.step A pb (.error ec)).map fun reader => { s with reader := reader }
  | .ok (data, io) =>
      (s.reader.step A pb (if data = [] then .error ERR_READ_EOF else .data data)).map
        fun reader => ⟨io, reader⟩

def step (s : WebSocketReader) : WebSocketReaderAction → Option WebSocketReader
  | .arrive piece =>
      if piece ≠ [] ∧ piece.length ≤ kMaxChunkSize then
        some { s with io := { s.io with source := s.io.source ++ [.ok piece] } }
      else none
  | .readEvent => (s.reader.step A pb .readEvent).map fun reader => { s with reader := reader }
  | .asyncRead =>
      match s.reader.phase with
      | .reading current =>
          s.afterAsyncRead A pb (wsAsyncRead s.io (readBufferSize - current.len))
      | _ => none

end WebSocketReader

end Snova
