import Snova.Framework.Bytes

/-!
# WebSocket frames

`WebSocket::AsyncWrite` and `AsyncRead` (`snova/io/ws_socket.cc`), with `read_exact`
(`snova/io/io_util.cc`) over `BufferedIO` (`snova/io/buffered_io.cc`).

The reads of the underlying connection are a list: each call of its `AsyncRead` takes the next
piece or error, and a call for which there is none waits (`IoStop.waiting`).  A piece is at most
what the call asked for, `kMaxChunkSize`.
-/

namespace Snova

/-! ## Masks -/

/-- The masking of a WebSocket payload; the empty key leaves it as it is. -/
def maskPayload (key bs : Bytes) : Bytes := bs.mapIdx fun i b => b ^^^ key.getD (i % 4) 0

lemma maskPayload_maskPayload (key bs : Bytes) : maskPayload key (maskPayload key bs) = bs := by
  apply List.ext_getElem
  · simp [maskPayload]
  · intro i h₁ h₂
    simp only [maskPayload, List.getElem_mapIdx]
    rw [UInt8.xor_assoc, UInt8.xor_self, UInt8.xor_zero]

lemma maskPayload_nil (bs : Bytes) : maskPayload [] bs = bs := by
  apply List.ext_getElem
  · simp [maskPayload]
  · intro i h₁ h₂
    simp [maskPayload]

@[simp] lemma length_maskPayload (key bs : Bytes) : (maskPayload key bs).length = bs.length :=
  List.length_mapIdx

/-! ## Writing -/

/-- The second byte and the extended length of a frame. -/
def wsLength (dataLen : ℕ) : UInt8 × Bytes :=
  if dataLen ≤ 125 then (UInt8.ofNat dataLen &&& 0x7F, [])
  else if 65535 < dataLen then (127, toBE 8 dataLen)
  else (126, toBE 2 dataLen)

/-- What `WebSocket::AsyncWrite` sends; a client masks with the four bytes of `maskKey`. -/
def wsAsyncWrite (isServer : Bool) (maskKey payload : Bytes) : Bytes :=
  let (byte1, extended) := wsLength payload.length
  if isServer then 0x82 :: byte1 :: (extended ++ payload)
  else 0x82 :: (0x80 ||| byte1) :: (extended ++ maskKey ++ maskPayload maskKey payload)

/-! ## Reading -/

/-- Why a read has not returned data: it waits, or returned an error. -/
inductive IoStop
  | waiting
  | error (ec : Int)

/-- `BufferedIO`: `recv_buffer_[0, length_)`, `offset_`, and what the underlying connection has
still to deliver. -/
structure BufferedIo where
  recvBuffer : Bytes
  offset : ℕ
  source : List (Except Int Bytes)

namespace BufferedIo

/-- The second half of `AsyncRead`: copy from the buffer. -/
def copyOut (io : BufferedIo) (size : ℕ) : Bytes × BufferedIo :=
  let data := (io.recvBuffer.drop io.offset).take size
  (data, { io with offset := io.offset + data.length })

/-- `BufferedIO::AsyncRead` into a buffer of `size` bytes. -/
def asyncRead (io : BufferedIo) (size : ℕ) : Except IoStop (Bytes × BufferedIo) :=
  if io.recvBuffer.length ≤ io.offset then
    match io.source with
    | [] => .error .waiting
    | .error ec :: _ => .error (.error ec)
    | .ok data :: source => .ok (copyOut ⟨data, 0, source⟩ size)
  else .ok (io.copyOut size)

/-- A read of at least one byte takes a byte or a piece. -/
lemma asyncRead_decreases {io io' : BufferedIo} {rest : ℕ} {data : Bytes}
    (h : io.asyncRead rest = .ok (data, io')) (hrest : 0 < rest) :
    io'.source.length + (rest - data.length) < io.source.length + rest := by
  rw [asyncRead] at h
  split at h
  · split at h
    · cases h
    · cases h
    · next piece source hsource =>
        obtain ⟨rfl, rfl⟩ := Prod.mk.inj (Except.ok.inj h)
        rw [hsource, List.length_cons]
        dsimp only
        omega
  · obtain ⟨rfl, rfl⟩ := Prod.mk.inj (Except.ok.inj h)
    simp only [List.length_take, List.length_drop]
    omega

/-- `read_exact`. -/
def readExact (io : BufferedIo) (rest : ℕ) : Except IoStop (Bytes × BufferedIo) :=
  if hrest : 0 < rest then
    match h : io.asyncRead rest with
    | .error stop => .error stop
    | .ok (data, io') =>
        have := asyncRead_decreases h hrest
        match io'.readExact (rest - data.length) with
        | .error stop => .error stop
        | .ok (more, io'') => .ok (data ++ more, io'')
  else .ok ([], io)
termination_by io.source.length + rest

end BufferedIo

/-- `std::errc::no_buffer_space`. -/
def noBufferSpace : Int := 105

/-- `data_msg_len`: the extended length, if the second byte says there is one. -/
def wsReadLength (io : BufferedIo) (framePayloadLen : UInt8) : Except IoStop (ℕ × BufferedIo) := do
  if framePayloadLen = 126 then
    let (dataLen, io) ← io.readExact 2
    return (ofBE dataLen, io)
  else if framePayloadLen = 127 then
    let (dataLen, io) ← io.readExact 8
    return (ofBE dataLen, io)
  else return (framePayloadLen.toNat, io)

/-- `WebSocket::AsyncRead` into a buffer of `size` bytes: the bytes it leaves there. -/
def wsAsyncRead (io : BufferedIo) (size : ℕ) : Except IoStop (Bytes × BufferedIo) := do
  let (header, io) ← io.readExact 2
  let byte1 := header.getD 1 0
  let frameMask := byte1 >>> 7
  let (dataMsgLen, io) ← wsReadLength io (byte1 &&& 0x7F)
  if size < dataMsgLen then throw (.error noBufferSpace)
  if frameMask = 1 then
    let (maskKey, io) ← io.readExact 4
    let (data, io) ← io.readExact dataMsgLen
    return (maskPayload maskKey data, io)
  else io.readExact dataMsgLen

/-- Successive calls of `AsyncRead`, with the sizes of their buffers. -/
def wsReads (io : BufferedIo) : List ℕ → Except IoStop (List Bytes × BufferedIo)
  | [] => return ([], io)
  | size :: sizes => do
      let (data, io) ← wsAsyncRead io size
      let (more, io) ← wsReads io sizes
      return (data :: more, io)

end Snova
