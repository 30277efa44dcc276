import Snova.Framework.Bytes
import Mathlib.Data.List.TakeWhile
import Mathlib.Algebra.GroupWithZero.Nat

/-!
# Mux events

The frames of a mux connection (`snova/mux/mux_event.{h,cc}`, `mux_event.pb.h`): an eight-byte
head, and a body whose layout the head's type selects.  Seven of the ten event types carry a
protobuf message and differ only in its descriptor; their `Encode` and `Decode` are
`EventBody.encode` and `EventBody.decode` at `EventBody.proto kind message`.  A stream chunk
carries raw bytes, and the two remaining types have no body.

nanopb is not part of the repository.  `Nanopb` is what the events use of it: the bytes
`pb_encode_delimited` produces for a message, `pb_decode_delimited`, and two documented facts
about them, that decoding undoes encoding and that a delimited message has at least its length
byte.
-/

namespace Snova

/-! ## Constants -/

/-- `kMaxChunkSize` (`snova/io/io.h`). -/
def kMaxChunkSize : ℕ := 8192

/-- `kReservedBufferSize` (`snova/io/io.h`). -/
def kReservedBufferSize : ℕ := 256

/-- `kEventHeadSize`. -/
def kEventHeadSize : ℕ := 8

def ERR_NEED_MORE_INPUT_DATA : Int := -1000
def ERR_NEED_MORE_OUTPUT_BUFFER : Int := -1001
def ERR_INVALID_EVENT : Int := -1002
def ERR_TOO_LARGE_EVENT_ENCODE_CONTENT : Int := -1003
def ERR_READ_EOF : Int := -1005
def ERR_TOO_SMALL_EVENT_DECODE_CONTENT : Int := -1006
def ERR_PB_ENCODE : Int := -1007
def ERR_PB_DECODE : Int := -1008
def ERR_CIPHER_HEADER_ENCRYPT : Int := -1010
def ERR_CIPHER_HEADER_DECRYPT : Int := -1011
def ERR_CIPHER_BODY_ENCRYPT : Int := -1012
def ERR_CIPHER_BODY_DECRYPT : Int := -1013

/-! ## The head -/

instance neZero_reserved : NeZero 128 := ⟨by decide⟩

/-- `MuxFlags`: one bit and seven reserved ones. -/
structure MuxFlags where
  bodyNoEncrypt : Bool := false
  reserved : Fin 128 := 0
  deriving DecidableEq, Repr

/-- The byte the bit-field struct occupies, first member in the lowest bit. -/
def MuxFlags.toByte (f : MuxFlags) : UInt8 := UInt8.ofNat (f.bodyNoEncrypt.toNat + 2 * f.reserved)

def MuxFlags.ofByte (b : UInt8) : MuxFlags where
  bodyNoEncrypt := b.toNat % 2 = 1
  reserved := ⟨b.toNat / 2, by have := b.toNat_lt; omega⟩

@[simp] lemma MuxFlags.ofByte_toByte (f : MuxFlags) : MuxFlags.ofByte f.toByte = f := by
  obtain ⟨b, r, hr⟩ := f
  have hb : b.toNat < 2 := by cases b <;> decide
  have hbyte : (UInt8.ofNat (b.toNat + 2 * r)).toNat = b.toNat + 2 * r := by
    rw [UInt8.toNat_ofNat']; omega
  simp only [MuxFlags.ofByte, MuxFlags.toByte, hbyte, MuxFlags.mk.injEq, Fin.mk.injEq]
  constructor
  · cases b <;> simp
  · omega

/-- `MuxEventHead`. -/
structure MuxEventHead where
  sid : UInt32 := 0
  len : UInt16 := 0
  type : UInt8 := 0
  flags : MuxFlags := {}
  deriving DecidableEq, Repr

namespace MuxEventHead

/-- `MuxEventHead::Encode`: `sid` and `len` in network order, then `type` and `flags`.  Its
callers always give it room for the eight bytes. -/
def encode (h : MuxEventHead) : Bytes :=
  toBE 4 h.sid.toNat ++ toBE 2 h.len.toNat ++ [h.type, h.flags.toByte]

/-- `MuxEventHead::Decode`: the first eight bytes; fewer are an error. -/
def decode (bs : Bytes) : Option MuxEventHead :=
  match bs with
  | s₀ :: s₁ :: s₂ :: s₃ :: l₀ :: l₁ :: t :: f :: _ =>
      some
        { sid := UInt32.ofNat (ofBE [s₀, s₁, s₂, s₃])
          len := UInt16.ofNat (ofBE [l₀, l₁])
          type := t
          flags := .ofByte f }
  | _ => none

@[simp] lemma length_encode (h : MuxEventHead) : h.encode.length = kEventHeadSize := by
  simp [encode, kEventHeadSize]

/-- The bytes that follow the head do not matter. -/
lemma decode_encode_append (h : MuxEventHead) (rest : Bytes) :
    decode (h.encode ++ rest) = some h := by
  obtain ⟨s₀, s₁, s₂, s₃, hs⟩ : ∃ a b c d, toBE 4 h.sid.toNat = [a, b, c, d] :=
    ⟨_, _, _, _, rfl⟩
  obtain ⟨l₀, l₁, hl⟩ : ∃ a b, toBE 2 h.len.toNat = [a, b] := ⟨_, _, rfl⟩
  have hsid := ofBE_toBE 4 h.sid.toNat
  have hlen := ofBE_toBE 2 h.len.toNat
  rw [hs, Nat.mod_eq_of_lt (by simpa using h.sid.toNat_lt)] at hsid
  rw [hl, Nat.mod_eq_of_lt (by simpa using h.len.toNat_lt)] at hlen
  simp [encode, decode, hs, hl, hsid, hlen]

lemma decode_encode (h : MuxEventHead) : decode h.encode = some h := by
  simpa using decode_encode_append h []

end MuxEventHead

/-! ## Protobuf messages -/

/-- The contents of a `char[n]` field: a C string that fits it with its terminator. -/
structure CString (n : ℕ) where
  bytes : Bytes
  fits : bytes.length < n
  terminated : (0 : UInt8) ∉ bytes
  deriving DecidableEq

/-- `snprintf(dst, n, "%s", src)`: copy up to the first zero byte, truncating to the field. -/
def CString.snprintf (n : ℕ) (hn : 0 < n) (src : Bytes) : CString n where
  bytes := (src.takeWhile (· ≠ 0)).take (n - 1)
  fits := by rw [List.length_take]; omega
  terminated := fun h => by
    have hmem := List.mem_takeWhile_imp (List.mem_of_mem_take h)
    simp at hmem

/-- `""`, the initial value of every string field. -/
def CString.empty (n : ℕ) (hn : 0 < n) : CString n := ⟨[], hn, List.not_mem_nil⟩

/-- The size of `user`. -/
lemma pos_256 : 0 < 256 := by decide

/-- The size of the other string fields. -/
lemma pos_512 : 0 < 512 := by decide

structure AuthRequest where
  user : CString 256 := .empty 256 pos_256
  clientId : UInt64 := 0
  isEntry : Bool := false
  isExit : Bool := false
  isMiddle : Bool := false
  deriving DecidableEq

structure AuthResponse where
  success : Bool := false
  iv : UInt64 := 0
  deriving DecidableEq

structure CommonResponse where
  success : Bool := false
  errc : Int32 := 0
  reason : CString 512 := .empty 512 pos_512
  deriving DecidableEq

structure StreamOpenRequest where
  remoteHost : CString 512 := .empty 512 pos_512
  remotePort : UInt32 := 0
  isTcp : Bool := false
  isTls : Bool := false
  deriving DecidableEq

structure TunnelOpenRequest where
  localHost : CString 512 := .empty 512 pos_512
  localPort : UInt32 := 0
  remotePort : UInt32 := 0
  isTcp : Bool := false
  deriving DecidableEq

structure TunnelOpenResponse where
  success : Bool := false
  tunnelId : UInt64 := 0
  errc : Int32 := 0
  deriving DecidableEq

structure TunnelCloseRequest where
  tunnelId : UInt64 := 0
  deriving DecidableEq

/-- The message descriptors (`snova_AuthRequest_fields` and so on). -/
inductive PbKind
  | authRequest
  | authResponse
  | commonResponse
  | streamOpenRequest
  | tunnelOpenRequest
  | tunnelOpenResponse
  | tunnelCloseRequest
  deriving DecidableEq, Repr

/-- The struct a descriptor describes. -/
abbrev PbKind.Message : PbKind → Type
  | .authRequest => AuthRequest
  | .authResponse => AuthResponse
  | .commonResponse => CommonResponse
  | .streamOpenRequest => StreamOpenRequest
  | .tunnelOpenRequest => TunnelOpenRequest
  | .tunnelOpenResponse => TunnelOpenResponse
  | .tunnelCloseRequest => TunnelCloseRequest

/-- `snova_AuthRequest_init_default` and so on. -/
def PbKind.initDefault : (k : PbKind) → k.Message
  | .authRequest => {}
  | .authResponse => {}
  | .commonResponse => {}
  | .streamOpenRequest => {}
  | .tunnelOpenRequest => {}
  | .tunnelOpenResponse => {}
  | .tunnelCloseRequest => {}

/-- What the events use of nanopb. -/
structure Nanopb where
  encodeDelimited : (k : PbKind) → k.Message → Bytes
  decodeDelimited : (k : PbKind) → Bytes → Option k.Message
  decode_encode : ∀ k m, decodeDelimited k (encodeDelimited k m) = some m
  encode_ne_nil : ∀ k m, encodeDelimited k m ≠ []

/-! ## Bodies -/

/-- The part of an event its class adds to the head. -/
inductive EventBody
  -- `AuthRequest`, `AuthResponse`, `CommonResponse`, `StreamOpenRequest`, `TunnelOpenRequest`,
  -- `TunnelOpenResponse`, `TunnelCloseRequest`
  | proto (kind : PbKind) (message : kind.Message)
  | streamCloseRequest
  | retireConnRequest
  -- `chunk` is a pointer: a chunk of length zero may have none, a longer one has its bytes.
  | streamChunk (chunk : Option Bytes) (chunkLen : UInt32)
      (valid : chunkLen.toNat ≤ (chunk.getD []).length)

namespace EventBody

/-- `enum EventType`: the value the class's constructor puts in `head.type`. -/
def type : EventBody → UInt8
  | proto .authRequest _ => 1
  | proto .authResponse _ => 2
  | proto .streamOpenRequest _ => 3
  | streamCloseRequest => 4
  | streamChunk .. => 5
  | retireConnRequest => 6
  | proto .tunnelOpenRequest _ => 7
  | proto .tunnelOpenResponse _ => 8
  | proto .tunnelCloseRequest _ => 9
  | proto .commonResponse _ => 100

/-- A default-constructed `StreamChunk`. -/
def emptyChunk : EventBody := .streamChunk none 0 (by simp)

/-- `Encode` into a buffer of `capacity` bytes. -/
def encode (pb : Nanopb) (capacity : ℕ) : EventBody → Except Int Bytes
  | proto k m =>
      if (pb.encodeDelimited k m).length ≤ capacity then .ok (pb.encodeDelimited k m)
      else .error ERR_PB_ENCODE
  | streamCloseRequest => .ok []
  | retireConnRequest => .ok []
  | streamChunk chunk chunkLen _ =>
      if capacity < chunkLen.toNat then .error ERR_TOO_LARGE_EVENT_ENCODE_CONTENT
      else .ok ((chunk.getD []).take chunkLen.toNat)

/-- `Decode` of a body with length field `len` into a default-constructed event. -/
def decode (pb : Nanopb) (len : UInt16) (buffer : Bytes) : EventBody → Except Int EventBody
  | proto k _ =>
      match pb.decodeDelimited k buffer with
      | some m => .ok (.proto k m)
      | none => .error ERR_PB_DECODE
  | streamCloseRequest => .ok .streamCloseRequest
  | retireConnRequest => .ok .retireConnRequest
  | streamChunk .. =>
      if 2 * kMaxChunkSize < len.toNat then .error ERR_INVALID_EVENT
      else if h : buffer.length < len.toNat then .error ERR_TOO_SMALL_EVENT_DECODE_CONTENT
      else .ok (.streamChunk (some (buffer.take len.toNat)) (UInt32.ofNat len.toNat) (by
        have hlen := len.toNat_lt
        rw [Option.getD_some, List.length_take, UInt32.toNat_ofNat']
        omega))

lemma type_decode {pb : Nanopb} {len : UInt16} {buffer : Bytes} {b b' : EventBody}
    (h : b.decode pb len buffer = .ok b') : b'.type = b.type := by
  cases b with
  | proto k m =>
      simp only [decode] at h
      split at h
      · rw [← Except.ok.inj h]
        cases k <;> rfl
      · cases h
  | streamCloseRequest => rw [← Except.ok.inj h]
  | retireConnRequest => rw [← Except.ok.inj h]
  | streamChunk chunk chunkLen valid =>
      simp only [decode] at h
      split at h
      · cases h
      · split at h
        · cases h
        · rw [← Except.ok.inj h]
          rfl

end EventBody

/-! ## Events -/

/-- `MuxEvent`: the head's type is the one of its class. -/
structure MuxEvent where
  head : MuxEventHead
  body : EventBody
  type_eq : head.type = body.type

namespace MuxEvent

/-- A freshly constructed event with a stream id. -/
def ofBody (body : EventBody) (sid : UInt32 := 0) (flags : MuxFlags := {}) : MuxEvent where
  head := { sid := sid, type := body.type, flags := flags }
  body := body
  type_eq := rfl

/-- `head.len = n`, as `Encrypt` writes it. -/
def setLen (ev : MuxEvent) (n : UInt16) : MuxEvent where
  head := { ev.head with len := n }
  body := ev.body
  type_eq := ev.type_eq

/-- The virtual `Decode`: the head stays, the body is read. -/
def decode (pb : Nanopb) (buffer : Bytes) (ev : MuxEvent) : Except Int MuxEvent :=
  match h : ev.body.decode pb ev.head.len buffer with
  | .ok b => .ok ⟨ev.head, b, ev.type_eq.trans (EventBody.type_decode h).symm⟩
  | .error rc => .error rc

/-- `MuxEvent::NewEvent`: a default-constructed event of the class the head's type selects. -/
def newEvent (h : MuxEventHead) : Option MuxEvent :=
  if ht : h.type = 1 then some ⟨h, .proto .authRequest (PbKind.initDefault _), ht⟩
  else if ht : h.type = 2 then some ⟨h, .proto .authResponse (PbKind.initDefault _), ht⟩
  else if ht : h.type = 3 then some ⟨h, .proto .streamOpenRequest (PbKind.initDefault _), ht⟩
  else if ht : h.type = 4 then some ⟨h, .streamCloseRequest, ht⟩
  else if ht : h.type = 5 then some ⟨h, .emptyChunk, ht⟩
  else if ht : h.type = 6 then some ⟨h, .retireConnRequest, ht⟩
  else if ht : h.type = 7 then some ⟨h, .proto .tunnelOpenRequest (PbKind.initDefault _), ht⟩
  else if ht : h.type = 8 then some ⟨h, .proto .tunnelOpenResponse (PbKind.initDefault _), ht⟩
  else if ht : h.type = 9 then some ⟨h, .proto .tunnelCloseRequest (PbKind.initDefault _), ht⟩
  else if ht : h.type = 100 then some ⟨h, .proto .commonResponse (PbKind.initDefault _), ht⟩
  else none

end MuxEvent

/-! ## What an event says, and what its body looks like on the wire -/

/-- The content of a body: its message, or the bytes of its chunk. -/
inductive Payload
  | message (kind : PbKind) (m : kind.Message)
  | bytes (b : Bytes)

namespace EventBody

/-- The content the class carries; the two empty classes carry no bytes. -/
def payload : EventBody → Payload
  | proto k m => .message k m
  | streamCloseRequest => .bytes []
  | retireConnRequest => .bytes []
  | streamChunk chunk chunkLen _ => .bytes ((chunk.getD []).take chunkLen.toNat)

/-- The bytes `Encode` writes when it has room for them. -/
def encoded (pb : Nanopb) : EventBody → Bytes
  | proto k m => pb.encodeDelimited k m
  | streamCloseRequest => []
  | retireConnRequest => []
  | streamChunk chunk chunkLen _ => (chunk.getD []).take chunkLen.toNat

/-- The default-constructed body of the same class. -/
def fresh : EventBody → EventBody
  | proto k _ => .proto k k.initDefault
  | streamCloseRequest => .streamCloseRequest
  | retireConnRequest => .retireConnRequest
  | streamChunk .. => .emptyChunk

lemma type_fresh (b : EventBody) : b.fresh.type = b.type := by
  cases b with
  | proto k m => cases k <;> rfl
  | streamCloseRequest => rfl
  | retireConnRequest => rfl
  | streamChunk chunk chunkLen valid => rfl

lemma encode_of_le {pb : Nanopb} {capacity : ℕ} {b : EventBody}
    (h : (b.encoded pb).length ≤ capacity) : b.encode pb capacity = .ok (b.encoded pb) := by
  cases b with
  | proto k m => exact if_pos h
  | streamCloseRequest => rfl
  | retireConnRequest => rfl
  | streamChunk chunk chunkLen valid =>
      rw [encoded, List.length_take, Nat.min_eq_left valid] at h
      exact if_neg (by omega)

/-- A body that does not fit is an error, and never the success code. -/
lemma encode_of_lt {pb : Nanopb} {capacity : ℕ} {b : EventBody}
    (h : capacity < (b.encoded pb).length) : ∃ rc, b.encode pb capacity = .error rc ∧ rc ≠ 0 := by
  cases b with
  | proto k m => exact ⟨ERR_PB_ENCODE, if_neg (by simpa [encoded] using h), by decide⟩
  | streamCloseRequest => simp [encoded] at h
  | retireConnRequest => simp [encoded] at h
  | streamChunk chunk chunkLen valid =>
      rw [encoded, List.length_take, Nat.min_eq_left valid] at h
      exact ⟨ERR_TOO_LARGE_EVENT_ENCODE_CONTENT, if_pos h, by decide⟩

/-- A body whose encoding is empty says what a default-constructed one says. -/
lemma payload_fresh_of_encoded_nil {pb : Nanopb} {b : EventBody} (h : b.encoded pb = []) :
    b.fresh.payload = b.payload := by
  cases b with
  | proto k m => exact absurd h (pb.encode_ne_nil k m)
  | streamCloseRequest => rfl
  | retireConnRequest => rfl
  | streamChunk chunk chunkLen valid =>
      rw [encoded] at h
      simp [fresh, emptyChunk, payload, h]

/-- `Decode` reads back what `Encode` wrote, with the length field that goes with it. -/
lemma decode_encoded {pb : Nanopb} {b : EventBody} {len : UInt16}
    (hlen : len.toNat = (b.encoded pb).length) (hmax : len.toNat ≤ 2 * kMaxChunkSize) :
    ∃ b', b.fresh.decode pb len (b.encoded pb) = .ok b' ∧ b'.type = b.type ∧
      b'.payload = b.payload := by
  cases b with
  | proto k m =>
      refine ⟨.proto k m, ?_, rfl, rfl⟩
      simp only [fresh, decode, encoded, pb.decode_encode]
  | streamCloseRequest => exact ⟨.streamCloseRequest, rfl, rfl, rfl⟩
  | retireConnRequest => exact ⟨.retireConnRequest, rfl, rfl, rfl⟩
  | streamChunk chunk chunkLen valid =>
      rw [encoded] at hlen ⊢
      have hle : len.toNat < 2 ^ 32 := by have := len.toNat_lt; omega
      have htake : List.take len.toNat (List.take chunkLen.toNat (chunk.getD []))
          = List.take chunkLen.toNat (chunk.getD []) := by
        rw [hlen, List.take_length]
      simp only [fresh, emptyChunk, decode]
      rw [if_neg (by omega), dif_neg (by omega)]
      refine ⟨_, rfl, rfl, ?_⟩
      simp only [payload, Option.getD_some, UInt32.toNat_ofNat', Nat.mod_eq_of_lt hle, htake]

end EventBody

namespace MuxEvent

/-- `NewEvent` builds the default event of the class whose type the head carries. -/
lemma newEvent_of_type {h : MuxEventHead} {b : EventBody} (ht : h.type = b.type) :
    newEvent h = some ⟨h, b.fresh, ht.trans b.type_fresh.symm⟩ := by
  cases b with
  | proto k m => cases k <;> simp [newEvent, ht, EventBody.type, EventBody.fresh]
  | streamCloseRequest => simp [newEvent, ht, EventBody.type, EventBody.fresh]
  | retireConnRequest => simp [newEvent, ht, EventBody.type, EventBody.fresh]
  | streamChunk chunk chunkLen valid => simp [newEvent, ht, EventBody.type, EventBody.fresh]

/-- What the two ends of a connection compare: type, stream, flags and content. -/
structure Same (a b : MuxEvent) : Prop where
  type : a.head.type = b.head.type
  sid : a.head.sid = b.head.sid
  flags : a.head.flags = b.head.flags
  payload : a.body.payload = b.body.payload

end MuxEvent

end Snova
