import Snova.Framework.Aead
import Snova.Framework.Reads
import Snova.Model.MuxEvent

/-!
# Cipher contexts

`CipherContext` (`snova/mux/cipher_context.{h,cc}`): how an event becomes a frame and back.
The functions are the source's, with the buffers they write replaced by the bytes they leave
there: `encrypt` takes the size of the output buffer and returns its used part, and both
functions return the context, since the nonce counters move.

BoringSSL is not part of the repository.  `EVP_AEAD_CTX_seal` and `EVP_AEAD_CTX_open` are the
two functions of an `Aead`, behind the check that the output fits (`sealInto`, `openInto`).
`encrypt` also returns the calls of `EVP_AEAD_CTX_seal` it made, with their nonces and
plaintexts; nothing reads them but the statements about nonces.

`Decrypt` is given its input as a pointer and a size.  `decrypt` is the function of the bytes
between them; `decryptSpan` is the same function as the code performs it, reading the bytes it
wants behind the pointer, with nothing but its own comparisons with the size to stop it.
-/

namespace Snova

/-- `EVP_AEAD_CTX_seal` into `maxOut` bytes. -/
def sealInto (A : Aead) (key nonce plaintext : Bytes) (maxOut : ℕ) : Option Bytes :=
  if plaintext.length + 16 ≤ maxOut then some (A.sealed key nonce plaintext) else none

/-- `EVP_AEAD_CTX_open` into `maxOut` bytes. -/
def openInto (A : Aead) (key nonce ciphertext : Bytes) (maxOut : ℕ) : Option Bytes :=
  if ciphertext.length ≤ maxOut + 16 then A.opened key nonce ciphertext else none

/-- `CipherContext`.  The two `EVP_AEAD_CTX` pointers are null for the method `none`; else they
hold the key. -/
structure CipherContext where
  encryptCtx : Option Bytes
  decryptCtx : Option Bytes
  encryptIv : UInt64
  decryptIv : UInt64
  cipherNonceLen : ℕ
  cipherTagLen : ℕ

/-- A call of `EVP_AEAD_CTX_seal`: key, nonce, plaintext. -/
structure SealCall where
  key : Bytes
  nonce : Bytes
  plaintext : Bytes
  deriving DecidableEq

/-- What `Encrypt` leaves: its return code, the used part of the output buffer, the context, the
event (whose `head.len` it fills in), and the seals it made. -/
structure EncryptResult where
  rc : Int
  out : Bytes
  ctx : CipherContext
  ev : MuxEvent
  seals : List SealCall

/-- What `Decrypt` leaves: its return code, the event, `decrypt_len` and the context. -/
structure DecryptResult where
  rc : Int
  out : Option MuxEvent
  decryptLen : ℕ
  ctx : CipherContext

namespace CipherContext

/-- `default_iv` of `New`. -/
def defaultIv : UInt64 := 102477889876

/-- `std::string::resize`. -/
def resize (n : ℕ) (bs : Bytes) : Bytes := bs.take n ++ List.replicate (n - bs.length) 0

/-- `encode_buffer_.size()`. -/
def encodeBufferSize : ℕ := kMaxChunkSize + kEventHeadSize + kReservedBufferSize

/-- `decode_buffer_.size()`. -/
def decodeBufferSize : ℕ := kMaxChunkSize + kReservedBufferSize

/-- `CipherContext::UpdateNonce`: both counters. -/
def updateNonce (ctx : CipherContext) (nonce : UInt64) : CipherContext :=
  { ctx with encryptIv := nonce, decryptIv := nonce }

/-- `CipherContext::New`: `none` for an unsupported method. -/
def new (method : String) (key : Bytes) : Option CipherContext :=
  if method = "chacha20_poly1305" then
    some
      { encryptCtx := some (resize 32 key)
        decryptCtx := some (resize 32 key)
        encryptIv := defaultIv
        decryptIv := defaultIv
        cipherNonceLen := 12
        cipherTagLen := 16 }
  else if method = "none" then
    some
      { encryptCtx := none
        decryptCtx := none
        encryptIv := 0
        decryptIv := 0
        cipherNonceLen := 0
        cipherTagLen := 0 }
  else none

/-- The counter in network order, followed by zeros. -/
def nonceOf (iv : UInt64) (len : ℕ) : Bytes := toBE 8 iv.toNat ++ List.replicate (len - 8) 0

variable (A : Aead) (pb : Nanopb)

/-! ## Encrypt -/

/-- `CipherContext::Encrypt` with a cipher, from the header's encoding on: `body` is what the
event's `Encode` wrote. -/
def encryptParts (ctx : CipherContext) (key : Bytes) (ev : MuxEvent) (body : Bytes)
    (outSize : ℕ) : EncryptResult :=
  let ev := ev.setLen (UInt16.ofNat body.length)
  let nonce := nonceOf ctx.encryptIv ctx.cipherNonceLen
  let headSeal : SealCall := ⟨key, nonce, ev.head.encode⟩
  let bodySeal : SealCall := ⟨key, nonce, body⟩
  match sealInto A key nonce ev.head.encode outSize with
  | none => ⟨ERR_CIPHER_HEADER_ENCRYPT, [], ctx, ev, []⟩
  | some header =>
      if 0 < body.length ∧ ev.head.flags.bodyNoEncrypt = false then
        match sealInto A key nonce body (outSize - header.length) with
        | none => ⟨ERR_CIPHER_BODY_ENCRYPT, [], ctx, ev, [headSeal]⟩
        | some sealedBody =>
            ⟨0, header ++ sealedBody, { ctx with encryptIv := ctx.encryptIv + 1 }, ev,
              [headSeal, bodySeal]⟩
      else
        -- The body already stands behind the place of the header.
        ⟨0, header ++ body, { ctx with encryptIv := ctx.encryptIv + 1 }, ev, [headSeal]⟩

/-- `CipherContext::Encrypt` into a buffer of `outSize` bytes. -/
def encrypt (ctx : CipherContext) (ev : MuxEvent) (outSize : ℕ) : EncryptResult :=
  if outSize < kEventHeadSize + kMaxChunkSize + 2 * ctx.cipherTagLen then
    ⟨ERR_NEED_MORE_OUTPUT_BUFFER, [], ctx, ev, []⟩
  else
    match ctx.encryptCtx with
    | none =>
        -- The head is encoded before the body, with the length field the event came with.
        match ev.body.encode pb (outSize - kEventHeadSize) with
        | .error rc => ⟨rc, [], ctx, ev, []⟩
        | .ok body => ⟨0, ev.head.encode ++ body, ctx, ev, []⟩
    | some key =>
        let capacity :=
          if ev.head.flags.bodyNoEncrypt then outSize - kEventHeadSize - ctx.cipherTagLen
          else encodeBufferSize - kEventHeadSize
        match ev.body.encode pb capacity with
        | .error rc => ⟨rc, [], ctx, ev, []⟩
        | .ok body => ctx.encryptParts A key ev body outSize

/-! ## Decrypt -/

/-- The head of a frame: plain, or opened with the nonce of the next frame. -/
def decryptHead (ctx : CipherContext) (input : Bytes) : Except Int MuxEventHead :=
  match ctx.decryptCtx with
  | none => .ok ((MuxEventHead.decode input).getD {})
  | some key =>
      match openInto A key (nonceOf ctx.decryptIv ctx.cipherNonceLen)
          (input.take (kEventHeadSize + ctx.cipherTagLen)) (kEventHeadSize + 20) with
      | none => .error ERR_CIPHER_HEADER_DECRYPT
      | some headBuf => .ok ((MuxEventHead.decode (headBuf.take kEventHeadSize)).getD {})

/-- `expected_len`: the length of the frame a head announces. -/
def expectedLen (ctx : CipherContext) (head : MuxEventHead) : ℕ :=
  kEventHeadSize + head.len.toNat + ctx.cipherTagLen +
    if head.flags.bodyNoEncrypt = false ∧ 0 < head.len.toNat then ctx.cipherTagLen else 0

/-- The body of a complete frame, and how many bytes of input it takes. -/
def decryptBody (ctx : CipherContext) (head : MuxEventHead) (input : Bytes) :
    Except Int (Bytes × ℕ) :=
  match ctx.decryptCtx with
  | none => .ok ((input.drop kEventHeadSize).take head.len.toNat, head.len.toNat)
  | some key =>
      if head.flags.bodyNoEncrypt then
        .ok ((input.drop (kEventHeadSize + ctx.cipherTagLen)).take head.len.toNat, head.len.toNat)
      else
        match openInto A key (nonceOf ctx.decryptIv ctx.cipherNonceLen)
            ((input.drop (kEventHeadSize + ctx.cipherTagLen)).take
              (head.len.toNat + ctx.cipherTagLen)) decodeBufferSize with
        | none => .error ERR_CIPHER_BODY_DECRYPT
        | some body => .ok (body.take head.len.toNat, head.len.toNat + ctx.cipherTagLen)

/-- `CipherContext::Decrypt` from the point where the whole frame is there. -/
def decryptFrame (ctx : CipherContext) (head : MuxEventHead) (input : Bytes) : DecryptResult :=
  let headLen := kEventHeadSize + ctx.cipherTagLen
  let next := { ctx with decryptIv := ctx.decryptIv + 1 }
  match MuxEvent.newEvent head with
  | none => ⟨ERR_INVALID_EVENT, none, headLen, ctx⟩
  | some ev =>
      if head.len.toNat = 0 then ⟨0, some ev, headLen, next⟩
      else
        match ctx.decryptBody A head input with
        | .error rc => ⟨rc, some ev, headLen, ctx⟩
        | .ok (body, n) =>
            match ev.decode pb body with
            | .error rc => ⟨rc, none, headLen + n, ctx⟩
            | .ok ev => ⟨0, some ev, headLen + n, next⟩

/-- `CipherContext::Decrypt`; `out` and `decryptLen` are the caller's variables. -/
def decrypt (ctx : CipherContext) (input : Bytes) (out : Option MuxEvent := none)
    (decryptLen : ℕ := 0) : DecryptResult :=
  if input.length < kEventHeadSize + ctx.cipherTagLen then
    ⟨ERR_NEED_MORE_INPUT_DATA, out, decryptLen, ctx⟩
  else
    match ctx.decryptHead A input with
    | .error rc => ⟨rc, out, 0, ctx⟩
    | .ok head =>
        if kMaxChunkSize + 128 < head.len.toNat then ⟨ERR_INVALID_EVENT, out, 0, ctx⟩
        else if input.length < ctx.expectedLen head then
          ⟨ERR_NEED_MORE_INPUT_DATA, out, kEventHeadSize + ctx.cipherTagLen, ctx⟩
        else ctx.decryptFrame A pb head input

/-! ## Decrypt, byte by byte -/

/-- The head, read from memory. -/
def decryptHeadSpan (ctx : CipherContext) : Reads ℕ UInt8 (Except Int MuxEventHead) :=
  match ctx.decryptCtx with
  | none => do
      let bytes ← Reads.getMany (List.range kEventHeadSize)
      return .ok ((MuxEventHead.decode bytes).getD {})
  | some key => do
      let bytes ← Reads.getMany (List.range (kEventHeadSize + ctx.cipherTagLen))
      match openInto A key (nonceOf ctx.decryptIv ctx.cipherNonceLen) bytes
          (kEventHeadSize + 20) with
      | none => return .error ERR_CIPHER_HEADER_DECRYPT
      | some headBuf => return .ok ((MuxEventHead.decode (headBuf.take kEventHeadSize)).getD {})

/-- The body, read from memory. -/
def decryptBodySpan (ctx : CipherContext) (head : MuxEventHead) :
    Reads ℕ UInt8 (Except Int (Bytes × ℕ)) :=
  match ctx.decryptCtx with
  | none => do
      let body ← Reads.getMany (List.range' kEventHeadSize head.len.toNat)
      return .ok (body, head.len.toNat)
  | some key =>
      if head.flags.bodyNoEncrypt then do
        let body ← Reads.getMany
          (List.range' (kEventHeadSize + ctx.cipherTagLen) head.len.toNat)
        return .ok (body, head.len.toNat)
      else do
        let bytes ← Reads.getMany
          (List.range' (kEventHeadSize + ctx.cipherTagLen) (head.len.toNat + ctx.cipherTagLen))
        match openInto A key (nonceOf ctx.decryptIv ctx.cipherNonceLen) bytes
            decodeBufferSize with
        | none => return .error ERR_CIPHER_BODY_DECRYPT
        | some body => return .ok (body.take head.len.toNat, head.len.toNat + ctx.cipherTagLen)

/-- A complete frame, its body read from memory. -/
def decryptFrameSpan (ctx : CipherContext) (head : MuxEventHead) : Reads ℕ UInt8 DecryptResult :=
  let headLen := kEventHeadSize + ctx.cipherTagLen
  let next := { ctx with decryptIv := ctx.decryptIv + 1 }
  match MuxEvent.newEvent head with
  | none => return ⟨ERR_INVALID_EVENT, none, headLen, ctx⟩
  | some ev =>
      if head.len.toNat = 0 then return ⟨0, some ev, headLen, next⟩
      else do
        match ← ctx.decryptBodySpan A head with
        | .error rc => return ⟨rc, some ev, headLen, ctx⟩
        | .ok (body, n) =>
            match ev.decode pb body with
            | .error rc => return ⟨rc, none, headLen + n, ctx⟩
            | .ok ev => return ⟨0, some ev, headLen + n, next⟩

/-- `CipherContext::Decrypt` on `size` bytes of memory, from address zero on. -/
def decryptSpan (ctx : CipherContext) (size : ℕ) (out : Option MuxEvent) (decryptLen : ℕ) :
    Reads ℕ UInt8 DecryptResult :=
  if size < kEventHeadSize + ctx.cipherTagLen then
    return ⟨ERR_NEED_MORE_INPUT_DATA, out, decryptLen, ctx⟩
  else do
    match ← ctx.decryptHeadSpan A with
    | .error rc => return ⟨rc, out, 0, ctx⟩
    | .ok head =>
        if kMaxChunkSize + 128 < head.len.toNat then return ⟨ERR_INVALID_EVENT, out, 0, ctx⟩
        else if size < ctx.expectedLen head then
          return ⟨ERR_NEED_MORE_INPUT_DATA, out, kEventHeadSize + ctx.cipherTagLen, ctx⟩
        else ctx.decryptFrameSpan A pb head

end CipherContext

end Snova
