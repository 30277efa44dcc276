import Snova.Model.Nanopb
import Snova.Model.Write
import Snova.Properties.CipherContext

/-!
# How large a chunk may be

The two ends of a connection limit the size of a chunk by different means.  `Encrypt` is stopped
by the buffers it writes to: `encode_buffer_` and the connection's `write_buffer_`, less the head
and the tags, which leaves 8416 bytes for an encrypted body and 8432 for one that is not.
`Decrypt` compares the length field with `kMaxChunkSize + 128`, which is 8320.  A chunk between
these limits is encrypted and sent, and ends the connection at the peer.
-/

namespace Snova.CipherContext

variable {A : Aead} {pb : Nanopb} {key : Bytes} {ctx sender receiver : CipherContext}
  {ev : MuxEvent}

/-- The longest body that `Encrypt` accepts with a cipher, for an output buffer of `outSize`
bytes. -/
def encryptLimit (bodyNoEncrypt : Bool) (outSize : ℕ) : ℕ :=
  if bodyNoEncrypt then outSize - kEventHeadSize - 16
  else min (encodeBufferSize - kEventHeadSize) (outSize - kEventHeadSize - 16 - 16)

/-- `Encrypt` succeeds exactly on bodies up to its limit. -/
lemma Keyed.encrypt_rc_iff (hk : ctx.Keyed key) {outSize : ℕ}
    (hout : kEventHeadSize + kMaxChunkSize + 2 * 16 ≤ outSize) :
    (ctx.encrypt A pb ev outSize).rc = 0 ↔
      (ev.body.encoded pb).length ≤ encryptLimit ev.head.flags.bodyNoEncrypt outSize := by
  have hhead : kEventHeadSize + 16 ≤ outSize := by omega
  unfold CipherContext.encrypt encryptLimit
  rw [hk.tagLen, if_neg (by omega), hk.encryptCtx]
  simp only
  by_cases hplain : ev.head.flags.bodyNoEncrypt = true
  · rw [if_pos hplain, if_pos hplain]
    obtain hlt | hle := Nat.lt_or_ge (outSize - kEventHeadSize - 16) (ev.body.encoded pb).length
    · obtain ⟨rc, hrc, hne⟩ := EventBody.encode_of_lt hlt
      rw [hrc]
      exact iff_of_false hne (by omega)
    · rw [EventBody.encode_of_le hle]
      refine iff_of_true ?_ hle
      simp only [encryptParts, sealInto, MuxEventHead.length_encode, if_pos hhead, MuxEvent.setLen,
        hplain, Bool.true_eq_false, and_false, if_false]
  · rw [if_neg hplain, if_neg hplain]
    have hfalse : ev.head.flags.bodyNoEncrypt = false := by simpa using hplain
    obtain hlt | hle := Nat.lt_or_ge (encodeBufferSize - kEventHeadSize)
      (ev.body.encoded pb).length
    · obtain ⟨rc, hrc, hne⟩ := EventBody.encode_of_lt hlt
      rw [hrc]
      exact iff_of_false hne (by omega)
    · rw [EventBody.encode_of_le hle]
      simp only [encryptParts, sealInto, MuxEventHead.length_encode, A.length_sealed, if_pos hhead,
        MuxEvent.setLen, hfalse, and_true]
      by_cases hpos : 0 < (ev.body.encoded pb).length
      · rw [if_pos hpos]
        by_cases hfits : (ev.body.encoded pb).length + 16 ≤ outSize - (kEventHeadSize + 16)
        · rw [if_pos hfits]
          exact iff_of_true rfl (by omega)
        · rw [if_neg hfits]
          have hne : ERR_CIPHER_BODY_ENCRYPT ≠ 0 := by decide
          exact iff_of_false hne (by omega)
      · rw [if_neg hpos]
        exact iff_of_true rfl (by omega)

/-- A successful `Encrypt` writes the event's frame. -/
lemma Keyed.encrypt_out (hk : ctx.Keyed key) {outSize : ℕ}
    (h : (ctx.encrypt A pb ev outSize).rc = 0) :
    (ctx.encrypt A pb ev outSize).out = sealedFrame A pb key ctx.encryptIv ev := by
  have hspec := encrypt_spec A pb hk ev outSize
  generalize ctx.encrypt A pb ev outSize = r at h hspec
  cases hspec with
  | fail rc ev' seals nonzero sub => exact absurd h nonzero
  | ok => rfl

/-- A frame whose body is longer than `Decrypt`'s limit is invalid. -/
lemma Keyed.decrypt_sealedFrame_of_lt (hk : ctx.Keyed key)
    (hlt : kMaxChunkSize + 128 < (ev.body.encoded pb).length)
    (hlen : (ev.body.encoded pb).length < 2 ^ 16) :
    (ctx.decrypt A pb (sealedFrame A pb key ctx.decryptIv ev)).rc = ERR_INVALID_EVENT := by
  have hframe := length_sealedFrame A pb key ctx.decryptIv ev
  have hhead := @decryptHead_sealedFrame A pb ctx key hk ev []
  rw [List.append_nil] at hhead
  unfold decrypt
  rw [hk.tagLen, if_neg (by omega), hhead]
  simp only
  rw [toNat_len_withLen hlen, if_pos hlt]

/-- `Decrypt` accepts a frame exactly up to its limit. -/
lemma Keyed.decrypt_sealedFrame_rc_iff (hk : ctx.Keyed key)
    (hlen : (ev.body.encoded pb).length < 2 ^ 16) :
    (ctx.decrypt A pb (sealedFrame A pb key ctx.decryptIv ev)).rc = 0 ↔
      (ev.body.encoded pb).length ≤ kMaxChunkSize + 128 := by
  constructor
  · intro hrc
    by_contra hlt
    rw [hk.decrypt_sealedFrame_of_lt (by omega) hlen] at hrc
    cases hrc
  · intro hle
    obtain ⟨ev', -, hdec⟩ := decrypt_sealedFrame A hk hle [] none 0
    rw [List.append_nil] at hdec
    rw [hdec]

lemma encryptLimit_lt (bodyNoEncrypt : Bool) :
    encryptLimit bodyNoEncrypt writeBufferSize < 2 ^ 16 := by
  cases bodyNoEncrypt <;> decide

/-- **When a chunk that `Encrypt` accepts is accepted by `Decrypt`.**  With ChaCha20-Poly1305, the
write buffer of a connection and a peer in step, a chunk of any length and with either value of
`body_no_encrypt` that `Encrypt` accepts is accepted by `Decrypt` if and only if it has at most
`kMaxChunkSize + 128` bytes, or more than `Encrypt` accepts. -/
theorem encrypted_chunk_accepted_iff (A : Aead) (pb : Nanopb) (key : Bytes)
    (sender receiver : CipherContext) (hs : sender.FromNew "chacha20_poly1305" key)
    (hr : receiver.FromNew "chacha20_poly1305" key)
    (hiv : sender.encryptIv = receiver.decryptIv) (ev : MuxEvent) (chunk : Option Bytes)
    (chunkLen : UInt32) (valid : chunkLen.toNat ≤ (chunk.getD []).length)
    (hev : ev.body = .streamChunk chunk chunkLen valid) :
    ((sender.encrypt A pb ev writeBufferSize).rc = 0 →
        (receiver.decrypt A pb (sender.encrypt A pb ev writeBufferSize).out).rc = 0) ↔
      chunkLen.toNat ≤ kMaxChunkSize + 128 ∨
        encryptLimit ev.head.flags.bodyNoEncrypt writeBufferSize < chunkLen.toNat := by
  have hbody : (ev.body.encoded pb).length = chunkLen.toNat := by
    rw [hev, EventBody.encoded, List.length_take, Nat.min_eq_left valid]
  have hlimit := encryptLimit_lt ev.head.flags.bodyNoEncrypt
  have hrc : (sender.encrypt A pb ev writeBufferSize).rc = 0 ↔
      chunkLen.toNat ≤ encryptLimit ev.head.flags.bodyNoEncrypt writeBufferSize := by
    rw [← hbody]
    exact hs.keyed.encrypt_rc_iff (by decide)
  obtain hlt | hle := Nat.lt_or_ge (encryptLimit ev.head.flags.bodyNoEncrypt writeBufferSize)
    chunkLen.toNat
  · -- `Encrypt` refuses the chunk
    refine iff_of_true (fun hzero => ?_) (.inr hlt)
    have := hrc.mp hzero
    omega
  · have hdec : (receiver.decrypt A pb (sender.encrypt A pb ev writeBufferSize).out).rc = 0 ↔
        chunkLen.toNat ≤ kMaxChunkSize + 128 := by
      rw [hs.keyed.encrypt_out (hrc.mpr hle), hiv, ← hbody]
      exact hr.keyed.decrypt_sealedFrame_rc_iff (by omega)
    constructor
    · intro h
      exact .inl (hdec.mp (h (hrc.mpr hle)))
    · rintro (h | h) -
      · exact hdec.mpr h
      · omega

/-- A chunk of one byte, repeated. -/
def repeatedChunk (n : ℕ) (bodyNoEncrypt : Bool) : MuxEvent :=
  .ofBody (.streamChunk (some (List.replicate n 120)) (UInt32.ofNat n)
    (by rw [UInt32.toNat_ofNat', Option.getD_some, List.length_replicate]; exact Nat.mod_le _ _))
    7 ⟨bodyNoEncrypt, 0⟩

/-- The largest chunk that the peer accepts. -/
theorem encrypted_chunk_accepted_largest :
    ∃ ctx, new "chacha20_poly1305" [1] = some ctx ∧
      ((ctx.encrypt chacha20Poly1305 protobuf (repeatedChunk 8320 false) writeBufferSize).rc = 0 →
        (ctx.decrypt chacha20Poly1305 protobuf (ctx.encrypt chacha20Poly1305 protobuf
          (repeatedChunk 8320 false) writeBufferSize).out).rc = 0) := by
  obtain ⟨ctx, hctx⟩ : ∃ ctx, new "chacha20_poly1305" [1] = some ctx := ⟨_, rfl⟩
  have hnew : ctx.FromNew "chacha20_poly1305" [1] := ⟨ctx, hctx, rfl⟩
  have hiv := encryptIv_of_new hctx
  exact ⟨ctx, hctx, (encrypted_chunk_accepted_iff chacha20Poly1305 protobuf [1] ctx ctx hnew hnew
    hiv (repeatedChunk 8320 false) _ _ _ rfl).mpr (.inl (by decide))⟩

/-- One byte more: `Encrypt` succeeds, and `Decrypt` rejects the frame. -/
theorem encrypted_chunk_rejected :
    ∃ ctx, new "chacha20_poly1305" [1] = some ctx ∧
      (ctx.encrypt chacha20Poly1305 protobuf (repeatedChunk 8321 false) writeBufferSize).rc = 0 ∧
      (ctx.decrypt chacha20Poly1305 protobuf (ctx.encrypt chacha20Poly1305 protobuf
        (repeatedChunk 8321 false) writeBufferSize).out).rc = ERR_INVALID_EVENT := by
  obtain ⟨ctx, hctx⟩ : ∃ ctx, new "chacha20_poly1305" [1] = some ctx := ⟨_, rfl⟩
  have hk := keyed_of_new hctx
  have hiv := encryptIv_of_new hctx
  have hlen : ((repeatedChunk 8321 false).body.encoded protobuf).length = 8321 := by
    show ((List.replicate 8321 (120 : UInt8)).take 8321).length = 8321
    rw [List.length_take, List.length_replicate, Nat.min_self]
  have hrc : (ctx.encrypt chacha20Poly1305 protobuf (repeatedChunk 8321 false)
      writeBufferSize).rc = 0 := by
    rw [hk.encrypt_rc_iff (by decide), hlen]
    decide
  refine ⟨ctx, hctx, hrc, ?_⟩
  rw [hk.encrypt_out hrc, hiv]
  apply hk.decrypt_sealedFrame_of_lt
  · rw [hlen]
    decide
  · rw [hlen]
    decide

end Snova.CipherContext
