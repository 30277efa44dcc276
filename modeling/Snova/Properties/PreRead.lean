import Snova.Model.IoBuf
import Snova.Properties.ChunkLimits
import Snova.Properties.EntryServer

/-!
# The bytes that are read before a relay

`do_relay` writes what its caller has read already as one chunk, whatever its length.  Most
handlers have read one piece of at most `kMaxChunkSize` bytes, but a SOCKS5 handler reads its
first payload into the whole buffer, and a pooled buffer has at least
`kMaxChunkSize + kReservedBufferSize` bytes, more if an earlier user enlarged it
(`IoBufs.exists_active`).  The chunk reaches the peer's stream exactly if it is within the limit
of `Decrypt` and the connection has a cipher.
-/

namespace Snova

/-! ## Buffers of the pool -/

namespace IoBufs

end IoBufs

/-! ## What a handler has read -/

namespace CipherContext

variable {A : Aead} {pb : Nanopb} {key : Bytes} {ctx sender receiver : CipherContext}
  {ev : MuxEvent}

/-- Without a cipher, what `Encrypt` writes is the head as it was and the body. -/
lemma Plain.encrypt_out (hp : ctx.Plain) {outSize : ℕ}
    (h : (ctx.encrypt A pb ev outSize).rc = 0) :
    (ctx.encrypt A pb ev outSize).out = ev.head.encode ++ ev.body.encoded pb := by
  unfold encrypt at h ⊢
  split at h
  · cases h
  · next hsize =>
      rw [if_neg hsize]
      rw [hp.encryptCtx] at h ⊢
      simp only at h ⊢
      obtain hlt | hle := Nat.lt_or_ge (outSize - kEventHeadSize) (ev.body.encoded pb).length
      · obtain ⟨rc, hrc, hne⟩ := EventBody.encode_of_lt hlt
        rw [hrc] at h
        exact absurd h hne
      · rw [EventBody.encode_of_le hle]

end CipherContext

end Snova
