import Snova.Framework.Framing
import Snova.Model.CipherContext

/-!
# What the two functions of a cipher context do

The facts about `Encrypt` and `Decrypt` the rest of the development rests on, one per function
and outcome, so that nothing below unfolds them again.

`decrypt_spec` lists the outcomes of `Decrypt` and what each leaves behind, and
`decrypt_append` says that bytes behind a frame do not change its verdict; together they make
`Decrypt` a `Decoder`, for either cipher method.  `encrypt_spec` lists the outcomes of `Encrypt`
with a cipher: a failed call leaves the nonce counter alone, and a successful one writes
`sealedFrame` and moves it by one.  `decrypt_sealedFrame` closes the circle.
-/

namespace Snova

/-! ## Heads and bodies -/

lemma EventBody.decode_error {pb : Nanopb} {len : UInt16} {buffer : Bytes} {b : EventBody}
    {rc : Int} (h : b.decode pb len buffer = .error rc) :
    rc ≠ 0 ∧ rc ≠ ERR_NEED_MORE_INPUT_DATA := by
  cases b with
  | proto k m =>
      simp only [decode] at h
      split at h
      · cases h
      · rw [← Except.error.inj h]; decide
  | streamCloseRequest => cases h
  | retireConnRequest => cases h
  | streamChunk chunk chunkLen valid =>
      simp only [decode] at h
      split at h
      · rw [← Except.error.inj h]; decide
      · split at h
        · rw [← Except.error.inj h]; decide
        · cases h

lemma MuxEvent.decode_error {pb : Nanopb} {buffer : Bytes} {ev : MuxEvent} {rc : Int}
    (h : ev.decode pb buffer = .error rc) : rc ≠ 0 ∧ rc ≠ ERR_NEED_MORE_INPUT_DATA := by
  unfold decode at h
  split at h
  · cases h
  · next rc' hb => rw [← Except.error.inj h]; exact EventBody.decode_error hb

lemma MuxEventHead.decode_append {bs : Bytes} (h : kEventHeadSize ≤ bs.length) (x : Bytes) :
    MuxEventHead.decode (bs ++ x) = MuxEventHead.decode bs := by
  obtain ⟨hd, tl, rfl, hlen⟩ : ∃ hd tl, bs = hd ++ tl ∧ hd.length = kEventHeadSize :=
    ⟨bs.take kEventHeadSize, bs.drop kEventHeadSize, (List.take_append_drop _ _).symm,
      by rw [List.length_take]; omega⟩
  match hd, hlen with
  | [_, _, _, _, _, _, _, _], _ => rfl

namespace CipherContext

variable {A : Aead} {pb : Nanopb} {ctx : CipherContext} {input : Bytes}

/-! ## Decrypt -/

/-- The outcomes of `Decrypt`. -/
inductive DecryptSpec (ctx : CipherContext) (input : Bytes) (out : Option MuxEvent) :
    DecryptResult → Prop
  -- Only an input shorter than the largest frame is incomplete.
  | more (n : ℕ)
      (short : input.length < kEventHeadSize + (kMaxChunkSize + 128) + 2 * ctx.cipherTagLen) :
      DecryptSpec ctx input out ⟨ERR_NEED_MORE_INPUT_DATA, out, n, ctx⟩
  | fail (rc : Int) (out' : Option MuxEvent) (n : ℕ) (nonzero : rc ≠ 0)
      (final : rc ≠ ERR_NEED_MORE_INPUT_DATA) :
      DecryptSpec ctx input out ⟨rc, out', n, ctx⟩
  | item (ev : MuxEvent) (n : ℕ) (pos : 0 < n) (le : n ≤ input.length) :
      DecryptSpec ctx input out ⟨0, some ev, n, { ctx with decryptIv := ctx.decryptIv + 1 }⟩

lemma decryptHead_error {rc : Int} (h : ctx.decryptHead A input = .error rc) :
    rc = ERR_CIPHER_HEADER_DECRYPT := by
  unfold decryptHead at h
  split at h
  · cases h
  · split at h
    · exact (Except.error.inj h).symm
    · cases h

lemma decryptBody_error {head : MuxEventHead} {rc : Int}
    (h : ctx.decryptBody A head input = .error rc) : rc = ERR_CIPHER_BODY_DECRYPT := by
  unfold decryptBody at h
  split at h
  · cases h
  · split at h
    · cases h
    · split at h
      · exact (Except.error.inj h).symm
      · cases h

/-- The bytes a body takes are within the length the head announces. -/
lemma decryptBody_le {head : MuxEventHead} {body : Bytes} {n : ℕ}
    (h : ctx.decryptBody A head input = .ok (body, n)) (hlen : head.len.toNat ≠ 0) :
    kEventHeadSize + ctx.cipherTagLen + n ≤ ctx.expectedLen head := by
  unfold decryptBody at h
  unfold expectedLen
  split at h
  · obtain ⟨-, rfl⟩ := Prod.mk.inj (Except.ok.inj h)
    omega
  · split at h
    · obtain ⟨-, rfl⟩ := Prod.mk.inj (Except.ok.inj h)
      omega
    · next hflag =>
        split at h
        · cases h
        · obtain ⟨-, rfl⟩ := Prod.mk.inj (Except.ok.inj h)
          rw [if_pos ⟨by simpa using hflag, by omega⟩]
          omega

lemma decryptFrame_spec (out : Option MuxEvent) {head : MuxEventHead}
    (hfull : ctx.expectedLen head ≤ input.length) :
    DecryptSpec ctx input out (ctx.decryptFrame A pb head input) := by
  have hhead : kEventHeadSize + ctx.cipherTagLen ≤ ctx.expectedLen head := by
    unfold expectedLen; omega
  have hpos : 0 < kEventHeadSize := by decide
  unfold decryptFrame
  cases MuxEvent.newEvent head with
  | none => exact .fail _ _ _ (by decide) (by decide)
  | some ev =>
      simp only
      split
      · exact .item _ _ (by omega) (by omega)
      · next hlen =>
          cases hb : ctx.decryptBody A head input with
          | error rc =>
              have hrc := decryptBody_error hb
              exact .fail _ _ _ (by rw [hrc]; decide) (by rw [hrc]; decide)
          | ok p =>
              obtain ⟨body, n⟩ := p
              have hn := decryptBody_le hb hlen
              simp only
              cases hd : ev.decode pb body with
              | error rc =>
                  have hrc := MuxEvent.decode_error hd
                  exact .fail _ _ _ hrc.1 hrc.2
              | ok ev' => exact .item _ _ (by omega) (by omega)

lemma decrypt_spec (A : Aead) (pb : Nanopb) (ctx : CipherContext) (input : Bytes)
    (out : Option MuxEvent) (n : ℕ) :
    DecryptSpec ctx input out (ctx.decrypt A pb input out n) := by
  unfold decrypt
  split
  · exact .more _ (by omega)
  · cases hh : ctx.decryptHead A input with
    | error rc =>
        have hrc := decryptHead_error hh
        exact .fail _ _ _ (by rw [hrc]; decide) (by rw [hrc]; decide)
    | ok head =>
        simp only
        split
        · exact .fail _ _ _ (by decide) (by decide)
        · next hmax =>
            split
            · next hshort =>
                refine .more _ ?_
                unfold expectedLen at hshort
                split at hshort <;> omega
            · exact decryptFrame_spec out (by omega)

/-! ### Bytes behind a frame -/

lemma take_drop_append {bs : Bytes} {i n : ℕ} (h : i + n ≤ bs.length) (x : Bytes) :
    ((bs ++ x).drop i).take n = (bs.drop i).take n := by
  rw [List.drop_append_of_le_length (by omega),
    List.take_append_of_le_length (by rw [List.length_drop]; omega)]

lemma decryptHead_append (h : kEventHeadSize + ctx.cipherTagLen ≤ input.length) (x : Bytes) :
    ctx.decryptHead A (input ++ x) = ctx.decryptHead A input := by
  unfold decryptHead
  rw [List.take_append_of_le_length h, MuxEventHead.decode_append (by omega)]

lemma decryptBody_append {head : MuxEventHead} (hlen : head.len.toNat ≠ 0)
    (hfull : ctx.expectedLen head ≤ input.length) (x : Bytes) :
    ctx.decryptBody A head (input ++ x) = ctx.decryptBody A head input := by
  unfold expectedLen at hfull
  unfold decryptBody
  split
  · rw [take_drop_append (by omega)]
  · split
    · rw [take_drop_append (by omega)]
    · next hflag =>
        rw [if_pos ⟨by simpa using hflag, by omega⟩] at hfull
        rw [take_drop_append (by omega)]

lemma decryptFrame_append {head : MuxEventHead} (hfull : ctx.expectedLen head ≤ input.length)
    (x : Bytes) :
    ctx.decryptFrame A pb head (input ++ x) = ctx.decryptFrame A pb head input := by
  unfold decryptFrame
  cases MuxEvent.newEvent head with
  | none => rfl
  | some ev =>
      simp only
      split
      · rfl
      · next hlen => rw [decryptBody_append hlen hfull]

/-- Bytes behind the first frame do not change what `Decrypt` says of it. -/
lemma decrypt_append {out : Option MuxEvent} {n : ℕ}
    (h : (ctx.decrypt A pb input out n).rc ≠ ERR_NEED_MORE_INPUT_DATA) (x : Bytes) :
    ctx.decrypt A pb (input ++ x) out n = ctx.decrypt A pb input out n := by
  unfold decrypt at h ⊢
  rw [List.length_append]
  split at h
  · exact absurd rfl h
  · next hhead =>
      rw [if_neg (by omega), if_neg hhead, decryptHead_append (by omega)]
      cases hh : ctx.decryptHead A input with
      | error rc => rfl
      | ok head =>
          rw [hh] at h
          simp only at h ⊢
          split at h
          · next hmax => rw [if_pos hmax, if_pos hmax]
          · next hmax =>
              split at h
              · exact absurd rfl h
              · next hfull =>
                  rw [if_neg hmax, if_neg hmax, if_neg (by omega), if_neg hfull,
                    decryptFrame_append (by omega)]

end CipherContext

/-- What `Decrypt`'s return code and variables tell its caller. -/
def DecryptResult.outcome (r : DecryptResult) : Outcome CipherContext MuxEvent Int :=
  if r.rc = ERR_NEED_MORE_INPUT_DATA then .more
  else if r.rc = 0 then
    match r.out with
    | some ev => .item ev r.decryptLen r.ctx
    | none => .fail 0
  else .fail r.rc

namespace CipherContext

/-- `Decrypt` as a decoder of the byte stream of a connection. -/
def decoder (A : Aead) (pb : Nanopb) : Decoder CipherContext UInt8 MuxEvent Int where
  next ctx input := (ctx.decrypt A pb input).outcome
  item_bounds := by
    intro ctx input ev n ctx' h
    have hspec := decrypt_spec A pb ctx input none 0
    generalize ctx.decrypt A pb input = r at h hspec
    cases hspec with
    | more m short => cases h
    | fail rc out' m nonzero final =>
        simp [DecryptResult.outcome, nonzero, final] at h
    | item ev' m pos le =>
        obtain ⟨-, rfl, -⟩ := Outcome.item.inj h
        exact ⟨pos, le⟩
  next_append := by
    intro ctx input h x
    rw [decrypt_append]
    intro hrc
    exact h (by simp [DecryptResult.outcome, hrc])

/-- An empty buffer holds no frame. -/
lemma next_nil {A : Aead} {pb : Nanopb} (ctx : CipherContext) :
    (decoder A pb).next ctx [] = .more := by
  have hpos : 0 < kEventHeadSize := by decide
  show (ctx.decrypt A pb []).outcome = .more
  rw [decrypt, List.length_nil, if_pos (by omega)]
  rfl

/-! ## Encrypt -/

variable {A : Aead} {pb : Nanopb} {ctx : CipherContext}

/-- A context that holds a ChaCha20-Poly1305 key. -/
structure Keyed (ctx : CipherContext) (key : Bytes) : Prop where
  encryptCtx : ctx.encryptCtx = some key
  decryptCtx : ctx.decryptCtx = some key
  nonceLen : ctx.cipherNonceLen = 12
  tagLen : ctx.cipherTagLen = 16

lemma keyed_of_new {key : Bytes} (h : new "chacha20_poly1305" key = some ctx) :
    ctx.Keyed (resize 32 key) := by
  obtain rfl := Option.some.inj h
  exact ⟨rfl, rfl, rfl, rfl⟩

/-- Both counters of a new context start at the same value. -/
lemma encryptIv_of_new {key : Bytes} (h : new "chacha20_poly1305" key = some ctx) :
    ctx.encryptIv = ctx.decryptIv := by
  obtain rfl := Option.some.inj h
  rfl

/-- A context that was made by `New` and has since only moved its counters. -/
def FromNew (ctx : CipherContext) (method : String) (key : Bytes) : Prop :=
  ∃ c, new method key = some c ∧
    ctx = { c with encryptIv := ctx.encryptIv, decryptIv := ctx.decryptIv }

lemma FromNew.tagLen_le {method : String} {key : Bytes} (h : ctx.FromNew method key) :
    ctx.cipherTagLen ≤ 16 := by
  obtain ⟨c, hnew, hctx⟩ := h
  rw [hctx]
  unfold new at hnew
  split at hnew
  · obtain rfl := Option.some.inj hnew
    exact le_refl 16
  · split at hnew
    · obtain rfl := Option.some.inj hnew
      exact Nat.zero_le 16
    · cases hnew

lemma Keyed.withIvs {key : Bytes} (h : ctx.Keyed key) (e d : UInt64) :
    Keyed { ctx with encryptIv := e, decryptIv := d } key :=
  ⟨h.encryptCtx, h.decryptCtx, h.nonceLen, h.tagLen⟩

lemma FromNew.keyed {key : Bytes} (h : ctx.FromNew "chacha20_poly1305" key) :
    ctx.Keyed (resize 32 key) := by
  obtain ⟨c, hnew, hctx⟩ := h
  rw [hctx]
  exact (keyed_of_new hnew).withIvs _ _

/-- The event with its length field filled in. -/
def withLen (pb : Nanopb) (ev : MuxEvent) : MuxEvent :=
  ev.setLen (UInt16.ofNat (ev.body.encoded pb).length)

/-- The frame of an event: the sealed head, and the body, sealed with the same nonce unless it is
empty or flagged. -/
def sealedFrame (A : Aead) (pb : Nanopb) (key : Bytes) (iv : UInt64) (ev : MuxEvent) : Bytes :=
  A.sealed key (nonceOf iv 12) (withLen pb ev).head.encode ++
    if 0 < (ev.body.encoded pb).length ∧ ev.head.flags.bodyNoEncrypt = false then
      A.sealed key (nonceOf iv 12) (ev.body.encoded pb)
    else ev.body.encoded pb

/-- The calls of `EVP_AEAD_CTX_seal` that produce a frame. -/
def frameSeals (pb : Nanopb) (key : Bytes) (iv : UInt64) (ev : MuxEvent) : List SealCall :=
  ⟨key, nonceOf iv 12, (withLen pb ev).head.encode⟩ ::
    if 0 < (ev.body.encoded pb).length ∧ ev.head.flags.bodyNoEncrypt = false then
      [⟨key, nonceOf iv 12, ev.body.encoded pb⟩]
    else []

/-- The outcomes of `Encrypt` with a cipher. -/
inductive EncryptSpec (A : Aead) (pb : Nanopb) (key : Bytes) (ctx : CipherContext)
    (ev : MuxEvent) : EncryptResult → Prop
  | fail (rc : Int) (ev' : MuxEvent) (seals : List SealCall) (nonzero : rc ≠ 0)
      (sub : seals ⊆ frameSeals pb key ctx.encryptIv ev) :
      EncryptSpec A pb key ctx ev ⟨rc, [], ctx, ev', seals⟩
  | ok :
      EncryptSpec A pb key ctx ev
        ⟨0, sealedFrame A pb key ctx.encryptIv ev,
          { ctx with encryptIv := ctx.encryptIv + 1 }, withLen pb ev,
          frameSeals pb key ctx.encryptIv ev⟩

lemma encryptParts_spec {key : Bytes} (hk : ctx.Keyed key) (ev : MuxEvent) (outSize : ℕ) :
    EncryptSpec A pb key ctx ev
      (ctx.encryptParts A key ev (ev.body.encoded pb) outSize) := by
  have hev : ev.setLen (UInt16.ofNat (ev.body.encoded pb).length) = withLen pb ev := rfl
  have hflag : (withLen pb ev).head.flags = ev.head.flags := rfl
  have hnonce : nonceOf ctx.encryptIv ctx.cipherNonceLen = nonceOf ctx.encryptIv 12 := by
    rw [hk.nonceLen]
  have hok := @EncryptSpec.ok A pb key ctx ev
  rw [sealedFrame, frameSeals] at hok
  simp only [encryptParts, sealInto, hnonce, hev, hflag]
  split
  · next hnone =>
      exact .fail _ _ _ (by decide) (List.nil_subset _)
  · next header hhead =>
      split at hhead
      · obtain rfl := Option.some.inj hhead
        split
        · next hbody =>
            split
            · exact .fail _ _ _ (by decide) (by simp [frameSeals])
            · next sealedBody hsealed =>
                split at hsealed
                · obtain rfl := Option.some.inj hsealed
                  rwa [if_pos hbody, if_pos hbody] at hok
                · cases hsealed
        · next hbody =>
            rwa [if_neg hbody, if_neg hbody] at hok
      · cases hhead

lemma encrypt_spec (A : Aead) (pb : Nanopb) {key : Bytes} (hk : ctx.Keyed key) (ev : MuxEvent)
    (outSize : ℕ) :
    EncryptSpec A pb key ctx ev (ctx.encrypt A pb ev outSize) := by
  unfold encrypt
  split
  · exact .fail _ _ _ (by decide) (List.nil_subset _)
  · rw [hk.encryptCtx]
    simp only
    generalize (if ev.head.flags.bodyNoEncrypt = true then
      outSize - kEventHeadSize - ctx.cipherTagLen else encodeBufferSize - kEventHeadSize) = capacity
    obtain hlt | hle := Nat.lt_or_ge capacity (ev.body.encoded pb).length
    · obtain ⟨rc, hrc, hne⟩ := EventBody.encode_of_lt hlt
      rw [hrc]
      exact .fail _ _ _ hne (List.nil_subset _)
    · rw [EventBody.encode_of_le hle]
      exact encryptParts_spec hk ev outSize

lemma Keyed.encrypt {key : Bytes} (hk : ctx.Keyed key) (ev : MuxEvent) (outSize : ℕ) :
    (ctx.encrypt A pb ev outSize).ctx.Keyed key := by
  have hspec := encrypt_spec A pb hk ev outSize
  generalize ctx.encrypt A pb ev outSize = r at hspec
  cases hspec with
  | fail rc ev' seals nonzero sub => exact hk
  | ok => exact hk.withIvs _ _

/-- A body that fits a chunk is encrypted whenever the output buffer has the documented size. -/
lemma encrypt_rc_of_le {key : Bytes} (hk : ctx.Keyed key) {ev : MuxEvent} {outSize : ℕ}
    (hbody : (ev.body.encoded pb).length ≤ kMaxChunkSize)
    (hout : kEventHeadSize + kMaxChunkSize + 2 * ctx.cipherTagLen ≤ outSize) :
    (ctx.encrypt A pb ev outSize).rc = 0 := by
  have htag := hk.tagLen
  unfold encrypt
  rw [if_neg (by omega), hk.encryptCtx]
  simp only
  have hcap : (ev.body.encoded pb).length ≤
      if ev.head.flags.bodyNoEncrypt = true then outSize - kEventHeadSize - ctx.cipherTagLen
      else encodeBufferSize - kEventHeadSize := by
    split
    · omega
    · simp only [encodeBufferSize]; omega
  rw [EventBody.encode_of_le hcap]
  have hhead : kEventHeadSize + 16 ≤ outSize := by omega
  have hrest : (ev.body.encoded pb).length + 16 ≤ outSize - (kEventHeadSize + 16) := by omega
  simp only [encryptParts, sealInto, MuxEventHead.length_encode, A.length_sealed, if_pos hhead,
    if_pos hrest]
  split
  · rfl
  · rfl

/-! ## A frame, opened -/

lemma length_sealedFrame (A : Aead) (pb : Nanopb) (key : Bytes) (iv : UInt64) (ev : MuxEvent) :
    (sealedFrame A pb key iv ev).length = kEventHeadSize + 16 + (ev.body.encoded pb).length +
      if 0 < (ev.body.encoded pb).length ∧ ev.head.flags.bodyNoEncrypt = false then 16 else 0 := by
  unfold sealedFrame
  split
  · simp only [List.length_append, A.length_sealed, MuxEventHead.length_encode]; omega
  · simp only [List.length_append, A.length_sealed, MuxEventHead.length_encode]; omega

lemma toNat_len_withLen {ev : MuxEvent} (h : (ev.body.encoded pb).length < 2 ^ 16) :
    (withLen pb ev).head.len.toNat = (ev.body.encoded pb).length := by
  show (UInt16.ofNat (ev.body.encoded pb).length).toNat = _
  rw [UInt16.toNat_ofNat']
  omega

/-- The length of a body that `Decrypt` accepts fits the length field. -/
lemma length_lt_of_le {bs : Bytes} (h : bs.length ≤ kMaxChunkSize + 128) : bs.length < 2 ^ 16 :=
  h.trans_lt (by decide)

/-- The head of a sealed frame opens to the head that was sealed. -/
lemma decryptHead_sealedFrame {key : Bytes} (hk : ctx.Keyed key) (ev : MuxEvent) (x : Bytes) :
    ctx.decryptHead A (sealedFrame A pb key ctx.decryptIv ev ++ x) =
      .ok (withLen pb ev).head := by
  have hlen : (A.sealed key (nonceOf ctx.decryptIv 12) (withLen pb ev).head.encode).length =
      kEventHeadSize + 16 := by
    rw [A.length_sealed, MuxEventHead.length_encode]
  unfold decryptHead
  rw [hk.decryptCtx, hk.nonceLen, hk.tagLen, sealedFrame, List.append_assoc,
    List.take_left' hlen]
  simp only [openInto, hlen]
  rw [if_pos (by decide), A.opened_sealed]
  simp only
  rw [← MuxEventHead.length_encode (withLen pb ev).head, List.take_length,
    MuxEventHead.decode_encode]
  rfl

/-- The body of a sealed frame is what follows its head. -/
lemma decryptBody_sealedFrame {key : Bytes} (hk : ctx.Keyed key) {ev : MuxEvent}
    (hbody : (ev.body.encoded pb).length ≤ kMaxChunkSize + 128)
    (hpos : 0 < (ev.body.encoded pb).length) (x : Bytes) :
    ctx.decryptBody A (withLen pb ev).head (sealedFrame A pb key ctx.decryptIv ev ++ x) =
      .ok (ev.body.encoded pb,
        (sealedFrame A pb key ctx.decryptIv ev).length - (kEventHeadSize + 16)) := by
  have hlen := toNat_len_withLen (length_lt_of_le hbody)
  have hhead : (A.sealed key (nonceOf ctx.decryptIv 12) (withLen pb ev).head.encode).length =
      kEventHeadSize + 16 := by
    rw [A.length_sealed, MuxEventHead.length_encode]
  have hflag : (withLen pb ev).head.flags = ev.head.flags := rfl
  unfold decryptBody
  rw [hk.decryptCtx, hk.nonceLen, hk.tagLen, length_sealedFrame, sealedFrame, List.append_assoc,
    List.drop_left' hhead, hlen, hflag]
  simp only
  by_cases hf : ev.head.flags.bodyNoEncrypt = false
  · have hsealed : (A.sealed key (nonceOf ctx.decryptIv 12) (ev.body.encoded pb)).length =
        (ev.body.encoded pb).length + 16 := A.length_sealed _ _ _
    have hfits : (ev.body.encoded pb).length + 16 ≤ decodeBufferSize + 16 := by
      simp only [decodeBufferSize, kReservedBufferSize]; omega
    have hcond : 0 < (ev.body.encoded pb).length ∧ ev.head.flags.bodyNoEncrypt = false :=
      ⟨hpos, hf⟩
    rw [if_neg (by simp [hf])]
    simp only [if_pos hcond, List.take_left' hsealed, openInto, hsealed, if_pos hfits,
      A.opened_sealed, List.take_length]
    congr 2
    omega
  · have hcond : ¬ (0 < (ev.body.encoded pb).length ∧ ev.head.flags.bodyNoEncrypt = false) :=
      fun h => hf h.2
    rw [if_pos (by simpa using hf)]
    simp only [if_neg hcond, List.take_left' rfl]
    congr 2
    omega

/-- A complete frame whose body is readable gives back its event. -/
lemma decryptFrame_of_body {ev : MuxEvent} {n : ℕ}
    (hlen : ev.head.len.toNat = (ev.body.encoded pb).length)
    (hmax : (ev.body.encoded pb).length ≤ kMaxChunkSize + 128)
    (hempty : (ev.body.encoded pb).length = 0 → n = 0)
    (hbody : 0 < (ev.body.encoded pb).length →
      ctx.decryptBody A ev.head input = .ok (ev.body.encoded pb, n)) :
    ∃ ev', ev'.Same ev ∧ ctx.decryptFrame A pb ev.head input =
      ⟨0, some ev', kEventHeadSize + ctx.cipherTagLen + n,
        { ctx with decryptIv := ctx.decryptIv + 1 }⟩ := by
  unfold decryptFrame
  rw [MuxEvent.newEvent_of_type ev.type_eq]
  simp only [hlen]
  by_cases hzero : (ev.body.encoded pb).length = 0
  · refine ⟨⟨ev.head, ev.body.fresh, ev.type_eq.trans ev.body.type_fresh.symm⟩,
      ⟨rfl, rfl, rfl, ?_⟩, ?_⟩
    · exact EventBody.payload_fresh_of_encoded_nil (List.length_eq_zero_iff.mp hzero)
    · rw [if_pos hzero, hempty hzero, add_zero]
  · obtain ⟨b', hb', htype', hpayload⟩ := EventBody.decode_encoded hlen (by
      rw [hlen]
      exact hmax.trans (by decide))
    refine ⟨⟨ev.head, b', ev.type_eq.trans htype'.symm⟩, ⟨rfl, rfl, rfl, hpayload⟩, ?_⟩
    have hdecode : MuxEvent.decode pb (ev.body.encoded pb)
        ⟨ev.head, ev.body.fresh, ev.type_eq.trans ev.body.type_fresh.symm⟩ =
          .ok ⟨ev.head, b', ev.type_eq.trans htype'.symm⟩ := by
      unfold MuxEvent.decode
      split
      · next b hb =>
          obtain rfl := Except.ok.inj (hb'.symm.trans hb)
          rfl
      · next rc hb => cases hb'.symm.trans hb
    rw [if_neg hzero, hbody (by omega)]
    simp only [hdecode]

/-- **Decrypting a frame gives back its event** and consumes exactly the frame, whatever stands
behind it. -/
lemma decrypt_sealedFrame (A : Aead) {key : Bytes} (hk : ctx.Keyed key) {ev : MuxEvent}
    (hbody : (ev.body.encoded pb).length ≤ kMaxChunkSize + 128) (x : Bytes) (out : Option MuxEvent)
    (n : ℕ) :
    ∃ ev', ev'.Same ev ∧
      ctx.decrypt A pb (sealedFrame A pb key ctx.decryptIv ev ++ x) out n =
        ⟨0, some ev', (sealedFrame A pb key ctx.decryptIv ev).length,
          { ctx with decryptIv := ctx.decryptIv + 1 }⟩ := by
  have hlen := toNat_len_withLen (length_lt_of_le hbody)
  have hframe := length_sealedFrame A pb key ctx.decryptIv ev
  have hexpected : ctx.expectedLen (withLen pb ev).head =
      (sealedFrame A pb key ctx.decryptIv ev).length := by
    unfold expectedLen
    have hflag : (withLen pb ev).head.flags = ev.head.flags := rfl
    rw [hframe, hlen, hk.tagLen, hflag]
    simp only [and_comm]
    omega
  have hempty : (ev.body.encoded pb).length = 0 →
      (sealedFrame A pb key ctx.decryptIv ev).length - (kEventHeadSize + 16) = 0 := by
    intro hzero
    rw [hframe, hzero, if_neg (by simp)]
    omega
  obtain ⟨ev', hsame, hdec⟩ := decryptFrame_of_body hlen hbody hempty
    fun hpos => decryptBody_sealedFrame (A := A) hk hbody hpos x
  refine ⟨ev', ⟨hsame.type, hsame.sid, hsame.flags, hsame.payload⟩, ?_⟩
  unfold decrypt
  rw [List.length_append, hk.tagLen, if_neg (by omega), decryptHead_sealedFrame hk]
  simp only
  rw [hexpected, hlen, if_neg (by omega), if_neg (by omega), hdec, hk.tagLen]
  congr 1
  omega

/-! ## Without a cipher -/

/-- A context of the method `none`. -/
structure Plain (ctx : CipherContext) : Prop where
  encryptCtx : ctx.encryptCtx = none
  decryptCtx : ctx.decryptCtx = none
  tagLen : ctx.cipherTagLen = 0

lemma plain_of_new {key : Bytes} (h : new "none" key = some ctx) : ctx.Plain := by
  obtain rfl := Option.some.inj h
  exact ⟨rfl, rfl, rfl⟩

/-- What `Encrypt` writes without a cipher: the head as it was given, then the body. -/
lemma Plain.encrypt_eq (hp : ctx.Plain) {ev : MuxEvent} {outSize : ℕ}
    (hbody : (ev.body.encoded pb).length ≤ kMaxChunkSize)
    (hout : kEventHeadSize + kMaxChunkSize ≤ outSize) :
    ctx.encrypt A pb ev outSize = ⟨0, ev.head.encode ++ ev.body.encoded pb, ctx, ev, []⟩ := by
  have htag := hp.tagLen
  unfold encrypt
  rw [if_neg (by omega), hp.encryptCtx]
  simp only
  rw [EventBody.encode_of_le (by omega)]

lemma Plain.decryptHead_eq (hp : ctx.Plain) (head : MuxEventHead) (x : Bytes) :
    ctx.decryptHead A (head.encode ++ x) = .ok head := by
  unfold decryptHead
  rw [hp.decryptCtx]
  simp only [MuxEventHead.decode_encode_append, Option.getD_some]

lemma Plain.expectedLen_eq (hp : ctx.Plain) (head : MuxEventHead) :
    ctx.expectedLen head = kEventHeadSize + head.len.toNat := by
  unfold expectedLen
  rw [hp.tagLen]
  split <;> omega

/-- An event whose length field is right is read back. -/
lemma Plain.decrypt_frame (hp : ctx.Plain) {ev : MuxEvent}
    (hlen : ev.head.len.toNat = (ev.body.encoded pb).length)
    (hbody : (ev.body.encoded pb).length ≤ kMaxChunkSize) (x : Bytes) (out : Option MuxEvent)
    (n : ℕ) :
    ∃ ev', ev'.Same ev ∧
      ctx.decrypt A pb (ev.head.encode ++ ev.body.encoded pb ++ x) out n =
        ⟨0, some ev', (ev.head.encode ++ ev.body.encoded pb).length,
          { ctx with decryptIv := ctx.decryptIv + 1 }⟩ := by
  have hread : ctx.decryptBody A ev.head (ev.head.encode ++ ev.body.encoded pb ++ x) =
      .ok (ev.body.encoded pb, (ev.body.encoded pb).length) := by
    unfold decryptBody
    rw [hp.decryptCtx]
    simp only
    rw [List.append_assoc, List.drop_left' ev.head.length_encode, hlen, List.take_left' rfl]
  obtain ⟨ev', hsame, hdec⟩ := decryptFrame_of_body (A := A) hlen (by omega) id fun _ => hread
  refine ⟨ev', hsame, ?_⟩
  unfold decrypt
  rw [List.length_append, List.length_append, MuxEventHead.length_encode, hp.tagLen,
    if_neg (by omega), List.append_assoc, hp.decryptHead_eq]
  simp only
  rw [hp.expectedLen_eq, hlen, if_neg (by omega), if_neg (by omega), ← List.append_assoc, hdec,
    hp.tagLen, add_zero]

lemma Plain.decryptFrame_len (hp : ctx.Plain) {head : MuxEventHead}
    (h : (ctx.decryptFrame A pb head input).rc = 0) :
    (ctx.decryptFrame A pb head input).decryptLen = kEventHeadSize + head.len.toNat := by
  unfold decryptFrame at h ⊢
  cases hnew : MuxEvent.newEvent head with
  | none => rw [hnew] at h; cases h
  | some ev =>
      rw [hnew] at h
      simp only [decryptBody, hp.decryptCtx, hp.tagLen] at h ⊢
      by_cases hzero : head.len.toNat = 0
      · rw [if_pos hzero, hzero]
      · rw [if_neg hzero] at h ⊢
        cases hd : ev.decode pb (List.take head.len.toNat (List.drop kEventHeadSize input)) with
        | error rc =>
            rw [hd] at h
            exact absurd h (MuxEvent.decode_error hd).1
        | ok ev' => rfl

/-- Without a cipher a successful `Decrypt` consumes the head and as many bytes as its length
field says. -/
lemma Plain.decryptLen_eq (hp : ctx.Plain) {head : MuxEventHead} {x : Bytes}
    {out : Option MuxEvent} {n : ℕ}
    (h : (ctx.decrypt A pb (head.encode ++ x) out n).rc = 0) :
    (ctx.decrypt A pb (head.encode ++ x) out n).decryptLen =
      kEventHeadSize + head.len.toNat := by
  unfold decrypt at h ⊢
  simp only [hp.decryptHead_eq] at h ⊢
  split at h
  · cases h
  · next hshort =>
      rw [if_neg hshort]
      split at h
      · cases h
      · next hmax =>
          rw [if_neg hmax]
          split at h
          · cases h
          · next hfull =>
              rw [if_neg hfull]
              exact hp.decryptFrame_len h

end CipherContext

end Snova
