import Snova.Model.Nanopb
import Snova.Properties.CipherContext

/-!
# What `Decrypt` touches, consumes and keeps

`Decrypt` is called with whatever the peer sent.  `decryptSpan` performs it on a memory in which
only the first bytes are its input; `decryptSpan_yields` says that it computes `decrypt` of these
bytes and reads no other.  `FromNew.decrypt_success` says what a success means: a whole frame was
there, `decrypt_len` is its length, and the frame alone decides the result.
-/

namespace Snova

/-- A head is decoded from its eight bytes. -/
lemma MuxEventHead.decode_take {bs : Bytes} (h : kEventHeadSize ≤ bs.length) :
    MuxEventHead.decode (bs.take kEventHeadSize) = MuxEventHead.decode bs := by
  have hlen : kEventHeadSize ≤ (bs.take kEventHeadSize).length := by
    rw [List.length_take]
    omega
  rw [← MuxEventHead.decode_append hlen (bs.drop kEventHeadSize), List.take_append_drop]

namespace CipherContext

variable {A : Aead} {pb : Nanopb} {ctx : CipherContext} {input : Bytes} {head : MuxEventHead}

/-! ## A successful call -/

/-- Without a key there is no tag. -/
lemma FromNew.tagLen_of_none {method : String} {key : Bytes} (h : ctx.FromNew method key)
    (hctx : ctx.decryptCtx = none) : ctx.cipherTagLen = 0 := by
  obtain ⟨c, hnew, heq⟩ := h
  rw [heq] at hctx ⊢
  unfold new at hnew
  split at hnew
  · obtain rfl := Option.some.inj hnew
    cases hctx
  · split at hnew
    · obtain rfl := Option.some.inj hnew
      rfl
    · cases hnew

/-- The body and the head together are the whole announced frame. -/
lemma FromNew.decryptBody_eq {method : String} {key : Bytes} (hnew : ctx.FromNew method key)
    {body : Bytes} {n : ℕ} (h : ctx.decryptBody A head input = .ok (body, n))
    (hlen : head.len.toNat ≠ 0) :
    kEventHeadSize + ctx.cipherTagLen + n = ctx.expectedLen head := by
  unfold decryptBody at h
  unfold expectedLen
  cases hctx : ctx.decryptCtx with
  | none =>
      rw [hctx] at h
      obtain ⟨-, rfl⟩ := Prod.mk.inj (Except.ok.inj h)
      rw [hnew.tagLen_of_none hctx]
      split <;> omega
  | some key' =>
      rw [hctx] at h
      simp only at h
      split at h
      · next hflag =>
          obtain ⟨-, rfl⟩ := Prod.mk.inj (Except.ok.inj h)
          rw [if_neg (by simp [hflag])]
          omega
      · next hflag =>
          rw [if_pos ⟨by simpa using hflag, by omega⟩]
          split at h
          · cases h
          · obtain ⟨-, rfl⟩ := Prod.mk.inj (Except.ok.inj h)
            omega

/-- A successful frame is consumed as a whole, and the event is the one its head announces. -/
lemma FromNew.decryptFrame_success {method : String} {key : Bytes}
    (hnew : ctx.FromNew method key) (h : (ctx.decryptFrame A pb head input).rc = 0) :
    (ctx.decryptFrame A pb head input).decryptLen = ctx.expectedLen head := by
  unfold decryptFrame at h ⊢
  cases hev : MuxEvent.newEvent head with
  | none =>
      rw [hev] at h
      cases h
  | some ev =>
      rw [hev] at h
      simp only at h ⊢
      by_cases hzero : head.len.toNat = 0
      · rw [if_pos hzero]
        unfold expectedLen
        rw [if_neg (by omega)]
        simp only
        omega
      · rw [if_neg hzero] at h ⊢
        cases hb : ctx.decryptBody A head input with
        | error rc =>
            rw [hb] at h
            have hrc := decryptBody_error hb
            rw [show rc = 0 from h] at hrc
            cases hrc
        | ok p =>
            obtain ⟨body, n⟩ := p
            rw [hb] at h
            simp only at h ⊢
            cases hd : ev.decode pb body with
            | error rc =>
                rw [hd] at h
                exact absurd h (MuxEvent.decode_error hd).1
            | ok ev' => exact hnew.decryptBody_eq hb hzero

/-- With a whole frame in its input, `Decrypt` decodes it. -/
lemma decrypt_of_head {out : Option MuxEvent} {n : ℕ} (hhead : ctx.decryptHead A input = .ok head)
    (hmax : head.len.toNat ≤ kMaxChunkSize + 128) (hfull : ctx.expectedLen head ≤ input.length) :
    ctx.decrypt A pb input out n = ctx.decryptFrame A pb head input := by
  have hsize : kEventHeadSize + ctx.cipherTagLen ≤ ctx.expectedLen head := by
    unfold expectedLen
    omega
  unfold decrypt
  rw [if_neg (by omega), hhead]
  simp only
  rw [if_neg (by omega), if_neg (by omega)]

/-- Conversely a success comes from a whole frame. -/
lemma head_of_decrypt {out : Option MuxEvent} {n : ℕ}
    (h : (ctx.decrypt A pb input out n).rc = 0) :
    ∃ head, ctx.decryptHead A input = .ok head ∧ head.len.toNat ≤ kMaxChunkSize + 128 ∧
      ctx.expectedLen head ≤ input.length := by
  unfold decrypt at h
  split at h
  · cases h
  · cases hh : ctx.decryptHead A input with
    | error rc =>
        rw [hh] at h
        have hrc := decryptHead_error hh
        rw [show rc = 0 from h] at hrc
        cases hrc
    | ok head =>
        rw [hh] at h
        simp only at h
        split at h
        · cases h
        · next hmax =>
            split at h
            · cases h
            · next hfull => exact ⟨head, rfl, by omega, by omega⟩

/-- The length a success reports is that of the frame its head announces. -/
lemma FromNew.decrypt_success {method : String} {key : Bytes} (hnew : ctx.FromNew method key)
    {out : Option MuxEvent} {n : ℕ} (h : (ctx.decrypt A pb input out n).rc = 0) :
    ∃ head, ctx.decryptHead A input = .ok head ∧ head.len.toNat ≤ kMaxChunkSize + 128 ∧
      ctx.expectedLen head ≤ input.length ∧
      ctx.decrypt A pb input out n = ctx.decryptFrame A pb head input ∧
      (ctx.decrypt A pb input out n).decryptLen = ctx.expectedLen head := by
  obtain ⟨head, hhead, hmax, hfull⟩ := head_of_decrypt h
  have heq : ctx.decrypt A pb input out n = ctx.decryptFrame A pb head input :=
    decrypt_of_head hhead hmax hfull
  refine ⟨head, hhead, hmax, hfull, heq, ?_⟩
  rw [heq] at h ⊢
  exact hnew.decryptFrame_success h

/-- The bytes of the frame alone give the result. -/
lemma FromNew.decrypt_take {method : String} {key : Bytes} (hnew : ctx.FromNew method key)
    {out : Option MuxEvent} {n : ℕ} (h : (ctx.decrypt A pb input out n).rc = 0) :
    ctx.decrypt A pb (input.take (ctx.decrypt A pb input out n).decryptLen) out n =
      ctx.decrypt A pb input out n := by
  obtain ⟨head, hhead, hmax, hfull, heq, hlen⟩ := hnew.decrypt_success h
  have htake : (input.take (ctx.expectedLen head)).length = ctx.expectedLen head := by
    rw [List.length_take]
    omega
  have hsize : kEventHeadSize + ctx.cipherTagLen ≤ ctx.expectedLen head := by
    unfold expectedLen
    omega
  have hsplit := List.take_append_drop (ctx.expectedLen head) input
  have hhead' : ctx.decryptHead A (input.take (ctx.expectedLen head)) = .ok head := by
    rw [← hhead, ← decryptHead_append (by omega) (input.drop (ctx.expectedLen head)), hsplit]
  rw [hlen, heq, decrypt_of_head hhead' hmax (by omega),
    ← decryptFrame_append (by omega) (input.drop (ctx.expectedLen head)), hsplit]

/-- Two inputs that begin with the same frame have the same result. -/
lemma FromNew.decrypt_congr {method : String} {key : Bytes} (hnew : ctx.FromNew method key)
    {out : Option MuxEvent} {n : ℕ} (h : (ctx.decrypt A pb input out n).rc = 0) {other : Bytes}
    (hother : other.take (ctx.decrypt A pb input out n).decryptLen =
      input.take (ctx.decrypt A pb input out n).decryptLen) :
    ctx.decrypt A pb other out n = ctx.decrypt A pb input out n := by
  have htake := hnew.decrypt_take h
  have hmore : (ctx.decrypt A pb (input.take (ctx.decrypt A pb input out n).decryptLen) out n).rc ≠
      ERR_NEED_MORE_INPUT_DATA := by
    rw [htake, h]
    decide
  have happ := decrypt_append hmore (other.drop (ctx.decrypt A pb input out n).decryptLen)
  rw [← hother, List.take_append_drop, hother, htake] at happ
  exact happ

/-! ## Nothing but the input is read -/

/-- The memory that begins with `bs`. -/
def StartsWith (m : ℕ → UInt8) (bs : Bytes) : Prop := ∀ i (h : i < bs.length), m i = bs[i]

lemma StartsWith.map_range' {m : ℕ → UInt8} (hm : StartsWith m input) {off len : ℕ}
    (h : off + len ≤ input.length) :
    (List.range' off len).map m = (input.drop off).take len := by
  apply List.ext_getElem
  · rw [List.length_map, List.length_range', List.length_take, List.length_drop]
    omega
  · intro i h₁ h₂
    rw [List.length_map, List.length_range'] at h₁
    rw [List.getElem_map, List.getElem_range', List.getElem_take, List.getElem_drop, one_mul]
    exact hm _ _

/-- The cells of the input. -/
def inputCells (input : Bytes) : Set ℕ := {i | i < input.length}

lemma yields_range' {m : ℕ → UInt8} (hm : StartsWith m input) {off len : ℕ}
    (h : off + len ≤ input.length) :
    Reads.Yields m (inputCells input) (Reads.getMany (List.range' off len))
      ((input.drop off).take len) := by
  rw [← hm.map_range' h]
  apply Reads.yields_getMany
  intro i hi
  obtain ⟨-, hlt⟩ := List.mem_range'_1.mp hi
  show i < input.length
  omega

lemma yields_range {m : ℕ → UInt8} (hm : StartsWith m input) {len : ℕ}
    (h : len ≤ input.length) :
    Reads.Yields m (inputCells input) (Reads.getMany (List.range len)) (input.take len) := by
  have hrange := yields_range' hm (show 0 + len ≤ input.length by omega)
  rwa [← List.range_eq_range', List.drop_zero] at hrange

variable {m : ℕ → UInt8}

lemma decryptHeadSpan_yields (hm : StartsWith m input)
    (h : kEventHeadSize + ctx.cipherTagLen ≤ input.length) :
    Reads.Yields m (inputCells input) (ctx.decryptHeadSpan A) (ctx.decryptHead A input) := by
  unfold decryptHeadSpan decryptHead
  cases ctx.decryptCtx with
  | none =>
      apply (yields_range hm (by omega)).bind
      rw [MuxEventHead.decode_take (by omega)]
      exact Reads.yields_pure _ _ _
  | some key =>
      simp only
      apply (yields_range hm h).bind
      cases openInto A key (nonceOf ctx.decryptIv ctx.cipherNonceLen)
          (input.take (kEventHeadSize + ctx.cipherTagLen)) (kEventHeadSize + 20) with
      | none => exact Reads.yields_pure _ _ _
      | some headBuf => exact Reads.yields_pure _ _ _

lemma decryptBodySpan_yields (hm : StartsWith m input) (hlen : head.len.toNat ≠ 0)
    (hfull : ctx.expectedLen head ≤ input.length) :
    Reads.Yields m (inputCells input) (ctx.decryptBodySpan A head)
      (ctx.decryptBody A head input) := by
  unfold expectedLen at hfull
  unfold decryptBodySpan decryptBody
  cases ctx.decryptCtx with
  | none => exact (yields_range' hm (by omega)).bind (Reads.yields_pure _ _ _)
  | some key =>
      simp only
      split
      · exact (yields_range' hm (by omega)).bind (Reads.yields_pure _ _ _)
      · next hflag =>
          rw [if_pos ⟨by simpa using hflag, by omega⟩] at hfull
          apply (yields_range' hm (by omega)).bind
          cases openInto A key (nonceOf ctx.decryptIv ctx.cipherNonceLen)
              ((input.drop (kEventHeadSize + ctx.cipherTagLen)).take
                (head.len.toNat + ctx.cipherTagLen)) decodeBufferSize with
          | none => exact Reads.yields_pure _ _ _
          | some body => exact Reads.yields_pure _ _ _

lemma decryptFrameSpan_yields (hm : StartsWith m input)
    (hfull : ctx.expectedLen head ≤ input.length) :
    Reads.Yields m (inputCells input) (ctx.decryptFrameSpan A pb head)
      (ctx.decryptFrame A pb head input) := by
  unfold decryptFrameSpan decryptFrame
  cases MuxEvent.newEvent head with
  | none => exact Reads.yields_pure _ _ _
  | some ev =>
      simp only
      split
      · exact Reads.yields_pure _ _ _
      · next hlen =>
          apply (decryptBodySpan_yields hm hlen hfull).bind
          cases ctx.decryptBody A head input with
          | error rc => exact Reads.yields_pure _ _ _
          | ok p =>
              simp only
              cases ev.decode pb p.1 with
              | error rc => exact Reads.yields_pure _ _ _
              | ok ev' => exact Reads.yields_pure _ _ _

/-- On a memory that begins with its input, `Decrypt` reads nothing else and computes what the
input alone determines. -/
lemma decryptSpan_yields (hm : StartsWith m input) (out : Option MuxEvent) (n : ℕ) :
    Reads.Yields m (inputCells input) (ctx.decryptSpan A pb input.length out n)
      (ctx.decrypt A pb input out n) := by
  unfold decryptSpan decrypt
  split
  · exact Reads.yields_pure _ _ _
  · next hhead =>
      apply (decryptHeadSpan_yields hm (by omega)).bind
      cases ctx.decryptHead A input with
      | error rc => exact Reads.yields_pure _ _ _
      | ok head =>
          simp only
          split
          · exact Reads.yields_pure _ _ _
          · split
            · exact Reads.yields_pure _ _ _
            · next hfull => exact decryptFrameSpan_yields hm (by omega)

/-- **Whatever the peer sends, `Decrypt` stays inside its input and keeps its accounts.**  For a
context made by `New`, any counters, any input and any memory behind it:

* `Decrypt` reads no byte outside the input, and computes `decrypt` of it;
* on success, `decrypt_len` is at least a head and at most the input, `decrypt_iv_` has grown by
  one and nothing else of the context has changed, and every input that begins with the same
  `decrypt_len` bytes has the same result;
* if it needs more, neither the context nor the event has changed, and on any other error the
  context has not;
* unless it needs more, the result is the same for every extension of the input. -/
theorem decrypt_stays_inside (A : Aead) (pb : Nanopb) (method : String) (key : Bytes)
    (ctx : CipherContext) (hnew : ctx.FromNew method key) (input : Bytes) (m : ℕ → UInt8)
    (hm : StartsWith m input) (out : Option MuxEvent) (n : ℕ) (r : DecryptResult)
    (hr : (ctx.decryptSpan A pb input.length out n).eval m = r) :
    (∀ i ∈ (ctx.decryptSpan A pb input.length out n).indices m, i < input.length) ∧
      r = ctx.decrypt A pb input out n ∧
      (r.rc = 0 → kEventHeadSize ≤ r.decryptLen ∧ r.decryptLen ≤ input.length ∧
        r.ctx = { ctx with decryptIv := ctx.decryptIv + 1 } ∧
        ∀ other : Bytes, other.take r.decryptLen = input.take r.decryptLen →
          ctx.decrypt A pb other out n = r) ∧
      (r.rc = ERR_NEED_MORE_INPUT_DATA → r.ctx = ctx ∧ r.out = out) ∧
      (r.rc ≠ 0 → r.ctx = ctx) ∧
      (r.rc ≠ ERR_NEED_MORE_INPUT_DATA → ∀ x, ctx.decrypt A pb (input ++ x) out n = r) := by
  have hyields := @decryptSpan_yields A pb ctx input m hm out n
  rw [hyields.eval_eq] at hr
  subst hr
  have hspec := decrypt_spec A pb ctx input out n
  refine ⟨hyields.readsIn, rfl, ?_, ?_, ?_, fun h x => decrypt_append h x⟩
  · intro hrc
    obtain ⟨head, -, -, hfull, -, hlen⟩ := hnew.decrypt_success hrc
    refine ⟨?_, by omega, ?_, fun other hother => hnew.decrypt_congr hrc hother⟩
    · rw [hlen]
      unfold expectedLen
      omega
    · generalize ctx.decrypt A pb input out n = r at hrc hspec
      cases hspec with
      | more _ _ => cases hrc
      | fail rc out' _ nonzero final => exact absurd hrc nonzero
      | item ev _ pos le => rfl
  · intro hrc
    generalize ctx.decrypt A pb input out n = r at hrc hspec
    cases hspec with
    | more _ _ => exact ⟨rfl, rfl⟩
    | fail rc out' _ nonzero final => exact absurd hrc final
    | item ev _ pos le => cases hrc
  · intro hrc
    generalize ctx.decrypt A pb input out n = r at hrc hspec
    cases hspec with
    | more _ _ => rfl
    | fail rc out' _ nonzero final => rfl
    | item ev _ pos le => exact absurd rfl hrc

/-- A close request of stream 7 without a cipher, and a byte of the next frame, in a memory that
goes on with other bytes. -/
theorem decrypt_stays_inside_close_request :
    ∃ ctx, new "none" [] = some ctx ∧
      (ctx.decrypt chacha20Poly1305 protobuf [0, 0, 0, 7, 0, 0, 4, 0, 9]).rc = 0 ∧
      ∀ i ∈ (ctx.decryptSpan chacha20Poly1305 protobuf 9 none 0).indices
        (fun i => [0, 0, 0, 7, 0, 0, 4, 0, 9, 255, 255].getD i 1), i < 9 := by
  refine ⟨_, rfl, rfl, ?_⟩
  exact (decrypt_stays_inside chacha20Poly1305 protobuf "none" [] _ ⟨_, rfl, rfl⟩
    [0, 0, 0, 7, 0, 0, 4, 0, 9] (fun i => [0, 0, 0, 7, 0, 0, 4, 0, 9, 255, 255].getD i 1)
    (by unfold StartsWith; decide) none 0 _ rfl).1

end CipherContext

end Snova
