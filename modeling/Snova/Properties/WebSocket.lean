import Snova.Model.WebSocket
import Mathlib.Data.List.Forall2

/-!
# WebSocket frames survive any segmentation

What `BufferedIO` has still to give is the rest of its buffer and the pieces to come
(`remaining`).  `read_exact` takes the first bytes of it, however they are cut (`readExact_spec`),
so a decoder built on it sees the byte stream.  Frames are self-delimiting in all three forms of
the length, masked or not (`wsAsyncRead_frame`), and `reads_return_payloads` follows by induction
on the frames.
-/

namespace Snova

/-! ## Buffered reads -/

namespace BufferedIo

/-- What there is still to read. -/
def remaining (io : BufferedIo) : Bytes :=
  io.recvBuffer.drop io.offset ++ (io.source.map fun r => r.toOption.getD []).flatten

/-- The underlying connection delivers pieces that are not empty. -/
def Delivers (io : BufferedIo) : Prop := ∀ r ∈ io.source, ∃ data, data ≠ [] ∧ r = .ok data

lemma copyOut_remaining (io : BufferedIo) (size : ℕ) :
    (io.copyOut size).1 ++ (io.copyOut size).2.remaining = io.remaining := by
  have hdrop : ∀ xs : Bytes, xs.take size ++ xs.drop (xs.take size).length = xs := by
    intro xs
    obtain ⟨rest, hrest⟩ := List.take_prefix size xs
    have hskip : (xs.take size ++ rest).drop (xs.take size).length = rest := List.drop_left
    rw [hrest] at hskip
    rw [hskip, hrest]
  simp only [copyOut, remaining]
  rw [← List.drop_drop, ← List.append_assoc, hdrop]

/-- A read returns a part of the front. -/
lemma asyncRead_spec {io : BufferedIo} (hio : io.Delivers) (size : ℕ) (hne : io.remaining ≠ []) :
    ∃ data io', io.asyncRead size = .ok (data, io') ∧ io'.Delivers ∧ data.length ≤ size ∧
      data ++ io'.remaining = io.remaining := by
  rw [asyncRead]
  split
  · next hempty =>
      have hnil : io.recvBuffer.drop io.offset = [] := List.drop_eq_nil_of_le hempty
      cases hsource : io.source with
      | nil =>
          rw [remaining, hnil, hsource] at hne
          exact absurd rfl hne
      | cons r source =>
          obtain ⟨data, -, rfl⟩ := hio r (by rw [hsource]; exact List.mem_cons_self)
          refine ⟨_, _, rfl, ?_, List.length_take_le _ _, ?_⟩
          · intro r hr
            exact hio r (by rw [hsource]; exact List.mem_cons_of_mem _ hr)
          · refine (copyOut_remaining ⟨data, 0, source⟩ size).trans ?_
            rw [remaining, remaining, hnil, hsource]
            rfl
  · exact ⟨_, _, rfl, hio, List.length_take_le _ _, io.copyOut_remaining size⟩

/-- `read_exact` returns the front of what there is to read. -/
lemma readExact_spec {io : BufferedIo} (hio : io.Delivers) {n : ℕ}
    (hn : n ≤ io.remaining.length) :
    ∃ io', io.readExact n = .ok (io.remaining.take n, io') ∧ io'.Delivers ∧
      io'.remaining = io.remaining.drop n := by
  induction hm : io.source.length + n using Nat.strongRecOn generalizing io n with
  | _ m ih =>
      rw [readExact]
      split
      · next hpos =>
          have hne : io.remaining ≠ [] := List.ne_nil_of_length_pos (by omega)
          obtain ⟨data, io', hread, hio', hsize, heq⟩ := asyncRead_spec hio n hne
          have hless := asyncRead_decreases hread hpos
          have hlength := congrArg List.length heq
          rw [List.length_append] at hlength
          obtain ⟨io'', hrest, hio'', heq''⟩ := ih _ (by omega) hio'
            (n := n - data.length) (by omega) rfl
          refine ⟨io'', ?_, hio'', ?_⟩
          · split
            · next hstop =>
                rw [hread] at hstop
                cases hstop
            · next data' io₁ hok =>
                obtain ⟨rfl, rfl⟩ := Prod.mk.inj (Except.ok.inj (hread.symm.trans hok))
                rw [hrest, ← heq, List.take_append, List.take_of_length_le hsize]
          · rw [heq'', ← heq, List.drop_append, List.drop_eq_nil_of_le hsize, List.nil_append]
      · have hzero : n = 0 := by omega
        subst hzero
        exact ⟨io, rfl, hio, rfl⟩

lemma readExact_append {io : BufferedIo} (hio : io.Delivers) {xs rest : Bytes} {n : ℕ}
    (hremaining : io.remaining = xs ++ rest) (hn : xs.length = n) :
    ∃ io', io.readExact n = .ok (xs, io') ∧ io'.Delivers ∧ io'.remaining = rest := by
  obtain ⟨io', hread, hio', hrest⟩ := readExact_spec hio (n := n)
    (by rw [hremaining, List.length_append]; omega)
  rw [hremaining, List.take_left' hn] at hread
  rw [hremaining, List.drop_left' hn] at hrest
  exact ⟨io', hread, hio', hrest⟩

end BufferedIo

/-! ## One frame -/

/-- The mask bit and the seven bits of the length share a byte. -/
lemma mask_bit (n : Fin 128) :
    UInt8.ofNat n >>> 7 = 0 ∧ UInt8.ofNat n &&& 0x7F = UInt8.ofNat n ∧
      (0x80 ||| UInt8.ofNat n) >>> 7 = 1 ∧ (0x80 ||| UInt8.ofNat n) &&& 0x7F = UInt8.ofNat n := by
  revert n
  decide

lemma wsLength_byte (dataLen : ℕ) :
    (wsLength dataLen).1 >>> 7 = 0 ∧ (wsLength dataLen).1 &&& 0x7F = (wsLength dataLen).1 ∧
      (0x80 ||| (wsLength dataLen).1) >>> 7 = 1 ∧
      (0x80 ||| (wsLength dataLen).1) &&& 0x7F = (wsLength dataLen).1 := by
  rw [wsLength]
  split
  · next hle =>
      have hbits := mask_bit ⟨dataLen, by omega⟩
      rw [hbits.2.1]
      exact hbits
  · split
    · exact mask_bit 127
    · exact mask_bit 126

/-- The length is read back in each of its three forms. -/
lemma wsReadLength_wsLength {io : BufferedIo} (hio : io.Delivers) {dataLen : ℕ} {rest : Bytes}
    (hlen : dataLen < 2 ^ 64) (hremaining : io.remaining = (wsLength dataLen).2 ++ rest) :
    ∃ io', wsReadLength io (wsLength dataLen).1 = .ok (dataLen, io') ∧ io'.Delivers ∧
      io'.remaining = rest := by
  rw [wsLength] at hremaining ⊢
  split at hremaining
  · next hle =>
      have hbits := mask_bit ⟨dataLen, by omega⟩
      have hnat : (UInt8.ofNat dataLen).toNat = dataLen := by
        rw [UInt8.toNat_ofNat']
        omega
      have hne : ∀ k : UInt8, 125 < k.toNat → UInt8.ofNat dataLen ≠ k := by
        rintro k hk rfl
        omega
      rw [if_pos hle, wsReadLength, hbits.2.1, if_neg (hne 126 (by decide)),
        if_neg (hne 127 (by decide)), hnat]
      exact ⟨io, rfl, hio, hremaining⟩
  · next hgt =>
      rw [if_neg hgt]
      split at hremaining
      · next hlong =>
          obtain ⟨io', hread, hio', hrest⟩ := io.readExact_append hio hremaining (length_toBE 8 _)
          rw [if_pos hlong, wsReadLength, if_neg (show ¬ (127 : UInt8) = 126 by decide), if_pos rfl,
            hread]
          refine ⟨io', ?_, hio', hrest⟩
          have hvalue : ofBE (toBE 8 dataLen) = dataLen := by
            rw [ofBE_toBE]
            exact Nat.mod_eq_of_lt hlen
          exact congrArg (fun k => Except.ok (k, io')) hvalue
      · next hshort =>
          obtain ⟨io', hread, hio', hrest⟩ := io.readExact_append hio hremaining (length_toBE 2 _)
          rw [if_neg hshort, wsReadLength, if_pos rfl, hread]
          refine ⟨io', ?_, hio', hrest⟩
          have hvalue : ofBE (toBE 2 dataLen) = dataLen := by
            rw [ofBE_toBE]
            exact Nat.mod_eq_of_lt (by omega)
          exact congrArg (fun k => Except.ok (k, io')) hvalue

/-- A frame is read back, and what follows it is left. -/
lemma wsAsyncRead_frame {io : BufferedIo} (hio : io.Delivers) {isServer : Bool}
    {maskKey payload rest : Bytes} {size : ℕ} (hkey : maskKey.length = 4)
    (hlen : payload.length < 2 ^ 64) (hsize : payload.length ≤ size)
    (hremaining : io.remaining = wsAsyncWrite isServer maskKey payload ++ rest) :
    ∃ io', wsAsyncRead io size = .ok (payload, io') ∧ io'.Delivers ∧ io'.remaining = rest := by
  obtain ⟨hbit, hlow, hmaskBit, hmaskLow⟩ := wsLength_byte payload.length
  have hroom : ¬ size < payload.length := Nat.not_lt.mpr hsize
  cases isServer with
  | true =>
      have hframe : io.remaining = [0x82, (wsLength payload.length).1] ++
          ((wsLength payload.length).2 ++ (payload ++ rest)) := by
        rw [hremaining]
        simp [wsAsyncWrite]
      obtain ⟨io₁, hread₁, hio₁, hrest₁⟩ := io.readExact_append hio hframe rfl
      obtain ⟨io₂, hread₂, hio₂, hrest₂⟩ := wsReadLength_wsLength hio₁ hlen hrest₁
      obtain ⟨io₃, hread₃, hio₃, hrest₃⟩ := io₂.readExact_append hio₂ hrest₂ rfl
      refine ⟨io₃, ?_, hio₃, hrest₃⟩
      rw [wsAsyncRead, show (2 : ℕ) = [0x82, (wsLength payload.length).1].length from rfl, hread₁]
      simp [bind, Except.bind, hlow, hread₂, hroom, hbit, hread₃]
  | false =>
      have hframe : io.remaining = [0x82, 0x80 ||| (wsLength payload.length).1] ++
          ((wsLength payload.length).2 ++ (maskKey ++ (maskPayload maskKey payload ++ rest))) := by
        rw [hremaining]
        simp [wsAsyncWrite]
      obtain ⟨io₁, hread₁, hio₁, hrest₁⟩ := io.readExact_append hio hframe rfl
      obtain ⟨io₂, hread₂, hio₂, hrest₂⟩ := wsReadLength_wsLength hio₁ hlen hrest₁
      obtain ⟨io₃, hread₃, hio₃, hrest₃⟩ := io₂.readExact_append hio₂ hrest₂ hkey
      obtain ⟨io₄, hread₄, hio₄, hrest₄⟩ :=
        io₃.readExact_append hio₃ hrest₃ (length_maskPayload maskKey payload)
      refine ⟨io₄, ?_, hio₄, hrest₄⟩
      rw [wsAsyncRead, show (2 : ℕ) = [0x82, 0x80 ||| (wsLength payload.length).1].length from rfl,
        hread₁]
      simp [bind, Except.bind, pure, Except.pure, hmaskLow, hread₂, hroom, hmaskBit, hread₃, hread₄,
        maskPayload_maskPayload]

/-! ## All frames -/

/-- The bytes of successive calls of `AsyncWrite`, each with its mask key and payload. -/
def wsStream (isServer : Bool) (frames : List (Bytes × Bytes)) : Bytes :=
  frames.flatMap fun f => wsAsyncWrite isServer f.1 f.2

lemma wsReads_frames {isServer : Bool} {frames : List (Bytes × Bytes)} {sizes : List ℕ}
    {io : BufferedIo} {rest : Bytes} (hio : io.Delivers)
    (hframes : ∀ f ∈ frames, f.1.length = 4 ∧ f.2.length < 2 ^ 64)
    (hsizes : List.Forall₂ (fun f size => f.2.length ≤ size) frames sizes)
    (hremaining : io.remaining = wsStream isServer frames ++ rest) :
    ∃ io', wsReads io sizes = .ok (frames.map Prod.snd, io') ∧ io'.Delivers ∧
      io'.remaining = rest := by
  induction hsizes generalizing io with
  | nil => exact ⟨io, rfl, hio, hremaining⟩
  | @cons f size frames sizes hsize hsizes ih =>
      obtain ⟨hkey, hlen⟩ := hframes f List.mem_cons_self
      rw [wsStream, List.flatMap_cons, List.append_assoc] at hremaining
      obtain ⟨io₁, hread₁, hio₁, hrest₁⟩ := wsAsyncRead_frame hio hkey hlen hsize hremaining
      obtain ⟨io₂, hread₂, hio₂, hrest₂⟩ := ih hio₁
        (fun g hg => hframes g (List.mem_cons_of_mem _ hg)) hrest₁
      refine ⟨io₂, ?_, hio₂, hrest₂⟩
      simp [wsReads, bind, Except.bind, pure, Except.pure, hread₁, hread₂]

/-- **Payloads survive framing and any segmentation.**  For every list of payloads written by a
client with any mask keys or by a server, and every way to cut the byte stream into pieces that
are not empty, the first part of it possibly in the buffer already: successive reads into large
enough buffers return the payloads in order, and nothing is left. -/
theorem reads_return_payloads (isServer : Bool) (frames : List (Bytes × Bytes))
    (hframes : ∀ f ∈ frames, f.1.length = 4 ∧ f.2.length < 2 ^ 64)
    (recvBuffer : Bytes) (offset : ℕ) (pieces : List Bytes) (hpieces : ∀ p ∈ pieces, p ≠ [])
    (hstream : recvBuffer.drop offset ++ pieces.flatten = wsStream isServer frames)
    (sizes : List ℕ) (hsizes : List.Forall₂ (fun f size => f.2.length ≤ size) frames sizes) :
    ∃ io', wsReads ⟨recvBuffer, offset, pieces.map .ok⟩ sizes = .ok (frames.map Prod.snd, io') ∧
      io'.remaining = [] := by
  have hio : BufferedIo.Delivers ⟨recvBuffer, offset, pieces.map .ok⟩ := by
    intro r hr
    obtain ⟨p, hp, rfl⟩ := List.mem_map.mp hr
    exact ⟨p, hpieces p hp, rfl⟩
  have hremaining : BufferedIo.remaining ⟨recvBuffer, offset, pieces.map .ok⟩ =
      wsStream isServer frames ++ [] := by
    rw [List.append_nil, ← hstream, BufferedIo.remaining, List.map_map]
    congr 2
    exact List.map_id pieces
  obtain ⟨io', hread, -, hrest⟩ := wsReads_frames hio hframes hsizes hremaining
  exact ⟨io', hread, hrest⟩

/-- A masked frame of two bytes and an empty one, cut inside the mask key. -/
theorem reads_return_payloads_two_frames :
    ∃ io', wsReads ⟨[], 0, [[0x82, 0x82, 1, 2], [3, 4, 8, 11, 0x82, 0x80, 5, 6, 7, 8]].map .ok⟩
        [16, 16] = .ok ([[9, 9], []], io') ∧ io'.remaining = [] :=
  reads_return_payloads false [([1, 2, 3, 4], [9, 9]), ([5, 6, 7, 8], [])] (by decide) [] 0
    [[0x82, 0x82, 1, 2], [3, 4, 8, 11, 0x82, 0x80, 5, 6, 7, 8]] (by decide) (by decide) [16, 16]
    (.cons (by decide) (.cons (by decide) .nil))

end Snova
