import Snova.Model.ChunkDelivery
import Snova.Model.Nanopb
import Snova.Properties.ReadEvent
import Snova.Properties.StreamClose

/-!
# Chunks without a buffer

A frame of type `EVENT_STREAM_CHUNK` whose length field is zero leaves `Decrypt` through its early
exit, before `StreamChunk::Decode` has allocated a buffer.  The chunk pointer of the event is
null; `ProcessReadEvent` offers it like any other, and `transfer` dereferences it.  A length field
other than zero always goes through `Decode`, which gives the event a buffer of that length
(`decrypt_chunkPresent_iff`).

`ChunkDelivery.run_inv` follows the buffers: what `Read` returns is what was offered, and what
was offered is the chunk of an event that `Decrypt` returned.
-/

namespace Snova

/-! ## What `Decrypt` leaves in a chunk -/

/-- The chunk pointer is not null, `chunk_len` is the length field of the head, and the buffer
has that many bytes. -/
def MuxEvent.ChunkPresent (ev : MuxEvent) : Prop :=
  ∃ chunk chunkLen, ev.chunkBuffer = some (some chunk, chunkLen) ∧
    chunkLen.toNat = ev.head.len.toNat ∧ chunkLen.toNat ≤ chunk.length

/-- One test of `NewEvent`: every event it makes keeps the head. -/
lemma head_of_dite {head : MuxEventHead} {p : Prop} [Decidable p] {x : p → MuxEvent}
    {y : Option MuxEvent} (hx : ∀ hp, (x hp).head = head)
    (hy : ∀ ev, y = some ev → ev.head = head) (ev : MuxEvent)
    (h : (if hp : p then some (x hp) else y) = some ev) : ev.head = head := by
  split at h
  · rw [← Option.some.inj h]
    exact hx _
  · exact hy ev h

lemma MuxEvent.newEvent_head {head : MuxEventHead} :
    ∀ ev, MuxEvent.newEvent head = some ev → ev.head = head := by
  unfold newEvent
  iterate 10 refine head_of_dite (fun _ => rfl) ?_
  intro ev h
  cases h

/-- A default-constructed event of type 5 is a chunk without a buffer. -/
lemma MuxEvent.newEvent_chunk {head : MuxEventHead} {ev : MuxEvent}
    (h : MuxEvent.newEvent head = some ev) (htype : ev.head.type = 5) :
    ev.head = head ∧ ev.body = .emptyChunk := by
  have hhead := newEvent_head ev h
  have htype' : head.type = EventBody.emptyChunk.type := by
    rw [← hhead, htype]
    rfl
  have hnew := newEvent_of_type htype'
  rw [h] at hnew
  obtain rfl := Option.some.inj hnew
  exact ⟨rfl, rfl⟩

lemma MuxEvent.decode_head {pb : Nanopb} {buffer : Bytes} {ev ev' : MuxEvent}
    (h : ev.decode pb buffer = .ok ev') :
    ev'.head = ev.head ∧ ev.body.decode pb ev.head.len buffer = .ok ev'.body := by
  unfold decode at h
  split at h
  · next b hb =>
      obtain rfl := Except.ok.inj h
      exact ⟨rfl, hb⟩
  · cases h

/-- `StreamChunk::Decode` gives the chunk a buffer. -/
lemma MuxEvent.chunkPresent_of_decode {pb : Nanopb} {buffer : Bytes} {ev ev' : MuxEvent}
    (hbody : ev.body = .emptyChunk) (h : ev.decode pb buffer = .ok ev') : ev'.ChunkPresent := by
  obtain ⟨hhead, hdec⟩ := decode_head h
  rw [hbody] at hdec
  simp only [EventBody.emptyChunk, EventBody.decode] at hdec
  split at hdec
  · cases hdec
  · split at hdec
    · cases hdec
    · next hlen =>
        have hlt := ev.head.len.toNat_lt
        have hn : (UInt32.ofNat ev.head.len.toNat).toNat = ev.head.len.toNat := by
          rw [UInt32.toNat_ofNat']
          omega
        refine ⟨buffer.take ev.head.len.toNat, UInt32.ofNat ev.head.len.toNat, ?_, ?_, ?_⟩
        · rw [MuxEvent.chunkBuffer, ← Except.ok.inj hdec]
        · rw [hn, hhead]
        · rw [hn, List.length_take]
          omega

namespace CipherContext

variable {A : Aead} {pb : Nanopb} {ctx ctx' : CipherContext} {input : Bytes} {ev : MuxEvent}

/-- A chunk that `Decrypt` returns has a buffer exactly if its length field is not zero. -/
lemma decryptFrame_chunkPresent_iff {head : MuxEventHead} {n : ℕ}
    (h : ctx.decryptFrame A pb head input = ⟨0, some ev, n, ctx'⟩) (htype : ev.head.type = 5) :
    ev.ChunkPresent ↔ ev.head.len ≠ 0 := by
  unfold decryptFrame at h
  cases hnew : MuxEvent.newEvent head with
  | none =>
      rw [hnew] at h
      cases h
  | some ev₀ =>
      rw [hnew] at h
      simp only at h
      split at h
      · next hzero =>
          -- the early exit: the event is the default-constructed one
          simp only [DecryptResult.mk.injEq, Option.some.injEq] at h
          obtain ⟨-, rfl, -⟩ := h
          obtain ⟨hhead, hbody⟩ := MuxEvent.newEvent_chunk hnew htype
          constructor
          · rintro ⟨chunk, chunkLen, hchunk, -⟩
            rw [MuxEvent.chunkBuffer, hbody] at hchunk
            cases hchunk
          · intro hlen
            rw [hhead] at hlen
            exact absurd (UInt16.toNat_inj.mp hzero) hlen
      · next hzero =>
          split at h
          · next rc hb =>
              simp only [DecryptResult.mk.injEq] at h
              have hrc := decryptBody_error hb
              rw [h.1] at hrc
              cases hrc
          · split at h
            · next rc hd =>
                simp only [DecryptResult.mk.injEq] at h
                exact absurd h.1 (MuxEvent.decode_error hd).1
            · next ev₁ hd =>
                simp only [DecryptResult.mk.injEq, Option.some.injEq] at h
                obtain ⟨-, rfl, -⟩ := h
                have hhead₁ := (MuxEvent.decode_head hd).1
                rw [hhead₁] at htype
                obtain ⟨hhead, hbody⟩ := MuxEvent.newEvent_chunk hnew htype
                refine iff_of_true (MuxEvent.chunkPresent_of_decode hbody hd) ?_
                rw [hhead₁, hhead]
                intro hlen
                exact hzero (by rw [hlen]; rfl)

lemma decrypt_chunkPresent_iff {out : Option MuxEvent} {n m : ℕ}
    (h : ctx.decrypt A pb input out m = ⟨0, some ev, n, ctx'⟩) (htype : ev.head.type = 5) :
    ev.ChunkPresent ↔ ev.head.len ≠ 0 := by
  unfold decrypt at h
  split at h
  · cases h
  · split at h
    · next rc hh =>
        simp only [DecryptResult.mk.injEq] at h
        have hrc := decryptHead_error hh
        rw [h.1] at hrc
        cases hrc
    · split at h
      · cases h
      · split at h
        · cases h
        · exact decryptFrame_chunkPresent_iff h htype

/-- An item of the decoder is an event that `Decrypt` returned. -/
lemma decrypt_of_next {n : ℕ} (h : (decoder A pb).next ctx input = .item ev n ctx') :
    ctx.decrypt A pb input = ⟨0, some ev, n, ctx'⟩ := by
  have hspec := decrypt_spec A pb ctx input none 0
  change (ctx.decrypt A pb input).outcome = _ at h
  generalize ctx.decrypt A pb input = r at h hspec
  cases hspec with
  | more m short => cases h
  | fail rc out' m nonzero final => simp [DecryptResult.outcome, nonzero, final] at h
  | item ev' m pos le =>
      obtain ⟨rfl, rfl, rfl⟩ := Outcome.item.inj h
      rfl

end CipherContext

/-- Every event of a reader was returned by a call of `Decrypt`. -/
lemma ReaderState.decrypt_of_mem_events {A : Aead} {pb : Nanopb} {ctx : CipherContext}
    {as : List ReaderAction} {s : ReaderState} (htag : ctx.cipherTagLen ≤ 16)
    (h : exec (step A pb) (init ctx) as = some s) {ev : MuxEvent} (hev : ev ∈ s.events) :
    ∃ ctx' input n ctx'', CipherContext.decrypt A pb ctx' input = ⟨0, some ev, n, ctx''⟩ := by
  obtain ⟨items, -, events, -, decoded, -⟩ := run_readInv htag h
  rw [← events] at hev
  obtain ⟨item, hitem, rfl⟩ := List.mem_map.mp hev
  have hmem : item ∈ ((CipherContext.decoder A pb).decodeAll ctx s.received).items := by
    rw [decoded]
    exact List.mem_append_left _ hitem
  obtain ⟨ctx', input, ctx'', hnext⟩ :=
    (CipherContext.decoder A pb).next_of_mem_items ctx s.received item hmem
  exact ⟨ctx', input, item.2, ctx'', CipherContext.decrypt_of_next hnext⟩

/-! ## What a stream carries -/

namespace StreamState

variable {κ μ : Type} [DecidableEq κ] {P : μ → Prop} {s s' : StreamState κ μ}

/-- Every chunk the channel accepted, and every one that waits to be accepted, has the
property. -/
structure Carries (P : μ → Prop) (s : StreamState κ μ) : Prop where
  accepted : ∀ x ∈ s.accepted, P x
  sending : ∀ c x, s.offerPc c = .sending x → P x

/-- A coroutine that leaves `Offer` or has its chunk accepted waits no longer. -/
lemma Carries.update (h : Carries P s) {c : κ} {pc : OfferPc μ} (hpc : ∀ x, pc = .sending x → P x)
    (d : κ) (x : μ) (hd : Function.update s.offerPc c pc d = .sending x) : P x := by
  by_cases hdc : d = c
  · rw [hdc, Function.update_self] at hd
    exact hpc x hd
  · rw [Function.update_of_ne hdc] at hd
    exact h.sending d x hd

lemma Carries.accept (h : Carries P s) {c : κ} {chunk : μ} (hchunk : P chunk) :
    Carries P (s.accept c chunk) := by
  constructor
  · intro x hx
    obtain hx | hx := List.mem_append.mp hx
    · exact h.accepted x hx
    · rw [List.mem_singleton.mp hx]
      exact hchunk
  · exact h.update fun x hx => by cases hx

lemma Carries.offer (h : Carries P s) {c : κ} {chunk : μ} (hchunk : P chunk)
    (hspec : OfferSpec s c chunk s') : Carries P s' := by
  have haccept := h.accept (c := c) hchunk
  cases hspec with
  | handed => exact ⟨haccept.accepted, haccept.sending⟩
  | buffered => exact ⟨haccept.accepted, haccept.sending⟩
  | suspended =>
      refine ⟨h.accepted, h.update fun x hx => ?_⟩
      rw [← OfferPc.sending.inj hx]
      exact hchunk

lemma Carries.read (h : Carries P s) (hw : Wired s) (hspec : ReadSpec s s') : Carries P s' := by
  cases hspec with
  | taken => exact ⟨h.accepted, h.sending⟩
  | @refilled ch chunk chunk' chunks c rest hbuffer hsenders =>
      obtain ⟨c', hc', hpc⟩ := hw.senders (some c, chunk') (by rw [hsenders]; exact .head _)
      have hcarries := h.accept (c := c) (h.sending c' chunk' hpc)
      exact ⟨hcarries.accepted, hcarries.sending⟩
  | suspended => exact ⟨h.accepted, h.sending⟩

/-- A stream carries only what is offered to it. -/
lemma step_carries {a : StreamAction κ μ} (hinv : Inv s) (h : Carries P s)
    (ha : ∀ c x, a = .offer c x → P x) (hstep : step s a = some s') : Carries P s' := by
  cases a with
  | offer c chunk =>
      simp only [step] at hstep
      split at hstep
      · obtain rfl := Option.some.inj hstep
        cases hclosed : s.stream.closed with
        | false =>
            exact h.offer (ha c chunk rfl)
              (stepOffer_spec c chunk hclosed (hinv.wired hclosed).isOpen)
        | true =>
            simp only [stepOffer, MuxStream.offer, hclosed, if_true]
            exact ⟨h.accepted, h.sending⟩
      · cases hstep
  | offerResume c =>
      simp only [step] at hstep
      split at hstep
      · obtain rfl := Option.some.inj hstep
        exact ⟨h.accepted, h.update fun x hx => by cases hx⟩
      · obtain rfl := Option.some.inj hstep
        exact ⟨h.accepted, h.update fun x hx => by cases hx⟩
      · cases hstep
  | read =>
      simp only [step] at hstep
      split at hstep
      · obtain rfl := Option.some.inj hstep
        cases hclosed : s.stream.closed with
        | false =>
            have hw := hinv.wired hclosed
            exact h.read hw
              (stepRead_spec hclosed hw.isOpen (by rw [hw.capacity]; decide) hw.senders)
        | true =>
            simp only [stepRead, MuxStream.read, hclosed, if_true]
            exact ⟨h.accepted, h.sending⟩
      · cases hstep
  | readResume =>
      simp only [step] at hstep
      split at hstep
      · obtain rfl := Option.some.inj hstep
        exact ⟨h.accepted, h.sending⟩
      · obtain rfl := Option.some.inj hstep
        exact ⟨h.accepted, h.sending⟩
      · cases hstep
  | closeByRemote =>
      obtain rfl := Option.some.inj hstep
      unfold stepClose
      split
      · exact h
      · refine ⟨h.accepted, fun c x hc => ?_⟩
        simp only at hc
        cases hpc : s.offerPc c <;> (rw [hpc] at hc; cases hc)

omit [DecidableEq κ] in
/-- What `Read` returns has been accepted. -/
lemma Recorded.mem_accepted (h : Recorded s) {x : μ} (hx : x ∈ s.returned) : x ∈ s.accepted := by
  rw [h.order]
  exact List.mem_append_left _ (List.mem_append_left _ hx)

end StreamState

/-! ## The whole way -/

namespace ChunkDelivery

variable {A : Aead} {pb : Nanopb} {κ : Type} [DecidableEq κ] {ctx : κ → CipherContext}
  {sid : UInt32} {s s' : ChunkDelivery κ}

/-- The readers are readers of their connections, the offered events are chunks that `Decrypt`
returned, and the stream carries their buffers. -/
structure Inv (A : Aead) (pb : Nanopb) (ctx : κ → CipherContext) (s : ChunkDelivery κ) : Prop where
  readers : ∀ c, ∃ as, exec (ReaderState.step A pb) (.init (ctx c)) as = some (s.readers c)
  stream : StreamState.Inv s.stream
  offered : ∀ ev ∈ s.offered, ev.head.type = 5 ∧
    ∃ ctx' input n ctx'', CipherContext.decrypt A pb ctx' input = ⟨0, some ev, n, ctx''⟩
  carries : s.stream.Carries fun x => ∃ ev ∈ s.offered, ev.chunkBuffer = some x

omit [DecidableEq κ] in
lemma inv_init : Inv A pb ctx (init ctx) where
  readers := fun c => ⟨[], rfl⟩
  stream := StreamState.inv_init
  offered := fun ev h => absurd h List.not_mem_nil
  carries := ⟨fun x h => absurd h List.not_mem_nil, fun c x h => by cases h⟩

/-- A step of the stream that offers only the buffers of offered events. -/
lemma stepStream_inv {a : StreamAction κ ChunkBuffer} (h : Inv A pb ctx s)
    (ha : ∀ c x, a = .offer c x → ∃ ev ∈ s.offered, ev.chunkBuffer = some x)
    (hstep : s.stepStream a = some s') : Inv A pb ctx s' := by
  obtain ⟨st, hst, rfl⟩ := Option.map_eq_some_iff.mp hstep
  exact ⟨h.readers, StreamState.step_inv h.stream hst, h.offered,
    StreamState.step_carries h.stream h.carries ha hst⟩

lemma type_of_chunkBuffer {ev : MuxEvent} {buf : ChunkBuffer} (h : ev.chunkBuffer = some buf) :
    ev.head.type = 5 := by
  rw [ev.type_eq]
  unfold MuxEvent.chunkBuffer at h
  split at h
  · next hbody =>
      rw [hbody]
      rfl
  · cases h

lemma stepProcess_inv {c : κ} {found : Bool} {ev : MuxEvent}
    (htag : ∀ c, (ctx c).cipherTagLen ≤ 16) (h : Inv A pb ctx s)
    (hev : ev ∈ (s.readers c).events) (hstep : s.stepProcess sid c found ev = some s') :
    Inv A pb ctx s' := by
  unfold stepProcess at hstep
  split at hstep
  · next buf hbuf =>
      split at hstep
      · obtain ⟨as, has⟩ := h.readers c
        have hdec := ReaderState.decrypt_of_mem_events (htag c) has hev
        refine stepStream_inv ?_ ?_ hstep
        · refine ⟨h.readers, h.stream, ?_, ?_, ?_⟩
          · intro ev' hev'
            obtain hev' | hev' := List.mem_append.mp hev'
            · exact h.offered ev' hev'
            · rw [List.mem_singleton.mp hev']
              exact ⟨type_of_chunkBuffer hbuf, hdec⟩
          · intro x hx
            obtain ⟨ev', hev', hx'⟩ := h.carries.accepted x hx
            exact ⟨ev', List.mem_append_left _ hev', hx'⟩
          · intro d x hx
            obtain ⟨ev', hev', hx'⟩ := h.carries.sending d x hx
            exact ⟨ev', List.mem_append_left _ hev', hx'⟩
        · intro d x hd
          obtain ⟨-, rfl⟩ := StreamAction.offer.inj hd
          exact ⟨ev, List.mem_append_right _ (.head _), hbuf⟩
      · obtain rfl := Option.some.inj hstep
        exact ⟨h.readers, h.stream, h.offered, h.carries⟩
  · obtain rfl := Option.some.inj hstep
    exact ⟨h.readers, h.stream, h.offered, h.carries⟩

lemma step_inv {a : ChunkAction κ} (htag : ∀ c, (ctx c).cipherTagLen ≤ 16)
    (h : Inv A pb ctx s) (hstep : s.step A pb sid a = some s') : Inv A pb ctx s' := by
  cases a with
  | conn c a =>
      simp only [step] at hstep
      split at hstep
      · obtain ⟨r, hr, rfl⟩ := Option.map_eq_some_iff.mp hstep
        refine ⟨fun d => ?_, h.stream, h.offered, h.carries⟩
        by_cases hd : d = c
        · obtain ⟨as, has⟩ := h.readers c
          refine ⟨as ++ [a], ?_⟩
          rw [hd, exec_append has, exec_cons_of_step hr, exec_nil]
          simp only [Function.update_self]
        · simp only [Function.update_of_ne hd]
          exact h.readers d
      · cases hstep
  | process c found =>
      simp only [step] at hstep
      split at hstep
      · next ev hev => exact stepProcess_inv htag h (List.mem_of_getElem? hev) hstep
      · cases hstep
  | offerResume c => exact stepStream_inv h (fun c x hc => by cases hc) hstep
  | read => exact stepStream_inv h (fun c x hc => by cases hc) hstep
  | readResume => exact stepStream_inv h (fun c x hc => by cases hc) hstep
  | closeByRemote => exact stepStream_inv h (fun c x hc => by cases hc) hstep

lemma run_inv {as : List (ChunkAction κ)} (htag : ∀ c, (ctx c).cipherTagLen ≤ 16)
    (h : exec (step A pb sid) (init ctx) as = some s) : Inv A pb ctx s :=
  exec_invariant (fun _ _ _ hs hstep => step_inv htag hs hstep) inv_init h

/-- **A chunk has a buffer exactly if its length field is not zero.**  Of every chunk that
`Decrypt` returns, whatever the peer sent: the pointer is there, `chunk_len` is the length field
and the buffer holds as many bytes, if and only if the length field is not zero.  And in every run
of a stream behind any number of connections, every event whose buffer was offered has its buffer
if and only if all their length fields are not zero; if so, every element that `Read` returns to
`transfer` is a buffer of at least its length. -/
theorem chunk_present_iff_len_ne_zero (A : Aead) (pb : Nanopb) :
    (∀ (ctx : CipherContext) (input : Bytes) (out : Option MuxEvent) (m : ℕ) (ev : MuxEvent)
        (n : ℕ) (ctx' : CipherContext), ctx.decrypt A pb input out m = ⟨0, some ev, n, ctx'⟩ →
        ev.head.type = 5 → (ev.ChunkPresent ↔ ev.head.len ≠ 0)) ∧
      ∀ (ctx : κ → CipherContext) (method : κ → String) (key : κ → Bytes),
        (∀ c, (ctx c).FromNew (method c) (key c)) → ∀ (sid : UInt32) (as : List (ChunkAction κ))
        (s : ChunkDelivery κ), exec (step A pb sid) (init ctx) as = some s →
        ((∀ ev ∈ s.offered, ev.ChunkPresent) ↔ ∀ ev ∈ s.offered, ev.head.len ≠ 0) ∧
          ((∀ ev ∈ s.offered, ev.head.len ≠ 0) →
            ∀ x ∈ s.stream.returned, ∃ chunk, x.1 = some chunk ∧ x.2.toNat ≤ chunk.length) := by
  refine ⟨fun ctx input out m ev n ctx' h htype => CipherContext.decrypt_chunkPresent_iff h htype,
    fun ctx method key hnew sid as s h => ?_⟩
  have hinv := run_inv (fun c => (hnew c).tagLen_le) h
  have hiff : ∀ ev ∈ s.offered, (ev.ChunkPresent ↔ ev.head.len ≠ 0) := by
    intro ev hev
    obtain ⟨htype, ctx', input, n, ctx'', hdec⟩ := hinv.offered ev hev
    exact CipherContext.decrypt_chunkPresent_iff hdec htype
  constructor
  · exact forall₂_congr hiff
  · intro hlen x hx
    obtain ⟨ev, hev, hbuf⟩ := hinv.carries.accepted x (hinv.stream.recorded.mem_accepted hx)
    obtain ⟨chunk, chunkLen, hchunk, -, hle⟩ := (hiff ev hev).mpr (hlen ev hev)
    rw [hbuf] at hchunk
    obtain rfl := Option.some.inj hchunk
    exact ⟨chunk, rfl, hle⟩

/-- A chunk frame of stream 1 with length zero, without a cipher: `Decrypt` returns it, and the
transfer loop is given a null pointer. -/
theorem chunk_of_len_zero_is_null :
    ∃ ctx, CipherContext.new "none" [] = some ctx ∧
      (∃ ev ctx', ctx.decrypt chacha20Poly1305 protobuf [0, 0, 0, 1, 0, 0, 5, 0] =
          ⟨0, some ev, 8, ctx'⟩ ∧ ev.head.type = 5 ∧ ¬ ev.ChunkPresent) ∧
      ∃ s : ChunkDelivery Unit, exec (step chacha20Poly1305 protobuf 1) (init fun _ => ctx)
          [.conn () .readEvent, .conn () (.data [0, 0, 0, 1, 0, 0, 5, 0]), .process () true,
            .read, .readResume] = some s ∧
        s.stream.returned = [(none, 0)] := by
  refine ⟨_, rfl, ⟨_, _, rfl, rfl, ?_⟩, _, rfl, rfl⟩
  rintro ⟨chunk, chunkLen, hchunk, -⟩
  cases hchunk

end ChunkDelivery

end Snova
