import Snova.Model.Nanopb
import Snova.Model.ReadEvent
import Snova.Properties.CipherContext

/-!
# `ReadEvent` decodes the stream

However the transport cuts the byte stream, the calls of `ReadEvent` return what `Decrypt` would
find in the whole of it.  `readEventTurn_spec` is one turn of the loop against the decoder;
`ReadInv` ties the buffer, the span and the context to the bytes received so far, and every step
keeps it.
-/

namespace Snova

open CipherContext (decoder)

variable {A : Aead} {pb : Nanopb}

/-! ## One turn of the loop -/

namespace ReadBuffer

lemma slice_removePrefix (b : ReadBuffer) (s : Span) (n : ℕ) :
    b.slice (s.removePrefix n) = (b.slice s).drop n := by
  simp only [slice, Span.removePrefix]
  rcases Nat.le_total n s.len with h | h
  · rw [Nat.min_eq_left h, List.drop_take, List.drop_drop]
  · rw [Nat.sub_eq_zero_of_le h, List.take_zero, List.drop_eq_nil_of_le]
    rw [List.length_take]
    omega

/-- The bytes moved to the front stand there. -/
lemma take_moveToFront (b : ReadBuffer) (s : Span) :
    (b.moveToFront s).bytes.take s.len = b.slice s :=
  List.take_left' (b.length_slice s)

lemma take_of_off {b : ReadBuffer} {s : Span} (h : s.off = 0) :
    b.bytes.take s.len = b.slice s := by
  rw [slice, h, List.drop_zero]

/-- Storing behind the first `pos` bytes keeps them and appends the data. -/
lemma slice_store {b : ReadBuffer} {pos : ℕ} {data : Bytes}
    {h : pos + data.length ≤ readBufferSize} {f : 0 + (pos + data.length) ≤ readBufferSize} :
    (b.store pos data h).slice ⟨0, pos + data.length, f⟩ = b.bytes.take pos ++ data := by
  have hlen : (b.bytes.take pos ++ data).length = pos + data.length := by
    rw [List.length_append, List.length_take, b.size]
    omega
  show (((b.bytes.take pos ++ (data ++ _)).drop 0).take (pos + data.length)) = _
  rw [List.drop_zero, ← List.append_assoc, List.take_left' hlen]

end ReadBuffer

/-- The outcomes of a turn that starts with the bytes `pend` in its span. -/
inductive TurnSpec (A : Aead) (pb : Nanopb) (r : Reader) (pend : Bytes) :
    Reader × ReadStatus → Prop
  -- The undecoded bytes stand at the front of the buffer, and there is room behind them.
  | more (r' : Reader) (current : Span)
      (next : (decoder A pb).next r.cipherCtx pend = .more)
      (ctx : r'.cipherCtx = r.cipherCtx)
      (front : r'.readBuffer.bytes.take current.len = pend)
      (short : current.len <
        kEventHeadSize + (kMaxChunkSize + 128) + 2 * r.cipherCtx.cipherTagLen) :
      TurnSpec A pb r pend (r', .reading current)
  | fail (r' : Reader) (rc : Int) (event : Option MuxEvent)
      (next : (decoder A pb).next r.cipherCtx pend = .fail rc)
      (ctx : r'.cipherCtx = r.cipherCtx) (nonzero : rc ≠ 0) :
      TurnSpec A pb r pend (r', .returned rc event)
  | item (r' : Reader) (event : MuxEvent) (n : ℕ)
      (next : (decoder A pb).next r.cipherCtx pend = .item event n r'.cipherCtx)
      (ctx : r'.cipherCtx = { r.cipherCtx with decryptIv := r.cipherCtx.decryptIv + 1 })
      (readable : r'.readBuffer.slice r'.readableData = pend.drop n) :
      TurnSpec A pb r pend (r', .returned 0 (some event))

lemma readEventTurn_spec (A : Aead) (pb : Nanopb) (r : Reader) (current : Span) :
    TurnSpec A pb r (r.readBuffer.slice current) (r.readEventTurn A pb current) := by
  have hlen := r.readBuffer.length_slice current
  unfold Reader.readEventTurn Reader.readEventFromBuffer
  by_cases hempty : current.len = 0
  · have hnil : r.readBuffer.slice current = [] := List.length_eq_zero_iff.mp (hlen.trans hempty)
    simp only [if_pos hempty, if_true]
    refine .more r current ?_ rfl ?_ ?_
    · rw [hnil]; exact CipherContext.next_nil _
    · rw [hnil, hempty, List.take_zero]
    · have hpos : 0 < kEventHeadSize := by decide
      omega
  · have hspec := CipherContext.decrypt_spec A pb r.cipherCtx (r.readBuffer.slice current) none 0
    have hnext : (decoder A pb).next r.cipherCtx (r.readBuffer.slice current) =
        (r.cipherCtx.decrypt A pb (r.readBuffer.slice current)).outcome := rfl
    simp only [if_neg hempty]
    generalize r.cipherCtx.decrypt A pb (r.readBuffer.slice current) = d at hspec hnext
    cases hspec with
    | more n short =>
        rw [hlen] at short
        have hrc : ERR_NEED_MORE_INPUT_DATA ≠ 0 := by decide
        simp only [if_neg hrc, ne_eq, not_true_eq_false, if_false]
        by_cases hoff : current.off = 0
        · simp only [hoff, not_true_eq_false, if_false, if_true]
          exact .more _ _ hnext rfl (ReadBuffer.take_of_off hoff) short
        · simp only [hoff, not_false_eq_true, if_true]
          exact .more _ _ hnext rfl (ReadBuffer.take_moveToFront _ _) short
    | fail rc out' n nonzero final =>
        simp only [if_neg nonzero, ne_eq, final, not_false_eq_true, if_true, if_false]
        refine .fail _ rc out' ?_ rfl nonzero
        rw [hnext, DecryptResult.outcome, if_neg final, if_neg nonzero]
    | item ev n pos le =>
        have hrc : (0 : Int) ≠ ERR_NEED_MORE_INPUT_DATA := by decide
        simp only [if_true, if_neg hrc]
        refine .item _ ev n ?_ rfl (ReadBuffer.slice_removePrefix _ _ _)
        rw [hnext, DecryptResult.outcome, if_neg hrc, if_pos rfl]

/-! ## A run of the reader -/

namespace ReaderState

variable {ctx₀ : CipherContext} {s s' : ReaderState}

/-- The bytes received and not decoded yet, when the decoded events had these lengths. -/
def undecoded (s : ReaderState) (items : List (MuxEvent × ℕ)) : Bytes :=
  s.received.drop (items.map (·.2)).sum

/-- What the phase of the reader says about its buffer. -/
def PhaseInv (A : Aead) (pb : Nanopb) (s : ReaderState) (pend : Bytes) : Prop :=
  match s.phase with
  | .idle => s.reader.readBuffer.slice s.reader.readableData = pend
  | .reading current =>
      (decoder A pb).next s.reader.cipherCtx pend = .more ∧
        s.reader.readBuffer.bytes.take current.len = pend ∧ current.len < readBufferSize
  | .failed rc => (decoder A pb).next s.reader.cipherCtx pend = .fail rc
  | .disconnected _ => True

/-- The invariant of the reader: its context has decoded `items` off the stream, and the rest is
what its buffer holds. -/
structure ReadInv (A : Aead) (pb : Nanopb) (ctx₀ : CipherContext) (s : ReaderState)
    (items : List (MuxEvent × ℕ)) : Prop where
  tag : s.reader.cipherCtx.cipherTagLen ≤ 16
  events : items.map (·.1) = s.events
  bound : (items.map (·.2)).sum ≤ s.received.length
  decoded : (decoder A pb).decodeAll ctx₀ s.received =
    ((decoder A pb).decodeAll s.reader.cipherCtx (s.undecoded items)).after items
  phase : s.PhaseInv A pb (s.undecoded items)

/-- A turn of the loop on the undecoded bytes keeps the invariant, returning or not. -/
lemma readInv_afterRead {items : List (MuxEvent × ℕ)} {r : Reader} {p : Reader × ReadStatus}
    (tag : r.cipherCtx.cipherTagLen ≤ 16) (events : items.map (·.1) = s.events)
    (bound : (items.map (·.2)).sum ≤ s.received.length)
    (decoded : (decoder A pb).decodeAll ctx₀ s.received =
      ((decoder A pb).decodeAll r.cipherCtx (s.undecoded items)).after items)
    (hturn : TurnSpec A pb r (s.undecoded items) p) :
    ∃ items', ReadInv A pb ctx₀ (s.afterRead p) items' := by
  cases hturn with
  | more r' current next ctx front short =>
      refine ⟨items, ?_, events, bound, ?_, ?_, front, ?_⟩
      · rw [← ctx] at tag; exact tag
      · rw [← ctx] at decoded; exact decoded
      · rw [← ctx] at next; exact next
      · have hsize : kEventHeadSize + (kMaxChunkSize + 128) + 2 * 16 < readBufferSize := by decide
        omega
  | fail r' rc event next ctx nonzero =>
      simp only [afterRead, if_neg nonzero]
      refine ⟨items, ?_, events, bound, ?_, ?_⟩
      · rw [← ctx] at tag; exact tag
      · rw [← ctx] at decoded; exact decoded
      · rw [← ctx] at next; exact next
  | item r' event n next ctx readable =>
      have hlen : (s.afterRead (r', .returned 0 (some event))).undecoded (items ++ [(event, n)]) =
          (s.undecoded items).drop n := by
        simp only [afterRead, if_true, undecoded, List.map_append, List.sum_append,
          List.drop_drop, List.map_cons, List.map_nil, List.sum_singleton]
      obtain ⟨-, hn⟩ := (decoder A pb).item_bounds next
      refine ⟨items ++ [(event, n)], ?_, ?_, ?_, ?_, ?_⟩
      · simp only [afterRead, if_true, ctx]; exact tag
      · simp [afterRead, events]
      · rw [undecoded, List.length_drop] at hn
        simp only [afterRead, if_true, List.map_append, List.sum_append, List.map_cons,
          List.map_nil, List.sum_singleton]
        omega
      · rw [hlen]
        show (decoder A pb).decodeAll ctx₀ s.received =
          ((decoder A pb).decodeAll r'.cipherCtx _).after _
        rw [decoded, (decoder A pb).decodeAll_of_item next, Decoded.after_after]
      · rw [hlen]
        exact readable

/-- New bytes behind a rest that needs more are decoded together with it. -/
lemma decodeAll_received {d : Decoder CipherContext UInt8 MuxEvent Int} {ctx : CipherContext}
    {received pend : Bytes} {items : List (MuxEvent × ℕ)}
    (decoded : d.decodeAll ctx₀ received = (d.decodeAll ctx pend).after items)
    (hmore : d.next ctx pend = .more) (bs : Bytes) :
    d.decodeAll ctx₀ (received ++ bs) = (d.decodeAll ctx (pend ++ bs)).after items := by
  rw [d.decodeAll_of_more hmore] at decoded
  rw [d.decodeAll_append ctx₀ received bs (by rw [decoded]; rfl), decoded]
  simp [Decoded.after]

lemma step_readInv {items : List (MuxEvent × ℕ)} {a : ReaderAction}
    (hinv : ReadInv A pb ctx₀ s items) (h : step A pb s a = some s') :
    ∃ items', ReadInv A pb ctx₀ s' items' := by
  obtain ⟨tag, events, bound, decoded, hphase⟩ := hinv
  cases a with
  | readEvent =>
      simp only [step] at h
      split at h
      · next hp =>
          obtain rfl := Option.some.inj h
          rw [PhaseInv, hp] at hphase
          refine readInv_afterRead tag events bound decoded ?_
          rw [← hphase]
          exact readEventTurn_spec A pb s.reader s.reader.readableData
      · cases h
  | data bs =>
      simp only [step] at h
      split at h
      · next current hp =>
          rw [PhaseInv, hp] at hphase
          obtain ⟨hmore, hfront, -⟩ := hphase
          split at h
          · next hbs =>
              obtain rfl := Option.some.inj h
              have hpend : ReaderState.undecoded { s with received := s.received ++ bs } items =
                  s.undecoded items ++ bs := List.drop_append_of_le_length bound
              refine readInv_afterRead (r := { s.reader with
                readBuffer := s.reader.readBuffer.store current.len bs hbs.2 }) tag events ?_ ?_ ?_
              · rw [List.length_append]
                omega
              · rw [hpend]
                exact decodeAll_received decoded hmore bs
              · have hslice := @ReadBuffer.slice_store s.reader.readBuffer current.len bs hbs.2
                  (by omega)
                rw [hpend, ← hfront, ← hslice]
                exact readEventTurn_spec A pb _ _
          · cases h
      · cases h
  | error rc =>
      simp only [step] at h
      split at h
      · split at h
        · cases h
        · obtain rfl := Option.some.inj h
          exact ⟨items, tag, events, bound, decoded, trivial⟩
      · cases h

lemma run_readInv {as : List ReaderAction} (htag : ctx₀.cipherTagLen ≤ 16)
    (h : exec (step A pb) (init ctx₀) as = some s) : ∃ items, ReadInv A pb ctx₀ s items := by
  refine exec_invariant (I := fun s => ∃ items, ReadInv A pb ctx₀ s items) ?_ ?_ h
  · rintro s a s' ⟨items, hinv⟩ hstep
    exact step_readInv hinv hstep
  · exact ⟨[], htag, rfl, Nat.zero_le _, rfl, rfl⟩

/-- **`ReadEvent` returns what `Decrypt` finds in the whole stream.**  For a context made by
`New` and any way of delivering a byte stream in non-empty pieces:

* the events returned so far are the first ones `Decrypt` finds in the stream, whatever follows;
* between two calls, `readable_data_` is exactly the received and undecoded part;
* in `AsyncRead`, all that can be decoded has been returned, the undecoded part stands at the
  front of `read_buffer_`, and the space offered behind it is not empty;
* after a decoding error, that error is the one `Decrypt` meets in the stream. -/
theorem readEvent_refines_decrypt (A : Aead) (pb : Nanopb) (method : String) (key : Bytes)
    (ctx₀ : CipherContext) (hnew : ctx₀.FromNew method key) (as : List ReaderAction)
    (s : ReaderState) (h : exec (step A pb) (init ctx₀) as = some s) :
    (∀ rest, s.events <+:
        ((decoder A pb).decodeAll ctx₀ (s.received ++ rest)).items.map (·.1)) ∧
      ∃ items, items.map (·.1) = s.events ∧
        match s.phase with
        | .idle =>
            s.reader.readBuffer.slice s.reader.readableData = s.undecoded items ∧
              (decoder A pb).decodeAll ctx₀ s.received =
                ((decoder A pb).decodeAll s.reader.cipherCtx (s.undecoded items)).after items
        | .reading current =>
            (decoder A pb).decodeAll ctx₀ s.received =
                ⟨items, none, s.undecoded items, s.reader.cipherCtx⟩ ∧
              s.reader.readBuffer.bytes.take current.len = s.undecoded items ∧
              current.len < readBufferSize
        | .failed rc =>
            (decoder A pb).decodeAll ctx₀ s.received =
              ⟨items, some rc, s.undecoded items, s.reader.cipherCtx⟩
        | .disconnected _ => True := by
  obtain ⟨items, -, events, -, decoded, hphase⟩ := run_readInv hnew.tagLen_le h
  constructor
  · intro rest
    rw [← events]
    have hpre := (decoder A pb).decodeAll_prefix_items ctx₀ s.received rest
    rw [decoded] at hpre
    exact ((List.prefix_append _ _).trans hpre).map _
  · refine ⟨items, events, ?_⟩
    rw [PhaseInv] at hphase
    split
    · next hp =>
        rw [hp] at hphase
        exact ⟨hphase, decoded⟩
    · next current hp =>
        rw [hp] at hphase
        obtain ⟨hmore, hfront, hroom⟩ := hphase
        refine ⟨?_, hfront, hroom⟩
        rw [decoded, (decoder A pb).decodeAll_of_more hmore, Decoded.after, List.append_nil]
    · next rc hp =>
        rw [hp] at hphase
        rw [decoded, (decoder A pb).decodeAll_of_fail hphase, Decoded.after, List.append_nil]
    · trivial

/-- A stream close request, cut inside its head. -/
theorem readEvent_refines_decrypt_cut_head :
    ∃ ctx s, CipherContext.new "none" [] = some ctx ∧
      exec (step chacha20Poly1305 protobuf) (init ctx)
        [.readEvent, .data [0, 0, 0], .data [7, 0, 0, 4, 0]] = some s ∧
      s.events.length = 1 ∧
      ∀ rest, s.events <+:
        ((decoder chacha20Poly1305 protobuf).decodeAll ctx (s.received ++ rest)).items.map
          (·.1) := by
  refine ⟨_, _, rfl, rfl, rfl, ?_⟩
  exact (readEvent_refines_decrypt chacha20Poly1305 protobuf "none" [] _ ⟨_, rfl, rfl⟩
    [.readEvent, .data [0, 0, 0], .data [7, 0, 0, 4, 0]] _ rfl).1

end ReaderState

end Snova
