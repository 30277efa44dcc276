import Snova.Model.Auth
import Snova.Properties.CipherRoundTrip
import Snova.Properties.ReadEvent

/-!
# Frames on their way

Between the `Encrypt` of a frame and the `Decrypt` that reads it, its bytes are spread over the
sender's write buffer, the transport and the receiver's read buffer.  `Flow` says which frames
these bytes are, and has one lemma for each thing that can happen to them: a frame is written, a
piece of it is transmitted or delivered, its `AsyncWrite` fails, and the receiver takes a turn of
its read loop (`turn_flow`).

`InOrder` is the same at the level of events, once the connection is authenticated: what the
receiver has read is what the sender wrote first, and the rest is on its way, numbered with the
counter values both ends will use for it.
-/

namespace Snova

open CipherContext (Keyed sealedFrame frameSeals decoder)

variable {A : Aead} {pb : Nanopb} {key : Bytes}

/-! ## Numbered events -/

/-- Events with the counter values they are sealed with. -/
def number (iv : UInt64) : List MuxEvent → List (UInt64 × MuxEvent)
  | [] => []
  | ev :: evs => (iv, ev) :: number (iv + 1) evs

lemma add_ofNat_succ (iv : UInt64) (n : ℕ) :
    iv + UInt64.ofNat (n + 1) = iv + 1 + UInt64.ofNat n := by
  rw [UInt64.ofNat_add, UInt64.add_comm (UInt64.ofNat n), ← UInt64.add_assoc]
  rfl

lemma length_number (iv : UInt64) (evs : List MuxEvent) : (number iv evs).length = evs.length := by
  induction evs generalizing iv with
  | nil => rfl
  | cons e evs ih => rw [number, List.length_cons, List.length_cons, ih]

lemma number_concat (iv : UInt64) (evs : List MuxEvent) (ev : MuxEvent) :
    number iv (evs ++ [ev]) = number iv evs ++ [(iv + UInt64.ofNat evs.length, ev)] := by
  induction evs generalizing iv with
  | nil => simp [number]
  | cons e evs ih =>
      rw [List.cons_append, number, number, ih, List.length_cons, add_ofNat_succ, List.cons_append]

lemma mem_number {iv : UInt64} {evs : List MuxEvent} {x : UInt64 × MuxEvent}
    (h : x ∈ number iv evs) : ∃ k, k < evs.length ∧ x.1 = iv + UInt64.ofNat k ∧ x.2 ∈ evs := by
  induction evs generalizing iv with
  | nil => cases h
  | cons e evs ih =>
      rcases List.mem_cons.mp h with rfl | hx
      · exact ⟨0, by simp, by simp, List.mem_cons_self⟩
      · obtain ⟨k, hk, hiv, hmem⟩ := ih hx
        refine ⟨k + 1, by simpa using hk, ?_, List.mem_cons_of_mem e hmem⟩
        rw [hiv, add_ofNat_succ]

/-- The bytes of numbered events. -/
def bytesOf (A : Aead) (pb : Nanopb) (key : Bytes) (q : List (UInt64 × MuxEvent)) : Bytes :=
  q.flatMap fun x => sealedFrame A pb key x.1 x.2

lemma bytesOf_concat (q : List (UInt64 × MuxEvent)) (x : UInt64 × MuxEvent) :
    bytesOf A pb key (q ++ [x]) = bytesOf A pb key q ++ sealedFrame A pb key x.1 x.2 := by
  simp [bytesOf]

/-! ## Bytes of one direction -/

/-- The bytes an end has transmitted or will, unless an `AsyncWrite` failed: then those behind its
`link` are lost. -/
def Stream (e : Endpoint) (bytes : Bytes) : Prop :=
  ∃ rest, e.link ++ rest = bytes ∧ (e.sendFailed = false → rest = e.unsent)

namespace Stream

variable {e e' : Endpoint} {bytes : Bytes}

/-- Only the link and the pending `AsyncWrite` matter. -/
lemma congr (h : Stream e bytes) (hlink : e'.link = e.link)
    (hfailed : e'.sendFailed = e.sendFailed) (hunsent : e'.unsent = e.unsent) :
    Stream e' bytes := by
  obtain ⟨rest, hbytes, hrest⟩ := h
  refine ⟨rest, by rw [hlink]; exact hbytes, fun hok => ?_⟩
  rw [hunsent]
  exact hrest (hfailed ▸ hok)

/-- A failed `AsyncWrite` loses what it had left. -/
lemma fail (h : Stream e bytes) (hlink : e'.link = e.link) (hfailed : e'.sendFailed = true) :
    Stream e' bytes := by
  obtain ⟨rest, hbytes, -⟩ := h
  refine ⟨rest, by rw [hlink]; exact hbytes, fun hok => ?_⟩
  rw [hfailed] at hok
  cases hok

/-- A frame is handed to the transport. -/
lemma write (h : Stream e bytes) (hidle : e.sending = none) {frame : Bytes}
    (hlink : e'.link = e.link) (hfailed : e'.sendFailed = e.sendFailed)
    (hsending : e'.sending = some (frame, 0)) : Stream e' (bytes ++ frame) := by
  obtain ⟨rest, hbytes, hrest⟩ := h
  refine ⟨rest ++ frame, ?_, fun hok => ?_⟩
  · rw [← hbytes, hlink, List.append_assoc]
  · rw [hrest (hfailed ▸ hok)]
    simp [Endpoint.unsent, hidle, hsending]

/-- The transport takes a piece. -/
lemma transmit (h : Stream e bytes) {frame : Bytes} {sent n : ℕ}
    (hsending : e.sending = some (frame, sent)) (hok : e.sendFailed = false) :
    Stream { e with link := e.link ++ (frame.drop sent).take n
                    sending := some (frame, sent + n) } bytes := by
  obtain ⟨rest, hbytes, hrest⟩ := h
  have hunsent : rest = frame.drop sent := by rw [hrest hok, Endpoint.unsent, hsending]
  refine ⟨frame.drop (sent + n), ?_, fun _ => rfl⟩
  rw [← hbytes, hunsent, List.append_assoc, ← List.drop_drop, List.take_append_drop]

/-- The transport delivers a piece. -/
lemma deliver (h : Stream e bytes) (n : ℕ) :
    ∃ bytes', bytes = e.link.take n ++ bytes' ∧ Stream { e with link := e.link.drop n } bytes' := by
  obtain ⟨rest, hbytes, hrest⟩ := h
  refine ⟨e.link.drop n ++ rest, ?_, rest, rfl, hrest⟩
  rw [← hbytes, ← List.append_assoc, List.take_append_drop]

end Stream

/-- The frames `q` are on their way from `e` to a reader whose buffer holds `pend`. -/
structure Flow (A : Aead) (pb : Nanopb) (key : Bytes) (e : Endpoint) (pend : Bytes)
    (q : List (UInt64 × MuxEvent)) : Prop where
  small : ∀ x ∈ q, (x.2.body.encoded pb).length ≤ kMaxChunkSize
  bytes : ∃ bytes, Stream e bytes ∧ pend ++ bytes = bytesOf A pb key q

namespace Flow

variable {e e' : Endpoint} {pend : Bytes} {q : List (UInt64 × MuxEvent)}

lemma congr (h : Flow A pb key e pend q) (hlink : e'.link = e.link)
    (hfailed : e'.sendFailed = e.sendFailed) (hunsent : e'.unsent = e.unsent) :
    Flow A pb key e' pend q := by
  obtain ⟨bytes, hstream, hq⟩ := h.bytes
  exact ⟨h.small, bytes, hstream.congr hlink hfailed hunsent, hq⟩

lemma fail (h : Flow A pb key e pend q) (hlink : e'.link = e.link)
    (hfailed : e'.sendFailed = true) : Flow A pb key e' pend q := by
  obtain ⟨bytes, hstream, hq⟩ := h.bytes
  exact ⟨h.small, bytes, hstream.fail hlink hfailed, hq⟩

lemma write (h : Flow A pb key e pend q) (hidle : e.sending = none) {x : UInt64 × MuxEvent}
    (hsmall : (x.2.body.encoded pb).length ≤ kMaxChunkSize) (hlink : e'.link = e.link)
    (hfailed : e'.sendFailed = e.sendFailed)
    (hsending : e'.sending = some (sealedFrame A pb key x.1 x.2, 0)) :
    Flow A pb key e' pend (q ++ [x]) := by
  obtain ⟨bytes, hstream, hq⟩ := h.bytes
  refine ⟨?_, _, hstream.write hidle hlink hfailed hsending, ?_⟩
  · intro y hy
    rcases List.mem_append.mp hy with hy | hy
    · exact h.small y hy
    · rw [List.mem_singleton.mp hy]
      exact hsmall
  · rw [bytesOf_concat, ← hq, List.append_assoc]

lemma transmit (h : Flow A pb key e pend q) {frame : Bytes} {sent n : ℕ}
    (hsending : e.sending = some (frame, sent)) (hok : e.sendFailed = false) :
    Flow A pb key { e with link := e.link ++ (frame.drop sent).take n
                           sending := some (frame, sent + n) } pend q := by
  obtain ⟨bytes, hstream, hq⟩ := h.bytes
  exact ⟨h.small, bytes, hstream.transmit hsending hok, hq⟩

lemma deliver (h : Flow A pb key e pend q) (n : ℕ) :
    Flow A pb key { e with link := e.link.drop n } (pend ++ e.link.take n) q := by
  obtain ⟨bytes, hstream, hq⟩ := h.bytes
  obtain ⟨bytes', rfl, hstream'⟩ := hstream.deliver n
  exact ⟨h.small, bytes', hstream', by rw [List.append_assoc]; exact hq⟩

/-- Nothing is on its way. -/
lemma nil (h : Flow A pb key e pend []) : pend = [] := by
  obtain ⟨bytes, -, hq⟩ := h.bytes
  exact (List.append_eq_nil_iff.mp hq).1

/-- When all bytes have arrived, a reader that needs more has read everything. -/
lemma eq_nil_of_more {ctx : CipherContext} (hk : ctx.Keyed key) (h : Flow A pb key e pend q)
    (hiv : ∀ x ∈ q.head?, x.1 = ctx.decryptIv) (hlink : e.link = []) (hunsent : e.unsent = [])
    (hok : e.sendFailed = false) (hmore : (decoder A pb).next ctx pend = .more) : q = [] := by
  obtain ⟨bytes, ⟨rest, hbytes, hrest⟩, hq⟩ := h.bytes
  rw [← hbytes, hlink, hrest hok, hunsent, List.append_nil, List.append_nil] at hq
  cases q with
  | nil => rfl
  | cons x q =>
      obtain ⟨ev', -, hnext⟩ := hk.next_sealedFrame A (hiv x rfl).symm
        (h.small x List.mem_cons_self)
      have hframe : pend = sealedFrame A pb key x.1 x.2 ++ bytesOf A pb key q := by
        rw [hq]
        simp [bytesOf]
      rw [hframe, hnext] at hmore
      cases hmore

end Flow

/-- A decoder at the right counter value finds the first frame in the buffer, or needs more. -/
lemma next_of_frame {ctx : CipherContext} {ev : MuxEvent} {pend bytes tail : Bytes}
    (hk : ctx.Keyed key) (hfits : (ev.body.encoded pb).length ≤ kMaxChunkSize)
    (h : pend ++ bytes = sealedFrame A pb key ctx.decryptIv ev ++ tail) :
    (decoder A pb).next ctx pend = .more ∨
      ∃ ev' n, ev'.Same ev ∧
        (decoder A pb).next ctx pend = .item ev' n
          { ctx with decryptIv := ctx.decryptIv + 1 } ∧
        pend.drop n ++ bytes = tail := by
  obtain ⟨ev', hsame, hnext⟩ := hk.next_sealedFrame A rfl hfits
  by_cases hmore : (decoder A pb).next ctx pend = .more
  · exact .inl hmore
  · -- A verdict other than "more" is the one on the whole of what will arrive.
    have hitem : (decoder A pb).next ctx pend =
        .item ev' (sealedFrame A pb key ctx.decryptIv ev).length
          { ctx with decryptIv := ctx.decryptIv + 1 } := by
      rw [← (decoder A pb).next_append hmore bytes, h, hnext]
    obtain ⟨-, hle⟩ := (decoder A pb).item_bounds hitem
    refine .inr ⟨ev', _, hsame, hitem, ?_⟩
    have hdrop := congrArg (List.drop (sealedFrame A pb key ctx.decryptIv ev).length) h
    rwa [List.drop_append_of_le_length hle, List.drop_left] at hdrop

lemma Flow.next {e : Endpoint} {pend : Bytes} {q : List (UInt64 × MuxEvent)} {ctx : CipherContext}
    {ev : MuxEvent} (hk : ctx.Keyed key)
    (h : Flow A pb key e pend ((ctx.decryptIv, ev) :: q)) :
    (decoder A pb).next ctx pend = .more ∨
      ∃ ev' n, ev'.Same ev ∧
        (decoder A pb).next ctx pend = .item ev' n
          { ctx with decryptIv := ctx.decryptIv + 1 } ∧
        Flow A pb key e (pend.drop n) q := by
  obtain ⟨bytes, hstream, hq⟩ := h.bytes
  have hflat : bytesOf A pb key ((ctx.decryptIv, ev) :: q) =
      sealedFrame A pb key ctx.decryptIv ev ++ bytesOf A pb key q := by simp [bytesOf]
  rw [hflat] at hq
  refine (next_of_frame hk (h.small _ List.mem_cons_self) hq).imp_right ?_
  rintro ⟨ev', n, hsame, hitem, hrest⟩
  exact ⟨ev', n, hsame, hitem, fun x hx => h.small x (List.mem_cons_of_mem _ hx), bytes, hstream,
    hrest⟩

/-! ## A turn of the reader -/

/-- The outcomes of a turn of `ReadEvent` on a buffer that holds `pend` when the frames `q` are
on their way from `e`. -/
inductive TurnFlow (A : Aead) (pb : Nanopb) (key : Bytes) (r : Reader) (e : Endpoint)
    (pend : Bytes) : List (UInt64 × MuxEvent) → Reader × ReadStatus → Prop
  | waits {q : List (UInt64 × MuxEvent)} (r' : Reader) (current : Span)
      (ctx : r'.cipherCtx = r.cipherCtx)
      (front : r'.readBuffer.bytes.take current.len = pend)
      (more : (decoder A pb).next r.cipherCtx pend = .more) :
      TurnFlow A pb key r e pend q (r', .reading current)
  | reads {iv : UInt64} {ev : MuxEvent} {q : List (UInt64 × MuxEvent)} (r' : Reader)
      (ev' : MuxEvent) (pend' : Bytes) (same : ev'.Same ev)
      (ctx : r'.cipherCtx = { r.cipherCtx with decryptIv := r.cipherCtx.decryptIv + 1 })
      (readable : r'.readBuffer.slice r'.readableData = pend')
      (flow : Flow A pb key e pend' q) :
      TurnFlow A pb key r e pend ((iv, ev) :: q) (r', .returned 0 (some ev'))

lemma turn_flow {r : Reader} {e : Endpoint} {pend : Bytes} {q : List (UInt64 × MuxEvent)}
    {p : Reader × ReadStatus} (hk : r.cipherCtx.Keyed key) (hflow : Flow A pb key e pend q)
    (hiv : ∀ x ∈ q.head?, x.1 = r.cipherCtx.decryptIv) (hturn : TurnSpec A pb r pend p) :
    TurnFlow A pb key r e pend q p := by
  -- With nothing on its way the buffer is empty.
  cases q with
  | nil =>
      obtain rfl := hflow.nil
      have hnil : (decoder A pb).next r.cipherCtx [] = .more := CipherContext.next_nil _
      cases hturn with
      | more r' current next ctx front short => exact .waits r' current ctx front next
      | fail r' rc event next ctx nonzero => rw [hnil] at next; cases next
      | item r' event n next ctx readable => rw [hnil] at next; cases next
  | cons x q =>
      obtain ⟨iv, ev⟩ := x
      obtain rfl : iv = r.cipherCtx.decryptIv := hiv (iv, ev) rfl
      rcases hflow.next hk with hmore | ⟨ev', n, hsame, hitem, hflow'⟩
      · cases hturn with
        | more r' current next ctx front short => exact .waits r' current ctx front next
        | fail r' rc event next ctx nonzero => rw [hmore] at next; cases next
        | item r' event n next ctx readable => rw [hmore] at next; cases next
      · cases hturn with
        | more r' current next ctx front short => rw [hitem] at next; cases next
        | fail r' rc event next ctx nonzero => rw [hitem] at next; cases next
        | item r' event m next ctx readable =>
            rw [hitem] at next
            obtain ⟨rfl, rfl, -⟩ := Outcome.item.inj next
            exact .reads r' _ _ hsame ctx readable hflow'

/-! ## Events in order -/

/-- What `e'` has read is what `e` wrote first, and `q` is the rest. -/
structure InOrder (iv : UInt64) (e e' : Endpoint) (q : List (UInt64 × MuxEvent)) : Prop where
  same : List.Forall₂ MuxEvent.Same e'.events (e.written.take e'.events.length)
  rest : q = number (iv + UInt64.ofNat e'.events.length) (e.written.drop e'.events.length)

namespace InOrder

variable {iv : UInt64} {e e' e₁ : Endpoint} {q : List (UInt64 × MuxEvent)}

lemma length_le (h : InOrder iv e e' q) : e'.events.length ≤ e.written.length := by
  have hlen := h.same.length_eq
  rw [List.length_take] at hlen
  omega

lemma congr_writer (h : InOrder iv e e' q) (hwritten : e₁.written = e.written) :
    InOrder iv e₁ e' q := by
  obtain ⟨same, rest⟩ := h
  rw [← hwritten] at same rest
  exact ⟨same, rest⟩

lemma congr_reader (h : InOrder iv e e' q) (hevents : e₁.events = e'.events) :
    InOrder iv e e₁ q := by
  obtain ⟨same, rest⟩ := h
  rw [← hevents] at same rest
  exact ⟨same, rest⟩

/-- Nothing written, nothing read. -/
lemma start (iv : UInt64) (hwritten : e.written = []) (hevents : e'.events = []) :
    InOrder iv e e' [] := by
  refine ⟨?_, ?_⟩
  · rw [hevents]; exact .nil
  · rw [hwritten, hevents]; rfl

/-- An event is written. -/
lemma write (h : InOrder iv e e' q) {ev : MuxEvent} (hwritten : e₁.written = e.written ++ [ev]) :
    InOrder iv e₁ e' (q ++ [(iv + UInt64.ofNat e.written.length, ev)]) := by
  have hle := h.length_le
  refine ⟨?_, ?_⟩
  · rw [hwritten, List.take_append_of_le_length hle]
    exact h.same
  · rw [hwritten, List.drop_append_of_le_length hle, number_concat, ← h.rest, List.length_drop,
      UInt64.add_assoc, ← UInt64.ofNat_add, Nat.add_sub_cancel' hle]

/-- The next event is read. -/
lemma read {x : UInt64 × MuxEvent} (h : InOrder iv e e' (x :: q)) {ev' : MuxEvent}
    (hsame : ev'.Same x.2) (hevents : e₁.events = e'.events ++ [ev']) :
    InOrder iv e e₁ q := by
  have hrest := h.rest
  cases hdrop : e.written.drop e'.events.length with
  | nil => rw [hdrop] at hrest; cases hrest
  | cons ev evs =>
      rw [hdrop] at hrest
      obtain ⟨rfl, rfl⟩ := List.cons.inj hrest
      have hget : e.written[e'.events.length]? = some ev := by
        rw [← List.head?_drop, hdrop]; rfl
      have hlen : e₁.events.length = e'.events.length + 1 := by
        rw [hevents, List.length_append, List.length_singleton]
      refine ⟨?_, ?_⟩
      · rw [hlen, List.take_add_one, hget, hevents]
        exact List.rel_append h.same (.cons hsame .nil)
      · rw [hlen, ← List.drop_drop, hdrop, List.drop_one, List.tail_cons, add_ofNat_succ,
          UInt64.add_assoc iv 1, UInt64.add_comm 1, ← UInt64.add_assoc]

/-- The counter value of the next frame. -/
lemma head_iv {x : UInt64 × MuxEvent} (h : InOrder iv e e' (x :: q)) :
    x.1 = iv + UInt64.ofNat e'.events.length := by
  have hrest := h.rest
  cases hdrop : e.written.drop e'.events.length with
  | nil => rw [hdrop] at hrest; cases hrest
  | cons ev evs =>
      rw [hdrop] at hrest
      rw [(List.cons.inj hrest).1]

/-- When nothing is on its way, everything has been read. -/
lemma length_eq (h : InOrder iv e e' []) : e'.events.length = e.written.length := by
  have hle := h.length_le
  have hrest := h.rest
  cases hdrop : e.written.drop e'.events.length with
  | nil =>
      have hge := List.drop_eq_nil_iff.mp hdrop
      omega
  | cons ev evs => rw [hdrop] at hrest; cases hrest

end InOrder

end Snova
