import Snova.Model.Nanopb
import Snova.Properties.Endpoint

/-!
# The two ends of a connection agree

`ClientAuth` and `ServerAuth` change the counters of the two ends at different moments: the server
after its `AsyncWrite`, the client after its `AsyncRead`, and nothing says which comes first.
As long as the client has not failed, either the server has not answered yet (`Asking`), or it
has, with an iv that both ends then count from (`Answered`).  `Linked` adds the bytes: which
frames are on their way in each direction.
-/

namespace Snova

open CipherContext (Keyed decoder defaultIv)

variable {A : Aead} {pb : Nanopb} {key : Bytes}

/-- Every message fits a chunk (`snova_AuthRequest_size` and so on, the largest of them 528). -/
def Nanopb.Bounded (pb : Nanopb) : Prop :=
  ∀ k m, (pb.encodeDelimited k m).length ≤ kMaxChunkSize

namespace CipherContext

/-- `Decrypt` does not look at the sending counter. -/
lemma decrypt_encryptIv (ctx : CipherContext) (iv : UInt64) (bs : Bytes) :
    decrypt A pb { ctx with encryptIv := iv } bs =
      { ctx.decrypt A pb bs with ctx := { (ctx.decrypt A pb bs).ctx with encryptIv := iv } } := by
  unfold decrypt
  split
  · rfl
  · have hhead : decryptHead A { ctx with encryptIv := iv } bs = ctx.decryptHead A bs := rfl
    rw [hhead]
    cases ctx.decryptHead A bs with
    | error rc => rfl
    | ok head =>
        simp only
        split
        · rfl
        · have hlen : expectedLen { ctx with encryptIv := iv } head = ctx.expectedLen head := rfl
          rw [hlen]
          split
          · rfl
          · unfold decryptFrame
            cases MuxEvent.newEvent head with
            | none => rfl
            | some ev =>
                simp only
                split
                · rfl
                · have hbody : decryptBody A { ctx with encryptIv := iv } head bs =
                      ctx.decryptBody A head bs := rfl
                  rw [hbody]
                  cases ctx.decryptBody A head bs with
                  | error rc => rfl
                  | ok p =>
                      obtain ⟨body, n⟩ := p
                      simp only
                      cases ev.decode pb body with
                      | error rc => rfl
                      | ok ev' => rfl

lemma next_more_encryptIv {ctx : CipherContext} {bs : Bytes} (iv : UInt64)
    (h : (decoder A pb).next ctx bs = .more) :
    (decoder A pb).next { ctx with encryptIv := iv } bs = .more := by
  have hnext : (decrypt A pb ctx bs).outcome = .more := h
  show (decrypt A pb { ctx with encryptIv := iv } bs).outcome = .more
  rw [decrypt_encryptIv]
  unfold DecryptResult.outcome at hnext ⊢
  split at hnext
  · next hrc => exact if_pos hrc
  · split at hnext
    · split at hnext <;> cases hnext
    · cases hnext

end CipherContext

namespace Endpoint

variable {e e' : Endpoint}

/-- The undecoded bytes in the read buffer of an end that will read again. -/
def Holds (A : Aead) (pb : Nanopb) (e : Endpoint) (pend : Bytes) : Prop :=
  match e.phase with
  | .readingResponse _ current => e.reader.readBuffer.bytes.take current.len = pend
  | .readingRequest _ current => e.reader.readBuffer.bytes.take current.len = pend
  | .ready (.reading current) =>
      e.reader.readBuffer.bytes.take current.len = pend ∧
        (decoder A pb).next e.reader.cipherCtx pend = .more
  | .ready (.failed _) => True
  | .ready (.disconnected _) => True
  | .failed => True
  | _ => e.reader.readBuffer.slice e.reader.readableData = pend

/-- An authenticated end whose read loop has met no decoding error and opens the next frame with
the right counter. -/
def Reads (iv : UInt64) (e : Endpoint) : Prop :=
  ∃ ph, e.phase = .ready ph ∧ (∀ rc, ph ≠ .failed rc) ∧
    e.reader.cipherCtx.decryptIv = iv + UInt64.ofNat e.events.length

/-- A turn of the read loop takes the next event off the stream, or waits. -/
lemma loopRead {iv : UInt64} {p : Reader × ReadStatus} {pend : Bytes}
    {q : List (UInt64 × MuxEvent)} {r : Reader} (hk : e.reader.cipherCtx.Keyed key)
    (hreads : e.Reads iv) (hflow : Flow A pb key e' pend q) (horder : InOrder iv e' e q)
    (hr : r.cipherCtx = e.reader.cipherCtx) (hturn : TurnSpec A pb r pend p) :
    ∃ q' pend', (e.afterLoopRead p).Holds A pb pend' ∧ Flow A pb key e' pend' q' ∧
      InOrder iv e' (e.afterLoopRead p) q' ∧ (e.afterLoopRead p).Reads iv := by
  obtain ⟨ph, hphase, hgood, hiv⟩ := hreads
  have hhead : ∀ x ∈ q.head?, x.1 = r.cipherCtx.decryptIv := by
    intro x hx
    cases q with
    | nil => cases hx
    | cons y q =>
        obtain rfl := Option.some.inj hx
        rw [horder.head_iv, hr, hiv]
  have hturn' := turn_flow (by rw [hr]; exact hk) hflow hhead hturn
  cases hturn' with
  | waits r' current ctx front more =>
      refine ⟨q, pend, ⟨front, ?_⟩, hflow, horder.congr_reader rfl, _, rfl, by simp, ?_⟩
      · rw [← ctx] at more
        exact more
      · show r'.cipherCtx.decryptIv = iv + UInt64.ofNat e.events.length
        rw [ctx, hr]
        exact hiv
  | reads r' ev' pend' same ctx readable flow =>
      refine ⟨_, _, readable, flow, horder.read same rfl, _, rfl, by simp, ?_⟩
      show r'.cipherCtx.decryptIv = iv + UInt64.ofNat (e.events ++ [ev']).length
      rw [ctx, hr, List.length_append, List.length_singleton, add_ofNat_succ,
        UInt64.add_assoc iv 1, UInt64.add_comm 1, ← UInt64.add_assoc, ← hiv]

/-- A call of `Write` puts at most one frame on its way, sealed with the next counter value. -/
lemma write_flow {iv : UInt64} (h : e.Counting pb key iv) (hidle : e.sending = none)
    {ev : MuxEvent} (hfits : (ev.body.encoded pb).length ≤ kMaxChunkSize) :
    ∃ add, (∀ pend q, Flow A pb key e pend q → Flow A pb key (e.write A pb ev) pend (q ++ add)) ∧
      ∀ e' q, InOrder iv e e' q → InOrder iv (e.write A pb ev) e' (q ++ add) := by
  have hspec := startWrite_spec A pb h.keyed ev
  unfold Endpoint.write
  generalize e.startWrite A pb ev = w at hspec
  cases hspec with
  | fail rc seals nonzero =>
      refine ⟨[], fun pend q hflow => ?_, fun e' q horder => ?_⟩
      · rw [List.append_nil]
        exact hflow.congr rfl rfl rfl
      · rw [List.append_nil]
        exact horder.congr_writer rfl
  | ok =>
      refine ⟨[(iv + UInt64.ofNat e.written.length, ev)], fun pend q hflow => ?_,
        fun e' q horder => horder.write rfl⟩
      rw [← h.encryptIv]
      generalize e.reader.cipherCtx.encryptIv + 1 = iv'
      exact hflow.write hidle hfits rfl rfl rfl

/-- A call of `Write` does not disturb the reading side. -/
lemma write_keeps (hk : e.reader.cipherCtx.Keyed key) (ev : MuxEvent) :
    (e.write A pb ev).events = e.events ∧ (∀ iv, e.Reads iv → (e.write A pb ev).Reads iv) ∧
      ∀ pend, e.Holds A pb pend → (e.write A pb ev).Holds A pb pend := by
  have hspec := startWrite_spec A pb hk ev
  unfold Endpoint.write
  generalize e.startWrite A pb ev = w at hspec
  cases hspec with
  | fail rc seals nonzero => exact ⟨rfl, fun _ h => h, fun _ h => h⟩
  | ok =>
      -- the value of the counter does not matter here, and must not be computed
      generalize e.reader.cipherCtx.encryptIv + 1 = iv'
      refine ⟨rfl, fun _ h => h, fun pend h => ?_⟩
      unfold Holds at h ⊢
      simp only [asyncWrite, logEncrypt, setCtx, setReader] at h ⊢
      generalize e.phase = phase at h ⊢
      split at h
      · exact h
      · exact h
      · exact ⟨h.1, CipherContext.next_more_encryptIv _ h.2⟩
      · trivial
      · trivial
      · trivial
      · exact h

end Endpoint

/-! ## The stages of a handshake -/

/-- A client that has written its request and not read the response. -/
def Endpoint.Waiting (e : Endpoint) : Prop :=
  (∃ user, e.phase = .writingRequest user) ∨ ∃ user current, e.phase = .readingResponse user current

/-- The two events of a handshake. -/
def requestEvent (request : AuthRequest) : MuxEvent := .ofBody (.proto .authRequest request)

def responseEvent (iv : UInt64) : MuxEvent :=
  .ofBody (.proto .authResponse { success := true, iv := iv })

/-- The server has not answered: at most the request is on its way. -/
structure Asking (c s : Endpoint) (qc qs : List (UInt64 × MuxEvent)) : Prop where
  client : c.phase = .start ∧ qc = [] ∨ c.Waiting
  clientIv : c.reader.cipherCtx.decryptIv = defaultIv
  request : qc = [] ∨ ∃ request, qc = [(defaultIv, requestEvent request)]
  server : s.phase = .failed ∨
    (s.phase = .start ∨ ∃ iv current, s.phase = .readingRequest iv current) ∧
    s.reader.cipherCtx.decryptIv = defaultIv
  silent : qs = []

/-- The server has answered with `iv`: it is still writing, has failed to, or counts from `iv`, and
so does the client once it has read the response. -/
structure Answered (c s : Endpoint) (iv : UInt64) (qc qs : List (UInt64 × MuxEvent)) : Prop where
  authIv : s.authIv = some iv
  server : (∃ request, s.phase = .writingResponse request iv) ∨ s.phase = .failed ∨ s.Reads iv
  up : InOrder iv c s qc
  client : (c.Waiting ∧ c.reader.cipherCtx.decryptIv = defaultIv ∧
      ∃ q, qs = (defaultIv, responseEvent iv) :: q ∧ InOrder iv s c q) ∨
    (c.authIv = some iv ∧ c.Reads iv ∧ InOrder iv s c qs)

/-- The invariant of the two ends while the client has not failed. -/
inductive Linked (A : Aead) (pb : Nanopb) (key : Bytes) (c s : Endpoint) : Prop
  | mk {qc qs : List (UInt64 × MuxEvent)} {pc ps : Bytes}
      (heldC : c.Holds A pb pc) (heldS : s.Holds A pb ps)
      (up : Flow A pb key c ps qc) (down : Flow A pb key s pc qs)
      (stage : Asking c s qc qs ∨ ∃ iv, Answered c s iv qc qs)

/-- What the stages look at. -/
structure View (e e' : Endpoint) : Prop where
  phase : e'.phase = e.phase
  decryptIv : e'.reader.cipherCtx.decryptIv = e.reader.cipherCtx.decryptIv
  authIv : e'.authIv = e.authIv
  written : e'.written = e.written
  events : e'.events = e.events

section Stages

variable {c s c' s' : Endpoint} {iv : UInt64} {qc qs : List (UInt64 × MuxEvent)}

lemma View.refl (e : Endpoint) : View e e := ⟨rfl, rfl, rfl, rfl, rfl⟩

lemma View.waiting (h : View c c') (hw : c.Waiting) : c'.Waiting := by
  unfold Endpoint.Waiting
  rw [h.phase]
  exact hw

lemma View.reads (h : View c c') (hr : c.Reads iv) : c'.Reads iv := by
  unfold Endpoint.Reads
  rw [h.phase, h.decryptIv, h.events]
  exact hr

lemma InOrder.congr {q : List (UInt64 × MuxEvent)} (h : InOrder iv c s q) (hc : View c c')
    (hs : View s s') : InOrder iv c' s' q :=
  (h.congr_writer hc.written).congr_reader hs.events

lemma Asking.congr (h : Asking c s qc qs) (hc : View c c') (hs : View s s') :
    Asking c' s' qc qs where
  client := h.client.imp (fun hstart => ⟨hc.phase.trans hstart.1, hstart.2⟩) hc.waiting
  clientIv := hc.decryptIv.trans h.clientIv
  request := h.request
  server := by
    rw [hs.phase, hs.decryptIv]
    exact h.server
  silent := h.silent

/-- The client's part, when the server changes and has written the same. -/
lemma Answered.client_of_written (h : Answered c s iv qc qs) (hwritten : s'.written = s.written) :
    (c.Waiting ∧ c.reader.cipherCtx.decryptIv = defaultIv ∧
      ∃ q, qs = (defaultIv, responseEvent iv) :: q ∧ InOrder iv s' c q) ∨
    (c.authIv = some iv ∧ c.Reads iv ∧ InOrder iv s' c qs) := by
  refine h.client.imp ?_ ?_
  · rintro ⟨hwait, hiv, q, hq, horder⟩
    exact ⟨hwait, hiv, q, hq, horder.congr_writer hwritten⟩
  · rintro ⟨hauth, hreads, horder⟩
    exact ⟨hauth, hreads, horder.congr_writer hwritten⟩

lemma Answered.congr (h : Answered c s iv qc qs) (hc : View c c') (hs : View s s') :
    Answered c' s' iv qc qs where
  authIv := hs.authIv.trans h.authIv
  server := by
    rw [hs.phase]
    exact h.server.imp_right (Or.imp_right hs.reads)
  up := h.up.congr hc hs
  client := by
    refine h.client.imp ?_ ?_
    · rintro ⟨hwait, hiv, q, hq, horder⟩
      exact ⟨hc.waiting hwait, hc.decryptIv.trans hiv, q, hq, horder.congr hs hc⟩
    · rintro ⟨hauth, hreads, horder⟩
      exact ⟨hc.authIv.trans hauth, hc.reads hreads, horder.congr hs hc⟩

lemma stage_congr (h : Asking c s qc qs ∨ ∃ iv, Answered c s iv qc qs) (hc : View c c')
    (hs : View s s') : Asking c' s' qc qs ∨ ∃ iv, Answered c' s' iv qc qs :=
  h.imp (fun h => h.congr hc hs) fun ⟨iv, h⟩ => ⟨iv, h.congr hc hs⟩

lemma Endpoint.Waiting.not_ready (h : c.Waiting) (ph : ReadPhase) : c.phase ≠ .ready ph := by
  intro hp
  rcases h with ⟨user, hw⟩ | ⟨user, current, hw⟩
  · rw [hp] at hw; cases hw
  · rw [hp] at hw; cases hw

lemma Endpoint.Reads.not_waiting (h : c.Reads iv) : ¬ c.Waiting := by
  obtain ⟨ph, hp, -⟩ := h
  exact fun hw => hw.not_ready ph hp

/-! ## The turns of the handshake -/

lemma body_of_same {ev : MuxEvent} {k : PbKind} {m : k.Message}
    (h : ev.Same (.ofBody (.proto k m))) : ev.body = .proto k m := by
  have hpayload := h.payload
  cases hbody : ev.body with
  | proto k' m' =>
      rw [hbody] at hpayload
      obtain ⟨rfl, hm⟩ := Payload.message.inj hpayload
      rw [eq_of_heq hm]
  | streamCloseRequest => rw [hbody] at hpayload; cases hpayload
  | retireConnRequest => rw [hbody] at hpayload; cases hpayload
  | streamChunk chunk chunkLen valid => rw [hbody] at hpayload; cases hpayload

/-- A turn of the `ReadEvent` of `ClientAuth`. -/
lemma client_turn {p : Reader × ReadStatus} {r : Reader} {pc ps : Bytes} (hc : c.Fresh pb key)
    (hwait : c.Waiting) (hr : r.cipherCtx = c.reader.cipherCtx) (hturn : TurnSpec A pb r pc p)
    (heldS : s.Holds A pb ps) (up : Flow A pb key c ps qc) (down : Flow A pb key s pc qs)
    (stage : Asking c s qc qs ∨ ∃ iv, Answered c s iv qc qs) (user : Bytes) :
    Linked A pb key (c.afterResponse user p) s := by
  have hk : r.cipherCtx.Keyed key := by rw [hr]; exact hc.keyed
  have hup : Flow A pb key (c.afterResponse user p) ps qc :=
    (c.afterResponse_sameOut user p).flow up
  rcases stage with hask | ⟨iv, hans⟩
  · -- Nothing is on its way to the client.
    obtain rfl := hask.silent
    cases turn_flow hk down (by simp) hturn with
    | waits r' current ctx front more =>
        refine .mk front heldS hup down (.inl ⟨.inr (.inr ⟨user, current, rfl⟩), ?_, hask.request,
          hask.server, rfl⟩)
        show r'.cipherCtx.decryptIv = defaultIv
        rw [ctx, hr]
        exact hask.clientIv
  · rcases hans.client with ⟨-, hiv, q, rfl, horder⟩ | ⟨-, hreads, -⟩
    · have hhead : ∀ x ∈ ((defaultIv, responseEvent iv) :: q).head?,
          x.1 = r.cipherCtx.decryptIv := by
        intro x hx
        obtain rfl := Option.some.inj hx
        rw [hr, hiv]
      cases turn_flow hk down hhead hturn with
      | waits r' current ctx front more =>
          refine .mk front heldS hup down (.inr ⟨iv, hans.authIv, hans.server,
            hans.up.congr_writer rfl, .inl ⟨.inr ⟨user, current, rfl⟩, ?_, q, rfl,
              horder.congr_reader rfl⟩⟩)
          show r'.cipherCtx.decryptIv = defaultIv
          rw [ctx, hr]
          exact hiv
      | reads r' ev' pend' same ctx readable flow =>
          have hbody := body_of_same same
          have haccept : c.afterResponse user (r', .returned 0 (some ev')) =
              (c.setReader r').accept user iv := by
            simp [Endpoint.afterResponse, hbody]
          rw [haccept] at hup ⊢
          refine .mk readable heldS hup flow (.inr ⟨iv, hans.authIv, hans.server,
            hans.up.congr_writer rfl, .inr ⟨rfl, ⟨.idle, rfl, by simp, ?_⟩,
              horder.congr_reader rfl⟩⟩)
          show iv = iv + UInt64.ofNat c.events.length
          rw [hc.events]
          exact (UInt64.add_zero iv).symm
    · exact absurd hwait hreads.not_waiting

/-- The server answers a request, or fails to. -/
lemma server_answers {request : AuthRequest} {iv : UInt64} {pc ps : Bytes} (hpb : pb.Bounded)
    (hs : s.Fresh pb key) (hearly : s.Early) (hc : c.Fresh pb key) (hwait : c.Waiting)
    (hiv : c.reader.cipherCtx.decryptIv = defaultIv) (heldC : c.Holds A pb pc)
    (heldS : s.reader.readBuffer.slice s.reader.readableData = ps)
    (up : Flow A pb key c ps []) (down : Flow A pb key s pc []) :
    Linked A pb key c (s.answer A pb request iv) := by
  unfold Endpoint.answer
  split
  · exact .mk heldC trivial up (down.congr rfl rfl rfl)
      (.inl ⟨.inr hwait, hiv, .inl rfl, .inl rfl, rfl⟩)
  · have hspec := Endpoint.startWrite_spec (e := s.setType (Endpoint.authType request)) A pb
      hs.keyed (responseEvent iv)
    rw [responseEvent] at hspec
    generalize Endpoint.startWrite A pb _ _ = w at hspec
    cases hspec with
    | fail rc seals nonzero =>
        exact .mk heldC trivial up (down.congr rfl rfl rfl)
          (.inl ⟨.inr hwait, hiv, .inl rfl, .inl rfl, rfl⟩)
    | ok =>
        refine .mk heldC heldS up
          (down.write (x := (s.reader.cipherCtx.encryptIv, responseEvent iv)) hearly.idle
            (hpb _ _) rfl rfl rfl)
          (.inr ⟨iv, rfl, .inl ⟨request, rfl⟩, InOrder.start iv hc.written hs.events,
            .inl ⟨hwait, hiv, [], ?_, InOrder.start iv hs.written hc.events⟩⟩)
        rw [hearly.encryptIv]
        rfl

/-- A turn of the `ReadEvent` of `ServerAuth`. -/
lemma server_turn {p : Reader × ReadStatus} {r : Reader} {iv : UInt64} {pc ps : Bytes}
    (hpb : pb.Bounded) (hs : s.Fresh pb key) (hearly : s.Early) (hc : c.Local pb key)
    (hiv : s.reader.cipherCtx.decryptIv = defaultIv) (hr : r.cipherCtx = s.reader.cipherCtx)
    (hturn : TurnSpec A pb r ps p) (heldC : c.Holds A pb pc) (up : Flow A pb key c ps qc)
    (down : Flow A pb key s pc qs) (hask : Asking c s qc qs) :
    Linked A pb key c (s.afterRequest A pb iv p) := by
  have hk : r.cipherCtx.Keyed key := by rw [hr]; exact hs.keyed
  obtain rfl := hask.silent
  have hhead : ∀ x ∈ qc.head?, x.1 = r.cipherCtx.decryptIv := by
    intro x hx
    rcases hask.request with rfl | ⟨request, rfl⟩
    · cases hx
    · obtain rfl := Option.some.inj hx
      rw [hr, hiv]
  cases turn_flow hk up hhead hturn with
  | waits r' current ctx front more =>
      refine .mk heldC front up (down.congr rfl rfl rfl) (.inl ⟨hask.client, hask.clientIv,
        hask.request, .inr ⟨.inr ⟨iv, current, rfl⟩, ?_⟩, rfl⟩)
      show r'.cipherCtx.decryptIv = defaultIv
      rw [ctx, hr]
      exact hiv
  | @reads _ ev q r' ev' pend' same ctx readable flow =>
      rcases hask.request with hnil | ⟨request, hq⟩
      · cases hnil
      · obtain ⟨hx, rfl⟩ := List.cons.inj hq
        obtain ⟨rfl, rfl⟩ := Prod.mk.inj hx
        have hwait : c.Waiting := hask.client.resolve_left fun h => by cases h.2
        have hanswer : s.afterRequest A pb iv (r', .returned 0 (some ev')) =
            (s.setReader r').answer A pb request iv := by
          simp [Endpoint.afterRequest, body_of_same same]
        have hctx : r'.cipherCtx.encryptIv = s.reader.cipherCtx.encryptIv := by rw [ctx, hr]
        rw [hanswer]
        refine server_answers hpb ⟨?_, hs.written, hs.events, hs.sealed⟩
          ⟨hctx.trans hearly.encryptIv, hearly.sealed, hearly.idle, hearly.authIv⟩
          (hc.fresh hwait.not_ready) hwait hask.clientIv heldC readable flow
          (down.congr rfl rfl rfl)
        show r'.cipherCtx.Keyed key
        rw [ctx]
        exact hk.withIvs _ _

/-! ## The turns of the read loops -/

lemma afterLoopRead_authIv (e : Endpoint) (p : Reader × ReadStatus) :
    (e.afterLoopRead p).authIv = e.authIv ∧ ∃ ph, (e.afterLoopRead p).phase = .ready ph := by
  obtain ⟨r, status⟩ := p
  cases status with
  | reading current => exact ⟨rfl, _, rfl⟩
  | returned rc event =>
      rw [Endpoint.afterLoopRead]
      split
      · exact ⟨rfl, _, rfl⟩
      · exact ⟨rfl, _, rfl⟩

lemma Answered.client_reads {ph : ReadPhase} (h : Answered c s iv qc qs)
    (hready : c.phase = .ready ph) : c.authIv = some iv ∧ c.Reads iv ∧ InOrder iv s c qs :=
  h.client.resolve_left fun hw => hw.1.not_ready ph hready

lemma Answered.server_reads {ph : ReadPhase} (h : Answered c s iv qc qs)
    (hready : s.phase = .ready ph) : s.Reads iv := by
  rcases h.server with ⟨request, hp⟩ | hp | hreads
  · rw [hready] at hp; cases hp
  · rw [hready] at hp; cases hp
  · exact hreads

/-- An end in its handshake is asking, or its server has answered. -/
lemma Asking.client_not_ready {ph : ReadPhase} (h : Asking c s qc qs) : c.phase ≠ .ready ph := by
  rcases h.client with ⟨hp, -⟩ | hw
  · rw [hp]; simp
  · exact hw.not_ready ph

lemma Asking.server_not_ready {ph : ReadPhase} (h : Asking c s qc qs) : s.phase ≠ .ready ph := by
  rcases h.server with hp | ⟨hp | ⟨iv, current, hp⟩, -⟩
  · rw [hp]; simp
  · rw [hp]; simp
  · rw [hp]; simp

lemma client_loopRead {p : Reader × ReadStatus} {r : Reader} {pc ps : Bytes} {ph : ReadPhase}
    (hk : c.reader.cipherCtx.Keyed key) (hready : c.phase = .ready ph)
    (hr : r.cipherCtx = c.reader.cipherCtx) (hturn : TurnSpec A pb r pc p)
    (heldS : s.Holds A pb ps) (up : Flow A pb key c ps qc) (down : Flow A pb key s pc qs)
    (stage : Asking c s qc qs ∨ ∃ iv, Answered c s iv qc qs) :
    Linked A pb key (c.afterLoopRead p) s := by
  rcases stage with hask | ⟨iv, hans⟩
  · exact absurd hready hask.client_not_ready
  · obtain ⟨hauth, hreads, horder⟩ := hans.client_reads hready
    have hout := c.afterLoopRead_sameOut p
    obtain ⟨q', pend', hheld, hflow, horder', hreads'⟩ :=
      Endpoint.loopRead hk hreads down horder hr hturn
    exact .mk hheld heldS (hout.flow up) hflow (.inr ⟨iv, hans.authIv, hans.server,
      hans.up.congr_writer hout.written,
      .inr ⟨(afterLoopRead_authIv c p).1.trans hauth, hreads', horder'⟩⟩)

lemma server_loopRead {p : Reader × ReadStatus} {r : Reader} {pc ps : Bytes} {ph : ReadPhase}
    (hk : s.reader.cipherCtx.Keyed key) (hready : s.phase = .ready ph)
    (hr : r.cipherCtx = s.reader.cipherCtx) (hturn : TurnSpec A pb r ps p)
    (heldC : c.Holds A pb pc) (up : Flow A pb key c ps qc) (down : Flow A pb key s pc qs)
    (stage : Asking c s qc qs ∨ ∃ iv, Answered c s iv qc qs) :
    Linked A pb key c (s.afterLoopRead p) := by
  rcases stage with hask | ⟨iv, hans⟩
  · exact absurd hready hask.server_not_ready
  · have hout := s.afterLoopRead_sameOut p
    obtain ⟨q', pend', hheld, hflow, horder', hreads'⟩ :=
      Endpoint.loopRead hk (hans.server_reads hready) up hans.up hr hturn
    exact .mk heldC hheld hflow (hout.flow down) (.inr ⟨iv,
      (afterLoopRead_authIv s p).1.trans hans.authIv, .inr (.inr hreads'), horder',
      hans.client_of_written hout.written⟩)

/-! ## Writing on an authenticated connection -/

lemma Endpoint.Local.counting_of_authIv {ph : ReadPhase} (h : c.Local pb key)
    (hready : c.phase = .ready ph) (hauth : c.authIv = some iv) : c.Counting pb key iv := by
  simp only [Endpoint.Local, hready] at h
  obtain ⟨iv', hcount, -⟩ := h
  obtain rfl := Option.some.inj (hauth.symm.trans hcount.authIv)
  exact hcount

lemma client_write {pc ps : Bytes} {ph : ReadPhase} {ev : MuxEvent} (hc : c.Local pb key)
    (hready : c.phase = .ready ph) (hidle : c.sending = none)
    (hfits : (ev.body.encoded pb).length ≤ kMaxChunkSize) (heldC : c.Holds A pb pc)
    (heldS : s.Holds A pb ps) (up : Flow A pb key c ps qc) (down : Flow A pb key s pc qs)
    (stage : Asking c s qc qs ∨ ∃ iv, Answered c s iv qc qs) :
    Linked A pb key (c.write A pb ev) s := by
  rcases stage with hask | ⟨iv, hans⟩
  · exact absurd hready hask.client_not_ready
  · obtain ⟨hauth, hreads, horder⟩ := hans.client_reads hready
    obtain ⟨add, hflow, hwrite⟩ :=
      Endpoint.write_flow (A := A) (hc.counting_of_authIv hready hauth) hidle hfits
    obtain ⟨hevents, hreads', hheld⟩ := Endpoint.write_keeps (A := A) hc.keyed ev
    obtain ⟨-, -, hauth'⟩ := Endpoint.write_phase A pb c ev
    exact .mk (hheld _ heldC) heldS (hflow _ _ up) down (.inr ⟨iv, hans.authIv, hans.server,
      hwrite _ _ hans.up, .inr ⟨hauth'.trans hauth, hreads' _ hreads,
        horder.congr_reader hevents⟩⟩)

lemma server_write {pc ps : Bytes} {ph : ReadPhase} {ev : MuxEvent} (hs : s.Local pb key)
    (hready : s.phase = .ready ph) (hidle : s.sending = none)
    (hfits : (ev.body.encoded pb).length ≤ kMaxChunkSize) (heldC : c.Holds A pb pc)
    (heldS : s.Holds A pb ps) (up : Flow A pb key c ps qc) (down : Flow A pb key s pc qs)
    (stage : Asking c s qc qs ∨ ∃ iv, Answered c s iv qc qs) :
    Linked A pb key c (s.write A pb ev) := by
  rcases stage with hask | ⟨iv, hans⟩
  · exact absurd hready hask.server_not_ready
  · obtain ⟨add, hflow, hwrite⟩ :=
      Endpoint.write_flow (A := A) (hs.counting_of_authIv hready hans.authIv) hidle hfits
    obtain ⟨hevents, hreads', hheld⟩ := Endpoint.write_keeps (A := A) hs.keyed ev
    obtain ⟨-, -, hauth'⟩ := Endpoint.write_phase A pb s ev
    refine .mk heldC (hheld _ heldS) up (hflow _ _ down) (.inr ⟨iv, hauth'.trans hans.authIv,
      .inr (.inr (hreads' _ (hans.server_reads hready))), hans.up.congr_reader hevents, ?_⟩)
    refine hans.client.imp ?_ ?_
    · rintro ⟨hwait, hiv, q, rfl, horder⟩
      exact ⟨hwait, hiv, q ++ add, rfl, hwrite _ _ horder⟩
    · rintro ⟨hauth, hreads, horder⟩
      exact ⟨hauth, hreads, hwrite _ _ horder⟩

/-! ## Steps -/

lemma unsent_of_sent {frame : Bytes} {sent : ℕ} (hsending : c.sending = some (frame, sent))
    (hsent : sent = frame.length) : c.unsent = [] := by
  rw [Endpoint.unsent, hsending, hsent]
  exact List.drop_length

/-- The client is where `ClientAuth` or its caller can be. -/
lemma client_phase (stage : Asking c s qc qs ∨ ∃ iv, Answered c s iv qc qs) :
    c.phase = .start ∨ c.Waiting ∨ ∃ ph, c.phase = .ready ph := by
  rcases stage with hask | ⟨iv, hans⟩
  · rcases hask.client with ⟨hp, -⟩ | hw
    · exact .inl hp
    · exact .inr (.inl hw)
  · rcases hans.client with ⟨hw, -⟩ | ⟨-, ⟨ph, hp, -⟩, -⟩
    · exact .inr (.inl hw)
    · exact .inr (.inr ⟨ph, hp⟩)

lemma client_start (stage : Asking c s qc qs ∨ ∃ iv, Answered c s iv qc qs)
    (hstart : c.phase = .start) : Asking c s qc qs ∧ qc = [] := by
  have hnot : ¬ c.Waiting := by
    rintro (⟨user, hw⟩ | ⟨user, current, hw⟩)
    · rw [hstart] at hw; cases hw
    · rw [hstart] at hw; cases hw
  rcases stage with hask | ⟨iv, hans⟩
  · exact ⟨hask, (hask.client.resolve_right hnot).2⟩
  · rcases hans.client with ⟨hw, -⟩ | ⟨-, ⟨ph, hp, -⟩, -⟩
    · exact absurd hw hnot
    · rw [hstart] at hp; cases hp

/-- What waited for an `AsyncWrite` of the client goes on. -/
lemma client_afterWrite {pc ps : Bytes} (hc : c.Local pb key) (heldC : c.Holds A pb pc)
    (heldS : s.Holds A pb ps) (up : Flow A pb key c ps qc) (down : Flow A pb key s pc qs)
    (stage : Asking c s qc qs ∨ ∃ iv, Answered c s iv qc qs) (success : Bool) :
    (c.afterWrite A pb success).phase = .failed ∨
      Linked A pb key (c.afterWrite A pb success) s := by
  unfold Endpoint.afterWrite
  split
  · next user hphase =>
      split
      · have hwait : c.Waiting := .inl ⟨user, hphase⟩
        simp only [Endpoint.Holds, hphase] at heldC
        obtain rfl := heldC
        exact .inr (client_turn (hc.fresh hwait.not_ready) hwait rfl
          (readEventTurn_spec A pb c.reader c.reader.readableData) heldS up down stage user)
      · exact .inl rfl
  · next request iv hphase =>
      rcases client_phase stage with hp | (⟨user, hp⟩ | ⟨user, current, hp⟩) | ⟨ph, hp⟩
      all_goals rw [hphase] at hp; cases hp
  · exact .inr (.mk heldC heldS up down stage)

lemma client_step {a : EndpointAction} (hpb : pb.Bounded) (hc : c.Local pb key)
    (hlocal : c.isLocal = true) (hlinked : Linked A pb key c s)
    (hfits : ∀ ev, a = .write ev → (ev.body.encoded pb).length ≤ kMaxChunkSize)
    (hstep : c.step A pb a = some c') : c'.phase = .failed ∨ Linked A pb key c' s := by
  obtain ⟨heldC, heldS, up, down, stage⟩ := hlinked
  cases Endpoint.step_spec hstep with
  | @clientAuth user clientId hphase =>
      obtain ⟨hask, rfl⟩ := client_start stage hphase
      simp only [Endpoint.Local, hphase] at hc
      simp only [Endpoint.Holds, hphase] at heldC
      obtain ⟨hfresh, hearly⟩ := hc
      rw [Endpoint.clientAuth, if_neg (by simp [hlocal])]
      have hspec := Endpoint.startWrite_spec (e := c.setClientId clientId) A pb hfresh.keyed
        (requestEvent (Endpoint.authRequest c.flags user clientId))
      rw [requestEvent] at hspec
      generalize Endpoint.startWrite A pb _ _ = w at hspec
      cases hspec with
      | fail rc seals nonzero => exact .inl rfl
      | ok =>
          refine .inr (.mk heldC heldS
            (up.write (x := (c.reader.cipherCtx.encryptIv,
              requestEvent (Endpoint.authRequest c.flags user clientId))) hearly.idle
              (hpb _ _) rfl rfl rfl)
            down (.inl ⟨.inr (.inl ⟨user, rfl⟩), hask.clientIv,
              .inr ⟨Endpoint.authRequest c.flags user clientId, ?_⟩, hask.server,
              hask.silent⟩))
          rw [hearly.encryptIv]
          rfl
  | serverAuth hphase hiv =>
      rw [Endpoint.serverAuth, if_pos hlocal]
      exact .inl rfl
  | transmit hsending hok =>
      exact .inr (.mk heldC heldS (up.transmit hsending hok) down
        (stage_congr stage ⟨rfl, rfl, rfl, rfl, rfl⟩ (View.refl s)))
  | written hsending hsent =>
      exact client_afterWrite (hc.transport none c.sendFailed c.link fun _ => rfl)
        heldC heldS (up.congr rfl rfl (unsent_of_sent hsending hsent).symm)
        down (stage_congr stage ⟨rfl, rfl, rfl, rfl, rfl⟩ (View.refl s)) true
  | writeError hsending =>
      exact client_afterWrite (hc.transport none true c.link fun _ => rfl) heldC heldS
        (up.fail rfl rfl) down (stage_congr stage ⟨rfl, rfl, rfl, rfl, rfl⟩ (View.refl s)) false
  | disconnected hphase hcurrent hrc =>
      rcases stage with hask | ⟨iv, hans⟩
      · exact absurd hphase hask.client_not_ready
      · obtain ⟨hauth, ⟨-, -, -, hiv⟩, horder⟩ := hans.client_reads hphase
        exact .inr (.mk trivial heldS (up.congr rfl rfl rfl) down (.inr ⟨iv, hans.authIv,
          hans.server, hans.up.congr_writer rfl, .inr ⟨hauth, ⟨_, rfl, by simp, hiv⟩,
            horder.congr_reader rfl⟩⟩))
  | readError hready hcurrent hrc =>
      left
      unfold Endpoint.afterRead
      split
      · simp [Endpoint.afterResponse, Reader.readEventError, hrc, Endpoint.enter]
      · simp [Endpoint.afterRequest, Reader.readEventError, hrc, Endpoint.enter]
      · next hresponse hrequest =>
          rcases client_phase stage with hp | (⟨user, hp⟩ | ⟨user, current, hp⟩) | ⟨ph, hp⟩
          · rw [hp] at hcurrent; cases hcurrent
          · rw [hp] at hcurrent; cases hcurrent
          · exact absurd hp (hresponse user current)
          · exact absurd hp (hready ph)
  | write hphase hidle =>
      exact .inr (client_write hc hphase hidle (hfits _ rfl) heldC heldS up down stage)
  | readEvent hphase =>
      simp only [Endpoint.Holds, hphase] at heldC
      obtain rfl := heldC
      exact .inr (client_loopRead hc.keyed hphase rfl
        (readEventTurn_spec A pb c.reader c.reader.readableData) heldS up down stage)

/-- Delivered bytes are read behind those the buffer holds. -/
lemma data_turn {bs : Bytes} (h : c.data A pb bs = some c') :
    ∃ current r p, c.phase.current = some current ∧ r.cipherCtx = c.reader.cipherCtx ∧
      TurnSpec A pb r (c.reader.readBuffer.bytes.take current.len ++ bs) p ∧
      c' = c.afterRead A pb p := by
  unfold Endpoint.data at h
  split at h
  · next current hcurrent =>
      split at h
      · next hbs =>
          obtain rfl := Option.some.inj h
          have hslice := @ReadBuffer.slice_store c.reader.readBuffer current.len bs hbs.2 (by omega)
          refine ⟨current, { c.reader with
            readBuffer := c.reader.readBuffer.store current.len bs hbs.2 }, _, hcurrent, rfl, ?_,
            rfl⟩
          rw [← hslice]
          exact readEventTurn_spec A pb _ _
      · cases h
  · cases h

lemma client_data {n : ℕ} (hc : c.Local pb key) (hlinked : Linked A pb key c s)
    (hdata : c.data A pb (s.link.take n) = some c') :
    Linked A pb key c' { s with link := s.link.drop n } := by
  obtain @⟨qc, qs, pc, ps, heldC, heldS, up, down, stage⟩ := hlinked
  obtain ⟨current, r, p, hcurrent, hr, hturn, rfl⟩ := data_turn hdata
  have hheldS : Endpoint.Holds A pb { s with link := s.link.drop n } ps := heldS
  have hdown := down.deliver n
  have hstage : Asking c { s with link := s.link.drop n } qc qs ∨
      ∃ iv, Answered c { s with link := s.link.drop n } iv qc qs :=
    stage_congr stage (View.refl c) ⟨rfl, rfl, rfl, rfl, rfl⟩
  rcases client_phase stage with hp | (⟨user, hp⟩ | ⟨user, current', hp⟩) | ⟨ph, hp⟩
  · rw [hp] at hcurrent; cases hcurrent
  · rw [hp] at hcurrent; cases hcurrent
  · have hwait : c.Waiting := .inr ⟨user, current', hp⟩
    rw [hp] at hcurrent
    obtain rfl := Option.some.inj hcurrent
    simp only [Endpoint.Holds, hp] at heldC
    rw [heldC] at hturn
    simp only [Endpoint.afterRead, hp]
    exact client_turn (hc.fresh hwait.not_ready) hwait hr hturn hheldS up hdown hstage user
  · cases ph with
    | reading current' =>
        rw [hp] at hcurrent
        obtain rfl := Option.some.inj hcurrent
        simp only [Endpoint.Holds, hp] at heldC
        rw [heldC.1] at hturn
        simp only [Endpoint.afterRead, hp]
        exact client_loopRead hc.keyed hp hr hturn hheldS up hdown hstage
    | idle => rw [hp] at hcurrent; cases hcurrent
    | failed rc => rw [hp] at hcurrent; cases hcurrent
    | disconnected rc => rw [hp] at hcurrent; cases hcurrent

/-- The server is where `ServerAuth` or its caller can be. -/
lemma server_phase (stage : Asking c s qc qs ∨ ∃ iv, Answered c s iv qc qs) :
    s.phase = .start ∨ s.phase = .failed ∨ (∃ iv current, s.phase = .readingRequest iv current) ∨
      (∃ request iv, s.phase = .writingResponse request iv) ∨ ∃ ph, s.phase = .ready ph := by
  rcases stage with hask | ⟨iv, hans⟩
  · rcases hask.server with hp | ⟨hp | hp, -⟩
    · exact .inr (.inl hp)
    · exact .inl hp
    · exact .inr (.inr (.inl hp))
  · rcases hans.server with ⟨request, hp⟩ | hp | ⟨ph, hp, -⟩
    · exact .inr (.inr (.inr (.inl ⟨request, iv, hp⟩)))
    · exact .inr (.inl hp)
    · exact .inr (.inr (.inr (.inr ⟨ph, hp⟩)))

/-- A server that waits for a request has not answered. -/
lemma server_asking (stage : Asking c s qc qs ∨ ∃ iv, Answered c s iv qc qs)
    (hphase : s.phase = .start ∨ ∃ iv current, s.phase = .readingRequest iv current) :
    Asking c s qc qs ∧ s.reader.cipherCtx.decryptIv = defaultIv := by
  have hnot : s.phase ≠ .failed ∧ (∀ request iv, s.phase ≠ .writingResponse request iv) ∧
      ∀ ph, s.phase ≠ .ready ph := by
    rcases hphase with hp | ⟨iv, current, hp⟩
    · rw [hp]; simp
    · rw [hp]; simp
  rcases stage with hask | ⟨iv, hans⟩
  · exact ⟨hask, (hask.server.resolve_left hnot.1).2⟩
  · rcases hans.server with ⟨request, hp⟩ | hp | ⟨ph, hp, -⟩
    · exact absurd hp (hnot.2.1 request iv)
    · exact absurd hp hnot.1
    · exact absurd hp (hnot.2.2 ph)

/-- The server fails before it has answered. -/
lemma server_fails {pc ps : Bytes} (hphase : s'.phase = .failed) (hlink : s'.link = s.link)
    (hfailed : s'.sendFailed = s.sendFailed) (hsending : s'.sending = s.sending)
    (heldC : c.Holds A pb pc) (up : Flow A pb key c ps qc) (down : Flow A pb key s pc qs)
    (hask : Asking c s qc qs) : Linked A pb key c s' := by
  refine .mk heldC ?_ up (down.congr hlink hfailed ?_)
    (.inl ⟨hask.client, hask.clientIv, hask.request, .inl hphase, hask.silent⟩)
  · simp only [Endpoint.Holds, hphase]
  · rw [Endpoint.unsent, Endpoint.unsent, hsending]

/-- What waited for an `AsyncWrite` of the server goes on. -/
lemma server_afterWrite {pc ps : Bytes} (hs : s.Local pb key) (heldC : c.Holds A pb pc)
    (heldS : s.Holds A pb ps) (up : Flow A pb key c ps qc) (down : Flow A pb key s pc qs)
    (stage : Asking c s qc qs ∨ ∃ iv, Answered c s iv qc qs) (success : Bool) :
    Linked A pb key c (s.afterWrite A pb success) := by
  unfold Endpoint.afterWrite
  split
  · next user hphase =>
      rcases server_phase stage with hp | hp | ⟨iv, current, hp⟩ | ⟨request, iv, hp⟩ | ⟨ph, hp⟩
      all_goals rw [hphase] at hp; cases hp
  · next request iv hphase =>
      simp only [Endpoint.Local, hphase] at hs
      simp only [Endpoint.Holds, hphase] at heldS
      rcases stage with hask | ⟨iv', hans⟩
      · rcases hask.server with hp | ⟨hp | ⟨_, _, hp⟩, -⟩
        all_goals rw [hphase] at hp; cases hp
      · obtain rfl : iv = iv' := Option.some.inj (hs.2.1.symm.trans hans.authIv)
        cases success with
        | false =>
            exact .mk heldC trivial up (down.congr rfl rfl rfl) (.inr ⟨iv, hans.authIv,
              .inr (.inl rfl), hans.up.congr_reader rfl, hans.client_of_written rfl⟩)
        | true =>
            refine .mk heldC heldS up (down.congr rfl rfl rfl) (.inr ⟨iv, hans.authIv,
              .inr (.inr ⟨.idle, rfl, by simp, ?_⟩), hans.up.congr_reader rfl,
              hans.client_of_written rfl⟩)
            show iv = iv + UInt64.ofNat s.events.length
            rw [hs.1.events]
            exact (UInt64.add_zero iv).symm
  · exact .mk heldC heldS up down stage

lemma server_step {a : EndpointAction} (hpb : pb.Bounded) (hc : c.Local pb key)
    (hs : s.Local pb key) (hlocal : s.isLocal = false) (hlinked : Linked A pb key c s)
    (hfits : ∀ ev, a = .write ev → (ev.body.encoded pb).length ≤ kMaxChunkSize)
    (hstep : s.step A pb a = some s') : Linked A pb key c s' := by
  obtain ⟨heldC, heldS, up, down, stage⟩ := hlinked
  cases Endpoint.step_spec hstep with
  | clientAuth hphase =>
      obtain ⟨hask, -⟩ := server_asking stage (.inl hphase)
      rw [Endpoint.clientAuth, if_pos hlocal]
      exact server_fails (s := s) rfl rfl rfl rfl heldC up down hask
  | serverAuth hphase hiv =>
      obtain ⟨hask, hdecrypt⟩ := server_asking stage (.inl hphase)
      simp only [Endpoint.Local, hphase] at hs
      simp only [Endpoint.Holds, hphase] at heldS
      obtain rfl := heldS
      rw [Endpoint.serverAuth, if_neg (by simp [hlocal])]
      exact server_turn hpb hs.1 hs.2 hc hdecrypt rfl
        (readEventTurn_spec A pb s.reader s.reader.readableData) heldC up down hask
  | transmit hsending hok =>
      exact .mk heldC heldS up (down.transmit hsending hok)
        (stage_congr stage (View.refl c) ⟨rfl, rfl, rfl, rfl, rfl⟩)
  | written hsending hsent =>
      exact server_afterWrite (hs.transport none s.sendFailed s.link fun _ => rfl)
        heldC heldS up (down.congr rfl rfl (unsent_of_sent hsending hsent).symm)
        (stage_congr stage (View.refl c) ⟨rfl, rfl, rfl, rfl, rfl⟩) true
  | writeError hsending =>
      exact server_afterWrite (hs.transport none true s.link fun _ => rfl) heldC heldS up
        (down.fail rfl rfl) (stage_congr stage (View.refl c) ⟨rfl, rfl, rfl, rfl, rfl⟩) false
  | disconnected hphase hcurrent hrc =>
      rcases stage with hask | ⟨iv, hans⟩
      · exact absurd hphase hask.server_not_ready
      · obtain ⟨-, -, -, hiv⟩ := hans.server_reads hphase
        exact .mk heldC trivial up (down.congr rfl rfl rfl) (.inr ⟨iv, hans.authIv,
          .inr (.inr ⟨_, rfl, by simp, hiv⟩), hans.up.congr_reader rfl,
          hans.client_of_written rfl⟩)
  | readError hready hcurrent hrc =>
      rcases server_phase stage with hp | hp | ⟨iv, current', hp⟩ | ⟨request, iv, hp⟩ | ⟨ph, hp⟩
      · rw [hp] at hcurrent; cases hcurrent
      · rw [hp] at hcurrent; cases hcurrent
      · obtain ⟨hask, -⟩ := server_asking stage (.inr ⟨iv, current', hp⟩)
        simp only [Endpoint.afterRead, hp, Endpoint.afterRequest, Reader.readEventError,
          ne_eq, hrc, not_false_eq_true, if_true]
        exact server_fails (s := s) rfl rfl rfl rfl heldC up down hask
      · rw [hp] at hcurrent; cases hcurrent
      · exact absurd hp (hready ph)
  | write hphase hidle =>
      exact server_write hs hphase hidle (hfits _ rfl) heldC heldS up down stage
  | readEvent hphase =>
      simp only [Endpoint.Holds, hphase] at heldS
      obtain rfl := heldS
      exact server_loopRead hs.keyed hphase rfl
        (readEventTurn_spec A pb s.reader s.reader.readableData) heldC up down stage

lemma server_data {n : ℕ} (hpb : pb.Bounded) (hc : c.Local pb key) (hs : s.Local pb key)
    (hlinked : Linked A pb key c s) (hdata : s.data A pb (c.link.take n) = some s') :
    Linked A pb key { c with link := c.link.drop n } s' := by
  obtain @⟨qc, qs, pc, ps, heldC, heldS, up, down, stage⟩ := hlinked
  obtain ⟨current, r, p, hcurrent, hr, hturn, rfl⟩ := data_turn hdata
  have hheldC : Endpoint.Holds A pb { c with link := c.link.drop n } pc := heldC
  have hup := up.deliver n
  have hview : View c { c with link := c.link.drop n } := ⟨rfl, rfl, rfl, rfl, rfl⟩
  rcases server_phase stage with hp | hp | ⟨iv, current', hp⟩ | ⟨request, iv, hp⟩ | ⟨ph, hp⟩
  · rw [hp] at hcurrent; cases hcurrent
  · rw [hp] at hcurrent; cases hcurrent
  · obtain ⟨hask, hiv⟩ := server_asking stage (.inr ⟨iv, current', hp⟩)
    rw [hp] at hcurrent
    obtain rfl := Option.some.inj hcurrent
    simp only [Endpoint.Holds, hp] at heldS
    simp only [Endpoint.Local, hp] at hs
    rw [heldS] at hturn
    simp only [Endpoint.afterRead, hp]
    have hlocal : Endpoint.Local pb key { c with link := c.link.drop n } :=
      hc.transport c.sending c.sendFailed _ id
    exact server_turn hpb hs.1 hs.2.1 hlocal hiv hr hturn hheldC hup down
      (hask.congr hview (View.refl s))
  · rw [hp] at hcurrent; cases hcurrent
  · cases ph with
    | reading current' =>
        rw [hp] at hcurrent
        obtain rfl := Option.some.inj hcurrent
        simp only [Endpoint.Holds, hp] at heldS
        rw [heldS.1] at hturn
        simp only [Endpoint.afterRead, hp]
        exact server_loopRead hs.keyed hp hr hturn hheldC hup down
          (stage_congr stage hview (View.refl s))
    | idle => rw [hp] at hcurrent; cases hcurrent
    | failed rc => rw [hp] at hcurrent; cases hcurrent
    | disconnected rc => rw [hp] at hcurrent; cases hcurrent

end Stages

/-! ## Runs -/

lemma failed_step {e e' : Endpoint} {a : EndpointAction} (hphase : e.phase = .failed)
    (hstep : e.step A pb a = some e') : e'.phase = .failed := by
  cases Endpoint.step_spec hstep with
  | transmit hsending hok => exact hphase
  | written hsending hsent => simp only [Endpoint.afterWrite, hphase]
  | writeError hsending => simp only [Endpoint.afterWrite, hphase]
  | readError hready hcurrent hrc =>
      rw [hphase] at hcurrent
      cases hcurrent
  | clientAuth hphase' => rw [hphase] at hphase'; cases hphase'
  | serverAuth hphase' hiv => rw [hphase] at hphase'; cases hphase'
  | disconnected hphase' hcurrent hrc => rw [hphase] at hphase'; cases hphase'
  | write hphase' hidle => rw [hphase] at hphase'; cases hphase'
  | readEvent hphase' => rw [hphase] at hphase'; cases hphase'

/-- The events a run writes fit a chunk. -/
def AuthAction.Fits (pb : Nanopb) : AuthAction → Prop
  | .client (.write ev) => (ev.body.encoded pb).length ≤ kMaxChunkSize
  | .server (.write ev) => (ev.body.encoded pb).length ≤ kMaxChunkSize
  | _ => True

namespace AuthState

variable {s s' : AuthState}

structure Inv (A : Aead) (pb : Nanopb) (key : Bytes) (s : AuthState) : Prop where
  client : s.client.Local pb key
  server : s.server.Local pb key
  isClient : s.client.isLocal = true
  isServer : s.server.isLocal = false
  linked : s.client.phase = .failed ∨ Linked A pb key s.client s.server

lemma step_inv {a : AuthAction} (hpb : pb.Bounded) (hfits : a.Fits pb) (h : Inv A pb key s)
    (hstep : step A pb s a = some s') : Inv A pb key s' := by
  cases a with
  | client a =>
      obtain ⟨c', hc', rfl⟩ := Option.map_eq_some_iff.mp hstep
      refine ⟨Endpoint.step_local h.client hc', h.server,
        (Endpoint.step_isLocal hc').trans h.isClient, h.isServer, ?_⟩
      rcases h.linked with hfailed | hlinked
      · exact .inl (failed_step hfailed hc')
      · refine client_step hpb h.client h.isClient hlinked (fun ev hev => ?_) hc'
        subst hev
        exact hfits
  | server a =>
      obtain ⟨e, he, rfl⟩ := Option.map_eq_some_iff.mp hstep
      refine ⟨h.client, Endpoint.step_local h.server he, h.isClient,
        (Endpoint.step_isLocal he).trans h.isServer, h.linked.imp_right fun hlinked => ?_⟩
      refine server_step hpb h.client h.server h.isServer hlinked (fun ev hev => ?_) he
      subst hev
      exact hfits
  | toClient n =>
      obtain ⟨c', hc', rfl⟩ := Option.map_eq_some_iff.mp hstep
      refine ⟨Endpoint.data_local h.client hc', h.server.transport _ s.server.sendFailed _ id,
        (Endpoint.data_isLocal hc').trans h.isClient, h.isServer, .inr ?_⟩
      rcases h.linked with hfailed | hlinked
      · simp only [Endpoint.data, hfailed, AuthPhase.current] at hc'
        cases hc'
      · exact client_data h.client hlinked hc'
  | toServer n =>
      obtain ⟨e, he, rfl⟩ := Option.map_eq_some_iff.mp hstep
      refine ⟨h.client.transport _ s.client.sendFailed _ id, Endpoint.data_local h.server he,
        h.isClient, (Endpoint.data_isLocal he).trans h.isServer,
        h.linked.imp_right fun hlinked => ?_⟩
      exact server_data hpb h.client h.server hlinked he

lemma new_local {ctx : CipherContext} (hctx : CipherContext.new "chacha20_poly1305" key = some ctx)
    (type : MuxConnectionType) (isLocal : Bool) (flags : NodeFlags) :
    (Endpoint.new type ctx isLocal flags).Local pb (CipherContext.resize 32 key) := by
  have hk := CipherContext.keyed_of_new hctx
  obtain rfl := Option.some.inj hctx
  exact ⟨⟨hk, rfl, rfl, .inl rfl⟩, rfl, rfl, rfl, rfl⟩

lemma init_inv {ctx : CipherContext} (hctx : CipherContext.new "chacha20_poly1305" key = some ctx)
    (clientType : MuxConnectionType) (clientFlags serverFlags : NodeFlags) :
    Inv A pb (CipherContext.resize 32 key) (init ctx clientType clientFlags serverFlags) := by
  have hiv : ctx.decryptIv = defaultIv := by
    obtain rfl := Option.some.inj hctx
    rfl
  have hflow : ∀ type isLocal flags, Flow A pb (CipherContext.resize 32 key)
      (Endpoint.new type ctx isLocal flags) [] [] := fun _ _ _ =>
    ⟨by simp, [], ⟨[], rfl, fun _ => rfl⟩, rfl⟩
  refine ⟨new_local hctx _ _ _, new_local hctx _ _ _, rfl, rfl, .inr ?_⟩
  exact .mk rfl rfl (hflow _ _ _) (hflow _ _ _)
    (.inl ⟨.inl ⟨rfl, rfl⟩, hiv, .inl rfl, .inr ⟨.inl rfl, hiv⟩, rfl⟩)

lemma run_inv {ctx : CipherContext} (hpb : pb.Bounded)
    (hctx : CipherContext.new "chacha20_poly1305" key = some ctx)
    {clientType : MuxConnectionType} {clientFlags serverFlags : NodeFlags} {as : List AuthAction}
    (hfits : ∀ a ∈ as, a.Fits pb)
    (h : exec (step A pb) (init ctx clientType clientFlags serverFlags) as = some s) :
    Inv A pb (CipherContext.resize 32 key) s :=
  exec_invariant_along (C := fun _ a => a.Fits pb)
    (fun _ _ _ hs hC hstep => step_inv hpb hC hs hstep) (init_inv hctx _ _ _)
    (along_of_forall (fun a ha _ => hfits a ha) _) h

/-- What `e` writes after the handshake reaches `e'`.  The two counters started at `iv` and count
the events written and read; an event that fits a chunk is accepted; the events read are the
first ones written, and there is no decoding error; and when `e'` waits for bytes and none are
left on the way, it has read everything. -/
structure Delivers (A : Aead) (pb : Nanopb) (iv : UInt64) (e e' : Endpoint) : Prop where
  encryptIv : e.reader.cipherCtx.encryptIv = iv + UInt64.ofNat e.written.length
  decryptIv : e'.reader.cipherCtx.decryptIv = iv + UInt64.ofNat e'.events.length
  accepts : ∀ ev, (ev.body.encoded pb).length ≤ kMaxChunkSize →
    (e.write A pb ev).written = e.written ++ [ev]
  inOrder : List.Forall₂ MuxEvent.Same e'.events (e.written.take e'.events.length)
  readable : ∀ rc, e'.phase ≠ .ready (.failed rc)
  complete : ∀ current, e'.phase = .ready (.reading current) → e.link = [] → e.unsent = [] →
    e.sendFailed = false → e'.events.length = e.written.length

lemma write_accepts {e : Endpoint} {ev : MuxEvent} (hk : e.reader.cipherCtx.Keyed key)
    (hfits : (ev.body.encoded pb).length ≤ kMaxChunkSize) :
    (e.startWrite A pb ev).2 = true ∧ (e.write A pb ev).written = e.written ++ [ev] := by
  have hrc : (e.reader.cipherCtx.encrypt A pb ev writeBufferSize).rc = 0 := by
    refine CipherContext.encrypt_rc_of_le hk hfits ?_
    rw [hk.tagLen]
    decide
  unfold Endpoint.write Endpoint.startWrite
  simp [hrc]

lemma delivers {e e' : Endpoint} {iv : UInt64} {pend : Bytes} {q : List (UInt64 × MuxEvent)}
    (hcount : e.Counting pb key iv) (hk : e'.reader.cipherCtx.Keyed key) (hreads : e'.Reads iv)
    (hheld : e'.Holds A pb pend) (hflow : Flow A pb key e pend q) (horder : InOrder iv e e' q) :
    Delivers A pb iv e e' := by
  obtain ⟨ph, hphase, hgood, hiv⟩ := hreads
  refine ⟨hcount.encryptIv, hiv, fun ev hev => (write_accepts hcount.keyed hev).2, horder.same, ?_,
    ?_⟩
  · intro rc hrc
    rw [hphase] at hrc
    exact hgood rc (AuthPhase.ready.inj hrc)
  · intro current hcurrent hlink hunsent hok
    simp only [Endpoint.Holds, hcurrent] at hheld
    have hhead : ∀ x ∈ q.head?, x.1 = e'.reader.cipherCtx.decryptIv := by
      intro x hx
      cases q with
      | nil => cases hx
      | cons y q =>
          obtain rfl := Option.some.inj hx
          rw [horder.head_iv, hiv]
    obtain rfl := hflow.eq_nil_of_more hk hhead hlink hunsent hok hheld.2
    exact horder.length_eq

/-! ## A handshake that succeeds -/

/-- A frame that arrives in one piece is read. -/
lemma data_frame {e : Endpoint} {current : Span} {ev : MuxEvent}
    (hcurrent : e.phase.current = some current) (hempty : current.len = 0)
    (hk : e.reader.cipherCtx.Keyed key) (hfits : (ev.body.encoded pb).length ≤ kMaxChunkSize) :
    ∃ r' ev', ev'.Same ev ∧
      r'.cipherCtx =
        { e.reader.cipherCtx with decryptIv := e.reader.cipherCtx.decryptIv + 1 } ∧
      e.data A pb (CipherContext.sealedFrame A pb key e.reader.cipherCtx.decryptIv ev) =
        some (e.afterRead A pb (r', .returned 0 (some ev'))) := by
  have hlen := CipherContext.length_sealedFrame A pb key e.reader.cipherCtx.decryptIv ev
  obtain ⟨ev', hsame, hnext⟩ := hk.next_sealedFrame A rfl hfits
  have hroom : CipherContext.sealedFrame A pb key e.reader.cipherCtx.decryptIv ev ≠ [] ∧
      current.len +
        (CipherContext.sealedFrame A pb key e.reader.cipherCtx.decryptIv ev).length ≤
          readBufferSize := by
    constructor
    · intro hnil
      rw [hnil, List.length_nil] at hlen
      omega
    · have hsize : kEventHeadSize + 16 + kMaxChunkSize + 16 ≤ readBufferSize := by decide
      rw [hempty, hlen]
      split <;> omega
  have hdata : e.data A pb (CipherContext.sealedFrame A pb key e.reader.cipherCtx.decryptIv ev) =
      some (e.afterRead A pb (e.reader.readEventResume A pb current _ hroom.2)) := by
    rw [Endpoint.data, hcurrent]
    exact dif_pos hroom
  obtain ⟨current', r, p, hcurrent', hr, hturn, hafter⟩ := data_turn hdata
  obtain rfl := Option.some.inj (hcurrent.symm.trans hcurrent')
  rw [hempty, List.take_zero, List.nil_append] at hturn
  rw [hdata, hafter]
  have hitem := hnext []
  rw [List.append_nil] at hitem
  cases hturn with
  | more r' current next ctx front short => rw [hr, hitem] at next; cases next
  | fail r' rc event next ctx nonzero => rw [hr, hitem] at next; cases next
  | item r' event n next ctx readable =>
      rw [hr, hitem] at next
      obtain ⟨rfl, -, -⟩ := Outcome.item.inj next
      rw [hr] at ctx
      exact ⟨r', _, hsame, ctx, rfl⟩

lemma startWrite_eq {e : Endpoint} {ev : MuxEvent} (hk : e.reader.cipherCtx.Keyed key)
    (hfits : (ev.body.encoded pb).length ≤ kMaxChunkSize) :
    e.startWrite A pb ev = (((e.setCtx
      { e.reader.cipherCtx with encryptIv := e.reader.cipherCtx.encryptIv + 1 }).logEncrypt 0
        (CipherContext.frameSeals pb key e.reader.cipherCtx.encryptIv ev)).asyncWrite
          (CipherContext.sealedFrame A pb key e.reader.cipherCtx.encryptIv ev), true) := by
  have hspec := Endpoint.startWrite_spec A pb hk ev
  have hok := (write_accepts (A := A) hk hfits).1
  generalize e.startWrite A pb ev = w at hspec hok
  cases hspec with
  | fail rc seals nonzero => cases hok
  | ok => rfl

lemma transmit_all {e : Endpoint} {frame : Bytes} (hsending : e.sending = some (frame, 0))
    (hok : e.sendFailed = false) (hpos : 0 < frame.length) :
    e.step A pb (.transmit frame.length) =
      some { e with link := e.link ++ frame, sending := some (frame, frame.length) } := by
  simp only [Endpoint.step, hsending]
  rw [if_pos ⟨hok, hpos, (Nat.zero_add _).le⟩, List.drop_zero, List.take_length, Nat.zero_add]

lemma written_all {e : Endpoint} {frame : Bytes}
    (hsending : e.sending = some (frame, frame.length)) :
    e.step A pb .written = some ({ e with sending := none }.afterWrite A pb true) := by
  simp only [Endpoint.step, hsending, if_true]

lemma readEvent_empty {r : Reader} (h : r.readableData = .empty) :
    r.readEvent A pb = (r, .reading .empty) := by
  rw [Reader.readEvent, h]
  rfl

/-- `ClientAuth` on a new connection. -/
lemma clientAuth_new {ctx : CipherContext} (A : Aead) (hpb : pb.Bounded) (hk : ctx.Keyed key)
    (henc : ctx.encryptIv = defaultIv) (type : MuxConnectionType) (flags : NodeFlags)
    (user : Bytes) (clientId : UInt64) :
    ∃ c, (Endpoint.new type ctx true flags).step A pb (.clientAuth user clientId) = some c ∧
      c.phase = .writingRequest user ∧ c.sendFailed = false ∧ c.link = [] ∧
      c.reader.readableData = .empty ∧ c.reader.cipherCtx.Keyed key ∧
      c.reader.cipherCtx.decryptIv = ctx.decryptIv ∧
      c.sending = some (CipherContext.sealedFrame A pb key defaultIv
        (requestEvent (Endpoint.authRequest flags user clientId)), 0) ∧
      c.encrypts = [(0, CipherContext.frameSeals pb key defaultIv
        (requestEvent (Endpoint.authRequest flags user clientId)))] := by
  have hwrite : ((Endpoint.new type ctx true flags).setClientId clientId).startWrite A pb
      (requestEvent (Endpoint.authRequest flags user clientId)) = _ := startWrite_eq hk (hpb _ _)
  have hstep : (Endpoint.new type ctx true flags).step A pb (.clientAuth user clientId) =
      some ((Endpoint.new type ctx true flags).clientAuth A pb user clientId) := rfl
  have hflags : (Endpoint.new type ctx true flags).flags = flags := rfl
  rw [requestEvent] at hwrite
  rw [hstep, Endpoint.clientAuth, if_neg (by simp [Endpoint.new]), hflags, hwrite, ← henc]
  exact ⟨_, rfl, rfl, rfl, rfl, rfl, hk.withIvs _ _, rfl, rfl, rfl⟩

/-- `ServerAuth` on a new connection, when the request has arrived. -/
lemma serverAuth_new {ctx : CipherContext} (A : Aead) (hpb : pb.Bounded) (hk : ctx.Keyed key)
    (henc : ctx.encryptIv = defaultIv) (hdec : ctx.decryptIv = defaultIv) (flags : NodeFlags)
    {request : AuthRequest} (hrole : Endpoint.roleConflict flags request = false) (iv : UInt64) :
    ∃ s, ((Endpoint.new .entry ctx false flags).enter (.readingRequest iv .empty)).data A pb
        (CipherContext.sealedFrame A pb key defaultIv (requestEvent request)) = some s ∧
      s.phase = .writingResponse request iv ∧ s.sendFailed = false ∧ s.link = [] ∧
      s.sending = some (CipherContext.sealedFrame A pb key defaultIv (responseEvent iv), 0) ∧
      s.encrypts = [(0, CipherContext.frameSeals pb key defaultIv (responseEvent iv))] := by
  have hfits : ((requestEvent request).body.encoded pb).length ≤ kMaxChunkSize := hpb _ _
  obtain ⟨r', ev', hsame, hctx', hdata⟩ := data_frame (A := A)
    (e := (Endpoint.new .entry ctx false flags).enter (.readingRequest iv .empty)) rfl rfl hk hfits
  have hdata' : ((Endpoint.new .entry ctx false flags).enter (.readingRequest iv .empty)).data A pb
      (CipherContext.sealedFrame A pb key defaultIv (requestEvent request)) =
        some (Endpoint.afterRequest A pb
          ((Endpoint.new .entry ctx false flags).enter (.readingRequest iv .empty)) iv
          (r', .returned 0 (some ev'))) := by
    rw [← hdec]
    exact hdata
  have hk' : r'.cipherCtx.Keyed key := by rw [hctx']; exact hk.withIvs _ _
  have henc' : r'.cipherCtx.encryptIv = defaultIv := by rw [hctx']; exact henc
  have hwrite : ∀ e : Endpoint, e.reader = r' → e.startWrite A pb (responseEvent iv) = _ :=
    fun e he => startWrite_eq (by rw [he]; exact hk') (hpb _ _)
  rw [hdata', Endpoint.afterRequest, if_neg (by simp), Option.map_some, body_of_same hsame]
  simp only
  rw [Endpoint.answer, if_neg (by rw [← Bool.not_eq_true] at hrole; exact hrole)]
  rw [responseEvent] at hwrite
  rw [hwrite _ rfl]
  refine ⟨_, rfl, rfl, rfl, rfl, ?_, ?_⟩
  · rw [← henc']; rfl
  · rw [← henc']; rfl

/-- `ClientAuth` when the response has arrived. -/
lemma clientAuth_accepts {c : Endpoint} {user : Bytes} (A : Aead) (hpb : pb.Bounded)
    (hphase : c.phase = .readingResponse user .empty) (hk : c.reader.cipherCtx.Keyed key)
    (hdec : c.reader.cipherCtx.decryptIv = defaultIv) (iv : UInt64) :
    ∃ c', c.data A pb (CipherContext.sealedFrame A pb key defaultIv (responseEvent iv)) = some c' ∧
      c'.phase = .ready .idle ∧ c'.sending = c.sending ∧ c'.encrypts = c.encrypts := by
  have hfits : ((responseEvent iv).body.encoded pb).length ≤ kMaxChunkSize := hpb _ _
  obtain ⟨r', ev', hsame, -, hdata⟩ :=
    data_frame (A := A) (e := c) (by rw [hphase]; rfl) rfl hk hfits
  refine ⟨_, by rw [← hdec]; exact hdata, ?_⟩
  simp only [Endpoint.afterRead, hphase, Endpoint.afterResponse, ne_eq, not_true_eq_false, if_false,
    Option.map_some, body_of_same hsame, if_true]
  exact ⟨rfl, rfl, rfl⟩

/-- A frame of the client is transmitted, arrives in one piece and has been written. -/
lemma exec_request {c s s' : Endpoint} {frame : Bytes} (hsending : c.sending = some (frame, 0))
    (hok : c.sendFailed = false) (hlink : c.link = []) (hpos : 0 < frame.length)
    (hdata : s.data A pb frame = some s') :
    exec (step A pb) ⟨c, s⟩
        [.client (.transmit frame.length), .toServer frame.length, .client .written] =
      some ⟨{ c with link := [], sending := none }.afterWrite A pb true, s'⟩ := by
  have htransmit : step A pb ⟨c, s⟩ (.client (.transmit frame.length)) =
      some ⟨{ c with link := frame, sending := some (frame, frame.length) }, s⟩ := by
    simp only [step, transmit_all hsending hok hpos, Option.map_some, hlink, List.nil_append]
  have harrive : step A pb ⟨{ c with link := frame, sending := some (frame, frame.length) }, s⟩
      (.toServer frame.length) =
      some ⟨{ c with link := [], sending := some (frame, frame.length) }, s'⟩ := by
    simp only [step, List.take_length, hdata, Option.map_some, List.drop_length]
  have hwritten : step A pb ⟨{ c with link := [], sending := some (frame, frame.length) }, s'⟩
      (.client .written) =
      some ⟨{ c with link := [], sending := none }.afterWrite A pb true, s'⟩ := by
    simp only [step]
    rw [written_all rfl, Option.map_some]
  rw [exec_cons_of_step htransmit, exec_cons_of_step harrive, exec_cons_of_step hwritten,
    exec_nil]

/-- A frame of the server likewise. -/
lemma exec_response {c c' s : Endpoint} {frame : Bytes} (hsending : s.sending = some (frame, 0))
    (hok : s.sendFailed = false) (hlink : s.link = []) (hpos : 0 < frame.length)
    (hdata : c.data A pb frame = some c') :
    exec (step A pb) ⟨c, s⟩
        [.server (.transmit frame.length), .toClient frame.length, .server .written] =
      some ⟨c', { s with link := [], sending := none }.afterWrite A pb true⟩ := by
  have htransmit : step A pb ⟨c, s⟩ (.server (.transmit frame.length)) =
      some ⟨c, { s with link := frame, sending := some (frame, frame.length) }⟩ := by
    simp only [step, transmit_all hsending hok hpos, Option.map_some, hlink, List.nil_append]
  have harrive : step A pb ⟨c, { s with link := frame, sending := some (frame, frame.length) }⟩
      (.toClient frame.length) =
      some ⟨c', { s with link := [], sending := some (frame, frame.length) }⟩ := by
    simp only [step, List.take_length, hdata, Option.map_some, List.drop_length]
  have hwritten : step A pb ⟨c', { s with link := [], sending := some (frame, frame.length) }⟩
      (.server .written) =
      some ⟨c', { s with link := [], sending := none }.afterWrite A pb true⟩ := by
    simp only [step]
    rw [written_all rfl, Option.map_some]
  rw [exec_cons_of_step htransmit, exec_cons_of_step harrive, exec_cons_of_step hwritten,
    exec_nil]

/-- The steps of a handshake without a hitch; `n` and `m` are the lengths of the two frames. -/
def handshakeRun (user : Bytes) (clientId iv : UInt64) (n m : ℕ) : List AuthAction :=
  [.server (.serverAuth iv), .client (.clientAuth user clientId), .client (.transmit n),
    .toServer n, .client .written, .server (.transmit m), .toClient m, .server .written]

/-- Without a conflict of roles a handshake succeeds. -/
lemma handshake_run {ctx : CipherContext} (A : Aead) (hpb : pb.Bounded)
    (hctx : CipherContext.new "chacha20_poly1305" key = some ctx)
    (clientType : MuxConnectionType) (clientFlags serverFlags : NodeFlags) (user : Bytes)
    (clientId : UInt64) {iv : UInt64} (hiv : iv ≤ maxAuthIv)
    (hrole : Endpoint.roleConflict serverFlags
      (Endpoint.authRequest clientFlags user clientId) = false) :
    ∃ n m s, exec (step A pb) (init ctx clientType clientFlags serverFlags)
        (handshakeRun user clientId iv n m) = some s ∧
      (s.client.phase = .ready .idle ∧ s.server.phase = .ready .idle) ∧
      (s.client.sending = none ∧ s.server.sending = none) ∧
      s.client.encrypts = [(0, CipherContext.frameSeals pb (CipherContext.resize 32 key) defaultIv
        (requestEvent (Endpoint.authRequest clientFlags user clientId)))] ∧
      s.server.encrypts = [(0, CipherContext.frameSeals pb (CipherContext.resize 32 key) defaultIv
        (responseEvent iv))] := by
  have hk := CipherContext.keyed_of_new hctx
  obtain ⟨henc, hdec⟩ : ctx.encryptIv = defaultIv ∧ ctx.decryptIv = defaultIv := by
    obtain rfl := Option.some.inj hctx
    exact ⟨rfl, rfl⟩
  obtain ⟨c, hc, hcphase, hcok, hclink, hcdata, hck, hcdec, hcsending, hcencrypts⟩ :=
    clientAuth_new A hpb hk henc clientType clientFlags user clientId
  obtain ⟨s, hs, hsphase, hsok, hslink, hssending, hsencrypts⟩ :=
    serverAuth_new A hpb hk henc hdec serverFlags hrole iv
  obtain ⟨up, hup⟩ : ∃ up, CipherContext.sealedFrame A pb (CipherContext.resize 32 key) defaultIv
      (requestEvent (Endpoint.authRequest clientFlags user clientId)) = up := ⟨_, rfl⟩
  obtain ⟨down, hdown⟩ : ∃ down, CipherContext.sealedFrame A pb (CipherContext.resize 32 key)
      defaultIv (responseEvent iv) = down := ⟨_, rfl⟩
  have hposUp : 0 < up.length := by rw [← hup, CipherContext.length_sealedFrame]; omega
  have hposDown : 0 < down.length := by rw [← hdown, CipherContext.length_sealedFrame]; omega
  rw [hup] at hcsending hs
  rw [hdown] at hssending
  -- The client while it waits for the response.
  have hwaits : ({ c with link := [], sending := none } : Endpoint).afterWrite A pb true =
      { c with link := [], sending := none }.enter (.readingResponse user .empty) := by
    simp only [Endpoint.afterWrite, hcphase, if_true, readEvent_empty hcdata]
    rfl
  obtain ⟨c', hc', hready, hidle, hencrypts⟩ := clientAuth_accepts A hpb
    (c := { c with link := [], sending := none }.enter (.readingResponse user .empty)) rfl hck
    (hcdec.trans hdec) iv
  rw [hdown] at hc'
  have h₁ : step A pb (init ctx clientType clientFlags serverFlags) (.server (.serverAuth iv)) =
      some ⟨.new clientType ctx true clientFlags,
        (Endpoint.new .entry ctx false serverFlags).enter (.readingRequest iv .empty)⟩ := by
    simp only [step, Endpoint.step, init, Endpoint.new, if_pos hiv]
    rfl
  have h₂ : ∀ s₀, step A pb ⟨.new clientType ctx true clientFlags, s₀⟩
      (.client (.clientAuth user clientId)) = some ⟨c, s₀⟩ := by
    intro s₀
    simp only [step, hc, Option.map_some]
  -- The server has answered when its response has been written.
  have hanswers : ({ s with link := [], sending := none } : Endpoint).afterWrite A pb true =
      Endpoint.finishServerAuth { s with link := [], sending := none }
        (Endpoint.authRequest clientFlags user clientId) iv true := by
    simp only [Endpoint.afterWrite, hsphase]
  have hup₁ := exec_request hcsending hcok hclink hposUp hs
  have hdown₁ := exec_response hssending hsok hslink hposDown hc'
  rw [hwaits] at hup₁
  rw [hanswers] at hdown₁
  refine ⟨up.length, down.length, ⟨c', Endpoint.finishServerAuth
    { s with link := [], sending := none } (Endpoint.authRequest clientFlags user clientId) iv
    true⟩, ?_, ⟨hready, rfl⟩, ⟨hidle, rfl⟩, hencrypts.trans hcencrypts, hsencrypts⟩
  rw [handshakeRun, exec_cons_of_step h₁, exec_cons_of_step (h₂ _)]
  exact (exec_append hup₁ _).trans hdown₁

/-- **The handshake.**  A client and a server of the same key run `ClientAuth` and `ServerAuth`
over a transport that keeps the order of bytes and cuts them as it likes, and afterwards write
events that fit a chunk, in any interleaving.  Once both have reported success, both count from
the iv of the `AuthResponse`, and each reads what the other writes; and the server dispatches no
event of a connection on which `ServerAuth` has not reported success. -/
theorem handshake_agrees (A : Aead) (pb : Nanopb) (hpb : pb.Bounded) (key : Bytes)
    (ctx : CipherContext) (hctx : CipherContext.new "chacha20_poly1305" key = some ctx)
    (clientType : MuxConnectionType) (clientFlags serverFlags : NodeFlags)
    (as : List AuthAction) (hfits : ∀ a ∈ as, a.Fits pb) (s : AuthState)
    (h : exec (step A pb) (init ctx clientType clientFlags serverFlags) as = some s) :
    (∀ p q, s.client.phase = .ready p → s.server.phase = .ready q →
        ∃ iv, s.server.authIv = some iv ∧ s.client.authIv = some iv ∧
          Delivers A pb iv s.client s.server ∧ Delivers A pb iv s.server s.client) ∧
      ((∀ q, s.server.phase ≠ .ready q) → s.server.events = []) := by
  have hinv := run_inv hpb hctx hfits h
  constructor
  · intro p q hc hs
    rcases hinv.linked with hfailed | ⟨heldC, heldS, up, down, hask | ⟨iv, hans⟩⟩
    · rw [hc] at hfailed; cases hfailed
    · exact absurd hc hask.client_not_ready
    · obtain ⟨hauth, hreads, horder⟩ := hans.client_reads hc
      refine ⟨iv, hans.authIv, hauth, ?_, ?_⟩
      · exact delivers (hinv.client.counting_of_authIv hc hauth) hinv.server.keyed
          (hans.server_reads hs) heldS up hans.up
      · exact delivers (hinv.server.counting_of_authIv hs hans.authIv) hinv.client.keyed hreads
          heldC down horder
  · exact fun hs => (hinv.server.fresh hs).events

lemma handshakeRun_fits (pb : Nanopb) (user : Bytes) (clientId iv : UInt64) (n m : ℕ) :
    ∀ a ∈ handshakeRun user clientId iv n m, a.Fits pb := by
  intro a ha
  simp only [handshakeRun, List.mem_cons, List.not_mem_nil, or_false] at ha
  rcases ha with rfl | rfl | rfl | rfl | rfl | rfl | rfl | rfl <;> trivial

/-- An authenticated end writes its first event. -/
lemma write_first {e : Endpoint} {seals : List SealCall} (A : Aead)
    (hk : e.reader.cipherCtx.Keyed key) {ev : MuxEvent}
    (hfits : (ev.body.encoded pb).length ≤ kMaxChunkSize) (hphase : e.phase = .ready .idle)
    (hidle : e.sending = none) (hencrypts : e.encrypts = [(0, seals)]) :
    e.step A pb (.write ev) = some (e.write A pb ev) ∧
      (e.write A pb ev).phase = .ready .idle ∧ (e.write A pb ev).written.getLast? = some ev ∧
      (e.write A pb ev).sealedBy.length = 2 := by
  refine ⟨by simp only [Endpoint.step, hphase, hidle],
    (Endpoint.write_phase A pb e ev).1.trans hphase, ?_, ?_⟩
  · rw [(write_accepts (A := A) hk hfits).2, List.getLast?_concat]
  · rw [Endpoint.write, startWrite_eq hk hfits]
    refine (congrArg List.length (Endpoint.sealedBy_concat (e := e) rfl)).trans ?_
    simp [Endpoint.sealedBy, hencrypts]

/-- A handshake without a hitch, and an event that each end writes after it. -/
lemma exchange_run {ctx : CipherContext} (A : Aead) (hpb : pb.Bounded)
    (hctx : CipherContext.new "chacha20_poly1305" key = some ctx)
    (clientType : MuxConnectionType) (clientFlags serverFlags : NodeFlags) (user : Bytes)
    (clientId : UInt64) {iv : UInt64} (hiv : iv ≤ maxAuthIv)
    (hrole : Endpoint.roleConflict serverFlags
      (Endpoint.authRequest clientFlags user clientId) = false) {ev ev' : MuxEvent}
    (hfits : (ev.body.encoded pb).length ≤ kMaxChunkSize)
    (hfits' : (ev'.body.encoded pb).length ≤ kMaxChunkSize) :
    ∃ as s, exec (step A pb) (init ctx clientType clientFlags serverFlags) as = some s ∧
      (∀ a ∈ as, a.Fits pb) ∧
      (s.client.phase = .ready .idle ∧ s.server.phase = .ready .idle) ∧
      (s.client.written.getLast? = some ev ∧ s.server.written.getLast? = some ev') ∧
      s.client.sealedBy.length = 2 ∧ s.server.sealedBy.length = 2 := by
  obtain ⟨n, m, s, hs, ⟨hc, hserver⟩, ⟨hcidle, hsidle⟩, hup, hdown⟩ :=
    handshake_run A hpb hctx clientType clientFlags serverFlags user clientId hiv hrole
  have hruns := handshakeRun_fits pb user clientId iv n m
  have hinv := run_inv hpb hctx hruns hs
  obtain ⟨hstep, hc', hwritten, hsealed⟩ :=
    write_first A hinv.client.keyed hfits hc hcidle hup
  obtain ⟨hstep', hserver', hwritten', hsealed'⟩ :=
    write_first A hinv.server.keyed hfits' hserver hsidle hdown
  have hclient : step A pb s (.client (.write ev)) =
      some { s with client := s.client.write A pb ev } := by
    rw [step, hstep, Option.map_some]
  have hboth : step A pb { s with client := s.client.write A pb ev } (.server (.write ev')) =
      some ⟨s.client.write A pb ev, s.server.write A pb ev'⟩ := by
    rw [step, hstep', Option.map_some]
  have hrun := (exec_append hs [.client (.write ev), .server (.write ev')]).trans
    (by rw [exec_cons_of_step hclient, exec_cons_of_step hboth, exec_nil])
  refine ⟨_, _, hrun, ?_, ⟨hc', hserver'⟩, ⟨hwritten, hwritten'⟩, hsealed, hsealed'⟩
  intro a ha
  rcases List.mem_append.mp ha with ha | ha
  · exact hruns a ha
  · rcases List.mem_pair.mp ha with rfl | rfl
    · exact hfits
    · exact hfits'

/-- An entry node and an exit node, which write an event each. -/
theorem handshake_agrees_entry_exit :
    ∃ ctx as s, CipherContext.new "chacha20_poly1305" [1] = some ctx ∧
      exec (step chacha20Poly1305 protobuf)
        (init ctx .exit { isEntryNode := true } { isExitNode := true }) as = some s ∧
      (s.client.written ≠ [] ∧ s.server.written ≠ []) ∧
      ∃ iv, s.server.authIv = some iv ∧ s.client.authIv = some iv ∧
        Delivers chacha20Poly1305 protobuf iv s.client s.server ∧
        Delivers chacha20Poly1305 protobuf iv s.server s.client := by
  obtain ⟨ctx, hctx⟩ : ∃ ctx, CipherContext.new "chacha20_poly1305" [1] = some ctx := ⟨_, rfl⟩
  have hfits : ((MuxEvent.ofBody .streamCloseRequest).body.encoded protobuf).length ≤
      kMaxChunkSize := by decide
  obtain ⟨as, s, hs, hruns, ⟨hc, hserver⟩, ⟨hup, hdown⟩, -, -⟩ := exchange_run chacha20Poly1305
    length_protobuf_le hctx .exit { isEntryNode := true } { isExitNode := true } [117] 7
    (show (5 : UInt64) ≤ maxAuthIv by decide) rfl hfits hfits
  refine ⟨ctx, as, s, hctx, hs, ⟨?_, ?_⟩, ?_⟩
  · exact List.ne_nil_of_mem (List.mem_of_getLast? hup)
  · exact List.ne_nil_of_mem (List.mem_of_getLast? hdown)
  exact (handshake_agrees chacha20Poly1305 protobuf length_protobuf_le [1] ctx hctx .exit
    { isEntryNode := true } { isExitNode := true } as hruns s hs).1 .idle .idle hc hserver

end AuthState

end Snova
