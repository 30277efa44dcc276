import Mathlib.Data.List.Forall2
import Snova.Model.Nanopb
import Snova.Properties.CipherContext

/-!
# Sequences of frames

Two contexts of one connection, one calling `Encrypt` and the other `Decrypt`.  With the
ChaCha20-Poly1305 cipher, whatever mixture of successful and failing calls the sender makes, the
receiver reads back the events of the successful ones (`decrypt_encryptAll`).  Without a cipher
it does so exactly for events whose length field was right before the call, because that branch
of `Encrypt` writes the head before it knows the length (`plaintext_matches_chacha_iff`).
-/

namespace Snova.CipherContext

variable (A : Aead) (pb : Nanopb)

/-- Successive calls of `Encrypt`, each with its event and the size of its output buffer. -/
def encryptAll (ctx : CipherContext) : List (MuxEvent × ℕ) → List EncryptResult × CipherContext
  | [] => ([], ctx)
  | (ev, outSize) :: calls =>
      let r := ctx.encrypt A pb ev outSize
      let rest := encryptAll r.ctx calls
      (r :: rest.1, rest.2)

/-- The calls that returned 0, with their results. -/
def successful (calls : List (MuxEvent × ℕ)) (results : List EncryptResult) :
    List ((MuxEvent × ℕ) × EncryptResult) :=
  (calls.zip results).filter fun p => p.2.rc = 0

variable {A pb} {key : Bytes} {ctx sender receiver : CipherContext}

lemma Keyed.next_sealedFrame (A : Aead) (hk : ctx.Keyed key) {iv : UInt64}
    (hiv : ctx.decryptIv = iv) {ev : MuxEvent}
    (hbody : (ev.body.encoded pb).length ≤ kMaxChunkSize) :
    ∃ ev', ev'.Same ev ∧ ∀ x, (decoder A pb).next ctx (sealedFrame A pb key iv ev ++ x) =
      .item ev' (sealedFrame A pb key iv ev).length
        { ctx with decryptIv := ctx.decryptIv + 1 } := by
  subst hiv
  obtain ⟨ev', hsame, hdec⟩ :=
    decrypt_sealedFrame A hk (hbody.trans (Nat.le_add_right _ _)) [] none 0
  refine ⟨ev', hsame, fun x => ?_⟩
  have hnext : (decoder A pb).next ctx (sealedFrame A pb key ctx.decryptIv ev) =
      .item ev' (sealedFrame A pb key ctx.decryptIv ev).length
        { ctx with decryptIv := ctx.decryptIv + 1 } := by
    show DecryptResult.outcome _ = _
    rw [List.append_nil] at hdec
    rw [hdec]
    rfl
  exact (decoder A pb).next_append_of_item hnext x

/-- The successful calls leave frames the receiver reads, and the counters stay level. -/
lemma frames_encryptAll (hs : sender.Keyed key) (hr : receiver.Keyed key)
    (hiv : sender.encryptIv = receiver.decryptIv) (calls : List (MuxEvent × ℕ))
    (hbody : List.Forall₂ (fun (call : MuxEvent × ℕ) r =>
      r.rc = 0 → (call.1.body.encoded pb).length ≤ kMaxChunkSize) calls
        (sender.encryptAll A pb calls).1) :
    ∃ items receiver', (decoder A pb).Frames receiver
        ((successful calls (sender.encryptAll A pb calls).1).map (·.2.out)) items receiver' ∧
      List.Forall₂ (fun item p => item.1.Same p.1.1 ∧ item.2 = p.2.out.length) items
        (successful calls (sender.encryptAll A pb calls).1) ∧
      receiver'.Keyed key ∧
      (sender.encryptAll A pb calls).2.encryptIv = receiver'.decryptIv := by
  induction calls generalizing sender receiver with
  | nil => exact ⟨[], receiver, .nil _, .nil, hr, hiv⟩
  | cons call calls ih =>
      obtain ⟨ev, outSize⟩ := call
      have hspec := encrypt_spec A pb hs ev outSize
      simp only [encryptAll, successful] at hbody ⊢
      generalize sender.encrypt A pb ev outSize = r at hbody hspec ⊢
      obtain ⟨hfirst, hrest⟩ := List.forall₂_cons.mp hbody
      cases hspec with
      | fail rc ev' seals nonzero sub =>
          rw [List.zip_cons_cons, List.filter_cons_of_neg (by simpa using nonzero)]
          exact ih hs hr hiv hrest
      | ok =>
          obtain ⟨ev', hsame, hnext⟩ := hr.next_sealedFrame A hiv.symm (hfirst rfl)
          have hiv' : sender.encryptIv + 1 = receiver.decryptIv + 1 := by rw [hiv]
          obtain ⟨items, receiver', hframes, hitems, hr', hiv''⟩ :=
            ih (hs.withIvs _ _) (hr.withIvs receiver.encryptIv (receiver.decryptIv + 1)) hiv' hrest
          rw [List.zip_cons_cons, List.filter_cons_of_pos (by simp)]
          exact ⟨_, receiver', .cons hnext hframes, .cons ⟨hsame, rfl⟩ hitems, hr', hiv''⟩

/-- A body that fits a chunk is accepted, wherever in the sequence its call stands. -/
lemma encryptAll_rc (A : Aead) (pb : Nanopb) (hs : sender.Keyed key)
    (calls : List (MuxEvent × ℕ)) :
    List.Forall₂ (fun (call : MuxEvent × ℕ) r =>
        (call.1.body.encoded pb).length ≤ kMaxChunkSize →
          kEventHeadSize + kMaxChunkSize + 2 * 16 ≤ call.2 → r.rc = 0)
      calls (sender.encryptAll A pb calls).1 := by
  induction calls generalizing sender with
  | nil => exact .nil
  | cons call calls ih =>
      obtain ⟨ev, outSize⟩ := call
      exact .cons (fun hbody hout => encrypt_rc_of_le hs hbody (by rwa [hs.tagLen]))
        (ih (hs.encrypt ev outSize))

/-- **A connection's receiver reads what its sender wrote.**  The sender makes any calls of
`Encrypt` whose successful ones have bodies of at most `kMaxChunkSize` bytes.  Each call with
such a body and a buffer of the documented size succeeds; and `Decrypt`, applied again and again
to the concatenated outputs of the successful calls, returns their events in order, each call
consuming exactly one output, until nothing is left and the two counters are equal again. -/
theorem decrypt_encryptAll (A : Aead) (pb : Nanopb) (key : Bytes)
    (sender receiver : CipherContext)
    (hs : sender.FromNew "chacha20_poly1305" key)
    (hr : receiver.FromNew "chacha20_poly1305" key)
    (hiv : sender.encryptIv = receiver.decryptIv)
    (calls : List (MuxEvent × ℕ)) (results : List EncryptResult) (sender' : CipherContext)
    (hrun : sender.encryptAll A pb calls = (results, sender'))
    (hbody : List.Forall₂ (fun (call : MuxEvent × ℕ) r =>
      r.rc = 0 → (call.1.body.encoded pb).length ≤ kMaxChunkSize) calls results) :
    List.Forall₂ (fun (call : MuxEvent × ℕ) r =>
        (call.1.body.encoded pb).length ≤ kMaxChunkSize →
          kEventHeadSize + kMaxChunkSize + 2 * sender.cipherTagLen ≤ call.2 → r.rc = 0)
      calls results ∧
    ∃ items receiver',
      (decoder A pb).decodeAll receiver
          ((successful calls results).map (·.2.out)).flatten = ⟨items, none, [], receiver'⟩ ∧
        List.Forall₂ (fun item p => item.1.Same p.1.1 ∧ item.2 = p.2.out.length) items
          (successful calls results) ∧
        sender'.encryptIv = receiver'.decryptIv := by
  have hresults : results = (sender.encryptAll A pb calls).1 := by rw [hrun]
  have hsender' : sender' = (sender.encryptAll A pb calls).2 := by rw [hrun]
  subst hresults hsender'
  refine ⟨?_, ?_⟩
  · rw [hs.keyed.tagLen]
    exact encryptAll_rc A pb hs.keyed calls
  · obtain ⟨items, receiver', hframes, hitems, hr', hiv'⟩ :=
      frames_encryptAll hs.keyed hr.keyed hiv calls hbody
    exact ⟨items, receiver', hframes.decodeAll_eq (next_nil _), hitems, hiv'⟩

/-- A chunk, a call whose buffer is too small, an event without a body and a chunk that stays
unencrypted. -/
def sampleCalls : List (MuxEvent × ℕ) :=
  [(.ofBody (.streamChunk (some [104, 105]) 2 (by decide)) 7, 8456),
    (.ofBody (.streamChunk (some [104, 105]) 2 (by decide)) 7, 100),
    (.ofBody .streamCloseRequest 7, 8456),
    (.ofBody (.streamChunk (some [33]) 1 (by decide)) 9 ⟨true, 0⟩, 8456)]

theorem decrypt_encryptAll_sampleCalls :
    ∃ ctx, new "chacha20_poly1305" [1, 2, 3] = some ctx ∧
      ∃ items receiver',
        (decoder chacha20Poly1305 protobuf).decodeAll ctx
            ((successful sampleCalls (ctx.encryptAll chacha20Poly1305 protobuf sampleCalls).1).map
              (·.2.out)).flatten = ⟨items, none, [], receiver'⟩ ∧
          List.Forall₂ (fun item p => item.1.Same p.1.1 ∧ item.2 = p.2.out.length) items
            (successful sampleCalls (ctx.encryptAll chacha20Poly1305 protobuf sampleCalls).1) ∧
          (ctx.encryptAll chacha20Poly1305 protobuf sampleCalls).2.encryptIv =
            receiver'.decryptIv := by
  obtain ⟨ctx, hctx⟩ : ∃ ctx, new "chacha20_poly1305" [1, 2, 3] = some ctx := ⟨_, rfl⟩
  have hnew : ctx.FromNew "chacha20_poly1305" [1, 2, 3] := ⟨ctx, hctx, rfl⟩
  have hsmall : ∀ call ∈ sampleCalls, (call.1.body.encoded protobuf).length ≤ kMaxChunkSize := by
    decide
  have hcalls := (List.forall₂_and_left _ _).mpr
    ⟨hsmall, encryptAll_rc chacha20Poly1305 protobuf hnew.keyed sampleCalls⟩
  refine ⟨ctx, hctx, ?_⟩
  exact (decrypt_encryptAll chacha20Poly1305 protobuf [1, 2, 3] ctx ctx hnew hnew
    (encryptIv_of_new hctx) sampleCalls _ _ Prod.mk.eta.symm (hcalls.imp fun _ _ h _ => h.1)).2

/-! ## The plaintext mode -/

/-- Two events with the same type, stream and content. -/
def SameContent (a b : MuxEvent) : Prop :=
  a.head.type = b.head.type ∧ a.head.sid = b.head.sid ∧ a.body.payload = b.body.payload

/-- `Decrypt` undoes `Encrypt` on this event: it succeeds, consumes exactly the bytes that were
written, and yields the same content. -/
def RoundTrips (A : Aead) (pb : Nanopb) (ctx : CipherContext) (outSize : ℕ) (ev : MuxEvent) :
    Prop :=
  (ctx.encrypt A pb ev outSize).rc = 0 ∧
    ∃ ev' ctx', ctx.decrypt A pb (ctx.encrypt A pb ev outSize).out =
        ⟨0, some ev', (ctx.encrypt A pb ev outSize).out.length, ctx'⟩ ∧
      SameContent ev' ev

/-- The events a receiver gets when a sender encrypts a sequence of events. -/
def delivered (A : Aead) (pb : Nanopb) (ctx : CipherContext) (outSize : ℕ)
    (evs : List MuxEvent) : List MuxEvent :=
  ((decoder A pb).decodeAll ctx
    ((ctx.encryptAll A pb (evs.map (·, outSize))).1.map (·.out)).flatten).items.map (·.1)

lemma Plain.withIvs (hp : ctx.Plain) (e d : UInt64) :
    Plain { ctx with encryptIv := e, decryptIv := d } :=
  ⟨hp.encryptCtx, hp.decryptCtx, hp.tagLen⟩

/-- Without a cipher an event round-trips exactly when its length field was right. -/
lemma Plain.roundTrips_iff (hp : ctx.Plain) {outSize : ℕ} {ev : MuxEvent}
    (hout : kEventHeadSize + kMaxChunkSize ≤ outSize)
    (hbody : (ev.body.encoded pb).length ≤ kMaxChunkSize) :
    RoundTrips A pb ctx outSize ev ↔ ev.head.len.toNat = (ev.body.encoded pb).length := by
  rw [RoundTrips, hp.encrypt_eq hbody hout]
  constructor
  · rintro ⟨-, ev', ctx', hdec, -⟩
    have hlen : (ctx.decrypt A pb (ev.head.encode ++ ev.body.encoded pb)).decryptLen =
        kEventHeadSize + ev.head.len.toNat := hp.decryptLen_eq (by rw [hdec])
    rw [hdec] at hlen
    simp only [List.length_append, MuxEventHead.length_encode] at hlen
    omega
  · intro hlen
    obtain ⟨ev', hsame, hdec⟩ := hp.decrypt_frame (A := A) hlen hbody [] none 0
    rw [List.append_nil] at hdec
    exact ⟨rfl, ev', _, hdec, hsame.type, hsame.sid, hsame.payload⟩

lemma Plain.encryptAll_outs (hp : ctx.Plain) {outSize : ℕ} {evs : List MuxEvent}
    (hout : kEventHeadSize + kMaxChunkSize ≤ outSize)
    (hbody : ∀ ev ∈ evs, (ev.body.encoded pb).length ≤ kMaxChunkSize) :
    (ctx.encryptAll A pb (evs.map (·, outSize))).1.map (·.out) =
      evs.map fun ev => ev.head.encode ++ ev.body.encoded pb := by
  induction evs with
  | nil => rfl
  | cons ev evs ih =>
      have hfirst := hbody ev List.mem_cons_self
      have hrest := ih fun ev' h => hbody ev' (List.mem_cons_of_mem _ h)
      simp only [List.map_cons, encryptAll, hp.encrypt_eq hfirst hout, hrest]

lemma Plain.frames (hp : ctx.Plain) (evs : List MuxEvent)
    (hlen : ∀ ev ∈ evs, ev.head.len.toNat = (ev.body.encoded pb).length)
    (hbody : ∀ ev ∈ evs, (ev.body.encoded pb).length ≤ kMaxChunkSize) :
    ∃ items ctx', (decoder A pb).Frames ctx
        (evs.map fun ev => ev.head.encode ++ ev.body.encoded pb) items ctx' ∧
      List.Forall₂ (fun ev' ev => ev'.Same ev) (items.map (·.1)) evs ∧ ctx'.Plain := by
  induction evs generalizing ctx with
  | nil => exact ⟨[], ctx, .nil _, .nil, hp⟩
  | cons ev evs ih =>
      obtain ⟨ev', hsame, hdec⟩ := hp.decrypt_frame (A := A) (hlen ev List.mem_cons_self)
        (hbody ev List.mem_cons_self) [] none 0
      obtain ⟨items, ctx', hframes, hitems, hp'⟩ :=
        ih (hp.withIvs ctx.encryptIv (ctx.decryptIv + 1))
          (fun e h => hlen e (List.mem_cons_of_mem _ h))
          (fun e h => hbody e (List.mem_cons_of_mem _ h))
      have hnext : (decoder A pb).next ctx (ev.head.encode ++ ev.body.encoded pb) =
          .item ev' (ev.head.encode ++ ev.body.encoded pb).length
            { ctx with decryptIv := ctx.decryptIv + 1 } := by
        show DecryptResult.outcome _ = _
        rw [List.append_nil] at hdec
        rw [hdec]
        rfl
      exact ⟨_, ctx', .cons ((decoder A pb).next_append_of_item hnext) hframes,
        .cons hsame hitems, hp'⟩

lemma Plain.delivered_same (hp : ctx.Plain) {outSize : ℕ} {evs : List MuxEvent}
    (hout : kEventHeadSize + kMaxChunkSize ≤ outSize)
    (hlen : ∀ ev ∈ evs, ev.head.len.toNat = (ev.body.encoded pb).length)
    (hbody : ∀ ev ∈ evs, (ev.body.encoded pb).length ≤ kMaxChunkSize) :
    List.Forall₂ (fun ev' ev => ev'.Same ev) (delivered A pb ctx outSize evs) evs := by
  obtain ⟨items, ctx', hframes, hitems, hp'⟩ := hp.frames (A := A) evs hlen hbody
  rw [delivered, hp.encryptAll_outs hout hbody, hframes.decodeAll_eq (next_nil _)]
  exact hitems

/-- When every call succeeds, the successful calls are all of them. -/
lemma successful_eq_zip {outSize : ℕ} {evs : List MuxEvent} {results : List EncryptResult}
    (h : List.Forall₂ (fun _ r => r.rc = 0) (evs.map (·, outSize)) results) :
    (successful (evs.map (·, outSize)) results).map (·.2.out) = results.map (·.out) ∧
      (successful (evs.map (·, outSize)) results).map (·.1.1) = evs := by
  have hlen := h.length_eq
  have hall : successful (evs.map (·, outSize)) results = (evs.map (·, outSize)).zip results := by
    refine List.filter_eq_self.mpr fun p hp => ?_
    simpa using List.forall₂_zip h hp
  constructor
  · calc (successful (evs.map (·, outSize)) results).map (·.2.out)
        = (((evs.map (·, outSize)).zip results).map Prod.snd).map (·.out) := by
          rw [hall, List.map_map]; rfl
      _ = results.map (·.out) := by rw [List.map_snd_zip hlen.ge]
  · calc (successful (evs.map (·, outSize)) results).map (·.1.1)
        = (((evs.map (·, outSize)).zip results).map Prod.fst).map Prod.fst := by
          rw [hall, List.map_map]; rfl
      _ = evs := by rw [List.map_fst_zip hlen.le, List.map_map]; exact List.map_id evs

/-- With a cipher the events arrive whatever their length fields were. -/
lemma Keyed.delivered_same (hk : ctx.Keyed key) (hiv : ctx.encryptIv = ctx.decryptIv)
    {outSize : ℕ} {evs : List MuxEvent}
    (hout : kEventHeadSize + kMaxChunkSize + 2 * 16 ≤ outSize)
    (hbody : ∀ ev ∈ evs, (ev.body.encoded pb).length ≤ kMaxChunkSize) :
    List.Forall₂ (fun ev' ev => ev'.Same ev) (delivered A pb ctx outSize evs) evs := by
  have hsmall : ∀ call ∈ evs.map (·, outSize),
      (call.1.body.encoded pb).length ≤ kMaxChunkSize ∧ call.2 = outSize := by
    intro call hcall
    obtain ⟨ev, hev, rfl⟩ := List.mem_map.mp hcall
    exact ⟨hbody ev hev, rfl⟩
  have hall := (List.forall₂_and_left _ _).mpr ⟨hsmall, encryptAll_rc A pb hk _⟩
  have hrc := hall.imp fun call r h => h.2 h.1.1 (by rw [h.1.2]; exact hout)
  have hfits := hall.imp fun call r h (_ : r.rc = 0) => h.1.1
  obtain ⟨houts, hevs⟩ := successful_eq_zip hrc
  obtain ⟨items, ctx', hframes, hitems, hk', -⟩ := frames_encryptAll hk hk hiv _ hfits
  rw [delivered, ← houts, hframes.decodeAll_eq (next_nil _)]
  have hsame : List.Forall₂ (fun ev' ev : MuxEvent => ev'.Same ev) (items.map (·.1))
      ((successful (evs.map (·, outSize))
        (ctx.encryptAll A pb (evs.map (·, outSize))).1).map (·.1.1)) :=
    List.forall₂_map_left_iff.mpr (List.forall₂_map_right_iff.mpr (hitems.imp fun _ _ h => h.1))
  rwa [hevs] at hsame

lemma forall₂_sameContent {xs ys evs : List MuxEvent}
    (hx : List.Forall₂ (fun ev' ev => ev'.Same ev) xs evs)
    (hy : List.Forall₂ (fun ev' ev => ev'.Same ev) ys evs) : List.Forall₂ SameContent xs ys := by
  induction hx generalizing ys with
  | nil =>
      cases hy
      exact .nil
  | cons hfirst hrest ih =>
      cases hy with
      | cons hfirst' hrest' =>
          exact .cons ⟨hfirst.type.trans hfirst'.type.symm, hfirst.sid.trans hfirst'.sid.symm,
            hfirst.payload.trans hfirst'.payload.symm⟩ (ih hrest')

/-- **When the plaintext mode works.**  For events with bodies of at most `kMaxChunkSize` bytes:
each of them round-trips with the method `none`, and the sequence arrives as it does with
`chacha20_poly1305`, exactly when every event enters `Encrypt` with its length field already
equal to the length of its encoded body.  For an event as its constructor leaves it that means
an empty body. -/
theorem plaintext_matches_chacha_iff (A : Aead) (pb : Nanopb) (key key' : Bytes)
    (plain chacha : CipherContext)
    (hplain : new "none" key = some plain)
    (hchacha : new "chacha20_poly1305" key' = some chacha)
    (outSize : ℕ) (hout : kEventHeadSize + kMaxChunkSize + 2 * chacha.cipherTagLen ≤ outSize)
    (evs : List MuxEvent)
    (hbody : ∀ ev ∈ evs, (ev.body.encoded pb).length ≤ kMaxChunkSize) :
    ((∀ ev ∈ evs, RoundTrips A pb plain outSize ev) ∧
        List.Forall₂ SameContent (delivered A pb plain outSize evs)
          (delivered A pb chacha outSize evs)) ↔
      ∀ ev ∈ evs, ev.head.len.toNat = (ev.body.encoded pb).length := by
  have hp := plain_of_new hplain
  have hk := keyed_of_new hchacha
  have hiv : chacha.encryptIv = chacha.decryptIv := encryptIv_of_new hchacha
  rw [hk.tagLen] at hout
  constructor
  · rintro ⟨hround, -⟩ ev hev
    exact (hp.roundTrips_iff (by omega) (hbody ev hev)).mp (hround ev hev)
  · intro hlen
    refine ⟨fun ev hev => (hp.roundTrips_iff (by omega) (hbody ev hev)).mpr (hlen ev hev), ?_⟩
    exact forall₂_sameContent (hp.delivered_same (by omega) hlen hbody)
      (hk.delivered_same hiv hout hbody)

/-- A chunk of one byte, as `StreamChunk` and its caller fill it in. -/
def oneByteChunk : MuxEvent := .ofBody (.streamChunk (some [65]) 1 (by decide)) 1

/-- Two events without a body, and between them the chunk with its length field filled in. -/
def filledEvents : List MuxEvent :=
  [.ofBody .streamCloseRequest 3,
    { oneByteChunk with head := { oneByteChunk.head with len := 1 } }, .ofBody .streamCloseRequest 1]

/-- The equivalence above at events with and without a body. -/
theorem plaintext_matches_chacha_filled :
    ∃ plain chacha, new "none" [] = some plain ∧ new "chacha20_poly1305" [1] = some chacha ∧
      ((∀ ev ∈ filledEvents, RoundTrips chacha20Poly1305 protobuf plain 8456 ev) ∧
        List.Forall₂ SameContent (delivered chacha20Poly1305 protobuf plain 8456 filledEvents)
          (delivered chacha20Poly1305 protobuf chacha 8456 filledEvents)) := by
  refine ⟨_, _, rfl, rfl, ?_⟩
  exact (plaintext_matches_chacha_iff chacha20Poly1305 protobuf [] [1] _ _ rfl rfl 8456
    (by decide) filledEvents (by decide)).mpr (by decide)

/-- With the method `none` the receiver of a one-byte chunk takes the eight bytes of the head
for the whole frame. -/
theorem plaintext_loses_oneByteChunk :
    ∃ plain, new "none" [] = some plain ∧
      (oneByteChunk.body.encoded protobuf).length ≤ kMaxChunkSize ∧
      (plain.encrypt chacha20Poly1305 protobuf oneByteChunk 8456).out.length = 9 ∧
      (plain.decrypt chacha20Poly1305 protobuf
        (plain.encrypt chacha20Poly1305 protobuf oneByteChunk 8456).out).decryptLen = 8 ∧
      ¬ RoundTrips chacha20Poly1305 protobuf plain 8456 oneByteChunk := by
  refine ⟨_, rfl, by decide, by decide, by decide, ?_⟩
  rintro ⟨-, ev', ctx', hdec, -⟩
  have hlen : (8 : ℕ) = 9 := congrArg DecryptResult.decryptLen hdec
  omega

end Snova.CipherContext
