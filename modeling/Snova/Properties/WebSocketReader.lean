import Snova.Model.WebSocketReader
import Snova.Properties.Connection
import Snova.Properties.WebSocket

/-!
# Events pass through a WebSocket

A node behind a WebSocket reads through three buffers: `BufferedIO` cuts the stream into pieces,
`WebSocket::AsyncRead` puts the frames of the WebSocket together again, and `ReadEvent` decrypts.
A read that has enough bytes has the same result however many more arrive (`wsAsyncRead_push`), so
a read of a frame that has not arrived completely can only wait, and one of a frame that has
returns its payload.  The payload of a frame is a whole frame of the cipher; so when the next one
is read nothing is left in `read_buffer_` and the whole of it is free (`readBufferSize`).
-/

namespace Snova

open CipherContext (Keyed sealedFrame decoder)

variable {A : Aead} {pb : Nanopb}

/-! ## More bytes do not change a result -/

namespace BufferedIo

/-- A further piece has arrived. -/
def push (io : BufferedIo) (piece : Bytes) : BufferedIo :=
  { io with source := io.source ++ [.ok piece] }

/-- A further piece has arrived behind what a read has left. -/
def pushed {α : Type} (piece : Bytes) : Except IoStop (α × BufferedIo) →
    Except IoStop (α × BufferedIo)
  | .ok (a, io) => .ok (a, io.push piece)
  | .error stop => .error stop

lemma remaining_push (io : BufferedIo) (piece : Bytes) :
    (io.push piece).remaining = io.remaining ++ piece := by
  simp [remaining, push, Except.toOption]

lemma Delivers.push {io : BufferedIo} (h : io.Delivers) {piece : Bytes} (hne : piece ≠ []) :
    (io.push piece).Delivers := by
  intro r hr
  rcases List.mem_append.mp hr with hr | hr
  · exact h r hr
  · exact ⟨piece, hne, List.mem_singleton.mp hr⟩

lemma Delivers.of_push {io : BufferedIo} {piece : Bytes} (h : (io.push piece).Delivers) :
    io.Delivers :=
  fun r hr => h r (List.mem_append_left _ hr)

/-- A read has the same result when a further piece arrives, unless it has to wait for it. -/
def Settled {α : Type} (f : BufferedIo → Except IoStop (α × BufferedIo)) (io : BufferedIo) : Prop :=
  ∀ piece, f io ≠ .error .waiting → f (io.push piece) = pushed piece (f io)

/-- Reads one after the other. -/
lemma Settled.bind {α β : Type} {f : BufferedIo → Except IoStop (α × BufferedIo)}
    {g : α → BufferedIo → Except IoStop (β × BufferedIo)} {io : BufferedIo} (hf : Settled f io)
    (hg : ∀ a io', f io = .ok (a, io') → Settled (g a) io') :
    Settled (fun io => f io >>= fun r => g r.1 r.2) io := by
  intro piece hne
  dsimp only at hne ⊢
  have hfirst : f io ≠ .error .waiting := by
    intro hwait
    rw [hwait] at hne
    exact hne rfl
  rw [hf piece hfirst]
  cases hresult : f io with
  | error stop => rfl
  | ok r =>
      rw [hresult] at hne
      exact hg r.1 r.2 hresult piece hne

lemma settled_asyncRead (size : ℕ) (io : BufferedIo) :
    Settled (fun io => io.asyncRead size) io := by
  intro piece hne
  by_cases hempty : io.recvBuffer.length ≤ io.offset
  · cases hsource : io.source with
    | nil => simp [asyncRead, hempty, hsource] at hne
    | cons r source => cases r <;> simp [asyncRead, push, pushed, copyOut, hempty, hsource]
  · simp [asyncRead, push, pushed, copyOut, hempty]

/-- `read_exact` is a read and the rest of it. -/
lemma readExact_of_pos (io : BufferedIo) {n : ℕ} (hn : 0 < n) :
    io.readExact n = io.asyncRead n >>= fun r =>
      r.2.readExact (n - r.1.length) >>= fun r' => pure (r.1 ++ r'.1, r'.2) := by
  rw [readExact, dif_pos hn]
  split
  · next hstop =>
      rw [hstop]
      rfl
  · next data io' hok =>
      conv_rhs => rw [hok]
      show _ = (io'.readExact (n - data.length) >>= fun r' => pure (data ++ r'.1, r'.2))
      split
      · next hstop =>
          rw [hstop]
          rfl
      · next hmore =>
          rw [hmore]
          rfl

lemma readExact_zero (io : BufferedIo) : io.readExact 0 = .ok ([], io) := by
  rw [readExact, dif_neg (Nat.lt_irrefl 0)]

lemma settled_readExact (n : ℕ) (io : BufferedIo) : Settled (fun io => io.readExact n) io := by
  induction hm : io.source.length + n using Nat.strongRecOn generalizing io n with
  | _ m ih =>
      by_cases hpos : 0 < n
      · have heq : (fun io : BufferedIo => io.readExact n) = fun io => io.asyncRead n >>= fun r =>
            r.2.readExact (n - r.1.length) >>= fun r' => pure (r.1 ++ r'.1, r'.2) :=
          funext fun io => readExact_of_pos io hpos
        rw [heq]
        refine Settled.bind (f := fun io => io.asyncRead n) (g := fun data io' =>
          io'.readExact (n - data.length) >>= fun r' => pure (data ++ r'.1, r'.2))
          (settled_asyncRead n io) fun data io' hread => ?_
        have hless := asyncRead_decreases hread hpos
        refine Settled.bind (g := fun more io'' => pure (data ++ more, io''))
          (ih _ (by omega) (n - data.length) io' rfl) fun more io'' _ => ?_
        exact fun _ _ => rfl
      · have hzero : n = 0 := by omega
        subst hzero
        intro piece _
        simp only [readExact_zero]
        rfl

end BufferedIo

open BufferedIo (Settled)

lemma settled_wsReadLength (framePayloadLen : UInt8) (io : BufferedIo) :
    Settled (fun io => wsReadLength io framePayloadLen) io := by
  simp only [wsReadLength]
  split
  · exact Settled.bind (g := fun dataLen io => pure (ofBE dataLen, io))
      (BufferedIo.settled_readExact 2 io) fun dataLen io' _ _ _ => rfl
  · split
    · exact Settled.bind (g := fun dataLen io => pure (ofBE dataLen, io))
        (BufferedIo.settled_readExact 8 io) fun dataLen io' _ _ _ => rfl
    · exact fun _ _ => rfl

/-- A frame behind its length. -/
def wsReadPayload (size : ℕ) (frameMask : UInt8) (dataMsgLen : ℕ) (io : BufferedIo) :
    Except IoStop (Bytes × BufferedIo) :=
  if size < dataMsgLen then throw (.error noBufferSpace)
  else if frameMask = 1 then
    io.readExact 4 >>= fun r =>
      r.2.readExact dataMsgLen >>= fun r' => pure (maskPayload r.1 r'.1, r'.2)
  else io.readExact dataMsgLen

lemma wsAsyncRead_eq (io : BufferedIo) (size : ℕ) :
    wsAsyncRead io size = io.readExact 2 >>= fun r =>
      wsReadLength r.2 (r.1.getD 1 0 &&& 0x7F) >>= fun r' =>
        wsReadPayload size (r.1.getD 1 0 >>> 7) r'.1 r'.2 := by
  rfl

lemma settled_wsReadPayload (size : ℕ) (frameMask : UInt8) (dataMsgLen : ℕ) (io : BufferedIo) :
    Settled (wsReadPayload size frameMask dataMsgLen) io := by
  simp only [wsReadPayload, Settled]
  split
  · exact fun _ _ => rfl
  · split
    · exact Settled.bind (g := fun key io => io.readExact dataMsgLen >>= fun r =>
          pure (maskPayload key r.1, r.2)) (BufferedIo.settled_readExact 4 io) fun key io' _ =>
        Settled.bind (g := fun data io => pure (maskPayload key data, io))
          (BufferedIo.settled_readExact dataMsgLen io') fun data io'' _ _ _ => rfl
    · exact BufferedIo.settled_readExact dataMsgLen io

/-- A read of the WebSocket has the same result when a further piece arrives, unless it has to
wait for it. -/
lemma settled_wsAsyncRead (size : ℕ) (io : BufferedIo) :
    Settled (fun io => wsAsyncRead io size) io := by
  simp only [wsAsyncRead_eq]
  refine Settled.bind (g := fun (header : Bytes) io =>
    wsReadLength io (header.getD 1 0 &&& 0x7F) >>=
      fun r => wsReadPayload size (header.getD 1 0 >>> 7) r.1 r.2)
      (BufferedIo.settled_readExact 2 io) fun header io' _ => ?_
  exact Settled.bind (g := fun dataMsgLen io =>
    wsReadPayload size (header.getD 1 0 >>> 7) dataMsgLen io)
      (settled_wsReadLength _ io') fun dataMsgLen io'' _ => settled_wsReadPayload _ _ _ io''

/-! ## One frame of the stream -/

/-- A read that has a part of a frame, and not the whole of it, waits. A read that has the whole
frame returns its payload. -/
lemma wsAsyncRead_of_prefix {io : BufferedIo} (hio : io.Delivers) {isServer : Bool}
    {maskKey payload rest more : Bytes} {size : ℕ} (hkey : maskKey.length = 4)
    (hlen : payload.length < 2 ^ 64) (hsize : payload.length ≤ size)
    (hremaining : io.remaining ++ more = wsAsyncWrite isServer maskKey payload ++ rest) :
    wsAsyncRead io size = .error .waiting ∧ more ≠ [] ∨
      ∃ io', wsAsyncRead io size = .ok (payload, io') ∧ io'.Delivers ∧
        io'.remaining ++ more = rest := by
  by_cases hmore : more = []
  · subst hmore
    rw [List.append_nil] at hremaining
    obtain ⟨io', hread, hio', hrest⟩ := wsAsyncRead_frame hio hkey hlen hsize hremaining
    exact .inr ⟨io', hread, hio', by rw [List.append_nil, hrest]⟩
  · by_cases hwait : wsAsyncRead io size = .error .waiting
    · exact .inl ⟨hwait, hmore⟩
    · have hall : (io.push more).remaining = wsAsyncWrite isServer maskKey payload ++ rest := by
        rw [BufferedIo.remaining_push, hremaining]
      obtain ⟨io'', hread, hio'', hrest⟩ :=
        wsAsyncRead_frame (hio.push hmore) hkey hlen hsize hall
      have hpushed := settled_wsAsyncRead size io more hwait
      dsimp only at hpushed
      rw [hread] at hpushed
      cases hresult : wsAsyncRead io size with
      | error stop =>
          rw [hresult] at hpushed
          cases hpushed
      | ok r =>
          obtain ⟨data, io'⟩ := r
          rw [hresult] at hpushed
          obtain ⟨rfl, rfl⟩ := Prod.mk.inj (Except.ok.inj hpushed)
          exact .inr ⟨io', rfl, hio''.of_push, by rw [← hrest, BufferedIo.remaining_push]⟩

lemma asyncRead_of_nil {io : BufferedIo} (hio : io.Delivers) (hnone : io.remaining = [])
    (size : ℕ) : io.asyncRead size = .error .waiting := by
  obtain ⟨hbuffer, hsource⟩ := List.append_eq_nil_iff.mp hnone
  rw [BufferedIo.asyncRead, if_pos (List.drop_eq_nil_iff.mp hbuffer)]
  cases hpieces : io.source with
  | nil => rfl
  | cons r source =>
      obtain ⟨data, hne, rfl⟩ := hio r (by rw [hpieces]; exact List.mem_cons_self)
      rw [hpieces] at hsource
      exact absurd (List.append_eq_nil_iff.mp hsource).1 hne

/-- A read waits when there is nothing to read. -/
lemma wsAsyncRead_of_nil {io : BufferedIo} (hio : io.Delivers) (hnone : io.remaining = [])
    (size : ℕ) : wsAsyncRead io size = .error .waiting := by
  rw [wsAsyncRead_eq, BufferedIo.readExact_of_pos io (by decide), asyncRead_of_nil hio hnone]
  rfl

/-! ## Runs -/

lemma ReaderState.afterRead_disconnected {s : ReaderState} {p : Reader × ReadStatus} {rc : Int} :
    (s.afterRead p).phase ≠ .disconnected rc := by
  rw [afterRead]
  split
  · simp
  · split <;> simp

/-- Only an error of the transport disconnects the reader. -/
lemma ReaderState.step_connected {s s' : ReaderState} {a : ReaderAction}
    (h : step A pb s a = some s') (ha : ∀ rc, a ≠ .error rc) (rc : Int) :
    s'.phase ≠ .disconnected rc := by
  cases a with
  | readEvent =>
      simp only [step] at h
      split at h
      · obtain rfl := Option.some.inj h
        exact afterRead_disconnected
      · cases h
  | data bs =>
      simp only [step] at h
      split at h
      · split at h
        · obtain rfl := Option.some.inj h
          exact afterRead_disconnected
        · cases h
      · cases h
  | error rc => exact absurd rfl (ha rc)

namespace WebSocketReader

variable {s s' : WebSocketReader} {receiver : CipherContext} {key : Bytes} {isServer : Bool}
  {keys : List Bytes} {calls : List (ℕ × MuxEvent)} {more : Bytes} {k : ℕ}

/-- What an action brings from the TCP connection. -/
def arrived : WebSocketReaderAction → Bytes
  | .arrive piece => piece
  | _ => []

/-- The frames of the WebSocket, masking keys and payloads: the payloads are the frames of the
cipher. -/
def wsFrames (A : Aead) (pb : Nanopb) (key : Bytes) (iv : UInt64) (keys : List Bytes)
    (calls : List (ℕ × MuxEvent)) : List (Bytes × Bytes) :=
  keys.zip (WriterState.frames A pb key iv calls)

/-- After `k` frames of the WebSocket, with `more` still to arrive: the reader has got the payloads
of these frames, and the rest of the stream has not been read. -/
structure Passed (A : Aead) (pb : Nanopb) (key : Bytes) (receiver : CipherContext)
    (isServer : Bool) (keys : List Bytes) (calls : List (ℕ × MuxEvent)) (more : Bytes)
    (s : WebSocketReader) (k : ℕ) : Prop where
  le : k ≤ calls.length
  delivers : s.io.Delivers
  remaining : s.io.remaining ++ more =
    wsStream isServer ((wsFrames A pb key receiver.decryptIv keys calls).drop k)
  received : s.reader.received =
    (WriterState.frames A pb key receiver.decryptIv (calls.take k)).flatten
  reading : ∃ items, ReaderState.ReadInv A pb receiver s.reader items
  connected : ∀ rc, s.reader.phase ≠ .disconnected rc

lemma passed_init (htag : receiver.cipherTagLen ≤ 16)
    (hmore : more = wsStream isServer (wsFrames A pb key receiver.decryptIv keys calls)) :
    Passed A pb key receiver isServer keys calls more (init receiver) 0 where
  le := Nat.zero_le _
  delivers := fun r hr => by cases hr
  remaining := hmore
  received := rfl
  reading := ⟨[], htag, rfl, Nat.zero_le _, rfl, rfl⟩
  connected := fun rc h => by cases h

/-- A reader that waits has nothing left in its buffer. -/
lemma Passed.len_eq_zero (h : Passed A pb key receiver isServer keys calls more s k)
    (hr : receiver.Keyed key) (hbody : ∀ x ∈ calls, (x.2.body.encoded pb).length ≤ kMaxChunkSize)
    {current : Span} (hphase : s.reader.phase = .reading current) :
    current.len = 0 ∧ s.reader.events.length = k := by
  obtain ⟨items, hreading⟩ := h.reading
  have hreceived : s.reader.received =
      (WriterState.frames A pb key receiver.decryptIv (calls.take k)).flatten ++ [] := by
    rw [List.append_nil, h.received]
  obtain ⟨-, hall⟩ := hreading.waiting hr rfl (fun x hx => hbody x (List.mem_of_mem_take hx))
    hphase hreceived
  obtain ⟨hlength, hnone⟩ := hall rfl
  have hinv := hreading.phase
  rw [ReaderState.PhaseInv, hphase, hnone] at hinv
  obtain ⟨-, hfront, hroom⟩ := hinv
  have hlen := congrArg List.length hfront
  rw [List.length_take, s.reader.reader.readBuffer.size, List.length_nil] at hlen
  have hle := h.le
  rw [← hreading.events, List.length_map, hlength, List.length_take]
  omega

/-- A frame of the cipher fits the buffer of the reader when it is empty. -/
lemma length_payload_le (A : Aead) (key : Bytes) (iv : UInt64) {event : MuxEvent}
    (hbody : (event.body.encoded pb).length ≤ kMaxChunkSize) :
    (sealedFrame A pb key iv event).length ≤ readBufferSize := by
  have hsize : kEventHeadSize + 16 + kMaxChunkSize + 16 ≤ readBufferSize := by decide
  rw [CipherContext.length_sealedFrame]
  split
  · omega
  · omega

/-- The next frame of the WebSocket. -/
lemma drop_wsFrames (A : Aead) (pb : Nanopb) (key : Bytes) (iv : UInt64)
    (hkeys : keys.length = calls.length) (hk : k < calls.length) :
    ∃ maskKey ∈ keys, (wsFrames A pb key iv keys calls).drop k =
      (maskKey, sealedFrame A pb key (iv + UInt64.ofNat k) calls[k].2) ::
        (wsFrames A pb key iv keys calls).drop (k + 1) := by
  have hkey : k < keys.length := hkeys ▸ hk
  have hframe : k < (WriterState.frames A pb key iv calls).length := by
    rwa [WriterState.frames, List.length_mapIdx]
  refine ⟨keys[k], List.getElem_mem hkey, ?_⟩
  have hzip : k < (wsFrames A pb key iv keys calls).length := by
    rw [wsFrames, List.length_zip]
    omega
  rw [List.drop_eq_getElem_cons hzip]
  simp only [wsFrames, List.getElem_zip, WriterState.frames, List.getElem_mapIdx]

lemma frames_take_succ {iv : UInt64} (hk : k < calls.length) :
    (WriterState.frames A pb key iv (calls.take (k + 1))).flatten =
      (WriterState.frames A pb key iv (calls.take k)).flatten ++
        sealedFrame A pb key (iv + UInt64.ofNat k) calls[k].2 := by
  have hlen : (calls.take k).length = k := List.length_take_of_le hk.le
  rw [List.take_succ_eq_append_getElem hk, WriterState.frames_concat, WriterState.nextIv, hlen]

/-- A read of the WebSocket, behind `k` frames, gets the next one. -/
lemma Passed.wsAsyncRead_eq (h : Passed A pb key receiver isServer keys calls more s k)
    (hkeys : keys.length = calls.length) (hmask : ∀ maskKey ∈ keys, maskKey.length = 4)
    (hbody : ∀ x ∈ calls, (x.2.body.encoded pb).length ≤ kMaxChunkSize) :
    wsAsyncRead s.io readBufferSize = .error .waiting ∧ (more = [] → k = calls.length) ∨
      ∃ (hk : k < calls.length) (io' : BufferedIo),
        wsAsyncRead s.io readBufferSize =
          .ok (sealedFrame A pb key (receiver.decryptIv + UInt64.ofNat k) calls[k].2, io') ∧
        io'.Delivers ∧ io'.remaining ++ more =
          wsStream isServer ((wsFrames A pb key receiver.decryptIv keys calls).drop (k + 1)) := by
  have hremaining := h.remaining
  by_cases hk : k < calls.length
  · obtain ⟨maskKey, hmem, hdrop⟩ := drop_wsFrames A pb key receiver.decryptIv hkeys hk
    rw [hdrop] at hremaining
    have hsize := length_payload_le A key
      (receiver.decryptIv + UInt64.ofNat k) (hbody calls[k] (List.getElem_mem hk))
    have hlt : readBufferSize < 2 ^ 64 := by decide
    rcases wsAsyncRead_of_prefix h.delivers (hmask maskKey hmem) (hsize.trans_lt hlt) hsize
      hremaining with ⟨hwait, hne⟩ | ⟨io', hread, hio', hrest⟩
    · exact .inl ⟨hwait, fun hnil => absurd hnil hne⟩
    · exact .inr ⟨hk, io', hread, hio', hrest⟩
  · have hall : k = calls.length := le_antisymm h.le (not_lt.mp hk)
    have hnil : (wsFrames A pb key receiver.decryptIv keys calls).drop k = [] := by
      refine List.drop_eq_nil_of_le ?_
      rw [wsFrames, List.length_zip, WriterState.frames, List.length_mapIdx]
      omega
    rw [hnil] at hremaining
    have hnone : s.io.remaining = [] := (List.append_eq_nil_iff.mp hremaining).1
    exact .inl ⟨wsAsyncRead_of_nil h.delivers hnone _, fun _ => hall⟩

/-- A step keeps the invariant, and what it brings from the TCP connection no longer has to
arrive. -/
lemma step_passed {a : WebSocketReaderAction} (hr : receiver.Keyed key)
    (hkeys : keys.length = calls.length) (hmask : ∀ maskKey ∈ keys, maskKey.length = 4)
    (hbody : ∀ x ∈ calls, (x.2.body.encoded pb).length ≤ kMaxChunkSize)
    (h : Passed A pb key receiver isServer keys calls (arrived a ++ more) s k)
    (hstep : step A pb s a = some s') :
    ∃ k', Passed A pb key receiver isServer keys calls more s' k' := by
  obtain ⟨items, hreading⟩ := h.reading
  cases a with
  | arrive piece =>
      simp only [step] at hstep
      split at hstep
      · next hpiece =>
          obtain rfl := Option.some.inj hstep
          refine ⟨k, h.le, h.delivers.push hpiece.1, ?_, h.received, h.reading, h.connected⟩
          have hremaining := h.remaining
          rw [← List.append_assoc] at hremaining
          exact (congrArg (· ++ more) (s.io.remaining_push piece)).trans hremaining
      · cases hstep
  | readEvent =>
      obtain ⟨reader, hreader, rfl⟩ := Option.map_eq_some_iff.mp hstep
      refine ⟨k, h.le, h.delivers, h.remaining, ?_, ReaderState.step_readInv hreading hreader,
        ReaderState.step_connected hreader (by simp)⟩
      rw [ReaderState.step_received hreader, h.received]
      exact List.append_nil _
  | asyncRead =>
      simp only [step] at hstep
      split at hstep
      · next current hphase =>
          obtain ⟨hlen, -⟩ := h.len_eq_zero hr hbody hphase
          rw [hlen, Nat.sub_zero] at hstep
          rcases h.wsAsyncRead_eq hkeys hmask hbody with
            ⟨hwait, -⟩ | ⟨hk, io', hread, hio', hrest⟩
          · rw [hwait] at hstep
            cases hstep
          · rw [hread] at hstep
            simp only [afterAsyncRead, if_neg (WriterState.sealedFrame_ne_nil _ _ _ _ _)] at hstep
            obtain ⟨reader, hreader, rfl⟩ := Option.map_eq_some_iff.mp hstep
            refine ⟨k + 1, hk, hio', hrest, ?_, ReaderState.step_readInv hreading hreader,
              ReaderState.step_connected hreader (by simp)⟩
            rw [ReaderState.step_received hreader, h.received, frames_take_succ hk]
            rfl
      · cases hstep

lemma run_passed {as : List WebSocketReaderAction} (hr : receiver.Keyed key)
    (htag : receiver.cipherTagLen ≤ 16) (hkeys : keys.length = calls.length)
    (hmask : ∀ maskKey ∈ keys, maskKey.length = 4)
    (hbody : ∀ x ∈ calls, (x.2.body.encoded pb).length ≤ kMaxChunkSize)
    (h : exec (step A pb) (init receiver) as = some s)
    (harrived : (as.map arrived).flatten ++ more =
      wsStream isServer (wsFrames A pb key receiver.decryptIv keys calls)) :
    ∃ k, Passed A pb key receiver isServer keys calls more s k := by
  refine exec_invariant_actions (I := fun done s => ∀ more, (done.map arrived).flatten ++ more =
    wsStream isServer (wsFrames A pb key receiver.decryptIv keys calls) →
      ∃ k, Passed A pb key receiver isServer keys calls more s k) ?_ ?_ h more harrived
  · intro done s a s' hpassed hstep more hmore
    simp only [List.map_append, List.map_cons, List.map_nil, List.flatten_append,
      List.flatten_singleton, List.append_assoc] at hmore
    obtain ⟨k, hk⟩ := hpassed (arrived a ++ more) hmore
    exact step_passed hr hkeys hmask hbody hk hstep
  · exact fun more hmore => ⟨0, passed_init htag hmore⟩

/-- **A WebSocket between the nodes changes nothing.**  The frames of some calls of `Write`, each in
a frame of a WebSocket (of a client, with any masking keys, or of a server), arrive over TCP in
pieces of any size; `more` is what has not arrived.  Then, in every state the reader reaches,

* the events that `ReadEvent` has returned are those of the first calls, in order;
* no read has failed, for want of space or otherwise;
* a reader that waits has its whole `read_buffer_` free;
* when everything has arrived and a waiting read cannot complete, all events have been returned. -/
theorem events_pass_through_webSocket (A : Aead) (pb : Nanopb) (key : Bytes)
    (receiver : CipherContext) (hr : receiver.FromNew "chacha20_poly1305" key) (isServer : Bool)
    (keys : List Bytes) (calls : List (ℕ × MuxEvent)) (hkeys : keys.length = calls.length)
    (hmask : ∀ maskKey ∈ keys, maskKey.length = 4)
    (hbody : ∀ x ∈ calls, (x.2.body.encoded pb).length ≤ kMaxChunkSize)
    (as : List WebSocketReaderAction) (s : WebSocketReader)
    (h : exec (step A pb) (init receiver) as = some s) (more : Bytes)
    (harrived : (as.map arrived).flatten ++ more = wsStream isServer
      (wsFrames A pb (CipherContext.resize 32 key) receiver.decryptIv keys calls)) :
    List.Forall₂ (fun event x => event.Same x.2) s.reader.events
        (calls.take s.reader.events.length) ∧
      (∀ rc, s.reader.phase ≠ .failed rc ∧ s.reader.phase ≠ .disconnected rc) ∧
      (∀ current, s.reader.phase = .reading current → current.len = 0) ∧
      (more = [] → ∀ current, s.reader.phase = .reading current →
        s.step A pb .asyncRead = none → s.reader.events.length = calls.length) := by
  obtain ⟨k, hpassed⟩ := run_passed hr.keyed hr.tagLen_le hkeys hmask hbody h harrived
  obtain ⟨items, hreading⟩ := hpassed.reading
  have hprefix : s.reader.received <+: (WriterState.frames A pb (CipherContext.resize 32 key)
      receiver.decryptIv calls).flatten := by
    rw [hpassed.received]
    exact WriterState.frames_prefix (List.take_prefix _ _)
  refine ⟨hreading.events_same hr.keyed rfl hbody hprefix, fun rc =>
    ⟨hreading.not_failed hr.keyed rfl hbody hprefix rc, hpassed.connected rc⟩,
    fun current hphase => (hpassed.len_eq_zero hr.keyed hbody hphase).1, ?_⟩
  intro hmore current hphase hnone
  obtain ⟨hlen, hevents⟩ := hpassed.len_eq_zero hr.keyed hbody hphase
  rcases hpassed.wsAsyncRead_eq hkeys hmask hbody with ⟨-, hall⟩ | ⟨hk, io', hread, -⟩
  · rw [hevents, hall hmore]
  · have hsize := length_payload_le A (CipherContext.resize 32 key)
      (receiver.decryptIv + UInt64.ofNat k) (hbody calls[k] (List.getElem_mem hk))
    have hne := WriterState.sealedFrame_ne_nil A pb (CipherContext.resize 32 key)
      (receiver.decryptIv + UInt64.ofNat k) calls[k].2
    have hroom : current.len + (sealedFrame A pb (CipherContext.resize 32 key)
        (receiver.decryptIv + UInt64.ofNat k) calls[k].2).length ≤ readBufferSize := by omega
    simp [step, hphase, hlen, hread, afterAsyncRead, hne, ReaderState.step] at hnone
    omega

/-- The first byte of the frames arrives alone. -/
def splitFrame (frames : Bytes) : List WebSocketReaderAction :=
  [.readEvent, .arrive (frames.take 1), .arrive (frames.drop 1)]

/-- A close request arrives in two pieces; then the read that waits for it can complete. -/
theorem events_pass_through_webSocket_split_frame :
    ∃ ctx s s', CipherContext.new "chacha20_poly1305" [1] = some ctx ∧
      exec (step chacha20Poly1305 protobuf) (init ctx)
        (splitFrame (wsStream true (wsFrames chacha20Poly1305 protobuf
          (CipherContext.resize 32 [1]) ctx.decryptIv [[1, 2, 3, 4]]
            [(0, .ofBody .streamCloseRequest 1)]))) = some s ∧
      s.step chacha20Poly1305 protobuf .asyncRead = some s' := by
  have hrun : ((CipherContext.new "chacha20_poly1305" [1]).bind fun ctx =>
      (exec (step chacha20Poly1305 protobuf) (init ctx)
        (splitFrame (wsStream true (wsFrames chacha20Poly1305 protobuf
          (CipherContext.resize 32 [1]) ctx.decryptIv [[1, 2, 3, 4]]
            [(0, .ofBody .streamCloseRequest 1)])))).map fun s =>
              (s.reader.phase, s.reader.events)) = some (.reading ⟨0, 0, Nat.zero_le _⟩, []) := by
    rfl
  obtain ⟨ctx, hctx, hmap⟩ := Option.bind_eq_some_iff.mp hrun
  obtain ⟨s, hs, hstate⟩ := Option.map_eq_some_iff.mp hmap
  obtain ⟨hphase, hevents⟩ := Prod.mk.inj hstate
  obtain ⟨-, -, -, hall⟩ :=
    events_pass_through_webSocket chacha20Poly1305 protobuf [1] ctx ⟨ctx, hctx, rfl⟩ true
      [[1, 2, 3, 4]] [(0, .ofBody .streamCloseRequest 1)] rfl (by decide) (by decide) _ s hs []
      (by simp only [splitFrame, List.map_cons, List.map_nil, arrived, List.flatten_cons,
            List.flatten_nil, List.append_nil, List.nil_append, List.take_append_drop])
  cases hstep : s.step chacha20Poly1305 protobuf .asyncRead with
  | some s' => exact ⟨ctx, s, s', hctx, hs, hstep⟩
  | none =>
      have hone := hall rfl _ hphase hstep
      rw [hevents] at hone
      cases hone

end WebSocketReader

end Snova
