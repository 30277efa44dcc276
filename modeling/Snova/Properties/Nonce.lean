import Snova.Properties.Auth

/-!
# Nonces

All seals of a connection use one key, so a nonce is as good as the frames that share it.  The
head and the body of a frame do, and so do the two directions, which count from the same iv
(`handshake_reuses_nonce`).  What remains is that the frames of one end have nonces of their own,
as long as its counter has not come back to the value the handshake was sealed with.

The client counts from the iv it is told.  `Hears` is the reason it is the server's: until the
client has read it, the response is the first frame on its way, whatever is written behind it.
-/

namespace Snova

open CipherContext (Keyed sealedFrame frameSeals nonceOf decoder defaultIv)

variable {A : Aead} {pb : Nanopb} {key : Bytes}

/-! ## Counter values and nonces -/

lemma nonceOf_injective {a b : UInt64} (h : nonceOf a 12 = nonceOf b 12) : a = b := by
  have hbytes : toBE 8 a.toNat = toBE 8 b.toNat := by
    have hlen : (toBE 8 a.toNat).length = (toBE 8 b.toNat).length := by simp
    exact (List.append_inj h hlen).1
  exact UInt64.toNat_inj.mp
    (toBE_injective (by simpa using a.toNat_lt) (by simpa using b.toNat_lt) hbytes)

lemma nonce_of_mem_frameSeals {iv : UInt64} {ev : MuxEvent} {x : SealCall}
    (h : x ∈ frameSeals pb key iv ev) : x.key = key ∧ x.nonce = nonceOf iv 12 := by
  rw [frameSeals] at h
  rcases List.mem_cons.mp h with rfl | h
  · exact ⟨rfl, rfl⟩
  · split at h
    · rw [List.mem_singleton.mp h]
      exact ⟨rfl, rfl⟩
    · cases h

lemma toNat_add_ofNat {iv : UInt64} {k : ℕ} (h : iv.toNat + k < 2 ^ 64) :
    (iv + UInt64.ofNat k).toNat = iv.toNat + k := by
  rw [UInt64.toNat_add, UInt64.toNat_ofNat']
  omega

/-- Consecutive counter values that do not wrap around are distinct. -/
lemma number_pairwise {iv : UInt64} {evs : List MuxEvent} (h : iv.toNat + evs.length < 2 ^ 64) :
    (number iv evs).Pairwise fun x y => x.1 ≠ y.1 := by
  induction evs generalizing iv with
  | nil => exact .nil
  | cons ev evs ih =>
      rw [List.length_cons] at h
      have hone : (iv + 1).toNat = iv.toNat + 1 := toNat_add_ofNat (k := 1) (by omega)
      refine .cons (fun y hy heq => ?_) (ih (by omega))
      obtain ⟨k, hk, hiv, -⟩ := mem_number hy
      rw [← heq] at hiv
      have hval := congrArg UInt64.toNat hiv
      rw [toNat_add_ofNat (by omega), hone] at hval
      simp only at hval
      omega

/-- Seals of different frames have different nonces. -/
def FreshNonces (frames : List (List SealCall)) : Prop :=
  frames.Pairwise fun xs ys => ∀ a ∈ xs, ∀ b ∈ ys, a.nonce ≠ b.nonce

/-- An end seals one frame for each event it writes after its handshake, each one with the key and
the next value of a counter that starts at `iv`. -/
def SealsFrom (key : Bytes) (iv : UInt64) (e : Endpoint) : Prop :=
  ∃ first later, e.sealedBy = first ++ later ∧ first.length ≤ 1 ∧
    later.length = e.written.length ∧
    ∀ k frame, later[k]? = some frame →
      ∀ a ∈ frame, a.key = key ∧ a.nonce = nonceOf (iv + UInt64.ofNat k) 12

lemma getElem?_number (iv : UInt64) (evs : List MuxEvent) (k : ℕ) :
    (number iv evs)[k]? = evs[k]?.map fun ev => (iv + UInt64.ofNat k, ev) := by
  induction evs generalizing iv k with
  | nil => simp [number]
  | cons ev evs ih =>
      cases k with
      | zero => simp [number]
      | succ k => rw [number, List.getElem?_cons_succ, ih, List.getElem?_cons_succ, add_ofNat_succ]

lemma freshNonces_short {frames : List (List SealCall)}
    (h : frames = [] ∨ ∃ ev, frames = [frameSeals pb key defaultIv ev]) : FreshNonces frames := by
  rcases h with rfl | ⟨ev, rfl⟩
  · exact .nil
  · exact List.pairwise_singleton _ _

lemma Endpoint.Local.length_written_le {e : Endpoint} (h : e.Local pb key) :
    e.written.length ≤ e.sealedBy.length := by
  by_cases hready : ∃ ph, e.phase = .ready ph
  · obtain ⟨ph, hphase⟩ := hready
    simp only [Endpoint.Local, hphase] at h
    obtain ⟨iv, hcounting, -⟩ := h
    obtain ⟨first, -, hsealed⟩ := hcounting.sealed
    rw [hsealed, List.length_append, List.length_map, length_number]
    omega
  · rw [(h.fresh fun ph hphase => hready ⟨ph, hphase⟩).written]
    exact Nat.zero_le _

lemma Endpoint.Counting.freshNonces {e : Endpoint} {iv : UInt64} (h : e.Counting pb key iv)
    (hiv : iv ≤ maxAuthIv) (hlen : e.written.length ≤ defaultIv.toNat - maxAuthIv.toNat) :
    FreshNonces e.sealedBy := by
  obtain ⟨first, hfirst, hsealed⟩ := h.sealed
  have hbound : iv.toNat + e.written.length ≤ defaultIv.toNat := by
    have hle : iv.toNat ≤ maxAuthIv.toNat := UInt64.le_iff_toNat_le.mp hiv
    have hmax : maxAuthIv.toNat ≤ defaultIv.toNat := by decide
    omega
  have hdefault : defaultIv.toNat < 2 ^ 64 := defaultIv.toNat_lt
  rw [hsealed, FreshNonces, List.pairwise_append]
  refine ⟨freshNonces_short hfirst, ?_, ?_⟩
  · rw [List.pairwise_map]
    refine (number_pairwise (by omega)).imp ?_
    intro x y hne a ha b hb heq
    rw [(nonce_of_mem_frameSeals ha).2, (nonce_of_mem_frameSeals hb).2] at heq
    exact hne (nonceOf_injective heq)
  · -- The handshake's frame against a later one.
    intro xs hxs ys hys a ha b hb heq
    obtain ⟨y, hy, rfl⟩ := List.mem_map.mp hys
    rcases hfirst with rfl | ⟨ev, rfl⟩
    · cases hxs
    · rw [List.mem_singleton.mp hxs] at ha
      rw [(nonce_of_mem_frameSeals ha).2, (nonce_of_mem_frameSeals hb).2] at heq
      obtain ⟨k, hk, hy', -⟩ := mem_number hy
      have hval := congrArg UInt64.toNat ((nonceOf_injective heq).trans hy')
      rw [toNat_add_ofNat (by omega)] at hval
      omega

lemma Endpoint.Counting.sealsFrom {e : Endpoint} {iv : UInt64} (h : e.Counting pb key iv) :
    SealsFrom key iv e := by
  obtain ⟨first, hfirst, hsealed⟩ := h.sealed
  refine ⟨first, _, hsealed, ?_, by rw [List.length_map, length_number], ?_⟩
  · rcases hfirst with rfl | ⟨ev, rfl⟩
    · exact Nat.zero_le 1
    · exact le_rfl
  · intro k frame hframe a ha
    rw [List.getElem?_map, getElem?_number, Option.map_map] at hframe
    obtain ⟨ev, -, rfl⟩ := Option.map_eq_some_iff.mp hframe
    exact nonce_of_mem_frameSeals ha

/-- Every frame of an end is a call of `Encrypt`, which has one nonce. -/
lemma Endpoint.Local.exists_frameSeals {e : Endpoint} (h : e.Local pb key) :
    ∀ frame ∈ e.sealedBy, ∃ iv ev, frame = frameSeals pb key iv ev := by
  intro frame hframe
  have hshort : ∀ frames : List (List SealCall),
      (frames = [] ∨ ∃ ev, frames = [frameSeals pb key defaultIv ev]) → frame ∈ frames →
      ∃ iv ev, frame = frameSeals pb key iv ev := by
    rintro frames (rfl | ⟨ev, rfl⟩) hmem
    · cases hmem
    · exact ⟨defaultIv, ev, List.mem_singleton.mp hmem⟩
  by_cases hready : ∃ ph, e.phase = .ready ph
  · obtain ⟨ph, hphase⟩ := hready
    simp only [Endpoint.Local, hphase] at h
    obtain ⟨iv, hcounting, -⟩ := h
    obtain ⟨first, hfirst, hsealed⟩ := hcounting.sealed
    rw [hsealed] at hframe
    rcases List.mem_append.mp hframe with hmem | hmem
    · exact hshort first hfirst hmem
    · obtain ⟨x, -, rfl⟩ := List.mem_map.mp hmem
      exact ⟨x.1, x.2, rfl⟩
  · rcases (h.fresh fun ph hphase => hready ⟨ph, hphase⟩).sealed with hnil | ⟨ev, hone⟩
    · exact hshort _ (.inl hnil) hframe
    · exact hshort _ (.inr ⟨ev, hone⟩) hframe

/-! ## The server's answer -/

/-- What a step of the server does to the bytes it sends: it may add some, but the first thing it
ever sends is its answer. -/
inductive Progress (A : Aead) (pb : Nanopb) (key : Bytes) (e e' : Endpoint) : Prop
  | kept (authIv : e'.authIv = e.authIv)
      (stream : ∀ bytes, Stream e bytes →
        ∃ tail, Stream e' (bytes ++ tail) ∧ (e.authIv = none → tail = []))
  | answered (iv : UInt64) (unanswered : e.authIv = none) (authIv : e'.authIv = some iv)
      (bound : iv ≤ maxAuthIv)
      (stream : ∀ bytes, Stream e bytes →
        Stream e' (bytes ++ sealedFrame A pb key defaultIv (responseEvent iv)))

namespace Progress

variable {e e' : Endpoint}

lemma silent (hauth : e'.authIv = e.authIv) (h : ∀ bytes, Stream e bytes → Stream e' bytes) :
    Progress A pb key e e' :=
  .kept hauth fun bytes hs => ⟨[], by rw [List.append_nil]; exact h bytes hs, fun _ => rfl⟩

lemma of_sameOut (hauth : e'.authIv = e.authIv) (h : Endpoint.SameOut e e') :
    Progress A pb key e e' :=
  .silent hauth fun _ hs => hs.congr h.link h.sendFailed h.unsent

lemma answer {request : AuthRequest} {iv : UInt64} (h : e.Fresh pb key) (hearly : e.Early)
    (hiv : iv ≤ maxAuthIv) : Progress A pb key e (e.answer A pb request iv) := by
  unfold Endpoint.answer
  split
  · exact .of_sameOut rfl ⟨rfl, rfl, rfl, rfl, rfl⟩
  · have hspec := Endpoint.startWrite_spec (e := e.setType (Endpoint.authType request)) A pb
      h.keyed (responseEvent iv)
    rw [responseEvent] at hspec
    generalize Endpoint.startWrite A pb _ _ = w at hspec
    cases hspec with
    | fail rc seals nonzero => exact .of_sameOut rfl ⟨rfl, rfl, rfl, rfl, rfl⟩
    | ok =>
        refine .answered iv hearly.authIv rfl hiv fun bytes hs => ?_
        rw [← hearly.encryptIv]
        exact hs.write hearly.idle rfl rfl rfl

lemma afterRequest {p : Reader × ReadStatus} {iv : UInt64} (h : e.Fresh pb key)
    (hearly : e.Early) (hiv : iv ≤ maxAuthIv) (hread : Endpoint.ReadKeeps key e.reader p.1) :
    Progress A pb key e (e.afterRequest A pb iv p) := by
  obtain ⟨r, status⟩ := p
  cases status with
  | reading current => exact .of_sameOut rfl ⟨rfl, rfl, rfl, rfl, rfl⟩
  | returned rc event =>
      rw [Endpoint.afterRequest]
      split
      · exact .of_sameOut rfl ⟨rfl, rfl, rfl, rfl, rfl⟩
      · split
        · next request _ =>
            have hanswer : Progress A pb key (e.setReader r)
                ((e.setReader r).answer A pb request iv) :=
              answer ⟨hread.keyed, h.written, h.events, h.sealed⟩
                ⟨hread.encryptIv.trans hearly.encryptIv, hearly.sealed, hearly.idle,
                  hearly.authIv⟩ hiv
            cases hanswer with
            | kept authIv stream => exact .kept authIv stream
            | answered iv' unanswered authIv bound stream =>
                exact .answered iv' unanswered authIv bound stream
        · exact .of_sameOut rfl ⟨rfl, rfl, rfl, rfl, rfl⟩

lemma afterRead {p : Reader × ReadStatus} (h : e.Local pb key) (hlocal : e.isLocal = false)
    (hread : Endpoint.ReadKeeps key e.reader p.1) :
    Progress A pb key e (e.afterRead A pb p) := by
  unfold Endpoint.afterRead
  split
  · next user current hphase =>
      simp only [Endpoint.Local, hphase] at h
      exact absurd (h.2.symm.trans hlocal) (by decide)
  · next iv current hphase =>
      simp only [Endpoint.Local, hphase] at h
      exact afterRequest h.1 h.2.1 h.2.2 hread
  · exact .of_sameOut (afterLoopRead_authIv e p).1 (e.afterLoopRead_sameOut p)

/-- The coroutine that waited for an `AsyncWrite` of the server adds nothing. -/
lemma afterWrite (h : e.Local pb key) (hlocal : e.isLocal = false) (success : Bool) :
    (e.afterWrite A pb success).authIv = e.authIv ∧
      Endpoint.SameOut e (e.afterWrite A pb success) := by
  unfold Endpoint.afterWrite
  split
  · next user hphase =>
      simp only [Endpoint.Local, hphase] at h
      exact absurd (h.2.symm.trans hlocal) (by decide)
  · cases success with
    | true => exact ⟨rfl, rfl, rfl, rfl, rfl, rfl⟩
    | false => exact ⟨rfl, rfl, rfl, rfl, rfl, rfl⟩
  · exact ⟨rfl, rfl, rfl, rfl, rfl, rfl⟩

lemma step {a : EndpointAction} (h : e.Local pb key) (hlocal : e.isLocal = false)
    (hstep : e.step A pb a = some e') : Progress A pb key e e' := by
  cases Endpoint.step_spec hstep with
  | clientAuth hphase =>
      rw [Endpoint.clientAuth, if_pos hlocal]
      exact .of_sameOut rfl ⟨rfl, rfl, rfl, rfl, rfl⟩
  | serverAuth hphase hiv =>
      simp only [Endpoint.Local, hphase] at h
      rw [Endpoint.serverAuth, if_neg (by simp [hlocal])]
      exact afterRequest h.1 h.2 hiv (Endpoint.readKeeps_readEvent A pb h.1.keyed)
  | transmit hsending hok => exact .silent rfl fun _ hs => hs.transmit hsending hok
  | written hsending hsent =>
      obtain ⟨hauth, hout⟩ := afterWrite (A := A)
        (h.transport none e.sendFailed e.link fun _ => rfl) hlocal true
      refine .silent hauth fun bytes hs => ?_
      refine Stream.congr (e := { e with sending := none }) ?_ hout.link hout.sendFailed
        hout.unsent
      exact hs.congr rfl rfl (unsent_of_sent hsending hsent).symm
  | writeError hsending =>
      obtain ⟨hauth, hout⟩ := afterWrite (A := A)
        (h.transport none true e.link fun _ => rfl) hlocal false
      exact .silent hauth fun bytes hs => hs.fail hout.link hout.sendFailed
  | disconnected hphase hcurrent hrc => exact .of_sameOut rfl ⟨rfl, rfl, rfl, rfl, rfl⟩
  | readError hready hcurrent hrc => exact afterRead h hlocal ⟨h.keyed, rfl⟩
  | @write ev ph hphase hidle =>
      simp only [Endpoint.Local, hphase] at h
      obtain ⟨iv, h, -⟩ := h
      have hspec := Endpoint.startWrite_spec A pb h.keyed ev
      unfold Endpoint.write
      generalize e.startWrite A pb ev = w at hspec
      cases hspec with
      | fail rc seals nonzero => exact .of_sameOut rfl ⟨rfl, rfl, rfl, rfl, rfl⟩
      | ok =>
          refine .kept rfl fun bytes hs => ⟨_, hs.write hidle rfl rfl rfl, fun hnone => ?_⟩
          rw [h.authIv] at hnone
          cases hnone
  | readEvent hphase => exact .of_sameOut (afterLoopRead_authIv e _).1 (e.afterLoopRead_sameOut _)

lemma data {bs : Bytes} (h : e.Local pb key) (hlocal : e.isLocal = false)
    (hdata : e.data A pb bs = some e') : Progress A pb key e e' := by
  obtain ⟨current, r, p, -, hr, hturn, rfl⟩ := data_turn hdata
  have hkeeps := Endpoint.readKeeps_of_turn (by rw [hr]; exact h.keyed) hturn
  exact afterRead h hlocal ⟨hkeeps.keyed, by rw [hkeeps.encryptIv, hr]⟩

/-- The server's iv is one `random_uint64` can give. -/
lemma bound (h : Progress A pb key e e')
    (hbound : ∀ iv, e.authIv = some iv → iv ≤ maxAuthIv) :
    ∀ iv, e'.authIv = some iv → iv ≤ maxAuthIv := by
  intro iv hiv
  cases h with
  | kept authIv stream => exact hbound iv (authIv.symm.trans hiv)
  | answered iv' unanswered authIv bound stream =>
      obtain rfl := Option.some.inj (authIv.symm.trans hiv)
      exact bound

lemma authIv {iv : UInt64} (h : Progress A pb key e e') (hiv : e.authIv = some iv) :
    e'.authIv = some iv := by
  cases h with
  | kept authIv stream => exact authIv.trans hiv
  | answered iv' unanswered authIv bound stream =>
      rw [unanswered] at hiv
      cases hiv

end Progress

/-! ## What the client hears first -/

/-- The bytes on their way to the client: nothing, or the answer and whatever follows it. -/
def Opens (A : Aead) (pb : Nanopb) (key : Bytes) : Option UInt64 → Bytes → Prop
  | none, bs => bs = []
  | some iv, bs => ∃ tail, bs = sealedFrame A pb key defaultIv (responseEvent iv) ++ tail

/-- A client in its handshake, and the server's first frame. -/
structure Hears (A : Aead) (pb : Nanopb) (key : Bytes) (c s : Endpoint) : Prop where
  phase : c.phase = .start ∨ c.Waiting
  decryptIv : c.reader.cipherCtx.decryptIv = defaultIv
  bytes : ∃ pend bytes, c.Holds A pb pend ∧ Stream s bytes ∧ Opens A pb key s.authIv (pend ++ bytes)

/-- The client has failed, is in its handshake, or counts from the iv of the server. -/
def Told (A : Aead) (pb : Nanopb) (key : Bytes) (c s : Endpoint) : Prop :=
  c.phase = .failed ∨ Hears A pb key c s ∨
    ∃ iv ph, c.authIv = some iv ∧ s.authIv = some iv ∧ c.phase = .ready ph

section Told

variable {c c' s s' : Endpoint}

lemma Opens.append {authIv : Option UInt64} {bs tail : Bytes} (h : Opens A pb key authIv bs)
    (hnone : authIv = none → tail = []) : Opens A pb key authIv (bs ++ tail) := by
  cases authIv with
  | none =>
      obtain rfl := hnone rfl
      rw [List.append_nil]
      exact h
  | some iv =>
      obtain ⟨tail', rfl⟩ := h
      exact ⟨tail' ++ tail, List.append_assoc _ _ _⟩

/-- A step of the server keeps its answer in front. -/
lemma Hears.server (h : Hears A pb key c s) (hprogress : Progress A pb key s s') :
    Hears A pb key c s' := by
  obtain ⟨hphase, hiv, pend, bytes, hheld, hstream, hopens⟩ := h
  cases hprogress with
  | kept authIv stream =>
      obtain ⟨tail, hstream', htail⟩ := stream bytes hstream
      refine ⟨hphase, hiv, pend, bytes ++ tail, hheld, hstream', ?_⟩
      rw [authIv, ← List.append_assoc]
      exact hopens.append htail
  | answered iv unanswered authIv bound stream =>
      refine ⟨hphase, hiv, pend, _, hheld, stream bytes hstream, ?_⟩
      rw [unanswered] at hopens
      have hnil : pend ++ bytes = [] := hopens
      rw [authIv, ← List.append_assoc, hnil]
      exact ⟨[], (List.append_nil _).symm⟩

/-- A turn of the `ReadEvent` of `ClientAuth`: the client waits, or accepts the server's iv. -/
lemma hears_turn {p : Reader × ReadStatus} {r : Reader} {pend bytes : Bytes} (hpb : pb.Bounded)
    (hk : c.reader.cipherCtx.Keyed key) (hiv : c.reader.cipherCtx.decryptIv = defaultIv)
    (hr : r.cipherCtx = c.reader.cipherCtx) (hturn : TurnSpec A pb r pend p)
    (hstream : Stream s bytes) (hopens : Opens A pb key s.authIv (pend ++ bytes)) (user : Bytes) :
    Told A pb key (c.afterResponse user p) s := by
  have hverdict : (decoder A pb).next r.cipherCtx pend = .more ∨
      ∃ iv ev' n, s.authIv = some iv ∧ ev'.Same (responseEvent iv) ∧
        (decoder A pb).next r.cipherCtx pend =
          .item ev' n { r.cipherCtx with decryptIv := r.cipherCtx.decryptIv + 1 } := by
    rw [hr]
    cases hauth : s.authIv with
    | none =>
        rw [hauth] at hopens
        obtain ⟨rfl, -⟩ := List.append_eq_nil_iff.mp hopens
        exact .inl (CipherContext.next_nil _)
    | some iv =>
        rw [hauth] at hopens
        obtain ⟨tail, htail⟩ := hopens
        rw [← hiv] at htail
        have hfits : ((responseEvent iv).body.encoded pb).length ≤ kMaxChunkSize := hpb _ _
        refine (next_of_frame hk hfits htail).imp_right ?_
        rintro ⟨ev', n, hsame, hitem, -⟩
        exact ⟨iv, ev', n, rfl, hsame, hitem⟩
  rcases hverdict with hmore | ⟨iv, ev', n, hauth, hsame, hitem⟩
  · cases hturn with
    | more r' current next ctx front short =>
        refine .inr (.inl ⟨.inr (.inr ⟨user, current, rfl⟩), ?_, pend, bytes, front, hstream,
          hopens⟩)
        show r'.cipherCtx.decryptIv = defaultIv
        rw [ctx, hr]
        exact hiv
    | fail r' rc event next ctx nonzero => rw [hmore] at next; cases next
    | item r' event m next ctx readable => rw [hmore] at next; cases next
  · cases hturn with
    | more r' current next ctx front short => rw [hitem] at next; cases next
    | fail r' rc event next ctx nonzero => rw [hitem] at next; cases next
    | item r' event m next ctx readable =>
        rw [hitem] at next
        obtain ⟨rfl, -, -⟩ := Outcome.item.inj next
        have haccept : c.afterResponse user (r', .returned 0 (some ev')) =
            (c.setReader r').accept user iv := by
          simp [Endpoint.afterResponse, body_of_same hsame]
        rw [haccept]
        exact .inr (.inr ⟨iv, .idle, rfl, hauth, rfl⟩)

/-- An authenticated end stays authenticated. -/
lemma ready_step {a : EndpointAction} {ph : ReadPhase} (hready : c.phase = .ready ph)
    (hstep : c.step A pb a = some c') : c'.authIv = c.authIv ∧ ∃ ph', c'.phase = .ready ph' := by
  cases Endpoint.step_spec hstep with
  | clientAuth hphase => rw [hready] at hphase; cases hphase
  | serverAuth hphase hiv => rw [hready] at hphase; cases hphase
  | transmit hsending hok => exact ⟨rfl, ph, hready⟩
  | written hsending hsent =>
      simp only [Endpoint.afterWrite, hready]
      exact ⟨trivial, ph, rfl⟩
  | writeError hsending =>
      simp only [Endpoint.afterWrite, hready]
      exact ⟨trivial, ph, rfl⟩
  | disconnected hphase hcurrent hrc => exact ⟨rfl, _, rfl⟩
  | readError hnot hcurrent hrc => exact absurd hready (hnot ph)
  | @write ev ph' hphase hidle =>
      obtain ⟨hphase', -, hauth⟩ := Endpoint.write_phase A pb c ev
      exact ⟨hauth, ph, hphase'.trans hready⟩
  | readEvent hphase => exact afterLoopRead_authIv c _

lemma ready_data {bs : Bytes} {ph : ReadPhase} (hready : c.phase = .ready ph)
    (hdata : c.data A pb bs = some c') : c'.authIv = c.authIv ∧ ∃ ph', c'.phase = .ready ph' := by
  obtain ⟨current, r, p, -, -, -, rfl⟩ := data_turn hdata
  simp only [Endpoint.afterRead, hready]
  exact afterLoopRead_authIv c p

/-- What waited for an `AsyncWrite` of a client in its handshake goes on. -/
lemma Hears.afterWrite (hpb : pb.Bounded) (h : Hears A pb key c s)
    (hk : c.reader.cipherCtx.Keyed key) (success : Bool) :
    Told A pb key (c.afterWrite A pb success) s := by
  obtain ⟨hphase, hiv, pend, bytes, hheld, hstream, hopens⟩ := h
  unfold Endpoint.afterWrite
  split
  · next user hp =>
      split
      · simp only [Endpoint.Holds, hp] at hheld
        obtain rfl := hheld
        exact hears_turn hpb hk hiv rfl
          (readEventTurn_spec A pb c.reader c.reader.readableData) hstream hopens user
      · exact .inl rfl
  · next request iv hp =>
      rcases hphase with hp' | ⟨user, hp'⟩ | ⟨user, current, hp'⟩
      all_goals rw [hp] at hp'; cases hp'
  · exact .inr (.inl ⟨hphase, hiv, pend, bytes, hheld, hstream, hopens⟩)

lemma Hears.client {a : EndpointAction} (hpb : pb.Bounded) (h : Hears A pb key c s)
    (hc : c.Local pb key) (hlocal : c.isLocal = true)
    (hstep : c.step A pb a = some c') : Told A pb key c' s := by
  have hnot : ∀ ph, c.phase ≠ .ready ph := by
    rintro ph hp
    rcases h.phase with hp' | hw
    · rw [hp] at hp'; cases hp'
    · exact hw.not_ready ph hp
  cases Endpoint.step_spec hstep with
  | @clientAuth user clientId hphase =>
      rw [Endpoint.clientAuth, if_neg (by simp [hlocal])]
      obtain ⟨-, hiv, pend, bytes, hheld, hstream, hopens⟩ := h
      simp only [Endpoint.Holds, hphase] at hheld
      have hspec := Endpoint.startWrite_spec (e := c.setClientId clientId) A pb hc.keyed
        (.ofBody (.proto .authRequest (Endpoint.authRequest c.flags user clientId)))
      generalize Endpoint.startWrite A pb _ _ = w at hspec
      cases hspec with
      | fail rc seals nonzero => exact .inl rfl
      | ok =>
          exact .inr (.inl ⟨.inr (.inl ⟨user, rfl⟩), hiv, pend, bytes, hheld, hstream, hopens⟩)
  | serverAuth hphase hiv =>
      rw [Endpoint.serverAuth, if_pos hlocal]
      exact .inl rfl
  | transmit hsending hok => exact .inr (.inl ⟨h.phase, h.decryptIv, h.bytes⟩)
  | written hsending hsent =>
      exact Hears.afterWrite (c := { c with sending := none }) hpb
        ⟨h.phase, h.decryptIv, h.bytes⟩ hc.keyed true
  | writeError hsending =>
      exact Hears.afterWrite (c := { c with sending := none, sendFailed := true }) hpb
        ⟨h.phase, h.decryptIv, h.bytes⟩ hc.keyed false
  | disconnected hphase hcurrent hrc => exact absurd hphase (hnot _)
  | readError hready hcurrent hrc =>
      rcases h.phase with hp | ⟨user, hp⟩ | ⟨user, current', hp⟩
      · rw [hp] at hcurrent; cases hcurrent
      · rw [hp] at hcurrent; cases hcurrent
      · left
        simp [Endpoint.afterRead, hp, Endpoint.afterResponse, Reader.readEventError, hrc,
          Endpoint.enter]
  | write hphase hidle => exact absurd hphase (hnot _)
  | readEvent hphase => exact absurd hphase (hnot .idle)

lemma Hears.clientData {n : ℕ} (hpb : pb.Bounded) (h : Hears A pb key c s)
    (hk : c.reader.cipherCtx.Keyed key) (hdata : c.data A pb (s.link.take n) = some c') :
    Told A pb key c' { s with link := s.link.drop n } := by
  obtain ⟨hphase, hiv, pend, bytes, hheld, hstream, hopens⟩ := h
  obtain ⟨current, r, p, hcurrent, hr, hturn, rfl⟩ := data_turn hdata
  obtain ⟨bytes', rfl, hstream'⟩ := hstream.deliver n
  rcases hphase with hp | ⟨user, hp⟩ | ⟨user, current', hp⟩
  · rw [hp] at hcurrent; cases hcurrent
  · rw [hp] at hcurrent; cases hcurrent
  · rw [hp] at hcurrent
    obtain rfl := Option.some.inj hcurrent
    simp only [Endpoint.Holds, hp] at hheld
    rw [hheld] at hturn
    rw [← List.append_assoc] at hopens
    simp only [Endpoint.afterRead, hp]
    exact hears_turn (s := { s with link := s.link.drop n }) hpb hk hiv hr hturn hstream'
      hopens user

lemma Told.server (h : Told A pb key c s) (hprogress : Progress A pb key s s') :
    Told A pb key c s' := by
  rcases h with hfailed | hhears | ⟨iv, ph, hauth, hserver, hready⟩
  · exact .inl hfailed
  · exact .inr (.inl (hhears.server hprogress))
  · exact .inr (.inr ⟨iv, ph, hauth, hprogress.authIv hserver, hready⟩)

end Told

/-! ## Runs of a connection -/

/-- All seals of an end, those of failed calls of `Encrypt` included. -/
def Endpoint.seals (e : Endpoint) : List SealCall := e.encrypts.flatMap (·.2)

namespace AuthState

variable {s s' : AuthState}

/-- The invariant of a run: whatever is written, the client counts from the iv of the server. -/
structure Counts (A : Aead) (pb : Nanopb) (key : Bytes) (s : AuthState) : Prop where
  client : s.client.Local pb key
  server : s.server.Local pb key
  isClient : s.client.isLocal = true
  isServer : s.server.isLocal = false
  bound : ∀ iv, s.server.authIv = some iv → iv ≤ maxAuthIv
  told : Told A pb key s.client s.server

/-- An authenticated client has the iv of the server. -/
lemma Counts.authIv_of_client {iv : UInt64} {ph : ReadPhase} (h : Counts A pb key s)
    (hphase : s.client.phase = .ready ph) (hauth : s.client.authIv = some iv) :
    s.server.authIv = some iv := by
  rcases h.told with hfailed | hhears | ⟨iv', ph', hauth', hserver, -⟩
  · rw [hphase] at hfailed
    cases hfailed
  · rcases hhears.phase with hp | hw
    · rw [hphase] at hp
      cases hp
    · exact absurd hphase (hw.not_ready ph)
  · exact hserver.trans (hauth'.symm.trans hauth)

lemma told_client {a : EndpointAction} {c' : Endpoint} (hpb : pb.Bounded) (h : Counts A pb key s)
    (hstep : s.client.step A pb a = some c') : Told A pb key c' s.server := by
  rcases h.told with hfailed | hhears | ⟨iv, ph, hauth, hiv, hready⟩
  · exact .inl (failed_step hfailed hstep)
  · exact hhears.client hpb h.client h.isClient hstep
  · obtain ⟨hauth', ph', hready'⟩ := ready_step hready hstep
    exact .inr (.inr ⟨iv, ph', hauth'.trans hauth, hiv, hready'⟩)

lemma told_clientData {n : ℕ} {c' : Endpoint} (hpb : pb.Bounded) (h : Counts A pb key s)
    (hdata : s.client.data A pb (s.server.link.take n) = some c') :
    Told A pb key c' { s.server with link := s.server.link.drop n } := by
  rcases h.told with hfailed | hhears | ⟨iv, ph, hauth, hiv, hready⟩
  · simp only [Endpoint.data, hfailed, AuthPhase.current] at hdata
    cases hdata
  · exact hhears.clientData hpb h.client.keyed hdata
  · obtain ⟨hauth', ph', hready'⟩ := ready_data hready hdata
    exact .inr (.inr ⟨iv, ph', hauth'.trans hauth, hiv, hready'⟩)

lemma step_counts {a : AuthAction} (hpb : pb.Bounded) (h : Counts A pb key s)
    (hstep : step A pb s a = some s') : Counts A pb key s' := by
  cases a with
  | client a =>
      obtain ⟨c', hc', rfl⟩ := Option.map_eq_some_iff.mp hstep
      exact ⟨Endpoint.step_local h.client hc', h.server,
        (Endpoint.step_isLocal hc').trans h.isClient, h.isServer, h.bound,
        told_client (s := s) hpb h hc'⟩
  | server a =>
      obtain ⟨e, he, rfl⟩ := Option.map_eq_some_iff.mp hstep
      have hprogress := Progress.step h.server h.isServer he
      exact ⟨h.client, Endpoint.step_local h.server he, h.isClient,
        (Endpoint.step_isLocal he).trans h.isServer, hprogress.bound h.bound,
        h.told.server hprogress⟩
  | toClient n =>
      obtain ⟨c', hc', rfl⟩ := Option.map_eq_some_iff.mp hstep
      exact ⟨Endpoint.data_local h.client hc', h.server.transport _ s.server.sendFailed _ id,
        (Endpoint.data_isLocal hc').trans h.isClient, h.isServer, h.bound,
        told_clientData (s := s) hpb h hc'⟩
  | toServer n =>
      obtain ⟨e, he, rfl⟩ := Option.map_eq_some_iff.mp hstep
      have hprogress := Progress.data h.server h.isServer he
      -- the client only loses bytes of its own link
      have htold : Told A pb key { s.client with link := s.client.link.drop n } s.server :=
        h.told.imp_right fun h => h.imp_left fun hhears =>
          ⟨hhears.phase, hhears.decryptIv, hhears.bytes⟩
      exact ⟨h.client.transport _ s.client.sendFailed _ id, Endpoint.data_local h.server he,
        h.isClient, (Endpoint.data_isLocal he).trans h.isServer, hprogress.bound h.bound,
        htold.server hprogress⟩

lemma init_counts {ctx : CipherContext}
    (hctx : CipherContext.new "chacha20_poly1305" key = some ctx)
    (clientType : MuxConnectionType) (clientFlags serverFlags : NodeFlags) :
    Counts A pb (CipherContext.resize 32 key) (init ctx clientType clientFlags serverFlags) := by
  have hiv : ctx.decryptIv = defaultIv := by
    obtain rfl := Option.some.inj hctx
    rfl
  refine ⟨new_local hctx _ _ _, new_local hctx _ _ _, rfl, rfl, ?_, ?_⟩
  · intro iv hiv
    cases hiv
  · exact .inr (.inl ⟨.inl rfl, hiv, [], [], rfl, ⟨[], rfl, fun _ => rfl⟩, rfl⟩)

lemma run_counts {ctx : CipherContext} (hpb : pb.Bounded)
    (hctx : CipherContext.new "chacha20_poly1305" key = some ctx)
    {clientType : MuxConnectionType} {clientFlags serverFlags : NodeFlags} {as : List AuthAction}
    (h : exec (step A pb) (init ctx clientType clientFlags serverFlags) as = some s) :
    Counts A pb (CipherContext.resize 32 key) s :=
  exec_invariant (fun _ _ _ hs hstep => step_counts hpb hs hstep) (init_counts hctx _ _ _) h

/-- An end whose iv is in the server's range, if it has one. -/
lemma freshNonces_of_local {e : Endpoint} (h : e.Local pb key)
    (hiv : ∀ iv ph, e.phase = .ready ph → e.authIv = some iv → iv ≤ maxAuthIv)
    (hlen : e.written.length ≤ defaultIv.toNat - maxAuthIv.toNat) : FreshNonces e.sealedBy := by
  by_cases hready : ∃ ph, e.phase = .ready ph
  · obtain ⟨ph, hphase⟩ := hready
    have hlocal := h
    simp only [Endpoint.Local, hphase] at hlocal
    obtain ⟨iv, hcounting, -⟩ := hlocal
    exact hcounting.freshNonces (hiv iv ph hphase hcounting.authIv) hlen
  · exact freshNonces_short (h.fresh fun ph hphase => hready ⟨ph, hphase⟩).sealed

/-- **The nonces of a connection.**  In every run of a connection, from `CipherContext::New` through
the handshake and any number of events either way:

* the frames an end has sealed have nonces of their own, as long as it has not written the
  102370935124 events that take its counter back to the value its first frame was sealed with;
* the head and the body of a frame share its nonce;
* there is one iv from which the ends count when they have been authenticated, with the one key. -/
theorem frames_have_distinct_nonces (A : Aead) (pb : Nanopb) (hpb : pb.Bounded) (key : Bytes)
    (ctx : CipherContext) (hctx : CipherContext.new "chacha20_poly1305" key = some ctx)
    (clientType : MuxConnectionType) (clientFlags serverFlags : NodeFlags)
    (as : List AuthAction) (s : AuthState)
    (h : exec (step A pb) (init ctx clientType clientFlags serverFlags) as = some s) :
    (∀ e, e = s.client ∨ e = s.server →
      (e.written.length ≤ 102370935124 → FreshNonces e.sealedBy) ∧
        ∀ frame ∈ e.sealedBy, ∀ a ∈ frame, ∀ b ∈ frame, (a.key, a.nonce) = (b.key, b.nonce)) ∧
      ∃ iv, ∀ e, e = s.client ∨ e = s.server → ∀ ph, e.phase = .ready ph →
        SealsFrom (CipherContext.resize 32 key) iv e := by
  have hcounts := run_counts hpb hctx h
  have hone : ∀ {e : Endpoint}, e.Local pb (CipherContext.resize 32 key) →
      ∀ frame ∈ e.sealedBy, ∀ a ∈ frame, ∀ b ∈ frame, (a.key, a.nonce) = (b.key, b.nonce) := by
    intro e he frame hframe a ha b hb
    obtain ⟨iv, ev, rfl⟩ := he.exists_frameSeals frame hframe
    obtain ⟨hkey, hnonce⟩ := nonce_of_mem_frameSeals ha
    obtain ⟨hkey', hnonce'⟩ := nonce_of_mem_frameSeals hb
    rw [hkey, hnonce, hkey', hnonce']
  refine ⟨?_, ?_⟩
  · rintro e (rfl | rfl)
    · refine ⟨fun hlen => freshNonces_of_local hcounts.client (fun iv ph hphase hauth => ?_) hlen,
        hone hcounts.client⟩
      exact hcounts.bound iv (hcounts.authIv_of_client hphase hauth)
    · exact ⟨fun hlen => freshNonces_of_local hcounts.server
        (fun iv _ _ hauth => hcounts.bound iv hauth) hlen, hone hcounts.server⟩
  · refine ⟨s.server.authIv.getD 0, ?_⟩
    rintro e (rfl | rfl) ph hphase
    · have hlocal := hcounts.client
      simp only [Endpoint.Local, hphase] at hlocal
      obtain ⟨iv, hcounting, -⟩ := hlocal
      rw [hcounts.authIv_of_client hphase hcounting.authIv]
      exact hcounting.sealsFrom
    · have hlocal := hcounts.server
      simp only [Endpoint.Local, hphase] at hlocal
      obtain ⟨iv, hcounting, -⟩ := hlocal
      rw [hcounting.authIv]
      exact hcounting.sealsFrom

/-- An entry node and an exit node, when each of them has written an event after the handshake. -/
theorem frames_have_distinct_nonces_entry_exit :
    ∃ ctx as s, CipherContext.new "chacha20_poly1305" [1] = some ctx ∧
      exec (step chacha20Poly1305 protobuf)
        (init ctx .exit { isEntryNode := true } { isExitNode := true }) as = some s ∧
      (s.client.sealedBy.length = 2 ∧ FreshNonces s.client.sealedBy) ∧
      ∃ iv, SealsFrom (CipherContext.resize 32 [1]) iv s.client ∧
        SealsFrom (CipherContext.resize 32 [1]) iv s.server := by
  obtain ⟨ctx, hctx⟩ : ∃ ctx, CipherContext.new "chacha20_poly1305" [1] = some ctx := ⟨_, rfl⟩
  have hfits : ((MuxEvent.ofBody .streamCloseRequest).body.encoded protobuf).length ≤
      kMaxChunkSize := by decide
  obtain ⟨as, s, hs, -, ⟨hc, hserver⟩, -, hsealed, -⟩ := exchange_run chacha20Poly1305
    length_protobuf_le hctx .exit { isEntryNode := true } { isExitNode := true } [117] 7
    (show (5 : UInt64) ≤ maxAuthIv by decide) rfl hfits hfits
  obtain ⟨hframes, iv, hcounts⟩ := frames_have_distinct_nonces chacha20Poly1305 protobuf
    length_protobuf_le [1] ctx hctx .exit { isEntryNode := true } { isExitNode := true } as s hs
  have hlen : s.client.written.length ≤ 102370935124 := by
    have hle := (run_counts length_protobuf_le hctx hs).client.length_written_le
    rw [hsealed] at hle
    omega
  exact ⟨ctx, as, s, hctx, hs, ⟨hsealed, (hframes _ (.inl rfl)).1 hlen⟩, iv,
    hcounts _ (.inl rfl) _ hc, hcounts _ (.inr rfl) _ hserver⟩

/-- The frame of a message has two seals. -/
lemma frameSeals_proto (pb : Nanopb) (key : Bytes) (iv : UInt64) (k : PbKind) (m : k.Message) :
    frameSeals pb key iv (.ofBody (.proto k m)) =
      [⟨key, nonceOf iv 12, (CipherContext.withLen pb (.ofBody (.proto k m))).head.encode⟩,
        ⟨key, nonceOf iv 12, pb.encodeDelimited k m⟩] := by
  rw [frameSeals, if_pos ⟨List.length_pos_of_ne_nil (pb.encode_ne_nil k m), rfl⟩]
  rfl

/-- An authenticated connection has used one nonce four times: for the head and the body of the
`AuthRequest`, and for those of the `AuthResponse`. -/
theorem handshake_reuses_nonce :
    ∃ ctx as s, CipherContext.new "chacha20_poly1305" [1] = some ctx ∧
      exec (step chacha20Poly1305 protobuf)
        (init ctx .exit { isEntryNode := true } { isExitNode := true }) as = some s ∧
      s.client.phase = .ready .idle ∧ s.server.phase = .ready .idle ∧
      ¬ s.client.seals.Pairwise (fun a b => (a.key, a.nonce) ≠ (b.key, b.nonce)) ∧
      ∃ a ∈ s.client.seals, ∃ b ∈ s.server.seals, (a.key, a.nonce) = (b.key, b.nonce) := by
  obtain ⟨ctx, hctx⟩ : ∃ ctx, CipherContext.new "chacha20_poly1305" [1] = some ctx := ⟨_, rfl⟩
  obtain ⟨n, m, s, hs, ⟨hc, hserver⟩, -, hup, hdown⟩ := handshake_run chacha20Poly1305
    length_protobuf_le hctx .exit { isEntryNode := true } { isExitNode := true } [117] 7
    (show (5 : UInt64) ≤ maxAuthIv by decide) rfl
  rw [requestEvent, frameSeals_proto] at hup
  rw [responseEvent, frameSeals_proto] at hdown
  refine ⟨ctx, _, s, hctx, hs, hc, hserver, ?_, ?_⟩
  · rw [Endpoint.seals, hup]
    simp
  · rw [Endpoint.seals, Endpoint.seals, hup, hdown]
    exact ⟨_, List.mem_cons_self, _, List.mem_cons_self, rfl⟩

end AuthState

end Snova
