import Snova.Properties.Flow

/-!
# One end of a connection

What an end of a connection guarantees by itself, whatever its peer does.  `startWrite_spec` lists
the outcomes of `Write` up to its suspension.  `Local` says, for each phase of the handshake and
after it, which counter the next frame is sealed with and which calls of `EVP_AEAD_CTX_seal` have
been made; every step keeps it (`step_local`, `data_local`).
-/

namespace Snova

open CipherContext (Keyed sealedFrame frameSeals decoder defaultIv)

variable {A : Aead} {pb : Nanopb} {key : Bytes}

namespace Endpoint

variable {e : Endpoint}

/-- The seals of the calls of `Encrypt` that succeeded. -/
def sealedBy (e : Endpoint) : List (List SealCall) := (e.encrypts.filter (·.1 = 0)).map (·.2)

/-- The outcomes of `Write` up to its suspension. -/
inductive WriteSpec (A : Aead) (pb : Nanopb) (key : Bytes) (e : Endpoint) (ev : MuxEvent) :
    Endpoint × Bool → Prop
  | fail (rc : Int) (seals : List SealCall) (nonzero : rc ≠ 0) :
      WriteSpec A pb key e ev (e.logEncrypt rc seals, false)
  | ok :
      WriteSpec A pb key e ev (((e.setCtx
        { e.reader.cipherCtx with encryptIv := e.reader.cipherCtx.encryptIv + 1 }).logEncrypt 0
          (frameSeals pb key e.reader.cipherCtx.encryptIv ev)).asyncWrite
            (sealedFrame A pb key e.reader.cipherCtx.encryptIv ev), true)

lemma startWrite_spec (A : Aead) (pb : Nanopb) (hk : e.reader.cipherCtx.Keyed key)
    (ev : MuxEvent) : WriteSpec A pb key e ev (e.startWrite A pb ev) := by
  have hspec := CipherContext.encrypt_spec A pb hk ev writeBufferSize
  unfold startWrite
  generalize e.reader.cipherCtx.encrypt A pb ev writeBufferSize = r at hspec
  cases hspec with
  | fail rc ev' seals nonzero sub =>
      simp only [ne_eq, nonzero, not_false_eq_true, if_true]
      exact .fail rc seals nonzero
  | ok =>
      simp only [ne_eq, not_true_eq_false, if_false]
      exact .ok

lemma sealedBy_concat_fail {rc : Int} (h : rc ≠ 0) (seals : List SealCall) :
    (e.logEncrypt rc seals).sealedBy = e.sealedBy := by
  simp [sealedBy, logEncrypt, h]

lemma sealedBy_concat {e' : Endpoint} {seals : List SealCall}
    (h : e'.encrypts = e.encrypts ++ [(0, seals)]) : e'.sealedBy = e.sealedBy ++ [seals] := by
  simp [sealedBy, h]

/-- Everything an end can do by itself. -/
inductive StepSpec (A : Aead) (pb : Nanopb) (e : Endpoint) : EndpointAction → Endpoint → Prop
  | clientAuth {user : Bytes} {clientId : UInt64} (hphase : e.phase = .start) :
      StepSpec A pb e (.clientAuth user clientId) (e.clientAuth A pb user clientId)
  | serverAuth {iv : UInt64} (hphase : e.phase = .start) (hiv : iv ≤ maxAuthIv) :
      StepSpec A pb e (.serverAuth iv) (e.serverAuth A pb iv)
  | transmit {n sent : ℕ} {frame : Bytes} (hsending : e.sending = some (frame, sent))
      (hok : e.sendFailed = false) :
      StepSpec A pb e (.transmit n)
        { e with link := e.link ++ (frame.drop sent).take n, sending := some (frame, sent + n) }
  | written {sent : ℕ} {frame : Bytes} (hsending : e.sending = some (frame, sent))
      (hsent : sent = frame.length) :
      StepSpec A pb e .written ({ e with sending := none }.afterWrite A pb true)
  | writeError (hsending : e.sending ≠ none) :
      StepSpec A pb e .writeError
        ({ e with sending := none, sendFailed := true }.afterWrite A pb false)
  | disconnected {rc : Int} {ph : ReadPhase} {current : Span} (hphase : e.phase = .ready ph)
      (hcurrent : e.phase.current = some current) (hrc : rc ≠ 0) :
      StepSpec A pb e (.readError rc)
        ((e.setReader (e.reader.readEventError current rc).1).enter (.ready (.disconnected rc)))
  | readError {rc : Int} {current : Span} (hready : ∀ ph, e.phase ≠ .ready ph)
      (hcurrent : e.phase.current = some current) (hrc : rc ≠ 0) :
      StepSpec A pb e (.readError rc) (e.afterRead A pb (e.reader.readEventError current rc))
  | write {ev : MuxEvent} {ph : ReadPhase} (hphase : e.phase = .ready ph)
      (hidle : e.sending = none) : StepSpec A pb e (.write ev) (e.write A pb ev)
  | readEvent (hphase : e.phase = .ready .idle) :
      StepSpec A pb e .readEvent (e.afterLoopRead (e.reader.readEvent A pb))

lemma step_spec {e' : Endpoint} {a : EndpointAction} (h : e.step A pb a = some e') :
    StepSpec A pb e a e' := by
  cases a with
  | clientAuth user clientId =>
      simp only [step] at h
      split at h
      · next hphase =>
          obtain rfl := Option.some.inj h
          exact .clientAuth hphase
      · cases h
  | serverAuth iv =>
      simp only [step] at h
      split at h
      · next hphase =>
          split at h
          · next hiv =>
              obtain rfl := Option.some.inj h
              exact .serverAuth hphase hiv
          · cases h
      · cases h
  | transmit n =>
      simp only [step] at h
      split at h
      · next frame sent hsending =>
          split at h
          · next hcond =>
              obtain rfl := Option.some.inj h
              exact .transmit hsending hcond.1
          · cases h
      · cases h
  | written =>
      simp only [step] at h
      split at h
      · next frame sent hsending =>
          split at h
          · next hsent =>
              obtain rfl := Option.some.inj h
              exact .written hsending hsent
          · cases h
      · cases h
  | writeError =>
      simp only [step] at h
      split at h
      · next w hsending =>
          obtain rfl := Option.some.inj h
          exact .writeError (by simp [hsending])
      · cases h
  | readError rc =>
      simp only [step] at h
      split at h
      · next ph current hphase hcurrent =>
          split at h
          · cases h
          · next hrc =>
              obtain rfl := Option.some.inj h
              exact .disconnected hphase hcurrent hrc
      · next current hcurrent hready =>
          split at h
          · cases h
          · next hrc =>
              obtain rfl := Option.some.inj h
              exact .readError hready hcurrent hrc
      · cases h
  | write ev =>
      simp only [step] at h
      split at h
      · next ph hphase hidle =>
          obtain rfl := Option.some.inj h
          exact .write hphase hidle
      · cases h
  | readEvent =>
      simp only [step] at h
      split at h
      · next hphase =>
          obtain rfl := Option.some.inj h
          exact .readEvent hphase
      · cases h

/-- An end in its handshake: nothing has been exchanged, and at most one frame sealed. -/
structure Fresh (pb : Nanopb) (key : Bytes) (e : Endpoint) : Prop where
  keyed : e.reader.cipherCtx.Keyed key
  written : e.written = []
  events : e.events = []
  sealed : e.sealedBy = [] ∨ ∃ ev, e.sealedBy = [frameSeals pb key defaultIv ev]

/-- An end that has not encrypted anything yet. -/
structure Early (e : Endpoint) : Prop where
  encryptIv : e.reader.cipherCtx.encryptIv = defaultIv
  sealed : e.sealedBy = []
  idle : e.sending = none
  authIv : e.authIv = none

/-- An authenticated end: its counter started at the iv of the handshake and has moved by one with
each event written. -/
structure Counting (pb : Nanopb) (key : Bytes) (e : Endpoint) (iv : UInt64) : Prop where
  keyed : e.reader.cipherCtx.Keyed key
  authIv : e.authIv = some iv
  encryptIv : e.reader.cipherCtx.encryptIv = iv + UInt64.ofNat e.written.length
  sealed : ∃ first, (first = [] ∨ ∃ ev, first = [frameSeals pb key defaultIv ev]) ∧
    e.sealedBy = first ++ (number iv e.written).map fun x => frameSeals pb key x.1 x.2

/-- What an end guarantees in each phase. -/
def Local (pb : Nanopb) (key : Bytes) (e : Endpoint) : Prop :=
  match e.phase with
  | .start => e.Fresh pb key ∧ e.Early
  | .writingRequest _ => e.Fresh pb key ∧ e.isLocal = true
  | .readingResponse _ _ => e.Fresh pb key ∧ e.isLocal = true
  | .readingRequest iv _ => e.Fresh pb key ∧ e.Early ∧ iv ≤ maxAuthIv
  | .writingResponse _ iv => e.Fresh pb key ∧ e.authIv = some iv ∧ iv ≤ maxAuthIv
  | .failed => e.Fresh pb key
  | .ready _ => ∃ iv, e.Counting pb key iv ∧ (e.isLocal = false → iv ≤ maxAuthIv)

lemma Local.fresh (h : e.Local pb key) (hphase : ∀ p, e.phase ≠ .ready p) : e.Fresh pb key := by
  unfold Local at h
  split at h
  · exact h.1
  · exact h.1
  · exact h.1
  · exact h.1
  · exact h.1
  · exact h
  · next p hp => exact absurd hp (hphase p)

lemma Local.keyed (h : e.Local pb key) : e.reader.cipherCtx.Keyed key := by
  by_cases hready : ∃ p, e.phase = .ready p
  · obtain ⟨p, hp⟩ := hready
    simp only [Local, hp] at h
    obtain ⟨iv, h, -⟩ := h
    exact h.keyed
  · exact (h.fresh fun p hp => hready ⟨p, hp⟩).keyed

/-- A read leaves the key and the sending counter alone. -/
structure ReadKeeps (key : Bytes) (r r' : Reader) : Prop where
  keyed : r'.cipherCtx.Keyed key
  encryptIv : r'.cipherCtx.encryptIv = r.cipherCtx.encryptIv

lemma readKeeps_of_turn {r : Reader} {pend : Bytes} {p : Reader × ReadStatus}
    (hk : r.cipherCtx.Keyed key) (h : TurnSpec A pb r pend p) : ReadKeeps key r p.1 := by
  cases h with
  | more r' current next ctx front short => exact ⟨by rw [ctx]; exact hk, by rw [ctx]⟩
  | fail r' rc event next ctx nonzero => exact ⟨by rw [ctx]; exact hk, by rw [ctx]⟩
  | item r' event n next ctx readable =>
      exact ⟨by rw [ctx]; exact hk.withIvs _ _, by rw [ctx]⟩

/-- The handshake's frame is sealed with the counter value every connection starts with. -/
lemma Early.sealedBy_concat (h : e.Early) {e' : Endpoint} {ev : MuxEvent}
    (hencrypts : e'.encrypts =
      e.encrypts ++ [(0, frameSeals pb key e.reader.cipherCtx.encryptIv ev)]) :
    e'.sealedBy = [frameSeals pb key defaultIv ev] := by
  rw [Endpoint.sealedBy_concat hencrypts, h.sealed, h.encryptIv, List.nil_append]

lemma clientAuth_local (h : e.Fresh pb key) (hearly : e.Early) (user : Bytes)
    (clientId : UInt64) : (e.clientAuth A pb user clientId).Local pb key := by
  unfold clientAuth
  split
  · exact ⟨h.keyed, h.written, h.events, h.sealed⟩
  · next hlocal =>
      have hspec := startWrite_spec (e := e.setClientId clientId) A pb h.keyed
        (.ofBody (.proto .authRequest (authRequest e.flags user clientId)))
      generalize startWrite A pb _ _ = w at hspec
      cases hspec with
      | fail rc seals nonzero =>
          refine ⟨h.keyed, h.written, h.events, .inl ?_⟩
          exact (sealedBy_concat_fail nonzero seals).trans hearly.sealed
      | ok =>
          exact ⟨⟨h.keyed.withIvs _ _, h.written, h.events,
            .inr ⟨_, hearly.sealedBy_concat rfl⟩⟩, Bool.eq_true_of_not_eq_false hlocal⟩

lemma Fresh.counting {iv : UInt64} {e' : Endpoint} (h : e.Fresh pb key)
    (hctx : e'.reader.cipherCtx = e.reader.cipherCtx.updateNonce iv) (hauth : e'.authIv = some iv)
    (hwritten : e'.written = e.written) (hencrypts : e'.encrypts = e.encrypts) :
    e'.Counting pb key iv := by
  rw [h.written] at hwritten
  refine ⟨by rw [hctx]; exact h.keyed.withIvs _ _, hauth, ?_, e.sealedBy, h.sealed, ?_⟩
  · rw [hctx, hwritten]
    exact (UInt64.add_zero iv).symm
  · rw [sealedBy, hencrypts, hwritten]
    exact (List.append_nil _).symm

lemma afterResponse_local {p : Reader × ReadStatus} (h : e.Fresh pb key)
    (hlocal : e.isLocal = true) (hread : ReadKeeps key e.reader p.1) (user : Bytes) :
    (e.afterResponse user p).Local pb key := by
  obtain ⟨r, status⟩ := p
  have hfresh : Fresh pb key (e.setReader r) := ⟨hread.keyed, h.written, h.events, h.sealed⟩
  have hfailed : ((e.setReader r).enter .failed).Local pb key :=
    ⟨hread.keyed, h.written, h.events, h.sealed⟩
  cases status with
  | reading current => exact ⟨⟨hread.keyed, h.written, h.events, h.sealed⟩, hlocal⟩
  | returned rc event =>
      rw [afterResponse]
      split
      · exact hfailed
      · split
        · next response _ =>
            split
            · exact ⟨response.iv, hfresh.counting rfl rfl rfl rfl,
                fun hf => absurd (hlocal.symm.trans hf) (by decide)⟩
            · exact ⟨hread.keyed, h.written, h.events, h.sealed⟩
        · exact hfailed

lemma finishServerAuth_local {request : AuthRequest} {iv : UInt64} (h : e.Fresh pb key)
    (success : Bool) (hiv : success = true → e.authIv = some iv ∧ iv ≤ maxAuthIv) :
    (e.finishServerAuth request iv success).Local pb key := by
  cases success with
  | false => exact ⟨h.keyed, h.written, h.events, h.sealed⟩
  | true =>
      obtain ⟨hauth, hle⟩ := hiv rfl
      exact ⟨iv, h.counting rfl hauth rfl rfl, fun _ => hle⟩

lemma answer_local {request : AuthRequest} {iv : UInt64} (h : e.Fresh pb key) (hearly : e.Early)
    (hiv : iv ≤ maxAuthIv) : (e.answer A pb request iv).Local pb key := by
  unfold answer
  split
  · exact ⟨h.keyed, h.written, h.events, h.sealed⟩
  · have hspec := startWrite_spec (e := e.setType (authType request)) A pb h.keyed
      (.ofBody (.proto .authResponse { success := true, iv := iv }))
    generalize startWrite A pb _ _ = w at hspec
    cases hspec with
    | fail rc seals nonzero =>
        have hfresh : Fresh pb key ((e.setType (authType request)).logEncrypt rc seals) :=
          ⟨h.keyed, h.written, h.events,
            .inl ((sealedBy_concat_fail nonzero seals).trans hearly.sealed)⟩
        exact finishServerAuth_local hfresh false (fun hf => by cases hf)
    | ok =>
        exact ⟨⟨h.keyed.withIvs _ _, h.written, h.events,
          .inr ⟨_, hearly.sealedBy_concat rfl⟩⟩, rfl, hiv⟩

lemma afterRequest_local {p : Reader × ReadStatus} {iv : UInt64} (h : e.Fresh pb key)
    (hearly : e.Early) (hiv : iv ≤ maxAuthIv) (hread : ReadKeeps key e.reader p.1) :
    (e.afterRequest A pb iv p).Local pb key := by
  obtain ⟨r, status⟩ := p
  have hfresh : Fresh pb key (e.setReader r) := ⟨hread.keyed, h.written, h.events, h.sealed⟩
  have hfailed : ((e.setReader r).enter .failed).Local pb key :=
    ⟨hread.keyed, h.written, h.events, h.sealed⟩
  have hearly' : Early (e.setReader r) :=
    ⟨hread.encryptIv.trans hearly.encryptIv, hearly.sealed, hearly.idle, hearly.authIv⟩
  cases status with
  | reading current =>
      exact ⟨⟨hread.keyed, h.written, h.events, h.sealed⟩,
        ⟨hearly'.encryptIv, hearly.sealed, hearly.idle, hearly.authIv⟩, hiv⟩
  | returned rc event =>
      rw [afterRequest]
      split
      · exact hfailed
      · split
        · exact answer_local hfresh hearly' hiv
        · exact hfailed

lemma Counting.read {iv : UInt64} {e' : Endpoint} (h : e.Counting pb key iv)
    (hread : ReadKeeps key e.reader e'.reader) (hauth : e'.authIv = e.authIv)
    (hwritten : e'.written = e.written) (hencrypts : e'.encrypts = e.encrypts) :
    e'.Counting pb key iv := by
  refine ⟨hread.keyed, hauth.trans h.authIv, ?_, ?_⟩
  · rw [hread.encryptIv, h.encryptIv, hwritten]
  · rw [sealedBy, hencrypts, hwritten]
    exact h.sealed

lemma write_phase (A : Aead) (pb : Nanopb) (e : Endpoint) (ev : MuxEvent) :
    (e.write A pb ev).phase = e.phase ∧ (e.write A pb ev).isLocal = e.isLocal ∧
      (e.write A pb ev).authIv = e.authIv := by
  unfold write startWrite
  dsimp only
  split
  · next heq =>
      split at heq
      · cases heq
      · obtain ⟨rfl, -⟩ := Prod.mk.inj heq
        exact ⟨rfl, rfl, rfl⟩
  · next heq =>
      split at heq
      · obtain ⟨rfl, -⟩ := Prod.mk.inj heq
        exact ⟨rfl, rfl, rfl⟩
      · cases heq

lemma Counting.write {iv : UInt64} (h : e.Counting pb key iv) (ev : MuxEvent) :
    (e.write A pb ev).Counting pb key iv := by
  have hspec := startWrite_spec A pb h.keyed ev
  unfold Endpoint.write
  generalize e.startWrite A pb ev = w at hspec
  obtain ⟨first, hfirst, hsealed⟩ := h.sealed
  cases hspec with
  | fail rc seals nonzero =>
      refine ⟨h.keyed, h.authIv, h.encryptIv, first, hfirst, ?_⟩
      exact (sealedBy_concat_fail nonzero seals).trans hsealed
  | ok =>
      refine ⟨h.keyed.withIvs _ _, h.authIv, ?_, first, hfirst, ?_⟩
      · show e.reader.cipherCtx.encryptIv + 1 = iv + UInt64.ofNat (e.written ++ [ev]).length
        rw [h.encryptIv, List.length_append, List.length_singleton, add_ofNat_succ,
          UInt64.add_assoc iv 1, UInt64.add_comm 1, ← UInt64.add_assoc]
      · simp only [number_concat, List.map_append, ← List.append_assoc, ← hsealed]
        rw [← h.encryptIv]
        exact sealedBy_concat rfl

lemma afterLoopRead_local {p : Reader × ReadStatus} {ph : ReadPhase} (h : e.Local pb key)
    (hphase : e.phase = .ready ph) (hread : ReadKeeps key e.reader p.1) :
    (e.afterLoopRead p).Local pb key := by
  simp only [Local, hphase] at h
  obtain ⟨iv, h, hiv⟩ := h
  obtain ⟨r, status⟩ := p
  cases status with
  | reading current => exact ⟨iv, h.read hread rfl rfl rfl, hiv⟩
  | returned rc event =>
      rw [afterLoopRead]
      split
      · exact ⟨iv, h.read hread rfl rfl rfl, hiv⟩
      · exact ⟨iv, h.read hread rfl rfl rfl, hiv⟩

lemma afterRead_local {p : Reader × ReadStatus} {current : Span} (h : e.Local pb key)
    (hcurrent : e.phase.current = some current) (hread : ReadKeeps key e.reader p.1) :
    (e.afterRead A pb p).Local pb key := by
  unfold afterRead
  split
  · next user current hphase =>
      simp only [Local, hphase] at h
      exact afterResponse_local h.1 h.2 hread user
  · next iv current hphase =>
      simp only [Local, hphase] at h
      exact afterRequest_local h.1 h.2.1 h.2.2 hread
  · next hresponse hrequest =>
      cases hphase : e.phase with
      | ready ph => exact afterLoopRead_local h hphase hread
      | readingResponse user current => exact absurd hphase (hresponse user current)
      | readingRequest iv current => exact absurd hphase (hrequest iv current)
      | start => rw [hphase] at hcurrent; cases hcurrent
      | writingRequest user => rw [hphase] at hcurrent; cases hcurrent
      | writingResponse request iv => rw [hphase] at hcurrent; cases hcurrent
      | failed => rw [hphase] at hcurrent; cases hcurrent

/-- The transport does not matter, except that an end which has not encrypted anything has no
pending `AsyncWrite`. -/
lemma Local.transport (h : e.Local pb key) (sending : Option (Bytes × ℕ)) (sendFailed : Bool)
    (link : Bytes) (hsending : e.sending = none → sending = none) :
    Local pb key { e with sending := sending, sendFailed := sendFailed, link := link } := by
  have hfresh : e.Fresh pb key →
      Fresh pb key { e with sending := sending, sendFailed := sendFailed, link := link } :=
    fun h => ⟨h.keyed, h.written, h.events, h.sealed⟩
  have hearly : e.Early →
      Early { e with sending := sending, sendFailed := sendFailed, link := link } :=
    fun h => ⟨h.encryptIv, h.sealed, hsending h.idle, h.authIv⟩
  unfold Local at h ⊢
  dsimp only
  split at h
  · exact h.imp hfresh hearly
  · exact h.imp_left hfresh
  · exact h.imp_left hfresh
  · exact h.imp hfresh (And.imp_left hearly)
  · exact h.imp_left hfresh
  · exact hfresh h
  · obtain ⟨iv, h, hiv⟩ := h
    exact ⟨iv, ⟨h.keyed, h.authIv, h.encryptIv, h.sealed⟩, hiv⟩

lemma readKeeps_readEvent (A : Aead) (pb : Nanopb) (hk : e.reader.cipherCtx.Keyed key) :
    ReadKeeps key e.reader (e.reader.readEvent A pb).1 :=
  readKeeps_of_turn hk (readEventTurn_spec A pb e.reader e.reader.readableData)

lemma afterWrite_local (h : e.Local pb key) (success : Bool) :
    (e.afterWrite A pb success).Local pb key := by
  unfold afterWrite
  split
  · next user hp =>
      simp only [Local, hp] at h
      split
      · exact afterResponse_local h.1 h.2 (readKeeps_readEvent A pb h.1.keyed) user
      · exact ⟨h.1.keyed, h.1.written, h.1.events, h.1.sealed⟩
  · next request iv hp =>
      simp only [Local, hp] at h
      exact finishServerAuth_local h.1 success fun _ => h.2
  · exact h

lemma step_local {e' : Endpoint} {a : EndpointAction} (h : e.Local pb key)
    (hstep : e.step A pb a = some e') : e'.Local pb key := by
  cases step_spec hstep with
  | clientAuth hphase =>
      simp only [Local, hphase] at h
      exact clientAuth_local h.1 h.2 _ _
  | serverAuth hphase hiv =>
      simp only [Local, hphase] at h
      unfold serverAuth
      split
      · exact ⟨h.1.keyed, h.1.written, h.1.events, h.1.sealed⟩
      · exact afterRequest_local h.1 h.2 hiv (readKeeps_readEvent A pb h.1.keyed)
  | transmit hsending hok => exact h.transport _ e.sendFailed _ (by simp [hsending])
  | written hsending hsent =>
      exact afterWrite_local (h.transport none e.sendFailed e.link fun _ => rfl) true
  | writeError hsending =>
      exact afterWrite_local (h.transport none true e.link fun _ => rfl) false
  | disconnected hphase hcurrent hrc =>
      simp only [Local, hphase] at h
      obtain ⟨iv, h, hiv⟩ := h
      exact ⟨iv, h.read ⟨h.keyed, rfl⟩ rfl rfl rfl, hiv⟩
  | readError hready hcurrent hrc => exact afterRead_local h hcurrent ⟨h.keyed, rfl⟩
  | @write ev ph hphase hidle =>
      simp only [Local, hphase] at h
      obtain ⟨iv, h, hiv⟩ := h
      obtain ⟨hphase', hlocal, -⟩ := write_phase A pb e ev
      simp only [Local, hphase', hphase, hlocal]
      exact ⟨iv, h.write ev, hiv⟩
  | readEvent hphase => exact afterLoopRead_local h hphase (readKeeps_readEvent A pb h.keyed)

lemma data_local {e' : Endpoint} {bs : Bytes} (h : e.Local pb key)
    (hdata : e.data A pb bs = some e') : e'.Local pb key := by
  unfold data at hdata
  split at hdata
  · next current hcurrent =>
      split at hdata
      · next hbs =>
          obtain rfl := Option.some.inj hdata
          have hkeeps := readKeeps_of_turn (r := { e.reader with
            readBuffer := e.reader.readBuffer.store current.len bs hbs.2 }) h.keyed
            (readEventTurn_spec A pb _ ⟨0, current.len + bs.length, by omega⟩)
          exact afterRead_local h hcurrent ⟨hkeeps.keyed, hkeeps.encryptIv⟩
      · cases hdata
  · cases hdata

/-! ## What does not change -/

/-- What reading leaves alone. -/
structure SameOut (e e' : Endpoint) : Prop where
  isLocal : e'.isLocal = e.isLocal
  link : e'.link = e.link
  sendFailed : e'.sendFailed = e.sendFailed
  sending : e'.sending = e.sending
  written : e'.written = e.written

lemma SameOut.unsent {e' : Endpoint} (h : SameOut e e') : e'.unsent = e.unsent := by
  unfold Endpoint.unsent
  rw [h.sending]

lemma SameOut.flow {e' : Endpoint} (h : SameOut e e') {pend : Bytes} {q : List (UInt64 × MuxEvent)}
    (hflow : Flow A pb key e pend q) : Flow A pb key e' pend q :=
  hflow.congr h.link h.sendFailed h.unsent

lemma afterResponse_sameOut (e : Endpoint) (user : Bytes) (p : Reader × ReadStatus) :
    SameOut e (e.afterResponse user p) := by
  obtain ⟨r, status⟩ := p
  cases status with
  | reading current => exact ⟨rfl, rfl, rfl, rfl, rfl⟩
  | returned rc event =>
      rw [afterResponse]
      split
      · exact ⟨rfl, rfl, rfl, rfl, rfl⟩
      · split
        · split
          · exact ⟨rfl, rfl, rfl, rfl, rfl⟩
          · exact ⟨rfl, rfl, rfl, rfl, rfl⟩
        · exact ⟨rfl, rfl, rfl, rfl, rfl⟩

lemma afterLoopRead_sameOut (e : Endpoint) (p : Reader × ReadStatus) :
    SameOut e (e.afterLoopRead p) := by
  obtain ⟨r, status⟩ := p
  cases status with
  | reading current => exact ⟨rfl, rfl, rfl, rfl, rfl⟩
  | returned rc event =>
      rw [afterLoopRead]
      split
      · exact ⟨rfl, rfl, rfl, rfl, rfl⟩
      · exact ⟨rfl, rfl, rfl, rfl, rfl⟩

lemma startWrite_isLocal (A : Aead) (pb : Nanopb) (e : Endpoint) (ev : MuxEvent) :
    (e.startWrite A pb ev).1.isLocal = e.isLocal := by
  unfold startWrite
  dsimp only
  split <;> rfl

lemma finishServerAuth_isLocal (e : Endpoint) (request : AuthRequest) (iv : UInt64)
    (success : Bool) : (e.finishServerAuth request iv success).isLocal = e.isLocal := by
  cases success <;> rfl

lemma answer_isLocal (A : Aead) (pb : Nanopb) (e : Endpoint) (request : AuthRequest)
    (iv : UInt64) : (e.answer A pb request iv).isLocal = e.isLocal := by
  have hwrite := startWrite_isLocal A pb (e.setType (authType request))
    (.ofBody (.proto .authResponse { success := true, iv := iv }))
  unfold answer
  split
  · rfl
  · split
    · next heq => rw [heq] at hwrite; exact hwrite
    · next heq => rw [heq] at hwrite; exact (finishServerAuth_isLocal _ _ _ _).trans hwrite

lemma afterRequest_isLocal (A : Aead) (pb : Nanopb) (e : Endpoint) (iv : UInt64)
    (p : Reader × ReadStatus) : (e.afterRequest A pb iv p).isLocal = e.isLocal := by
  obtain ⟨r, status⟩ := p
  cases status with
  | reading current => rfl
  | returned rc event =>
      rw [afterRequest]
      split
      · rfl
      · split
        · exact answer_isLocal A pb (e.setReader r) _ iv
        · rfl

lemma afterRead_isLocal (A : Aead) (pb : Nanopb) (e : Endpoint) (p : Reader × ReadStatus) :
    (e.afterRead A pb p).isLocal = e.isLocal := by
  unfold afterRead
  split
  · exact (e.afterResponse_sameOut _ p).isLocal
  · exact e.afterRequest_isLocal A pb _ p
  · exact (e.afterLoopRead_sameOut p).isLocal

lemma afterWrite_isLocal (A : Aead) (pb : Nanopb) (e : Endpoint) (success : Bool) :
    (e.afterWrite A pb success).isLocal = e.isLocal := by
  unfold afterWrite
  split
  · split
    · exact (e.afterResponse_sameOut _ _).isLocal
    · rfl
  · exact e.finishServerAuth_isLocal _ _ success
  · rfl

lemma clientAuth_isLocal (A : Aead) (pb : Nanopb) (e : Endpoint) (user : Bytes)
    (clientId : UInt64) : (e.clientAuth A pb user clientId).isLocal = e.isLocal := by
  have hwrite := startWrite_isLocal A pb (e.setClientId clientId)
    (.ofBody (.proto .authRequest (authRequest e.flags user clientId)))
  unfold clientAuth
  split
  · rfl
  · split
    · next heq => rw [heq] at hwrite; exact hwrite
    · next heq => rw [heq] at hwrite; exact hwrite

lemma step_isLocal {e' : Endpoint} {a : EndpointAction} (h : e.step A pb a = some e') :
    e'.isLocal = e.isLocal := by
  cases step_spec h with
  | clientAuth hphase => exact e.clientAuth_isLocal A pb _ _
  | serverAuth hphase hiv =>
      unfold serverAuth
      split
      · rfl
      · exact e.afterRequest_isLocal A pb _ _
  | transmit hsending hok => rfl
  | written hsending hsent => exact afterWrite_isLocal A pb _ true
  | writeError hsending => exact afterWrite_isLocal A pb _ false
  | disconnected hphase hcurrent hrc => rfl
  | readError hready hcurrent hrc => exact e.afterRead_isLocal A pb _
  | write hphase hidle => exact (write_phase A pb e _).2.1
  | readEvent hphase => exact (e.afterLoopRead_sameOut _).isLocal

lemma data_isLocal {e' : Endpoint} {bs : Bytes} (h : e.data A pb bs = some e') :
    e'.isLocal = e.isLocal := by
  unfold data at h
  split at h
  · split at h
    · rw [← Option.some.inj h]
      exact e.afterRead_isLocal A pb _
    · cases h
  · cases h

end Endpoint

end Snova
