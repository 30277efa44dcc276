import Snova.Properties.ConnectionProgress
import Snova.Properties.Route

/-!
# Everything a socket sends arrives

The read loop offers the chunks of all streams itself, so a stream whose socket takes nothing
holds up the others as well.  While the sockets take what is written to them, and a stream is
closed when the transfer out of it has ended, this passes: a `Route` that has come to rest has
written every chunk that it has read.

`Alive` says what an outlet has to do next; together with `Connection.Settles` it leaves a route
that rests nothing to wait for.
-/

namespace Snova

variable {κ : Type} {A : Aead} {pb : Nanopb}

/-! ## Outlets -/

namespace Outlet

variable {o : Outlet} {arrived : List Bytes} {chunk : Bytes}

/-- An `Offer` that waits is in the channel of an open stream, the transfer that is in `Read` has
called it, and a stream leaves the table when it is closed. -/
structure Alive (o : Outlet) : Prop where
  sends : ∀ chunk, o.stream.offerPc () = .sending chunk →
    o.stream.stream.closed = false ∧ o.stream.stream.dataChannel.senders ≠ []
  reads : o.pc = .reading → o.stream.readPc ≠ .idle
  gone : o.made = true → o.registered = false → o.stream.stream.closed = true

lemma alive_new : Alive Route.newOutlet where
  sends := fun _ h => by cases h
  reads := fun h => by cases h
  gone := fun h => by cases h

lemma Alive.offer (chunk : Bytes) (h : Alive o) (hfed : Fed o arrived)
    (hregistered : o.registered = true) :
    Alive { o with stream := o.stream.stepOffer () chunk } := by
  have hclosed := hfed.isOpen hregistered
  have hspec := StreamState.stepOffer_spec () chunk hclosed (hfed.inv.wired hclosed).isOpen
  refine ⟨fun chunk' hsending => ⟨hspec.closed_eq, ?_⟩, fun hpc => ?_, fun _ hgone => ?_⟩
  · revert hsending hspec
    generalize o.stream.stepOffer () chunk = stream'
    intro hspec hsending
    cases hspec with
    | handed => simp [StreamState.accept] at hsending
    | buffered => simp [StreamState.accept] at hsending
    | suspended _ _ _ hsenders' => simp [hsenders']
  · have hread := h.reads hpc
    revert hspec
    generalize o.stream.stepOffer () chunk = stream'
    intro hspec
    cases hspec with
    | handed => simp
    | buffered => exact hread
    | suspended => exact hread
  · rw [show o.registered = false from hgone] at hregistered
    cases hregistered

lemma Alive.close (h : Alive o) :
    Alive { o with registered := false, stream := o.stream.stepClose } ∧
      (o.stream.offerPc () ≠ .idle → o.stream.stepClose.offerPc () ≠ .idle) := by
  have hclosed := StreamState.stepClose_closed o.stream
  by_cases hold : o.stream.stream.closed = true
  · have hsame : o.stream.stepClose = o.stream := if_pos hold
    rw [hsame]
    exact ⟨⟨h.sends, h.reads, fun _ _ => hold⟩, id⟩
  · have hoffer : o.stream.stepClose.offerPc () = StreamState.cancelOffer (o.stream.offerPc ()) ∧
        o.stream.stepClose.readPc = StreamState.cancelRead o.stream.readPc := by
      rw [StreamState.stepClose, if_neg hold]
      exact ⟨rfl, rfl⟩
    refine ⟨⟨fun chunk hsending => ?_, fun hpc => ?_, fun _ _ => hclosed⟩, fun hbusy => ?_⟩
    · have hsending' := hoffer.1.symm.trans hsending
      cases hpc : o.stream.offerPc () <;> rw [hpc] at hsending' <;> cases hsending'
    · show o.stream.stepClose.readPc ≠ .idle
      have hread := h.reads hpc
      rw [hoffer.2]
      cases hpc : o.stream.readPc with
      | idle => exact absurd hpc hread
      | _ => simp [StreamState.cancelRead]
    · rw [hoffer.1]
      cases hpc : o.stream.offerPc () with
      | idle => exact absurd hpc hbusy
      | _ => simp [StreamState.cancelOffer]

lemma Alive.register (h : Alive o) : Alive { o with made := true, registered := true } where
  sends := h.sends
  reads := h.reads
  gone := fun _ => Bool.noConfusion

lemma Alive.offerResume {stream : StreamState Unit Bytes} (h : Alive o)
    (hstep : o.stream.step (.offerResume ()) = some stream) :
    Alive { o with stream := stream } := by
  have hkeep : stream.offerPc () = .idle ∧ stream.readPc = o.stream.readPc ∧
      stream.stream = o.stream.stream := by
    simp only [StreamState.step] at hstep
    split at hstep
    · exact (Option.some.inj hstep) ▸ ⟨by simp, rfl, rfl⟩
    · exact (Option.some.inj hstep) ▸ ⟨by simp, rfl, rfl⟩
    · cases hstep
  obtain ⟨hidle, hread, hstream⟩ := hkeep
  refine ⟨fun chunk hsending => ?_, hread.symm ▸ h.reads, hstream.symm ▸ h.gone⟩
  rw [hidle] at hsending
  cases hsending

/-- A `Read` makes room for the `Offer` that waits. -/
lemma stepRead_sends {stream : StreamState Unit Bytes} (hinv : stream.Inv)
    (hclosed : stream.stream.closed = false)
    (hsends : ∀ chunk, stream.offerPc () = .sending chunk →
      stream.stream.dataChannel.senders ≠ []) (chunk : Bytes) :
    stream.stepRead.offerPc () ≠ .sending chunk := by
  have hwired := hinv.wired hclosed
  have hpos : 0 < stream.stream.dataChannel.capacity := by
    rw [hwired.capacity]
    exact Nat.one_pos
  have hnone : stream.stream.dataChannel.senders = [] → stream.offerPc () ≠ .sending chunk :=
    fun hnil hsending => hsends chunk hsending hnil
  unfold StreamState.stepRead MuxStream.read
  rw [hclosed]
  simp only [Bool.false_eq_true, if_false]
  have hspec := stream.stream.dataChannel.receive_spec none hpos
  revert hspec
  generalize stream.stream.dataChannel.receive none = r
  obtain ⟨ch, res⟩ := r
  intro hspec
  cases hspec with
  | taken hb hr hs => exact hnone hs
  | @refilled _ m m' ms sender ss hb hr hs =>
      obtain ⟨d, hd, hpc⟩ := hwired.senders (sender, m') (by rw [hs]; exact List.mem_cons_self)
      obtain rfl : sender = some () := hd
      simp [hpc, StreamState.accept]
  | suspended ho hb hs => exact hnone hs
  | closed hc => exact absurd hwired.isOpen (by simp [hc])

lemma Alive.sinkRead {stream : StreamState Unit Bytes} (h : Alive o) (hfed : Fed o arrived)
    (hstep : o.stream.step .read = some stream) :
    Alive { o with
      stream := stream
      pc := if o.stream.stream.closed then .ended else .reading } ∧
      (o.stream.offerPc () ≠ .idle → stream.offerPc () ≠ .idle) := by
  obtain rfl : stream = o.stream.stepRead := by
    simp only [StreamState.step] at hstep
    split at hstep
    · exact (Option.some.inj hstep).symm
    · cases hstep
  cases hclosed : o.stream.stream.closed with
  | true =>
      have hfailed : o.stream.stepRead = { o.stream with readFailed := true } := by
        simp [StreamState.stepRead, MuxStream.read, hclosed]
      rw [hfailed]
      refine ⟨⟨fun chunk hsending => ?_, fun hpc => ?_, fun _ _ => hclosed⟩, id⟩
      · exact h.sends chunk hsending
      · cases hpc
  | false =>
      have hwired := hfed.inv.wired hclosed
      have hspec := StreamState.stepRead_spec hclosed hwired.isOpen
        (by rw [hwired.capacity]; exact Nat.one_pos) hwired.senders
      have hopen := hspec.closed_eq
      have hnone := stepRead_sends hfed.inv hclosed fun chunk hsending => (h.sends chunk hsending).2
      refine ⟨⟨fun chunk hsending => absurd hsending (hnone chunk), fun _ => ?_,
        fun hmade hgone => ?_⟩, fun hbusy => ?_⟩
      · show o.stream.stepRead.readPc ≠ .idle
        revert hspec
        generalize o.stream.stepRead = stream'
        intro hspec
        cases hspec <;> simp [StreamState.accept]
      · rw [h.gone hmade hgone] at hclosed
        cases hclosed
      · revert hspec
        generalize o.stream.stepRead = stream'
        intro hspec
        cases hspec with
        | taken => exact hbusy
        | refilled => simp [StreamState.accept]
        | suspended => exact hbusy

lemma Alive.sinkResume {stream : StreamState Unit Bytes} (h : Alive o)
    (hstep : o.stream.step .readResume = some stream) :
    Alive { o with
      stream := stream
      pc := match o.stream.readPc with
        | .received chunk => .writing chunk
        | _ => .ended } := by
  simp only [StreamState.step] at hstep
  split at hstep
  · next chunk hread =>
      obtain rfl := Option.some.inj hstep
      refine ⟨h.sends, fun hpc => ?_, h.gone⟩
      simp [hread] at hpc
  · next hread =>
      obtain rfl := Option.some.inj hstep
      refine ⟨h.sends, fun hpc => ?_, h.gone⟩
      simp [hread] at hpc
  · cases hstep

lemma Alive.sinkWrote (h : Alive o) (success : Bool) :
    Alive (if success then { o with pc := .starting, written := o.written ++ [chunk] }
      else { o with pc := .ended }) := by
  cases success with
  | true =>
      refine ⟨h.sends, fun hpc => ?_, h.gone⟩
      cases hpc
  | false =>
      refine ⟨h.sends, fun hpc => ?_, h.gone⟩
      cases hpc

/-- A stream whose reader waits has passed everything on. -/
lemma Fed.written_eq (h : Fed o arrived) (hdropped : o.dropped = [])
    (hclosed : o.stream.stream.closed = false) (hidle : o.stream.offerPc () = .idle)
    (hpc : o.pc = .reading) (hread : o.stream.readPc = .receiving) : o.written = arrived := by
  have hreceivers := (h.inv.wired hclosed).receivers
  rw [hread] at hreceivers
  have hbuffer := (o.stream.stream.dataChannel.receivers_idle (by rw [hreceivers]; simp)).1
  have hwritten : o.written = o.stream.returned := by
    have hall := h.sinkAll (by simp [hpc])
    rw [hpc] at hall
    exact (List.append_nil _).symm.trans hall
  have haccepted : o.stream.accepted = o.stream.returned := by
    have horder := h.inv.recorded.order
    rw [hread, hbuffer, List.append_nil] at horder
    exact horder.trans (List.append_nil _)
  have hall := h.all hdropped hclosed
  rw [sending_of_idle hidle, List.append_nil] at hall
  rw [hwritten, ← haccepted, hall]

lemma Fed.made (h : Fed o arrived) (hregistered : o.registered = true) : o.made = true := by
  by_contra hmade
  rw [(h.unmade (by simpa using hmade)).1] at hregistered
  cases hregistered

end Outlet

/-! ## Routes -/

namespace Route

variable [DecidableEq κ] [Fintype κ] {s s' : Route κ} {key : Bytes} {iv₀ : UInt64}
  {receiver : CipherContext} {sid : UInt32} {c : κ}

open Outlet (Alive)

/-- What the outlets and the read loop have to do next. -/
structure Lives (s : Route κ) : Prop where
  alive : ∀ sid, Alive (s.outlet sid)
  busy : ∀ sid, s.offering = some sid →
    (s.outlet sid).made = true ∧ (s.outlet sid).stream.offerPc () ≠ .idle

omit [DecidableEq κ] [Fintype κ] in
lemma Lives.setOutlet {o : Outlet} (sid : UInt32) (h : Lives s) (halive : Alive o)
    (hbusy : s.offering = some sid → o.made = true ∧ o.stream.offerPc () ≠ .idle) :
    Lives (s.setOutlet sid o) := by
  refine ⟨fun d => ?_, fun d hd => ?_⟩
  · show Alive (Function.update s.outlet sid o d)
    by_cases hsid : d = sid
    · subst hsid
      rwa [Function.update_self]
    · rw [Function.update_of_ne hsid]
      exact h.alive d
  · show (Function.update s.outlet sid o d).made = true ∧
      (Function.update s.outlet sid o d).stream.offerPc () ≠ .idle
    by_cases hsid : d = sid
    · subst hsid
      rw [Function.update_self]
      exact hbusy hd
    · rw [Function.update_of_ne hsid]
      exact h.busy d hd

omit [DecidableEq κ] [Fintype κ] in
lemma processEvent_conn (s : Route κ) (event : MuxEvent) :
    (s.processEvent event).conn = s.conn := by
  rw [processEvent]
  split
  · split <;> rfl
  · split
    · split <;> rfl
    · rfl

omit [Fintype κ] in
/-- What the near side and the connection do leaves the outlets alone. -/
lemma stepConn_spec {a : ConnectionAction κ} (h : s.stepConn A pb a = some s') :
    s.conn.step A pb a = some s'.conn ∧ s'.outlet = s.outlet ∧ s'.offering = s.offering := by
  obtain ⟨conn, hconn, rfl⟩ := Option.map_eq_some_iff.mp h
  exact ⟨hconn, rfl, rfl⟩

omit [Fintype κ] in
lemma writeChunk_spec {buf : Bytes} {env : WriteEnv} (h : s.writeChunk A pb c buf env = some s') :
    (∃ event, s.conn.step A pb (.write (.write c event env)) = some s'.conn) ∧
      s'.outlet = s.outlet ∧ s'.offering = s.offering := by
  obtain ⟨t, ht, rfl⟩ := Option.map_eq_some_iff.mp h
  exact ⟨⟨_, (stepConn_spec ht).1⟩, (stepConn_spec ht).2⟩

omit [Fintype κ] in
lemma writeClose_spec {env : WriteEnv} (h : s.writeClose A pb c env = some s') :
    (∃ event, s.conn.step A pb (.write (.write c event env)) = some s'.conn) ∧
      s'.outlet = s.outlet ∧ s'.offering = s.offering := by
  obtain ⟨t, ht, rfl⟩ := Option.map_eq_some_iff.mp h
  exact ⟨⟨_, (stepConn_spec ht).1⟩, (stepConn_spec ht).2⟩

omit [Fintype κ] in
lemma resumeSource_spec (h : s.resumeSource c = some s') :
    s'.conn = s.conn ∧ s'.outlet = s.outlet ∧ s'.offering = s.offering := by
  rw [resumeSource] at h
  split at h
  · exact (Option.some.inj h) ▸ ⟨rfl, rfl, rfl⟩
  · exact (Option.some.inj h) ▸ ⟨rfl, rfl, rfl⟩
  · cases h

omit [Fintype κ] in
/-- A step of a route is one of its connection, or leaves it alone. -/
lemma step_conn {a : RouteAction κ} (hstep : step A pb s a = some s') :
    s'.conn = s.conn ∨ ∃ a', s.conn.step A pb a' = some s'.conn ∧
      (OnlyClosedErrors s a → Connection.OnlyClosedErrors s.conn a') := by
  cases stepTo_of_step hstep with
  | sourceRead _ _ hwrite =>
      obtain ⟨⟨event, hconn⟩, -⟩ := writeChunk_spec hwrite
      exact .inr ⟨_, hconn, fun _ => trivial⟩
  | sourceEnd _ hwrite =>
      obtain ⟨⟨event, hconn⟩, -⟩ := writeClose_spec hwrite
      exact .inr ⟨_, hconn, fun _ => trivial⟩
  | sourceResume hresume => exact .inl (resumeSource_spec hresume).1
  | @conn a _ _ hconn => exact .inr ⟨a, (stepConn_spec hconn).1, id⟩
  | process => exact .inl (processEvent_conn _ _)
  | offerResume => exact .inl rfl
  | register => exact .inl rfl
  | closeOutlet => exact .inl rfl
  | sinkRead => exact .inl rfl
  | sinkResume => exact .inl rfl
  | sinkWrote => exact .inl rfl

omit [DecidableEq κ] in
lemma Lives.process {event : MuxEvent} (h : Lives s) (hcarries : Carries A pb key iv₀ receiver s)
    (hoffering : s.offering = none) :
    Lives { s.processEvent event with processed := s.processed + 1 } := by
  have hnever : ∀ sid, s.offering ≠ some sid := fun sid => by simp [hoffering]
  have hset : ∀ {o : Outlet}, Alive o →
      Lives { s.setOutlet event.head.sid o with processed := s.processed + 1 } := by
    intro o halive
    obtain ⟨hall, hbusy⟩ := h.setOutlet event.head.sid halive fun hsid =>
      absurd hsid (hnever _)
    exact ⟨hall, hbusy⟩
  have hself := h.alive event.head.sid
  rw [processEvent]
  cases hchunk : event.body.chunkBytes with
  | some chunk =>
      dsimp only
      split
      · next hregistered =>
          have hfed := hcarries.fed event.head.sid
          obtain ⟨hall, -⟩ := hset (hself.offer chunk hfed hregistered)
          refine ⟨hall, fun d hd => ?_⟩
          have hd' : (if ((s.outlet event.head.sid).stream.stepOffer () chunk).offerPc () = .idle
            then none else some event.head.sid) = some d := hd
          split at hd'
          · cases hd'
          · next hne =>
              obtain rfl := Option.some.inj hd'
              show (Function.update s.outlet event.head.sid _ event.head.sid).made = true ∧
                (Function.update s.outlet event.head.sid _ event.head.sid).stream.offerPc () ≠ .idle
              rw [Function.update_self]
              exact ⟨hfed.made hregistered, hne⟩
      · exact hset ⟨hself.sends, hself.reads, hself.gone⟩
  | none =>
      dsimp only
      split
      · split
        · exact hset hself.close.1
        · exact ⟨h.alive, h.busy⟩
      · exact ⟨h.alive, h.busy⟩

omit [DecidableEq κ] [Fintype κ] in
lemma Lives.offerResume {stream : StreamState Unit Bytes} (h : Lives s)
    (hstep : (s.outlet sid).stream.step (.offerResume ()) = some stream) :
    Lives { s.setOutlet sid { s.outlet sid with stream := stream } with offering := none } := by
  refine ⟨fun d => ?_, fun d hd => by cases hd⟩
  show Alive (Function.update s.outlet sid { s.outlet sid with stream := stream } d)
  by_cases hsid : d = sid
  · subst hsid
    rw [Function.update_self]
    exact (h.alive d).offerResume hstep
  · rw [Function.update_of_ne hsid]
    exact h.alive d

omit [DecidableEq κ] [Fintype κ] in
lemma Lives.congr (h : Lives s) (houtlet : s'.outlet = s.outlet)
    (hoffering : s'.offering = s.offering) : Lives s' :=
  ⟨houtlet ▸ h.alive, houtlet ▸ hoffering ▸ h.busy⟩

lemma step_lives {a : RouteAction κ} (h : Lives s) (hcarries : Carries A pb key iv₀ receiver s)
    (hstep : step A pb s a = some s') : Lives s' := by
  cases stepTo_of_step hstep with
  | sourceRead _ _ hwrite =>
      obtain ⟨-, houtlet, hoffering⟩ := writeChunk_spec hwrite
      exact h.congr houtlet hoffering
  | sourceEnd _ hwrite =>
      obtain ⟨-, houtlet, hoffering⟩ := writeClose_spec hwrite
      exact h.congr houtlet hoffering
  | sourceResume hresume =>
      obtain ⟨-, houtlet, hoffering⟩ := resumeSource_spec hresume
      exact h.congr houtlet hoffering
  | conn _ hconn =>
      obtain ⟨-, houtlet, hoffering⟩ := stepConn_spec hconn
      exact h.congr houtlet hoffering
  | process hoffering => exact h.process hcarries hoffering
  | offerResume _ hstream => exact h.offerResume hstream
  | @register sid _ =>
      exact h.setOutlet sid (h.alive sid).register fun hsid => ⟨rfl, (h.busy sid hsid).2⟩
  | @closeOutlet sid _ =>
      obtain ⟨halive, hbusy⟩ := (h.alive sid).close
      exact h.setOutlet sid halive fun hsid => ⟨(h.busy sid hsid).1, hbusy (h.busy sid hsid).2⟩
  | @sinkRead sid _ _ _ hstream =>
      obtain ⟨halive, hbusy⟩ := (h.alive sid).sinkRead (hcarries.fed sid) hstream
      exact h.setOutlet sid halive fun hsid => ⟨(h.busy sid hsid).1, hbusy (h.busy sid hsid).2⟩
  | @sinkResume sid stream hpc hstream =>
      obtain ⟨-, hoffer⟩ := (hcarries.fed sid).sinkResume hpc hstream
      refine h.setOutlet sid ((h.alive sid).sinkResume hstream) fun hsid =>
        ⟨(h.busy sid hsid).1, ?_⟩
      show stream.offerPc () ≠ .idle
      rw [hoffer]
      exact (h.busy sid hsid).2
  | @sinkWrote sid success _ _ =>
      refine h.setOutlet sid ((h.alive sid).sinkWrote success) fun hsid => ?_
      cases success <;> exact h.busy sid hsid

/-! ### When nothing can go on -/

/-- The steps of a route that wait for nobody outside: sockets take what is written to them, and
a stream is closed when the transfer out of it has ended. -/
def Own (s : Route κ) : RouteAction κ → Prop
  | .sourceResume _ => True
  | .conn a => Connection.Own a
  | .process => True
  | .offerResume => True
  | .closeOutlet sid => (s.outlet sid).pc = .ended
  | .sinkRead _ => True
  | .sinkResume _ => True
  | .sinkWrote _ success => success = true
  | _ => False

/-- A state in which no step is left that waits for nobody outside. -/
def Quiet (A : Aead) (pb : Nanopb) (s : Route κ) : Prop := ∀ a, Own s a → step A pb s a = none

omit [Fintype κ] in
/-- In a quiet route the transfer out of a stream that is open waits in `Read`. -/
lemma Quiet.receiving (hquiet : Quiet A pb s) (hlives : Lives s)
    (hfed : Outlet.Fed (s.outlet sid) (s.arrived sid)) (hmade : (s.outlet sid).made = true)
    (hclosed : (s.outlet sid).stream.stream.closed = false) :
    (s.outlet sid).pc = .reading ∧ (s.outlet sid).stream.readPc = .receiving := by
  have hregistered : (s.outlet sid).registered = true := by
    by_contra hgone
    rw [(hlives.alive sid).gone hmade (by simpa using hgone)] at hclosed
    cases hclosed
  have hpc : (s.outlet sid).pc = .reading := by
    cases hpc : (s.outlet sid).pc with
    | starting =>
        have hidle : (s.outlet sid).stream.readPc = .idle := by
          by_contra hne
          rw [hfed.waits hne] at hpc
          cases hpc
        have hnone := hquiet (.sinkRead sid) trivial
        simp [step, hmade, hpc, StreamState.step, hidle] at hnone
    | reading => rfl
    | writing chunk =>
        have hnone := hquiet (.sinkWrote sid true) rfl
        simp [step, hpc] at hnone
    | ended =>
        have hnone := hquiet (.closeOutlet sid) hpc
        simp [step, hregistered] at hnone
  refine ⟨hpc, ?_⟩
  cases hread : (s.outlet sid).stream.readPc with
  | idle => exact absurd hread ((hlives.alive sid).reads hpc)
  | receiving => rfl
  | received chunk =>
      have hnone := hquiet (.sinkResume sid) trivial
      simp [step, hpc, StreamState.step, hread] at hnone
  | cancelled =>
      have hnone := hquiet (.sinkResume sid) trivial
      simp [step, hpc, StreamState.step, hread] at hnone

/-- In a quiet route the read loop is not in an `Offer`. -/
lemma Quiet.offering_eq_none (hquiet : Quiet A pb s) (hlives : Lives s)
    (hcarries : Carries A pb key iv₀ receiver s) : s.offering = none := by
  by_contra hne
  obtain ⟨sid, hsid⟩ := Option.ne_none_iff_exists'.mp hne
  obtain ⟨hmade, hbusy⟩ := hlives.busy sid hsid
  have hfed := hcarries.fed sid
  have hnone := hquiet .offerResume trivial
  simp only [step, hsid, Option.map_eq_none_iff] at hnone
  cases hpc : (s.outlet sid).stream.offerPc () with
  | idle => exact hbusy hpc
  | sending chunk =>
      obtain ⟨hclosed, hsenders⟩ := (hlives.alive sid).sends chunk hpc
      obtain ⟨-, hread⟩ := hquiet.receiving hlives hfed hmade hclosed
      have hreceivers := (hfed.inv.wired hclosed).receivers
      rw [hread] at hreceivers
      have hidle := (s.outlet sid).stream.stream.dataChannel.receivers_idle
        (by rw [hreceivers]; simp)
      exact hsenders hidle.2
  | sent n => simp [StreamState.step, hpc] at hnone
  | cancelled => simp [StreamState.step, hpc] at hnone

/-- So the connection has nothing left to do either. -/
lemma Quiet.connection (hquiet : Quiet A pb s) (hlives : Lives s)
    (hcarries : Carries A pb key iv₀ receiver s) :
    s.processed = s.conn.reader.events.length ∧
      ∀ a, Connection.Own a → Connection.step A pb s.conn a = none := by
  have hoffering := hquiet.offering_eq_none hlives hcarries
  have hprocessed : s.processed = s.conn.reader.events.length := by
    have hnone := hquiet .process trivial
    rcases Nat.lt_or_eq_of_le hcarries.processed with hlt | heq
    · simp [step, hoffering, List.getElem?_eq_getElem hlt] at hnone
    · exact heq
  refine ⟨hprocessed, fun a ha => ?_⟩
  have hnone := hquiet (.conn a) ha
  cases a with
  | write a =>
      cases a with
      | write c event env => exact ha.elim
      | writeError c => exact ha.elim
      | close => exact ha.elim
      | _ => exact Option.map_eq_none_iff.mp hnone
  | readEvent =>
      simp only [step] at hnone
      rw [if_pos ⟨hprocessed, hoffering⟩] at hnone
      exact Option.map_eq_none_iff.mp hnone
  | deliver n => exact Option.map_eq_none_iff.mp hnone
  | disconnect rc => exact ha.elim

lemma length_own (sid : UInt32) (calls : List (ℕ × MuxEvent)) :
    (own sid calls).length = (calls.map Prod.snd).countP fun event => event.head.sid = sid := by
  rw [List.countP_map, List.countP_eq_length_filter]
  rfl

omit [DecidableEq κ] in
/-- When the frames of all calls have been sent, they hold every chunk that was read. -/
lemma Carries.done_chunks (h : Carries A pb key iv₀ receiver s)
    (hperm : (s.conn.writer.done.map Prod.snd).Perm s.conn.started) (c : κ) :
    (s.conn.writer.done.filterMap fun x => chunkOf (s.sid c) x.2) = (s.source c).read := by
  obtain ⟨⟨tail, heq, -, -, -⟩, hread⟩ := h.issues c
  obtain rfl : tail = [] := by
    have hlength := congrArg List.length heq
    rw [List.length_append, length_own, length_own, map_snd_numbered,
      hperm.countP_eq] at hlength
    exact List.length_eq_zero_iff.mp (by omega)
  rw [← filterMap_own, ← List.append_nil (own _ _), ← heq, filterMap_own, ← hread,
    ← map_snd_numbered s.conn.started, List.filterMap_map, map_snd_numbered]
  rfl

lemma run_lives {sender : CipherContext} {isEntryNode masks : Bool} {sid : κ → UInt32}
    {isTls : κ → Bool} {as : List (RouteAction κ)} (hk : sender.Keyed key)
    (htag : receiver.cipherTagLen ≤ 16) (hsid : Function.Injective sid)
    (herr : Along (step A pb) OnlyClosedErrors
      (init isEntryNode sid isTls sender receiver masks) as)
    (h : exec (step A pb) (init isEntryNode sid isTls sender receiver masks) as = some s) :
    Carries A pb key sender.encryptIv receiver s ∧ Connection.Settles pb s.conn ∧ Lives s := by
  refine exec_invariant_along (I := fun s => Carries A pb key sender.encryptIv receiver s ∧
    Connection.Settles pb s.conn ∧ Lives s) ?_ ?_ herr h
  · rintro s a s' ⟨hcarries, hsettles, hlives⟩ hC hstep
    refine ⟨step_carries hcarries hC hstep, ?_, step_lives hlives hcarries hstep⟩
    rcases step_conn hstep with hconn | ⟨a', hconn, herr'⟩
    · rwa [hconn]
    · exact Connection.step_settles hcarries.conn hsettles (herr' hC) hconn
  · exact ⟨carries_init hk htag hsid, fun _ _ => WriterState.settled_init sender masks,
      fun sid => Outlet.alive_new, fun sid hsid => by cases hsid⟩

/-- **A route that rests has delivered everything.**  Any number of sockets send through one
authenticated connection that is not closed, and neither its writes nor its reads fail.  In every
state reached from which neither the coroutines nor the transport can go on, although the sockets
take what is written to them and a stream is closed when the transfer out of it has ended:

* whatever was read from a socket has been written to the socket at the other end of its stream,
  if this is still in the table and no chunk came before it was there;
* a transfer from a socket that is still in `Write` waits in the send of `Unlock`. -/
theorem quiet_route_has_delivered (A : Aead) (pb : Nanopb) (key : Bytes)
    (sender receiver : CipherContext) (hs : sender.FromNew "chacha20_poly1305" key)
    (hr : receiver.FromNew "chacha20_poly1305" key) (hiv : sender.encryptIv = receiver.decryptIv)
    (isEntryNode masks : Bool) (sid : κ → UInt32) (hsid : Function.Injective sid)
    (isTls : κ → Bool) (as : List (RouteAction κ)) (s : Route κ)
    (herr : Along (step A pb) OnlyClosedErrors
      (init isEntryNode sid isTls sender receiver masks) as)
    (h : exec (step A pb) (init isEntryNode sid isTls sender receiver masks) as = some s)
    (hopen : s.conn.writer.closedAt = none)
    (hconnected : ∀ rc, s.conn.reader.phase ≠ .disconnected rc) (hquiet : Quiet A pb s) :
    (∀ c, (s.outlet (s.sid c)).registered = true → (s.outlet (s.sid c)).dropped = [] →
        (s.outlet (s.sid c)).written = (s.source c).read) ∧
      ∀ c call, (s.source c).pc = .writing call ∨ (s.source c).pc = .closing call →
        s.conn.writer.writeMutex.pc c = .sending := by
  obtain ⟨hcarries, hsettles, hlives⟩ := run_lives hs.keyed hr.tagLen_le hsid herr h
  obtain ⟨hprocessed, hconn⟩ := hquiet.connection hlives hcarries
  obtain ⟨-, hperm, hdelivered, hcoroutines⟩ :=
    hcarries.conn.atRest hsettles hr.keyed hiv hcarries.small hopen hconn
  have hsame := hdelivered hconnected
  refine ⟨fun c hregistered hdropped => ?_, fun c call hpc => ?_⟩
  · have hfed := hcarries.fed (s.sid c)
    have hclosed := hfed.isOpen hregistered
    have harrived : s.arrived (s.sid c) = (s.source c).read := by
      rw [arrived, hprocessed, List.take_length, chunks_eq_of_same hsame]
      exact hcarries.done_chunks hperm c
    have hidle := hcarries.free (s.sid c) (by simp [hquiet.offering_eq_none hlives hcarries])
    obtain ⟨hpc, hread⟩ := hquiet.receiving hlives hfed (hfed.made hregistered) hclosed
    rw [hfed.written_eq hdropped hclosed hidle hpc hread, harrived]
  · rcases hcoroutines c with hidle | ⟨-, hsending⟩
    · have hnone := hquiet (.sourceResume c) trivial
      rcases hpc with hpc | hpc
      · simp [step, resumeSource, hidle, hpc] at hnone
      · simp [step, resumeSource, hidle, hpc] at hnone
    · exact hsending

/-! ### A route that rests -/

/-- A stream that was never made: no transfer has begun on it. -/
def Unmade (o : Outlet) : Prop := o.made = false ∧ o.registered = false ∧ o.pc = .starting

omit [DecidableEq κ] [Fintype κ] in
lemma unmade_setOutlet {o : Outlet} {d : UInt32} (h : Unmade (s.outlet sid))
    (ho : Unmade (s.outlet d) → Unmade o) : Unmade ((s.setOutlet d o).outlet sid) := by
  show Unmade (Function.update s.outlet d o sid)
  by_cases hsid : sid = d
  · subst hsid
    rw [Function.update_self]
    exact ho h
  · rwa [Function.update_of_ne hsid]

omit [DecidableEq κ] [Fintype κ] in
lemma unmade_processEvent (event : MuxEvent) (h : Unmade (s.outlet sid)) :
    Unmade ((s.processEvent event).outlet sid) := by
  rw [processEvent]
  split
  · split
    · exact unmade_setOutlet (o := { s.outlet event.head.sid with
        stream := (s.outlet event.head.sid).stream.stepOffer () _ }) h id
    · exact unmade_setOutlet h id
  · split
    · split
      · exact unmade_setOutlet h fun ho => ⟨ho.1, rfl, ho.2.2⟩
      · exact h
    · exact h

omit [Fintype κ] in
/-- Only `MuxStream::New` makes a stream. -/
lemma step_unmade {a : RouteAction κ} (h : Unmade (s.outlet sid)) (ha : a ≠ .register sid)
    (hstep : step A pb s a = some s') : Unmade (s'.outlet sid) := by
  cases stepTo_of_step hstep with
  | sourceRead _ _ hwrite => exact (writeChunk_spec hwrite).2.1 ▸ h
  | sourceEnd _ hwrite => exact (writeClose_spec hwrite).2.1 ▸ h
  | sourceResume hresume => exact (resumeSource_spec hresume).2.1 ▸ h
  | conn _ hconn => exact (stepConn_spec hconn).2.1 ▸ h
  | process => exact unmade_processEvent _ h
  | offerResume => exact unmade_setOutlet h id
  | @register d _ =>
      have hne : sid ≠ d := fun heq => ha (congrArg _ heq.symm)
      show Unmade (Function.update s.outlet d _ sid)
      rwa [Function.update_of_ne hne]
  | closeOutlet => exact unmade_setOutlet h fun ho => ⟨ho.1, rfl, ho.2.2⟩
  | sinkRead hmade =>
      refine unmade_setOutlet h fun ho => ?_
      rw [ho.1] at hmade
      cases hmade
  | sinkResume hpc =>
      refine unmade_setOutlet h fun ho => ?_
      rw [ho.2.2] at hpc
      cases hpc
  | sinkWrote hpc =>
      refine unmade_setOutlet h fun ho => ?_
      rw [ho.2.2] at hpc
      cases hpc

omit [Fintype κ] in
lemma run_unmade {sender : CipherContext} {isEntryNode masks : Bool} {sids : κ → UInt32}
    {isTls : κ → Bool} {as : List (RouteAction κ)} (has : .register sid ∉ as)
    (h : exec (step A pb) (init isEntryNode sids isTls sender receiver masks) as = some s) :
    Unmade (s.outlet sid) := by
  refine exec_invariant_along (I := fun s => Unmade (s.outlet sid))
    (C := fun _ a => a ≠ .register sid) ?_ ⟨rfl, rfl, rfl⟩ ?_ h
  · intro s a s' hunmade ha hstep
    exact step_unmade hunmade ha hstep
  · refine along_of_forall (fun a ha s => ?_) _
    rintro rfl
    exact has ha

omit [Fintype κ] in
/-- Nobody writes and nothing is in transit; the transfers and the reader wait. -/
lemma quiet_of_waiting {t : Route κ} {current : Span}
    (hidle : ∀ c, WriterState.jobCall (t.conn.writer.job c) = none)
    (hsource : ∀ c, (t.source c).pc = .reading)
    (hphase : t.conn.reader.phase = .reading current) (hnone : t.conn.inTransit = [])
    (hprocessed : t.processed = t.conn.reader.events.length) (hoffering : t.offering = none)
    (houtlet : ∀ sid, Unmade (t.outlet sid) ∨
      (t.outlet sid).pc = .reading ∧ (t.outlet sid).stream.readPc = .receiving) :
    Quiet A pb t := by
  intro a ha
  cases a with
  | sourceRead c buf env => exact ha.elim
  | sourceEnd c env => exact ha.elim
  | sourceResume c => simp [step, resumeSource, hsource]
  | conn a =>
      have hconn : Connection.step A pb t.conn a = none :=
        Connection.own_eq_none hidle hphase hnone a ha
      cases a with
      | write a => cases a <;> first | rfl | simp [step, stepConn, hconn]
      | _ => simp [step, stepConn, hconn]
  | process => simp [step, hoffering, hprocessed]
  | offerResume => simp [step, hoffering]
  | register sid => exact ha.elim
  | closeOutlet sid =>
      have hended : (t.outlet sid).pc = .ended := ha
      rcases houtlet sid with ⟨-, -, hpc⟩ | ⟨hpc, -⟩ <;> rw [hpc] at hended <;> cases hended
  | sinkRead sid =>
      rcases houtlet sid with ⟨hmade, -, -⟩ | ⟨hpc, -⟩
      · simp [step, hmade]
      · simp [step, hpc]
  | sinkResume sid =>
      rcases houtlet sid with ⟨-, -, hpc⟩ | ⟨-, hread⟩
      · simp [step, hpc]
      · simp [step, StreamState.step, hread]
  | sinkWrote sid success =>
      rcases houtlet sid with ⟨-, -, hpc⟩ | ⟨hpc, -⟩ <;> simp [step, hpc]

/-- The run goes on: the chunks of both sockets arrive. -/
def twoSocketsRest : List (RouteAction Bool) :=
  [.register 3, .sinkRead 3, .sinkRead 1, .conn .readEvent, .conn (.write (.transmit false 41)),
    .conn (.deliver 50), .process, .offerResume, .conn .readEvent, .sinkResume 1, .sinkWrote 1 true,
    .sinkRead 1, .conn (.write (.complete false)), .conn (.write (.unlocked false)),
    .sourceResume false, .conn (.write (.resume true ⟨[], []⟩)),
    .conn (.write (.transmit true 42)), .conn (.write (.complete true)), .sourceResume true,
    .conn (.deliver 50), .process, .offerResume, .sinkResume 3, .sinkWrote 3 true, .sinkRead 3,
    .conn .readEvent]

theorem quiet_route_has_delivered_two_sockets :
    ∃ ctx s, CipherContext.new "chacha20_poly1305" [1] = some ctx ∧
      exec (step chacha20Poly1305 protobuf)
        (init true twoSocketsSid (fun _ => false) ctx ctx false)
        (twoSockets ++ twoSocketsRest) = some s ∧
      (s.source false).read = [[7], [6]] ∧ (s.source true).read = [[8, 9]] ∧
      (s.outlet 1).written = (s.source false).read ∧
      (s.outlet 3).written = (s.source true).read := by
  have hrun : ((CipherContext.new "chacha20_poly1305" [1]).bind fun ctx =>
      (exec (step chacha20Poly1305 protobuf)
        (init true twoSocketsSid (fun _ => false) ctx ctx false)
        (twoSockets ++ twoSocketsRest)).map fun s => decide
          (((s.source false).read = [[7], [6]] ∧ (s.source true).read = [[8, 9]] ∧
            s.sid false = 1 ∧ s.sid true = 3) ∧
          ((∀ c, WriterState.jobCall (s.conn.writer.job c) = none) ∧
            (∀ c, (s.source c).pc = .reading) ∧ s.conn.writer.closedAt = none) ∧
          (s.conn.reader.phase = .reading ⟨42, 0, by decide⟩ ∧ s.conn.inTransit = [] ∧
            s.processed = s.conn.reader.events.length ∧ s.offering = none) ∧
          ((s.outlet 1).registered = true ∧ (s.outlet 1).dropped = [] ∧
            (s.outlet 1).pc = .reading ∧ (s.outlet 1).stream.readPc = .receiving) ∧
          (s.outlet 3).registered = true ∧ (s.outlet 3).dropped = [] ∧
            (s.outlet 3).pc = .reading ∧ (s.outlet 3).stream.readPc = .receiving)) =
      some true := by
    decide +kernel
  obtain ⟨ctx, hctx, hmap⟩ := Option.bind_eq_some_iff.mp hrun
  obtain ⟨s, hs, hfields⟩ := Option.map_eq_some_iff.mp hmap
  obtain ⟨⟨hread, hreads, hsid, hsids⟩, ⟨hidle, hsource, hopen⟩,
    ⟨hphase, hnone, hprocessed, hoffering⟩, ⟨hone, hdropped, hpc, hwaits⟩,
    hthree, hdroppeds, hpcs, hwait⟩ := of_decide_eq_true hfields
  have houtlet : ∀ sid, Unmade (s.outlet sid) ∨
      (s.outlet sid).pc = .reading ∧ (s.outlet sid).stream.readPc = .receiving := by
    intro sid
    by_cases hfirst : sid = 1
    · exact .inr (hfirst ▸ ⟨hpc, hwaits⟩)
    · by_cases hsecond : sid = 3
      · exact .inr (hsecond ▸ ⟨hpcs, hwait⟩)
      · exact .inl (run_unmade (by simp [twoSockets, twoSocketsRest, hfirst, hsecond]) hs)
  obtain ⟨hdelivered, -⟩ := quiet_route_has_delivered chacha20Poly1305 protobuf [1] ctx ctx
    ⟨ctx, hctx, rfl⟩ ⟨ctx, hctx, rfl⟩ (CipherContext.encryptIv_of_new hctx) true false
    twoSocketsSid (by decide) (fun _ => false) _ s
    (onlyClosedErrors_of_forall (by simp [twoSockets, twoSocketsRest]) _) hs hopen
    (by simp [hphase])
    (quiet_of_waiting hidle hsource hphase hnone hprocessed hoffering houtlet)
  have hsent := hdelivered false
  have hsents := hdelivered true
  rw [hsid] at hsent
  rw [hsids] at hsents
  exact ⟨ctx, s, hctx, hs, hread, hreads, hsent hone hdropped, hsents hthree hdroppeds⟩

end Route

end Snova
