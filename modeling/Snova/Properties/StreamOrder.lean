import Snova.Framework.Lanes
import Snova.Model.MuxSession

/-!
# The order of a stream's chunks

A stream may change its connection at every write, and its chunks carry no sequence number.  So
its chunks are items that travel in lanes, one for each connection (`SessionState.lanes`): every
step of a session leaves the lanes of a stream alone, or does there what `Lanes.Quiet` allows, or
has a connection accept a chunk (`step_lanes`).

Nothing is offered twice, whatever fails, retires or comes back, and a connection keeps the order
of what it carries.  Across connections there is no order: a chunk accepted by a new connection
may overtake one that is still on its way in an old one (`chunk_overtakes_after_retirement`).  The
peer is offered a prefix of what was written in the runs in which that cannot happen
(`offered_in_order`).
-/

namespace Snova

/-! ## Chunks as items -/

/-- The chunk of stream `sid` a frame is, with its number. -/
def Frame.item (sid : UInt32) (f : Frame) : Option (ℕ × Bytes) :=
  if f.event.head.sid = sid then f.event.body.chunkBytes.map fun b => (f.number, b) else none

/-- The chunk of stream `sid` a coroutine is about to write. -/
def WritePc.item (sid : UInt32) : WritePc → Option (ℕ × Bytes)
  | .idle => none
  | .writing frame _ _ => frame.item sid

def Arrival.item (a : Arrival) : ℕ × ℕ × Bytes := (a.conn, a.number, a.chunk)

namespace SessionState

variable {κ : Type} {s s' : SessionState κ}

/-- A stream's chunks, in the hands of coroutines, in connections, and read by the peer. -/
def lanes (s : SessionState κ) (sid : UInt32) : Lanes κ ℕ Bytes where
  issued := (s.senders sid).written
  held c := (s.pc c).item sid
  lane conn := (s.links conn).frames.filterMap (Frame.item sid)
  carried conn := (s.carried conn).filterMap (Frame.item sid)
  arrived := (s.receivers sid).arrived.map Arrival.item

lemma lanes_congr {sid : UInt32} (hwritten : (s'.senders sid).written = (s.senders sid).written)
    (hpc : s'.pc = s.pc) (hframes : ∀ conn, (s'.links conn).frames = (s.links conn).frames)
    (hcarried : s'.carried = s.carried)
    (harrived : (s'.receivers sid).arrived = (s.receivers sid).arrived) :
    s'.lanes sid = s.lanes sid := by
  simp only [lanes, hwritten, hpc, hframes, hcarried, harrived]

lemma quiet_congr {sid : UInt32} [DecidableEq κ]
    (hwritten : (s'.senders sid).written = (s.senders sid).written) (hpc : s'.pc = s.pc)
    (hframes : ∀ conn, (s'.links conn).frames = (s.links conn).frames)
    (hcarried : s'.carried = s.carried)
    (harrived : (s'.receivers sid).arrived = (s.receivers sid).arrived) :
    Relation.ReflTransGen Lanes.Quiet (s.lanes sid) (s'.lanes sid) := by
  rw [lanes_congr hwritten hpc hframes hcarried harrived]

lemma written_setSender {sid' : UInt32} {st : SendStream}
    (h : st.written = (s.senders sid').written) (sid : UInt32) :
    ((s.setSender sid' st).senders sid).written = (s.senders sid).written := by
  by_cases hsid : sid = sid'
  · subst hsid
    simp only [setSender, Function.update_self]
    exact h
  · simp only [setSender, Function.update_of_ne hsid]

lemma arrived_setReceiver {sid' : UInt32} {st : RecvStream}
    (h : st.arrived = (s.receivers sid').arrived) (sid : UInt32) :
    ((s.setReceiver sid' st).receivers sid).arrived = (s.receivers sid).arrived := by
  by_cases hsid : sid = sid'
  · subst hsid
    simp only [setReceiver, Function.update_self]
    exact h
  · simp only [setReceiver, Function.update_of_ne hsid]

lemma frames_setLink {conn : ℕ} {l : Link} (h : l.frames = (s.links conn).frames) (d : ℕ) :
    ((s.setLink conn l).links d).frames = (s.links d).frames := by
  by_cases hd : d = conn
  · subst hd
    simp only [setLink, Function.update_self]
    exact h
  · simp only [setLink, Function.update_of_ne hd]

/-! ## The sending node -/

section Sends

variable [DecidableEq κ] {c : κ} {sid : UInt32}

/-- Coroutine `c` has gone on in `WriteEvent`: nothing has reached a connection. -/
structure Sends (c : κ) (s s' : SessionState κ) : Prop where
  links : s'.links = s.links
  carried : s'.carried = s.carried
  receivers : s'.receivers = s.receivers
  written : ∀ sid, (s'.senders sid).written = (s.senders sid).written
  others : ∀ d, d ≠ c → s'.pc d = s.pc d

omit [DecidableEq κ] in
lemma Sends.trans {s'' : SessionState κ} (h : Sends c s s') (h' : Sends c s' s'') :
    Sends c s s'' :=
  ⟨h'.links.trans h.links, h'.carried.trans h.carried, h'.receivers.trans h.receivers,
    fun sid => (h'.written sid).trans (h.written sid),
    fun d hd => (h'.others d hd).trans (h.others d hd)⟩

omit [DecidableEq κ] in
lemma setSender_sends {st : SendStream} (c : κ) (h : st.written = (s.senders sid).written) :
    Sends c s (s.setSender sid st) :=
  ⟨rfl, rfl, rfl, written_setSender h, fun _ _ => rfl⟩

lemma setPc_sends (s : SessionState κ) (c : κ) (pc : WritePc) : Sends c s (s.setPc c pc) :=
  ⟨rfl, rfl, rfl, fun _ => rfl, fun _ hd => Function.update_of_ne hd _ _⟩

omit [DecidableEq κ] in
lemma renewWriter_sends (s : SessionState κ) (c : κ) (prio : ℕ → Priority) (sid : UInt32) :
    Sends c s (s.renewWriter prio sid) :=
  setSender_sends c rfl

/-- The loop of `WriteEvent` leaves the coroutine where it was, or in a call of `Write`. -/
lemma attempt_spec (s : SessionState κ) (prio : ℕ → Priority) (c : κ) (frame : Frame) (left : ℕ) :
    Sends c s (s.attempt prio c frame left).1 ∧
      ((s.attempt prio c frame left).1.pc c = s.pc c ∨
        ∃ k conn, (s.attempt prio c frame left).1.pc c = .writing frame k conn) := by
  induction left generalizing s with
  | zero => exact ⟨⟨rfl, rfl, rfl, fun _ => rfl, fun _ _ => rfl⟩, .inl rfl⟩
  | succ left ih =>
      rw [attempt]
      split
      · next conn _ => exact ⟨setPc_sends s c _, .inr ⟨left, conn, Function.update_self _ _ _⟩⟩
      · obtain ⟨hsends, hpc⟩ := ih (s.renewWriter prio frame.event.head.sid)
        exact ⟨(renewWriter_sends s c prio _).trans hsends, hpc⟩

lemma closeLocal_spec (s : SessionState κ) (prio : ℕ → Priority) (c : κ) (sid : UInt32) :
    Sends c s (s.closeLocal prio c sid) ∧
      ((s.closeLocal prio c sid).pc c = s.pc c ∨
        ∃ k conn, (s.closeLocal prio c sid).pc c = .writing (closeFrame sid) k conn) := by
  unfold closeLocal
  split
  · exact ⟨⟨rfl, rfl, rfl, fun _ => rfl, fun _ _ => rfl⟩, .inl rfl⟩
  · have hclosed : Sends c s (s.setSender sid { s.senders sid with closed := true }) :=
      setSender_sends c rfl
    obtain ⟨hsends, hpc⟩ := attempt_spec
      (s.setSender sid { s.senders sid with closed := true }) prio c (closeFrame sid) 3
    exact ⟨hclosed.trans hsends, hpc⟩

/-- `WriteEvent`: the coroutine is done, or in a call of `Write` with the event or with the close
request that follows three failures. -/
lemma writeEvent_spec (prio : ℕ → Priority) (frame : Frame) (left : ℕ) (hidle : s.pc c = .idle) :
    Sends c s (s.writeEvent prio c frame left) ∧ ∀ sid,
      ((s.writeEvent prio c frame left).pc c).item sid = frame.item sid ∨
        ((s.writeEvent prio c frame left).pc c).item sid = none := by
  obtain ⟨hsends, hpc⟩ := attempt_spec s prio c frame left
  have hitem : ∀ sid, ((s.attempt prio c frame left).1.pc c).item sid = frame.item sid ∨
      ((s.attempt prio c frame left).1.pc c).item sid = none := by
    intro sid
    rcases hpc with hpc | ⟨k, conn, hpc⟩
    · exact .inr (by rw [hpc, hidle]; rfl)
    · exact .inl (by rw [hpc]; rfl)
  unfold writeEvent
  generalize s.attempt prio c frame left = r at hsends hpc hitem
  obtain ⟨s₁, found⟩ := r
  cases found with
  | true => exact ⟨hsends, hitem⟩
  | false =>
      obtain ⟨hsends', hpc'⟩ := closeLocal_spec s₁ prio c frame.event.head.sid
      refine ⟨hsends.trans hsends', fun sid => ?_⟩
      rcases hpc' with hpc' | ⟨k, conn, hpc'⟩
      · simp only [hpc']
        exact hitem sid
      · right
        simp only [hpc', WritePc.item, Frame.item, closeFrame, MuxEvent.ofBody,
          EventBody.chunkBytes, Option.map_none, ite_self]

/-- What a stretch of `WriteEvent` does to a stream's lanes. -/
lemma Sends.lanes (h : Sends c s s') (sid : UInt32) :
    s'.lanes sid =
      { s.lanes sid with held := Function.update (s.lanes sid).held c ((s'.pc c).item sid) } := by
  have hheld : (s'.lanes sid).held =
      Function.update (s.lanes sid).held c ((s'.pc c).item sid) := by
    funext d
    by_cases hd : d = c
    · subst hd
      rw [Function.update_self]
      rfl
    · rw [Function.update_of_ne hd]
      simp only [SessionState.lanes, h.others d hd]
  simp only [SessionState.lanes] at hheld ⊢
  simp only [h.links, h.carried, h.receivers, h.written, hheld]

lemma Sends.quiet (h : Sends c s s')
    (hitem : (s'.pc c).item sid = (s.pc c).item sid ∨ (s'.pc c).item sid = none) :
    Relation.ReflTransGen Lanes.Quiet (s.lanes sid) (s'.lanes sid) := by
  rw [h.lanes sid]
  rcases hitem with hitem | hitem
  · have hsame : Function.update (s.lanes sid).held c ((s'.pc c).item sid)
        = (s.lanes sid).held := by
      rw [hitem]
      exact Function.update_eq_self c _
    rw [hsame]
  · rw [hitem]
    exact .single (.giveUp (s.lanes sid) c)

/-- `MuxStream::Write`: the chunk gets the next number of its stream. -/
lemma writeChunk_quiet {buf : Bytes} {len : UInt32} (prio : ℕ → Priority)
    (hvalid : len.toNat ≤ buf.length) (hidle : s.pc c = .idle) (sid' : UInt32) :
    Relation.ReflTransGen Lanes.Quiet (s.lanes sid')
      ((s.writeChunk prio c sid buf len hvalid).lanes sid') := by
  obtain ⟨st, hst⟩ : ∃ st, st =
      { s.senders sid with
        writeBytes := (s.senders sid).writeBytes + len.toNat
        written := (s.senders sid).written ++ [buf.take len.toNat] } := ⟨_, rfl⟩
  have hidle' : (s.setSender sid st).pc c = .idle := hidle
  obtain ⟨hsends, hitem⟩ := writeEvent_spec prio (s.chunkFrame sid buf len hvalid) 3 hidle'
  rw [writeChunk, ← hst]
  by_cases hsid : sid' = sid
  · subst hsid
    have hissue : ∀ held, { (s.setSender sid' st).lanes sid' with
        held := Function.update ((s.setSender sid' st).lanes sid').held c held } =
        { (s.lanes sid').issue c (buf.take len.toNat) with
          held := Function.update (s.lanes sid').held c held } := by
      intro held
      simp only [SessionState.lanes, Lanes.issue, setSender, Function.update_self, hst]
    rw [hsends.lanes sid', hissue]
    refine .trans (.single (.issue (s.lanes sid') c (buf.take len.toNat))) ?_
    rcases hitem sid' with hitem | hitem
    · have hheld : (s.chunkFrame sid' buf len hvalid).item sid' =
          some ((s.lanes sid').issued.length, buf.take len.toNat) := by
        simp only [Frame.item, chunkFrame, MuxEvent.ofBody, if_true, EventBody.chunkBytes,
          Option.getD_some, Option.map_some, SessionState.lanes]
      rw [hitem, hheld]
      exact .refl
    · rw [hitem]
      have hgive := Lanes.Quiet.giveUp ((s.lanes sid').issue c (buf.take len.toNat)) c
      rw [Lanes.giveUp] at hgive
      simp only [Lanes.issue, Function.update_idem] at hgive ⊢
      exact .single hgive
  · have hsame : (s.setSender sid st).lanes sid' = s.lanes sid' :=
      lanes_congr (by simp only [setSender, Function.update_of_ne hsid]) rfl (fun _ => rfl) rfl rfl
    have hother : (s.chunkFrame sid buf len hvalid).item sid' = none :=
      if_neg fun h => hsid h.symm
    rw [← hsame]
    refine hsends.quiet (.inr ?_)
    rcases hitem sid' with hitem | hitem
    · rw [hitem, hother]
    · exact hitem

/-- `WriteEvent` on an event that is not a chunk, or that the coroutine had already. -/
lemma writeEvent_quiet {s₁ : SessionState κ} {frame : Frame} (prio : ℕ → Priority) (left : ℕ)
    (h : Sends c s s₁) (hidle : s₁.pc c = .idle)
    (hframe : frame.item sid = (s.pc c).item sid ∨ frame.item sid = none) :
    Relation.ReflTransGen Lanes.Quiet (s.lanes sid)
      ((s₁.writeEvent prio c frame left).lanes sid) := by
  obtain ⟨hsends, hitem⟩ := writeEvent_spec prio frame left hidle
  refine (h.trans hsends).quiet ?_
  rcases hitem sid with hitem | hitem
  · rw [hitem]
    exact hframe
  · exact .inr hitem

end Sends

/-! ## Steps -/

section Steps

variable [DecidableEq κ] {sid : UInt32}

/-- A link that loses its frames, or has none yet. -/
lemma setLink_empty_quiet (s : SessionState κ) (conn : ℕ) {l : Link} (h : l.frames = []) :
    Lanes.Quiet (s.lanes sid) ((s.setLink conn l).lanes sid) := by
  have hlose : (s.setLink conn l).lanes sid = (s.lanes sid).lose conn := by
    have hlane : ((s.setLink conn l).lanes sid).lane =
        Function.update (s.lanes sid).lane conn [] := by
      funext d
      by_cases hd : d = conn
      · subst hd
        simp only [SessionState.lanes, setLink, Function.update_self, h, List.filterMap_nil]
      · simp only [SessionState.lanes, setLink, Function.update_of_ne hd]
    simp only [SessionState.lanes, Lanes.lose] at hlane ⊢
    rw [hlane]
    rfl
  rw [hlose]
  exact .lose (s.lanes sid) conn

/-- A connection accepts a frame. -/
lemma accept_lanes {c : κ} {frame : Frame} {left conn : ℕ}
    (hpc : s.pc c = .writing frame left conn) (sid : UInt32) :
    ((s.accept conn frame).setPc c .idle).lanes sid =
      match frame.item sid with
      | some x => (s.lanes sid).accept c conn x
      | none => s.lanes sid := by
  have hheld : (((s.accept conn frame).setPc c .idle).lanes sid).held =
      Function.update (s.lanes sid).held c none := by
    funext d
    by_cases hd : d = c
    · subst hd
      simp only [SessionState.lanes, setPc, Function.update_self, WritePc.item]
    · simp only [SessionState.lanes, setPc, accept, setLink, Function.update_of_ne hd]
  have hframes : ∀ {f g : ℕ → List Frame},
      (∀ d, g d = Function.update f conn (f conn ++ [frame]) d) →
      (fun d => (g d).filterMap (Frame.item sid)) =
        Function.update (fun d => (f d).filterMap (Frame.item sid)) conn
          ((f conn).filterMap (Frame.item sid) ++ (frame.item sid).toList) := by
    intro f g hg
    funext d
    rw [hg d]
    by_cases hd : d = conn
    · subst hd
      rw [Function.update_self, Function.update_self, List.filterMap_append]
      cases hitem : frame.item sid <;> simp [hitem]
    · rw [Function.update_of_ne hd, Function.update_of_ne hd]
  have hlane := hframes (f := fun d => (s.links d).frames)
    (g := fun d => (((s.accept conn frame).setPc c .idle).links d).frames) (by
      intro d
      by_cases hd : d = conn
      · subst hd
        simp only [setPc, accept, setLink, Function.update_self]
      · simp only [setPc, accept, setLink, Function.update_of_ne hd])
  have hcarried := hframes (f := s.carried)
    (g := ((s.accept conn frame).setPc c .idle).carried) (fun d => rfl)
  have hitem : (s.lanes sid).held c = frame.item sid := by
    simp only [SessionState.lanes, hpc, WritePc.item]
  cases hframe : frame.item sid with
  | some x =>
      rw [hframe] at hlane hcarried
      simp only [SessionState.lanes, Lanes.accept] at hheld ⊢
      rw [hheld, hlane, hcarried]
      rfl
  | none =>
      rw [hframe] at hlane hcarried hitem
      have hsame : Function.update (s.lanes sid).held c none = (s.lanes sid).held := by
        rw [← hitem]
        exact Function.update_eq_self c _
      rw [hsame] at hheld
      rw [Option.toList_none, List.append_nil, Function.update_eq_self] at hlane hcarried
      simp only [SessionState.lanes] at hheld ⊢
      rw [hheld, hlane, hcarried]
      rfl

/-- What the peer does with an event of the stream. -/
lemma receive_arrived (st : RecvStream) (conn : ℕ) (frame : Frame) :
    ((receive st conn frame).arrived.map Arrival.item) =
      match frame.event.body.chunkBytes with
      | some b => st.arrived.map Arrival.item ++ [(conn, frame.number, b)]
      | none => st.arrived.map Arrival.item := by
  unfold receive
  cases frame.event.body with
  | streamChunk chunk chunkLen valid => simp [EventBody.chunkBytes, Arrival.item]
  | proto kind message => rfl
  | streamCloseRequest => rfl
  | retireConnRequest => rfl

lemma process_quiet {conn : ℕ} {frame : Frame} {rest : List Frame}
    (hfront : (s.links conn).frames = frame :: rest) :
    Relation.ReflTransGen Lanes.Quiet (s.lanes sid)
      (((s.setLink conn { s.links conn with frames := rest }).setReceiver frame.event.head.sid
        (receive (s.receivers frame.event.head.sid) conn frame)).lanes sid) := by
  obtain ⟨t, ht⟩ : ∃ t, t = (s.setLink conn { s.links conn with frames := rest }).setReceiver
    frame.event.head.sid (receive (s.receivers frame.event.head.sid) conn frame) := ⟨_, rfl⟩
  rw [← ht]
  have hlane : (t.lanes sid).lane =
      Function.update (s.lanes sid).lane conn (rest.filterMap (Frame.item sid)) := by
    funext d
    by_cases hd : d = conn
    · subst hd
      simp only [SessionState.lanes, ht, setReceiver, setLink, Function.update_self]
    · simp only [SessionState.lanes, ht, setReceiver, setLink, Function.update_of_ne hd]
  have hrest : (t.lanes sid).issued = (s.lanes sid).issued ∧
      (t.lanes sid).held = (s.lanes sid).held ∧
      (t.lanes sid).carried = (s.lanes sid).carried := by
    rw [ht]
    exact ⟨rfl, rfl, rfl⟩
  have hfrontLane : (s.lanes sid).lane conn =
      (frame.item sid).toList ++ rest.filterMap (Frame.item sid) := by
    simp only [SessionState.lanes, hfront]
    cases hitem : frame.item sid <;> simp [hitem]
  have harrived : (t.lanes sid).arrived = (s.lanes sid).arrived ++
      ((frame.item sid).map fun x => (conn, x)).toList := by
    by_cases hsid : sid = frame.event.head.sid
    · subst hsid
      simp only [SessionState.lanes, ht, setReceiver, Function.update_self, receive_arrived,
        Frame.item, if_true]
      cases frame.event.body.chunkBytes <;> simp
    · have hnone : frame.item sid = none := if_neg fun h => hsid h.symm
      simp only [SessionState.lanes, ht, setReceiver, Function.update_of_ne hsid, hnone,
        Option.map_none, Option.toList_none, List.append_nil]
      rfl
  cases hitem : frame.item sid with
  | some x =>
      rw [hitem] at hfrontLane harrived
      have heq : t.lanes sid =
          (s.lanes sid).arrive conn x (rest.filterMap (Frame.item sid)) := by
        obtain ⟨hissued, hheld, hcarried⟩ := hrest
        cases hL : t.lanes sid with
        | mk issued held lane carried arrived =>
            rw [hL] at hlane hissued hheld hcarried harrived
            simp only at hlane hissued hheld hcarried harrived
            rw [hlane, hissued, hheld, hcarried, harrived]
            rfl
      rw [heq]
      exact .single (.arrive (s.lanes sid) conn x _ hfrontLane)
  | none =>
      rw [hitem] at hfrontLane harrived
      have heq : t.lanes sid = s.lanes sid := by
        obtain ⟨hissued, hheld, hcarried⟩ := hrest
        rw [Option.toList_none, List.nil_append] at hfrontLane
        rw [← hfrontLane, Function.update_eq_self] at hlane
        rw [Option.map_none, Option.toList_none, List.append_nil] at harrived
        cases hL : t.lanes sid with
        | mk issued held lane carried arrived =>
            rw [hL] at hlane hissued hheld hcarried harrived
            simp only at hlane hissued hheld hcarried harrived
            rw [hlane, hissued, hheld, hcarried, harrived]
      rw [heq]

/-- What a step can do.  The steps of the connections and slots are told apart only by whether the
frames of a connection are lost. -/
inductive Stepped (s : SessionState κ) : SessionAction κ → SessionState κ → Prop
  | new (sid : UInt32) (prio : ℕ → Priority) :
      Stepped s (.new sid prio)
        ((s.setSender sid { s.senders sid with made := true }).renewWriter prio sid)
  | «open» {c : κ} (hidle : s.pc c = .idle) (sid : UInt32) (host : Bytes) (port : UInt32)
      (isTcp isTls : Bool) (prio : ℕ → Priority) :
      Stepped s (.open c sid host port isTcp isTls prio)
        (s.openStream prio c sid host port isTcp isTls)
  | write {c : κ} (hidle : s.pc c = .idle) (sid : UInt32) {buf : Bytes} {len : UInt32}
      (hvalid : len.toNat ≤ buf.length) (prio : ℕ → Priority) :
      Stepped s (.write c sid buf len prio) (s.writeChunk prio c sid buf len hvalid)
  | close (c : κ) (sid : UInt32) (prio : ℕ → Priority) :
      Stepped s (.close c sid prio) (s.closeLocal prio c sid)
  | closeByRemote (sid : UInt32) :
      Stepped s (.closeByRemote sid) (s.setSender sid { s.senders sid with closed := true })
  | accepted {c : κ} {frame : Frame} {left conn : ℕ} (hpc : s.pc c = .writing frame left conn) :
      Stepped s (.accepted c) ((s.accept conn frame).setPc c .idle)
  | writeError {c : κ} {frame : Frame} {left conn : ℕ} (hpc : s.pc c = .writing frame left conn)
      (prio : ℕ → Priority) :
      Stepped s (.writeError c prio)
        (((s.setPc c .idle).renewWriter prio frame.event.head.sid).writeEvent prio c frame left)
  | link (a : SessionAction κ) (conn : ℕ) {l : Link} (conns : List (Option ℕ)) (made : ℕ)
      (hframes : l.frames = [] ∨ l.frames = (s.links conn).frames) :
      Stepped s a { s.setLink conn l with conns := conns, made := made }
  | slots (a : SessionAction κ) (conns : List (Option ℕ)) : Stepped s a (s.setConns conns)
  | process {conn : ℕ} {frame : Frame} {rest : List Frame}
      (hfront : (s.links conn).frames = frame :: rest) :
      Stepped s (.process conn)
        ((s.setLink conn { s.links conn with frames := rest }).setReceiver frame.event.head.sid
          (receive (s.receivers frame.event.head.sid) conn frame))
  | register (sid : UInt32) :
      Stepped s (.register sid) (s.setReceiver sid { s.receivers sid with registered := true })
  | unregister (sid : UInt32) :
      Stepped s (.unregister sid) (s.setReceiver sid { s.receivers sid with registered := false })

lemma stepped_of_step {a : SessionAction κ} (hstep : s.step a = some s') : Stepped s a s' := by
  cases a with
  | new sid prio =>
      simp only [step] at hstep
      split at hstep
      · cases hstep
      · exact Option.some.inj hstep ▸ .new sid prio
  | «open» c sid host port isTcp isTls prio =>
      simp only [step] at hstep
      split at hstep
      · next hidle _ => exact Option.some.inj hstep ▸ .open hidle sid host port isTcp isTls prio
      · cases hstep
  | write c sid buf len prio =>
      simp only [step] at hstep
      split at hstep
      · next hidle _ =>
          split at hstep
          · next hvalid => exact Option.some.inj hstep ▸ .write hidle sid hvalid prio
          · cases hstep
      · cases hstep
  | close c sid prio =>
      simp only [step] at hstep
      split at hstep
      · exact Option.some.inj hstep ▸ .close c sid prio
      · cases hstep
  | closeByRemote sid => exact Option.some.inj hstep ▸ .closeByRemote sid
  | accepted c =>
      simp only [step] at hstep
      split at hstep
      · next frame left conn hpc =>
          split at hstep
          · exact Option.some.inj hstep ▸ .accepted hpc
          · cases hstep
      · cases hstep
  | writeError c prio =>
      simp only [step] at hstep
      split at hstep
      · next frame left conn hpc => exact Option.some.inj hstep ▸ .writeError hpc prio
      · cases hstep
  | newConnection idx =>
      simp only [step] at hstep
      split at hstep
      · exact Option.some.inj hstep ▸ .link _ s.made _ _ (.inl rfl)
      · cases hstep
  | add => exact Option.some.inj hstep ▸ .link _ s.made _ _ (.inl rfl)
  | retire idx =>
      simp only [step] at hstep
      split at hstep
      · next conn _ => exact Option.some.inj hstep ▸ .link _ conn _ s.made (.inr rfl)
      · cases hstep
  | loopExit conn =>
      simp only [step] at hstep
      split at hstep
      · exact Option.some.inj hstep ▸ .slots _ s.conns
      · exact Option.some.inj hstep ▸ .slots _ _
  | remove conn => exact Option.some.inj hstep ▸ .slots _ _
  | fail conn => exact Option.some.inj hstep ▸ .link _ conn s.conns s.made (.inl rfl)
  | process conn =>
      simp only [step] at hstep
      split at hstep
      · next frame rest hfront => exact Option.some.inj hstep ▸ .process hfront
      · cases hstep
  | register sid => exact Option.some.inj hstep ▸ .register sid
  | unregister sid => exact Option.some.inj hstep ▸ .unregister sid

/-- **What a step does to a stream.**  A connection accepts one of its chunks, or its lanes only
do what `Lanes.Quiet` allows. -/
lemma step_lanes {a : SessionAction κ} (hstep : s.step a = some s') (sid : UInt32) :
    Relation.ReflTransGen Lanes.Quiet (s.lanes sid) (s'.lanes sid) ∨
      ∃ c frame left conn x, a = .accepted c ∧ s.pc c = .writing frame left conn ∧
        frame.item sid = some x ∧ s'.lanes sid = (s.lanes sid).accept c conn x := by
  cases stepped_of_step hstep with
  | new sid' prio =>
      left
      refine quiet_congr ?_ rfl (fun _ => rfl) rfl rfl
      refine (written_setSender ?_ sid).trans (written_setSender ?_ sid)
      · rfl
      · rfl
  | «open» hidle sid' host port isTcp isTls prio =>
      left
      refine writeEvent_quiet prio 3 (setSender_sends _ ?_) hidle (.inr ?_)
      · rfl
      · exact ite_self none
  | write hidle sid' hvalid prio => exact .inl (writeChunk_quiet prio hvalid hidle sid)
  | close c sid' prio =>
      left
      obtain ⟨hsends, hpc⟩ := closeLocal_spec s prio c sid'
      refine hsends.quiet ?_
      rcases hpc with hpc | ⟨k, conn, hpc⟩
      · exact .inl (by rw [hpc])
      · right
        simp only [hpc, WritePc.item, Frame.item, closeFrame, MuxEvent.ofBody,
          EventBody.chunkBytes, Option.map_none, ite_self]
  | closeByRemote sid' =>
      left
      refine quiet_congr (written_setSender ?_ sid) rfl (fun _ => rfl) rfl rfl
      rfl
  | @accepted c frame left conn hpc =>
      have hlanes := accept_lanes hpc sid
      cases hitem : frame.item sid with
      | some x =>
          rw [hitem] at hlanes
          exact .inr ⟨c, frame, left, conn, x, rfl, hpc, hitem, hlanes⟩
      | none =>
          rw [hitem] at hlanes
          left
          rw [hlanes]
  | @writeError c frame left conn hpc prio =>
      left
      refine writeEvent_quiet prio left
        ((setPc_sends s c .idle).trans (renewWriter_sends _ c prio _))
        (Function.update_self _ _ _) (.inl ?_)
      rw [hpc]
      rfl
  | link _ conn conns made hframes =>
      left
      rcases hframes with hempty | hsame
      · exact .single (setLink_empty_quiet s conn hempty)
      · exact quiet_congr rfl rfl (frames_setLink hsame) rfl rfl
  | slots _ conns => exact .inl .refl
  | process hfront => exact .inl (process_quiet hfront)
  | register sid' =>
      left
      refine quiet_congr rfl rfl (fun _ => rfl) rfl (arrived_setReceiver ?_ sid)
      rfl
  | unregister sid' =>
      left
      refine quiet_congr rfl rfl (fun _ => rfl) rfl (arrived_setReceiver ?_ sid)
      rfl

/-- What a step does to the peer's stream. -/
lemma step_receivers {a : SessionAction κ} (hstep : s.step a = some s') (sid : UInt32) :
    s'.receivers sid = s.receivers sid ∨
      (a = .register sid ∧ s'.receivers sid = { s.receivers sid with registered := true }) ∨
      s'.receivers sid = { s.receivers sid with registered := false } ∨
      ∃ conn frame, s'.receivers sid = receive (s.receivers sid) conn frame := by
  have hsends : ∀ {c : κ} {t : SessionState κ}, Sends c s t → t.receivers sid = s.receivers sid :=
    fun h => congrFun h.receivers sid
  cases stepped_of_step hstep with
  | new sid' prio => exact .inl rfl
  | @«open» c hidle sid' host port isTcp isTls prio =>
      exact .inl (congrFun (writeEvent_spec (c := c)
        (s := s.setSender sid' { s.senders sid' with isTls := isTls }) prio _ 3 hidle).1.receivers
        sid)
  | @write c hidle sid' buf len hvalid prio =>
      exact .inl (congrFun (writeEvent_spec (c := c) (s := s.setSender sid' _) prio
        (s.chunkFrame sid' buf len hvalid) 3 hidle).1.receivers sid)
  | close c sid' prio => exact .inl (hsends (closeLocal_spec s prio c sid').1)
  | closeByRemote sid' => exact .inl rfl
  | accepted hpc => exact .inl rfl
  | @writeError c frame left conn hpc prio =>
      exact .inl (hsends (((setPc_sends s c .idle).trans (renewWriter_sends _ c prio _)).trans
        (writeEvent_spec prio frame left (Function.update_self _ _ _)).1))
  | link _ conn conns made hframes => exact .inl rfl
  | slots _ conns => exact .inl rfl
  | @process conn frame rest hfront =>
      by_cases hsid : sid = frame.event.head.sid
      · subst hsid
        exact .inr (.inr (.inr ⟨conn, frame, Function.update_self _ _ _⟩))
      · exact .inl (Function.update_of_ne hsid _ _)
  | register sid' =>
      by_cases hsid : sid = sid'
      · subst hsid
        exact .inr (.inl ⟨rfl, Function.update_self _ _ _⟩)
      · exact .inl (Function.update_of_ne hsid _ _)
  | unregister sid' =>
      by_cases hsid : sid = sid'
      · subst hsid
        exact .inr (.inr (.inl (Function.update_self _ _ _)))
      · exact .inl (Function.update_of_ne hsid _ _)

/-! ## Runs -/

/-- What is offered has arrived, and in that order. -/
def OfferedSub (s : SessionState κ) : Prop :=
  ∀ sid, ((s.receivers sid).offered).Sublist (s.receivers sid).arrived

/-- What is offered to a stream is what arrived first, and all of it while the stream is there. -/
def OfferedFirst (sid : UInt32) (s : SessionState κ) : Prop :=
  (s.receivers sid).offered <+: (s.receivers sid).arrived ∧
    ((s.receivers sid).registered → (s.receivers sid).offered = (s.receivers sid).arrived)

/-- The condition under which a stream keeps its order.  A connection accepts a chunk of it only
when the earlier ones have been read by the peer or are ahead of it on the same connection, and the
peer's stream does not appear when a chunk has been dropped already. -/
def InTurn (sid : UInt32) (s : SessionState κ) : SessionAction κ → Prop
  | .accepted c => ∀ frame left conn x, s.pc c = .writing frame left conn →
      frame.item sid = some x → (s.lanes sid).Clear conn x.1
  | .register sid' => sid' = sid → (s.receivers sid).offered = (s.receivers sid).arrived
  | _ => True

lemma step_offeredSub {a : SessionAction κ} (h : s.OfferedSub) (hstep : s.step a = some s') :
    s'.OfferedSub := by
  intro sid
  rcases step_receivers hstep sid with heq | ⟨-, heq⟩ | heq | ⟨conn, frame, heq⟩
  · rw [heq]; exact h sid
  · rw [heq]; exact h sid
  · rw [heq]; exact h sid
  · rw [heq]
    unfold receive
    split
    · simp only
      split
      · exact (h sid).append (List.Sublist.refl _)
      · exact (h sid).trans (List.sublist_append_left _ _)
    · exact h sid
    · exact h sid

lemma step_offeredFirst {a : SessionAction κ} (h : s.OfferedFirst sid) (hturn : s.InTurn sid a)
    (hstep : s.step a = some s') : s'.OfferedFirst sid := by
  obtain ⟨hpre, hall⟩ := h
  unfold OfferedFirst
  rcases step_receivers hstep sid with heq | ⟨rfl, heq⟩ | heq | ⟨conn, frame, heq⟩
  · rw [heq]
    exact ⟨hpre, hall⟩
  · rw [heq]
    exact ⟨hpre, fun _ => hturn rfl⟩
  · rw [heq]
    refine ⟨hpre, fun hregistered => ?_⟩
    cases hregistered
  · rw [heq]
    unfold receive
    split
    · simp only
      split
      · next hregistered =>
          rw [hall hregistered]
          exact ⟨List.prefix_refl _, fun _ => rfl⟩
      · next hregistered =>
          exact ⟨hpre.trans (List.prefix_append _ _), fun h => absurd h hregistered⟩
    · refine ⟨hpre, fun hregistered => ?_⟩
      cases hregistered
    · exact ⟨hpre, hall⟩

/-- The invariant of every run. -/
structure Carries (s : SessionState κ) : Prop where
  sound : ∀ sid, (s.lanes sid).Sound
  ordered : ∀ sid, (s.lanes sid).Ordered
  offered : s.OfferedSub

lemma step_carries {a : SessionAction κ} (h : s.Carries) (hstep : s.step a = some s') :
    s'.Carries := by
  refine ⟨fun sid => ?_, fun sid => ?_, step_offeredSub h.offered hstep⟩
  · rcases step_lanes hstep sid with hquiet | ⟨c, frame, left, conn, x, -, hpc, hitem, heq⟩
    · exact (h.sound sid).quiets hquiet
    · rw [heq]
      exact (h.sound sid).accept (by simp only [lanes, hpc]; exact hitem) conn
  · rcases step_lanes hstep sid with hquiet | ⟨c, frame, left, conn, x, -, -, -, heq⟩
    · exact (h.ordered sid).quiets hquiet
    · rw [heq]
      exact (h.ordered sid).accept c conn x

/-- The invariant of the runs that keep the order of a stream. -/
structure Sequenced (sid : UInt32) (s : SessionState κ) : Prop where
  carries : s.Carries
  inSequence : (s.lanes sid).InSequence
  offered : s.OfferedFirst sid

lemma step_sequenced {a : SessionAction κ} (h : s.Sequenced sid) (hturn : s.InTurn sid a)
    (hstep : s.step a = some s') : s'.Sequenced sid := by
  refine ⟨step_carries h.carries hstep, ?_, step_offeredFirst h.offered hturn hstep⟩
  rcases step_lanes hstep sid with hquiet | ⟨c, frame, left, conn, x, rfl, hpc, hitem, heq⟩
  · exact h.inSequence.quiets (h.carries.sound sid) hquiet
  · rw [heq]
    refine h.inSequence.accept (h.carries.sound sid) ?_ (hturn frame left conn x hpc hitem)
    simp only [lanes, hpc]
    exact hitem

omit [DecidableEq κ] in
lemma init_carries (isEntryNode : Bool) (slots : ℕ) :
    (init isEntryNode slots : SessionState κ).Carries :=
  ⟨fun _ => Lanes.sound_empty, fun _ => Lanes.ordered_empty, fun _ => .slnil⟩

omit [DecidableEq κ] in
lemma init_sequenced (isEntryNode : Bool) (slots : ℕ) (sid : UInt32) :
    (init isEntryNode slots : SessionState κ).Sequenced sid :=
  ⟨init_carries _ _, Lanes.inSequence_empty, List.prefix_refl _, fun _ => rfl⟩

/-- **The order of a stream.**  Whatever the coroutines of both nodes, the transports and the
maintenance of the slots do, every chunk the peer is offered is one that was passed to `Write`,
none is offered twice, and those of one connection are offered in the order it accepted them.  If
moreover the stream's chunks are accepted in turn, and its entry at the peer is not made too late,
the chunks offered are at every moment a prefix of those passed to `Write`, whatever happens to
other streams. -/
theorem offered_in_order (isEntryNode : Bool) (slots : ℕ) (as : List (SessionAction κ))
    (s : SessionState κ) (h : exec step (init isEntryNode slots) as = some s) (sid : UInt32) :
    (∀ a ∈ (s.receivers sid).offered, (s.senders sid).written[a.number]? = some a.chunk) ∧
      ((s.receivers sid).offered.map Arrival.number).Nodup ∧
      (∀ conn, (((s.receivers sid).offered.filter fun a => a.conn = conn).map
          fun a => (a.number, a.chunk)).Sublist ((s.carried conn).filterMap (Frame.item sid))) ∧
      (Along step (InTurn sid) (init isEntryNode slots) as →
        (s.receivers sid).offered.map Arrival.chunk <+: (s.senders sid).written) := by
  have hcarries := exec_invariant (fun _ _ _ hs hstep => step_carries hs hstep)
    (init_carries isEntryNode slots) h
  have hsub := hcarries.offered sid
  have hitems : (s.lanes sid).items.map Prod.fst
      = (s.receivers sid).arrived.map Arrival.number := by
    simp only [Lanes.items, lanes, List.map_map]
    rfl
  refine ⟨?_, ?_, ?_, ?_⟩
  · intro a ha
    obtain ⟨place, hsound⟩ := hcarries.sound sid
    refine (hsound.arrived (a.number, a.chunk) ?_).1
    simp only [Lanes.items, lanes, List.map_map, List.mem_map]
    exact ⟨a, hsub.subset ha, rfl⟩
  · obtain ⟨place, hsound⟩ := hcarries.sound sid
    have hnodup := hsound.arrived_nodup
    rw [hitems] at hnodup
    exact hnodup.sublist (hsub.map _)
  · intro conn
    have hordered := hcarries.ordered sid conn
    refine ((hsub.filter _).map _).trans (.trans ?_ hordered)
    have harrived : ((s.lanes sid).arrived.filter fun y => y.1 = conn).map Prod.snd =
        ((s.receivers sid).arrived.filter fun a => a.conn = conn).map
          fun a => (a.number, a.chunk) := by
      simp only [lanes, List.filter_map, List.map_map]
      rfl
    rw [harrived]
    exact List.sublist_append_left _ _
  · intro halong
    have hseq := exec_invariant_along (fun _ _ _ hs hC hstep => step_sequenced hs hC hstep)
      (init_sequenced isEntryNode slots sid) halong h
    have hpre := hseq.inSequence.arrived_prefix_issued (hcarries.sound sid)
    have harrived : (s.lanes sid).items.map Prod.snd =
        (s.receivers sid).arrived.map Arrival.chunk := by
      simp only [Lanes.items, lanes, List.map_map]
      rfl
    rw [harrived] at hpre
    exact (hseq.offered.1.map _).trans hpre

end Steps

/-- Two chunks of stream 1 on one connection.  Stream 3 appears at the peer when its first chunk has
been dropped. -/
def oneConnectionRun : List (SessionAction Unit) :=
  [.newConnection 0, .new 1 fun _ => {}, .new 3 fun _ => {}, .register 1,
    .write () 3 [7] 1 fun _ => {}, .accepted (), .process 0, .register 3,
    .write () 1 [10] 1 fun _ => {}, .accepted (), .write () 1 [20] 1 fun _ => {}, .accepted (),
    .process 0]

lemma oneConnectionRun_inTurn : Along step (InTurn 1) (init false 1) oneConnectionRun := by
  refine .cons trivial rfl (.cons trivial rfl (.cons trivial rfl (.cons (fun _ => rfl) rfl
    (.cons trivial rfl (.cons ?_ rfl (.cons trivial rfl (.cons ?_ rfl (.cons trivial rfl
      (.cons ?_ rfl (.cons trivial rfl (.cons ?_ rfl (.cons trivial rfl trivial))))))))))))
  · -- a chunk of the other stream
    intro frame left conn x hpc hitem
    obtain ⟨rfl, -, -⟩ := WritePc.writing.inj hpc
    cases hitem
  · intro hsid
    exact absurd hsid (by decide)
  · -- the first chunk has none before it
    intro frame left conn x hpc hitem m hm
    obtain ⟨rfl, -, -⟩ := WritePc.writing.inj hpc
    obtain rfl := Option.some.inj hitem
    exact absurd hm (Nat.not_lt_zero m)
  · -- the second one has the first ahead of it
    intro frame left conn x hpc hitem m hm
    obtain ⟨rfl, -, rfl⟩ := WritePc.writing.inj hpc
    obtain rfl := Option.some.inj hitem
    obtain rfl : m = 0 := Nat.lt_one_iff.mp hm
    exact .inr List.mem_cons_self

/-- The peer has been offered the first chunk, and the second one is on its way. -/
theorem offered_in_order_one_connection :
    ∃ s, exec step (init false 1) oneConnectionRun = some s ∧
      (s.receivers 1).offered.map Arrival.chunk = [[10]] ∧
      (s.receivers 1).offered.map Arrival.chunk <+: (s.senders 1).written := by
  refine ⟨_, rfl, rfl, ?_⟩
  exact (offered_in_order false 1 oneConnectionRun _ rfl 1).2.2.2 oneConnectionRun_inTurn

/-- The connection with the first chunk is retired while the chunk is on its way; the second one
takes the other connection, which is read first. -/
def retirementRun : List (SessionAction Unit) :=
  [.newConnection 0, .newConnection 1, .new 1 fun _ => {}, .register 1,
    .write () 1 [10] 1 fun _ => {}, .accepted (), .retire 0, .write () 1 [20] 1 fun _ => {},
    .accepted (), .process 1]

theorem chunk_overtakes_after_retirement :
    ∃ s, exec step (init false 2) retirementRun = some s ∧
      (s.senders 1).written = [[10], [20]] ∧
      (s.receivers 1).offered.map Arrival.chunk = [[20]] ∧
      ¬ (s.receivers 1).offered.map Arrival.chunk <+: (s.senders 1).written := by
  refine ⟨_, rfl, rfl, rfl, ?_⟩
  show ¬ [[20]] <+: [[10], [20]]
  decide

end SessionState

end Snova
