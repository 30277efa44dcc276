import Snova.Model.Connection
import Snova.Properties.CipherRoundTrip
import Snova.Properties.ReadEvent
import Snova.Properties.Write

/-!
# A connection delivers what was written

The two halves of a connection are known one by one: the writers leave whole frames on the wire,
and the reader finds what `Decrypt` finds in it.  Here they are put together.  `OnWire` names the
calls whose frames the wire consists of; the frames of these calls are decoded to their events
(`frames_decode`), so what the reader has returned is a first part of them.

The result is that of a FIFO queue between the two nodes: every event once, in one order, and
nothing else.
-/

namespace Snova

open CipherContext (Keyed sealedFrame decoder)

variable {κ : Type} {A : Aead} {pb : Nanopb} {key : Bytes} {iv₀ : UInt64}

namespace WriterState

variable {s s' : WriterState κ} {c : κ} {started : List MuxEvent} {calls : List (ℕ × MuxEvent)}

/-! ## Frames and their events -/

lemma frames_cons (x : ℕ × MuxEvent) (done : List (ℕ × MuxEvent)) :
    frames A pb key iv₀ (x :: done) =
      sealedFrame A pb key iv₀ x.2 :: frames A pb key (iv₀ + 1) done := by
  have hzero : UInt64.ofNat 0 = 0 := rfl
  have hone : UInt64.ofNat 1 = 1 := rfl
  have hshift : ∀ k, iv₀ + UInt64.ofNat (k + 1) = iv₀ + 1 + UInt64.ofNat k := by
    intro k
    rw [UInt64.ofNat_add, hone, UInt64.add_comm (UInt64.ofNat k), UInt64.add_assoc]
  simp only [frames, List.mapIdx_cons, hzero, UInt64.add_zero, hshift]

lemma frames_prefix {done : List (ℕ × MuxEvent)} (h : done <+: calls) :
    (frames A pb key iv₀ done).flatten <+: (frames A pb key iv₀ calls).flatten := by
  obtain ⟨rest, rfl⟩ := h
  rw [frames, frames, List.mapIdx_append, List.flatten_append]
  exact List.prefix_append _ _

/-- A receiver whose counter is level with the first frame decodes the frames to their events. -/
lemma frames_decode {receiver : CipherContext} (hr : receiver.Keyed key)
    (hiv : receiver.decryptIv = iv₀)
    (hbody : ∀ x ∈ calls, (x.2.body.encoded pb).length ≤ kMaxChunkSize) :
    ∃ items receiver', (decoder A pb).Frames receiver (frames A pb key iv₀ calls) items receiver' ∧
      List.Forall₂ (fun item x => item.1.Same x.2) items calls := by
  induction calls generalizing iv₀ receiver with
  | nil => exact ⟨[], receiver, .nil _, .nil⟩
  | cons x calls ih =>
      obtain ⟨ev, hsame, hnext⟩ :=
        hr.next_sealedFrame A hiv (hbody x List.mem_cons_self)
      obtain ⟨items, receiver', hframes, hitems⟩ :=
        ih (hr.withIvs receiver.encryptIv (receiver.decryptIv + 1)) (by rw [hiv])
          fun y hy => hbody y (List.mem_cons_of_mem _ hy)
      rw [frames_cons]
      exact ⟨_, receiver', .cons hnext hframes, .cons hsame hitems⟩

/-! ## The calls and their events -/

/-- The call a job belongs to and its event, until its frame has been sent. -/
def jobEvent : WriteJob → Option (ℕ × MuxEvent)
  | .locking call event => some (call, event)
  | .writing w => some (w.call, w.event)
  | _ => none

/-- The calls in the state are those that were started, with the events they were started with. -/
structure Started (s : WriterState κ) (started : List MuxEvent) : Prop where
  length : started.length = s.calls
  job : ∀ c x, jobEvent (s.job c) = some x → started[x.1]? = some x.2
  done : ∀ x ∈ s.done, started[x.1]? = some x.2

variable [DecidableEq κ]

lemma Leaves.jobEvent {call : ℕ} {success : Bool} (h : Leaves s c call success s') {d : κ}
    {x : ℕ × MuxEvent} (hd : jobEvent (s'.job d) = some x) : jobEvent (s.job d) = some x := by
  cases h with
  | returned same job record =>
      rw [job, Function.update_apply] at hd
      split at hd
      · cases hd
      · exact hd
  | unlocking same job record =>
      rw [job, Function.update_apply] at hd
      split at hd
      · cases hd
      · exact hd

/-- Behind `Lock` a call still has its event. -/
lemma afterLock_jobEvent {call : ℕ} {event : MuxEvent} {env : WriteEnv} {m : MutexState κ}
    (h : s.afterLock A pb c call event env m = some s') :
    Unmoved s s' ∧ ∀ d x, jobEvent (s'.job d) = some x →
      jobEvent (s.job d) = some x ∨ d = c ∧ x = (call, event) := by
  have hupdate : ∀ (job : κ → WriteJob) (j : WriteJob), jobEvent j = some (call, event) →
      ∀ d x, jobEvent (Function.update job c j d) = some x →
        jobEvent (job d) = some x ∨ d = c ∧ x = (call, event) := by
    intro job j hj d x hd
    rw [Function.update_apply] at hd
    split at hd
    · next hdc =>
        rw [hj] at hd
        exact .inr ⟨hdc, (Option.some.inj hd).symm⟩
    · exact .inl hd
  simp only [afterLock] at h
  split at h
  · simp only [runEncrypt] at h
    split at h
    · obtain ⟨hleft, -⟩ := runUnlock_leaves h
      exact ⟨⟨hleft.same.wire, hleft.same.done, hleft.same.calls, hleft.same.closedAt⟩,
        fun d x hd => .inl (hleft.jobEvent hd)⟩
    · obtain rfl := Option.some.inj h
      exact ⟨⟨rfl, rfl, rfl, rfl⟩, hupdate _ _ rfl⟩
  · obtain rfl := Option.some.inj h
    exact ⟨⟨rfl, rfl, rfl, rfl⟩, hupdate _ _ rfl⟩

/-- What a step does to the calls: it starts those the action says, and adds to `done` only a call
it finds at work. -/
lemma step_jobEvent {a : WriteAction κ} (h : step A pb s a = some s') :
    s'.calls = s.calls + a.started.length ∧
      (∀ d x, jobEvent (s'.job d) = some x →
        jobEvent (s.job d) = some x ∨ x.1 = s.calls ∧ a.started = [x.2]) ∧
      ∀ x ∈ s'.done, x ∈ s.done ∨ ∃ c, jobEvent (s.job c) = some x := by
  cases a with
  | write c event env =>
      simp only [step] at h
      split at h
      · obtain ⟨m, -, hafter⟩ := Option.bind_eq_some_iff.mp h
        obtain ⟨same, hjobs⟩ := afterLock_jobEvent hafter
        refine ⟨same.calls, fun d x hd => ?_, fun x hx => .inl (same.done ▸ hx)⟩
        have hnew : x = (s.calls, event) →
            x.1 = s.calls ∧ WriteAction.started (.write c event env) = [x.2] := by
          rintro rfl
          exact ⟨rfl, rfl⟩
        rcases hjobs d x hd with hstart | ⟨-, hx⟩
        · simp only [start, Function.update_apply] at hstart
          split at hstart
          · exact .inr (hnew (Option.some.inj hstart).symm)
          · exact .inl hstart
        · exact .inr (hnew hx)
      · cases h
  | resume c env =>
      simp only [step] at h
      split at h
      · next call event hlocking =>
          obtain ⟨m, -, hafter⟩ := Option.bind_eq_some_iff.mp h
          obtain ⟨same, hjobs⟩ := afterLock_jobEvent hafter
          refine ⟨same.calls, fun d x hd => .inl ?_, fun x hx => .inl (same.done ▸ hx)⟩
          rcases hjobs d x hd with hd | ⟨rfl, rfl⟩
          · exact hd
          · rw [hlocking]
            rfl
      · cases h
  | transmit c n =>
      simp only [step] at h
      split at h
      · next w hw =>
          split at h
          · obtain rfl := Option.some.inj h
            refine ⟨rfl, fun d x hd => .inl ?_, fun x hx => .inl hx⟩
            simp only [Function.update_apply] at hd
            split at hd
            · next hdc =>
                rw [hdc, hw]
                exact hd
            · exact hd
          · cases h
      · cases h
  | complete c =>
      simp only [step] at h
      split at h
      · next w hw =>
          split at h
          · obtain ⟨hleft, -⟩ := runUnlock_leaves h
            refine ⟨hleft.same.calls, fun d x hd => .inl (hleft.jobEvent hd), fun x hx => ?_⟩
            rw [hleft.same.done] at hx
            rcases List.mem_append.mp hx with hx | hx
            · exact .inl hx
            · obtain rfl := List.mem_singleton.mp hx
              exact .inr ⟨c, by rw [hw]; rfl⟩
          · cases h
      · cases h
  | writeError c =>
      simp only [step] at h
      split at h
      · obtain ⟨hleft, -⟩ := runUnlock_leaves h
        exact ⟨hleft.same.calls, fun d x hd => .inl (hleft.jobEvent hd),
          fun x hx => .inl (hleft.same.done ▸ hx)⟩
      · cases h
  | unlocked c =>
      simp only [step] at h
      split at h
      · obtain ⟨m, -, rfl⟩ := Option.map_eq_some_iff.mp h
        refine ⟨rfl, fun d x hd => .inl ?_, fun x hx => .inl hx⟩
        simp only [Function.update_apply] at hd
        split at hd
        · cases hd
        · exact hd
      · cases h
  | close =>
      simp only [step] at h
      obtain ⟨m, -, rfl⟩ := Option.map_eq_some_iff.mp h
      exact ⟨rfl, fun d x hd => .inl hd, fun x hx => .inl hx⟩

lemma Started.step {a : WriteAction κ} (h : Started s started) (hstep : step A pb s a = some s') :
    Started s' (started ++ a.started) := by
  obtain ⟨hcalls, hjobs, hdone⟩ := step_jobEvent hstep
  have hkeep : ∀ x : ℕ × MuxEvent, started[x.1]? = some x.2 →
      (started ++ a.started)[x.1]? = some x.2 := fun x hx => by
    rw [List.getElem?_append_left (List.getElem?_eq_some_iff.mp hx).1, hx]
  refine ⟨by rw [List.length_append, h.length, hcalls], fun d x hd => ?_, fun x hx => ?_⟩
  · rcases hjobs d x hd with hd | ⟨hx, hevent⟩
    · exact hkeep x (h.job d x hd)
    · rw [hx, hevent, ← h.length]
      exact List.getElem?_concat_length
  · rcases hdone x hx with hx | ⟨c, hc⟩
    · exact hkeep x (h.done x hx)
    · exact hkeep x (h.job c x hc)

/-! ## The calls on the wire -/

/-- The wire consists of the frames of the calls in `done` and of a part of one more. -/
structure OnWire (A : Aead) (pb : Nanopb) (key : Bytes) (iv₀ : UInt64) (s : WriterState κ)
    (started : List MuxEvent) (calls : List (ℕ × MuxEvent)) : Prop where
  done : s.done <+: calls
  length : calls.length ≤ s.done.length + 1
  sent : (frames A pb key iv₀ s.done).flatten <+: s.wire
  wire : s.wire <+: (frames A pb key iv₀ calls).flatten
  nodup : (calls.map Prod.fst).Nodup
  started : ∀ x ∈ calls, started[x.1]? = some x.2

omit [DecidableEq κ] in
/-- The wire is at the end of a frame. -/
lemma onWire_done (hledger : Ledger s) (hstarted : Started s started)
    (hwire : s.wire = (frames A pb key iv₀ s.done).flatten) :
    OnWire A pb key iv₀ s started s.done :=
  ⟨List.prefix_refl _, Nat.le_succ _, hwire ▸ List.prefix_refl _, hwire ▸ List.prefix_refl _,
    hledger.nodup, hstarted.done⟩

variable [Fintype κ]

omit [DecidableEq κ] in
/-- On an open connection the frame in progress is that of the coroutine in `AsyncWrite`. -/
lemma OpenInv.exists_onWire (h : OpenInv A pb key iv₀ s) (hledger : Ledger s)
    (hstarted : Started s started) : ∃ calls, OnWire A pb key iv₀ s started calls := by
  by_cases hw : ∃ c w, s.job c = .writing w
  · obtain ⟨c, w, hw⟩ := hw
    have hwritten := h.writer c w hw
    have hfresh : w.call ∉ s.done.map Prod.fst := hledger.unsent c w.call (by rw [hw]; rfl)
    refine ⟨s.done ++ [(w.call, w.event)], List.prefix_append _ _, by simp, ?_, ?_, ?_, ?_⟩
    · rw [hwritten.wire]
      exact List.prefix_append _ _
    · rw [hwritten.wire, frames_concat, hwritten.frame]
      exact (List.prefix_append_right_inj _).mpr (List.take_prefix _ _)
    · rw [List.map_append, List.nodup_append]
      refine ⟨hledger.nodup, List.nodup_singleton _, fun n hn m hm heq => hfresh ?_⟩
      have hcall : m = w.call := List.mem_singleton.mp hm
      rwa [← hcall, ← heq]
    · intro x hx
      rcases List.mem_append.mp hx with hx | hx
      · exact hstarted.done x hx
      · obtain rfl := List.mem_singleton.mp hx
        exact hstarted.job c _ (by rw [hw]; rfl)
  · have hnone : ∀ c w, s.job c ≠ .writing w := fun c w hcw => hw ⟨c, w, hcw⟩
    exact ⟨s.done, onWire_done hledger hstarted (h.free hnone).1⟩

/-- What is known of the writing node of a connection at any time. -/
structure Sending (A : Aead) (pb : Nanopb) (key : Bytes) (iv₀ : UInt64) (s : WriterState κ)
    (started : List MuxEvent) : Prop where
  base : Base key s
  ledger : Ledger s
  inv : Inv A pb key iv₀ s
  tracked : Started s started
  onWire : ∃ calls, OnWire A pb key iv₀ s started calls

omit [DecidableEq κ] in
lemma sending_init {ctx : CipherContext} (hk : ctx.Keyed key) (masks : Bool) :
    Sending A pb key ctx.encryptIv (init ctx masks : WriterState κ) [] := by
  have hledger : Ledger (init ctx masks : WriterState κ) := ledger_init ctx masks
  have hstarted : Started (init ctx masks : WriterState κ) [] := by
    constructor <;> simp [init, jobEvent]
  exact ⟨⟨hk, fun c w hw => by cases hw⟩, hledger, .inl (openInv_init ctx masks), hstarted,
    [], onWire_done hledger hstarted rfl⟩

omit [DecidableEq κ] [Fintype κ] in
/-- Nothing happens on the wire. -/
lemma OnWire.keep (h : OnWire A pb key iv₀ s started calls) (hwire : s'.wire = s.wire)
    (hdone : s'.done = s.done) (more : List MuxEvent) :
    OnWire A pb key iv₀ s' (started ++ more) calls := by
  obtain ⟨done, length, sent, wire, nodup, tracked⟩ := h
  rw [← hdone] at done length sent
  rw [← hwire] at sent wire
  refine ⟨done, length, sent, wire, nodup, fun x hx => ?_⟩
  have hget := tracked x hx
  rw [List.getElem?_append_left (List.getElem?_eq_some_iff.mp hget).1, hget]

omit [Fintype κ] in
/-- A step that leads to a closed connection leaves the wire alone; a call may still find its frame
complete. -/
lemma OnWire.closed_step {a : WriteAction κ} (h : OnWire A pb key iv₀ s started calls)
    (hbase : Base key s) (hinv : ClosedInv A pb key iv₀ s) (hclosed : s'.closedAt ≠ none)
    (hledger : Ledger s') (hstarted : Started s' (started ++ a.started))
    (hstep : step A pb s a = some s') :
    ∃ calls, OnWire A pb key iv₀ s' (started ++ a.started) calls := by
  obtain ⟨hspec, -⟩ := step_spec hbase.keyed hstep
  cases hspec with
  | write idle henters => exact ⟨calls, h.keep henters.same.wire henters.same.done _⟩
  | resume locking henters => exact ⟨calls, h.keep henters.same.wire henters.same.done _⟩
  | transmit writing isOpen pos le => exact absurd isOpen hclosed
  | @complete c w s' writing all hleft =>
      obtain ⟨ev, tail, hwire, -, hjobs⟩ := hinv.tail
      have hpos : 0 < w.sent := by
        rw [all]
        exact List.length_pos_of_ne_nil (hbase.frame c w writing)
      obtain ⟨hframe, htail⟩ := hjobs c w writing hpos
      refine ⟨s'.done, onWire_done hledger hstarted ?_⟩
      rw [hleft.same.wire, hleft.same.done, frames_concat, ← hframe]
      rw [hwire, htail, all, List.take_length]
  | writeError writing hleft => exact ⟨calls, h.keep hleft.same.wire hleft.same.done _⟩
  | unlocked unlocking =>
      refine ⟨calls, h.keep ?_ ?_ _⟩
      · rfl
      · rfl
  | close =>
      refine ⟨calls, h.keep ?_ ?_ _⟩
      · rfl
      · rfl

omit [Fintype κ] in
lemma step_wire_prefix {a : WriteAction κ} (hbase : Base key s) (hstep : step A pb s a = some s') :
    s.wire <+: s'.wire := by
  obtain ⟨hspec, -⟩ := step_spec hbase.keyed hstep
  cases hspec with
  | write idle henters => exact henters.same.wire ▸ List.prefix_refl _
  | resume locking henters => exact henters.same.wire ▸ List.prefix_refl _
  | transmit writing isOpen pos le => exact List.prefix_append _ _
  | complete writing all hleft => exact hleft.same.wire ▸ List.prefix_refl _
  | writeError writing hleft => exact hleft.same.wire ▸ List.prefix_refl _
  | unlocked unlocking => exact List.prefix_refl _
  | close => exact List.prefix_refl _

lemma Sending.step {a : WriteAction κ} (h : Sending A pb key iv₀ s started)
    (herr : NoOpenError s a) (hstep : step A pb s a = some s') :
    Sending A pb key iv₀ s' (started ++ a.started) := by
  obtain ⟨hbase, hledger, hinv, hstarted, calls, hwire⟩ := h
  have hledger' := step_ledger hbase hledger hstep
  have hstarted' := hstarted.step hstep
  refine ⟨step_base hbase hstep, hledger', step_inv hbase hinv herr hstep, hstarted', ?_⟩
  rcases step_inv hbase hinv herr hstep with hopen | ⟨hclosed, -⟩
  · exact hopen.exists_onWire hledger' hstarted'
  · have htail : ClosedInv A pb key iv₀ s := by
      rcases hinv with hinv | ⟨-, hinv⟩
      · exact hinv.closedInv
      · exact hinv
    exact hwire.closed_step hbase htail hclosed hledger' hstarted' hstep

end WriterState

/-! ## Both ends -/

/-- What an action delivers to the reader. -/
def ReaderAction.bytes : ReaderAction → Bytes
  | .data bs => bs
  | _ => []

lemma ReaderState.afterRead_received (s : ReaderState) (p : Reader × ReadStatus) :
    (s.afterRead p).received = s.received := by
  rw [afterRead]
  split
  · rfl
  · split <;> rfl

lemma ReaderState.step_received {s s' : ReaderState} {a : ReaderAction}
    (h : step A pb s a = some s') : s'.received = s.received ++ a.bytes := by
  cases a with
  | readEvent =>
      simp only [step] at h
      split at h
      · obtain rfl := Option.some.inj h
        exact (afterRead_received _ _).trans (List.append_nil _).symm
      · cases h
  | data bs =>
      simp only [step] at h
      split at h
      · split at h
        · obtain rfl := Option.some.inj h
          rw [afterRead_received]
          rfl
        · cases h
      · cases h
  | error rc =>
      simp only [step] at h
      split at h
      · split at h
        · cases h
        · obtain rfl := Option.some.inj h
          exact (List.append_nil _).symm
      · cases h

section Reading

variable {s : ReaderState} {receiver : CipherContext} {items : List (MuxEvent × ℕ)}
  {calls : List (ℕ × MuxEvent)}

/-- The events a reader has returned are the first ones of the frames it is being given. -/
lemma ReaderState.ReadInv.events_same (h : ReadInv A pb receiver s items) (hr : receiver.Keyed key)
    (hiv : receiver.decryptIv = iv₀)
    (hbody : ∀ x ∈ calls, (x.2.body.encoded pb).length ≤ kMaxChunkSize)
    (hreceived : s.received <+: (WriterState.frames A pb key iv₀ calls).flatten) :
    List.Forall₂ (fun event x => event.Same x.2) s.events (calls.take s.events.length) := by
  obtain ⟨whole, receiver', hframes, hwhole⟩ := WriterState.frames_decode (A := A) hr hiv hbody
  obtain ⟨rest, hrest⟩ := hreceived
  have hprefix : items <+: ((decoder A pb).decodeAll receiver s.received).items := by
    rw [h.decoded]
    exact List.prefix_append _ _
  have hall := hprefix.trans ((decoder A pb).decodeAll_prefix_items receiver s.received rest)
  rw [hrest, hframes.decodeAll_eq (CipherContext.next_nil _)] at hall
  have hitems : items = whole.take items.length := List.prefix_iff_eq_take.mp hall
  have htake := List.forall₂_take items.length hwhole
  rw [← hitems] at htake
  rwa [← h.events, List.length_map, List.forall₂_map_left_iff]

/-- A reader does not fail on frames. -/
lemma ReaderState.ReadInv.not_failed (h : ReadInv A pb receiver s items) (hr : receiver.Keyed key)
    (hiv : receiver.decryptIv = iv₀)
    (hbody : ∀ x ∈ calls, (x.2.body.encoded pb).length ≤ kMaxChunkSize)
    (hreceived : s.received <+: (WriterState.frames A pb key iv₀ calls).flatten) (rc : Int) :
    s.phase ≠ .failed rc := by
  intro hphase
  have hfail := h.phase
  rw [PhaseInv, hphase] at hfail
  have herror : ((decoder A pb).decodeAll receiver s.received).error = some rc := by
    rw [h.decoded, (decoder A pb).decodeAll_of_fail hfail]
    rfl
  obtain ⟨whole, receiver', hframes, -⟩ := WriterState.frames_decode (A := A) hr hiv hbody
  obtain ⟨rest, hrest⟩ := hreceived
  have hall := ((decoder A pb).decodeAll_append_of_error herror rest).2
  rw [hrest, hframes.decodeAll_eq (CipherContext.next_nil _)] at hall
  cases hall

/-- A reader that waits has decoded every whole frame among the bytes it got, and holds what is
behind them. -/
lemma ReaderState.ReadInv.waiting {current : Span} {tail : Bytes}
    (h : ReadInv A pb receiver s items) (hr : receiver.Keyed key) (hiv : receiver.decryptIv = iv₀)
    (hbody : ∀ x ∈ calls, (x.2.body.encoded pb).length ≤ kMaxChunkSize)
    (hphase : s.phase = .reading current)
    (hreceived : s.received = (WriterState.frames A pb key iv₀ calls).flatten ++ tail) :
    calls.length ≤ items.length ∧
      (tail = [] → items.length = calls.length ∧ s.undecoded items = []) := by
  have hinv := h.phase
  rw [PhaseInv, hphase] at hinv
  obtain ⟨hmore, -, -⟩ := hinv
  have hdecoded := h.decoded
  rw [(decoder A pb).decodeAll_of_more hmore] at hdecoded
  obtain ⟨whole, receiver', hframes, hwhole⟩ := WriterState.frames_decode (A := A) hr hiv hbody
  rw [hreceived, hframes.decodeAll_flatten tail] at hdecoded
  have hlength := congrArg (fun d => d.items.length) hdecoded
  simp only [Decoded.after, List.length_append, List.append_nil] at hlength
  rw [hwhole.length_eq] at hlength
  refine ⟨by omega, ?_⟩
  rintro rfl
  rw [(decoder A pb).decodeAll_of_more (CipherContext.next_nil _)] at hdecoded hlength
  exact ⟨hlength.symm, (congrArg (fun d => d.rest) hdecoded).symm⟩

end Reading

namespace Connection

open WriterState (Sending OnWire NoOpenError frames_decode)

variable [DecidableEq κ] [Fintype κ] {s s' : Connection κ} {receiver : CipherContext}

/-- The writers' errors are those of a closed connection. -/
def OnlyClosedErrors (s : Connection κ) : ConnectionAction κ → Prop
  | .write a => NoOpenError s.writer a
  | _ => True

/-- What is known of a connection at any time. -/
structure Carries (A : Aead) (pb : Nanopb) (key : Bytes) (iv₀ : UInt64) (receiver : CipherContext)
    (s : Connection κ) : Prop where
  sending : Sending A pb key iv₀ s.writer s.started
  reading : ∃ items, ReaderState.ReadInv A pb receiver s.reader items
  received : s.reader.received <+: s.writer.wire

omit [DecidableEq κ] in
lemma Carries.inTransit (h : Carries A pb key iv₀ receiver s) :
    s.reader.received ++ s.inTransit = s.writer.wire := by
  obtain ⟨rest, hrest⟩ := h.received
  rw [Connection.inTransit, ← hrest, List.drop_left]

lemma step_carries {a : ConnectionAction κ} (h : Carries A pb key iv₀ receiver s)
    (herr : OnlyClosedErrors s a) (hstep : step A pb s a = some s') :
    Carries A pb key iv₀ receiver s' := by
  obtain ⟨hsending, ⟨items, hreading⟩, hreceived⟩ := h
  cases a with
  | write a =>
      obtain ⟨writer, hwriter, rfl⟩ := Option.map_eq_some_iff.mp hstep
      exact ⟨hsending.step herr hwriter, ⟨items, hreading⟩,
        hreceived.trans (WriterState.step_wire_prefix hsending.base hwriter)⟩
  | readEvent =>
      obtain ⟨reader, hreader, rfl⟩ := Option.map_eq_some_iff.mp hstep
      refine ⟨hsending, ReaderState.step_readInv hreading hreader, ?_⟩
      show reader.received <+: s.writer.wire
      rw [ReaderState.step_received hreader]
      simpa [ReaderAction.bytes] using hreceived
  | deliver n =>
      obtain ⟨reader, hreader, rfl⟩ := Option.map_eq_some_iff.mp hstep
      refine ⟨hsending, ReaderState.step_readInv hreading hreader, ?_⟩
      show reader.received <+: s.writer.wire
      have hwire := Carries.inTransit ⟨hsending, ⟨items, hreading⟩, hreceived⟩
      rw [ReaderState.step_received hreader, ← hwire]
      exact (List.prefix_append_right_inj _).mpr (List.take_prefix _ _)
  | disconnect rc =>
      obtain ⟨reader, hreader, rfl⟩ := Option.map_eq_some_iff.mp hstep
      refine ⟨hsending, ReaderState.step_readInv hreading hreader, ?_⟩
      show reader.received <+: s.writer.wire
      rw [ReaderState.step_received hreader]
      simpa [ReaderAction.bytes] using hreceived

lemma run_carries {sender : CipherContext} {masks : Bool} {as : List (ConnectionAction κ)}
    (hk : sender.Keyed key) (htag : receiver.cipherTagLen ≤ 16)
    (herr : Along (step A pb) OnlyClosedErrors (init sender receiver masks) as)
    (h : exec (step A pb) (init sender receiver masks) as = some s) :
    Carries A pb key sender.encryptIv receiver s := by
  refine exec_invariant_along (I := Carries A pb key sender.encryptIv receiver) ?_ ?_ herr h
  · intro s a s' hcarries hC hstep
    exact step_carries hcarries hC hstep
  · exact ⟨WriterState.sending_init hk masks, ⟨[], htag, rfl, Nat.zero_le _, rfl, rfl⟩,
      List.nil_prefix⟩

omit [DecidableEq κ] in
/-- What the reader has returned are the events of the first calls on the wire. -/
lemma Carries.events_same {calls : List (ℕ × MuxEvent)} (h : Carries A pb key iv₀ receiver s)
    (hr : receiver.Keyed key) (hiv : iv₀ = receiver.decryptIv)
    (hbody : ∀ event ∈ s.started, (event.body.encoded pb).length ≤ kMaxChunkSize)
    (hwire : OnWire A pb key iv₀ s.writer s.started calls) :
    List.Forall₂ (fun event x => event.Same x.2) s.reader.events
        (calls.take s.reader.events.length) ∧
      ∀ rc, s.reader.phase ≠ .failed rc := by
  obtain ⟨items, hreading⟩ := h.reading
  have hcalls : ∀ x ∈ calls, (x.2.body.encoded pb).length ≤ kMaxChunkSize := fun x hx =>
    hbody x.2 (List.mem_of_getElem? (hwire.started x hx))
  have hprefix := h.received.trans hwire.wire
  exact ⟨hreading.events_same hr hiv.symm hcalls hprefix,
    hreading.not_failed hr hiv.symm hcalls hprefix⟩

omit [DecidableEq κ] in
/-- When nothing is in transit, a reader that waits has read every frame that was sent. -/
lemma Carries.done_le {current : Span} (h : Carries A pb key iv₀ receiver s)
    (hr : receiver.Keyed key) (hiv : iv₀ = receiver.decryptIv)
    (hbody : ∀ event ∈ s.started, (event.body.encoded pb).length ≤ kMaxChunkSize)
    (hphase : s.reader.phase = .reading current) (hnone : s.inTransit = []) :
    s.writer.done.length ≤ s.reader.events.length := by
  obtain ⟨items, hreading⟩ := h.reading
  obtain ⟨calls, hwire⟩ := h.sending.onWire
  obtain ⟨tail, htail⟩ := hwire.sent
  have hsplit := h.inTransit
  rw [hnone, List.append_nil] at hsplit
  have hdone : ∀ x ∈ s.writer.done, (x.2.body.encoded pb).length ≤ kMaxChunkSize := fun x hx =>
    hbody x.2 (List.mem_of_getElem? (hwire.started x (hwire.done.subset hx)))
  obtain ⟨hle, -⟩ := hreading.waiting hr hiv.symm hdone hphase (hsplit.trans htail.symm)
  rwa [← hreading.events, List.length_map]

/-- **A connection is a FIFO queue of events.**  Any number of coroutines write on an authenticated
connection, the transport delivers the bytes in pieces of any size, and no `AsyncWrite` fails
while the connection is open.  Then, in every state reached, there is a list of calls of `Write`,
those whose frames have been sent and at most one more, such that

* it has no call twice, and each event in it is the one its call was given;
* the events that `ReadEvent` has returned are those of the first of these calls, in this order;
* `ReadEvent` has not failed;
* when the reader waits and nothing is in transit, it has the event of every call that has
  returned true. -/
theorem events_delivered_once_in_order (A : Aead) (pb : Nanopb) (key : Bytes)
    (sender receiver : CipherContext) (hs : sender.FromNew "chacha20_poly1305" key)
    (hr : receiver.FromNew "chacha20_poly1305" key) (hiv : sender.encryptIv = receiver.decryptIv)
    (masks : Bool) (as : List (ConnectionAction κ)) (s : Connection κ)
    (herr : Along (step A pb) OnlyClosedErrors (init sender receiver masks) as)
    (h : exec (step A pb) (init sender receiver masks) as = some s)
    (hbody : ∀ event ∈ s.started, (event.body.encoded pb).length ≤ kMaxChunkSize) :
    ∃ calls : List (ℕ × MuxEvent),
      (s.writer.done <+: calls ∧ calls.length ≤ s.writer.done.length + 1 ∧
        (calls.map Prod.fst).Nodup ∧ ∀ x ∈ calls, s.started[x.1]? = some x.2) ∧
      List.Forall₂ (fun event x => event.Same x.2) s.reader.events
        (calls.take s.reader.events.length) ∧
      (∀ rc, s.reader.phase ≠ .failed rc) ∧
      ∀ current, s.reader.phase = .reading current → s.inTransit = [] →
        ∀ n, (n, true) ∈ s.writer.returned →
          n ∈ (calls.take s.reader.events.length).map Prod.fst := by
  have hcarries := run_carries hs.keyed hr.tagLen_le herr h
  obtain ⟨calls, hwire⟩ := hcarries.sending.onWire
  obtain ⟨hevents, hfine⟩ := hcarries.events_same hr.keyed hiv hbody hwire
  refine ⟨calls, ⟨hwire.done, hwire.length, hwire.nodup, hwire.started⟩, hevents, hfine, ?_⟩
  intro current hphase hnone n hn
  have hle := hcarries.done_le hr.keyed hiv hbody hphase hnone
  obtain ⟨x, hx, rfl⟩ := List.mem_map.mp (hcarries.sending.ledger.truthful n hn)
  have hdone : s.writer.done <+: calls.take s.reader.events.length :=
    List.prefix_take_iff.mpr ⟨hwire.done, hle⟩
  exact List.mem_map.mpr ⟨x, hdone.subset hx, rfl⟩

/-- Two coroutines write.  The first frame arrives in two pieces; its call has returned, and the
other one has encrypted nothing yet. -/
def twoWriters : List (ConnectionAction Bool) :=
  [.write (.write false (.ofBody .streamCloseRequest 1) ⟨[], []⟩),
    .write (.write true (.ofBody .streamCloseRequest 3) ⟨[], []⟩),
    .readEvent, .write (.transmit false 10), .deliver 10, .write (.transmit false 14),
    .write (.complete false), .write (.unlocked false), .deliver 20]

omit [Fintype κ] in
/-- No step of the run is an `AsyncWrite` that fails. -/
lemma onlyClosedErrors_of_forall {as : List (ConnectionAction κ)}
    (has : ∀ a ∈ as, ∀ c, a ≠ .write (.writeError c)) (s : Connection κ) :
    Along (step A pb) OnlyClosedErrors s as := by
  refine along_of_forall (fun a ha s => ?_) s
  have hne := has a ha
  cases a with
  | write a =>
      cases a with
      | writeError c => exact absurd rfl (hne c)
      | _ => trivial
  | _ => trivial

theorem events_delivered_once_in_order_two_writers :
    ∃ ctx s, CipherContext.new "chacha20_poly1305" [1] = some ctx ∧
      exec (step chacha20Poly1305 protobuf) (init ctx ctx false) twoWriters = some s ∧
      s.writer.returned = [(0, true)] ∧
      ∃ calls : List (ℕ × MuxEvent),
        List.Forall₂ (fun event x => event.Same x.2) s.reader.events
          (calls.take s.reader.events.length) ∧
        ∀ current, s.reader.phase = .reading current → s.inTransit = [] →
          0 ∈ (calls.take s.reader.events.length).map Prod.fst := by
  have hrun : ((CipherContext.new "chacha20_poly1305" [1]).bind fun ctx =>
      (exec (step chacha20Poly1305 protobuf) (init ctx ctx false) twoWriters).map fun s =>
        (s.writer.returned, s.started)) =
      some ([(0, true)], [.ofBody .streamCloseRequest 1, .ofBody .streamCloseRequest 3]) := by rfl
  obtain ⟨ctx, hctx, hmap⟩ := Option.bind_eq_some_iff.mp hrun
  obtain ⟨s, hs, hfields⟩ := Option.map_eq_some_iff.mp hmap
  obtain ⟨hreturned, hstarted⟩ := Prod.mk.inj hfields
  have hsmall : ∀ event ∈ s.started, (event.body.encoded protobuf).length ≤ kMaxChunkSize := by
    rw [hstarted]
    decide
  obtain ⟨calls, -, hevents, -, hall⟩ :=
    events_delivered_once_in_order chacha20Poly1305 protobuf [1] ctx ctx ⟨ctx, hctx, rfl⟩
      ⟨ctx, hctx, rfl⟩ (CipherContext.encryptIv_of_new hctx) false twoWriters s
      (onlyClosedErrors_of_forall (by simp [twoWriters]) _) hs hsmall
  refine ⟨ctx, s, hctx, hs, hreturned, calls, hevents, fun current hphase hnone => ?_⟩
  exact hall current hphase hnone 0 (by rw [hreturned]; exact List.mem_cons_self)

end Connection

end Snova
