import Snova.Model.Transfer

/-!
# What the transfers of a relay do

A transfer writes what it reads, chunk by chunk: at any moment it holds one chunk at most, and a
write that fails is its last one (`relay_forwards`).  Closing an end may cancel the operations of
either transfer (`Cancelled`), and every operation of a transfer leaves the other one alone, but for
that (`Operates`).  What a transfer has closed, it knows (`Tied`).
-/

namespace Snova

@[simp] lemma RelayEnd.other_other (e : RelayEnd) : e.other.other = e := by
  cases e <;> rfl

@[simp] lemma RelayEnd.other_ne (e : RelayEnd) : e.other ≠ e := by
  cases e <;> simp [RelayEnd.other]

@[simp] lemma RelayEnd.ne_other (e : RelayEnd) : e ≠ e.other := e.other_ne.symm

lemma RelayEnd.eq_or_eq_other (e d : RelayEnd) : d = e ∨ d = e.other := by
  cases e <;> cases d <;> simp [RelayEnd.other]

namespace RelayState

variable {μ : Type} {s s' : RelayState μ} {e d : RelayEnd} {pc : TransferPc μ} {chunk : μ}

/-! ## The steps -/

/-- The transfers start. -/
def startTransfers (s : RelayState μ) : RelayState μ :=
  { s with phase := .transferring, pc := fun _ => .starting }

/-- What a step can do. -/
inductive StepTo (s : RelayState μ) : RelayAction μ → RelayState μ → Prop
  | notConnected (hphase : s.phase = .opening) : StepTo s (.opened false) s.leaveLocal
  | openFailed (hphase : s.phase = .opening) :
      StepTo s (.opened false) (s.close .remoteEnd).beginRelay
  | opened (hphase : s.phase = .opening) : StepTo s (.opened true) s.beginRelay
  | arrive {e : RelayEnd} (chunk : μ) (hpc : s.pc e = .reading) :
      StepTo s (.arrive e chunk) { s.setPc e (.readDone (some chunk)) with
        received := Function.update s.received e (s.received e ++ [chunk]) }
  | readError {e : RelayEnd} (hkind : s.kind e = .socket) (hpc : s.pc e = .reading) :
      StepTo s (.readError e) (s.setPc e (.readDone none))
  | wrote {e : RelayEnd} {chunk : μ} (hpc : s.pc e = .writing chunk) :
      StepTo s (.wrote e) (s.completeWrite e chunk true (.writeDone true))
  | socketWriteFailed {e : RelayEnd} {chunk : μ} (hpc : s.pc e = .writing chunk) :
      StepTo s (.writeFailed e) (s.completeWrite e chunk false (.writeDone false))
  | streamWriteFailed {e : RelayEnd} {chunk : μ} (hkind : s.kind e.other = .stream)
      (hpc : s.pc e = .writing chunk) :
      StepTo s (.writeFailed e) ((s.completeWrite e chunk false (.writeDone false)).closeStream e
        e.other .closingFailed (.writeDone false))
  | failedClosed {e : RelayEnd} (hpc : s.pc e = .closingFailed) :
      StepTo s (.closeReturned e) (s.setPc e (.writeDone false))
  | closed {e : RelayEnd} (hpc : s.pc e = .closing) :
      StepTo s (.closeReturned e) (s.finishClosed e)
  | remoteClosed (hphase : s.phase = .closingRemote) : StepTo s .relayCloseReturned s.leaveLocal
  | localClosed (hphase : s.phase = .closingLocal) :
      StepTo s .relayCloseReturned (s.setPhase .ended)
  | preWritten {e : RelayEnd} {success : Bool} (hphase : s.phase = .preWriting)
      (hpc : s.pc e = .writeDone success) : StepTo s (.resume e) s.startTransfers
  | started {e : RelayEnd} (hphase : s.phase = .transferring) (hpc : s.pc e = .starting) :
      StepTo s (.resume e) (s.beginRead e)
  | readFailed {e : RelayEnd} (hphase : s.phase = .transferring) (hpc : s.pc e = .readDone none) :
      StepTo s (.resume e) (s.finish e)
  | read {e : RelayEnd} {chunk : μ} (hphase : s.phase = .transferring)
      (hpc : s.pc e = .readDone (some chunk)) : StepTo s (.resume e) (s.beginWrite e chunk)
  | written {e : RelayEnd} (hphase : s.phase = .transferring) (hpc : s.pc e = .writeDone true) :
      StepTo s (.resume e) (s.beginRead e)
  | writeFailed {e : RelayEnd} (hphase : s.phase = .transferring)
      (hpc : s.pc e = .writeDone false) : StepTo s (.resume e) (s.finish e)
  | joined (hphase : s.phase = .transferring) (hlocal : s.pc .localEnd = .ended)
      (hremote : s.pc .remoteEnd = .ended) : StepTo s .join s.leaveRemote
  | closeByRemote {e : RelayEnd} (hkind : s.kind e = .stream) :
      StepTo s (.closeByRemote e) (s.close e)
  | closeLocal : StepTo s .closeLocal (s.close .localEnd)

lemma stepTo_of_resume (h : s.resume e = some s') : StepTo s (.resume e) s' := by
  rw [resume] at h
  split at h
  · next hphase hpc =>
      obtain rfl := Option.some.inj h
      exact .preWritten hphase hpc
  · next hphase hpc =>
      obtain rfl := Option.some.inj h
      exact .started hphase hpc
  · next hphase hpc =>
      obtain rfl := Option.some.inj h
      exact .readFailed hphase hpc
  · next hphase hpc =>
      obtain rfl := Option.some.inj h
      exact .read hphase hpc
  · next hphase hpc =>
      obtain rfl := Option.some.inj h
      exact .written hphase hpc
  · next hphase hpc =>
      obtain rfl := Option.some.inj h
      exact .writeFailed hphase hpc
  · cases h

lemma stepTo_of_step {a : RelayAction μ} (h : step s a = some s') : StepTo s a s' := by
  cases a with
  | opened success =>
      simp only [step] at h
      split at h
      · next hphase =>
          split at h
          · obtain rfl := Option.some.inj h
            exact .notConnected hphase
          · obtain rfl := Option.some.inj h
            exact .openFailed hphase
          · obtain rfl := Option.some.inj h
            exact .opened hphase
      · cases h
  | arrive e chunk =>
      simp only [step] at h
      split at h
      · next hpc =>
          obtain rfl := Option.some.inj h
          exact .arrive chunk hpc
      · cases h
  | readError e =>
      simp only [step] at h
      split at h
      · next hkind hpc =>
          obtain rfl := Option.some.inj h
          exact .readError hkind hpc
      · cases h
  | wrote e =>
      simp only [step] at h
      split at h
      · next hpc =>
          obtain rfl := Option.some.inj h
          exact .wrote hpc
      · cases h
  | writeFailed e =>
      simp only [step] at h
      split at h
      · next hpc =>
          split at h
          · obtain rfl := Option.some.inj h
            exact .socketWriteFailed hpc
          · next hkind =>
              obtain rfl := Option.some.inj h
              exact .streamWriteFailed hkind hpc
      · cases h
  | closeReturned e =>
      simp only [step] at h
      split at h
      · next hpc =>
          obtain rfl := Option.some.inj h
          exact .failedClosed hpc
      · next hpc =>
          obtain rfl := Option.some.inj h
          exact .closed hpc
      · cases h
  | relayCloseReturned =>
      simp only [step] at h
      split at h
      · next hphase =>
          obtain rfl := Option.some.inj h
          exact .remoteClosed hphase
      · next hphase =>
          obtain rfl := Option.some.inj h
          exact .localClosed hphase
      · cases h
  | resume e => exact stepTo_of_resume h
  | join =>
      simp only [step] at h
      split at h
      · next hphase hlocal hremote =>
          obtain rfl := Option.some.inj h
          exact .joined hphase hlocal hremote
      · cases h
  | closeByRemote e =>
      simp only [step] at h
      split at h
      · next hkind =>
          obtain rfl := Option.some.inj h
          exact .closeByRemote hkind
      · cases h
  | closeLocal =>
      simp only [step] at h
      split at h
      · cases h
      · obtain rfl := Option.some.inj h
        exact .closeLocal

/-! ## What an operation changes -/

@[simp] lemma setPc_kind : (s.setPc e pc).kind = s.kind := rfl

@[simp] lemma setPc_closed : (s.setPc e pc).closed = s.closed := rfl

@[simp] lemma setPc_phase : (s.setPc e pc).phase = s.phase := rfl

@[simp] lemma setPc_received : (s.setPc e pc).received = s.received := rfl

@[simp] lemma setPc_written : (s.setPc e pc).written = s.written := rfl

@[simp] lemma setPc_readedData : (s.setPc e pc).readedData = s.readedData := rfl

@[simp] lemma setPc_self : (s.setPc e pc).pc e = pc := by
  simp only [setPc, Function.update_self]

lemma setPc_of_ne (h : d ≠ e) : (s.setPc e pc).pc d = s.pc d := by
  simp only [setPc, Function.update_of_ne h]

@[simp] lemma setPc_other : (s.setPc e pc).pc e.other = s.pc e.other :=
  setPc_of_ne e.other_ne

/-- What the fields of a relay are that no operation of a transfer changes. -/
structure SameRelay (s s' : RelayState μ) : Prop where
  kind : s'.kind = s.kind
  phase : s'.phase = s.phase
  readedData : s'.readedData = s.readedData
  received : s'.received = s.received

lemma SameRelay.trans {s'' : RelayState μ} (h : SameRelay s s') (h' : SameRelay s' s'') :
    SameRelay s s'' :=
  ⟨h'.kind.trans h.kind, h'.phase.trans h.phase, h'.readedData.trans h.readedData,
    h'.received.trans h.received⟩

lemma sameRelay_setPc (s : RelayState μ) (e : RelayEnd) (pc : TransferPc μ) :
    SameRelay s (s.setPc e pc) := ⟨rfl, rfl, rfl, rfl⟩

lemma sameRelay_cancelWrite (s : RelayState μ) (e : RelayEnd) : SameRelay s (s.cancelWrite e) := by
  rw [cancelWrite]
  split <;> exact ⟨rfl, rfl, rfl, rfl⟩

lemma sameRelay_markClosed (s : RelayState μ) (e : RelayEnd) : SameRelay s (s.markClosed e) :=
  ⟨rfl, rfl, rfl, rfl⟩

lemma sameRelay_close (s : RelayState μ) (e : RelayEnd) : SameRelay s (s.close e) := by
  rw [close]
  split
  · exact ⟨rfl, rfl, rfl, rfl⟩
  · split
    · exact (sameRelay_markClosed s e).trans (sameRelay_cancelWrite _ _)
    · exact sameRelay_markClosed s e

lemma close_of_closed (h : s.closed e = true) : s.close e = s := by
  rw [close, if_pos h]

lemma closed_cancelWrite (s : RelayState μ) (e : RelayEnd) :
    (s.cancelWrite e).closed = s.closed := by
  rw [cancelWrite]
  split <;> rfl

lemma closed_close_self (s : RelayState μ) (e : RelayEnd) : (s.close e).closed e = true := by
  rw [close]
  split
  · assumption
  · split
    · simp only [closed_cancelWrite, markClosed, Function.update_self]
    · simp only [markClosed, Function.update_self]

lemma closed_close_of_ne (h : d ≠ e) : (s.close e).closed d = s.closed d := by
  rw [close]
  split
  · rfl
  · split
    · simp only [closed_cancelWrite, markClosed, Function.update_of_ne h]
    · simp only [markClosed, Function.update_of_ne h]

@[simp] lemma closed_close_other (s : RelayState μ) (e : RelayEnd) :
    (s.close e).closed e.other = s.closed e.other :=
  closed_close_of_ne e.other_ne

/-- What closing an end may do to a transfer and to the record of its writes. -/
inductive Cancelled : TransferPc μ × List (μ × Bool) → TransferPc μ × List (μ × Bool) → Prop
  | same (x : TransferPc μ × List (μ × Bool)) : Cancelled x x
  | read (ws : List (μ × Bool)) : Cancelled (.reading, ws) (.readDone none, ws)
  | write (chunk : μ) (ws : List (μ × Bool)) :
      Cancelled (.writing chunk, ws) (.writeDone false, ws ++ [(chunk, false)])

lemma Cancelled.ne_idle {ws ws' : List (μ × Bool)} {pc' : TransferPc μ}
    (h : Cancelled (pc, ws) (pc', ws')) (hpc : pc ≠ .idle) : pc' ≠ .idle := by
  cases h with
  | same => exact hpc
  | read => simp
  | write => simp

lemma Cancelled.idle {ws ws' : List (μ × Bool)} {pc' : TransferPc μ}
    (h : Cancelled (pc, ws) (pc', ws')) (hpc : pc = .idle) : pc' = .idle := by
  cases h with
  | same => exact hpc
  | read => cases hpc
  | write => cases hpc

/-- Only pending reads and writes are cancelled. -/
lemma Cancelled.eq_of {ws ws' : List (μ × Bool)} {pc' : TransferPc μ}
    (h : Cancelled (pc, ws) (pc', ws')) (hread : pc ≠ .reading)
    (hwrite : ∀ chunk, pc ≠ .writing chunk) : pc' = pc ∧ ws' = ws := by
  cases h with
  | same => exact ⟨rfl, rfl⟩
  | read => exact absurd rfl hread
  | write chunk => exact absurd rfl (hwrite chunk)

lemma Cancelled.trans {x y z : TransferPc μ × List (μ × Bool)} (h : Cancelled x y)
    (h' : Cancelled y z) : Cancelled x z := by
  cases h with
  | same => exact h'
  | read ws =>
      cases h'
      exact .read ws
  | write chunk ws =>
      cases h'
      exact .write chunk ws

/-- A transfer that writes, with the other end closed. -/
def cancelledWrite : TransferPc μ → TransferPc μ
  | .writing _ => .writeDone false
  | pc => pc

lemma pc_cancelWrite_self (s : RelayState μ) (e : RelayEnd) :
    (s.cancelWrite e).pc e = cancelledWrite (s.pc e) := by
  rw [cancelWrite]
  split
  · next hpc => simp only [setPc, Function.update_self, hpc, cancelledWrite]
  · next hpc =>
      cases hpoint : s.pc e with
      | writing chunk => exact absurd hpoint (hpc chunk)
      | _ => rfl

lemma pc_cancelWrite_of_ne (h : d ≠ e) : (s.cancelWrite e).pc d = s.pc d := by
  rw [cancelWrite]
  split
  · simp only [setPc, Function.update_of_ne h]
  · rfl

lemma cancelled_cancelWrite (s : RelayState μ) (e d : RelayEnd) :
    Cancelled (s.pc d, s.written d) ((s.cancelWrite e).pc d, (s.cancelWrite e).written d) := by
  rw [cancelWrite]
  split
  · next chunk hpc =>
      by_cases hd : d = e
      · subst hd
        simp only [setPc, Function.update_self, hpc]
        exact .write _ _
      · simp only [setPc, Function.update_of_ne hd]
        exact .same _
  · exact .same _

lemma cancelled_cancelRead (pc : TransferPc μ) (ws : List (μ × Bool)) :
    Cancelled (pc, ws) (cancelRead pc, ws) := by
  cases pc with
  | reading => exact .read ws
  | _ => exact .same _

lemma cancelled_markClosed (s : RelayState μ) (e d : RelayEnd) :
    Cancelled (s.pc d, s.written d) ((s.markClosed e).pc d, (s.markClosed e).written d) := by
  by_cases hd : d = e
  · subst hd
    simp only [markClosed, Function.update_self]
    exact cancelled_cancelRead _ _
  · simp only [markClosed, Function.update_of_ne hd]
    exact .same _

/-- The transfer that reads from an end that is closed. -/
lemma pc_close_self (h : s.closed e = false) : (s.close e).pc e = cancelRead (s.pc e) := by
  have hmark : (s.markClosed e).pc e = cancelRead (s.pc e) := by
    simp only [markClosed, Function.update_self]
  rw [close, if_neg (by simp [h])]
  split
  · rw [pc_cancelWrite_of_ne e.ne_other, hmark]
  · exact hmark

/-- The transfer that writes to it. -/
lemma pc_close_other (h : s.closed e = false) : (s.close e).pc e.other =
    if s.kind e = .socket then cancelledWrite (s.pc e.other) else s.pc e.other := by
  have hmark : (s.markClosed e).pc e.other = s.pc e.other := by
    simp only [markClosed, Function.update_of_ne e.other_ne]
  rw [close, if_neg (by simp [h])]
  split
  · rw [pc_cancelWrite_self, hmark]
  · exact hmark

lemma cancelled_close (s : RelayState μ) (e d : RelayEnd) :
    Cancelled (s.pc d, s.written d) ((s.close e).pc d, (s.close e).written d) := by
  rw [close]
  split
  · exact .same _
  · split
    · rcases e.eq_or_eq_other d with rfl | rfl
      · have hwritten : ((s.markClosed d).cancelWrite d.other).written d = s.written d := by
          rw [cancelWrite]
          split
          · simp only [Function.update_of_ne d.ne_other]
            rfl
          · rfl
        rw [hwritten, pc_cancelWrite_of_ne d.ne_other]
        exact cancelled_markClosed s d d
      · have hmark : (s.markClosed e).pc e.other = s.pc e.other := by
          simp only [markClosed, Function.update_of_ne e.other_ne]
        rw [← hmark]
        exact cancelled_cancelWrite (s.markClosed e) e.other e.other
    · exact cancelled_markClosed s e d

/-! ## What is closed -/

/-- What a transfer between two ends knows about them: it waits only for ends that are open, and
behind its loop it has closed the end it writes to, and in front of a socket both. -/
def Knows (fromKind toKind : EndKind) (fromClosed toClosed : Bool) : TransferPc μ → Prop
  | .reading => fromClosed = false
  | .writing _ => toKind = .socket → toClosed = false
  | .closing =>
      (toKind = .stream → toClosed = true) ∧
        (fromKind = .stream → toKind = .socket → fromClosed = true)
  | .ended =>
      (toKind = .stream → toClosed = true) ∧
        (fromKind = .stream → toKind = .socket → fromClosed = true ∧ toClosed = true)
  | _ => True

def Tied (s : RelayState μ) : Prop :=
  ∀ e, Knows (s.kind e) (s.kind e.other) (s.closed e) (s.closed e.other) (s.pc e)

lemma Tied.setPc (h : s.Tied)
    (hpc : Knows (s.kind e) (s.kind e.other) (s.closed e) (s.closed e.other) pc) :
    (s.setPc e pc).Tied := by
  intro d
  by_cases hd : d = e
  · subst hd
    rw [setPc_self]
    exact hpc
  · rw [setPc_of_ne hd]
    exact h d

lemma Knows.closeFrom {fromKind toKind : EndKind} {fromClosed toClosed : Bool}
    (h : Knows fromKind toKind fromClosed toClosed pc) :
    Knows fromKind toKind true toClosed (cancelRead pc) := by
  cases pc with
  | ended => exact ⟨h.1, fun hfrom hto => ⟨rfl, (h.2 hfrom hto).2⟩⟩
  | closing => exact ⟨h.1, fun _ _ => rfl⟩
  | reading => trivial
  | writing chunk => exact h
  | _ => trivial

lemma Knows.closeTo {fromKind toKind : EndKind} {fromClosed toClosed : Bool}
    (h : Knows fromKind toKind fromClosed toClosed pc) :
    Knows fromKind toKind fromClosed true
      (if toKind = .socket then cancelledWrite pc else pc) := by
  split
  · cases pc with
    | ended => exact ⟨fun _ => rfl, fun hfrom hto => ⟨(h.2 hfrom hto).1, rfl⟩⟩
    | closing => exact ⟨fun _ => rfl, h.2⟩
    | reading => exact h
    | _ => trivial
  · next hkind =>
      cases pc with
      | ended => exact ⟨fun _ => rfl, fun _ hto => absurd hto hkind⟩
      | closing => exact ⟨fun _ => rfl, h.2⟩
      | reading => exact h
      | writing chunk => exact fun hto => absurd hto hkind
      | _ => trivial

lemma Tied.close (h : s.Tied) (e : RelayEnd) : (s.close e).Tied := by
  cases hclosed : s.closed e with
  | true =>
      rw [close_of_closed hclosed]
      exact h
  | false =>
      intro d
      rw [(sameRelay_close s e).kind]
      rcases e.eq_or_eq_other d with rfl | rfl
      · rw [closed_close_self, closed_close_other, pc_close_self hclosed]
        exact (h d).closeFrom
      · rw [RelayEnd.other_other, closed_close_self, closed_close_other, pc_close_other hclosed]
        have hknows := h e.other
        rw [RelayEnd.other_other] at hknows
        exact hknows.closeTo

lemma Tied.closeStream (h : s.Tied) {target : RelayEnd} {waiting behind : TransferPc μ}
    (hwaiting : Knows (s.kind e) (s.kind e.other) ((s.close target).closed e)
      ((s.close target).closed e.other) waiting)
    (hbehind : s.closed target = true →
      Knows (s.kind e) (s.kind e.other) (s.closed e) (s.closed e.other) behind) :
    (s.closeStream e target waiting behind).Tied := by
  rw [RelayState.closeStream]
  split
  · next hclosed => exact h.setPc (hbehind hclosed)
  · refine (h.close target).setPc ?_
    rw [(sameRelay_close s target).kind]
    exact hwaiting

lemma Tied.finish (h : s.Tied) (e : RelayEnd) : (s.finish e).Tied := by
  have hstream : s.kind e.other = .stream →
      (s.closeStream e e.other .closing .ended).Tied := by
    intro hto
    refine h.closeStream ⟨fun _ => closed_close_self s e.other, fun _ hsocket => ?_⟩
      fun hclosed => ⟨fun _ => hclosed, fun _ hsocket => ?_⟩
    · rw [hto] at hsocket
      cases hsocket
    · rw [hto] at hsocket
      cases hsocket
  rw [RelayState.finish]
  split
  · next hfrom hto =>
      have hnot : s.kind e.other ≠ .stream := by
        rw [hto]
        decide
      split
      · next hclosed =>
          refine (h.close e.other).setPc ⟨fun hk => ?_, fun _ _ => ⟨?_, closed_close_self s _⟩⟩
          · exact closed_close_self s e.other
          · rw [closed_close_of_ne e.ne_other, hclosed]
      · refine (h.close e).setPc ⟨fun hk => ?_, fun _ _ => closed_close_self s e⟩
        rw [(sameRelay_close s e).kind] at hk
        exact absurd hk hnot
  · next hto => exact hstream hto
  · next hfrom hto =>
      refine h.setPc ⟨fun hk => ?_, fun hk => ?_⟩
      · rw [hto] at hk
        cases hk
      · rw [hfrom] at hk
        cases hk

lemma Tied.finishClosed (h : s.Tied) (hpc : s.pc e = .closing) : (s.finishClosed e).Tied := by
  have hknows := h e
  rw [hpc] at hknows
  rw [RelayState.finishClosed]
  split
  · next hfrom hto =>
      refine (h.close e.other).setPc ⟨fun _ => closed_close_self s _, fun _ _ => ⟨?_,
        closed_close_self s _⟩⟩
      rw [closed_close_of_ne e.ne_other]
      exact hknows.2 hfrom hto
  · next hnot => exact h.setPc ⟨hknows.1, fun hfrom hto => absurd hto (hnot hfrom)⟩

lemma Tied.beginRead (h : s.Tied) (e : RelayEnd) : (s.beginRead e).Tied := by
  rw [RelayState.beginRead]
  split
  · split
    · exact h.finish e
    · exact h.setPc trivial
  · next hclosed => exact h.setPc (Bool.eq_false_of_not_eq_true hclosed)

lemma Tied.beginWrite (h : s.Tied) (e : RelayEnd) (chunk : μ) : (s.beginWrite e chunk).Tied := by
  rw [RelayState.beginWrite]
  split
  · exact h.setPc trivial
  · next hnot =>
      refine h.setPc fun hsocket => Bool.eq_false_of_not_eq_true fun hclosed => ?_
      exact hnot ⟨hsocket, hclosed⟩

lemma tied_of_idle (h : ∀ e, s.pc e = .idle ∨ s.pc e = .starting) : s.Tied := by
  intro e
  rcases h e with hpc | hpc
  · rw [hpc]
    trivial
  · rw [hpc]
    trivial

lemma Tied.beginRelay (h : s.Tied) : s.beginRelay.Tied := by
  rw [RelayState.beginRelay]
  split
  · exact tied_of_idle fun _ => .inr rfl
  · next chunk _ =>
      have hpre : Tied { s with
          phase := .preWriting
          received := Function.update s.received .localEnd [chunk] } := h
      exact hpre.beginWrite .localEnd chunk

lemma Tied.leaveLocal (h : s.Tied) : s.leaveLocal.Tied := by
  rw [RelayState.leaveLocal]
  split
  · exact h.close .localEnd
  · split
    · exact h
    · exact h.close .localEnd

lemma Tied.leaveRemote (h : s.Tied) : s.leaveRemote.Tied := by
  rw [RelayState.leaveRemote]
  split
  · exact (h.close .remoteEnd).leaveLocal
  · split
    · exact h.leaveLocal
    · exact h.close .remoteEnd

lemma step_tied {a : RelayAction μ} (h : s.Tied) (hstep : step s a = some s') : s'.Tied := by
  cases stepTo_of_step hstep with
  | notConnected => exact h.leaveLocal
  | openFailed => exact (h.close .remoteEnd).beginRelay
  | opened => exact h.beginRelay
  | arrive chunk hpc => exact h.setPc trivial
  | readError => exact h.setPc trivial
  | wrote => exact h.setPc trivial
  | socketWriteFailed => exact h.setPc trivial
  | @streamWriteFailed e chunk _ hpc =>
      have hdone : (s.completeWrite e chunk false (.writeDone false)).Tied := h.setPc trivial
      exact hdone.closeStream trivial fun _ => trivial
  | failedClosed => exact h.setPc trivial
  | closed hpc => exact h.finishClosed hpc
  | remoteClosed => exact h.leaveLocal
  | localClosed => exact h
  | preWritten => exact tied_of_idle fun _ => .inr rfl
  | started => exact h.beginRead _
  | readFailed => exact h.finish _
  | read => exact h.beginWrite _ _
  | written => exact h.beginRead _
  | writeFailed => exact h.finish _
  | joined => exact h.leaveRemote
  | closeByRemote => exact h.close _
  | closeLocal => exact h.close _

/-! ## What is written -/

/-- The chunk a transfer holds. -/
def held : TransferPc μ → List μ
  | .readDone (some chunk) => [chunk]
  | .writing chunk => [chunk]
  | _ => []

/-- Whether a transfer is in its loop, and its last write, if there has been one, has succeeded. -/
def Going : TransferPc μ → Prop
  | .writeDone success => success = true
  | .closingFailed => False
  | .closing => False
  | .ended => False
  | _ => True

/-- The chunks a transfer has read and its writes: `n` of them are not its own, but that of
`readed_data`, whose outcome it does not look at. -/
structure Forwarding (n : ℕ) (received : List μ) (written : List (μ × Bool))
    (pc : TransferPc μ) : Prop where
  chunks : written.map Prod.fst ++ held pc = received
  tried : ∀ x ∈ (written.drop n).dropLast, x.2 = true
  going : Going pc → ∀ x ∈ written.drop n, x.2 = true

variable {n : ℕ} {received : List μ} {written : List (μ × Bool)} {pc' : TransferPc μ}

/-- A step that is neither the end of a read nor the end of a write. -/
lemma Forwarding.move (h : Forwarding n received written pc) (hheld : held pc' = held pc)
    (hgoing : Going pc' → Going pc) : Forwarding n received written pc' where
  chunks := by rw [hheld, h.chunks]
  tried := h.tried
  going := fun hpc => h.going (hgoing hpc)

lemma Forwarding.read (h : Forwarding n received written .reading) (chunk : μ) :
    Forwarding n (received ++ [chunk]) written (.readDone (some chunk)) where
  chunks := by
    have hchunks : written.map Prod.fst ++ [] = received := h.chunks
    rw [← hchunks, List.append_nil]
    rfl
  tried := h.tried
  going := fun _ => h.going trivial

lemma Forwarding.write {success : Bool} (h : Forwarding n received written (.writing chunk))
    (hheld : held pc' = []) (hgoing : Going pc' → success = true) :
    Forwarding n received (written ++ [(chunk, success)]) pc' where
  chunks := by
    rw [hheld, List.append_nil, List.map_append, ← h.chunks]
    rfl
  tried := by
    intro x hx
    rcases le_or_gt n written.length with hle | hlt
    · rw [List.drop_append_of_le_length hle, List.dropLast_concat] at hx
      exact h.going trivial x hx
    · rw [List.drop_eq_nil_of_le (by rw [List.length_append]; exact hlt)] at hx
      cases hx
  going := by
    intro hpc x hx
    rcases le_or_gt n written.length with hle | hlt
    · rw [List.drop_append_of_le_length hle, List.mem_append, List.mem_singleton] at hx
      rcases hx with hx | rfl
      · exact h.going trivial x hx
      · exact hgoing hpc
    · rw [List.drop_eq_nil_of_le (by rw [List.length_append]; exact hlt)] at hx
      cases hx

lemma Forwarding.cancelled {written' : List (μ × Bool)} (h : Forwarding n received written pc)
    (hcancelled : Cancelled (pc, written) (pc', written')) :
    Forwarding n received written' pc' := by
  cases hcancelled with
  | same => exact h
  | read => exact h.move rfl fun _ => trivial
  | write chunk => exact h.write rfl fun hgoing => hgoing

/-- How many writes of the transfer from an end are not its own. -/
def preWrites (s : RelayState μ) : RelayEnd → ℕ
  | .localEnd => s.readedData.toList.length
  | .remoteEnd => 0

/-- A transfer that is in the write of `readed_data`. -/
def PreWriting : TransferPc μ → Prop
  | .writing _ => True
  | .writeDone _ => True
  | .closingFailed => True
  | _ => False

/-- Where the transfers are in each phase. -/
def Staged (s : RelayState μ) : Prop :=
  match s.phase with
  | .opening => ∀ e, s.pc e = .idle ∧ s.received e = []
  | .preWriting => PreWriting (s.pc .localEnd) ∧ s.pc .remoteEnd = .idle ∧
      s.received .localEnd = s.readedData.toList ∧ s.received .remoteEnd = []
  | .transferring => ∀ e, s.pc e ≠ .idle
  | _ => True

structure Forwards (s : RelayState μ) : Prop where
  staged : s.Staged
  forwarding : ∀ e, Forwarding (s.preWrites e) (s.received e) (s.written e) (s.pc e)
  -- `readed_data` comes first, once there is anything
  first : s.pc .localEnd = .idle ∧ s.received .localEnd = [] ∨
    s.readedData.toList <+: s.received .localEnd

/-- An operation of the transfer from `e`, seen from outside: the other transfer may be
cancelled. -/
structure Operates (e : RelayEnd) (s s' : RelayState μ) : Prop where
  same : SameRelay s s'
  there : Cancelled (s.pc e.other, s.written e.other) (s'.pc e.other, s'.written e.other)

/-- Only the transfer from the local end writes before the transfers start. -/
lemma Staged.preWriting (h : s.Staged) (hphase : s.phase = .preWriting) (hidle : s.pc e ≠ .idle) :
    e = .localEnd ∧ PreWriting (s.pc e) := by
  simp only [Staged, hphase] at h
  cases e with
  | localEnd => exact ⟨rfl, h.1⟩
  | remoteEnd => exact absurd h.2.1 hidle

lemma Staged.operates (h : s.Staged) (hop : Operates e s s') (hidle : s.pc e ≠ .idle)
    (hidle' : s'.pc e ≠ .idle) (hpre : s.phase = .preWriting → PreWriting (s'.pc e)) :
    s'.Staged := by
  cases hphase : s.phase with
  | opening =>
      simp only [Staged, hphase] at h
      exact absurd (h e).1 hidle
  | preWriting =>
      obtain ⟨rfl, -⟩ := h.preWriting hphase hidle
      simp only [Staged, hphase] at h
      obtain ⟨-, hremote, hlocal, hnone⟩ := h
      have hthere := (hop.there.eq_of (by simp [RelayEnd.other, hremote])
        (by simp [RelayEnd.other, hremote])).1
      simp only [Staged, hop.same.phase, hphase, hop.same.received, hop.same.readedData]
      exact ⟨hpre hphase, hthere.trans hremote, hlocal, hnone⟩
  | transferring =>
      simp only [Staged, hphase] at h
      simp only [Staged, hop.same.phase, hphase]
      intro d
      rcases e.eq_or_eq_other d with rfl | rfl
      · exact hidle'
      · exact hop.there.ne_idle (h e.other)
  | closingRemote => simp only [Staged, hop.same.phase, hphase]
  | closingLocal => simp only [Staged, hop.same.phase, hphase]
  | ended => simp only [Staged, hop.same.phase, hphase]

lemma preWrites_eq (h : s'.readedData = s.readedData) (d : RelayEnd) :
    s'.preWrites d = s.preWrites d := by
  cases d with
  | localEnd => rw [preWrites, preWrites, h]
  | remoteEnd => rfl

lemma Forwards.operates (h : s.Forwards) (hop : Operates e s s') (hidle : s.pc e ≠ .idle)
    (hidle' : s'.pc e ≠ .idle) (hpre : s.phase = .preWriting → PreWriting (s'.pc e))
    (hhere : Forwarding (s.preWrites e) (s.received e) (s'.written e) (s'.pc e)) :
    s'.Forwards where
  staged := h.staged.operates hop hidle hidle' hpre
  forwarding := by
    intro d
    rw [preWrites_eq hop.same.readedData, hop.same.received]
    rcases e.eq_or_eq_other d with rfl | rfl
    · exact hhere
    · exact (h.forwarding e.other).cancelled hop.there
  first := by
    rw [hop.same.readedData, hop.same.received]
    refine h.first.imp_left fun hnone => ⟨?_, hnone.2⟩
    cases e with
    | localEnd => exact absurd hnone.1 hidle
    | remoteEnd => exact hop.there.idle hnone.1

lemma Operates.close (h : Operates e s s') (d : RelayEnd) : Operates e s (s'.close d) where
  same := h.same.trans (sameRelay_close s' d)
  there := h.there.trans (cancelled_close s' d e.other)

lemma Operates.setPc (h : Operates e s s') (pc : TransferPc μ) : Operates e s (s'.setPc e pc) where
  same := h.same.trans (sameRelay_setPc s' e pc)
  there := by
    rw [setPc_other]
    exact h.there

lemma operates_refl (e : RelayEnd) (s : RelayState μ) : Operates e s s :=
  ⟨⟨rfl, rfl, rfl, rfl⟩, .same _⟩

lemma operates_close (e : RelayEnd) (s : RelayState μ) (d : RelayEnd) : Operates e s (s.close d) :=
  ⟨sameRelay_close s d, cancelled_close s d e.other⟩

/-- What the transfer from `e` does when its loop has ended. -/
structure Finishes (e : RelayEnd) (s s' : RelayState μ) : Prop where
  operates : Operates e s s'
  written : s'.written e = s.written e
  pc : s'.pc e = .closing ∨ s'.pc e = .ended

lemma finishes_close (hread : s.pc e ≠ .reading) (hwrite : ∀ chunk, s.pc e ≠ .writing chunk)
    (d : RelayEnd) (hpc : pc = .closing ∨ pc = .ended) :
    Finishes e s ((s.close d).setPc e pc) where
  operates := (operates_close e s d).setPc pc
  written := ((cancelled_close s d e).eq_of hread hwrite).2
  pc := by
    rw [setPc_self]
    exact hpc

lemma finishes_setPc (hpc : pc = .closing ∨ pc = .ended) : Finishes e s (s.setPc e pc) where
  operates := (operates_refl e s).setPc pc
  written := rfl
  pc := by
    rw [setPc_self]
    exact hpc

lemma finishes_finish (hread : s.pc e ≠ .reading) (hwrite : ∀ chunk, s.pc e ≠ .writing chunk) :
    Finishes e s (s.finish e) := by
  rw [finish]
  split
  · split
    · exact finishes_close hread hwrite e.other (.inr rfl)
    · exact finishes_close hread hwrite e (.inl rfl)
  · rw [closeStream]
    split
    · exact finishes_setPc (.inr rfl)
    · exact finishes_close hread hwrite e.other (.inl rfl)
  · exact finishes_setPc (.inr rfl)

lemma finishes_finishClosed (hpc : s.pc e = .closing) : Finishes e s (s.finishClosed e) := by
  rw [finishClosed]
  split
  · exact finishes_close (by simp [hpc]) (by simp [hpc]) e.other (.inr rfl)
  · exact finishes_setPc (.inr rfl)

lemma Finishes.forwards (hfinish : Finishes e s s') (h : s.Forwards) (hidle : s.pc e ≠ .idle)
    (hphase : s.phase ≠ .preWriting) (hheld : held (s.pc e) = []) : s'.Forwards := by
  refine h.operates hfinish.operates hidle ?_ (fun hpre => absurd hpre hphase) ?_
  · rcases hfinish.pc with hpc | hpc
    · simp [hpc]
    · simp [hpc]
  · rw [hfinish.written]
    rcases hfinish.pc with hpc | hpc
    · rw [hpc]
      exact (h.forwarding e).move hheld.symm False.elim
    · rw [hpc]
      exact (h.forwarding e).move hheld.symm False.elim

lemma Forwards.setPc (h : s.Forwards) (hidle : s.pc e ≠ .idle) (hidle' : pc ≠ .idle)
    (hpre : s.phase = .preWriting → PreWriting pc) (hheld : held pc = held (s.pc e))
    (hgoing : Going pc → Going (s.pc e)) : (s.setPc e pc).Forwards := by
  refine h.operates ((operates_refl e s).setPc pc) hidle ?_ ?_ ?_
  · rwa [setPc_self]
  · rwa [setPc_self]
  · rw [setPc_self]
    exact (h.forwarding e).move hheld hgoing

lemma Forwards.beginRead (h : s.Forwards) (hphase : s.phase = .transferring)
    (hpc : s.pc e = .starting ∨ s.pc e = .writeDone true) : (s.beginRead e).Forwards := by
  have hnot : s.phase ≠ .preWriting := by simp [hphase]
  have hidle : s.pc e ≠ .idle := by
    rcases hpc with hpc | hpc <;> simp [hpc]
  have hheld : held (s.pc e) = [] := by
    rcases hpc with hpc | hpc <;> rw [hpc] <;> rfl
  have hgoing : Going (s.pc e) := by
    rcases hpc with hpc | hpc
    · rw [hpc]
      trivial
    · rw [hpc]
      rfl
  rw [RelayState.beginRead]
  split
  · split
    · refine (finishes_finish ?_ fun chunk => ?_).forwards h hidle hnot hheld
      · rcases hpc with hpc | hpc <;> simp [hpc]
      · rcases hpc with hpc | hpc <;> simp [hpc]
    · exact h.setPc hidle (by simp) (fun hpre => absurd hpre hnot) hheld.symm fun _ => hgoing
  · exact h.setPc hidle (by simp) (fun hpre => absurd hpre hnot) hheld.symm fun _ => hgoing

/-- A write has completed. -/
lemma Forwards.completeWrite (h : s.Forwards) (success : Bool)
    (hpc : s.pc e = .writing chunk ∨ s.pc e = .readDone (some chunk)) :
    (s.completeWrite e chunk success (.writeDone success)).Forwards := by
  have hidle : s.pc e ≠ .idle := by
    rcases hpc with hpc | hpc <;> simp [hpc]
  refine h.operates ⟨⟨rfl, rfl, rfl, rfl⟩, ?_⟩ hidle ?_ ?_ ?_
  · simp only [RelayState.completeWrite, setPc_other, Function.update_of_ne e.other_ne]
    exact .same _
  · simp [RelayState.completeWrite]
  · intro _
    simp [RelayState.completeWrite, PreWriting]
  · have hwriting : Forwarding (s.preWrites e) (s.received e) (s.written e) (.writing chunk) := by
      have hforwarding := h.forwarding e
      rcases hpc with hpc | hpc
      · rwa [hpc] at hforwarding
      · rw [hpc] at hforwarding
        exact hforwarding.move rfl fun _ => trivial
    simp only [RelayState.completeWrite, setPc_self, Function.update_self]
    exact hwriting.write rfl fun hgoing => hgoing

lemma Cancelled.preWriting {ws ws' : List (μ × Bool)} {pc' : TransferPc μ}
    (h : Cancelled (pc, ws) (pc', ws')) (hpc : PreWriting pc) : PreWriting pc' := by
  cases h with
  | same => exact hpc
  | read => exact hpc.elim
  | write => trivial

lemma Staged.close (h : s.Staged) (d : RelayEnd) : (s.close d).Staged := by
  have hsame := sameRelay_close s d
  have hidle : ∀ e, s.pc e = .idle → (s.close d).pc e = .idle := fun e hpc =>
    ((cancelled_close s d e).eq_of (by simp [hpc]) (by simp [hpc])).1.trans hpc
  cases hphase : s.phase with
  | opening =>
      simp only [Staged, hphase] at h
      simp only [Staged, hsame.phase, hphase, hsame.received]
      exact fun e => ⟨hidle e (h e).1, (h e).2⟩
  | preWriting =>
      simp only [Staged, hphase] at h
      simp only [Staged, hsame.phase, hphase, hsame.received, hsame.readedData]
      exact ⟨(cancelled_close s d .localEnd).preWriting h.1, hidle _ h.2.1, h.2.2⟩
  | transferring =>
      simp only [Staged, hphase] at h
      simp only [Staged, hsame.phase, hphase]
      exact fun e => (cancelled_close s d e).ne_idle (h e)
  | closingRemote => simp only [Staged, hsame.phase, hphase]
  | closingLocal => simp only [Staged, hsame.phase, hphase]
  | ended => simp only [Staged, hsame.phase, hphase]

lemma Forwards.close (h : s.Forwards) (d : RelayEnd) : (s.close d).Forwards where
  staged := h.staged.close d
  forwarding := by
    intro e
    rw [preWrites_eq (sameRelay_close s d).readedData, (sameRelay_close s d).received]
    exact (h.forwarding e).cancelled (cancelled_close s d e)
  first := by
    rw [(sameRelay_close s d).readedData, (sameRelay_close s d).received]
    exact h.first.imp_left fun hnone => ⟨(cancelled_close s d .localEnd).idle hnone.1, hnone.2⟩

lemma Forwards.closeStream {target : RelayEnd} {waiting behind : TransferPc μ} (h : s.Forwards)
    (hpc : s.pc e = .writeDone false) (hwaiting : waiting = .closingFailed)
    (hbehind : behind = .writeDone false) :
    (s.closeStream e target waiting behind).Forwards := by
  subst hwaiting hbehind
  have hidle : s.pc e ≠ .idle := by simp [hpc]
  rw [RelayState.closeStream]
  split
  · refine h.setPc hidle (by simp) (fun _ => trivial) ?_ fun hgoing => ?_
    · rw [hpc]
    · rwa [hpc]
  · have hkeep := (cancelled_close s target e).eq_of (by simp [hpc]) (by simp [hpc])
    refine (h.close target).setPc ?_ (by simp) (fun _ => trivial) ?_ False.elim
    · rwa [hkeep.1]
    · rw [hkeep.1, hpc]
      rfl

/-- The end of the relay. -/
lemma Forwards.setPhase {phase : RelayPhase} (h : s.Forwards)
    (hphase : phase = .closingRemote ∨ phase = .closingLocal ∨ phase = .ended) :
    (s.setPhase phase).Forwards where
  staged := by
    rcases hphase with rfl | rfl | rfl <;> exact trivial
  forwarding := h.forwarding
  first := h.first

lemma Forwards.leaveLocal (h : s.Forwards) : s.leaveLocal.Forwards := by
  rw [RelayState.leaveLocal]
  split
  · exact (h.close .localEnd).setPhase (.inr (.inr rfl))
  · split
    · exact h.setPhase (.inr (.inr rfl))
    · exact (h.close .localEnd).setPhase (.inr (.inl rfl))

lemma Forwards.leaveRemote (h : s.Forwards) : s.leaveRemote.Forwards := by
  rw [RelayState.leaveRemote]
  split
  · exact (h.close .remoteEnd).leaveLocal
  · split
    · exact h.leaveLocal
    · exact (h.close .remoteEnd).setPhase (.inl rfl)

lemma completeWrite_setPc {success : Bool} {pc' : TransferPc μ} :
    (s.setPc e pc').completeWrite e chunk success pc = s.completeWrite e chunk success pc := by
  simp only [RelayState.completeWrite, RelayState.setPc, Function.update_idem]

lemma Forwards.beginRelay (h : s.Forwards) (hphase : s.phase = .opening) :
    s.beginRelay.Forwards := by
  have hopening := h.staged
  simp only [Staged, hphase] at hopening
  have hchunks : ∀ e, s.written e = [] := by
    intro e
    have hnone := (h.forwarding e).chunks
    rw [(hopening e).2] at hnone
    exact List.map_eq_nil_iff.mp (List.append_eq_nil_iff.mp hnone).1
  have hstart : ∀ e n, Forwarding n [] (s.written e) (.starting : TransferPc μ) := by
    intro e n
    rw [hchunks e]
    refine ⟨rfl, fun x hx => ?_, fun _ x hx => ?_⟩
    · simp at hx
    · simp at hx
  rw [RelayState.beginRelay]
  split
  · next hnone =>
      refine ⟨fun e => by simp, fun e => ?_, .inr ?_⟩
      · have hreceived := (hopening e).2
        dsimp only
        rw [hreceived]
        exact hstart e _
      · dsimp only
        rw [hnone]
        exact List.nil_prefix
  · next chunk hsome =>
      have hwriting : (RelayState.setPc { s with
          phase := .preWriting
          received := Function.update s.received .localEnd [chunk] } .localEnd
            (.writing chunk)).Forwards := by
        refine ⟨⟨?_, ?_, ?_, ?_⟩, fun e => ?_, .inr ?_⟩
        · rw [setPc_self]
          trivial
        · rw [setPc_of_ne (by decide)]
          exact (hopening .remoteEnd).1
        · simp only [setPc_received, setPc_readedData, Function.update_self, hsome]
          rfl
        · simp only [setPc_received,
            Function.update_of_ne (by decide : RelayEnd.remoteEnd ≠ .localEnd)]
          exact (hopening .remoteEnd).2
        · cases e with
          | localEnd =>
              simp only [setPc_received, setPc_written, setPc_self, Function.update_self]
              rw [hchunks]
              refine ⟨rfl, fun x hx => ?_, fun _ x hx => ?_⟩
              · simp at hx
              · simp at hx
          | remoteEnd =>
              simp only [setPc_received, setPc_written,
                Function.update_of_ne (by decide : RelayEnd.remoteEnd ≠ .localEnd),
                setPc_of_ne (by decide : RelayEnd.remoteEnd ≠ .localEnd)]
              rw [(hopening .remoteEnd).1, (hopening .remoteEnd).2]
              exact (hstart .remoteEnd _).move rfl fun _ => trivial
        · simp only [setPc_received, setPc_readedData, Function.update_self, hsome]
          exact List.prefix_refl _
      rw [RelayState.beginWrite]
      split
      · have hdone := hwriting.completeWrite false (.inl setPc_self)
        rwa [completeWrite_setPc] at hdone
      · exact hwriting

lemma Forwards.startTransfers {success : Bool} (h : s.Forwards) (hphase : s.phase = .preWriting)
    (hpc : s.pc e = .writeDone success) : s.startTransfers.Forwards := by
  obtain ⟨rfl, -⟩ := h.staged.preWriting hphase (by simp [hpc] : s.pc e ≠ .idle)
  have hpre := h.staged
  simp only [Staged, hphase] at hpre
  obtain ⟨-, hremote, hlocal, -⟩ := hpre
  refine ⟨fun e => by simp [RelayState.startTransfers], fun e => ?_, .inr ?_⟩
  · cases e with
    | localEnd =>
        have hforwarding := h.forwarding .localEnd
        have hchunks := hforwarding.chunks
        rw [hpc] at hchunks
        have hlen : (s.written .localEnd).length ≤ s.readedData.toList.length := by
          rw [← hlocal, ← hchunks, List.length_append, List.length_map]
          exact Nat.le_add_right _ _
        refine ⟨hchunks, hforwarding.tried, fun _ x hx => ?_⟩
        -- the only write so far is the one whose outcome is not looked at
        have hdrop : x ∈ (s.written .localEnd).drop s.readedData.toList.length := hx
        rw [List.drop_eq_nil_of_le hlen] at hdrop
        cases hdrop
    | remoteEnd =>
        have hforwarding := h.forwarding .remoteEnd
        rw [hremote] at hforwarding
        exact hforwarding.move rfl fun _ => trivial
  · exact hlocal ▸ List.prefix_refl _

lemma Forwards.beginWrite (h : s.Forwards) (hpc : s.pc e = .readDone (some chunk)) :
    (s.beginWrite e chunk).Forwards := by
  rw [RelayState.beginWrite]
  split
  · exact h.completeWrite _ (.inr hpc)
  · refine h.setPc (by simp [hpc]) (by simp) (fun _ => trivial) (by rw [hpc]; rfl) fun _ => ?_
    rw [hpc]
    trivial

lemma Forwards.arrive (h : s.Forwards) (hpc : s.pc e = .reading) (chunk : μ) :
    Forwards { s.setPc e (.readDone (some chunk)) with
      received := Function.update s.received e (s.received e ++ [chunk]) } := by
  have hpre : s.phase ≠ .preWriting := by
    intro hphase
    have hwriting := (h.staged.preWriting hphase (by simp [hpc] : s.pc e ≠ .idle)).2
    rw [hpc] at hwriting
    exact hwriting
  have hstaged := h.staged.operates ((operates_refl e s).setPc (.readDone (some chunk)))
    (by simp [hpc]) (by simp) fun hphase => absurd hphase hpre
  refine ⟨?_, fun d => ?_, ?_⟩
  · cases hphase : s.phase with
    | opening =>
        simp only [Staged, setPc_phase, hphase] at hstaged
        have hidle := (hstaged e).1
        rw [setPc_self] at hidle
        cases hidle
    | preWriting => exact absurd hphase hpre
    | transferring =>
        simp only [Staged, setPc_phase, hphase] at hstaged ⊢
        exact hstaged
    | closingRemote => simp only [Staged, setPc_phase, hphase]
    | closingLocal => simp only [Staged, setPc_phase, hphase]
    | ended => simp only [Staged, setPc_phase, hphase]
  · have hforwarding := h.forwarding d
    rcases e.eq_or_eq_other d with rfl | rfl
    · rw [hpc] at hforwarding
      simp only [setPc_self, Function.update_self]
      exact hforwarding.read chunk
    · simp only [setPc_other, Function.update_of_ne e.other_ne]
      exact hforwarding
  · cases e with
    | localEnd =>
        rcases h.first with ⟨hidle, -⟩ | hdata
        · rw [hpc] at hidle
          cases hidle
        · simp only [Function.update_self]
          exact .inr (hdata.trans (List.prefix_append _ _))
    | remoteEnd =>
        simp only [setPc_of_ne (by decide : RelayEnd.localEnd ≠ .remoteEnd),
          Function.update_of_ne (by decide : RelayEnd.localEnd ≠ .remoteEnd)]
        exact h.first

lemma step_forwards {a : RelayAction μ} (h : s.Forwards) (hstep : step s a = some s') :
    s'.Forwards := by
  cases stepTo_of_step hstep with
  | notConnected => exact h.leaveLocal
  | openFailed hphase =>
      exact (h.close .remoteEnd).beginRelay ((sameRelay_close s .remoteEnd).phase.trans hphase)
  | opened hphase => exact h.beginRelay hphase
  | arrive chunk hpc => exact h.arrive hpc chunk
  | @readError e hkind hpc =>
      refine h.setPc (by simp [hpc]) (by simp) (fun hphase => ?_) (by rw [hpc]; rfl) fun _ => ?_
      · have hwriting := (h.staged.preWriting hphase (by simp [hpc] : s.pc e ≠ .idle)).2
        rw [hpc] at hwriting
        exact hwriting.elim
      · rw [hpc]
        trivial
  | wrote hpc => exact h.completeWrite _ (.inl hpc)
  | socketWriteFailed hpc => exact h.completeWrite _ (.inl hpc)
  | @streamWriteFailed e chunk _ hpc =>
      exact (h.completeWrite _ (.inl hpc)).closeStream (by simp [RelayState.completeWrite]) rfl rfl
  | failedClosed hpc =>
      refine h.setPc (by simp [hpc]) (by simp) (fun _ => trivial) (by rw [hpc]; rfl) ?_
      exact fun hgoing => by cases hgoing
  | @closed e hpc =>
      refine (finishes_finishClosed hpc).forwards h (by simp [hpc]) (fun hphase => ?_)
        (by rw [hpc]; rfl)
      have hwriting := (h.staged.preWriting hphase (by simp [hpc] : s.pc e ≠ .idle)).2
      rw [hpc] at hwriting
      exact hwriting
  | remoteClosed => exact h.leaveLocal
  | localClosed => exact h.setPhase (.inr (.inr rfl))
  | preWritten hphase hpc => exact h.startTransfers hphase hpc
  | started hphase hpc => exact h.beginRead hphase (.inl hpc)
  | readFailed hphase hpc =>
      exact (finishes_finish (by simp [hpc]) (by simp [hpc])).forwards h (by simp [hpc])
        (by simp [hphase]) (by rw [hpc]; rfl)
  | read _ hpc => exact h.beginWrite hpc
  | written hphase hpc => exact h.beginRead hphase (.inr hpc)
  | writeFailed hphase hpc =>
      exact (finishes_finish (by simp [hpc]) (by simp [hpc])).forwards h (by simp [hpc])
        (by simp [hphase]) (by rw [hpc]; rfl)
  | joined => exact h.leaveRemote
  | closeByRemote => exact h.close _
  | closeLocal => exact h.close _

/-! ## Runs -/

variable {localKind remoteKind : EndKind} {readedData : Option μ} {as : List (RelayAction μ)}

lemma init_tied : (init localKind remoteKind readedData).Tied :=
  tied_of_idle fun _ => .inl rfl

lemma init_forwards : (init localKind remoteKind readedData).Forwards where
  staged := fun _ => ⟨rfl, rfl⟩
  forwarding := fun e => ⟨rfl, fun x hx => by simp [init] at hx, fun _ x hx => by simp [init] at hx⟩
  first := .inl ⟨rfl, rfl⟩

lemma leaveLocal_fixed (s : RelayState μ) :
    s.leaveLocal.kind = s.kind ∧ s.leaveLocal.readedData = s.readedData := by
  have hclose := sameRelay_close s .localEnd
  rw [leaveLocal]
  split
  · exact ⟨hclose.kind, hclose.readedData⟩
  · split
    · exact ⟨rfl, rfl⟩
    · exact ⟨hclose.kind, hclose.readedData⟩

lemma leaveRemote_fixed (s : RelayState μ) :
    s.leaveRemote.kind = s.kind ∧ s.leaveRemote.readedData = s.readedData := by
  have hclose := sameRelay_close s .remoteEnd
  rw [leaveRemote]
  split
  · have hlocal := leaveLocal_fixed (s.close .remoteEnd)
    exact ⟨hlocal.1.trans hclose.kind, hlocal.2.trans hclose.readedData⟩
  · split
    · exact leaveLocal_fixed s
    · exact ⟨hclose.kind, hclose.readedData⟩

lemma sameRelay_closeStream (s : RelayState μ) (e target : RelayEnd)
    (waiting behind : TransferPc μ) : SameRelay s (s.closeStream e target waiting behind) := by
  rw [closeStream]
  split
  · exact sameRelay_setPc s e behind
  · exact (sameRelay_close s target).trans (sameRelay_setPc _ e waiting)

lemma sameRelay_finish (s : RelayState μ) (e : RelayEnd) : SameRelay s (s.finish e) := by
  rw [finish]
  split
  · split
    · exact (sameRelay_close s _).trans (sameRelay_setPc _ e _)
    · exact (sameRelay_close s _).trans (sameRelay_setPc _ e _)
  · exact sameRelay_closeStream s e _ _ _
  · exact sameRelay_setPc s e _

lemma sameRelay_beginRead (s : RelayState μ) (e : RelayEnd) : SameRelay s (s.beginRead e) := by
  rw [beginRead]
  split
  · split
    · exact sameRelay_finish s e
    · exact sameRelay_setPc s e _
  · exact sameRelay_setPc s e _

lemma sameRelay_beginWrite (s : RelayState μ) (e : RelayEnd) (chunk : μ) :
    SameRelay s (s.beginWrite e chunk) := by
  rw [beginWrite]
  split
  · exact ⟨rfl, rfl, rfl, rfl⟩
  · exact sameRelay_setPc s e _

lemma beginRelay_fixed (s : RelayState μ) :
    s.beginRelay.kind = s.kind ∧ s.beginRelay.readedData = s.readedData := by
  rw [beginRelay]
  split
  · exact ⟨rfl, rfl⟩
  · have hwrite := fun r : RelayState μ => sameRelay_beginWrite r .localEnd
    exact ⟨(hwrite _ _).kind, (hwrite _ _).readedData⟩

/-- The kinds of the ends and the bytes that were read before stay what they are. -/
lemma step_fixed {a : RelayAction μ} (hstep : step s a = some s') :
    s'.kind = s.kind ∧ s'.readedData = s.readedData := by
  have hsame : SameRelay s s' → s'.kind = s.kind ∧ s'.readedData = s.readedData :=
    fun h => ⟨h.kind, h.readedData⟩
  cases stepTo_of_step hstep with
  | notConnected => exact leaveLocal_fixed s
  | openFailed =>
      have hclose := sameRelay_close s .remoteEnd
      have hbegin := beginRelay_fixed (s.close .remoteEnd)
      exact ⟨hbegin.1.trans hclose.kind, hbegin.2.trans hclose.readedData⟩
  | opened => exact beginRelay_fixed s
  | arrive => exact ⟨rfl, rfl⟩
  | readError => exact ⟨rfl, rfl⟩
  | wrote => exact ⟨rfl, rfl⟩
  | socketWriteFailed => exact ⟨rfl, rfl⟩
  | @streamWriteFailed e chunk _ hpc =>
      have hclose := sameRelay_closeStream (s.completeWrite e chunk false (.writeDone false)) e
        e.other .closingFailed (.writeDone false)
      exact ⟨hclose.kind, hclose.readedData⟩
  | failedClosed => exact ⟨rfl, rfl⟩
  | closed hpc => exact hsame (finishes_finishClosed hpc).operates.same
  | remoteClosed => exact leaveLocal_fixed s
  | localClosed => exact ⟨rfl, rfl⟩
  | preWritten => exact ⟨rfl, rfl⟩
  | started => exact hsame (sameRelay_beginRead s _)
  | readFailed => exact hsame (sameRelay_finish s _)
  | read => exact hsame (sameRelay_beginWrite s _ _)
  | written => exact hsame (sameRelay_beginRead s _)
  | writeFailed => exact hsame (sameRelay_finish s _)
  | joined => exact leaveRemote_fixed s
  | closeByRemote => exact hsame (sameRelay_close s _)
  | closeLocal => exact hsame (sameRelay_close s _)

lemma run_fixed (h : exec step (init localKind remoteKind readedData) as = some s) :
    s.kind = (init localKind remoteKind readedData).kind ∧ s.readedData = readedData := by
  refine exec_invariant (I := fun s : RelayState μ =>
    s.kind = (init localKind remoteKind readedData).kind ∧ s.readedData = readedData)
      (fun s a s' hs hstep => ?_) ⟨rfl, rfl⟩ h
  have hfixed := step_fixed hstep
  exact ⟨hfixed.1.trans hs.1, hfixed.2.trans hs.2⟩

lemma Forwards.readedData_first (h : s.Forwards)
    (hbegun : s.phase = .transferring ∨ s.received .localEnd ≠ []) :
    s.readedData.toList <+: s.received .localEnd := by
  refine h.first.resolve_left ?_
  rintro ⟨hidle, hnone⟩
  rcases hbegun with hphase | hreceived
  · have hstaged := h.staged
    simp only [Staged, hphase] at hstaged
    exact hstaged .localEnd hidle
  · exact hreceived hnone

/-- **A relay passes on what it reads.**  In every state of a relay, with ends of any kinds, and for
each direction: the chunks it has written, or tried to write, are those it has read, in order, but
for one at most that it holds; behind the loop it holds none.  The writes have succeeded, except for
the last one; only the failure of the write of `readed_data` is not looked at.  The bytes that had
been read before go first, while the transfers run and ever after. -/
theorem relay_forwards (localKind remoteKind : EndKind) (readedData : Option μ)
    (as : List (RelayAction μ)) (s : RelayState μ)
    (h : exec step (init localKind remoteKind readedData) as = some s) (e : RelayEnd) :
    (s.written e).map Prod.fst <+: s.received e ∧
      (s.received e).length ≤ (s.written e).length + 1 ∧
      (s.pc e = .ended → (s.written e).map Prod.fst = s.received e) ∧
      (∀ x ∈ ((s.written e).drop (if e = .localEnd then readedData.toList.length else 0)).dropLast,
        x.2 = true) ∧
      (s.phase = .transferring ∨ s.received .localEnd ≠ [] →
        readedData.toList <+: s.received .localEnd) := by
  have hforwards := exec_invariant (fun _ _ _ => step_forwards) init_forwards h
  have hforwarding := hforwards.forwarding e
  have hdata := (run_fixed h).2
  have hchunks := hforwarding.chunks
  refine ⟨⟨_, hchunks⟩, ?_, fun hpc => ?_, ?_,
    fun hbegun => hdata ▸ hforwards.readedData_first hbegun⟩
  · have hheld : (held (s.pc e)).length ≤ 1 := by
      rw [held.eq_def]
      split <;> simp
    rw [← hchunks, List.length_append, List.length_map]
    omega
  · rw [hpc] at hchunks
    rw [← hchunks]
    exact (List.append_nil _).symm
  · have htried := hforwarding.tried
    cases e with
    | localEnd =>
        rw [preWrites, hdata] at htried
        rwa [if_pos rfl]
    | remoteEnd =>
        rw [preWrites] at htried
        rwa [if_neg (by decide)]

/-- An entry node passes on what it has read before and a chunk; the second write fails. -/
def failingRun : List (RelayAction ℕ) :=
  [.opened true, .wrote .localEnd, .resume .localEnd, .resume .localEnd, .arrive .localEnd 2,
    .resume .localEnd, .writeFailed .localEnd, .closeReturned .localEnd, .resume .localEnd]

theorem relay_forwards_failing : ∃ s,
    exec step (init .socket .stream (some 1)) failingRun = some s ∧
      s.written .localEnd = [(1, true), (2, false)] ∧
      (s.written .localEnd).map Prod.fst <+: s.received .localEnd := by
  refine ⟨_, rfl, rfl, ?_⟩
  exact (relay_forwards .socket .stream (some 1) failingRun _ rfl .localEnd).1

end RelayState

end Snova
