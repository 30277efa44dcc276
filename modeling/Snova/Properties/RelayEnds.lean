import Snova.Framework.Measure
import Snova.Properties.Transfer

/-!
# How a relay ends

Behind its loop a transfer closes what the other direction may wait for.  So a relay one of whose
ends has been closed can only wait for a socket or an event writer that does not take what is
written to it, as long as one of its ends is a stream, and its steps are bounded by the bytes that
arrive (`relay_ends`).  Between two sockets the end of one direction does not reach the other one
(`direct_relay_waits`).
-/

namespace Snova

namespace RelayState

variable {μ : Type} {s s' : RelayState μ} {e d : RelayEnd} {pc pc' : TransferPc μ} {chunk : μ}

/-! ## How long it takes -/

/-- How many steps a transfer makes at most until it waits for bytes, or has ended. -/
def pcRank : TransferPc μ → ℕ
  | .idle => 0
  | .starting => 4
  | .reading => 3
  | .readDone none => 2
  | .readDone (some _) => 6
  | .writing _ => 5
  | .writeDone true => 4
  | .writeDone false => 2
  | .closingFailed => 3
  | .closing => 1
  | .ended => 0

def phaseRank : RelayPhase → ℕ
  | .opening => 20
  | .preWriting => 12
  | .transferring => 3
  | .closingRemote => 2
  | .closingLocal => 1
  | .ended => 0

def rank (s : RelayState μ) : ℕ :=
  phaseRank s.phase + pcRank (s.pc .localEnd) + pcRank (s.pc .remoteEnd)

lemma rank_eq (s : RelayState μ) (e : RelayEnd) :
    s.rank = phaseRank s.phase + pcRank (s.pc e) + pcRank (s.pc e.other) := by
  cases e with
  | localEnd => rfl
  | remoteEnd =>
      rw [rank, RelayEnd.other]
      omega

lemma Cancelled.pcRank_le {ws ws' : List (μ × Bool)} (h : Cancelled (pc, ws) (pc', ws')) :
    pcRank pc' ≤ pcRank pc := by
  cases h with
  | same => exact le_rfl
  | read => simp [pcRank]
  | write => simp [pcRank]

lemma Operates.rank_le (h : Operates e s s') :
    s'.rank + pcRank (s.pc e) ≤ s.rank + pcRank (s'.pc e) := by
  have hother := h.there.pcRank_le
  rw [rank_eq s e, rank_eq s' e, h.same.phase]
  omega

lemma rank_close_le (s : RelayState μ) (e : RelayEnd) : (s.close e).rank ≤ s.rank := by
  have hlocal := (cancelled_close s e .localEnd).pcRank_le
  have hremote := (cancelled_close s e .remoteEnd).pcRank_le
  rw [rank, rank, (sameRelay_close s e).phase]
  omega

lemma Finishes.rank_lt (h : Finishes e s s') (hpc : 2 ≤ pcRank (s.pc e)) : s'.rank < s.rank := by
  have hle := h.operates.rank_le
  have hdone : pcRank (s'.pc e) ≤ 1 := by
    rcases h.pc with hpc' | hpc' <;> simp [hpc', pcRank]
  omega

lemma rank_setPc_lt (h : pcRank pc < pcRank (s.pc e)) : (s.setPc e pc).rank < s.rank := by
  have hle := ((operates_refl e s).setPc pc).rank_le
  rw [setPc_self] at hle
  omega

lemma rank_beginRead_lt (hpc : s.pc e = .starting ∨ s.pc e = .writeDone true) :
    (s.beginRead e).rank < s.rank := by
  have hrank : pcRank (s.pc e) = 4 := by
    rcases hpc with hpc | hpc <;> rw [hpc] <;> rfl
  rw [beginRead]
  split
  · split
    · refine (finishes_finish ?_ fun chunk => ?_).rank_lt (by omega)
      · rcases hpc with hpc | hpc <;> simp [hpc]
      · rcases hpc with hpc | hpc <;> simp [hpc]
    · exact rank_setPc_lt (hrank ▸ (by decide : 2 < 4))
  · exact rank_setPc_lt (hrank ▸ (by decide : 3 < 4))

lemma rank_finish_lt (hpc : s.pc e = .readDone none ∨ s.pc e = .writeDone false) :
    (s.finish e).rank < s.rank := by
  refine (finishes_finish ?_ fun chunk => ?_).rank_lt ?_
  · rcases hpc with hpc | hpc <;> simp [hpc]
  · rcases hpc with hpc | hpc <;> simp [hpc]
  · rcases hpc with hpc | hpc <;> simp [hpc, pcRank]

lemma rank_beginWrite_lt (hpc : s.pc e = .readDone (some chunk)) :
    (s.beginWrite e chunk).rank < s.rank := by
  rw [beginWrite]
  split
  · refine rank_setPc_lt (s := s) ?_
    rw [hpc]
    simp [pcRank]
  · refine rank_setPc_lt ?_
    rw [hpc]
    simp [pcRank]

lemma operates_completeWrite {success : Bool} :
    Operates e s (s.completeWrite e chunk success pc) where
  same := ⟨rfl, rfl, rfl, rfl⟩
  there := by
    simp only [completeWrite, setPc_other, Function.update_of_ne e.other_ne]
    exact .same _

lemma rank_streamWriteFailed_lt (hpc : s.pc e = .writing chunk) :
    ((s.completeWrite e chunk false (.writeDone false)).closeStream e e.other .closingFailed
      (.writeDone false)).rank < s.rank := by
  have hwriting : pcRank (s.pc e) = 5 := by rw [hpc]; rfl
  have hdone : Operates e s (s.completeWrite e chunk false (.writeDone false)) :=
    operates_completeWrite
  rw [closeStream]
  split
  · have hle := (hdone.setPc (.writeDone false)).rank_le
    have hrank : pcRank (.writeDone false : TransferPc μ) = 2 := rfl
    rw [setPc_self] at hle
    omega
  · have hle := ((hdone.close e.other).setPc .closingFailed).rank_le
    have hrank : pcRank (.closingFailed : TransferPc μ) = 3 := rfl
    rw [setPc_self] at hle
    omega

lemma rank_setPhase (s : RelayState μ) (phase : RelayPhase) :
    (s.setPhase phase).rank + phaseRank s.phase = s.rank + phaseRank phase := by
  show phaseRank phase + pcRank (s.pc .localEnd) + pcRank (s.pc .remoteEnd) + phaseRank s.phase =
    phaseRank s.phase + pcRank (s.pc .localEnd) + pcRank (s.pc .remoteEnd) + phaseRank phase
  omega

lemma rank_leaveLocal_lt (h : 1 < phaseRank s.phase) : s.leaveLocal.rank < s.rank := by
  have hclose := rank_close_le s .localEnd
  have hphase := (sameRelay_close s .localEnd).phase
  have hended : phaseRank .ended = 0 := rfl
  have hclosing : phaseRank .closingLocal = 1 := rfl
  rw [leaveLocal]
  split
  · have hrank := rank_setPhase (s.close .localEnd) .ended
    rw [hphase] at hrank
    omega
  · split
    · have hrank := rank_setPhase s .ended
      omega
    · have hrank := rank_setPhase (s.close .localEnd) .closingLocal
      rw [hphase] at hrank
      omega

lemma rank_leaveRemote_lt (h : 2 < phaseRank s.phase) : s.leaveRemote.rank < s.rank := by
  have hclose := rank_close_le s .remoteEnd
  have hphase := (sameRelay_close s .remoteEnd).phase
  have hclosing : phaseRank .closingRemote = 2 := rfl
  rw [leaveRemote]
  split
  · refine (rank_leaveLocal_lt ?_).trans_le hclose
    rw [hphase]
    omega
  · split
    · exact rank_leaveLocal_lt (by omega)
    · have hrank := rank_setPhase (s.close .remoteEnd) .closingRemote
      rw [hphase] at hrank
      omega

lemma rank_startTransfers_lt {success : Bool} (hphase : s.phase = .preWriting)
    (hpc : s.pc e = .writeDone success) : s.startTransfers.rank < s.rank := by
  have hrank : s.startTransfers.rank = 11 := rfl
  have hdone : 2 ≤ pcRank (s.pc e) := by
    rw [hpc]
    cases success <;> simp [pcRank]
  rw [hrank, rank_eq s e, hphase, phaseRank]
  omega

lemma rank_beginRelay_lt (hphase : s.phase = .opening) : s.beginRelay.rank < s.rank := by
  rw [beginRelay]
  split
  · have hrank : s.startTransfers.rank = 11 := rfl
    refine lt_of_eq_of_lt hrank ?_
    rw [rank, hphase, phaseRank]
    omega
  · next chunk _ =>
      rw [beginWrite]
      split
      · rw [rank, rank, hphase]
        simp only [completeWrite, setPc_self,
          setPc_of_ne (by decide : RelayEnd.remoteEnd ≠ .localEnd), setPc_phase, phaseRank, pcRank]
        omega
      · rw [rank, rank, hphase]
        simp only [setPc_self, setPc_of_ne (by decide : RelayEnd.remoteEnd ≠ .localEnd),
          setPc_phase, phaseRank, pcRank]
        omega

/-- The steps that a relay makes, with the sockets and event writers that take what it writes.  The
others are the bytes that arrive, and what closes an end from outside. -/
def IsOwn : RelayAction μ → Bool
  | .arrive _ _ => false
  | .closeByRemote _ => false
  | .closeLocal => false
  | _ => true

/-- What an action from outside adds to the steps of a relay. -/
def cost : RelayAction μ → ℕ
  | .arrive _ _ => 3
  | _ => 0

lemma step_rank {a : RelayAction μ} (hstep : step s a = some s') :
    (IsOwn a = true → s'.rank < s.rank) ∧ s'.rank ≤ s.rank + cost a := by
  have hown : s'.rank < s.rank → (IsOwn a = true → s'.rank < s.rank) ∧ s'.rank ≤ s.rank + cost a :=
    fun h => ⟨fun _ => h, by omega⟩
  cases stepTo_of_step hstep with
  | notConnected hphase => exact hown (rank_leaveLocal_lt (by simp [hphase, phaseRank]))
  | openFailed hphase =>
      exact hown ((rank_beginRelay_lt ((sameRelay_close s _).phase.trans hphase)).trans_le
        (rank_close_le s _))
  | opened hphase => exact hown (rank_beginRelay_lt hphase)
  | @arrive e chunk hpc =>
      refine ⟨Bool.noConfusion, ?_⟩
      have hle := ((operates_refl e s).setPc (.readDone (some chunk))).rank_le
      rw [setPc_self, hpc] at hle
      simp only [pcRank] at hle
      simp only [rank, cost, setPc_phase] at hle ⊢
      omega
  | readError hkind hpc => exact hown (rank_setPc_lt (by simp [hpc, pcRank]))
  | wrote hpc => exact hown (rank_setPc_lt (s := s) (by simp [hpc, pcRank]))
  | socketWriteFailed hpc => exact hown (rank_setPc_lt (s := s) (by simp [hpc, pcRank]))
  | streamWriteFailed _ hpc => exact hown (rank_streamWriteFailed_lt hpc)
  | failedClosed hpc => exact hown (rank_setPc_lt (by simp [hpc, pcRank]))
  | @closed e hpc =>
      refine hown ?_
      have hle := (finishes_finishClosed hpc).operates.rank_le
      have hended : (s.finishClosed e).pc e = .ended := by
        rw [finishClosed]
        split <;> exact setPc_self
      rw [hpc, hended] at hle
      simp only [pcRank] at hle
      omega
  | remoteClosed hphase => exact hown (rank_leaveLocal_lt (by simp [hphase, phaseRank]))
  | localClosed hphase =>
      refine hown ?_
      have hrank := rank_setPhase s .ended
      rw [hphase] at hrank
      simp only [phaseRank] at hrank
      omega
  | preWritten hphase hpc => exact hown (rank_startTransfers_lt hphase hpc)
  | started hphase hpc => exact hown (rank_beginRead_lt (.inl hpc))
  | readFailed hphase hpc => exact hown (rank_finish_lt (.inl hpc))
  | read hphase hpc => exact hown (rank_beginWrite_lt hpc)
  | written hphase hpc => exact hown (rank_beginRead_lt (.inr hpc))
  | writeFailed hphase hpc => exact hown (rank_finish_lt (.inr hpc))
  | joined hphase => exact hown (rank_leaveRemote_lt (by simp [hphase, phaseRank]))
  | closeByRemote => exact ⟨Bool.noConfusion, rank_close_le s _⟩
  | closeLocal => exact ⟨Bool.noConfusion, rank_close_le s _⟩

/-! ## The end of a relay -/

/-- The steps that wait for nothing: a coroutine of the relay goes on. -/
def Prompt : RelayAction μ → Prop
  | .resume _ => True
  | .join => True
  | _ => False

/-- There is nothing to do for the relay. -/
def Quiet (s : RelayState μ) : Prop := ∀ a, Prompt a → s.step a = none

/-- A socket holds the relay up: it is being connected, or does not take what a transfer writes to
it. -/
def SocketHolds (s : RelayState μ) : Prop :=
  s.phase = .opening ∧ s.kind .remoteEnd = .socket ∨
    ∃ e chunk, s.pc e = .writing chunk ∧ s.kind e.other = .socket ∧ s.closed e.other = false

/-- The event writer of a stream holds the relay up: it has not returned with the request of `Open`,
with a chunk, or with the request of a `Close(false)` in a transfer or behind the transfers. -/
def WriterHolds (s : RelayState μ) : Prop :=
  s.phase = .opening ∧ s.kind .remoteEnd = .stream ∨
    (∃ e chunk, s.pc e = .writing chunk ∧ s.kind e.other = .stream) ∨
    (∃ e, s.pc e = .closing ∨ s.pc e = .closingFailed) ∨
    s.phase = .closingRemote ∨ s.phase = .closingLocal

/-- A transfer that is written for waits for a socket or for an event writer. -/
lemma holds_of_writing (hpc : s.pc e = .writing chunk)
    (hopen : s.kind e.other = .socket → s.closed e.other = false) :
    s.SocketHolds ∨ s.WriterHolds := by
  cases hkind : s.kind e.other with
  | socket => exact .inl (.inr ⟨e, chunk, hpc, hkind, hopen hkind⟩)
  | stream => exact .inr (.inr (.inl ⟨e, chunk, hpc, hkind⟩))

/-- A transfer of a quiet relay waits for a read, or it has ended, if nothing holds it up. -/
lemma Quiet.transfer_waits (h : s.Quiet) (htied : s.Tied) (hphase : s.phase = .transferring)
    (hidle : s.pc e ≠ .idle) (hsocket : ¬ s.SocketHolds) (hwriter : ¬ s.WriterHolds) :
    s.pc e = .reading ∨ s.pc e = .ended := by
  have hresume := h (.resume e) trivial
  simp only [step, resume, hphase] at hresume
  have hknows := htied e
  cases hpc : s.pc e with
  | idle => exact absurd hpc hidle
  | starting => simp [hpc] at hresume
  | reading => exact .inl rfl
  | readDone result => cases result <;> simp [hpc] at hresume
  | writing chunk =>
      rw [hpc] at hknows
      exact absurd (holds_of_writing hpc hknows) (not_or.mpr ⟨hsocket, hwriter⟩)
  | writeDone success => cases success <;> simp [hpc] at hresume
  | closingFailed => exact absurd (.inr (.inr (.inl ⟨e, .inr hpc⟩))) hwriter
  | closing => exact absurd (.inr (.inr (.inl ⟨e, .inl hpc⟩))) hwriter
  | ended => exact .inr rfl

/-- What one end or one direction has come to reaches the other one. -/
lemma Quiet.not_transferring (h : s.Quiet) (htied : s.Tied) (hstaged : s.Staged)
    (hkind : s.kind .localEnd = .stream ∨ s.kind .remoteEnd = .stream)
    (hsocket : ¬ s.SocketHolds) (hwriter : ¬ s.WriterHolds)
    (hend : s.closed e = true ∨ s.pc e = .ended) : s.phase ≠ .transferring := by
  intro hphase
  have hidle := hstaged
  simp only [Staged, hphase] at hidle
  have hwaits : ∀ d, s.pc d = .reading ∨ s.pc d = .ended := fun d =>
    h.transfer_waits htied hphase (hidle d) hsocket hwriter
  have hended : ∀ d, s.closed d = true → s.pc d = .ended := by
    intro d hclosed
    refine (hwaits d).resolve_left fun hpc => ?_
    have hknows := htied d
    rw [hpc] at hknows
    rw [show s.closed d = false from hknows] at hclosed
    cases hclosed
  have hone : s.pc e = .ended := hend.elim (hended e) id
  have hother : s.pc e.other = .ended := by
    refine hended e.other ?_
    have hknows := htied e
    rw [hone] at hknows
    cases hto : s.kind e.other with
    | stream => exact hknows.1 hto
    | socket =>
        have hfrom : s.kind e = .stream := by
          cases e with
          | localEnd =>
              refine hkind.resolve_right fun hstream => ?_
              rw [show s.kind .remoteEnd = .socket from hto] at hstream
              cases hstream
          | remoteEnd =>
              refine hkind.resolve_left fun hstream => ?_
              rw [show s.kind .localEnd = .socket from hto] at hstream
              cases hstream
        exact (hknows.2 hfrom hto).2
  have hjoin := h .join trivial
  have hboth : s.pc .localEnd = .ended ∧ s.pc .remoteEnd = .ended := by
    cases e with
    | localEnd => exact ⟨hone, hother⟩
    | remoteEnd => exact ⟨hother, hone⟩
  simp [step, hphase, hboth.1, hboth.2] at hjoin

/-- Bytes that arrive. -/
def IsArrival : RelayAction μ → Bool
  | .arrive _ _ => true
  | _ => false

lemma sum_cost (as : List (RelayAction μ)) :
    ((as.filter fun a => !IsOwn a).map cost).sum = 3 * (as.filter IsArrival).length := by
  induction as with
  | nil => rfl
  | cons a as ih =>
      cases a with
      | arrive e chunk =>
          rw [List.filter_cons_of_pos rfl, List.filter_cons_of_pos rfl, List.map_cons,
            List.sum_cons, List.length_cons, ih]
          show 3 + _ = _
          omega
      | _ => simpa [List.filter_cons, IsOwn, IsArrival, cost] using ih

/-- **A relay ends.**  Let one of the ends be a stream.  When an end has been closed, by whatever
side or by the idle timer, or when one direction has ended, a relay that has nothing to do has ended
itself, unless it is held up by a socket, one that is being connected or does not take what is
written to it, or by an event writer that has not returned.  And in every run it runs out of things
to do: its steps, with those of the sockets and event writers that let it go on, are at most three
for each chunk that arrives, and twenty. -/
theorem relay_ends (localKind remoteKind : EndKind)
    (hkind : localKind = .stream ∨ remoteKind = .stream) (readedData : Option μ)
    (as : List (RelayAction μ)) (s : RelayState μ)
    (h : exec step (init localKind remoteKind readedData) as = some s) :
    (s.Quiet → ∀ e, s.closed e = true ∨ s.pc e = .ended →
      s.phase = .ended ∨ s.SocketHolds ∨ s.WriterHolds) ∧
    (as.filter IsOwn).length ≤ 20 + 3 * (as.filter IsArrival).length := by
  have htied := exec_invariant (fun _ _ _ => step_tied) init_tied h
  have hstaged := (exec_invariant (fun _ _ _ => step_forwards) init_forwards h).staged
  have hkinds := (run_fixed h).1
  constructor
  · intro hquiet e hend
    by_cases hsocket : s.SocketHolds
    · exact .inr (.inl hsocket)
    by_cases hwriter : s.WriterHolds
    · exact .inr (.inr hwriter)
    cases hphase : s.phase with
    | opening =>
        cases hremote : s.kind .remoteEnd with
        | socket => exact absurd (.inl ⟨hphase, hremote⟩) hsocket
        | stream => exact absurd (.inl ⟨hphase, hremote⟩) hwriter
    | preWriting =>
        simp only [Staged, hphase] at hstaged
        have hresume := hquiet (.resume .localEnd) trivial
        have hknows := htied .localEnd
        simp only [step, resume, hphase] at hresume
        cases hpc : s.pc .localEnd with
        | writing chunk =>
            rw [hpc] at hknows
            exact absurd (holds_of_writing hpc hknows) (not_or.mpr ⟨hsocket, hwriter⟩)
        | writeDone success => simp [hpc] at hresume
        | closingFailed => exact absurd (.inr (.inr (.inl ⟨_, .inr hpc⟩))) hwriter
        | _ =>
            rw [hpc] at hstaged
            exact hstaged.1.elim
    | transferring =>
        have hone : s.kind .localEnd = .stream ∨ s.kind .remoteEnd = .stream := by
          rw [hkinds]
          exact hkind
        exact absurd hphase (hquiet.not_transferring htied hstaged hone hsocket hwriter hend)
    | closingRemote => exact absurd (.inr (.inr (.inr (.inl hphase)))) hwriter
    | closingLocal => exact absurd (.inr (.inr (.inr (.inr hphase)))) hwriter
    | ended => exact .inl rfl
  · have hcount := exec_count_le (I := fun _ => True) (fun _ _ _ _ _ => trivial)
      (fun _ _ _ _ hstep hown => (step_rank hstep).1 hown)
      (fun _ _ _ _ hstep _ => (step_rank hstep).2) trivial h
    have hinit : (init localKind remoteKind readedData).rank = 20 := rfl
    rw [sum_cost] at hcount
    omega

/-- The idle timer of an entry node closes the socket, while both directions wait. -/
def idleRun : List (RelayAction ℕ) :=
  [.opened true, .resume .localEnd, .resume .remoteEnd, .closeLocal, .resume .localEnd,
    .closeReturned .localEnd, .resume .remoteEnd, .join]

theorem relay_ends_idle : ∃ s, exec step (init .socket .stream none) idleRun = some s ∧
    s.phase = .ended ∧ (idleRun.filter IsOwn).length ≤ 20 := by
  refine ⟨_, rfl, rfl, ?_⟩
  exact (relay_ends .socket .stream (.inr rfl) none idleRun _ rfl).2

/-! ## Two sockets -/

/-- The action does not end a read of the socket: it delivers nothing, it does not fail, and the
idle timer, which closes the local one, does not close it. -/
def Spares (e : RelayEnd) (a : RelayAction μ) : Prop :=
  a ≠ .readError e ∧ (∀ chunk, a ≠ .arrive e chunk) ∧ (e = .localEnd → a ≠ .closeLocal)

/-- The transfer from one socket does not touch the one from the other. -/
lemma step_direct {a : RelayAction μ} (hkind : ∀ e, s.kind e = .socket)
    (hphase : s.phase = .transferring) (hreading : s.pc e = .reading) (hspares : Spares e a)
    (hstep : step s a = some s') : s'.phase = .transferring ∧ s'.pc e = .reading := by
  have hother : ∀ {d pc}, s.pc d = pc → pc ≠ .reading → d = e.other := by
    rintro d pc rfl hne
    rcases e.eq_or_eq_other d with rfl | hd
    · exact absurd hreading hne
    · exact hd
  have hset : ∀ pc, (s.setPc e.other pc).phase = .transferring ∧
      (s.setPc e.other pc).pc e = .reading :=
    fun pc => ⟨hphase, (setPc_of_ne e.ne_other).trans hreading⟩
  have hread : (s.beginRead e.other).phase = .transferring ∧
      (s.beginRead e.other).pc e = .reading := by
    rw [beginRead, hkind]
    split
    · exact hset _
    · exact hset _
  have hfinish : (s.finish e.other).phase = .transferring ∧
      (s.finish e.other).pc e = .reading := by
    rw [finish, hkind, hkind]
    exact hset _
  cases stepTo_of_step hstep with
  | notConnected hopening => simp [hphase] at hopening
  | openFailed hopening => simp [hphase] at hopening
  | opened hopening => simp [hphase] at hopening
  | @arrive d chunk _ =>
      rcases e.eq_or_eq_other d with rfl | rfl
      · exact absurd rfl (hspares.2.1 chunk)
      · exact hset (.readDone (some chunk))
  | @readError d =>
      rcases e.eq_or_eq_other d with rfl | rfl
      · exact absurd rfl hspares.1
      · exact hset _
  | wrote hpc =>
      obtain rfl := hother hpc (by simp)
      exact hset (.writeDone true)
  | socketWriteFailed hpc =>
      obtain rfl := hother hpc (by simp)
      exact hset (.writeDone false)
  | streamWriteFailed hstream => simp [hkind] at hstream
  | failedClosed hpc =>
      obtain rfl := hother hpc (by simp)
      exact hset _
  | closed hpc =>
      obtain rfl := hother hpc (by simp)
      rw [finishClosed, hkind, hkind]
      exact hset _
  | remoteClosed hclosing => simp [hphase] at hclosing
  | localClosed hclosing => simp [hphase] at hclosing
  | preWritten hpre => simp [hphase] at hpre
  | started _ hpc =>
      obtain rfl := hother hpc (by simp)
      exact hread
  | readFailed _ hpc =>
      obtain rfl := hother hpc (by simp)
      exact hfinish
  | read _ hpc =>
      obtain rfl := hother hpc (by simp)
      rw [beginWrite]
      split
      · exact hset (.writeDone false)
      · exact hset _
  | written _ hpc =>
      obtain rfl := hother hpc (by simp)
      exact hread
  | writeFailed _ hpc =>
      obtain rfl := hother hpc (by simp)
      exact hfinish
  | joined _ hlocal hremote =>
      cases e with
      | localEnd => simp [hreading] at hlocal
      | remoteEnd => simp [hreading] at hremote
  | closeByRemote hstream => simp [hkind] at hstream
  | closeLocal =>
      cases e with
      | localEnd => exact absurd rfl (hspares.2.2 rfl)
      | remoteEnd =>
          refine ⟨(sameRelay_close s _).phase.trans hphase, ?_⟩
          cases hclosed : s.closed .localEnd with
          | true => rw [close_of_closed hclosed, hreading]
          | false =>
              rw [show RelayEnd.remoteEnd = RelayEnd.other .localEnd from rfl,
                pc_close_other hclosed, if_pos (hkind _),
                show s.pc (RelayEnd.other .localEnd) = .reading from hreading]
              rfl

/-- **Between two sockets one direction does not end the other.**  In a direct relay, while a socket
that is being read delivers nothing and does not fail, and is not the local one when the idle timer
closes it, the transfer from it waits, and the relay does not end, whatever becomes of the other
direction: also when that has ended, and for the remote socket also when the idle timer has closed
the local one. -/
theorem direct_relay_waits (readedData : Option μ) (as bs : List (RelayAction μ))
    (s t : RelayState μ) (h : exec step (init .socket .socket readedData) as = some s)
    (e : RelayEnd) (hphase : s.phase = .transferring) (hreading : s.pc e = .reading)
    (hspares : ∀ a ∈ bs, Spares e a) (hrun : exec step s bs = some t) :
    t.phase = .transferring ∧ t.pc e = .reading := by
  have hkinds := (run_fixed h).1
  have hkind : ∀ e, s.kind e = .socket := by
    intro e
    rw [hkinds]
    cases e <;> rfl
  have hall := exec_invariant_along (I := fun s : RelayState μ => (∀ e, s.kind e = .socket) ∧
    s.phase = .transferring ∧ s.pc e = .reading) (C := fun _ a => Spares e a)
    (fun s a s' hs hC hstep => ⟨fun e => (step_fixed hstep).1 ▸ hs.1 e,
      step_direct hs.1 hs.2.1 hs.2.2 hC hstep⟩)
    ⟨hkind, hphase, hreading⟩ (along_of_forall (fun a ha _ => hspares a ha) s) hrun
  exact hall.2

/-- Both sockets are being read. -/
def directRun : List (RelayAction ℕ) := [.opened true, .resume .localEnd, .resume .remoteEnd]

/-- The timer closes the local socket, and the direction from it ends; or the remote socket ends,
and the local one is still read. -/
theorem direct_relay_waits_timer : ∃ s t u,
    exec step (init .socket .socket none) directRun = some s ∧
    (exec step s [.closeLocal, .resume .localEnd] = some t ∧ t.pc .localEnd = .ended ∧
      t.phase = .transferring ∧ t.pc .remoteEnd = .reading) ∧
    exec step s [.readError .remoteEnd, .resume .remoteEnd] = some u ∧ u.pc .remoteEnd = .ended ∧
      u.phase = .transferring ∧ u.pc .localEnd = .reading := by
  refine ⟨_, _, _, rfl, ⟨rfl, rfl, ?_⟩, rfl, rfl, ?_⟩
  · refine direct_relay_waits none directRun [.closeLocal, .resume .localEnd] _ _ rfl .remoteEnd
      rfl rfl ?_ rfl
    simp [Spares]
  · refine direct_relay_waits none directRun [.readError .remoteEnd, .resume .remoteEnd] _ _ rfl
      .localEnd rfl rfl ?_ rfl
    simp [Spares]

end RelayState

end Snova
