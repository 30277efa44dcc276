import Snova.Properties.WriteMutex

/-!
# Where a coroutine is in the write mutex, and how far it has to go

`Region` is what a user of the mutex knows about the progress of a coroutine, and only the
coroutine's own steps change it, whether the mutex is open or has been closed (`Sound`).  `measure`
is what there is left to do.  `Lock` raises it by four at most, every other step of a coroutine
lowers it, and `Close` does not raise it: the waiters that are woken by a token and find the lock
taken again cannot send each other through the loop of `Lock` for ever.

`Close` wakes everybody who is suspended, and on a closed mutex nobody is suspended afterwards
(`Closed`).
-/

namespace Snova

variable {κ : Type} [DecidableEq κ]

namespace MutexState

/-- The part of `Write` a coroutine is in, as far as the mutex knows. -/
inductive Region
  | outside
  | locking
  | holding
  | unlocking
  deriving DecidableEq

def region : LockPc → Region
  | .idle => .outside
  | .waiting => .locking
  | .woken _ => .locking
  | .holding => .holding
  | .passing => .holding
  | .sending => .unlocking
  | .sent => .unlocking

/-- A closed channel in which nobody is suspended. -/
structure Shut (m : AsyncChannelMutex κ) : Prop where
  isOpen : m.channel.isOpen = false
  capacity : m.channel.capacity = 1
  receivers : m.channel.receivers = []
  senders : m.channel.senders = []

/-- A mutex that has been closed. -/
structure Closed (s : MutexState κ) : Prop where
  shut : Shut s.mutex
  awake : ∀ d, s.pc d ≠ .waiting ∧ s.pc d ≠ .sending

variable {s t : MutexState κ} {c d : κ}

omit [DecidableEq κ] in
lemma region_cancelled (p : LockPc) : region (cancelled p) = region p := by
  cases p <;> rfl

omit [DecidableEq κ] in
lemma cancelled_awake (p : LockPc) : cancelled p ≠ .waiting ∧ cancelled p ≠ .sending := by
  cases p <;> simp [cancelled]

/-- Everything a step can do to a closed mutex. -/
inductive ClosedSpec (s : MutexState κ) : MutexAction κ → MutexState κ → Prop
  | lock {c : κ} (hidle : s.pc c = .idle) :
      ClosedSpec s (.lock c) ⟨s.mutex, Function.update s.pc c .passing⟩
  | failed {c : κ} {m : AsyncChannelMutex κ} (hwoken : s.pc c = .woken true) (shut : Shut m)
      (hbuffer' : m.channel.buffer = s.mutex.channel.buffer) :
      ClosedSpec s (.resume c) ⟨m, Function.update s.pc c .passing⟩
  | acquired {c : κ} {m : AsyncChannelMutex κ} (hwoken : s.pc c = .woken false) (shut : Shut m)
      (hbuffer' : m.channel.buffer = s.mutex.channel.buffer) :
      ClosedSpec s (.resume c) ⟨m, Function.update s.pc c .holding⟩
  | took {c : κ} {m : AsyncChannelMutex κ} {b : Bool} (hwoken : s.pc c = .woken false)
      (shut : Shut m) (hbuffer : s.mutex.channel.buffer = b :: m.channel.buffer) :
      ClosedSpec s (.resume c) ⟨m, Function.update s.pc c (.woken false)⟩
  | refused {c : κ} {m : AsyncChannelMutex κ} (hwoken : s.pc c = .woken false) (shut : Shut m)
      (hbuffer' : m.channel.buffer = s.mutex.channel.buffer) :
      ClosedSpec s (.resume c) ⟨m, Function.update s.pc c (.woken true)⟩
  | unlock {c : κ} (hpc : s.pc c = .holding ∨ s.pc c = .passing) :
      ClosedSpec s (.unlock c) ⟨s.mutex, Function.update s.pc c .idle⟩
  | finish {c : κ} (hsent : s.pc c = .sent) :
      ClosedSpec s (.finish c) ⟨s.mutex, Function.update s.pc c .idle⟩
  | close {m : AsyncChannelMutex κ} (shut : Shut m)
      (hbuffer' : m.channel.buffer = s.mutex.channel.buffer) : ClosedSpec s .close ⟨m, s.pc⟩

/-- The loop of `Lock` on a closed mutex, run by a coroutine that was woken. -/
lemma lockLoop_closed {m : AsyncChannelMutex κ} (hm : Shut m)
    (hbuffer : m.channel.buffer = s.mutex.channel.buffer) (hwoken : s.pc c = .woken false) :
    ClosedSpec s (.resume c) (s.afterLock c (m.lockLoop c)) := by
  unfold AsyncChannelMutex.lockLoop
  by_cases hlocked : m.locked = true
  · rw [if_pos hlocked]
    have hspec := m.channel.receive_spec c (by rw [hm.capacity]; exact Nat.one_pos)
    revert hspec
    generalize m.channel.receive c = r
    obtain ⟨ch, res⟩ := r
    intro hspec
    cases hspec with
    | @taken _ b bs hb hr hs hb' hr' hs' ho' hc' =>
        refine .took (b := b) hwoken ⟨ho'.trans hm.isOpen, hc'.trans hm.capacity, hr', hs'⟩ ?_
        rw [← hbuffer, hb, hb']
    | refilled hb hr hs =>
        rw [hm.senders] at hs
        cases hs
    | suspended ho =>
        rw [hm.isOpen] at ho
        cases ho
    | closed hc hb =>
        exact .refused hwoken ⟨hm.isOpen, hm.capacity, hm.receivers, hm.senders⟩ hbuffer
  · rw [if_neg hlocked]
    exact .acquired hwoken ⟨hm.isOpen, hm.capacity, hm.receivers, hm.senders⟩ hbuffer

lemma Closed.step_spec {a : MutexAction κ} (h : Closed s) (hstep : s.step a = some t) :
    ClosedSpec s a t := by
  obtain ⟨hshut, hawake⟩ := h
  cases a with
  | lock c =>
      simp only [step, Option.ite_none_right_eq_some, Option.some_inj] at hstep
      obtain ⟨hidle, rfl⟩ := hstep
      rw [AsyncChannelMutex.lock, if_neg (by simp [hshut.isOpen])]
      exact .lock hidle
  | resume c =>
      simp only [step] at hstep
      split at hstep
      · next ec hwoken =>
          obtain rfl := Option.some.inj hstep
          have hless : Shut { s.mutex with waitCount := s.mutex.waitCount - 1 } :=
            ⟨hshut.isOpen, hshut.capacity, hshut.receivers, hshut.senders⟩
          cases ec with
          | true => exact .failed hwoken hless rfl
          | false => exact lockLoop_closed hless rfl hwoken
      · cases hstep
  | unlock c =>
      simp only [step, Option.ite_none_right_eq_some, Option.some_inj] at hstep
      obtain ⟨hpc, rfl⟩ := hstep
      rw [AsyncChannelMutex.unlock, if_neg (by simp [hshut.isOpen])]
      exact .unlock hpc
  | finish c =>
      simp only [step, Option.ite_none_right_eq_some, Option.some_inj] at hstep
      obtain ⟨hsent, rfl⟩ := hstep
      exact .finish hsent
  | close =>
      obtain rfl := Option.some.inj hstep
      have hpc : (fun c => cancelled (s.pc c)) = s.pc := by
        funext c
        have hc := hawake c
        cases hpc : s.pc c with
        | waiting => exact absurd hpc hc.1
        | sending => exact absurd hpc hc.2
        | _ => rfl
      rw [hpc]
      exact .close ⟨rfl, hshut.capacity, rfl, rfl⟩ rfl

lemma ClosedSpec.closed {a : MutexAction κ} (hspec : ClosedSpec s a t) (h : Closed s) :
    Closed t := by
  have hupdate : ∀ {c : κ} {p : LockPc}, p ≠ .waiting ∧ p ≠ .sending → ∀ d,
      Function.update s.pc c p d ≠ .waiting ∧ Function.update s.pc c p d ≠ .sending := by
    intro c p hp d
    rw [Function.update_apply]
    split
    · exact hp
    · exact h.awake d
  cases hspec with
  | lock hidle => exact ⟨h.shut, hupdate (by simp)⟩
  | failed hwoken shut => exact ⟨shut, hupdate (by simp)⟩
  | acquired hwoken shut => exact ⟨shut, hupdate (by simp)⟩
  | took hwoken shut => exact ⟨shut, hupdate (by simp)⟩
  | refused hwoken shut => exact ⟨shut, hupdate (by simp)⟩
  | unlock hpc => exact ⟨h.shut, hupdate (by simp)⟩
  | finish hsent => exact ⟨h.shut, hupdate (by simp)⟩
  | close shut => exact ⟨shut, h.awake⟩

/-! ## Open or closed -/

/-- What is known of a mutex in every run. -/
def Sound [Fintype κ] (s : MutexState κ) : Prop := s.Inv ∨ Closed s

lemma Sound.close [Fintype κ] (h : Sound s) (hstep : s.step .close = some t) : Closed t := by
  rcases h with h | h
  · obtain rfl := Option.some.inj hstep
    exact ⟨⟨rfl, h.core.capacity, rfl, rfl⟩, fun d => cancelled_awake _⟩
  · exact (h.step_spec hstep).closed h

lemma step_sound [Fintype κ] {a : MutexAction κ} (h : Sound s) (hstep : s.step a = some t) :
    Sound t := by
  by_cases hclose : a = .close
  · subst hclose
    exact .inr (h.close hstep)
  · rcases h with h | h
    · exact .inl (step_inv hclose h hstep)
    · exact .inr ((h.step_spec hstep).closed h)

lemma LoopSpec.region_of_ne [Fintype κ] (hspec : LoopSpec s c t) (h : Core s) (hd : d ≠ c) :
    region (t.pc d) = region (s.pc d) := by
  cases hspec with
  | acquired => simp only [Function.update_of_ne hd]
  | blocked => simp only [Function.update_of_ne hd]
  | took => simp only [Function.update_of_ne hd]
  | @refilled ch _ _ _ e _ _ _ _ hs =>
      have he : s.pc e = .sending := (h.sending e).mpr (by simp [hs])
      simp only [Function.update_of_ne hd]
      by_cases hde : d = e
      · subst hde
        rw [Function.update_self, he]
        rfl
      · rw [Function.update_of_ne hde]

lemma UnlockSpec.region_of_ne [Fintype κ] (hspec : UnlockSpec s c t) (h : Core s) (hd : d ≠ c) :
    region (t.pc d) = region (s.pc d) := by
  cases hspec with
  | unwaited => simp only [Function.update_of_ne hd]
  | buffered => simp only [Function.update_of_ne hd]
  | suspended => simp only [Function.update_of_ne hd]
  | @handed ch r rs _ hr =>
      have hw : s.pc r = .waiting := (h.waiting r).mpr (by simp [hr])
      simp only [Function.update_of_ne hd]
      by_cases hdr : d = r
      · subst hdr
        rw [Function.update_self, hw]
        rfl
      · rw [Function.update_of_ne hdr]

/-- A coroutine is where its own steps take it. -/
lemma Sound.region_of_ne [Fintype κ] {a : MutexAction κ} (h : Sound s)
    (hstep : s.step a = some t) (hd : actor a ≠ some d) : region (t.pc d) = region (s.pc d) := by
  have hne : ∀ {c}, actor a = some c → d ≠ c := fun hc hdc => hd (hdc ▸ hc)
  rcases h with h | h
  · by_cases hclose : a = .close
    · subst hclose
      obtain rfl := Option.some.inj hstep
      exact region_cancelled _
    · cases MutexState.step_spec hclose h.core hstep with
      | lock hidle hloop => exact hloop.region_of_ne h.core (hne rfl)
      | resume hwoken hloop =>
          rw [hloop.region_of_ne (h.core.leave_receive hwoken) (hne rfl)]
          simp only [leaveReceive, Function.update_of_ne (hne rfl)]
      | unlock hhold hunlock => exact hunlock.region_of_ne h.core (hne rfl)
      | finish hsent => simp only [Function.update_of_ne (hne rfl)]
  · cases h.step_spec hstep with
    | close => rfl
    | _ => simp only [Function.update_of_ne (hne rfl)]

/-- Behind a stretch of `Lock`. -/
lemma region_lock {a : MutexAction κ} (ha : a = .lock c ∨ a = .resume c)
    (hstep : s.step a = some t) :
    region (t.pc c) = .locking ∨ t.pc c = .holding ∨ t.pc c = .passing := by
  have hafter : ∀ r, region ((s.afterLock c r).pc c) = .locking ∨
      (s.afterLock c r).pc c = .holding ∨ (s.afterLock c r).pc c = .passing := by
    rintro ⟨m, res⟩
    cases res <;> simp [afterLock, region]
  rcases ha with rfl | rfl
  · simp only [step, Option.ite_none_right_eq_some, Option.some_inj] at hstep
    exact hstep.2 ▸ hafter _
  · simp only [step] at hstep
    split at hstep
    · exact (Option.some.inj hstep) ▸ hafter _
    · cases hstep

/-- Behind `Unlock`. -/
lemma region_unlock (hstep : s.step (.unlock c) = some t) :
    t.pc c = .idle ∨ region (t.pc c) = .unlocking := by
  have hafter : ∀ r, (s.afterUnlock c r).pc c = .idle ∨
      region ((s.afterUnlock c r).pc c) = .unlocking := by
    rintro ⟨m, res⟩
    cases res <;> simp [afterUnlock, region]
  simp only [step, Option.ite_none_right_eq_some, Option.some_inj] at hstep
  exact hstep.2 ▸ hafter _

omit [DecidableEq κ] in
/-- When nobody holds the lock and nobody is about to resume in `Lock`, nobody is in it. -/
lemma Inv.region_ne_locking [Fintype κ] (h : Inv s) (hholding : ∀ d, s.pc d ≠ .holding)
    (hwoken : ∀ d, s.pc d ≠ .woken false) (c : κ) : region (s.pc c) ≠ .locking := by
  have hfree : s.mutex.locked = false := by
    by_contra hlocked
    obtain ⟨d, hd⟩ := h.core.holder.mp (by simpa using hlocked)
    exact hholding d hd
  intro hregion
  have hwaiting : s.pc c = .waiting := by
    cases hpc : s.pc c with
    | waiting => rfl
    | woken ec =>
        cases ec with
        | false => exact absurd hpc (hwoken c)
        | true => exact absurd hpc (h.core.live c).1
    | _ =>
        rw [hpc] at hregion
        cases hregion
  obtain ⟨d, hd⟩ := h.wakeup hfree (List.ne_nil_of_mem ((h.core.waiting c).mp hwaiting))
  exact hwoken d hd

/-! ## Every step but `Lock` uses something up -/

/-- How far a coroutine has to go, at most. -/
def rank : LockPc → ℕ
  | .idle => 0
  | .sent => 1
  | .sending => 2
  | .holding => 3
  | .passing => 3
  | .waiting => 4
  | .woken true => 4
  | .woken false => 5

/-- A token in the buffer can send a woken coroutine through the loop of `Lock` once more. -/
def measure [Fintype κ] (s : MutexState κ) : ℕ :=
  weight rank s.pc + s.mutex.channel.buffer.length

/-- What a step adds to the measure, and what it takes from it. -/
def adds : MutexAction κ → ℕ
  | .lock _ => 4
  | _ => 0

def takes : MutexAction κ → ℕ
  | .resume _ => 1
  | .unlock _ => 1
  | .finish _ => 1
  | _ => 0

lemma rank_cancelled (p : LockPc) : rank (cancelled p) ≤ rank p := by
  cases p <;> simp [cancelled, rank]

/-- One coroutine moves, and tokens leave the buffer or join it. -/
lemma measure_move [Fintype κ] {m : AsyncChannelMutex κ} {p q : LockPc} {j k : ℕ} (hp : s.pc c = p)
    (hle : rank q + m.channel.buffer.length + j ≤ rank p + s.mutex.channel.buffer.length + k) :
    measure ⟨m, Function.update s.pc c q⟩ + j ≤ measure s + k := by
  have hweight := weight_update rank s.pc c q
  rw [hp] at hweight
  simp only [measure]
  omega

/-- A stretch of `Lock` run by a coroutine outside it. -/
lemma LoopSpec.measure_le [Fintype κ] (hspec : LoopSpec s c t) (h : Core s)
    (hidle : s.pc c = .idle) : measure t ≤ measure s + 4 := by
  cases hspec with
  | acquired hfree => exact measure_move hidle (j := 0) (by simp only [rank]; omega)
  | blocked hlocked hb hse hb' => exact measure_move hidle (j := 0) (by simp [rank, hb'])
  | took hlocked hb hr hse hb' =>
      refine measure_move hidle (j := 0) ?_
      simp only [hb, hb', List.length_cons, rank]
      omega
  | @refilled ch m m' ms e _ hlocked hb hr hse hb' =>
      have he : s.pc e = .sending := (h.sending e).mpr (by simp [hse])
      have hne : c ≠ e := by
        rintro rfl
        rw [hidle] at he
        cases he
      -- the sender that is completed is one step further
      have hsent : measure ⟨s.mutex, Function.update s.pc e .sent⟩ + 1 ≤ measure s :=
        measure_move he (k := 0) (by simp only [rank]; omega)
      have hwoken := measure_move (s := ⟨s.mutex, Function.update s.pc e .sent⟩) (c := c)
        (m := ⟨ch, s.mutex.waitCount + 1, true⟩) (q := .woken false) (j := 0) (k := 5)
        ((Function.update_of_ne hne _ _).trans hidle) (by
          simp only [hb, hb', List.length_append, List.length_cons, List.length_nil, rank]
          omega)
      exact hwoken.trans (by omega)

lemma UnlockSpec.measure_lt [Fintype κ] (hspec : UnlockSpec s c t) (h : Core s)
    (hhold : s.pc c = .holding) : measure t + 1 ≤ measure s := by
  have hroom := s.mutex.channel.buffer_le
  cases hspec with
  | unwaited hcount => exact measure_move hhold (k := 0) (by simp only [rank]; omega)
  | @handed ch r rs hcount hr hr' hb' =>
      have hwait : s.pc r = .waiting := (h.waiting r).mpr (by simp [hr])
      have hne : c ≠ r := by
        rintro rfl
        rw [hhold] at hwait
        cases hwait
      -- the waiter that is woken has the loop of `Lock` before it
      have hwoken : measure ⟨s.mutex, Function.update s.pc r (.woken false)⟩ ≤ measure s + 1 :=
        measure_move hwait (j := 0) (by simp only [rank]; omega)
      have hsent := measure_move (s := ⟨s.mutex, Function.update s.pc r (.woken false)⟩) (c := c)
        (m := ⟨ch, s.mutex.waitCount, false⟩) (q := .sent) (j := 2) (k := 0)
        ((Function.update_of_ne hne _ _).trans hhold) (by simp [hb', rank])
      exact Nat.le_of_succ_le_succ (hsent.trans hwoken)
  | @buffered ch hcount hr hroom' hse hr' hse' ho' hc' =>
      have hle := ch.buffer_le
      rw [hc', h.capacity] at hle
      exact measure_move hhold (k := 0) (by simp only [rank]; omega)
  | @suspended ch hcount hr hfull hr' hse' ho' hc' =>
      have hle := ch.buffer_le
      rw [hc', ← hfull] at hle
      exact measure_move hhold (k := 0) (by simp only [rank]; omega)

lemma ClosedSpec.measure_le [Fintype κ] {a : MutexAction κ} (hspec : ClosedSpec s a t) :
    measure t + takes a ≤ measure s + adds a := by
  cases hspec with
  | lock hidle => exact measure_move hidle (by simp only [rank, takes, adds]; omega)
  | failed hwoken shut hb =>
      exact measure_move hwoken (by simp only [hb, rank, takes, adds]; omega)
  | acquired hwoken shut hb =>
      exact measure_move hwoken (by simp only [hb, rank, takes, adds]; omega)
  | took hwoken shut hb =>
      refine measure_move hwoken ?_
      simp only [hb, List.length_cons, rank, takes, adds]
      omega
  | refused hwoken shut hb =>
      exact measure_move hwoken (by simp only [hb, rank, takes, adds]; omega)
  | unlock hpc =>
      rcases hpc with hpc | hpc
      · exact measure_move hpc (by simp only [rank, takes, adds]; omega)
      · exact measure_move hpc (by simp only [rank, takes, adds]; omega)
  | finish hsent => exact measure_move hsent (by simp only [rank, takes, adds]; omega)
  | close shut hb =>
      simp only [measure, hb]
      exact le_rfl

/-- A step of a mutex, open or closed. -/
lemma Sound.measure_le [Fintype κ] {a : MutexAction κ} (h : Sound s) (hstep : s.step a = some t) :
    measure t + takes a ≤ measure s + adds a := by
  rcases h with h | h
  · by_cases hclose : a = .close
    · subst hclose
      obtain rfl := Option.some.inj hstep
      exact Nat.add_le_add_right (Finset.sum_le_sum fun d _ => rank_cancelled _) _
    · cases MutexState.step_spec hclose h.core hstep with
      | lock hidle hloop => exact hloop.measure_le h.core hidle
      | @resume c t hwoken hloop =>
          have hleave : measure (s.leaveReceive c) + 5 ≤ measure s :=
            measure_move hwoken (k := 0) (by simp only [rank]; omega)
          have hle := hloop.measure_le (h.core.leave_receive hwoken) (Function.update_self ..)
          simp only [takes, adds]
          omega
      | unlock hhold hunlock => exact hunlock.measure_lt h.core hhold
      | finish hsent => exact measure_move hsent (by simp only [rank, takes, adds]; omega)
  · exact (h.step_spec hstep).measure_le

lemma exec_measure_le [Fintype κ] {as : List (MutexAction κ)} (h : Sound s)
    (hexec : exec step s as = some t) :
    measure t + (as.map takes).sum ≤ measure s + (as.map adds).sum := by
  induction as generalizing s with
  | nil =>
      rw [exec_nil, Option.some_inj] at hexec
      rw [hexec]
      exact le_rfl
  | cons a as ih =>
      obtain ⟨u, hu, hrest⟩ := exec_cons_eq_some.mp hexec
      have hfirst := h.measure_le hu
      have hle := ih (step_sound h hu) hrest
      rw [List.map_cons, List.map_cons, List.sum_cons, List.sum_cons]
      omega

end MutexState

end Snova
