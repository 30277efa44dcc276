import Snova.Model.AsyncChannelMutex
import Mathlib.Algebra.BigOperators.Ring.Finset

/-!
# What the write mutex guarantees

The invariant `Core` ties the flag, the counter and the channel of an open `AsyncChannelMutex`
to where the coroutines stand.  It is proved for one stretch of code at a time: a coroutine
entering or re-entering the loop of `Lock` (`LoopSpec.core`), and an `Unlock`
(`UnlockSpec.core`); a run is then an induction over its steps (`step_spec`).
-/

namespace Snova.MutexState

open AsyncChannelMutex

variable {κ : Type} [DecidableEq κ]

/-! ## One stretch of `Lock` and of `Unlock`, case by case -/

/-- Everything the loop of `Lock` can do to the system, when run by the coroutine `c`. -/
inductive LoopSpec (s : MutexState κ) (c : κ) : MutexState κ → Prop
  | acquired (hfree : s.mutex.locked = false) :
      LoopSpec s c ⟨{ s.mutex with locked := true }, Function.update s.pc c .holding⟩
  | blocked {ch : Channel κ Bool} (hlocked : s.mutex.locked = true)
      (hbuffer : s.mutex.channel.buffer = []) (hsenders : s.mutex.channel.senders = [])
      (hbuffer' : ch.buffer = []) (hsenders' : ch.senders = [])
      (hreceivers' : ch.receivers = s.mutex.channel.receivers ++ [c])
      (hopen' : ch.isOpen = true) (hcap : ch.capacity = s.mutex.channel.capacity) :
      LoopSpec s c ⟨⟨ch, s.mutex.waitCount + 1, true⟩, Function.update s.pc c .waiting⟩
  | took {ch : Channel κ Bool} {m : Bool} {ms : List Bool} (hlocked : s.mutex.locked = true)
      (hbuffer : s.mutex.channel.buffer = m :: ms) (hreceivers : s.mutex.channel.receivers = [])
      (hsenders : s.mutex.channel.senders = []) (hbuffer' : ch.buffer = ms)
      (hreceivers' : ch.receivers = []) (hsenders' : ch.senders = [])
      (hopen' : ch.isOpen = true) (hcap : ch.capacity = s.mutex.channel.capacity) :
      LoopSpec s c ⟨⟨ch, s.mutex.waitCount + 1, true⟩, Function.update s.pc c (.woken false)⟩
  | refilled {ch : Channel κ Bool} {m m' : Bool} {ms : List Bool} {d : κ}
      {ds : List (κ × Bool)} (hlocked : s.mutex.locked = true)
      (hbuffer : s.mutex.channel.buffer = m :: ms) (hreceivers : s.mutex.channel.receivers = [])
      (hsenders : s.mutex.channel.senders = (d, m') :: ds) (hbuffer' : ch.buffer = ms ++ [m'])
      (hreceivers' : ch.receivers = []) (hsenders' : ch.senders = ds)
      (hopen' : ch.isOpen = true) (hcap : ch.capacity = s.mutex.channel.capacity) :
      LoopSpec s c ⟨⟨ch, s.mutex.waitCount + 1, true⟩,
        Function.update (Function.update s.pc d .sent) c (.woken false)⟩

lemma lockLoop_spec {s : MutexState κ} (c : κ) (hopen : s.mutex.channel.isOpen = true)
    (hcap : 0 < s.mutex.channel.capacity) :
    LoopSpec s c (s.afterLock c (s.mutex.lockLoop c)) := by
  unfold lockLoop
  by_cases hlocked : s.mutex.locked = true
  · rw [if_pos hlocked]
    have hspec := s.mutex.channel.receive_spec c hcap
    revert hspec
    generalize s.mutex.channel.receive c = r
    obtain ⟨ch, res⟩ := r
    intro hspec
    cases hspec with
    | taken hb hr hs hb' hr' hs' ho' hc' =>
        simp only [afterLock, wake, hlocked]
        exact .took hlocked hb hr hs hb' hr' hs' (ho'.trans hopen) hc'
    | refilled hb hr hs hb' hr' hs' ho' hc' =>
        simp only [afterLock, wake, hlocked]
        exact .refilled hlocked hb hr hs hb' hr' hs' (ho'.trans hopen) hc'
    | suspended ho hb hs hb' hs' hr' ho' hc' =>
        simp only [afterLock, hlocked]
        exact .blocked hlocked hb hs hb' hs' hr' ho' hc'
    | closed hclosed => exact absurd hopen (by simp [hclosed])
  · rw [if_neg hlocked]
    exact .acquired (by simpa using hlocked)

/-- Everything `Unlock` can do to the system on an open mutex, when run by `c`. -/
inductive UnlockSpec (s : MutexState κ) (c : κ) : MutexState κ → Prop
  | unwaited (hcount : s.mutex.waitCount = 0) :
      UnlockSpec s c ⟨{ s.mutex with locked := false }, Function.update s.pc c .idle⟩
  | handed {ch : Channel κ Bool} {r : κ} {rs : List κ} (hcount : 0 < s.mutex.waitCount)
      (hreceivers : s.mutex.channel.receivers = r :: rs) (hreceivers' : ch.receivers = rs)
      (hbuffer' : ch.buffer = []) (hsenders : s.mutex.channel.senders = [])
      (hsenders' : ch.senders = []) (hopen' : ch.isOpen = true)
      (hcap : ch.capacity = s.mutex.channel.capacity) :
      UnlockSpec s c ⟨⟨ch, s.mutex.waitCount, false⟩,
        Function.update (Function.update s.pc r (.woken false)) c .sent⟩
  | buffered {ch : Channel κ Bool} (hcount : 0 < s.mutex.waitCount)
      (hreceivers : s.mutex.channel.receivers = [])
      (hroom : s.mutex.channel.buffer.length < s.mutex.channel.capacity)
      (hsenders : s.mutex.channel.senders = []) (hreceivers' : ch.receivers = [])
      (hsenders' : ch.senders = []) (hopen' : ch.isOpen = true)
      (hcap : ch.capacity = s.mutex.channel.capacity) :
      UnlockSpec s c ⟨⟨ch, s.mutex.waitCount, false⟩, Function.update s.pc c .sent⟩
  | suspended {ch : Channel κ Bool} (hcount : 0 < s.mutex.waitCount)
      (hreceivers : s.mutex.channel.receivers = [])
      (hfull : s.mutex.channel.buffer.length = s.mutex.channel.capacity)
      (hreceivers' : ch.receivers = [])
      (hsenders' : ch.senders = s.mutex.channel.senders ++ [(c, true)])
      (hopen' : ch.isOpen = true) (hcap : ch.capacity = s.mutex.channel.capacity) :
      UnlockSpec s c ⟨⟨ch, s.mutex.waitCount, false⟩, Function.update s.pc c .sending⟩

lemma unlock_spec {s : MutexState κ} (c : κ) (hopen : s.mutex.channel.isOpen = true) :
    UnlockSpec s c (s.afterUnlock c (s.mutex.unlock c)) := by
  unfold unlock
  rw [if_pos hopen]
  by_cases hcount : 0 < s.mutex.waitCount
  · simp only [if_pos hcount]
    have hspec := s.mutex.channel.send_spec c true
    revert hspec
    generalize s.mutex.channel.send c true = r
    obtain ⟨ch, res⟩ := r
    intro hspec
    cases hspec with
    | handed ho hr hr' hb hs hb' hs' ho' hc' =>
        exact .handed hcount hr hr' hb' hs hs' ho' hc'
    | buffered ho hr hroom hs hr' hb' hs' ho' hc' =>
        exact .buffered hcount hr hroom hs hr' hs' ho' hc'
    | suspended ho hr hfull hr' hb' hs' ho' hc' =>
        exact .suspended hcount hr hfull hr' hs' ho' hc'
    | closed hclosed => exact absurd hopen (by simp [hclosed])
  · simp only [if_neg hcount]
    exact .unwaited (by omega)

/-! ## The invariant -/

/-- Suspended in the receive of `Lock`, or woken from it and not yet resumed. -/
def inReceive : LockPc → Bool
  | .waiting => true
  | .woken _ => true
  | _ => false

/-- What a coroutine contributes to `wait_count_`. -/
def waits (p : LockPc) : ℕ := (inReceive p).toNat

/-- The state of an open mutex agrees with where its coroutines stand. -/
structure Core [Fintype κ] (s : MutexState κ) : Prop where
  isOpen : s.mutex.channel.isOpen = true
  capacity : s.mutex.channel.capacity = 1
  waiting : ∀ d, s.pc d = .waiting ↔ d ∈ s.mutex.channel.receivers
  receivers_nodup : s.mutex.channel.receivers.Nodup
  sending : ∀ d, s.pc d = .sending ↔ d ∈ s.mutex.channel.senders.map Prod.fst
  senders_nodup : (s.mutex.channel.senders.map Prod.fst).Nodup
  live : ∀ d, s.pc d ≠ .woken true ∧ s.pc d ≠ .passing
  holder : s.mutex.locked = true ↔ ∃ d, s.pc d = .holding
  exclusive : ∀ d e, s.pc d = .holding → s.pc e = .holding → d = e
  count : s.mutex.waitCount = weight waits s.pc

variable [Fintype κ] {s t : MutexState κ} {c : κ}

omit [DecidableEq κ] in
lemma core_init : Core (init : MutexState κ) where
  isOpen := rfl
  capacity := rfl
  waiting := fun d => by simp [init, AsyncChannelMutex.new]
  receivers_nodup := List.nodup_nil
  sending := fun d => by simp [init, AsyncChannelMutex.new]
  senders_nodup := List.nodup_nil
  live := fun d => by simp [init]
  holder := by simp [init, AsyncChannelMutex.new]
  exclusive := fun d e h => by simp [init] at h
  count := by simp [init, AsyncChannelMutex.new, weight, waits, inReceive]

/-! ## The parts of the invariant

Who waits, who sends and who holds the lock are three queues of coroutines, the last with one
member at most. -/

omit [DecidableEq κ] in
lemma Core.waiting_queued (h : Core s) : Queued s.pc .waiting s.mutex.channel.receivers :=
  ⟨h.waiting, h.receivers_nodup⟩

omit [DecidableEq κ] in
lemma Core.sending_queued (h : Core s) :
    Queued s.pc .sending (s.mutex.channel.senders.map Prod.fst) :=
  ⟨h.sending, h.senders_nodup⟩

omit [DecidableEq κ] in
lemma Core.free_queued (h : Core s) (hfree : s.mutex.locked = false) : Queued s.pc .holding [] := by
  refine ⟨fun d => iff_of_false (fun hd => ?_) (by simp), List.nodup_nil⟩
  rw [h.holder.mpr ⟨d, hd⟩] at hfree
  cases hfree

omit [DecidableEq κ] in
lemma Core.holding_queued (h : Core s) (hhold : s.pc c = .holding) : Queued s.pc .holding [c] := by
  refine ⟨fun d => ?_, List.nodup_singleton c⟩
  rw [List.mem_singleton]
  constructor
  · intro hd
    exact h.exclusive d c hd hhold
  · rintro rfl
    exact hhold

omit [DecidableEq κ] in
lemma core_of_queues {m : AsyncChannelMutex κ} {pc : κ → LockPc} {owners : List κ}
    (isOpen : m.channel.isOpen = true) (capacity : m.channel.capacity = 1)
    (waiting : Queued pc .waiting m.channel.receivers)
    (sending : Queued pc .sending (m.channel.senders.map Prod.fst))
    (live : ∀ d, pc d ≠ .woken true ∧ pc d ≠ .passing)
    (holding : Queued pc .holding owners) (locked : owners.length = m.locked.toNat)
    (count : m.waitCount = weight waits pc) : Core ⟨m, pc⟩ := by
  have hle := m.locked.toNat_le
  refine ⟨isOpen, capacity, waiting.mem_iff, waiting.nodup, sending.mem_iff, sending.nodup, live,
    ?_, ?_, count⟩
  · change m.locked = true ↔ ∃ d, pc d = .holding
    simp only [holding.mem_iff]
    cases hlocked : m.locked with
    | true =>
        rw [hlocked] at locked
        exact iff_of_true rfl (List.exists_mem_of_length_pos (by rw [locked]; decide))
    | false =>
        rw [hlocked] at locked
        rw [List.eq_nil_of_length_eq_zero locked]
        simp
  · intro d e hd he
    obtain ⟨owner, hsub⟩ : ∃ owner, owners ⊆ [owner] := by
      match owners, locked with
      | [], _ => exact ⟨d, List.nil_subset _⟩
      | [owner], _ => exact ⟨owner, List.Subset.refl _⟩
      | _ :: _ :: owners, locked =>
          rw [List.length_cons, List.length_cons] at locked
          omega
    rw [List.mem_singleton.mp (hsub ((holding.mem_iff d).mp hd)),
      List.mem_singleton.mp (hsub ((holding.mem_iff e).mp he))]

omit [Fintype κ] in
lemma live_update {f : κ → LockPc} {p : LockPc} (h : ∀ d, f d ≠ .woken true ∧ f d ≠ .passing)
    (hp : p ≠ .woken true ∧ p ≠ .passing) (d : κ) :
    Function.update f c p d ≠ .woken true ∧ Function.update f c p d ≠ .passing := by
  by_cases hd : d = c
  · rw [hd, Function.update_self]
    exact hp
  · rw [Function.update_of_ne hd]
    exact h d

lemma count_update {f : κ → LockPc} {p : LockPc} {n n' : ℕ} (h : n = weight waits f)
    (hn : n' + waits (f c) = n + waits p) : n' = weight waits (Function.update f c p) := by
  have hweight := weight_update waits f c p
  omega

/-- A coroutine outside `Lock` that runs its loop keeps the invariant, and leaves the lock
taken: either it has taken it, or it has found it taken and waits. -/
lemma LoopSpec.core (hspec : LoopSpec s c t) (h : Core s) (hidle : s.pc c = .idle) :
    Core t ∧ t.mutex.locked = true := by
  have hwaiting := h.waiting_queued
  have hsending := h.sending_queued
  cases hspec with
  | acquired hfree =>
      refine ⟨core_of_queues h.isOpen h.capacity (hwaiting.keep (by simp [hidle]) (by simp))
        (hsending.keep (by simp [hidle]) (by simp)) (live_update h.live (by simp))
        ((h.free_queued hfree).push (by simp [hidle])) rfl (count_update h.count ?_), rfl⟩
      rw [hidle]
      rfl
  | blocked hlocked hb hse hb' hse' hr' ho' hc' =>
      obtain ⟨d, hd⟩ := h.holder.mp hlocked
      refine ⟨core_of_queues ho' (hc'.trans h.capacity) ?_ ?_ (live_update h.live (by simp))
        ((h.holding_queued hd).keep (by simp [hidle]) (by simp)) rfl (count_update h.count ?_), rfl⟩
      · rw [hr']
        exact hwaiting.push (by simp [hidle])
      · rw [hse] at hsending
        rw [hse']
        exact hsending.keep (by simp [hidle]) (by simp)
      · rw [hidle]
        rfl
  | took hlocked hb hr hse hb' hr' hse' ho' hc' =>
      obtain ⟨d, hd⟩ := h.holder.mp hlocked
      rw [hr] at hwaiting
      rw [hse] at hsending
      refine ⟨core_of_queues ho' (hc'.trans h.capacity) ?_ ?_ (live_update h.live (by simp))
        ((h.holding_queued hd).keep (by simp [hidle]) (by simp)) rfl (count_update h.count ?_), rfl⟩
      · rw [hr']
        exact hwaiting.keep (by simp [hidle]) (by simp)
      · rw [hse']
        exact hsending.keep (by simp [hidle]) (by simp)
      · rw [hidle]
        rfl
  | @refilled ch _ _ _ e _ hlocked hb hr hse hb' hr' hse' ho' hc' =>
      obtain ⟨d, hd⟩ := h.holder.mp hlocked
      have he : s.pc e = .sending := (h.sending e).mpr (by simp [hse])
      have hne : c ≠ e := by rintro rfl; rw [hidle] at he; cases he
      have hidle' : Function.update s.pc e .sent c = .idle := by
        rw [Function.update_of_ne hne, hidle]
      rw [hr] at hwaiting
      rw [hse, List.map_cons] at hsending
      -- first the completed sender leaves its queue, then `c` is counted
      have hcount := count_update (c := e) (p := .sent) h.count (by rw [he]; rfl)
      refine ⟨core_of_queues ho' (hc'.trans h.capacity) ?_ ?_
        (live_update (live_update h.live (by simp)) (by simp))
        (((h.holding_queued hd).keep (by simp [he]) (by simp)).keep (by simp [hidle']) (by simp))
        rfl (count_update hcount ?_), rfl⟩
      · rw [hr']
        exact (hwaiting.keep (by simp [he]) (by simp)).keep (by simp [hidle']) (by simp)
      · rw [hse']
        exact (hsending.pop (by simp)).keep (by simp [hidle']) (by simp)
      · rw [hidle']
        rfl

/-- The coroutine `c` has left the receive of `Lock`. -/
def leaveReceive (s : MutexState κ) (c : κ) : MutexState κ :=
  ⟨{ s.mutex with waitCount := s.mutex.waitCount - 1 }, Function.update s.pc c .idle⟩

/-- A coroutine with nothing to do but return becomes idle, and is no longer counted. -/
lemma Core.become_idle (h : Core s) (hc : s.pc c = .woken false ∨ s.pc c = .sent) {n : ℕ}
    (hn : n + waits (s.pc c) = s.mutex.waitCount) :
    Core ⟨{ s.mutex with waitCount := n }, Function.update s.pc c .idle⟩ := by
  have hne : s.pc c ≠ .waiting ∧ s.pc c ≠ .sending ∧ s.pc c ≠ .holding := by
    rcases hc with hc | hc
    · simp [hc]
    · simp [hc]
  have hcount := count_update (p := .idle) h.count hn
  have hwaiting := h.waiting_queued.keep (x := .idle) hne.1 (by simp)
  have hsending := h.sending_queued.keep (x := .idle) hne.2.1 (by simp)
  have hlive := live_update (c := c) (p := .idle) h.live (by simp)
  cases hlocked : s.mutex.locked with
  | true =>
      obtain ⟨d, hd⟩ := h.holder.mp hlocked
      exact core_of_queues h.isOpen h.capacity hwaiting hsending hlive
        ((h.holding_queued hd).keep hne.2.2 (by simp)) (by simp [hlocked]) hcount
  | false =>
      exact core_of_queues h.isOpen h.capacity hwaiting hsending hlive
        ((h.free_queued hlocked).keep hne.2.2 (by simp)) (by simp [hlocked]) hcount

lemma Core.leave_receive (h : Core s) (hwoken : s.pc c = .woken false) :
    Core (s.leaveReceive c) := by
  have hpos : 0 < s.mutex.waitCount := by
    rw [h.count]
    exact weight_pos_of_mem (c := c) (by rw [hwoken]; decide)
  refine h.become_idle (.inl hwoken) ?_
  rw [hwoken]
  exact Nat.sub_add_cancel hpos

/-- `Unlock` keeps the invariant, and whenever it leaves a blocked waiter behind it has woken
another one. -/
lemma UnlockSpec.core (hspec : UnlockSpec s c t) (h : Core s) (hhold : s.pc c = .holding) :
    Core t ∧ (t.mutex.channel.receivers ≠ [] → ∃ d, t.pc d = .woken false) := by
  have hwaiting := h.waiting_queued
  have hsending := h.sending_queued
  have hholding := h.holding_queued hhold
  cases hspec with
  | unwaited hcount =>
      refine ⟨core_of_queues h.isOpen h.capacity (hwaiting.keep (by simp [hhold]) (by simp))
        (hsending.keep (by simp [hhold]) (by simp)) (live_update h.live (by simp))
        (hholding.pop (by simp)) rfl (count_update h.count ?_), fun hr => ?_⟩
      · rw [hhold]
        rfl
      · -- a blocked receiver would have been counted
        obtain ⟨r, hr⟩ := List.exists_mem_of_ne_nil _ hr
        have hpos : 0 < weight waits s.pc :=
          weight_pos_of_mem (c := r) (by rw [(h.waiting r).mpr hr]; decide)
        rw [← h.count, hcount] at hpos
        exact absurd hpos (by simp)
  | @handed ch r rs hcount hr hr' hb' hse hse' ho' hc' =>
      have hwait : s.pc r = .waiting := (h.waiting r).mpr (by simp [hr])
      have hne : c ≠ r := by rintro rfl; rw [hhold] at hwait; cases hwait
      have hhold' : Function.update s.pc r (.woken false) c = .holding := by
        rw [Function.update_of_ne hne, hhold]
      rw [hr] at hwaiting
      rw [hse] at hsending
      have hcount' := count_update (c := r) (p := .woken false) h.count (by rw [hwait]; rfl)
      refine ⟨core_of_queues ho' (hc'.trans h.capacity) ?_ ?_
        (live_update (live_update h.live (by simp)) (by simp))
        ((hholding.keep (by simp [hwait]) (by simp)).pop (by simp)) rfl (count_update hcount' ?_),
        fun _ => ⟨r, ?_⟩⟩
      · rw [hr']
        exact (hwaiting.pop (by simp)).keep (by simp [hhold']) (by simp)
      · rw [hse']
        exact (hsending.keep (by simp [hwait]) (by simp)).keep (by simp [hhold']) (by simp)
      · rw [hhold']
        rfl
      · exact (Function.update_of_ne hne.symm _ _).trans (Function.update_self _ _ _)
  | buffered hcount hr hroom hse hr' hse' ho' hc' =>
      rw [hr] at hwaiting
      rw [hse] at hsending
      refine ⟨core_of_queues ho' (hc'.trans h.capacity) ?_ ?_ (live_update h.live (by simp))
        (hholding.pop (by simp)) rfl (count_update h.count ?_), fun hne => absurd hr' hne⟩
      · rw [hr']
        exact hwaiting.keep (by simp [hhold]) (by simp)
      · rw [hse']
        exact hsending.keep (by simp [hhold]) (by simp)
      · rw [hhold]
        rfl
  | suspended hcount hr hfull hr' hse' ho' hc' =>
      rw [hr] at hwaiting
      refine ⟨core_of_queues ho' (hc'.trans h.capacity) ?_ ?_ (live_update h.live (by simp))
        (hholding.pop (by simp)) rfl (count_update h.count ?_), fun hne => absurd hr' hne⟩
      · rw [hr']
        exact hwaiting.keep (by simp [hhold]) (by simp)
      · rw [hse', List.map_append]
        exact hsending.push (by simp [hhold])
      · rw [hhold]
        rfl

/-! ## Runs of an open mutex -/

/-- The invariant of an open mutex: the bookkeeping is right, and a free lock with a blocked
waiter has another waiter on its way. -/
structure Inv (s : MutexState κ) : Prop where
  core : Core s
  wakeup : s.mutex.locked = false → s.mutex.channel.receivers ≠ [] → ∃ d, s.pc d = .woken false

omit [DecidableEq κ] in
lemma inv_init : Inv (init : MutexState κ) :=
  ⟨core_init, fun _ h => absurd rfl h⟩

/-- A stretch of `Lock` ends with the lock taken, so the second half of the invariant holds
after it whatever it was before. -/
lemma LoopSpec.inv (hspec : LoopSpec s c t) (h : Core s) (hidle : s.pc c = .idle) : Inv t := by
  obtain ⟨hcore, hlocked⟩ := hspec.core h hidle
  exact ⟨hcore, fun hfree => by rw [hlocked] at hfree; cases hfree⟩

omit [Fintype κ] in
/-- Leaving the receive and running the loop is the loop run from outside `Lock`. -/
lemma afterLock_lockResume (s : MutexState κ) (c : κ) :
    s.afterLock c (s.mutex.lockResume c false) =
      (s.leaveReceive c).afterLock c ((s.leaveReceive c).mutex.lockLoop c) := by
  unfold lockResume leaveReceive
  simp only [Bool.false_eq_true, if_false]
  generalize lockLoop _ c = r
  obtain ⟨m, res⟩ := r
  cases res with
  | acquired => simp [afterLock]
  | returned => simp [afterLock]
  | suspended => simp [afterLock]
  | completed ec unblocked =>
      cases unblocked with
      | none => simp [afterLock, wake]
      | some d =>
          by_cases hd : d = c
          · subst hd; simp [afterLock, wake]
          · simp [afterLock, wake, Function.update_comm hd]

/-- Everything a step can do to an open mutex. -/
inductive StepSpec (s : MutexState κ) : MutexAction κ → MutexState κ → Prop
  | lock {c : κ} {t : MutexState κ} (hidle : s.pc c = .idle) (hloop : LoopSpec s c t) :
      StepSpec s (.lock c) t
  | resume {c : κ} {t : MutexState κ} (hwoken : s.pc c = .woken false)
      (hloop : LoopSpec (s.leaveReceive c) c t) : StepSpec s (.resume c) t
  | unlock {c : κ} {t : MutexState κ} (hhold : s.pc c = .holding) (hunlock : UnlockSpec s c t) :
      StepSpec s (.unlock c) t
  | finish {c : κ} (hsent : s.pc c = .sent) :
      StepSpec s (.finish c) ⟨s.mutex, Function.update s.pc c .idle⟩

lemma step_spec {a : MutexAction κ} (hclose : a ≠ .close) (h : Core s)
    (hstep : s.step a = some t) : StepSpec s a t := by
  have hpos : 0 < s.mutex.channel.capacity := by rw [h.capacity]; exact Nat.one_pos
  cases a with
  | close => exact absurd rfl hclose
  | lock c =>
      simp only [step, Option.ite_none_right_eq_some, Option.some_inj] at hstep
      obtain ⟨hidle, rfl⟩ := hstep
      rw [show s.mutex.lock c = s.mutex.lockLoop c from if_pos h.isOpen]
      exact .lock hidle (lockLoop_spec c h.isOpen hpos)
  | resume c =>
      simp only [step] at hstep
      split at hstep
      · rename_i ec hwoken
        cases ec with
        | true => exact absurd hwoken (h.live c).1
        | false =>
            rw [Option.some_inj, afterLock_lockResume] at hstep
            subst hstep
            exact .resume hwoken (lockLoop_spec c h.isOpen hpos)
      · cases hstep
  | unlock c =>
      simp only [step, Option.ite_none_right_eq_some, Option.some_inj] at hstep
      obtain ⟨hpc, rfl⟩ := hstep
      exact .unlock (hpc.resolve_right (h.live c).2) (unlock_spec c h.isOpen)
  | finish c =>
      simp only [step, Option.ite_none_right_eq_some, Option.some_inj] at hstep
      obtain ⟨hsent, rfl⟩ := hstep
      exact .finish hsent

/-- A coroutine whose send has completed leaves `Unlock`. -/
lemma Inv.finish (h : Inv s) (hsent : s.pc c = .sent) :
    Inv ⟨s.mutex, Function.update s.pc c .idle⟩ := by
  refine ⟨h.core.become_idle (.inr hsent) (by rw [hsent]; rfl), ?_⟩
  intro hfree hr
  obtain ⟨d, hd⟩ := h.wakeup hfree hr
  refine ⟨d, ?_⟩
  have hne : d ≠ c := by
    rintro rfl
    rw [hsent] at hd
    cases hd
  exact (Function.update_of_ne hne _ _).trans hd

/-- **One step of an open mutex keeps the invariant.** -/
lemma step_inv {a : MutexAction κ} (hclose : a ≠ .close) (h : Inv s)
    (hstep : s.step a = some t) : Inv t := by
  cases step_spec hclose h.core hstep with
  | lock hidle hloop => exact hloop.inv h.core hidle
  | resume hwoken hloop =>
      exact hloop.inv (h.core.leave_receive hwoken) (Function.update_self _ _ _)
  | unlock hhold hunlock =>
      obtain ⟨hcore, hwake⟩ := hunlock.core h.core hhold
      exact ⟨hcore, fun _ => hwake⟩
  | finish hsent => exact h.finish hsent

/-- Who takes a step. -/
def actor : MutexAction κ → Option κ
  | .lock c => some c
  | .resume c => some c
  | .unlock c => some c
  | .finish c => some c
  | .close => none

/-- A stretch of `Lock` makes nobody else take or lose the lock: the sender it may complete was
not holding it. -/
lemma LoopSpec.holding_of_ne (hspec : LoopSpec s c t) (h : Core s) {d : κ} (hd : d ≠ c) :
    t.pc d = .holding ↔ s.pc d = .holding := by
  cases hspec with
  | acquired => simp only [Function.update_of_ne hd]
  | blocked => simp only [Function.update_of_ne hd]
  | took => simp only [Function.update_of_ne hd]
  | @refilled ch _ _ _ e _ _ _ _ hs =>
      have he : s.pc e = .sending := (h.sending e).mpr (by simp [hs])
      simp only [Function.update_of_ne hd]
      by_cases hde : d = e
      · subst hde
        simp [he]
      · rw [Function.update_of_ne hde]

lemma UnlockSpec.holding_of_ne (hspec : UnlockSpec s c t) (h : Core s) {d : κ} (hd : d ≠ c) :
    t.pc d = .holding ↔ s.pc d = .holding := by
  cases hspec with
  | unwaited => simp only [Function.update_of_ne hd]
  | buffered => simp only [Function.update_of_ne hd]
  | suspended => simp only [Function.update_of_ne hd]
  | @handed ch r rs _ hr =>
      have hw : s.pc r = .waiting := (h.waiting r).mpr (by simp [hr])
      simp only [Function.update_of_ne hd]
      by_cases hdr : d = r
      · subst hdr
        simp [hw]
      · rw [Function.update_of_ne hdr]

/-- Only its own steps give a coroutine the lock or take it away. -/
lemma step_holding_of_ne {a : MutexAction κ} (hclose : a ≠ .close) (h : Core s)
    (hstep : s.step a = some t) {d : κ} (hd : actor a ≠ some d) :
    t.pc d = .holding ↔ s.pc d = .holding := by
  have hne : ∀ {c}, actor a = some c → d ≠ c := fun hc hdc => hd (hdc ▸ hc)
  cases step_spec hclose h hstep with
  | lock hidle hloop => exact hloop.holding_of_ne h (hne rfl)
  | resume hwoken hloop =>
      rw [hloop.holding_of_ne (h.leave_receive hwoken) (hne rfl)]
      simp only [leaveReceive, Function.update_of_ne (hne rfl)]
  | unlock hhold hunlock => exact hunlock.holding_of_ne h (hne rfl)
  | finish hsent => simp only [Function.update_of_ne (hne rfl)]

lemma step_unlock_not_holding (h : Core s) (hstep : s.step (.unlock c) = some t) :
    t.pc c ≠ .holding := by
  cases step_spec (by simp) h hstep with
  | unlock hhold hunlock => cases hunlock <;> simp

lemma run_inv {as : List (MutexAction κ)} (hclose : .close ∉ as)
    (h : exec step init as = some s) : Inv s :=
  exec_invariant_along (C := fun _ a => a ≠ .close)
    (fun _ _ _ hs hC hstep => step_inv hC hs hstep) inv_init
    (along_of_forall (fun _ ha _ => ne_of_mem_of_not_mem ha hclose) _) h

/-- **The write mutex excludes, counts and wakes.**  In every state any number of coroutines
can reach on an open mutex: at most one is between a successful `Lock` and its `Unlock`;
`wait_count_` is the number of coroutines in the receive of `Lock`, woken or not; and when the
lock is free and a coroutine is blocked, another waiter has been handed a token and is about to
resume. -/
theorem writeMutex_excludes_and_wakes (as : List (MutexAction κ)) (hclose : .close ∉ as)
    (h : exec step init as = some s) :
    (∀ c d, s.pc c = .holding → s.pc d = .holding → c = d) ∧
      s.mutex.waitCount = (Finset.univ.filter fun c => inReceive (s.pc c) = true).card ∧
      (s.mutex.locked = false → ∀ c, s.pc c = .waiting → ∃ d, d ≠ c ∧ s.pc d = .woken false) := by
  obtain ⟨hcore, hwake⟩ := run_inv hclose h
  refine ⟨hcore.exclusive, ?_, ?_⟩
  · rw [hcore.count, Finset.card_filter, weight]
    exact Finset.sum_congr rfl fun c _ => by cases hc : inReceive (s.pc c) <;> simp [waits, hc]
  · intro hfree c hc
    have hmem := (hcore.waiting c).mp hc
    obtain ⟨d, hd⟩ := hwake hfree (List.ne_nil_of_mem hmem)
    refine ⟨d, fun hdc => ?_, hd⟩
    rw [hdc, hc] at hd
    cases hd

/-- The exclusion above at a schedule where the second coroutine has to wait for the first. -/
theorem writeMutex_excludes_two_coroutines :
    ∃ s : MutexState (Fin 2),
      exec step init [.lock 0, .lock 1, .unlock 0] = some s ∧ s.mutex.waitCount = 1 ∧
      s.pc 1 = .woken false ∧ ∀ c d, s.pc c = .holding → s.pc d = .holding → c = d := by
  refine ⟨_, rfl, rfl, rfl, ?_⟩
  exact (writeMutex_excludes_and_wakes [.lock 0, .lock 1, .unlock 0] (by decide) rfl).1

/-! ## When `Unlock` finds no room

`wait_count_` drops only when a woken waiter resumes.  Until it does, every `Unlock` sends a
token, and the channel has one place.  The send finds no room exactly when the lock is taken
while a token is still in the channel and a waiter is still counted. -/

/-- The coroutine that takes a free lock leaves no token in the channel behind a counted waiter.
For a resuming waiter, `wait_count_` still counts the coroutine itself. -/
def NoStaleToken (s : MutexState κ) : MutexAction κ → Prop
  | .lock _ =>
      s.mutex.locked = false → 0 < s.mutex.waitCount → s.mutex.channel.buffer = []
  | .resume _ =>
      s.mutex.locked = false → 1 < s.mutex.waitCount → s.mutex.channel.buffer = []
  | _ => True

/-- While the lock is held, a token in the channel means that nobody is counted as waiting. -/
structure Roomy (s : MutexState κ) : Prop where
  inv : Inv s
  senders : s.mutex.channel.senders = []
  held : s.mutex.locked = true → 0 < s.mutex.waitCount → s.mutex.channel.buffer = []

omit [Fintype κ] in
/-- The loop of `Lock` keeps the room, provided it starts with it. -/
lemma LoopSpec.room (hspec : LoopSpec s c t) (hcap : s.mutex.channel.capacity = 1)
    (hsenders : s.mutex.channel.senders = [])
    (hheld : 0 < s.mutex.waitCount → s.mutex.channel.buffer = []) :
    t.mutex.channel.senders = [] ∧
      (0 < t.mutex.waitCount → t.mutex.channel.buffer = []) := by
  cases hspec with
  | acquired hfree => exact ⟨hsenders, hheld⟩
  | blocked _ _ _ hb' hs' => exact ⟨hs', fun _ => hb'⟩
  | took _ hb _ _ hb' _ hs' =>
      -- The one buffered token is the one that is taken.
      have hle := s.mutex.channel.buffer_le
      rw [hb, hcap, List.length_cons] at hle
      exact ⟨hs', fun _ => hb'.trans (List.eq_nil_of_length_eq_zero (by omega))⟩
  | refilled _ _ _ hs => rw [hsenders] at hs; cases hs

omit [Fintype κ] in
/-- `Unlock` of a held lock finds a receiver or room. -/
lemma UnlockSpec.room (hspec : UnlockSpec s c t) (hcap : s.mutex.channel.capacity = 1)
    (hsenders : s.mutex.channel.senders = [])
    (hheld : 0 < s.mutex.waitCount → s.mutex.channel.buffer = []) :
    t.mutex.channel.senders = [] ∧ t.mutex.locked = false := by
  cases hspec with
  | unwaited hcount => exact ⟨hsenders, rfl⟩
  | handed _ _ _ _ _ hs' => exact ⟨hs', rfl⟩
  | buffered _ _ _ _ _ hs' => exact ⟨hs', rfl⟩
  | suspended hcount _ hfull =>
      rw [hheld hcount, hcap] at hfull
      cases hfull

lemma step_roomy {a : MutexAction κ} (hclose : a ≠ .close) (hstale : NoStaleToken s a)
    (h : Roomy s) (hstep : s.step a = some t) : Roomy t := by
  obtain ⟨hinv, hsenders, hheld⟩ := h
  have hinv' := step_inv hclose hinv hstep
  have hcap := hinv.core.capacity
  cases step_spec hclose hinv.core hstep with
  | lock hidle hloop =>
      have hroom := hloop.room hcap hsenders fun hw => by
        cases hl : s.mutex.locked with
        | true => exact hheld hl hw
        | false => exact hstale hl hw
      exact ⟨hinv', hroom.1, fun _ => hroom.2⟩
  | @resume c _ hwoken hloop =>
      have hcounted : 0 < s.mutex.waitCount := by
        rw [hinv.core.count]
        exact weight_pos_of_mem (c := c) (by rw [hwoken]; decide)
      have hroom := hloop.room hcap hsenders fun hw => by
        change 0 < s.mutex.waitCount - 1 at hw
        cases hl : s.mutex.locked with
        | true => exact hheld hl hcounted
        | false => exact hstale hl (by omega)
      exact ⟨hinv', hroom.1, fun _ => hroom.2⟩
  | unlock hhold hunlock =>
      have hroom := hunlock.room hcap hsenders (hheld (hinv.core.holder.mpr ⟨_, hhold⟩))
      refine ⟨hinv', hroom.1, fun hl => ?_⟩
      rw [hroom.2] at hl
      cases hl
  | finish hsent => exact ⟨hinv', hsenders, hheld⟩

omit [Fintype κ] in
lemma LoopSpec.eq_of_free (hspec : LoopSpec s c t) (hfree : s.mutex.locked = false) :
    t = ⟨{ s.mutex with locked := true }, Function.update s.pc c .holding⟩ := by
  cases hspec with
  | acquired => rfl
  | blocked hlocked => rw [hfree] at hlocked; cases hlocked
  | took hlocked => rw [hfree] at hlocked; cases hlocked
  | refilled hlocked => rw [hfree] at hlocked; cases hlocked

/-- A step that takes the lock in front of a stale token leaves the token where it is. -/
lemma take_before_stale_token (h : Core s) {a : MutexAction κ} (ha : a = .lock c ∨ a = .resume c)
    (hstale : ¬ NoStaleToken s a) (hstep : s.step a = some t) :
    t.pc c = .holding ∧ 0 < t.mutex.waitCount ∧ t.mutex.channel = s.mutex.channel ∧
      s.mutex.channel.buffer ≠ [] := by
  rcases ha with rfl | rfl
  · simp only [NoStaleToken, Classical.not_imp] at hstale
    obtain ⟨hfree, hcount, hbuffer⟩ := hstale
    cases step_spec (by simp) h hstep with
    | lock hidle hloop =>
        rw [hloop.eq_of_free hfree]
        exact ⟨Function.update_self _ _ _, hcount, rfl, hbuffer⟩
  · simp only [NoStaleToken, Classical.not_imp] at hstale
    obtain ⟨hfree, hcount, hbuffer⟩ := hstale
    cases step_spec (by simp) h hstep with
    | resume hwoken hloop =>
        rw [hloop.eq_of_free hfree]
        exact ⟨Function.update_self _ _ _, Nat.sub_pos_of_lt hcount, rfl, hbuffer⟩

/-- A coroutine that takes the lock in front of a stale token and releases it at once, as
`MuxConnection::Write` does when `Encrypt` fails, is suspended in `Unlock`. -/
lemma unlock_suspends (h : Inv s) {a : MutexAction κ} (ha : a = .lock c ∨ a = .resume c)
    (hstale : ¬ NoStaleToken s a) (hstep : s.step a = some t) :
    ∃ u, t.step (.unlock c) = some u ∧ u.pc c = .sending := by
  obtain ⟨hhold, hcount, hch, hbuffer⟩ := take_before_stale_token h.core ha hstale hstep
  refine ⟨t.afterUnlock c (t.mutex.unlock c), by simp [step, hhold], ?_⟩
  have hspec := unlock_spec (s := t) c (by rw [hch]; exact h.core.isOpen)
  revert hspec
  generalize t.afterUnlock c (t.mutex.unlock c) = u
  intro hspec
  cases hspec with
  | unwaited hzero => omega
  | handed _ hr =>
      rw [hch] at hr
      exact absurd (s.mutex.channel.receivers_idle (by simp [hr])).1 hbuffer
  | buffered _ _ hroom =>
      rw [hch, h.core.capacity] at hroom
      exact absurd (List.eq_nil_of_length_eq_zero (by omega)) hbuffer
  | suspended => simp

/-- **When no coroutine is suspended in `Unlock`.**  In every run of an open mutex in which the
lock is never taken in front of a stale token, no state has a coroutine waiting for room in the
`async_send` of `Unlock`.  The condition is exact: from any state of any run, a coroutine that
takes the lock against it and releases it at once is suspended there. -/
theorem unlock_never_suspends_of_noStaleToken :
    (∀ (as : List (MutexAction κ)) (s : MutexState κ), .close ∉ as →
        Along step NoStaleToken init as → exec step init as = some s →
        ∀ c, s.pc c ≠ .sending) ∧
      ∀ (as : List (MutexAction κ)) (s t : MutexState κ) (c : κ) (a : MutexAction κ),
        .close ∉ as → exec step init as = some s → (a = .lock c ∨ a = .resume c) →
        ¬ NoStaleToken s a → s.step a = some t →
        ∃ u, t.step (.unlock c) = some u ∧ u.pc c = .sending := by
  refine ⟨fun as s hclose hstale h c hc => ?_, fun as s t c a hclose h => ?_⟩
  · have hroomy : Roomy s :=
      exec_invariant_along (C := fun s a => a ≠ .close ∧ NoStaleToken s a)
        (fun _ _ _ hs hC hstep => step_roomy hC.1 hC.2 hs hstep)
        ⟨inv_init, rfl, fun hl => by cases hl⟩
        ((along_of_forall (fun _ ha _ => ne_of_mem_of_not_mem ha hclose) _).and hstale) h
    have hmem := (hroomy.inv.core.sending c).mp hc
    rw [hroomy.senders] at hmem
    cases hmem
  · exact unlock_suspends (run_inv hclose h)

/-- Three coroutines: `1` has been handed the token and has not resumed, `2` and `3` take and
release the free lock one after the other; the second token finds the place taken. -/
def staleTokenRun : List (MutexAction (Fin 4)) :=
  [.lock 0, .lock 1, .unlock 0, .lock 2, .unlock 2, .lock 3, .unlock 3]

/-- A coroutine suspended in `Unlock` while the lock is free. -/
theorem unlock_suspends_on_free_lock :
    ¬ ∀ (as : List (MutexAction (Fin 4))) (s : MutexState (Fin 4)), .close ∉ as →
        exec step init as = some s → ∀ c, s.pc c ≠ .sending := by
  intro h
  have hrun : ((exec step init staleTokenRun).map fun s => s.pc 3) = some .sending := rfl
  obtain ⟨s, hs, hpc⟩ := Option.map_eq_some_iff.mp hrun
  exact h staleTokenRun s (by decide) hs 3 hpc

end Snova.MutexState
