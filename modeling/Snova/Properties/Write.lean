import Snova.Model.Nanopb
import Snova.Model.Write
import Snova.Properties.CipherContext
import Snova.Properties.WriteMutex

/-!
# What concurrent writers put on the wire

Any number of coroutines call `MuxConnection::Write` on one connection.  While it is open, the
coroutine in `AsyncWrite` is the one that holds the write mutex, so the shared buffer is its
frame and the nonce counter is one ahead of the frames sent (`OpenInv`).  After `Close` the mutex
no longer excludes anybody, but nothing is transmitted either, and all that remains to be known
is which frame the bytes on the wire stop in (`ClosedInv`).  `Ledger` is the bookkeeping of the
calls, the same before and after.
-/

namespace Snova.WriterState

open CipherContext (Keyed sealedFrame)

variable {κ : Type} [DecidableEq κ] {A : Aead} {pb : Nanopb} {key : Bytes} {iv₀ : UInt64}
  {s s' : WriterState κ} {c : κ}

/-! ## Frames -/

lemma sealedFrame_ne_nil (A : Aead) (pb : Nanopb) (key : Bytes) (iv : UInt64) (ev : MuxEvent) :
    sealedFrame A pb key iv ev ≠ [] := by
  have hlen := CipherContext.length_sealedFrame A pb key iv ev
  intro hnil
  rw [hnil, List.length_nil] at hlen
  omega

/-- The frames of the calls in `done`: the one at index `k` is sealed with `iv₀ + k`. -/
def frames (A : Aead) (pb : Nanopb) (key : Bytes) (iv₀ : UInt64) (done : List (ℕ × MuxEvent)) :
    List Bytes :=
  done.mapIdx fun k x => sealedFrame A pb key (iv₀ + UInt64.ofNat k) x.2

/-- The counter value of the frame after those. -/
def nextIv (iv₀ : UInt64) (done : List (ℕ × MuxEvent)) : UInt64 := iv₀ + UInt64.ofNat done.length

lemma frames_concat (done : List (ℕ × MuxEvent)) (x : ℕ × MuxEvent) :
    (frames A pb key iv₀ (done ++ [x])).flatten =
      (frames A pb key iv₀ done).flatten ++ sealedFrame A pb key (nextIv iv₀ done) x.2 := by
  simp [frames, nextIv, List.mapIdx_concat]

lemma nextIv_concat (done : List (ℕ × MuxEvent)) (x : ℕ × MuxEvent) :
    nextIv iv₀ (done ++ [x]) = nextIv iv₀ done + 1 := by
  simp [nextIv, UInt64.ofNat_add, UInt64.add_assoc]

/-! ## Leaving and entering the critical section -/

/-- The parts of the state that neither `Lock` nor `Unlock` touches. -/
structure Unmoved (s s' : WriterState κ) : Prop where
  wire : s'.wire = s.wire
  done : s'.done = s.done
  calls : s'.calls = s.calls
  closedAt : s'.closedAt = s.closedAt

/-- A call has run `Unlock`: it has returned, or it waits in the send. -/
inductive Leaves (s : WriterState κ) (c : κ) (call : ℕ) (success : Bool) :
    WriterState κ → Prop
  | returned {s' : WriterState κ} (same : Unmoved s s')
      (job : s'.job = Function.update s.job c .idle)
      (record : s'.returned = s.returned ++ [(call, success)]) : Leaves s c call success s'
  | unlocking {s' : WriterState κ} (same : Unmoved s s')
      (job : s'.job = Function.update s.job c (.unlocking call success))
      (record : s'.returned = s.returned) : Leaves s c call success s'

lemma runUnlock_leaves {call : ℕ} {success : Bool} (h : s.runUnlock c call success = some s') :
    Leaves s c call success s' ∧ s'.cipherCtx = s.cipherCtx ∧
      s.writeMutex.step (.unlock c) = some s'.writeMutex := by
  simp only [runUnlock, Option.map_eq_some_iff] at h
  obtain ⟨m, hm, rfl⟩ := h
  split
  · exact ⟨.returned ⟨rfl, rfl, rfl, rfl⟩ rfl rfl, rfl, hm⟩
  · exact ⟨.unlocking ⟨rfl, rfl, rfl, rfl⟩ rfl rfl, rfl, hm⟩

/-- A stretch of `Lock` has run: the call still waits, is in `AsyncWrite`, or has left after a
failed `Encrypt`. -/
inductive Enters (s : WriterState κ) (c : κ) (call : ℕ) (event : MuxEvent) :
    WriterState κ → Prop
  | locking {s' : WriterState κ} (same : Unmoved s s') (record : s'.returned = s.returned)
      (job : s'.job = Function.update s.job c (.locking call event)) : Enters s c call event s'
  | writing {s' : WriterState κ} (same : Unmoved s s') (record : s'.returned = s.returned)
      (w : Writing) (job : s'.job = Function.update s.job c (.writing w)) (hcall : w.call = call)
      (hsent : w.sent = 0) (hframe : w.frame ≠ []) : Enters s c call event s'
  | left {s' : WriterState κ} (h : Leaves s c call false s') : Enters s c call event s'

lemma afterLock_enters {call : ℕ} {event : MuxEvent} {env : WriteEnv} {m : MutexState κ}
    (hk : s.cipherCtx.Keyed key) (h : s.afterLock A pb c call event env m = some s') :
    Enters s c call event s' ∧ s'.cipherCtx.Keyed key := by
  simp only [afterLock] at h
  split at h
  · simp only [runEncrypt] at h
    have hspec := CipherContext.encrypt_spec A pb hk event writeBufferSize
    generalize s.cipherCtx.encrypt A pb event writeBufferSize = r at h hspec
    cases hspec with
    | fail rc ev' seals nonzero sub =>
        rw [if_pos nonzero] at h
        obtain ⟨hleft, hctx, -⟩ := runUnlock_leaves h
        refine ⟨.left ?_, by rw [hctx]; exact hk⟩
        cases hleft with
        | returned same job record =>
            exact .returned ⟨same.wire, same.done, same.calls, same.closedAt⟩ job record
        | unlocking same job record =>
            exact .unlocking ⟨same.wire, same.done, same.calls, same.closedAt⟩ job record
    | ok =>
        rw [if_neg (by simp)] at h
        obtain rfl := Option.some.inj h
        exact ⟨.writing ⟨rfl, rfl, rfl, rfl⟩ rfl _ rfl rfl rfl (sealedFrame_ne_nil _ _ _ _ _),
          hk.withIvs _ _⟩
  · obtain rfl := Option.some.inj h
    exact ⟨.locking ⟨rfl, rfl, rfl, rfl⟩ rfl rfl, hk⟩

lemma Leaves.same {call : ℕ} {success : Bool} (h : Leaves s c call success s') :
    Unmoved s s' := by
  cases h <;> assumption

lemma Enters.same {call : ℕ} {event : MuxEvent} (h : Enters s c call event s') :
    Unmoved s s' := by
  cases h with
  | locking same record job => exact same
  | writing same record w job hcall hsent hframe => exact same
  | left h => exact h.same

/-- No other coroutine's job changes, and this one is not in `AsyncWrite`. -/
lemma Leaves.not_writing {call : ℕ} {success : Bool} (h : Leaves s c call success s') {d : κ}
    {w : Writing} (hd : s'.job d = .writing w) : d ≠ c ∧ s.job d = .writing w := by
  cases h with
  | returned same job record =>
      rw [job, Function.update_apply] at hd
      split at hd
      · cases hd
      · next hdc => exact ⟨hdc, hd⟩
  | unlocking same job record =>
      rw [job, Function.update_apply] at hd
      split at hd
      · cases hd
      · next hdc => exact ⟨hdc, hd⟩

/-! ## The bookkeeping of calls -/

/-- The call a coroutine is in. -/
def jobCall : WriteJob → Option ℕ
  | .idle => none
  | .locking call _ => some call
  | .writing w => some w.call
  | .unlocking call _ => some call

lemma jobCall_eq_none {job : WriteJob} (h : jobCall job = none) : job = .idle := by
  cases job with
  | idle => rfl
  | _ => cases h

/-- The call of a coroutine whose frame has not been sent. -/
def unsentCall : WriteJob → Option ℕ
  | .locking call _ => some call
  | .writing w => some w.call
  | _ => none

/-- What a coroutine that leaves is in afterwards, and what has been returned. -/
lemma Leaves.exists_job {call : ℕ} {success : Bool} (h : Leaves s c call success s') :
    ∃ job : WriteJob, s'.job = Function.update s.job c job ∧
      (∀ n, jobCall job = some n → n = call) ∧ unsentCall job = none ∧
      ((call, success) ∈ s'.returned ∨ job = .unlocking call success) ∧
      (∀ n, job = .unlocking n true → success = true) ∧
      (∀ x ∈ s.returned, x ∈ s'.returned) ∧
      ∀ x ∈ s'.returned, x ∈ s.returned ∨ x = (call, success) := by
  cases h with
  | returned same job record =>
      refine ⟨.idle, job, ?_, rfl, .inl ?_, ?_, ?_, ?_⟩
      · intro n hn
        cases hn
      · rw [record]
        exact List.mem_append_right _ (List.mem_singleton_self _)
      · intro n hn
        cases hn
      · intro x hx
        rw [record]
        exact List.mem_append_left _ hx
      · intro x hx
        rw [record, List.mem_append, List.mem_singleton] at hx
        exact hx
  | unlocking same job record =>
      refine ⟨.unlocking call success, job, ?_, rfl, .inr rfl, ?_, ?_, ?_⟩
      · intro n hn
        exact (Option.some.inj hn).symm
      · intro n hn
        injection hn
      · intro x hx
        rwa [record]
      · intro x hx
        rw [record] at hx
        exact .inl hx

structure Ledger (s : WriterState κ) : Prop where
  fresh : ∀ c n, jobCall (s.job c) = some n → n < s.calls
  distinct : ∀ c d n, jobCall (s.job c) = some n → jobCall (s.job d) = some n → c = d
  done_lt : ∀ x ∈ s.done, x.1 < s.calls
  unsent : ∀ c n, unsentCall (s.job c) = some n → n ∉ s.done.map Prod.fst
  nodup : (s.done.map Prod.fst).Nodup
  -- a call whose frame was sent has returned true, or will
  accounted : ∀ x ∈ s.done,
    (x.1, true) ∈ s.returned ∨ ∃ c, s.job c = .unlocking x.1 true
  truthful : ∀ n, (n, true) ∈ s.returned → n ∈ s.done.map Prod.fst
  sent : ∀ c n, s.job c = .unlocking n true → n ∈ s.done.map Prod.fst
  -- nothing is sent for a call that started after `Close`
  closed : ∀ m, s.closedAt = some m →
    (∀ x ∈ s.done, x.1 < m) ∧ ∀ c w, s.job c = .writing w → 0 < w.sent → w.call < m

omit [DecidableEq κ] in
lemma ledger_init (ctx : CipherContext) (masks : Bool) :
    Ledger (init ctx masks : WriterState κ) := by
  constructor <;> simp [init, jobCall, unsentCall]

/-- Where one job is replaced by another one of the same call or of none, every job is of the call
it was of before. -/
lemma jobCall_of_update {job : WriteJob} (hjob : s'.job = Function.update s.job c job)
    (hcall : ∀ n, jobCall job = some n → jobCall (s.job c) = some n) (d : κ) (n : ℕ)
    (hd : jobCall (s'.job d) = some n) : jobCall (s.job d) = some n := by
  rw [hjob] at hd
  by_cases hdc : d = c
  · subst hdc
    rw [Function.update_self] at hd
    exact hcall n hd
  · rwa [Function.update_of_ne hdc] at hd

/-- The ledger when one coroutine moves on within its call and no frame is completed. -/
lemma Ledger.move {job : WriteJob} (h : Ledger s) (same : Unmoved s s')
    (hjob : s'.job = Function.update s.job c job)
    (hcall : ∀ n, jobCall job = some n → jobCall (s.job c) = some n)
    (hunsent : ∀ n, unsentCall job = some n → unsentCall (s.job c) = some n)
    (htrue : ∀ n, job = .unlocking n true → s.job c = .unlocking n true)
    (hkeep : ∀ n, s.job c = .unlocking n true → job = .unlocking n true ∨ (n, true) ∈ s'.returned)
    (hmono : ∀ n, (n, true) ∈ s.returned → (n, true) ∈ s'.returned)
    (hnew : ∀ n, (n, true) ∈ s'.returned → (n, true) ∈ s.returned ∨ s.job c = .unlocking n true)
    (hsent : ∀ w, job = .writing w → 0 < w.sent → s.closedAt = none) : Ledger s' := by
  have hother : ∀ d, d ≠ c → s'.job d = s.job d := fun d hd => by
    rw [hjob, Function.update_of_ne hd]
  have hself : s'.job c = job := by rw [hjob, Function.update_self]
  have hcall' := jobCall_of_update hjob hcall
  refine ⟨?_, ?_, ?_, ?_, ?_, ?_, ?_, ?_, ?_⟩
  · intro d n hd
    rw [same.calls]
    exact h.fresh d n (hcall' d n hd)
  · intro d e n hd he
    exact h.distinct d e n (hcall' d n hd) (hcall' e n he)
  · rw [same.done, same.calls]
    exact h.done_lt
  · intro d n hd
    rw [same.done]
    by_cases hdc : d = c
    · subst hdc; rw [hself] at hd; exact h.unsent d n (hunsent n hd)
    · rw [hother d hdc] at hd; exact h.unsent d n hd
  · rw [same.done]
    exact h.nodup
  · intro x hx
    rw [same.done] at hx
    rcases h.accounted x hx with hret | ⟨d, hd⟩
    · exact .inl (hmono _ hret)
    · by_cases hdc : d = c
      · subst hdc
        rcases hkeep _ hd with hk | hk
        · exact .inr ⟨d, hself.trans hk⟩
        · exact .inl hk
      · exact .inr ⟨d, (hother d hdc).trans hd⟩
  · intro n hn
    rw [same.done]
    rcases hnew n hn with hn | hn
    · exact h.truthful n hn
    · exact h.sent c n hn
  · intro d n hd
    rw [same.done]
    by_cases hdc : d = c
    · subst hdc; rw [hself] at hd; exact h.sent d n (htrue n hd)
    · rw [hother d hdc] at hd; exact h.sent d n hd
  · intro m hm
    rw [same.closedAt] at hm
    obtain ⟨hdone, hw⟩ := h.closed m hm
    rw [same.done]
    refine ⟨hdone, fun d w hd hpos => ?_⟩
    by_cases hdc : d = c
    · subst hdc
      rw [hself] at hd
      rw [hsent w hd hpos] at hm
      cases hm
    · rw [hother d hdc] at hd
      exact hw d w hd hpos

omit [DecidableEq κ] in
/-- A call whose frame has not been sent is not in `Unlock`. -/
lemma not_unlocking_of_unsent {call : ℕ} (hcall : unsentCall (s.job c) = some call) (n : ℕ)
    (success : Bool) : s.job c ≠ .unlocking n success := by
  intro hjob
  rw [hjob] at hcall
  cases hcall

omit [DecidableEq κ] in
lemma jobCall_of_unsent {job : WriteJob} {call : ℕ} (h : unsentCall job = some call) :
    jobCall job = some call := by
  cases job <;> first | exact h | cases h

/-- A call whose frame was not sent leaves and returns false. -/
lemma Ledger.leave {call : ℕ} (h : Ledger s) (hcall : unsentCall (s.job c) = some call)
    (hleft : Leaves s c call false s') : Ledger s' := by
  obtain ⟨job, hjob, hsame, hunsent, -, htrue, hmono, hnew⟩ := hleft.exists_job
  refine h.move hleft.same hjob ?_ ?_ ?_ ?_ (fun n => hmono _) ?_ ?_
  · intro n hn
    rw [hsame n hn]
    exact jobCall_of_unsent hcall
  · intro n hn
    rw [hunsent] at hn
    cases hn
  · intro n hn
    exact absurd (htrue n hn) (by decide)
  · intro n hn
    exact absurd hn (not_unlocking_of_unsent hcall n true)
  · intro n hn
    refine .inl ((hnew _ hn).resolve_right fun heq => ?_)
    cases heq
  · rintro w rfl -
    cases hunsent

lemma Ledger.enter {call : ℕ} {event : MuxEvent} (h : Ledger s)
    (hcall : unsentCall (s.job c) = some call) (henters : Enters s c call event s') :
    Ledger s' := by
  have hnot := not_unlocking_of_unsent hcall
  have hjobCall := jobCall_of_unsent hcall
  cases henters with
  | locking same record job =>
      refine h.move same job ?_ ?_ (by simp) (fun n hn => absurd hn (hnot n true)) ?_ ?_ (by simp)
      · intro n hn
        rw [← hn]
        exact hjobCall
      · intro n hn
        rw [← hn]
        exact hcall
      · intro n hn
        rwa [record]
      · intro n hn
        rw [record] at hn
        exact .inl hn
  | writing same record w job hcall' hsent hframe =>
      refine h.move same job ?_ ?_ (by simp) (fun n hn => absurd hn (hnot n true)) ?_ ?_ ?_
      · intro n hn
        rw [← hn]
        show _ = some w.call
        rw [hcall']
        exact hjobCall
      · intro n hn
        rw [← hn]
        show _ = some w.call
        rw [hcall']
        exact hcall
      · intro n hn
        rwa [record]
      · intro n hn
        rw [record] at hn
        exact .inl hn
      · intro v hv hpos
        obtain rfl := WriteJob.writing.inj hv
        omega
  | left hleft => exact h.leave hcall hleft

/-- A coroutine outside `Write` starts a call. -/
lemma Ledger.start (h : Ledger s) (hidle : s.job c = .idle) (event : MuxEvent) :
    Ledger (s.start c event) := by
  have hjob : ∀ d, (s.start c event).job d =
      if d = c then .locking s.calls event else s.job d := fun d => Function.update_apply _ _ _ _
  refine ⟨?_, ?_, ?_, ?_, h.nodup, ?_, h.truthful, ?_, ?_⟩
  · intro d n hd
    simp only [hjob] at hd
    split at hd
    · cases hd
      exact Nat.lt_succ_self _
    · exact Nat.lt_succ_of_lt (h.fresh d n hd)
  · intro d e n hd he
    simp only [hjob] at hd he
    split at hd
    · next hdc =>
        cases hd
        split at he
        · next hec => rw [hdc, hec]
        · exact absurd (h.fresh e _ he) (lt_irrefl _)
    · split at he
      · cases he
        exact absurd (h.fresh d _ hd) (lt_irrefl _)
      · exact h.distinct d e n hd he
  · intro x hx
    exact Nat.lt_succ_of_lt (h.done_lt x hx)
  · intro d n hd hmem
    simp only [hjob] at hd
    split at hd
    · cases hd
      obtain ⟨x, hx, hxn⟩ := List.mem_map.mp hmem
      have hlt := h.done_lt x hx
      omega
    · exact h.unsent d n hd hmem
  · intro x hx
    rcases h.accounted x hx with hret | ⟨d, hd⟩
    · exact .inl hret
    · refine .inr ⟨d, ?_⟩
      have hdc : d ≠ c := by
        rintro rfl
        rw [hidle] at hd
        cases hd
      simp only [hjob, if_neg hdc, hd]
  · intro d n hd
    simp only [hjob] at hd
    split at hd
    · cases hd
    · exact h.sent d n hd
  · intro m hm
    obtain ⟨hdone, hw⟩ := h.closed m hm
    refine ⟨hdone, fun d w hd hpos => ?_⟩
    simp only [hjob] at hd
    split at hd
    · cases hd
    · exact hw d w hd hpos

/-- The frame of a call has been sent, and the call leaves. -/
lemma Ledger.complete {w : Writing} (h : Ledger s) (hw : s.job c = .writing w)
    (hpos : 0 < w.sent)
    (hleft : Leaves { s with done := s.done ++ [(w.call, w.event)] } c w.call true s') :
    Ledger s' := by
  obtain ⟨job, hjob, hcall, hunsent, hself, -, hmono, hnew⟩ := hleft.exists_job
  have same := hleft.same
  have hold : jobCall (s.job c) = some w.call := by rw [hw]; rfl
  have hother : ∀ d, d ≠ c → s'.job d = s.job d := fun d hd => by
    rw [hjob, Function.update_of_ne hd]
  have hc : s'.job c = job := by rw [hjob, Function.update_self]
  have hcall' := jobCall_of_update hjob fun n hn => by
    rw [hcall n hn]
    exact hold
  have hdone : s'.done = s.done ++ [(w.call, w.event)] := same.done
  have hids : s'.done.map Prod.fst = s.done.map Prod.fst ++ [w.call] := by
    rw [hdone, List.map_append]; rfl
  have hnotin : w.call ∉ s.done.map Prod.fst := h.unsent c _ (by rw [hw]; rfl)
  refine ⟨?_, ?_, ?_, ?_, ?_, ?_, ?_, ?_, ?_⟩
  · intro d n hd
    rw [same.calls]
    exact h.fresh d n (hcall' d n hd)
  · intro d e n hd he
    exact h.distinct d e n (hcall' d n hd) (hcall' e n he)
  · intro x hx
    rw [hdone, List.mem_append, List.mem_singleton] at hx
    rw [same.calls]
    rcases hx with hx | rfl
    · exact h.done_lt x hx
    · exact h.fresh c _ hold
  · intro d n hd
    by_cases hdc : d = c
    · subst hdc; rw [hc, hunsent] at hd; cases hd
    · rw [hother d hdc] at hd
      rw [hids, List.mem_append, List.mem_singleton]
      rintro (hn | rfl)
      · exact h.unsent d n hd hn
      · exact hdc (h.distinct d c _ (jobCall_of_unsent hd) hold)
  · rw [hids, List.nodup_append]
    refine ⟨h.nodup, by simp, ?_⟩
    intro x hx y hy hxy
    rw [List.mem_singleton] at hy
    rw [hxy, hy] at hx
    exact hnotin hx
  · intro x hx
    rw [hdone, List.mem_append, List.mem_singleton] at hx
    rcases hx with hx | rfl
    · rcases h.accounted x hx with hret | ⟨d, hd⟩
      · exact .inl (hmono _ hret)
      · have hdc : d ≠ c := by
          rintro rfl
          rw [hw] at hd
          cases hd
        exact .inr ⟨d, (hother d hdc).trans hd⟩
    · exact hself.imp id fun hj => ⟨c, hc.trans hj⟩
  · intro n hn
    rw [hids, List.mem_append, List.mem_singleton]
    exact (hnew _ hn).imp (h.truthful n) fun heq => congrArg Prod.fst heq
  · intro d n hd
    rw [hids, List.mem_append, List.mem_singleton]
    by_cases hdc : d = c
    · subst hdc
      exact .inr (hcall n (by rw [← hc, hd]; rfl))
    · rw [hother d hdc] at hd
      exact .inl (h.sent d n hd)
  · intro m hm
    obtain ⟨hlt, hwriting⟩ := h.closed m (by rw [← hm, same.closedAt])
    refine ⟨?_, fun d v hd hv => ?_⟩
    · intro x hx
      rw [hdone, List.mem_append, List.mem_singleton] at hx
      rcases hx with hx | rfl
      · exact hlt x hx
      · exact hwriting c w hw hpos
    · by_cases hdc : d = c
      · subst hdc
        rw [hc] at hd
        rw [hd] at hunsent
        cases hunsent
      · rw [hother d hdc] at hd
        exact hwriting d v hd hv

/-- The context keeps its key, and a frame is never empty. -/
structure Base (key : Bytes) (s : WriterState κ) : Prop where
  keyed : s.cipherCtx.Keyed key
  frame : ∀ c w, s.job c = .writing w → w.frame ≠ []

/-- A step, seen from the bookkeeping. -/
inductive StepSpec (s : WriterState κ) : WriteAction κ → WriterState κ → Prop
  | write {c : κ} {event : MuxEvent} {env : WriteEnv} {s' : WriterState κ} (idle : s.job c = .idle)
      (h : Enters (s.start c event) c s.calls event s') :
      StepSpec s (.write c event env) s'
  | resume {c : κ} {env : WriteEnv} {call : ℕ} {event : MuxEvent} {s' : WriterState κ}
      (locking : s.job c = .locking call event) (h : Enters s c call event s') :
      StepSpec s (.resume c env) s'
  | transmit {c : κ} {n : ℕ} {w : Writing} (writing : s.job c = .writing w)
      (isOpen : s.closedAt = none) (pos : 0 < n) (le : w.sent + n ≤ w.frame.length) :
      StepSpec s (.transmit c n) { s with
        wire := s.wire ++ ((s.payload w).drop w.sent).take n
        job := Function.update s.job c (.writing { w with sent := w.sent + n }) }
  | complete {c : κ} {w : Writing} {s' : WriterState κ} (writing : s.job c = .writing w)
      (all : w.sent = w.frame.length)
      (h : Leaves { s with done := s.done ++ [(w.call, w.event)] } c w.call true s') :
      StepSpec s (.complete c) s'
  | writeError {c : κ} {w : Writing} {s' : WriterState κ} (writing : s.job c = .writing w)
      (h : Leaves s c w.call false s') : StepSpec s (.writeError c) s'
  | unlocked {c : κ} {call : ℕ} {success : Bool} {m : MutexState κ}
      (unlocking : s.job c = .unlocking call success) :
      StepSpec s (.unlocked c) { s with
        writeMutex := m
        job := Function.update s.job c .idle
        returned := s.returned ++ [(call, success)] }
  | close {m : MutexState κ} :
      StepSpec s .close { s with writeMutex := m, closedAt := s.closedAt.or (some s.calls) }

lemma step_spec {a : WriteAction κ} (hk : s.cipherCtx.Keyed key) (h : step A pb s a = some s') :
    StepSpec s a s' ∧ s'.cipherCtx.Keyed key := by
  cases a with
  | write c event env =>
      simp only [step] at h
      split at h
      · next hidle =>
          obtain ⟨m, -, hafter⟩ := Option.bind_eq_some_iff.mp h
          have hkstart : (s.start c event).cipherCtx.Keyed key := hk
          obtain ⟨henters, hk'⟩ := afterLock_enters hkstart hafter
          exact ⟨.write hidle henters, hk'⟩
      · cases h
  | resume c env =>
      simp only [step] at h
      split at h
      · next call event hlocking =>
          obtain ⟨m, -, hafter⟩ := Option.bind_eq_some_iff.mp h
          obtain ⟨henters, hk'⟩ := afterLock_enters hk hafter
          exact ⟨.resume hlocking henters, hk'⟩
      · cases h
  | transmit c n =>
      simp only [step] at h
      split at h
      · next w hw =>
          split at h
          · next hcond =>
              obtain rfl := Option.some.inj h
              exact ⟨.transmit hw hcond.1 hcond.2.1 hcond.2.2, hk⟩
          · cases h
      · cases h
  | complete c =>
      simp only [step] at h
      split at h
      · next w hw =>
          split at h
          · next hall =>
              obtain ⟨hleft, hctx, -⟩ := runUnlock_leaves h
              exact ⟨.complete hw hall hleft, by rw [hctx]; exact hk⟩
          · cases h
      · cases h
  | writeError c =>
      simp only [step] at h
      split at h
      · next w hw =>
          obtain ⟨hleft, hctx, -⟩ := runUnlock_leaves h
          exact ⟨.writeError hw hleft, by rw [hctx]; exact hk⟩
      · cases h
  | unlocked c =>
      simp only [step] at h
      split at h
      · next call success hjob =>
          obtain ⟨m, -, rfl⟩ := Option.map_eq_some_iff.mp h
          exact ⟨.unlocked hjob, hk⟩
      · cases h
  | close =>
      simp only [step] at h
      obtain ⟨m, -, rfl⟩ := Option.map_eq_some_iff.mp h
      exact ⟨.close, hk⟩

/-- Replacing one job keeps frames non-empty, if the new one does. -/
lemma frame_update {job : WriteJob} (h : ∀ d w, s.job d = .writing w → w.frame ≠ [])
    (hjob : s'.job = Function.update s.job c job) (hnew : ∀ w, job = .writing w → w.frame ≠ []) :
    ∀ d w, s'.job d = .writing w → w.frame ≠ [] := by
  intro d w hd
  rw [hjob, Function.update_apply] at hd
  split at hd
  · exact hnew w hd
  · exact h d w hd

lemma Leaves.frame {call : ℕ} {success : Bool} (hleft : Leaves s c call success s')
    (h : ∀ d w, s.job d = .writing w → w.frame ≠ []) :
    ∀ d w, s'.job d = .writing w → w.frame ≠ [] := by
  cases hleft with
  | returned same job record => exact frame_update h job (by simp)
  | unlocking same job record => exact frame_update h job (by simp)

lemma Enters.frame {call : ℕ} {event : MuxEvent} (henters : Enters s c call event s')
    (h : ∀ d w, s.job d = .writing w → w.frame ≠ []) :
    ∀ d w, s'.job d = .writing w → w.frame ≠ [] := by
  cases henters with
  | locking same record job => exact frame_update h job (by simp)
  | writing same record w job hcall hsent hne =>
      refine frame_update h job fun v hv => ?_
      obtain rfl := WriteJob.writing.inj hv
      exact hne
  | left hleft => exact hleft.frame h

lemma step_base {a : WriteAction κ} (h : Base key s) (hstep : step A pb s a = some s') :
    Base key s' := by
  obtain ⟨hspec, hk⟩ := step_spec h.keyed hstep
  refine ⟨hk, ?_⟩
  cases hspec with
  | write idle henters => exact henters.frame (frame_update h.frame rfl (by simp))
  | resume locking henters => exact henters.frame h.frame
  | @transmit c n w writing isOpen pos le =>
      refine frame_update h.frame rfl fun v hv => ?_
      obtain rfl := WriteJob.writing.inj hv
      exact h.frame c w writing
  | complete writing all hleft => exact hleft.frame h.frame
  | writeError writing hleft => exact hleft.frame h.frame
  | unlocked unlocking => exact frame_update h.frame rfl (by simp)
  | close => exact h.frame

lemma step_ledger {a : WriteAction κ} (hbase : Base key s) (h : Ledger s)
    (hstep : step A pb s a = some s') : Ledger s' := by
  obtain ⟨hspec, -⟩ := step_spec hbase.keyed hstep
  cases hspec with
  | write idle henters => exact (h.start idle _).enter (by simp [start, unsentCall]) henters
  | resume locking henters => exact h.enter (by rw [locking]; rfl) henters
  | @transmit c n w writing isOpen pos le =>
      have hjob : ∀ m b, s.job c ≠ .unlocking m b := by simp [writing]
      -- The wire is not part of the ledger, so the move is stated for the old one.
      have hmove : Ledger { s with
          job := Function.update s.job c (.writing { w with sent := w.sent + n }) } :=
        h.move ⟨rfl, rfl, rfl, rfl⟩ rfl (by simp [writing, jobCall]) (by simp [writing, unsentCall])
          (by simp) (fun m hm => absurd hm (hjob m true)) (fun m hm => hm) (fun m hm => .inl hm)
          (fun _ _ _ => isOpen)
      exact ⟨hmove.fresh, hmove.distinct, hmove.done_lt, hmove.unsent, hmove.nodup,
        hmove.accounted, hmove.truthful, hmove.sent, hmove.closed⟩
  | complete writing all hleft =>
      refine h.complete writing ?_ hleft
      rw [all]
      exact List.length_pos_of_ne_nil (hbase.frame _ _ writing)
  | writeError writing hleft => exact h.leave (by rw [writing]; rfl) hleft
  | @unlocked c call success m unlocking =>
      refine h.move ⟨rfl, rfl, rfl, rfl⟩ rfl (by simp [jobCall]) (by simp [unsentCall]) (by simp)
        ?_ ?_ ?_ (by simp)
      · intro n hn
        rw [unlocking] at hn
        cases hn
        exact .inr (by simp)
      · exact fun n hn => List.mem_append_left _ hn
      · intro n hn
        rcases List.mem_append.mp hn with hn | hn
        · exact .inl hn
        · rw [List.mem_singleton, Prod.mk.injEq] at hn
          exact .inr (by rw [unlocking, hn.1, hn.2])
  | close =>
      refine ⟨h.fresh, h.distinct, h.done_lt, h.unsent, h.nodup, h.accounted, h.truthful, h.sent,
        ?_⟩
      intro m hm
      cases hc : s.closedAt with
      | none =>
          rw [hc] at hm
          cases hm
          exact ⟨h.done_lt, fun c w hw _ => h.fresh c _ (by rw [hw]; rfl)⟩
      | some n =>
          rw [hc] at hm
          cases hm
          exact h.closed _ hc

/-! ## The wire of a closed connection -/

/-- The wire holds the frames that were sent, and then the beginning of the next one.  A job that
has transmitted something is in that frame. -/
structure ClosedInv (A : Aead) (pb : Nanopb) (key : Bytes) (iv₀ : UInt64) (s : WriterState κ) :
    Prop where
  tail : ∃ ev tail, s.wire = (frames A pb key iv₀ s.done).flatten ++ tail ∧
    tail <+: sealedFrame A pb key (nextIv iv₀ s.done) ev ∧
    ∀ c w, s.job c = .writing w → 0 < w.sent →
      w.frame = sealedFrame A pb key (nextIv iv₀ s.done) w.event ∧ tail = w.frame.take w.sent
  single : ∀ c d w v, s.job c = .writing w → s.job d = .writing v → 0 < w.sent → 0 < v.sent →
    c = d

/-- A job that has transmitted nothing does not matter. -/
lemma ClosedInv.move {job : WriteJob} (h : ClosedInv A pb key iv₀ s) (hw : s'.wire = s.wire)
    (hdone : s'.done = s.done) (hjob : s'.job = Function.update s.job c job)
    (hsent : ∀ w, job = .writing w → w.sent = 0) : ClosedInv A pb key iv₀ s' := by
  have hold : ∀ d w, s'.job d = .writing w → 0 < w.sent → s.job d = .writing w := by
    intro d w hd hpos
    rw [hjob, Function.update_apply] at hd
    split at hd
    · have := hsent w hd
      omega
    · exact hd
  obtain ⟨ev, tail, hwire, hpre, hjobs⟩ := h.tail
  refine ⟨⟨ev, tail, ?_, ?_, ?_⟩, ?_⟩
  · rw [hw, hdone, hwire]
  · rw [hdone]
    exact hpre
  · intro d w hd hpos
    rw [hdone]
    exact hjobs d w (hold d w hd hpos) hpos
  · intro d e w v hd he hw hv
    exact h.single d e w v (hold d w hd hw) (hold e v he hv) hw hv

lemma ClosedInv.leave {call : ℕ} {success : Bool} (h : ClosedInv A pb key iv₀ s)
    (hleft : Leaves s c call success s') : ClosedInv A pb key iv₀ s' := by
  cases hleft with
  | returned same job record => exact h.move same.wire same.done job (by simp)
  | unlocking same job record => exact h.move same.wire same.done job (by simp)

lemma ClosedInv.enter {call : ℕ} {event : MuxEvent} (h : ClosedInv A pb key iv₀ s)
    (henters : Enters s c call event s') : ClosedInv A pb key iv₀ s' := by
  cases henters with
  | locking same record job => exact h.move same.wire same.done job (by simp)
  | writing same record w job hcall hsent hne =>
      refine h.move same.wire same.done job fun v hv => ?_
      obtain rfl := WriteJob.writing.inj hv
      exact hsent
  | left hleft => exact h.leave hleft

/-- The frame that was being written is complete. -/
lemma ClosedInv.complete {w : Writing} (h : ClosedInv A pb key iv₀ s) (hw : s.job c = .writing w)
    (hall : w.sent = w.frame.length) (hne : w.frame ≠ [])
    (hleft : Leaves { s with done := s.done ++ [(w.call, w.event)] } c w.call true s') :
    ClosedInv A pb key iv₀ s' := by
  have hpos : 0 < w.sent := by
    rw [hall]
    exact List.length_pos_of_ne_nil hne
  obtain ⟨ev, tail, hwire, -, hjobs⟩ := h.tail
  obtain ⟨hframe, htail⟩ := hjobs c w hw hpos
  rw [hall, List.take_length, hframe] at htail
  have hnone : ∀ d v, s'.job d = .writing v → ¬ 0 < v.sent := by
    intro d v hd hv
    obtain ⟨hdc, hd'⟩ := hleft.not_writing hd
    exact hdc (h.single d c v w hd' hw hv hpos)
  refine ⟨⟨w.event, [], ?_, List.nil_prefix, fun d v hd hv => absurd hv (hnone d v hd)⟩,
    fun d e v u hd he hv hu => absurd hv (hnone d v hd)⟩
  rw [hleft.same.wire, hleft.same.done, frames_concat, List.append_nil]
  simp only
  rw [hwire, htail]

lemma step_closedInv {a : WriteAction κ} (hbase : Base key s) (hclosed : s.closedAt ≠ none)
    (h : ClosedInv A pb key iv₀ s) (hstep : step A pb s a = some s') :
    ClosedInv A pb key iv₀ s' ∧ s'.closedAt ≠ none ∧ s'.wire = s.wire := by
  obtain ⟨hspec, -⟩ := step_spec hbase.keyed hstep
  cases hspec with
  | @write c event env s' idle henters =>
      have hstart : ClosedInv A pb key iv₀ (s.start c event) :=
        h.move rfl rfl rfl (by simp)
      refine ⟨hstart.enter henters, ?_, henters.same.wire⟩
      rw [henters.same.closedAt]
      exact hclosed
  | resume locking henters =>
      refine ⟨h.enter henters, ?_, henters.same.wire⟩
      rwa [henters.same.closedAt]
  | transmit writing isOpen pos le => exact absurd isOpen hclosed
  | complete writing all hleft =>
      refine ⟨h.complete writing all (hbase.frame _ _ writing) hleft, ?_, hleft.same.wire⟩
      rw [hleft.same.closedAt]
      exact hclosed
  | writeError writing hleft =>
      refine ⟨h.leave hleft, ?_, hleft.same.wire⟩
      rwa [hleft.same.closedAt]
  | unlocked unlocking => exact ⟨h.move rfl rfl rfl (by simp), hclosed, rfl⟩
  | close =>
      refine ⟨⟨h.tail, h.single⟩, ?_, rfl⟩
      simp

/-! ## The wire of an open connection -/

/-- What is known of the frame being written. -/
structure Written (A : Aead) (pb : Nanopb) (key : Bytes) (iv₀ : UInt64) (s : WriterState κ)
    (w : Writing) : Prop where
  frame : w.frame = sealedFrame A pb key (nextIv iv₀ s.done) w.event
  wire : s.wire = (frames A pb key iv₀ s.done).flatten ++ w.frame.take w.sent
  -- the buffer holds the frame as the transport took it
  buffer : s.writeBuffer.take w.frame.length = maskPayload w.maskKey w.frame
  unmasked : s.masks = false → w.maskKey = []
  iv : s.cipherCtx.encryptIv = nextIv iv₀ s.done + 1

/-- While the connection is open, the coroutine in `AsyncWrite` is the one that holds the mutex. -/
structure OpenInv [Fintype κ] (A : Aead) (pb : Nanopb) (key : Bytes) (iv₀ : UInt64)
    (s : WriterState κ) : Prop where
  isOpen : s.closedAt = none
  mutex : s.writeMutex.Inv
  holder : ∀ c, s.writeMutex.pc c = .holding ↔ ∃ w, s.job c = .writing w
  writer : ∀ c w, s.job c = .writing w → Written A pb key iv₀ s w
  free : (∀ c w, s.job c ≠ .writing w) →
    s.wire = (frames A pb key iv₀ s.done).flatten ∧
      s.cipherCtx.encryptIv = nextIv iv₀ s.done

variable [Fintype κ]

omit [DecidableEq κ] in
lemma openInv_init (ctx : CipherContext) (masks : Bool) :
    OpenInv A pb key ctx.encryptIv (init ctx masks : WriterState κ) where
  isOpen := rfl
  mutex := MutexState.inv_init
  holder := fun c => by simp [init, MutexState.init]
  writer := fun c w h => by cases h
  free := fun _ => ⟨rfl, by simp [init, nextIv]⟩

/-- A call leaves the critical section with everything it wrote on the wire. -/
lemma runUnlock_open {call : ℕ} {success : Bool} (h : s.runUnlock c call success = some s')
    (hopen : s.closedAt = none) (hmutex : s.writeMutex.Inv)
    (hpc : ∀ d, d ≠ c → s.writeMutex.pc d ≠ .holding)
    (hjob : ∀ d w, d ≠ c → s.job d ≠ .writing w)
    (hwire : s.wire = (frames A pb key iv₀ s.done).flatten)
    (hiv : s.cipherCtx.encryptIv = nextIv iv₀ s.done) : OpenInv A pb key iv₀ s' := by
  obtain ⟨hleft, hctx, hstep⟩ := runUnlock_leaves h
  have hnone : ∀ d w, s'.job d ≠ .writing w := fun d w hd =>
    hjob d w (hleft.not_writing hd).1 (hleft.not_writing hd).2
  refine ⟨by rw [hleft.same.closedAt, hopen], MutexState.step_inv (by simp) hmutex hstep, ?_,
    fun d w hd => absurd hd (hnone d w), fun _ => ?_⟩
  · intro d
    have hfree : s'.writeMutex.pc d ≠ .holding := by
      by_cases hdc : d = c
      · subst hdc
        exact MutexState.step_unlock_not_holding hmutex.core hstep
      · rw [ne_eq, MutexState.step_holding_of_ne (by simp) hmutex.core hstep
          (by simpa [MutexState.actor] using Ne.symm hdc)]
        exact hpc d hdc
    exact ⟨fun hd => absurd hd hfree, fun ⟨w, hw⟩ => absurd hw (hnone d w)⟩
  · rw [hleft.same.wire, hleft.same.done, hctx]
    exact ⟨hwire, hiv⟩

/-- A coroutine outside `AsyncWrite` changes its job: the frame being written is not affected. -/
lemma OpenInv.move {job : WriteJob} (h : OpenInv A pb key iv₀ s) {m : MutexState κ}
    (hmutex : m.Inv) (hjob : ∀ w, job ≠ .writing w) (hold : ∀ w, s.job c ≠ .writing w)
    (hc : m.pc c ≠ .holding) (hpc : ∀ d, d ≠ c → (m.pc d = .holding ↔ s.writeMutex.pc d = .holding))
    (calls : ℕ) (returned : List (ℕ × Bool)) :
    OpenInv A pb key iv₀ { s with
      writeMutex := m
      job := Function.update s.job c job
      calls := calls
      returned := returned } := by
  have hjobs : ∀ d w, Function.update s.job c job d = .writing w ↔ s.job d = .writing w := by
    intro d w
    rw [Function.update_apply]
    split
    · next hdc =>
        rw [hdc]
        exact ⟨fun hw => absurd hw (hjob w), fun hw => absurd hw (hold w)⟩
    · exact Iff.rfl
  refine ⟨h.isOpen, hmutex, ?_, ?_, ?_⟩
  · intro d
    simp only [hjobs]
    by_cases hdc : d = c
    · subst hdc
      exact ⟨fun hd => absurd hd hc, fun ⟨w, hw⟩ => absurd hw (hold w)⟩
    · rw [hpc d hdc]
      exact h.holder d
  · intro d w hd
    obtain ⟨hframe, hwire, hbuffer, hmask, hiv⟩ := h.writer d w ((hjobs d w).mp hd)
    exact ⟨hframe, hwire, hbuffer, hmask, hiv⟩
  · intro hnone
    exact h.free fun d w hd => hnone d w ((hjobs d w).mpr hd)

/-- A stretch of `Lock` on an open connection, and what follows it up to `AsyncWrite`. -/
lemma afterLock_open {call : ℕ} {event : MuxEvent} {env : WriteEnv} {m : MutexState κ}
    {a : MutexAction κ} (hk : s.cipherCtx.Keyed key) (h : OpenInv A pb key iv₀ s)
    (hjob : ∀ w, s.job c ≠ .writing w) (hclose : a ≠ .close) (hactor : MutexState.actor a = some c)
    (hm : s.writeMutex.step a = some m) (hafter : s.afterLock A pb c call event env m = some s') :
    OpenInv A pb key iv₀ s' := by
  have hmutex := MutexState.step_inv hclose h.mutex hm
  have hpc : ∀ d, d ≠ c → (m.pc d = .holding ↔ s.writeMutex.pc d = .holding) := fun d hd =>
    MutexState.step_holding_of_ne hclose h.mutex.core hm
      (by rw [hactor]; exact fun he => hd (Option.some.inj he).symm)
  unfold afterLock at hafter
  split at hafter
  · next hcond =>
      have hc : m.pc c = .holding := hcond.resolve_right (hmutex.core.live c).2
      have hothers : ∀ d, d ≠ c → m.pc d ≠ .holding := fun d hd hd' =>
        hd (hmutex.core.exclusive d c hd' hc)
      -- Nobody is in `AsyncWrite`: it would hold the mutex too.
      have hnone : ∀ d w, s.job d ≠ .writing w := by
        intro d w hd
        by_cases hdc : d = c
        · subst hdc
          exact hjob w hd
        · exact hothers d hdc ((hpc d hdc).mpr ((h.holder d).mpr ⟨w, hd⟩))
      obtain ⟨hwire, hiv⟩ := h.free hnone
      unfold runEncrypt at hafter
      have hspec := CipherContext.encrypt_spec A pb hk event writeBufferSize
      simp only at hafter
      generalize s.cipherCtx.encrypt A pb event writeBufferSize = r at hafter hspec
      cases hspec with
      | fail rc ev' seals nonzero sub =>
          rw [if_pos nonzero] at hafter
          exact runUnlock_open hafter h.isOpen hmutex hothers (fun d w _ => hnone d w) hwire hiv
      | ok =>
          rw [if_neg (by simp)] at hafter
          obtain rfl := Option.some.inj hafter
          refine ⟨h.isOpen, hmutex, ?_, ?_, ?_⟩
          · intro d
            simp only [Function.update_apply]
            split
            · next hdc => simp [hdc, hc]
            · next hdc =>
                exact ⟨fun hd => absurd hd (hothers d hdc), fun ⟨w, hw⟩ => absurd hw (hnone d w)⟩
          · intro d w hd
            simp only [Function.update_apply] at hd
            split at hd
            · obtain rfl := WriteJob.writing.inj hd
              refine ⟨by rw [hiv], by simp [hwire], ?_, ?_, by simp only [hiv]⟩
              · simp only
                rw [List.take_left' (length_maskPayload _ _)]
              · intro hmask
                simp only at hmask ⊢
                rw [hmask]
                rfl
            · exact absurd hd (hnone d w)
          · intro hnone'
            exact absurd (Function.update_self c _ s.job) (hnone' c _)
  · next hcond =>
      obtain rfl := Option.some.inj hafter
      exact h.move hmutex (by simp) hjob (fun hc => hcond (.inl hc)) hpc s.calls s.returned

omit [DecidableEq κ] [Fintype κ] in
/-- What the peer gets of a frame is the frame, masked or not. -/
lemma Written.payload {w : Writing} (h : Written A pb key iv₀ s w) : s.payload w = w.frame := by
  rw [WriterState.payload, h.buffer, maskPayload_maskPayload]

/-- An `AsyncWrite` fails only on a closed connection. -/
def NoOpenError (s : WriterState κ) : WriteAction κ → Prop
  | .writeError _ => s.closedAt ≠ none
  | _ => True

/-- The invariant of a connection, open or closed. -/
def Inv (A : Aead) (pb : Nanopb) (key : Bytes) (iv₀ : UInt64) (s : WriterState κ) : Prop :=
  OpenInv A pb key iv₀ s ∨ (s.closedAt ≠ none ∧ ClosedInv A pb key iv₀ s)

omit [DecidableEq κ] in
/-- The wire of an open connection ends in the frame being written, if there is one. -/
lemma OpenInv.closedInv (h : OpenInv A pb key iv₀ s) : ClosedInv A pb key iv₀ s := by
  constructor
  · by_cases hw : ∃ c w, s.job c = .writing w
    · obtain ⟨c, w, hw⟩ := hw
      have hwritten := h.writer c w hw
      refine ⟨w.event, w.frame.take w.sent, hwritten.wire, ?_, ?_⟩
      · rw [← hwritten.frame]
        exact List.take_prefix _ _
      · intro d v hv _
        have hdc := h.mutex.core.exclusive d c ((h.holder d).mpr ⟨v, hv⟩) ((h.holder c).mpr ⟨w, hw⟩)
        subst hdc
        rw [hw] at hv
        obtain rfl := WriteJob.writing.inj hv
        exact ⟨hwritten.frame, rfl⟩
    · have hnone : ∀ c w, s.job c ≠ .writing w := fun c w hcw => hw ⟨c, w, hcw⟩
      refine ⟨.ofBody .retireConnRequest, [], ?_, List.nil_prefix,
        fun c w hcw => absurd hcw (hnone c w)⟩
      rw [(h.free hnone).1, List.append_nil]
  · intro c d w v hc hd _ _
    exact h.mutex.core.exclusive c d ((h.holder c).mpr ⟨w, hc⟩) ((h.holder d).mpr ⟨v, hd⟩)

section Open

variable {w : Writing}

omit [DecidableEq κ] in
/-- While a coroutine is in `AsyncWrite`, no other one holds the mutex. -/
lemma OpenInv.not_holding (h : OpenInv A pb key iv₀ s) (hw : s.job c = .writing w) {d : κ}
    (hd : d ≠ c) : s.writeMutex.pc d ≠ .holding :=
  fun hd' => hd (h.mutex.core.exclusive d c hd' ((h.holder c).mpr ⟨w, hw⟩))

omit [DecidableEq κ] in
lemma OpenInv.not_writing (h : OpenInv A pb key iv₀ s) (hw : s.job c = .writing w) {d : κ}
    (v : Writing) (hd : d ≠ c) : s.job d ≠ .writing v :=
  fun hd' => h.not_holding hw hd ((h.holder d).mpr ⟨v, hd'⟩)

/-- The transport takes the next bytes of the frame. -/
lemma OpenInv.transmit (h : OpenInv A pb key iv₀ s) (hw : s.job c = .writing w) (n : ℕ) :
    OpenInv A pb key iv₀ { s with
      wire := s.wire ++ ((s.payload w).drop w.sent).take n
      job := Function.update s.job c (.writing { w with sent := w.sent + n }) } := by
  have hwritten := h.writer c w hw
  refine ⟨h.isOpen, h.mutex, ?_, ?_, ?_⟩
  · intro d
    rw [h.holder d]
    simp only [Function.update_apply]
    split
    · next hdc => simp [hdc, hw]
    · exact Iff.rfl
  · intro d v hd
    simp only [Function.update_apply] at hd
    split at hd
    · obtain rfl := WriteJob.writing.inj hd
      refine ⟨hwritten.frame, ?_, hwritten.buffer, hwritten.unmasked, hwritten.iv⟩
      simp only
      rw [hwritten.payload, hwritten.wire, List.append_assoc, List.take_add]
    · next hdc => exact absurd hd (h.not_writing hw v hdc)
  · intro hnone
    exact absurd (Function.update_self c _ s.job) (hnone c _)

/-- The whole frame has been taken: it is one of the frames that were sent. -/
lemma OpenInv.complete (h : OpenInv A pb key iv₀ s) (hw : s.job c = .writing w)
    (hall : w.sent = w.frame.length)
    (hrun : { s with done := s.done ++ [(w.call, w.event)] }.runUnlock c w.call true = some s') :
    OpenInv A pb key iv₀ s' := by
  have hwritten := h.writer c w hw
  refine runUnlock_open hrun h.isOpen h.mutex (fun d hd => h.not_holding hw hd)
    (fun d v hd => h.not_writing hw v hd) ?_ ?_
  · rw [frames_concat]
    simp only
    rw [← hwritten.frame, hwritten.wire, hall, List.take_length]
  · rw [nextIv_concat]
    exact hwritten.iv

/-- A coroutine returns from `Unlock`. -/
lemma OpenInv.unlocked {call : ℕ} {success : Bool} {m : MutexState κ} (h : OpenInv A pb key iv₀ s)
    (hjob : s.job c = .unlocking call success) (hm : s.writeMutex.step (.finish c) = some m) :
    OpenInv A pb key iv₀ { s with
      writeMutex := m
      job := Function.update s.job c .idle
      returned := s.returned ++ [(call, success)] } := by
  refine h.move (MutexState.step_inv (by simp) h.mutex hm) (by simp) (by simp [hjob]) ?_ ?_
    s.calls _
  · simp only [MutexState.step, Option.ite_none_right_eq_some, Option.some_inj] at hm
    obtain ⟨-, rfl⟩ := hm
    simp
  · intro d hd
    exact MutexState.step_holding_of_ne (by simp) h.mutex.core hm
      (by simpa [MutexState.actor] using Ne.symm hd)

end Open

/-- A step of an open connection on which no `AsyncWrite` fails. -/
lemma step_openInv {a : WriteAction κ} (hbase : Base key s) (h : OpenInv A pb key iv₀ s)
    (herr : NoOpenError s a) (hstep : step A pb s a = some s') : Inv A pb key iv₀ s' := by
  cases a with
  | write c event env =>
      simp only [step] at hstep
      split at hstep
      · next hidle =>
          obtain ⟨m, hm, hafter⟩ := Option.bind_eq_some_iff.mp hstep
          have hstart : OpenInv A pb key iv₀ (s.start c event) :=
            h.move h.mutex (by simp) (by simp [hidle])
              (fun hc => by obtain ⟨w, hw⟩ := (h.holder c).mp hc; rw [hidle] at hw; cases hw)
              (fun d _ => Iff.rfl) (s.calls + 1) s.returned
          exact .inl (afterLock_open (s := s.start c event) (a := .lock c) hbase.keyed hstart
            (by simp [start]) (by simp) rfl hm hafter)
      · cases hstep
  | resume c env =>
      simp only [step] at hstep
      split at hstep
      · next call event hlocking =>
          obtain ⟨m, hm, hafter⟩ := Option.bind_eq_some_iff.mp hstep
          exact .inl (afterLock_open (a := .resume c) hbase.keyed h (by simp [hlocking]) (by simp)
            rfl hm hafter)
      · cases hstep
  | transmit c n =>
      simp only [step] at hstep
      split at hstep
      · next w hw =>
          split at hstep
          · obtain rfl := Option.some.inj hstep
            exact .inl (h.transmit hw n)
          · cases hstep
      · cases hstep
  | complete c =>
      simp only [step] at hstep
      split at hstep
      · next w hw =>
          split at hstep
          · next hall => exact .inl (h.complete hw hall hstep)
          · cases hstep
      · cases hstep
  | writeError c => exact absurd h.isOpen herr
  | unlocked c =>
      simp only [step] at hstep
      split at hstep
      · next call success hunlocking =>
          obtain ⟨m, hm, rfl⟩ := Option.map_eq_some_iff.mp hstep
          exact .inl (h.unlocked hunlocking hm)
      · cases hstep
  | close =>
      simp only [step] at hstep
      obtain ⟨m, -, rfl⟩ := Option.map_eq_some_iff.mp hstep
      have hclosed := h.closedInv
      exact .inr ⟨by simp, hclosed.tail, hclosed.single⟩

lemma step_inv {a : WriteAction κ} (hbase : Base key s) (h : Inv A pb key iv₀ s)
    (herr : NoOpenError s a) (hstep : step A pb s a = some s') : Inv A pb key iv₀ s' := by
  rcases h with h | ⟨hclosed, h⟩
  · exact step_openInv hbase h herr hstep
  · obtain ⟨h', hclosed', -⟩ := step_closedInv hbase hclosed h hstep
    exact .inr ⟨hclosed', h'⟩

lemma run_inv {ctx : CipherContext} {masks : Bool} {as : List (WriteAction κ)}
    (hk : ctx.Keyed key) (herr : Along (step A pb) NoOpenError (init ctx masks) as)
    (h : exec (step A pb) (init ctx masks) as = some s) :
    Base key s ∧ Ledger s ∧ Inv A pb key ctx.encryptIv s := by
  refine exec_invariant_along
    (I := fun s => Base key s ∧ Ledger s ∧ Inv A pb key ctx.encryptIv s) ?_ ?_ herr h
  · rintro s a s' ⟨hbase, hledger, hinv⟩ hC hstep
    exact ⟨step_base hbase hstep, step_ledger hbase hledger hstep,
      step_inv hbase hinv hC hstep⟩
  · exact ⟨⟨hk, fun c w hw => by cases hw⟩, ledger_init ctx masks, .inl (openInv_init ctx masks)⟩

/-- **Concurrent writers transmit whole frames in nonce order.**  Any number of coroutines call
`Write` on an authenticated connection, and no `AsyncWrite` fails while it is open.  Then, in
every state reached:

* the bytes transmitted are the frames of the calls in `done`, the one at index `k` sealed with
  `iv + k`, and then a prefix of the next frame, which on an open connection is the one being
  written;
* the calls in `done` are distinct, they are those that have returned true or are in the `Unlock`
  from which they will, and every call that has returned true is among them;
* while the connection is open, `write_buffer_` holds the frame being written as the transport
  took it, unmasked unless the transport masks payloads;
* after `Close` nothing is transmitted, and no call started later has returned true. -/
theorem concurrent_writes_transmit_frames (A : Aead) (pb : Nanopb) (key : Bytes)
    (ctx : CipherContext) (hctx : ctx.FromNew "chacha20_poly1305" key) (masks : Bool)
    (as : List (WriteAction κ)) (s : WriterState κ)
    (herr : Along (step A pb) NoOpenError (init ctx masks) as)
    (h : exec (step A pb) (init ctx masks) as = some s) :
    (∃ ev tail,
        s.wire = (frames A pb (CipherContext.resize 32 key) ctx.encryptIv s.done).flatten ++ tail ∧
        tail <+: sealedFrame A pb (CipherContext.resize 32 key) (nextIv ctx.encryptIv s.done) ev ∧
        (s.closedAt = none → tail ≠ [] →
          ∃ c w, s.job c = .writing w ∧ w.event = ev ∧ tail = w.frame.take w.sent)) ∧
      ((s.done.map Prod.fst).Nodup ∧
        (∀ x ∈ s.done, (x.1, true) ∈ s.returned ∨ ∃ c, s.job c = .unlocking x.1 true) ∧
        ∀ n, (n, true) ∈ s.returned → n ∈ s.done.map Prod.fst) ∧
      (s.closedAt = none → ∀ c w, s.job c = .writing w →
        w.frame = sealedFrame A pb (CipherContext.resize 32 key) (nextIv ctx.encryptIv s.done)
            w.event ∧
          s.writeBuffer.take w.frame.length = maskPayload w.maskKey w.frame ∧
          (s.masks = false → s.writeBuffer.take w.frame.length = w.frame)) ∧
      ∀ m, s.closedAt = some m →
        (∀ n, (n, true) ∈ s.returned → n < m) ∧
          ∀ a s', step A pb s a = some s' → s'.wire = s.wire := by
  obtain ⟨hbase, hledger, hinv⟩ := run_inv hctx.keyed herr h
  refine ⟨?_, ⟨hledger.nodup, hledger.accounted, hledger.truthful⟩, ?_, ?_⟩
  · rcases hinv with hopen | ⟨hclosed, htail⟩
    · by_cases hw : ∃ c w, s.job c = .writing w
      · obtain ⟨c, w, hw⟩ := hw
        have hwritten := hopen.writer c w hw
        refine ⟨w.event, w.frame.take w.sent, hwritten.wire, ?_, fun _ _ => ⟨c, w, hw, rfl, rfl⟩⟩
        rw [← hwritten.frame]
        exact List.take_prefix _ _
      · have hnone : ∀ c w, s.job c ≠ .writing w := fun c w hcw => hw ⟨c, w, hcw⟩
        refine ⟨.ofBody .retireConnRequest, [], ?_, List.nil_prefix, fun _ hne => absurd rfl hne⟩
        rw [(hopen.free hnone).1, List.append_nil]
    · obtain ⟨ev, tail, hwire, hpre, -⟩ := htail.tail
      exact ⟨ev, tail, hwire, hpre, fun hopen => absurd hopen hclosed⟩
  · intro hopen c w hw
    rcases hinv with hinv | ⟨hclosed, -⟩
    · have hwritten := hinv.writer c w hw
      refine ⟨hwritten.frame, hwritten.buffer, fun hmask => ?_⟩
      rw [hwritten.buffer, hwritten.unmasked hmask]
      exact maskPayload_nil w.frame
    · exact absurd hopen hclosed
  · intro m hm
    rcases hinv with hinv | ⟨hclosed, hinv⟩
    · rw [hinv.isOpen] at hm
      cases hm
    · refine ⟨fun n hn => ?_, fun a s' hstep => (step_closedInv hbase hclosed hinv hstep).2.2⟩
      obtain ⟨x, hx, rfl⟩ := List.mem_map.mp (hledger.truthful n hn)
      exact (hledger.closed m hm).1 x hx

/-- Two calls over a transport that masks payloads, the second one waiting for the first: the
first frame is on the wire and its call is still in `Unlock` when the second one is being
written. -/
def overlappingRun : List (WriteAction (Fin 2)) :=
  [.write 0 (.ofBody .streamCloseRequest 1) ⟨[], [1]⟩,
    .write 1 (.ofBody .streamCloseRequest 3) ⟨[], [1]⟩,
    .transmit 0 24, .complete 0, .resume 1 ⟨[], [1]⟩, .transmit 1 1]

lemma overlappingRun_noOpenError (s : WriterState (Fin 2)) :
    Along (step A pb) NoOpenError s overlappingRun := by
  refine along_of_forall (fun a ha s => ?_) s
  simp only [overlappingRun, List.mem_cons, List.not_mem_nil, or_false] at ha
  rcases ha with rfl | rfl | rfl | rfl | rfl | rfl <;> trivial

/-- The length of the frame a job is writing and its masking key. -/
def inFlight : WriteJob → Option (ℕ × Bytes)
  | .writing w => some (w.frame.length, w.maskKey)
  | _ => none

lemma overlappingRun_result :
    ∃ ctx s, CipherContext.new "chacha20_poly1305" [1] = some ctx ∧
      exec (step chacha20Poly1305 protobuf) (init ctx true) overlappingRun = some s ∧
      s.wire.length = 25 ∧ s.returned = [] ∧ s.closedAt = none ∧
      inFlight (s.job 0) = none ∧ inFlight (s.job 1) = some (24, [1]) := by
  have hrun : ((CipherContext.new "chacha20_poly1305" [1]).bind fun ctx =>
      (exec (step chacha20Poly1305 protobuf) (init ctx true) overlappingRun).map fun s =>
        (s.wire.length, s.returned, s.closedAt, inFlight (s.job 0),
          inFlight (s.job 1))) =
      some (25, [], none, none, some (24, [1])) := by rfl
  obtain ⟨ctx, hctx, hmap⟩ := Option.bind_eq_some_iff.mp hrun
  obtain ⟨s, hs, hfields⟩ := Option.map_eq_some_iff.mp hmap
  simp only [Prod.mk.injEq] at hfields
  exact ⟨ctx, s, hctx, hs, hfields⟩

lemma inFlight_eq {j : WriteJob} {n : ℕ} {k : Bytes} (h : inFlight j = some (n, k)) :
    ∃ w, j = .writing w ∧ w.frame.length = n ∧ w.maskKey = k := by
  cases j with
  | writing w =>
      obtain ⟨hlen, hkey⟩ := Prod.mk.inj (Option.some.inj h)
      exact ⟨w, rfl, hlen, hkey⟩
  | idle => cases h
  | locking call event => cases h
  | unlocking call success => cases h

theorem concurrent_writes_transmit_frames_overlapping :
    ∃ ctx s, CipherContext.new "chacha20_poly1305" [1] = some ctx ∧
      exec (step chacha20Poly1305 protobuf) (init ctx true) overlappingRun = some s ∧
      s.wire.length = 25 ∧
      ∃ ev tail,
        s.wire = (frames chacha20Poly1305 protobuf (CipherContext.resize 32 [1]) ctx.encryptIv
          s.done).flatten ++ tail ∧
        tail <+: sealedFrame chacha20Poly1305 protobuf (CipherContext.resize 32 [1])
          (nextIv ctx.encryptIv s.done) ev := by
  obtain ⟨ctx, s, hctx, hs, hlen, -⟩ := overlappingRun_result
  obtain ⟨⟨ev, tail, hwire, htail, -⟩, -⟩ :=
    concurrent_writes_transmit_frames chacha20Poly1305 protobuf [1] ctx ⟨ctx, hctx, rfl⟩ true
      overlappingRun s (overlappingRun_noOpenError _) hs
  exact ⟨ctx, s, hctx, hs, hlen, ev, tail, hwire, htail⟩

/-- The wire holds the frames of the calls that have returned true, and at most a part of the
frame being written. -/
def OnlyReturned (A : Aead) (pb : Nanopb) (key : Bytes) (iv₀ : UInt64) (s : WriterState κ) :
    Prop :=
  ∃ tail, s.wire =
      (frames A pb key iv₀ (s.done.filter fun x => (x.1, true) ∈ s.returned)).flatten ++ tail ∧
    (tail = [] ∨ ∃ c w, s.job c = .writing w ∧ tail <+: w.frame)

omit [DecidableEq κ] [Fintype κ] in
lemma not_onlyReturned {n : ℕ} (hnone : s.returned = [])
    (hframe : ∀ c w, s.job c = .writing w → w.frame.length ≤ n) (hlong : n < s.wire.length) :
    ¬ OnlyReturned A pb key iv₀ s := by
  rintro ⟨tail, hwire, htail⟩
  have hnil : s.done.filter (fun x => (x.1, true) ∈ s.returned) = [] := by
    simp [hnone]
  rw [hnil] at hwire
  have hlen : s.wire.length = tail.length := by rw [hwire]; rfl
  rcases htail with rfl | ⟨c, w, hw, hpre⟩
  · rw [List.length_nil] at hlen
    omega
  · have hle := hpre.length_le
    have hbound := hframe c w hw
    omega

/-- A key with a non-zero byte changes the payload. -/
lemma maskPayload_ne {bs : Bytes} (h : bs ≠ []) : maskPayload [1] bs ≠ bs := by
  cases bs with
  | nil => exact absurd rfl h
  | cons b bs =>
      intro heq
      rw [maskPayload, List.mapIdx_cons] at heq
      have hhead : b ^^^ 1 = b := (List.cons.inj heq).1
      have hone : b ^^^ (b ^^^ 1) = (1 : UInt8) := by
        rw [← UInt8.xor_assoc, UInt8.xor_self, UInt8.zero_xor]
      rw [hhead, UInt8.xor_self] at hone
      exact absurd hone (by decide)

/-- In the run above, on an open connection whose writes all succeed, no call has returned
although a whole frame and a byte are on the wire, and `write_buffer_` no longer holds the frame
being written as `Encrypt` left it. -/
theorem overlapping_writes_outrun_returns :
    ∃ ctx s, CipherContext.new "chacha20_poly1305" [1] = some ctx ∧
      exec (step chacha20Poly1305 protobuf) (init ctx true) overlappingRun = some s ∧
      Along (step chacha20Poly1305 protobuf) NoOpenError (init ctx true) overlappingRun ∧
      s.closedAt = none ∧
      ¬ OnlyReturned chacha20Poly1305 protobuf (CipherContext.resize 32 [1]) ctx.encryptIv s ∧
      ∃ c w, s.job c = .writing w ∧ s.writeBuffer.take w.frame.length ≠ w.frame := by
  obtain ⟨ctx, s, hctx, hs, hlen, hnone, hopen, hfirst, hsecond⟩ := overlappingRun_result
  obtain ⟨w, hw, hframe, hmask⟩ := inFlight_eq hsecond
  refine ⟨ctx, s, hctx, hs, overlappingRun_noOpenError _, hopen, ?_, 1, w, hw, ?_⟩
  · refine not_onlyReturned (n := 24) hnone (fun c v hv => ?_) (by omega)
    match c with
    | 0 =>
        rw [hv] at hfirst
        cases hfirst
    | 1 =>
        obtain rfl := WriteJob.writing.inj (hw.symm.trans hv)
        exact hframe.le
  · have hk := CipherContext.keyed_of_new hctx
    obtain ⟨-, -, hinv⟩ := run_inv hk (overlappingRun_noOpenError _) hs
    rcases hinv with hinv | ⟨hclosed, -⟩
    · rw [(hinv.writer 1 w hw).buffer, hmask]
      exact maskPayload_ne (List.ne_nil_of_length_pos (by omega))
    · exact absurd hopen hclosed

end Snova.WriterState
