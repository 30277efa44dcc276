import Snova.Framework.Measure
import Snova.Properties.MutexProgress
import Snova.Properties.Write

/-!
# Writers are released

A step of `Write` is a few steps of the mutex (`step_mutex`), and `Write` and the mutex agree about
where each coroutine is (`Placed`), in every run.  So what the mutex guarantees carries over: the
steps of the coroutines are bounded by the calls, and after `Close` a coroutine is waited for by
nobody but its transport.

`Close` makes `Lock` fail, but `Write` does not look at what `Lock` returns.  The coroutines go on
to `AsyncWrite`, which reports an error, and each call returns.
-/

namespace Snova

variable {κ : Type} [DecidableEq κ]

namespace WriterState

variable {A : Aead} {pb : Nanopb} {s s' : WriterState κ} {c : κ} {call : ℕ} {event : MuxEvent}
  {env : WriteEnv} {m m' : MutexState κ}

/-! ## A step of `Write` and the steps of the mutex -/

/-- What a step of `Write` can make the mutex do. -/
def mutexRuns : WriteAction κ → List (List (MutexAction κ))
  | .write c .. => [[.lock c], [.lock c, .unlock c]]
  | .resume c _ => [[.resume c], [.resume c, .unlock c]]
  | .transmit .. => [[]]
  | .complete c => [[.unlock c]]
  | .writeError c => [[.unlock c]]
  | .unlocked c => [[.finish c]]
  | .close => [[.close]]

lemma runUnlock_mutex {success : Bool} (h : s.runUnlock c call success = some s') :
    exec MutexState.step s.writeMutex [.unlock c] = some s'.writeMutex := by
  obtain ⟨-, -, hm⟩ := runUnlock_leaves h
  rw [exec_cons_of_step hm, exec_nil]

lemma afterLock_mutex (h : s.afterLock A pb c call event env m = some s') :
    s'.writeMutex = m ∨ exec MutexState.step m [.unlock c] = some s'.writeMutex := by
  simp only [afterLock] at h
  split at h
  · simp only [runEncrypt] at h
    split at h
    · exact .inr (runUnlock_mutex h)
    · obtain rfl := Option.some.inj h
      exact .inl rfl
  · obtain rfl := Option.some.inj h
    exact .inl rfl

/-- A stretch of `Lock`, and `Unlock` if `Encrypt` fails. -/
lemma exec_afterLock {a : MutexAction κ} (hm : s.writeMutex.step a = some m)
    (h : s'.writeMutex = m ∨ exec MutexState.step m [.unlock c] = some s'.writeMutex) :
    ∃ as ∈ [[a], [a, .unlock c]],
      exec MutexState.step s.writeMutex as = some s'.writeMutex := by
  rcases h with hsame | hunlock
  · refine ⟨[a], by simp, ?_⟩
    rw [exec_cons_of_step hm, exec_nil, hsame]
  · refine ⟨[a, .unlock c], by simp, ?_⟩
    rw [exec_cons_of_step hm, hunlock]

lemma step_mutex {a : WriteAction κ} (hstep : step A pb s a = some s') :
    ∃ as ∈ mutexRuns a, exec MutexState.step s.writeMutex as = some s'.writeMutex := by
  cases a with
  | write c event env =>
      simp only [step] at hstep
      split at hstep
      · obtain ⟨m, hm, hafter⟩ := Option.bind_eq_some_iff.mp hstep
        exact exec_afterLock hm (afterLock_mutex hafter)
      · cases hstep
  | resume c env =>
      simp only [step] at hstep
      split at hstep
      · obtain ⟨m, hm, hafter⟩ := Option.bind_eq_some_iff.mp hstep
        exact exec_afterLock hm (afterLock_mutex hafter)
      · cases hstep
  | transmit c n =>
      simp only [step] at hstep
      split at hstep
      · split at hstep
        · obtain rfl := Option.some.inj hstep
          exact ⟨[], by simp [mutexRuns], rfl⟩
        · cases hstep
      · cases hstep
  | complete c =>
      simp only [step] at hstep
      split at hstep
      · next w hw =>
          split at hstep
          · exact ⟨[.unlock c], by simp [mutexRuns],
              runUnlock_mutex (s := { s with done := s.done ++ [(w.call, w.event)] }) hstep⟩
          · cases hstep
      · cases hstep
  | writeError c =>
      simp only [step] at hstep
      split at hstep
      · exact ⟨[.unlock c], by simp [mutexRuns], runUnlock_mutex hstep⟩
      · cases hstep
  | unlocked c =>
      simp only [step] at hstep
      split at hstep
      · obtain ⟨m, hm, rfl⟩ := Option.map_eq_some_iff.mp hstep
        exact ⟨[.finish c], by simp [mutexRuns], by rw [exec_cons_of_step hm, exec_nil]⟩
      · cases hstep
  | close =>
      simp only [step] at hstep
      obtain ⟨m, hm, rfl⟩ := Option.map_eq_some_iff.mp hstep
      exact ⟨[.close], by simp [mutexRuns], by rw [exec_cons_of_step hm, exec_nil]⟩

lemma step_sound [Fintype κ] {a : WriteAction κ} (h : s.writeMutex.Sound)
    (hstep : step A pb s a = some s') : s'.writeMutex.Sound := by
  obtain ⟨as, -, hexec⟩ := step_mutex hstep
  exact exec_invariant (fun _ _ _ hs hstep => MutexState.step_sound hs hstep) h hexec

/-! ## Where a coroutine is -/

def jobRegion : WriteJob → MutexState.Region
  | .idle => .outside
  | .locking .. => .locking
  | .writing _ => .holding
  | .unlocking .. => .unlocking

/-- `Write` and the mutex agree about where each coroutine is. -/
def Placed (s : WriterState κ) : Prop :=
  ∀ c, MutexState.region (s.writeMutex.pc c) = jobRegion (s.job c)

/-- They agree about all but one. -/
def PlacedBut (m : MutexState κ) (job : κ → WriteJob) (c : κ) : Prop :=
  ∀ d, d ≠ c → MutexState.region (m.pc d) = jobRegion (job d)

lemma PlacedBut.step [Fintype κ] {job : κ → WriteJob} {a : MutexAction κ} (h : PlacedBut m job c)
    (hsound : m.Sound) (hactor : MutexState.actor a = some c) (hstep : m.step a = some m') :
    PlacedBut m' job c := by
  intro d hd
  have hne : MutexState.actor a ≠ some d := by
    rw [hactor]
    exact fun heq => hd (Option.some.inj heq).symm
  rw [hsound.region_of_ne hstep hne, h d hd]

/-- The job of the coroutine that has moved. -/
lemma PlacedBut.placed (job : WriteJob) (h : PlacedBut s'.writeMutex s.job c)
    (hjob : s'.job = Function.update s.job c job)
    (hregion : MutexState.region (s'.writeMutex.pc c) = jobRegion job) : Placed s' := by
  intro d
  rw [hjob]
  by_cases hd : d = c
  · subst hd
    rw [Function.update_self, hregion]
  · rw [Function.update_of_ne hd, h d hd]

lemma runUnlock_placed [Fintype κ] {success : Bool} (h : PlacedBut s.writeMutex s.job c)
    (hsound : s.writeMutex.Sound) (hrun : s.runUnlock c call success = some s') : Placed s' := by
  obtain ⟨m, hm, rfl⟩ := Option.map_eq_some_iff.mp hrun
  have hbut := h.step hsound rfl hm
  split
  · next hidle =>
      refine PlacedBut.placed (s := s) .idle hbut rfl ?_
      rw [hidle]
      rfl
  · next hidle =>
      exact PlacedBut.placed (s := s) (.unlocking call success) hbut rfl
        ((MutexState.region_unlock hm).resolve_left hidle)

lemma afterLock_placed [Fintype κ] (h : PlacedBut m s.job c) (hsound : m.Sound)
    (hself : MutexState.region (m.pc c) = .locking ∨ m.pc c = .holding ∨ m.pc c = .passing)
    (hafter : s.afterLock A pb c call event env m = some s') : Placed s' := by
  simp only [afterLock] at hafter
  split at hafter
  · next hcond =>
      simp only [runEncrypt] at hafter
      split at hafter
      · exact runUnlock_placed h hsound hafter
      · obtain rfl := Option.some.inj hafter
        refine PlacedBut.placed (s := s) _ h rfl ?_
        rcases hcond with hpc | hpc
        · simp only [hpc]
          rfl
        · simp only [hpc]
          rfl
  · next hcond =>
      obtain rfl := Option.some.inj hafter
      exact PlacedBut.placed (s := s) _ h rfl (hself.resolve_right hcond)

lemma step_placed [Fintype κ] {a : WriteAction κ} (hsound : s.writeMutex.Sound) (h : Placed s)
    (hstep : step A pb s a = some s') : Placed s' := by
  cases a with
  | write c event env =>
      simp only [step] at hstep
      split at hstep
      · obtain ⟨m, hm, hafter⟩ := Option.bind_eq_some_iff.mp hstep
        have hbut : PlacedBut s.writeMutex (s.start c event).job c := by
          intro d hd
          show _ = jobRegion (Function.update s.job c (.locking s.calls event) d)
          rw [Function.update_of_ne hd, h d]
        exact afterLock_placed (hbut.step hsound rfl hm) (MutexState.step_sound hsound hm)
          (MutexState.region_lock (.inl rfl) hm) hafter
      · cases hstep
  | resume c env =>
      simp only [step] at hstep
      split at hstep
      · obtain ⟨m, hm, hafter⟩ := Option.bind_eq_some_iff.mp hstep
        have hbut : PlacedBut s.writeMutex s.job c := fun d _ => h d
        exact afterLock_placed (hbut.step hsound rfl hm) (MutexState.step_sound hsound hm)
          (MutexState.region_lock (.inr rfl) hm) hafter
      · cases hstep
  | transmit c n =>
      simp only [step] at hstep
      split at hstep
      · next w hw =>
          split at hstep
          · obtain rfl := Option.some.inj hstep
            refine PlacedBut.placed (s := s) (c := c) _ (fun d _ => h d) rfl ?_
            show MutexState.region (s.writeMutex.pc c) = .holding
            rw [h c, hw]
            rfl
          · cases hstep
      · cases hstep
  | complete c =>
      simp only [step] at hstep
      split at hstep
      · next w hw =>
          split at hstep
          · exact runUnlock_placed (s := { s with done := s.done ++ [(w.call, w.event)] })
              (fun d _ => h d) hsound hstep
          · cases hstep
      · cases hstep
  | writeError c =>
      simp only [step] at hstep
      split at hstep
      · exact runUnlock_placed (fun d _ => h d) hsound hstep
      · cases hstep
  | unlocked c =>
      simp only [step] at hstep
      split at hstep
      · obtain ⟨m, hm, rfl⟩ := Option.map_eq_some_iff.mp hstep
        have hbut : PlacedBut s.writeMutex s.job c := fun d _ => h d
        refine PlacedBut.placed (s := s) .idle (hbut.step hsound rfl hm) rfl ?_
        simp only [MutexState.step, Option.ite_none_right_eq_some, Option.some_inj] at hm
        obtain ⟨-, rfl⟩ := hm
        simp [MutexState.region, jobRegion]
      · cases hstep
  | close =>
      simp only [step] at hstep
      obtain ⟨m, hm, rfl⟩ := Option.map_eq_some_iff.mp hstep
      intro d
      show MutexState.region (m.pc d) = jobRegion (s.job d)
      rw [hsound.region_of_ne hm (by simp [MutexState.actor]), h d]

/-! ## The calls -/

/-- A call goes on, or returns. -/
inductive Proceeded (s : WriterState κ) (c : κ) (call : ℕ) (s' : WriterState κ) : Prop
  | within (job : WriteJob) (hjob : s'.job = Function.update s.job c job)
      (hcall : jobCall job = some call) (hreturned : s'.returned = s.returned)
  | returned (success : Bool) (hjob : s'.job = Function.update s.job c .idle)
      (hreturned : s'.returned = s.returned ++ [(call, success)])

/-- What else has changed before does not matter. -/
lemma Proceeded.congr {t : WriterState κ} (h : Proceeded t c call s') (hjob : t.job = s.job)
    (hreturned : t.returned = s.returned) : Proceeded s c call s' := by
  cases h with
  | within job hmoved hcall hsame =>
      exact .within job (hmoved.trans (by rw [hjob])) hcall (hsame.trans hreturned)
  | returned success hmoved hsame =>
      exact .returned success (hmoved.trans (by rw [hjob])) (hsame.trans (by rw [hreturned]))

/-- The number of calls and the time of `Close` stay. -/
structure Undisturbed (s s' : WriterState κ) : Prop where
  calls : s'.calls = s.calls
  closedAt : s'.closedAt = s.closedAt

lemma runUnlock_proceeded {success : Bool} (h : s.runUnlock c call success = some s') :
    Proceeded s c call s' ∧ Undisturbed s s' := by
  obtain ⟨hleft, -, -⟩ := runUnlock_leaves h
  refine ⟨?_, hleft.same.calls, hleft.same.closedAt⟩
  cases hleft with
  | returned same job record => exact .returned success job record
  | unlocking same job record => exact .within _ job rfl record

lemma afterLock_proceeded (h : s.afterLock A pb c call event env m = some s') :
    Proceeded s c call s' ∧ Undisturbed s s' := by
  simp only [afterLock] at h
  split at h
  · simp only [runEncrypt] at h
    split at h
    · obtain ⟨hproceeded, hcalls, hclosedAt⟩ := runUnlock_proceeded h
      exact ⟨hproceeded.congr rfl rfl, hcalls, hclosedAt⟩
    · obtain rfl := Option.some.inj h
      exact ⟨.within _ rfl rfl rfl, rfl, rfl⟩
  · obtain rfl := Option.some.inj h
    exact ⟨.within _ rfl rfl rfl, rfl, rfl⟩

/-- Everything a step does to the calls. -/
inductive CallSpec (s : WriterState κ) : WriteAction κ → WriterState κ → Prop
  | write {c : κ} {event : MuxEvent} {env : WriteEnv} {s' : WriterState κ}
      (hidle : s.job c = .idle) (hproceeded : Proceeded (s.start c event) c s.calls s')
      (hsame : Undisturbed (s.start c event) s') : CallSpec s (.write c event env) s'
  | goesOn {a : WriteAction κ} {c : κ} {call : ℕ} {s' : WriterState κ}
      (hcall : jobCall (s.job c) = some call) (hproceeded : Proceeded s c call s')
      (hsame : Undisturbed s s') : CallSpec s a s'
  | close {s' : WriterState κ} (hjob : s'.job = s.job) (hreturned : s'.returned = s.returned)
      (hcalls : s'.calls = s.calls) (hclosedAt : s'.closedAt ≠ none) : CallSpec s .close s'

lemma step_calls {a : WriteAction κ} (hstep : step A pb s a = some s') : CallSpec s a s' := by
  cases a with
  | write c event env =>
      simp only [step] at hstep
      split at hstep
      · next hidle =>
          obtain ⟨m, -, hafter⟩ := Option.bind_eq_some_iff.mp hstep
          obtain ⟨hproceeded, hsame⟩ := afterLock_proceeded hafter
          exact .write hidle hproceeded hsame
      · cases hstep
  | resume c env =>
      simp only [step] at hstep
      split at hstep
      · next call event hlocking =>
          obtain ⟨m, -, hafter⟩ := Option.bind_eq_some_iff.mp hstep
          obtain ⟨hproceeded, hsame⟩ := afterLock_proceeded hafter
          exact .goesOn (by rw [hlocking]; rfl) hproceeded hsame
      · cases hstep
  | transmit c n =>
      simp only [step] at hstep
      split at hstep
      · next w hw =>
          split at hstep
          · obtain rfl := Option.some.inj hstep
            exact .goesOn (c := c) (by rw [hw]; rfl) (.within _ rfl rfl rfl) ⟨rfl, rfl⟩
          · cases hstep
      · cases hstep
  | complete c =>
      simp only [step] at hstep
      split at hstep
      · next w hw =>
          split at hstep
          · obtain ⟨hproceeded, hcalls, hclosedAt⟩ := runUnlock_proceeded hstep
            have hcall : jobCall (s.job c) = some w.call := by rw [hw, jobCall]
            exact .goesOn hcall (hproceeded.congr rfl rfl) ⟨hcalls, hclosedAt⟩
          · cases hstep
      · cases hstep
  | writeError c =>
      simp only [step] at hstep
      split at hstep
      · next w hw =>
          obtain ⟨hproceeded, hsame⟩ := runUnlock_proceeded hstep
          exact .goesOn (by rw [hw]; rfl) hproceeded hsame
      · cases hstep
  | unlocked c =>
      simp only [step] at hstep
      split at hstep
      · next call success hjob =>
          obtain ⟨m, -, rfl⟩ := Option.map_eq_some_iff.mp hstep
          exact .goesOn (c := c) (by rw [hjob]; rfl) (.returned success rfl rfl) ⟨rfl, rfl⟩
      · cases hstep
  | close =>
      simp only [step] at hstep
      obtain ⟨m, -, rfl⟩ := Option.map_eq_some_iff.mp hstep
      exact .close rfl rfl rfl (by simp)

/-- Whether a job is of the call `n`. -/
def ofCall (n : ℕ) (job : WriteJob) : ℕ := if jobCall job = some n then 1 else 0

/-- Each call that has been started is in one coroutine, or has returned once. -/
def Answered [Fintype κ] (s : WriterState κ) : Prop :=
  ∀ n, weight (ofCall n) s.job + (s.returned.map Prod.fst).count n = if n < s.calls then 1 else 0

omit [DecidableEq κ] in
lemma answered_init [Fintype κ] (ctx : CipherContext) (masks : Bool) :
    Answered (init ctx masks : WriterState κ) := by
  intro n
  simp [init, weight, ofCall, jobCall]

lemma Answered.start [Fintype κ] (h : Answered s) (hidle : s.job c = .idle) (event : MuxEvent) :
    Answered (s.start c event) := by
  intro n
  have hcount := h n
  have hweight := weight_update (ofCall n) s.job c (.locking s.calls event)
  rw [hidle] at hweight
  simp only [ofCall, jobCall, reduceCtorEq, if_false, Option.some_inj] at hweight
  show weight (ofCall n) (Function.update s.job c (.locking s.calls event)) +
    (s.returned.map Prod.fst).count n = if n < s.calls + 1 then 1 else 0
  have hnew : (if n < s.calls + 1 then 1 else 0) =
      (if n < s.calls then 1 else 0) + if s.calls = n then 1 else 0 := by
    rcases lt_trichotomy n s.calls with hlt | rfl | hlt
    · rw [if_pos (by omega), if_pos hlt, if_neg (by omega)]
    · simp
    · rw [if_neg (by omega), if_neg (by omega), if_neg (by omega)]
  omega

lemma Proceeded.answered [Fintype κ] (hproceeded : Proceeded s c call s')
    (hcall : jobCall (s.job c) = some call) (hcalls : s'.calls = s.calls) (h : Answered s) :
    Answered s' := by
  intro n
  have hcount := h n
  rw [hcalls]
  cases hproceeded with
  | within job hjob hsame hreturned =>
      have hweight := weight_update (ofCall n) s.job c job
      rw [ofCall, ofCall, hcall, hsame] at hweight
      rw [hjob, hreturned]
      omega
  | returned success hjob hreturned =>
      have hweight := weight_update (ofCall n) s.job c .idle
      rw [ofCall, ofCall, hcall] at hweight
      simp only [jobCall, reduceCtorEq, if_false, Option.some_inj] at hweight
      rw [hjob, hreturned, List.map_append, List.count_append, List.map_cons, List.map_nil,
        List.count_singleton]
      simp only [beq_iff_eq]
      omega

lemma step_answered [Fintype κ] {a : WriteAction κ} (h : Answered s)
    (hstep : step A pb s a = some s') : Answered s' := by
  cases step_calls hstep with
  | @write c event env _ hidle hproceeded hsame =>
      exact hproceeded.answered (by simp [WriterState.start, jobCall]) hsame.calls
        (h.start hidle event)
  | goesOn hcall hproceeded hsame => exact hproceeded.answered hcall hsame.calls h
  | close hjob hreturned hcalls hclosedAt =>
      intro n
      rw [hjob, hreturned, hcalls]
      exact h n

/-! ## When nothing can go on -/

/-- The node has been closed, and so has its mutex. -/
def Shuts (s : WriterState κ) : Prop := s.closedAt ≠ none → s.writeMutex.Closed

lemma step_shuts [Fintype κ] {a : WriteAction κ} (hsound : s.writeMutex.Sound) (h : Shuts s)
    (hstep : step A pb s a = some s') : Shuts s' := by
  have hkeep : s.writeMutex.Closed → s'.writeMutex.Closed := by
    obtain ⟨as, -, hexec⟩ := step_mutex hstep
    exact fun hclosed => exec_invariant
      (fun _ _ _ hs hstep => (MutexState.Closed.step_spec hs hstep).closed hs) hclosed hexec
  intro hclosedAt
  cases step_calls hstep with
  | write hidle hproceeded hsame =>
      exact hkeep (h fun hopen => hclosedAt (hsame.closedAt.trans hopen))
  | goesOn hcall hproceeded hsame =>
      exact hkeep (h fun hopen => hclosedAt (hsame.closedAt.trans hopen))
  | close =>
      simp only [step] at hstep
      obtain ⟨m, hm, rfl⟩ := Option.map_eq_some_iff.mp hstep
      exact hsound.close hm

lemma runUnlock_ne_none {success : Bool}
    (h : s.writeMutex.pc c = .holding ∨ s.writeMutex.pc c = .passing) :
    s.runUnlock c call success ≠ none := by
  rw [runUnlock, MutexState.step, if_pos h]
  exact Option.some_ne_none _

lemma afterLock_ne_none {m : MutexState κ} : s.afterLock A pb c call event env m ≠ none := by
  rw [afterLock]
  split
  · next hcond =>
      rw [runEncrypt]
      split
      · exact runUnlock_ne_none hcond
      · exact Option.some_ne_none _
  · exact Option.some_ne_none _

/-- The steps of a coroutine in `Write` that wait for nobody outside: the transport of a closed
node reports an error for a pending `AsyncWrite`. -/
def goesOn : WriteAction κ → Bool
  | .resume .. => true
  | .complete _ => true
  | .writeError _ => true
  | .unlocked _ => true
  | _ => false

def isCall : WriteAction κ → Bool
  | .write .. => true
  | _ => false

/-- Every coroutine of a closed node can go on. -/
lemma exists_goesOn (A : Aead) (pb : Nanopb) (hclosed : s.writeMutex.Closed) (h : Placed s)
    (hjob : s.job c ≠ .idle) :
    ∃ a, goesOn a = true ∧ step A pb s a ≠ none := by
  have hregion := h c
  have hawake := hclosed.awake c
  cases hpc : s.job c with
  | idle => exact absurd hpc hjob
  | locking call event =>
      refine ⟨.resume c ⟨[], []⟩, rfl, ?_⟩
      rw [hpc] at hregion
      cases hmutex : s.writeMutex.pc c with
      | woken ec =>
          simp only [step, hpc, MutexState.step, hmutex, Option.bind_some]
          exact afterLock_ne_none
      | waiting => exact absurd hmutex hawake.1
      | _ =>
          rw [hmutex] at hregion
          cases hregion
  | writing w =>
      refine ⟨.writeError c, rfl, ?_⟩
      rw [hpc] at hregion
      simp only [step, hpc]
      refine runUnlock_ne_none ?_
      cases hmutex : s.writeMutex.pc c with
      | holding => exact .inl rfl
      | passing => exact .inr rfl
      | _ =>
          rw [hmutex] at hregion
          cases hregion
  | unlocking call success =>
      refine ⟨.unlocked c, rfl, ?_⟩
      rw [hpc] at hregion
      cases hmutex : s.writeMutex.pc c with
      | sent => simp [step, hpc, MutexState.step, hmutex]
      | sending => exact absurd hmutex hawake.2
      | _ =>
          rw [hmutex] at hregion
          cases hregion

/-- What is known of the writing node in every run. -/
structure Sane [Fintype κ] (s : WriterState κ) : Prop where
  sound : s.writeMutex.Sound
  placed : Placed s
  answered : Answered s
  shuts : Shuts s

omit [DecidableEq κ] in
lemma sane_init [Fintype κ] (ctx : CipherContext) (masks : Bool) :
    Sane (init ctx masks : WriterState κ) :=
  ⟨.inl MutexState.inv_init, fun _ => rfl, answered_init ctx masks, fun h => absurd rfl h⟩

lemma step_sane [Fintype κ] {a : WriteAction κ} (h : Sane s) (hstep : step A pb s a = some s') :
    Sane s' :=
  ⟨step_sound h.sound hstep, step_placed h.sound h.placed hstep, step_answered h.answered hstep,
    step_shuts h.sound h.shuts hstep⟩

/-- What a step adds to the measure of the mutex, at most. -/
def cost (a : WriteAction κ) : ℕ := if isCall a then 4 else 0

/-- A call pays for all that its coroutine, and those it wakes, will do. -/
lemma step_measure [Fintype κ] {a : WriteAction κ} (h : s.writeMutex.Sound)
    (hstep : step A pb s a = some s') :
    (goesOn a = true → s'.writeMutex.measure + 1 ≤ s.writeMutex.measure) ∧
      s'.writeMutex.measure ≤ s.writeMutex.measure + cost a := by
  obtain ⟨as, hmem, hexec⟩ := step_mutex hstep
  have hle := MutexState.exec_measure_le h hexec
  -- a stretch of `Lock`, with an `Unlock` after it or not
  have hpair : ∀ b : MutexAction κ, ∀ c, as ∈ [[b], [b, .unlock c]] →
      s'.writeMutex.measure + MutexState.takes b ≤ s.writeMutex.measure + MutexState.adds b := by
    intro b c hmem
    rcases List.mem_pair.mp hmem with rfl | rfl
    · exact hle
    · simp only [List.map_cons, List.map_nil, List.sum_cons, List.sum_nil, MutexState.takes,
        MutexState.adds] at hle ⊢
      omega
  cases a with
  | write c event env =>
      exact ⟨fun hown => absurd hown Bool.false_ne_true, hpair (.lock c) c hmem⟩
  | resume c env =>
      have hresume := hpair (.resume c) c hmem
      exact ⟨fun _ => hresume, Nat.le_of_succ_le hresume⟩
  | transmit c n =>
      obtain rfl := List.mem_singleton.mp hmem
      exact ⟨fun hown => absurd hown Bool.false_ne_true, hle⟩
  | close =>
      obtain rfl := List.mem_singleton.mp hmem
      exact ⟨fun hown => absurd hown Bool.false_ne_true, hle⟩
  | _ =>
      obtain rfl := List.mem_singleton.mp hmem
      exact ⟨fun _ => hle, Nat.le_of_succ_le hle⟩

omit [DecidableEq κ] in
lemma sum_cost (as : List (WriteAction κ)) :
    ((as.filter fun a => !goesOn a).map cost).sum = 4 * (as.filter isCall).length := by
  induction as with
  | nil => rfl
  | cons a as ih =>
      cases a with
      | write c event env =>
          rw [List.filter_cons_of_pos rfl, List.filter_cons_of_pos rfl, List.map_cons,
            List.sum_cons, List.length_cons, ih]
          show 4 + _ = _
          omega
      | _ => simpa [List.filter_cons, goesOn, isCall, cost] using ih

omit [DecidableEq κ] in
lemma perm_range_of_idle [Fintype κ] (h : Answered s) (hidle : ∀ c, s.job c = .idle) :
    (s.returned.map Prod.fst).Perm (List.range s.calls) := by
  rw [List.perm_iff_count]
  intro n
  have hcount := h n
  have hnone : weight (ofCall n) s.job = 0 := Finset.sum_eq_zero fun c _ => by
    rw [hidle c]
    rfl
  rw [hnone, Nat.zero_add] at hcount
  rw [hcount, List.count_range]

/-- **`Close` releases the writers.**  Any number of coroutines write, the transport fails or not,
and `Close` comes at any time, or never.  In every state reached:

* the coroutines have made at most four steps for each call of `Write`, so that they cannot send
  each other through `Lock` for ever;
* if the node has been closed and no coroutine can go on, none is in `Write` any more, and each
  call has returned, once. -/
theorem close_releases_writers [Fintype κ] (A : Aead) (pb : Nanopb) (ctx : CipherContext)
    (masks : Bool) (as : List (WriteAction κ)) (s : WriterState κ)
    (h : exec (step A pb) (init ctx masks) as = some s) :
    (as.filter goesOn).length ≤ 4 * (as.filter isCall).length ∧
      (s.closedAt ≠ none → (∀ a, goesOn a = true → step A pb s a = none) →
        (∀ c, s.job c = .idle) ∧ (s.returned.map Prod.fst).Perm (List.range s.calls)) := by
  have hsane := exec_invariant (fun _ _ _ hs hstep => step_sane hs hstep) (sane_init ctx masks) h
  refine ⟨?_, fun hclosedAt hquiet => ?_⟩
  · have hcount := exec_count_le (I := fun s => s.writeMutex.Sound)
      (fun _ _ _ hs hstep => step_sound hs hstep)
      (fun _ _ _ hs hstep hown => (step_measure hs hstep).1 hown)
      (fun _ _ _ hs hstep _ => (step_measure hs hstep).2) (sane_init ctx masks).sound h
    have hinit : (init ctx masks : WriterState κ).writeMutex.measure = 0 := by
      simp [init, MutexState.init, MutexState.measure, AsyncChannelMutex.new, weight,
        MutexState.rank]
    rw [sum_cost] at hcount
    omega
  · have hidle : ∀ c, s.job c = .idle := by
      intro c
      by_contra hjob
      obtain ⟨a, hgoesOn, hne⟩ := exists_goesOn A pb (hsane.shuts hclosedAt) hsane.placed hjob
      exact hne (hquiet a hgoesOn)
    exact ⟨hidle, perm_range_of_idle hsane.answered hidle⟩

/-- The second of two coroutines waits for the first when the node is closed. -/
def closedRun : List (WriteAction Bool) :=
  [.write false (.ofBody .streamCloseRequest 1) ⟨[], []⟩,
    .write true (.ofBody .streamCloseRequest 3) ⟨[], []⟩, .transmit false 3, .close,
    .resume true ⟨[], []⟩, .writeError true, .writeError false]

theorem close_releases_writers_waiting :
    ∃ ctx s, CipherContext.new "chacha20_poly1305" [1] = some ctx ∧
      exec (step chacha20Poly1305 protobuf) (init ctx false) closedRun = some s ∧
      s.returned = [(1, false), (0, false)] ∧ (∀ c, s.job c = .idle) ∧
      (s.returned.map Prod.fst).Perm (List.range s.calls) := by
  have hrun : ((CipherContext.new "chacha20_poly1305" [1]).bind fun ctx =>
      (exec (step chacha20Poly1305 protobuf) (init ctx false) closedRun).map fun s =>
        (s.returned, (s.job false, s.job true), s.closedAt)) =
      some ([(1, false), (0, false)], (.idle, .idle), some 2) := by rfl
  obtain ⟨ctx, hctx, hmap⟩ := Option.bind_eq_some_iff.mp hrun
  obtain ⟨s, hs, hfields⟩ := Option.map_eq_some_iff.mp hmap
  simp only [Prod.mk.injEq] at hfields
  obtain ⟨hreturned, ⟨hfirst, hsecond⟩, hclosedAt⟩ := hfields
  have hidle : ∀ c, s.job c = .idle := Bool.forall_bool.mpr ⟨hfirst, hsecond⟩
  obtain ⟨-, hreleased⟩ := close_releases_writers chacha20Poly1305 protobuf ctx false closedRun s hs
  have hquiet : ∀ a, goesOn a = true → step chacha20Poly1305 protobuf s a = none := by
    intro a hgoesOn
    cases a with
    | write c event env => cases hgoesOn
    | transmit c n => cases hgoesOn
    | close => cases hgoesOn
    | _ => simp only [step, hidle]
  obtain ⟨hjobs, hperm⟩ := hreleased (by simp [hclosedAt]) hquiet
  exact ⟨ctx, s, hctx, hs, hreturned, hjobs, hperm⟩

end WriterState

end Snova
