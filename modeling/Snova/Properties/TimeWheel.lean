import Snova.Model.TimeWheel

/-!
# Timers

Three questions about `TimeWheel`.  Is a task ever lost, or its callback called twice or after a
cancel?  No: `Kept` is the invariant, for the wheel and the part of the queue a tick has not
examined yet (`tasks_kept_and_fired_once`).

Does a timer fire early?  The difference `now - active_time` is unsigned, so it does when its
active time lies after the reading, as when the clock was set back (`fires_before_deadline`), and
only then (`fires_after_deadline`).

Does an expired timer fire soon?  A tick looks at the one slot of its reading and some ten slots
pass between two ticks, so it depends on the readings to come (`AllReached`).
-/

namespace Snova

lemma getIdxByMillsecs_lt {slotSize : ℕ} (h : 0 < slotSize) (ms : UInt64) :
    getIdxByMillsecs slotSize ms < slotSize :=
  Nat.mod_lt _ h

/-! ## The comparison with the clock -/

/-- A reading as the unsigned number it is converted to. -/
lemma toInt_reading (now : Int64) :
    now.toInt = now.toUInt64.toNat ∧ now.toUInt64.toNat < 2 ^ 63 ∨
      now.toInt = now.toUInt64.toNat - 2 ^ 64 ∧ now.toInt < 0 := by
  have hlt := now.toUInt64.toNat_lt
  have h := BitVec.toInt_eq_toNat_cond now.toBitVec
  rw [Int64.toInt_toBitVec, Int64.toNat_toBitVec] at h
  split at h <;> omega

/-- Without a wrap the comparison is that of the integers. -/
lemma TimerTask.deadline_of_isExpired {task : TimerTask} {now : Int64} {activeTime : UInt64}
    (hpast : (activeTime.toNat : ℤ) ≤ now.toInt) (h : task.isExpired now activeTime = true) :
    (activeTime.toNat : ℤ) + task.timeoutMsecs.toNat < now.toInt := by
  have hnow := toInt_reading now
  have hsub := UInt64.toNat_sub_of_le now.toUInt64 activeTime
    (UInt64.le_iff_toNat_le.mpr (by omega))
  have hlt : task.timeoutMsecs.toNat < (now.toUInt64 - activeTime).toNat := by
    simpa [TimerTask.isExpired, UInt64.lt_iff_toNat_lt] using h
  omega

/-- If the comparison fails, the deadline is not past: a wrap makes a difference larger only. -/
lemma TimerTask.deadline_of_not_isExpired {task : TimerTask} {now : Int64} {activeTime : UInt64}
    (h : task.isExpired now activeTime = false) :
    now.toInt ≤ (activeTime.toNat : ℤ) + task.timeoutMsecs.toNat := by
  have hnow := toInt_reading now
  have hle : (now.toUInt64 - activeTime).toNat ≤ task.timeoutMsecs.toNat := by
    simpa [TimerTask.isExpired, UInt64.le_iff_toNat_le] using h
  by_cases hpast : (activeTime.toNat : ℤ) ≤ now.toInt
  · have hsub := UInt64.toNat_sub_of_le now.toUInt64 activeTime
      (UInt64.le_iff_toNat_le.mpr (by omega))
    omega
  · omega

namespace WheelState

variable {s s' : WheelState} {now : Int64} {active : ℕ → UInt64}

/-- What a step does. -/
lemma step_cases {a : WheelAction} (h : s.step a = some s') :
    (∃ now timeoutMsecs hasActiveTime, a = .add now timeoutMsecs hasActiveTime ∧
        s' = s.doRegister now timeoutMsecs hasActiveTime) ∨
      (∃ task, a = .cancel task ∧ s' = s.cancel task) ∨
      (∃ now active, a = .tick now active ∧ s.run = none ∧
        s' = (s.takeSlot (getIdxByMillsecs s.slotSize now.toUInt64)).examine now active
          (s.timeWheel (getIdxByMillsecs s.slotSize now.toUInt64))) ∨
      (∃ tick, a = .resume ∧ s.run = some tick ∧
        s' = s.examine tick.now tick.active tick.queue) := by
  cases a with
  | add now timeoutMsecs hasActiveTime =>
      exact .inl ⟨now, timeoutMsecs, hasActiveTime, rfl, (Option.some.inj h).symm⟩
  | cancel task =>
      simp only [step] at h
      split at h
      · exact .inr (.inl ⟨task, rfl, (Option.some.inj h).symm⟩)
      · cases h
  | tick now active =>
      simp only [step] at h
      split at h
      · next hrun => exact .inr (.inr (.inl ⟨now, active, rfl, hrun, (Option.some.inj h).symm⟩))
      · cases h
  | resume =>
      simp only [step] at h
      split at h
      · next tick hrun => exact .inr (.inr (.inr ⟨tick, rfl, hrun, (Option.some.inj h).symm⟩))
      · cases h

/-! ## Examining a queue -/

/-- What the tick in progress has still to examine. -/
def pending (s : WheelState) : List ℕ := (s.run.map WheelTick.queue).getD []

/-- The tasks that the loop over `routine_queue` compares with the clock, up to the next
callback. -/
def examined (now : Int64) (active : ℕ → UInt64) (tasks : ℕ → TimerTask) : List ℕ → List ℕ
  | [] => []
  | task :: queue =>
      if (tasks task).canceled then examined now active tasks queue
      else if (tasks task).isExpired now ((tasks task).activeTime (active task)) then [task]
      else task :: examined now active tasks queue

/-- The loop calls at most one callback, of an expired task that is not cancelled, and changes no
task. -/
lemma examine_spec (now : Int64) (active : ℕ → UInt64) (queue : List ℕ) (s : WheelState) :
    (examine now active queue s).slotSize = s.slotSize ∧
      (examine now active queue s).tasks = s.tasks ∧
      (examine now active queue s).added = s.added ∧
      ((examine now active queue s).fired = s.fired ∨
        ∃ task ∈ examined now active s.tasks queue, (s.tasks task).canceled = false ∧
          (s.tasks task).isExpired now (s.activeTime active task) = true ∧
          (examine now active queue s).fired =
            s.fired ++ [⟨task, now, s.activeTime active task⟩]) := by
  induction queue generalizing s with
  | nil => exact ⟨rfl, rfl, rfl, .inl rfl⟩
  | cons task queue ih =>
      rw [examine, examined]
      split
      · exact ih s
      · next hcanceled =>
          rw [activeTime]
          split
          · next hexpired =>
              exact ⟨rfl, rfl, rfl, .inr ⟨task, List.mem_singleton_self _,
                Bool.not_eq_true _ ▸ hcanceled, hexpired, rfl⟩⟩
          · obtain ⟨hsize, htasks, hadded, hfired⟩ := ih (s.emplaceBack (getIdxByMillsecs s.slotSize
              (s.activeTime active task + (s.tasks task).timeoutMsecs + 100)) task)
            refine ⟨hsize, htasks, hadded, hfired.imp_right ?_⟩
            rintro ⟨t, ht, hrest⟩
            exact ⟨t, List.mem_cons_of_mem _ ht, hrest⟩

/-- If the loop is not over, a callback is running and the rest of the queue is left. -/
lemma examine_run (now : Int64) (active : ℕ → UInt64) (queue : List ℕ) (s : WheelState) :
    (examine now active queue s).run = none ∨
      ∃ rest, rest <:+ queue ∧ (examine now active queue s).run = some ⟨now, active, rest⟩ := by
  induction queue generalizing s with
  | nil => exact .inl rfl
  | cons task queue ih =>
      have hmore : ∀ t : WheelState, (examine now active queue t).run = none ∨
          ∃ rest, rest <:+ task :: queue ∧
            (examine now active queue t).run = some ⟨now, active, rest⟩ := by
        intro t
        refine (ih t).imp_right ?_
        rintro ⟨rest, hsuffix, hrun⟩
        exact ⟨rest, hsuffix.trans (List.suffix_cons _ _), hrun⟩
      rw [examine]
      split
      · exact hmore s
      · split
        · exact .inr ⟨queue, List.suffix_cons _ _, rfl⟩
        · exact hmore _

/-! ## No task is lost -/

/-- The invariant, with the queue of the tick in progress: what waits is there once and has not
fired, and whatever has neither fired nor been cancelled waits. -/
structure Kept (s : WheelState) (queue : List ℕ) : Prop where
  nodup : (contents s.slotSize s.timeWheel ++ queue).Nodup
  known : ∀ t ∈ contents s.slotSize s.timeWheel ++ queue,
    t < s.added ∧ t ∉ s.fired.map Firing.task
  waits : ∀ t < s.added, (s.tasks t).canceled = false → t ∉ s.fired.map Firing.task →
    t ∈ contents s.slotSize s.timeWheel ++ queue
  fired_nodup : (s.fired.map Firing.task).Nodup
  fired_known : ∀ t ∈ s.fired.map Firing.task, t < s.added

/-- Tasks may move between the wheel and the queue. -/
lemma Kept.perm {queue queue' : List ℕ} {wheel : ℕ → List ℕ} (h : s.Kept queue)
    (hperm : (contents s.slotSize wheel ++ queue').Perm
      (contents s.slotSize s.timeWheel ++ queue)) :
    { s with timeWheel := wheel }.Kept queue' := by
  refine ⟨hperm.nodup_iff.mpr h.nodup, ?_, ?_, h.fired_nodup, h.fired_known⟩
  · intro t ht
    exact h.known t (hperm.mem_iff.mp ht)
  · intro t ht hcanceled hfired
    exact hperm.mem_iff.mpr (h.waits t ht hcanceled hfired)

/-- The first task of the queue is dropped because it is cancelled. -/
lemma Kept.drop {task : ℕ} {queue : List ℕ} (h : s.Kept (task :: queue))
    (hcanceled : (s.tasks task).canceled = true) : s.Kept queue := by
  have hperm : (contents s.slotSize s.timeWheel ++ task :: queue).Perm
      (task :: (contents s.slotSize s.timeWheel ++ queue)) := List.perm_middle
  have hnodup := List.nodup_cons.mp (hperm.nodup_iff.mp h.nodup)
  refine ⟨hnodup.2, ?_, ?_, h.fired_nodup, h.fired_known⟩
  · intro t ht
    exact h.known t (hperm.mem_iff.mpr (List.mem_cons_of_mem _ ht))
  · intro t ht hlive hfired
    have hmem := hperm.mem_iff.mp (h.waits t ht hlive hfired)
    rcases List.mem_cons.mp hmem with rfl | hmem
    · rw [hcanceled] at hlive
      cases hlive
    · exact hmem

/-- The callback of the first task of the queue is called. -/
lemma Kept.fire {task : ℕ} {queue : List ℕ} (h : s.Kept (task :: queue)) (tick : Option WheelTick)
    (f : Firing) (hf : f.task = task) :
    { s with run := tick, fired := s.fired ++ [f] }.Kept queue := by
  have hperm : (contents s.slotSize s.timeWheel ++ task :: queue).Perm
      (task :: (contents s.slotSize s.timeWheel ++ queue)) := List.perm_middle
  have hnodup := List.nodup_cons.mp (hperm.nodup_iff.mp h.nodup)
  obtain ⟨hadded, hnew⟩ := h.known task (hperm.mem_iff.mpr List.mem_cons_self)
  have hmap : (s.fired ++ [f]).map Firing.task = s.fired.map Firing.task ++ [task] := by
    rw [List.map_append, List.map_singleton, hf]
  refine ⟨hnodup.2, ?_, ?_, ?_, ?_⟩
  · intro t ht
    obtain ⟨htadded, htnew⟩ := h.known t (hperm.mem_iff.mpr (List.mem_cons_of_mem _ ht))
    refine ⟨htadded, ?_⟩
    rw [hmap, List.mem_append, List.mem_singleton]
    rintro (hmem | rfl)
    · exact htnew hmem
    · exact hnodup.1 ht
  · intro t ht hlive hfired
    rw [hmap, List.mem_append, List.mem_singleton, not_or] at hfired
    have hmem := hperm.mem_iff.mp (h.waits t ht hlive hfired.1)
    exact (List.mem_cons.mp hmem).resolve_left hfired.2
  · rw [hmap, List.nodup_append]
    refine ⟨h.fired_nodup, List.nodup_singleton _, ?_⟩
    intro a ha b hb
    rw [List.mem_singleton.mp hb]
    rintro rfl
    exact hnew ha
  · intro t ht
    rw [hmap, List.mem_append, List.mem_singleton] at ht
    rcases ht with ht | rfl
    · exact h.fired_known t ht
    · exact hadded

lemma Kept.examine {queue : List ℕ} (hsize : 0 < s.slotSize) (h : s.Kept queue) :
    (examine now active queue s).Kept (examine now active queue s).pending := by
  induction queue generalizing s with
  | nil => exact ⟨h.nodup, h.known, h.waits, h.fired_nodup, h.fired_known⟩
  | cons task queue ih =>
      rw [WheelState.examine]
      split
      · next hcanceled => exact ih hsize (h.drop hcanceled)
      · split
        · exact h.fire _ _ rfl
        · refine ih hsize (h.perm ?_)
          have hinsert := contents_insert s.timeWheel
            (getIdxByMillsecs_lt hsize
              (s.activeTime active task + (s.tasks task).timeoutMsecs + 100))
            task
          exact (hinsert.append_right queue).trans List.perm_middle.symm

/-- A new task is registered. -/
lemma Kept.doRegister (hsize : 0 < s.slotSize) (h : s.Kept s.pending) (now : Int64)
    (timeoutMsecs : UInt64) (hasActiveTime : Bool) :
    (s.doRegister now timeoutMsecs hasActiveTime).Kept s.pending := by
  have hinsert := (contents_insert s.timeWheel (getIdxByMillsecs_lt hsize
    (now.toUInt64 + TimerTask.registeredTimeout timeoutMsecs)) s.added).append_right s.pending
  have hnew : s.added ∉ contents s.slotSize s.timeWheel ++ s.pending :=
    fun hmem => (h.known _ hmem).1.ne rfl
  refine ⟨hinsert.nodup_iff.mpr (List.nodup_cons.mpr ⟨hnew, h.nodup⟩), ?_, ?_, h.fired_nodup,
    fun t ht => (h.fired_known t ht).trans (Nat.lt_succ_self _)⟩
  · intro t ht
    rcases List.mem_cons.mp (hinsert.mem_iff.mp ht) with rfl | ht
    · exact ⟨Nat.lt_succ_self _, fun hmem => (h.fired_known _ hmem).ne rfl⟩
    · obtain ⟨hadded, hfired⟩ := h.known t ht
      exact ⟨hadded.trans (Nat.lt_succ_self _), hfired⟩
  · intro t ht hlive hfired
    apply hinsert.mem_iff.mpr
    rw [List.cons_append, List.mem_cons]
    rcases Nat.lt_succ_iff_lt_or_eq.mp ht with hlt | rfl
    · right
      simp only [WheelState.doRegister, emplaceBack, Function.update_of_ne hlt.ne] at hlive
      exact h.waits t hlt hlive hfired
    · exact .inl rfl

/-- A task is cancelled. -/
lemma Kept.cancel {queue : List ℕ} (h : s.Kept queue) (task : ℕ) : (s.cancel task).Kept queue := by
  refine ⟨h.nodup, h.known, ?_, h.fired_nodup, h.fired_known⟩
  intro t ht hlive hfired
  by_cases htask : t = task
  · subst htask
    simp only [WheelState.cancel, Function.update_self] at hlive
    cases hlive
  · simp only [WheelState.cancel, Function.update_of_ne htask] at hlive
    exact h.waits t ht hlive hfired

lemma step_kept {a : WheelAction} (hsize : 0 < s.slotSize) (h : s.Kept s.pending)
    (hstep : s.step a = some s') : 0 < s'.slotSize ∧ s'.Kept s'.pending := by
  obtain ⟨now, timeoutMsecs, hasActiveTime, rfl, rfl⟩ | ⟨task, rfl, rfl⟩ |
    ⟨now, active, rfl, hrun, rfl⟩ | ⟨tick, rfl, hrun, rfl⟩ := step_cases hstep
  · exact ⟨hsize, h.doRegister hsize now timeoutMsecs hasActiveTime⟩
  · exact ⟨hsize, h.cancel task⟩
  · refine ⟨by rw [(examine_spec _ _ _ _).1]; exact hsize, Kept.examine hsize ?_⟩
    refine h.perm ((contents_takeOut (getIdxByMillsecs_lt hsize now.toUInt64)).trans ?_)
    rw [pending, hrun, Option.map_none, Option.getD_none, List.append_nil]
  · refine ⟨by rw [(examine_spec _ _ _ _).1]; exact hsize, Kept.examine hsize ?_⟩
    rw [pending, hrun, Option.map_some, Option.getD_some] at h
    exact h

lemma init_kept (slotSize : ℕ) : (init slotSize).Kept (init slotSize).pending := by
  have hempty : contents slotSize (fun _ => ([] : List ℕ)) = [] := by simp [contents]
  refine ⟨?_, ?_, ?_, List.nodup_nil, ?_⟩
  · simp [init, pending, hempty]
  · simp [init, pending, hempty]
  · intro t ht
    exact absurd ht (Nat.not_lt_zero t)
  · intro t ht
    cases ht

lemma run_kept {slotSize : ℕ} (hsize : 0 < slotSize) {as : List WheelAction}
    (h : exec step (init slotSize) as = some s) : 0 < s.slotSize ∧ s.Kept s.pending :=
  exec_invariant (fun _ _ _ hs hstep => step_kept hs.1 hs.2 hstep) ⟨hsize, init_kept slotSize⟩ h

/-- How often the callback of a task has been called. -/
def starts (s : WheelState) (task : ℕ) : ℕ := (s.fired.map Firing.task).count task

/-- A registered task keeps its times, and stays cancelled if it is. -/
lemma step_task {a : WheelAction} {task : ℕ} (htask : task < s.added)
    (hstep : s.step a = some s') :
    task < s'.added ∧ (s'.tasks task).timeoutMsecs = (s.tasks task).timeoutMsecs ∧
      (s'.tasks task).createTime = (s.tasks task).createTime ∧
      (s'.tasks task).hasActiveTime = (s.tasks task).hasActiveTime ∧
      ((s.tasks task).canceled = true → (s'.tasks task).canceled = true) := by
  have hsame : ∀ t : WheelState, t.tasks = s.tasks → t.added = s.added →
      task < t.added ∧ (t.tasks task).timeoutMsecs = (s.tasks task).timeoutMsecs ∧
        (t.tasks task).createTime = (s.tasks task).createTime ∧
        (t.tasks task).hasActiveTime = (s.tasks task).hasActiveTime ∧
        ((s.tasks task).canceled = true → (t.tasks task).canceled = true) := by
    intro t htasks hadded
    rw [htasks, hadded]
    exact ⟨htask, rfl, rfl, rfl, id⟩
  obtain ⟨now, timeoutMsecs, hasActiveTime, rfl, rfl⟩ | ⟨other, rfl, rfl⟩ |
    ⟨now, active, rfl, hrun, rfl⟩ | ⟨tick, rfl, hrun, rfl⟩ := step_cases hstep
  · simp only [doRegister, emplaceBack, Function.update_of_ne htask.ne]
    exact ⟨htask.trans (Nat.lt_succ_self _), trivial, trivial, trivial, id⟩
  · refine ⟨htask, ?_⟩
    by_cases hother : task = other
    · subst hother
      simp only [cancel, Function.update_self]
      exact ⟨trivial, trivial, trivial, fun _ => trivial⟩
    · simp only [cancel, Function.update_of_ne hother]
      exact ⟨trivial, trivial, trivial, id⟩
  · obtain ⟨-, htasks, hadded, -⟩ := examine_spec now active
      (s.timeWheel (getIdxByMillsecs s.slotSize now.toUInt64))
      (s.takeSlot (getIdxByMillsecs s.slotSize now.toUInt64))
    exact hsame _ htasks hadded
  · obtain ⟨-, htasks, hadded, -⟩ := examine_spec tick.now tick.active tick.queue s
    exact hsame _ htasks hadded

/-- The tick a step belongs to, with the queue it goes on with. -/
def ticking (s : WheelState) : WheelAction → Option WheelTick
  | .tick now active =>
      some ⟨now, active, s.timeWheel (getIdxByMillsecs s.slotSize now.toUInt64)⟩
  | .resume => s.run
  | _ => none

/-- A step calls at most one callback, in a tick, of a task that it examines. -/
lemma step_fired {a : WheelAction} (hstep : s.step a = some s') :
    s'.fired = s.fired ∨
      ∃ tick ∈ s.ticking a, ∃ task ∈ examined tick.now tick.active s.tasks tick.queue,
        (s.tasks task).canceled = false ∧
        (s.tasks task).isExpired tick.now (s.activeTime tick.active task) = true ∧
        s'.tasks = s.tasks ∧
        s'.fired = s.fired ++ [⟨task, tick.now, s.activeTime tick.active task⟩] := by
  obtain ⟨now, timeoutMsecs, hasActiveTime, rfl, rfl⟩ | ⟨task, rfl, rfl⟩ |
    ⟨now, active, rfl, hrun, rfl⟩ | ⟨tick, rfl, hrun, rfl⟩ := step_cases hstep
  · exact .inl rfl
  · exact .inl rfl
  · obtain ⟨-, htasks, -, hfired⟩ := examine_spec now active
      (s.timeWheel (getIdxByMillsecs s.slotSize now.toUInt64))
      (s.takeSlot (getIdxByMillsecs s.slotSize now.toUInt64))
    refine hfired.imp_right ?_
    rintro ⟨task, htask, hlive, hexpired, heq⟩
    exact ⟨_, rfl, task, htask, hlive, hexpired, htasks, heq⟩
  · obtain ⟨-, htasks, -, hfired⟩ := examine_spec tick.now tick.active tick.queue s
    refine hfired.imp_right ?_
    rintro ⟨task, htask, hlive, hexpired, heq⟩
    exact ⟨tick, hrun, task, htask, hlive, hexpired, htasks, heq⟩

/-- A cancelled task stays cancelled, and is not called any more. -/
lemma step_canceled {a : WheelAction} {task : ℕ} (htask : task < s.added)
    (hcanceled : (s.tasks task).canceled = true) (hstep : s.step a = some s') :
    task < s'.added ∧ (s'.tasks task).canceled = true ∧ s'.starts task = s.starts task := by
  obtain ⟨htask', -, -, -, hcanceled'⟩ := step_task htask hstep
  refine ⟨htask', hcanceled' hcanceled, ?_⟩
  obtain heq | ⟨tick, -, other, -, hlive, -, -, heq⟩ := step_fired hstep
  · rw [starts, heq, starts]
  · have hne : other ≠ task := by
      rintro rfl
      rw [hcanceled] at hlive
      cases hlive
    simp [starts, heq, hne]

/-- What the steps do to the flag of a task: its cancel function sets it, and nothing else does. -/
lemma step_canceled_iff {a : WheelAction} (hstep : s.step a = some s') {task : ℕ}
    (htask : task < s'.added) :
    (s'.tasks task).canceled = true ↔
      task < s.added ∧ (s.tasks task).canceled = true ∨ a = .cancel task := by
  obtain ⟨now, timeoutMsecs, hasActiveTime, rfl, rfl⟩ | ⟨other, rfl, rfl⟩ |
    ⟨now, active, rfl, hrun, rfl⟩ | ⟨tick, rfl, hrun, rfl⟩ := step_cases hstep
  · rcases Nat.lt_succ_iff_lt_or_eq.mp htask with hold | rfl
    · simp [doRegister, emplaceBack, Function.update_of_ne hold.ne, hold]
    · simp [doRegister, emplaceBack]
  · have hadded : task < s.added := htask
    by_cases hother : task = other
    · subst hother
      simp [cancel]
    · have hne : other ≠ task := fun h => hother h.symm
      simp [cancel, Function.update_of_ne hother, hadded, hne]
  · obtain ⟨-, htasks, hadded, -⟩ := examine_spec now active
      (s.timeWheel (getIdxByMillsecs s.slotSize now.toUInt64))
      (s.takeSlot (getIdxByMillsecs s.slotSize now.toUInt64))
    rw [hadded] at htask
    have hold : task < s.added := htask
    rw [htasks]
    simp [takeSlot, hold]
  · obtain ⟨-, htasks, hadded, -⟩ := examine_spec tick.now tick.active tick.queue s
    rw [hadded] at htask
    rw [htasks]
    simp [htask]

/-- The cancel function of a task that has been registered. -/
lemma step_cancel {task : ℕ} (hstep : s.step (.cancel task) = some s') :
    task < s.added ∧ s' = s.cancel task := by
  simp only [step, Option.ite_none_right_eq_some, Option.some_inj] at hstep
  exact ⟨hstep.1, hstep.2.symm⟩

/-- A task is marked as cancelled when its cancel function has been called. -/
lemma canceled_iff {slotSize : ℕ} {as : List WheelAction}
    (h : exec step (init slotSize) as = some s) :
    ∀ task < s.added, (s.tasks task).canceled = true ↔ .cancel task ∈ as := by
  have hinv := exec_invariant_actions (I := fun as t =>
    (∀ task, .cancel task ∈ as → task < t.added) ∧
      ∀ task < t.added, (t.tasks task).canceled = true ↔ .cancel task ∈ as) ?_ ?_ h
  · exact hinv.2
  · rintro as t a t' ⟨hknown, hiff⟩ hstep
    refine ⟨fun task hmem => ?_, fun task htask => ?_⟩
    · rcases List.mem_append.mp hmem with hold | hnew
      · exact (step_task (hknown task hold) hstep).1
      · obtain rfl := List.mem_singleton.mp hnew
        exact (step_task (step_cancel hstep).1 hstep).1
    · rw [step_canceled_iff hstep htask, List.mem_append, List.mem_singleton]
      constructor
      · rintro (⟨hold, hcanceled⟩ | rfl)
        · exact .inl ((hiff task hold).mp hcanceled)
        · exact .inr rfl
      · rintro (hmem | rfl)
        · exact .inl ⟨hknown task hmem, (hiff task (hknown task hmem)).mpr hmem⟩
        · exact .inr rfl
  · exact ⟨fun task hmem => absurd hmem List.not_mem_nil,
      fun task htask => absurd htask (Nat.not_lt_zero task)⟩

/-- **Timers are kept and fire once.**  In every run of the wheel, with `Add` and cancel
functions called at any time, a registered task that has not fired and whose cancel function has
not been called is in exactly one place, a slot or the rest of the queue in progress; no callback is
called twice; and when a cancel function is called, the callback is not called after that, however
the run goes on. -/
theorem tasks_kept_and_fired_once (slotSize : ℕ) (hsize : 0 < slotSize) (as : List WheelAction)
    (s : WheelState) (h : exec step (init slotSize) as = some s) :
    (∀ task < s.added, .cancel task ∉ as → s.starts task = 0 → s.waiting.count task = 1) ∧
      (∀ task, s.starts task ≤ 1) ∧
      (∀ task t bs u, s.step (.cancel task) = some t → exec step t bs = some u →
        u.starts task = s.starts task) := by
  obtain ⟨-, hkept⟩ := run_kept hsize h
  refine ⟨?_, ?_, ?_⟩
  · intro task htask hnot hfired
    have hlive : (s.tasks task).canceled = false := by
      rw [← Bool.not_eq_true, canceled_iff h task htask]
      exact hnot
    have hmem := hkept.waits task htask hlive (List.count_eq_zero.mp hfired)
    exact List.count_eq_one_of_mem hkept.nodup hmem
  · intro task
    exact List.nodup_iff_count_le_one.mp hkept.fired_nodup task
  · intro task t bs u hcancel hu
    obtain ⟨htask, rfl⟩ := step_cancel hcancel
    have hinv := exec_invariant (I := fun v => task < v.added ∧ (v.tasks task).canceled = true ∧
        v.starts task = s.starts task) ?_ ⟨htask, by simp [cancel], rfl⟩ hu
    · exact hinv.2.2
    · rintro v a v' ⟨hadded, hc, hstarts⟩ hstep
      obtain ⟨hadded', hc', hstarts'⟩ := step_canceled hadded hc hstep
      exact ⟨hadded', hc', hstarts'.trans hstarts⟩

/-- Three timers have expired.  While the tick waits in the callback of the first one the second one
is cancelled, and the tick goes on with the third. -/
theorem tasks_kept_and_fired_once_three_tasks :
    ∃ s t u, exec step (init 128)
        [.add 1000 20 false, .add 1000 25 false, .add 1000 26 false, .tick 1029 fun _ => 0] =
          some s ∧
      s.step (.cancel 1) = some t ∧ exec step t [.resume] = some u ∧
      (s.starts 0 = 1 ∧ s.waiting.count 1 = 1) ∧ u.starts 1 = s.starts 1 ∧ u.starts 2 = 1 := by
  have hrun : ((exec step (init 128)
      [.add 1000 20 false, .add 1000 25 false, .add 1000 26 false, .tick 1029 fun _ => 0]).bind
        fun s => (s.step (.cancel 1)).bind fun t => (exec step t [.resume]).map fun u =>
          (s.added, s.starts 0, s.starts 1, u.starts 2)) = some (3, 1, 0, 1) := by decide
  obtain ⟨s, hs, hrun⟩ := Option.bind_eq_some_iff.mp hrun
  obtain ⟨t, ht, hrun⟩ := Option.bind_eq_some_iff.mp hrun
  obtain ⟨u, hu, hfields⟩ := Option.map_eq_some_iff.mp hrun
  simp only [Prod.mk.injEq] at hfields
  obtain ⟨hadded, hfirst, hsecond, hthird⟩ := hfields
  obtain ⟨hkept, -, hcanceled⟩ := tasks_kept_and_fired_once 128 (by decide) _ _ hs
  have hone : 1 < s.added := by rw [hadded]; decide
  exact ⟨s, t, u, hs, ht, hu, ⟨hfirst, hkept 1 hone (by simp) hsecond⟩, hcanceled 1 t _ u ht hu,
    hthird⟩

/-! ## No timer fires early -/

/-- No task the step examines has an active time after the reading of the tick. -/
def ActivePast (s : WheelState) (a : WheelAction) : Prop :=
  ∀ tick ∈ s.ticking a, ∀ task ∈ examined tick.now tick.active s.tasks tick.queue,
    ((s.activeTime tick.active task).toNat : ℤ) ≤ tick.now.toInt

/-- The callback was called after the deadline of its task. -/
def OnTime (s : WheelState) (f : Firing) : Prop :=
  f.task < s.added ∧
    ((s.tasks f.task).hasActiveTime = false → f.activeTime = (s.tasks f.task).createTime) ∧
    (f.activeTime.toNat : ℤ) + (s.tasks f.task).timeoutMsecs.toNat < f.now.toInt

lemma OnTime.step {a : WheelAction} {f : Firing} (h : s.OnTime f) (hstep : s.step a = some s') :
    s'.OnTime f := by
  obtain ⟨htask, hcreate, hlate⟩ := h
  obtain ⟨htask', htimeout, hcreated, hactive, -⟩ := step_task htask hstep
  refine ⟨htask', ?_, ?_⟩
  · rw [hactive, hcreated]
    exact hcreate
  · rw [htimeout]
    exact hlate

lemma step_onTime {a : WheelAction} (hkept : s'.Kept s'.pending) (hon : ∀ f ∈ s.fired, s.OnTime f)
    (hpast : s.ActivePast a) (hstep : s.step a = some s') : ∀ f ∈ s'.fired, s'.OnTime f := by
  obtain heq | ⟨tick, htick, task, htask, hlive, hexpired, htasks, heq⟩ := step_fired hstep
  · intro f hf
    rw [heq] at hf
    exact (hon f hf).step hstep
  · intro f hf
    have hadded := hkept.fired_known f.task (List.mem_map_of_mem hf)
    rw [heq, List.mem_append, List.mem_singleton] at hf
    rcases hf with hf | rfl
    · exact (hon f hf).step hstep
    · have hdeadline := TimerTask.deadline_of_isExpired (hpast tick htick task htask) hexpired
      rw [OnTime, htasks]
      refine ⟨hadded, ?_, hdeadline⟩
      intro hnone
      simp [activeTime, TimerTask.activeTime, hnone]

/-- **No timer fires early while no active time is ahead of the clock.**  In every run in which
no task is examined while its active time lies after the reading, a callback is called only when
the reading is, as an integer, beyond the deadline of its task. -/
theorem fires_after_deadline (slotSize : ℕ) (hsize : 0 < slotSize) (as : List WheelAction)
    (s : WheelState) (hpast : Along step ActivePast (init slotSize) as)
    (h : exec step (init slotSize) as = some s) : ∀ f ∈ s.fired, s.OnTime f := by
  have hinv := exec_invariant_along (I := fun t : WheelState =>
    (0 < t.slotSize ∧ t.Kept t.pending) ∧ ∀ f ∈ t.fired, t.OnTime f) ?_ ?_ hpast h
  · exact hinv.2
  · rintro t a t' ⟨hkept, hon⟩ hpast hstep
    obtain ⟨hsize', hkept'⟩ := step_kept hkept.1 hkept.2 hstep
    exact ⟨⟨hsize', hkept'⟩, step_onTime hkept' hon hpast hstep⟩
  · exact ⟨⟨hsize, init_kept slotSize⟩, fun f hf => nomatch hf⟩

/-- A timer of 20 ms fires 29 ms after it was added. -/
theorem fires_after_deadline_once :
    ∃ s, exec step (init 128) [.add 1000 20 false, .tick 1029 fun _ => 0] = some s ∧
      s.starts 0 = 1 ∧ ∀ f ∈ s.fired, s.OnTime f := by
  have hpast : Along step ActivePast (init 128) [.add 1000 20 false, .tick 1029 fun _ => 0] := by
    refine ⟨fun tick htick => (nomatch htick), fun s hs => ⟨?_, fun _ _ => trivial⟩⟩
    obtain rfl := Option.some.inj hs
    rintro tick htick task htask
    obtain rfl := Option.some.inj htick
    obtain rfl := List.mem_singleton.mp htask
    decide
  exact ⟨_, rfl, by decide, fires_after_deadline 128 (by decide) _ _ hpast rfl⟩

/-- The clock is set back by 780 ms between `Add` and the tick: a timer of 500 ms fires at once. -/
theorem fires_before_deadline :
    ∃ s, exec step (init 128) [.add 10000 500 false, .tick 9220 fun _ => 0] = some s ∧
      s.fired.map (fun f => (f.task, f.now.toInt, f.activeTime.toNat)) = [(0, 9220, 10000)] ∧
      (s.tasks 0).timeoutMsecs.toNat = 500 ∧ ¬ ∀ f ∈ s.fired, s.OnTime f := by
  refine ⟨_, rfl, by decide, by decide, ?_⟩
  intro h
  obtain ⟨-, -, hlate⟩ := h ⟨0, 9220, 10000⟩ (by exact List.mem_singleton_self _)
  revert hlate
  decide

/-! ## An expired timer is not passed over -/

/-- The deadline of the task is at most two revolutions of 10 ms slots before the reading. -/
def NotOverdue (s : WheelState) (now : Int64) (active : ℕ → UInt64) (task : ℕ) : Prop :=
  now.toInt ≤ (s.activeTime active task).toNat + (s.tasks task).timeoutMsecs.toNat +
    2 * (s.slotSize * 10)

/-- The wheel holds no overdue task. -/
def NoneOverdue (s : WheelState) (now : Int64) (active : ℕ → UInt64) : Prop :=
  ∀ k < s.slotSize, ∀ task ∈ s.timeWheel k, (s.tasks task).canceled = false →
    s.NotOverdue now active task

/-- The readings to come reach the task, which waits in slot `k`, in time: none of them is two
revolutions past the deadline before one falls into the slot.  The task is expired by then, or
it goes into the slot of its deadline and 100 ms, and the same holds from there on. -/
def Reached (slotSize task : ℕ) (tt : TimerTask) : ℕ → List WheelAction → Prop
  | _, [] => True
  | k, .tick now active :: as =>
      if getIdxByMillsecs slotSize now.toUInt64 = k then
        tt.isExpired now (tt.activeTime (active task)) = true ∨
          Reached slotSize task tt (getIdxByMillsecs slotSize
            (tt.activeTime (active task) + tt.timeoutMsecs + 100)) as
      else
        now.toInt ≤ (tt.activeTime (active task)).toNat + tt.timeoutMsecs.toNat +
          2 * (slotSize * 10) ∧ Reached slotSize task tt k as
  | k, .cancel other :: as => other = task ∨ Reached slotSize task tt k as
  | k, _ :: as => Reached slotSize task tt k as

/-- Every task of the run is reached in time, and one added while a tick waits in a callback is
not overdue by the reading of that tick. -/
def AllReached : WheelState → List WheelAction → Prop
  | _, [] => True
  | s, a :: as =>
      (∀ now timeoutMsecs hasActiveTime, a = .add now timeoutMsecs hasActiveTime →
        let s' := s.doRegister now timeoutMsecs hasActiveTime
        (∀ tick ∈ s.run, s'.NotOverdue tick.now tick.active s.added) ∧
        Reached s.slotSize s.added (s'.tasks s.added)
          (getIdxByMillsecs s.slotSize
            (now.toUInt64 + TimerTask.registeredTimeout timeoutMsecs)) as) ∧
      ∀ s', s.step a = some s' → AllReached s' as

/-- The invariant: what waits is reached by the actions to come, also what the tick in progress
puts back, and nothing in the wheel is overdue in that tick. -/
structure InReach (s : WheelState) (as : List WheelAction) : Prop where
  wheel : ∀ k < s.slotSize, ∀ t ∈ s.timeWheel k, (s.tasks t).canceled = false →
    Reached s.slotSize t (s.tasks t) k as
  queue : ∀ tick ∈ s.run, ∀ t ∈ tick.queue, (s.tasks t).canceled = false →
    (s.tasks t).isExpired tick.now (s.activeTime tick.active t) = true ∨
      Reached s.slotSize t (s.tasks t) (getIdxByMillsecs s.slotSize
        (s.activeTime tick.active t + (s.tasks t).timeoutMsecs + 100)) as
  current : ∀ tick ∈ s.run, s.NoneOverdue tick.now tick.active

/-- Where the loop over `routine_queue` leaves the tasks: a property that the tasks of the wheel
have, and that the unexpired ones of the queue have in the slot they go to. -/
lemma examine_wheel (Q : ℕ → ℕ → Prop) (now : Int64) (active : ℕ → UInt64) (queue : List ℕ)
    (s : WheelState)
    (hwheel : ∀ k, ∀ t ∈ s.timeWheel k, (s.tasks t).canceled = false → Q k t)
    (hqueue : ∀ t ∈ queue, (s.tasks t).canceled = false →
      (s.tasks t).isExpired now (s.activeTime active t) = false →
      Q (getIdxByMillsecs s.slotSize
        (s.activeTime active t + (s.tasks t).timeoutMsecs + 100)) t) :
    ∀ k, ∀ t ∈ (examine now active queue s).timeWheel k, (s.tasks t).canceled = false → Q k t := by
  induction queue generalizing s with
  | nil => exact hwheel
  | cons task queue ih =>
      have hrest := fun t (ht : t ∈ queue) => hqueue t (List.mem_cons_of_mem _ ht)
      rw [examine]
      split
      · exact ih s hwheel hrest
      · next hlive =>
          split
          · exact hwheel
          · next hexpired =>
              refine ih _ ?_ hrest
              intro k t ht hcanceled
              by_cases hk : k = getIdxByMillsecs s.slotSize
                  (s.activeTime active task + (s.tasks task).timeoutMsecs + 100)
              · subst hk
                simp only [emplaceBack, Function.update_self, List.mem_append,
                  List.mem_singleton] at ht
                rcases ht with ht | rfl
                · exact hwheel _ t ht hcanceled
                · exact hqueue t List.mem_cons_self hcanceled (Bool.eq_false_iff.mpr hexpired)
              · simp only [emplaceBack, Function.update_of_ne hk] at ht
                exact hwheel k t ht hcanceled

/-- A tick goes on with its queue, in a state where the wheel is reached and not overdue. -/
lemma inReach_examine (as : List WheelAction) (now : Int64) (active : ℕ → UInt64) (queue : List ℕ)
    (hwheel : ∀ k < s.slotSize, ∀ t ∈ s.timeWheel k, (s.tasks t).canceled = false →
      Reached s.slotSize t (s.tasks t) k as)
    (hqueue : ∀ t ∈ queue, (s.tasks t).canceled = false →
      (s.tasks t).isExpired now (s.activeTime active t) = true ∨
        Reached s.slotSize t (s.tasks t) (getIdxByMillsecs s.slotSize
          (s.activeTime active t + (s.tasks t).timeoutMsecs + 100)) as)
    (hnow : s.NoneOverdue now active) :
    (examine now active queue s).InReach as ∧
      (examine now active queue s).NoneOverdue now active := by
  obtain ⟨hsize, htasks, -, -⟩ := examine_spec now active queue s
  have hmoved := examine_wheel (fun k t => k < s.slotSize →
    Reached s.slotSize t (s.tasks t) k as ∧ s.NotOverdue now active t) now active queue s
    (fun k t ht hlive hk => ⟨hwheel k hk t ht hlive, hnow k hk t ht hlive⟩)
    (fun t ht hlive hexpired _ => by
      refine ⟨(hqueue t ht hlive).resolve_left (by rw [hexpired]; decide), ?_⟩
      have hdeadline := TimerTask.deadline_of_not_isExpired hexpired
      rw [NotOverdue]
      omega)
  have hnone : (examine now active queue s).NoneOverdue now active := by
    intro k hk t ht hlive
    rw [hsize] at hk
    rw [htasks] at hlive
    have hnot := (hmoved k t ht hlive hk).2
    rw [NotOverdue, activeTime, htasks, hsize]
    exact hnot
  refine ⟨⟨?_, ?_, ?_⟩, hnone⟩
  · intro k hk t ht hlive
    rw [hsize] at hk
    rw [htasks] at hlive ⊢
    rw [hsize]
    exact (hmoved k t ht hlive hk).1
  · intro tick htick t ht hlive
    obtain hrun | ⟨rest, hrest, hrun⟩ := examine_run now active queue s
    · rw [hrun] at htick
      cases htick
    · rw [hrun] at htick
      obtain rfl := Option.some.inj htick
      rw [htasks] at hlive
      simp only [activeTime, htasks, hsize]
      exact hqueue t (hrest.subset ht) hlive
  · intro tick htick
    obtain hrun | ⟨rest, hrest, hrun⟩ := examine_run now active queue s
    · rw [hrun] at htick
      cases htick
    · rw [hrun] at htick
      obtain rfl := Option.some.inj htick
      exact hnone

/-- What waits was registered. -/
lemma Kept.known_wheel (h : s.Kept s.pending) {k t : ℕ} (hk : k < s.slotSize)
    (ht : t ∈ s.timeWheel k) : t < s.added :=
  (h.known t (List.mem_append_left _ (mem_contents.mpr ⟨k, hk, ht⟩))).1

lemma Kept.known_queue (h : s.Kept s.pending) {tick : WheelTick} (hrun : tick ∈ s.run) {t : ℕ}
    (ht : t ∈ tick.queue) : t < s.added := by
  refine (h.known t (List.mem_append_right _ ?_)).1
  rw [pending, Option.mem_def.mp hrun]
  exact ht

lemma InReach.doRegister {as : List WheelAction} (hkept : s.Kept s.pending) (now : Int64)
    (timeoutMsecs : UInt64) (hasActiveTime : Bool)
    (h : s.InReach (.add now timeoutMsecs hasActiveTime :: as))
    (hnew : ∀ tick ∈ s.run,
      (s.doRegister now timeoutMsecs hasActiveTime).NotOverdue tick.now tick.active s.added)
    (hreached : Reached s.slotSize s.added
      ((s.doRegister now timeoutMsecs hasActiveTime).tasks s.added)
      (getIdxByMillsecs s.slotSize (now.toUInt64 + TimerTask.registeredTimeout timeoutMsecs)) as) :
    (s.doRegister now timeoutMsecs hasActiveTime).InReach as := by
  have hold : ∀ t < s.added, (s.doRegister now timeoutMsecs hasActiveTime).tasks t = s.tasks t :=
    fun t ht => Function.update_of_ne ht.ne _ _
  -- the new task is at the end of its slot; all others are where they were
  have hslot : ∀ k, ∀ t ∈ (s.doRegister now timeoutMsecs hasActiveTime).timeWheel k,
      t ∈ s.timeWheel k ∨ t = s.added ∧ k = getIdxByMillsecs s.slotSize
        (now.toUInt64 + TimerTask.registeredTimeout timeoutMsecs) := by
    intro k t ht
    by_cases hk : k = getIdxByMillsecs s.slotSize
        (now.toUInt64 + TimerTask.registeredTimeout timeoutMsecs)
    · subst hk
      simp only [WheelState.doRegister, emplaceBack, Function.update_self, List.mem_append,
        List.mem_singleton] at ht
      exact ht.imp_right fun ht => ⟨ht, rfl⟩
    · simp only [WheelState.doRegister, emplaceBack, Function.update_of_ne hk] at ht
      exact .inl ht
  refine ⟨?_, ?_, ?_⟩
  · intro k hk t ht hlive
    rcases hslot k t ht with ht | ⟨rfl, rfl⟩
    · have hsame := hold t (hkept.known_wheel hk ht)
      rw [hsame] at hlive ⊢
      exact h.wheel k hk t ht hlive
    · exact hreached
  · intro tick htick t ht hlive
    have hsame := hold t (hkept.known_queue htick ht)
    simp only [activeTime, hsame] at hlive ⊢
    exact h.queue tick htick t ht hlive
  · intro tick htick k hk t ht hlive
    rcases hslot k t ht with ht | ⟨rfl, rfl⟩
    · have hsame := hold t (hkept.known_wheel hk ht)
      simp only [NotOverdue, activeTime, hsame] at hlive ⊢
      exact h.current tick htick k hk t ht hlive
    · exact hnew tick htick

lemma InReach.cancel {as : List WheelAction} (task : ℕ) (h : s.InReach (.cancel task :: as)) :
    (s.cancel task).InReach as := by
  have hother : ∀ t, ((s.cancel task).tasks t).canceled = false →
      task ≠ t ∧ (s.cancel task).tasks t = s.tasks t := by
    intro t hlive
    by_cases ht : t = task
    · subst ht
      simp only [WheelState.cancel, Function.update_self] at hlive
      cases hlive
    · exact ⟨Ne.symm ht, Function.update_of_ne ht _ _⟩
  refine ⟨?_, ?_, ?_⟩
  · intro k hk t ht hlive
    obtain ⟨hne, hsame⟩ := hother t hlive
    rw [hsame] at hlive ⊢
    exact (h.wheel k hk t ht hlive).resolve_left hne
  · intro tick htick t ht hlive
    obtain ⟨hne, hsame⟩ := hother t hlive
    simp only [activeTime, hsame] at hlive ⊢
    exact (h.queue tick htick t ht hlive).imp_right fun hreached => hreached.resolve_left hne
  · intro tick htick k hk t ht hlive
    obtain ⟨hne, hsame⟩ := hother t hlive
    simp only [NotOverdue, activeTime, hsame] at hlive ⊢
    exact h.current tick htick k hk t ht hlive

/-- A tick takes the slot of its reading out: whatever is left waits for a later reading and is
not overdue. -/
lemma InReach.tick {as : List WheelAction} (hsize : 0 < s.slotSize) (now : Int64)
    (active : ℕ → UInt64) (h : s.InReach (.tick now active :: as)) :
    let idx := getIdxByMillsecs s.slotSize now.toUInt64
    ((s.takeSlot idx).examine now active (s.timeWheel idx)).InReach as ∧
      ((s.takeSlot idx).examine now active (s.timeWheel idx)).NoneOverdue now active := by
  intro idx
  have hleft : ∀ k < s.slotSize, ∀ t ∈ (s.takeSlot idx).timeWheel k,
      (s.tasks t).canceled = false →
      s.NotOverdue now active t ∧ Reached s.slotSize t (s.tasks t) k as := by
    intro k hk t ht hlive
    by_cases hidx : k = idx
    · subst hidx
      simp only [takeSlot, Function.update_self] at ht
      cases ht
    · simp only [takeSlot, Function.update_of_ne hidx] at ht
      have hreached := h.wheel k hk t ht hlive
      rw [Reached, if_neg (Ne.symm hidx)] at hreached
      exact hreached
  refine inReach_examine (s := s.takeSlot idx) as now active _ ?_ ?_ ?_
  · intro k hk t ht hlive
    exact (hleft k hk t ht hlive).2
  · intro t ht hlive
    have hreached := h.wheel idx (getIdxByMillsecs_lt hsize _) t ht hlive
    rw [Reached, if_pos rfl] at hreached
    exact hreached
  · intro k hk t ht hlive
    exact (hleft k hk t ht hlive).1

lemma step_inReach {a : WheelAction} {as : List WheelAction} (hsize : 0 < s.slotSize)
    (hkept : s.Kept s.pending) (h : s.InReach (a :: as)) (hall : s.AllReached (a :: as))
    (hstep : s.step a = some s') :
    s'.InReach as ∧ ∀ tick ∈ s.ticking a, s'.NoneOverdue tick.now tick.active := by
  obtain ⟨now, timeoutMsecs, hasActiveTime, rfl, rfl⟩ | ⟨task, rfl, rfl⟩ |
    ⟨now, active, rfl, hrun, rfl⟩ | ⟨tick, rfl, hrun, rfl⟩ := step_cases hstep
  · obtain ⟨hnew, hreached⟩ := hall.1 now timeoutMsecs hasActiveTime rfl
    exact ⟨h.doRegister hkept now timeoutMsecs hasActiveTime hnew hreached,
      fun tick htick => (nomatch htick)⟩
  · exact ⟨h.cancel task, fun tick htick => (nomatch htick)⟩
  · obtain ⟨hreach, hnone⟩ := h.tick hsize now active
    refine ⟨hreach, fun tick htick => ?_⟩
    obtain rfl := Option.some.inj htick
    exact hnone
  · obtain ⟨hreach, hnone⟩ := inReach_examine as tick.now tick.active tick.queue h.wheel
      (h.queue tick hrun) (h.current tick hrun)
    refine ⟨hreach, fun other hother => ?_⟩
    obtain rfl : tick = other := Option.some.inj (hrun.symm.trans hother)
    exact hnone

lemma run_inReach {as : List WheelAction} {bs : List WheelAction} {t : WheelState}
    (hsize : 0 < s.slotSize) (hkept : s.Kept s.pending) (h : s.InReach (as ++ bs))
    (hall : s.AllReached (as ++ bs)) (hrun : exec step s as = some t) :
    (0 < t.slotSize ∧ t.Kept t.pending) ∧ t.InReach bs ∧ t.AllReached bs := by
  induction as generalizing s with
  | nil =>
      obtain rfl := Option.some.inj hrun
      exact ⟨⟨hsize, hkept⟩, h, hall⟩
  | cons a as ih =>
      obtain ⟨s', hs', hrest⟩ := exec_cons_eq_some.mp hrun
      obtain ⟨hsize', hkept'⟩ := step_kept hsize hkept hs'
      exact ih hsize' hkept' (step_inReach hsize hkept h hall hs').1 (hall.2 s' hs') hrest

/-- In a run in which every task is reached, nothing is overdue after a step of a tick, whether the
tick is over or waits in a callback. -/
lemma noneOverdue_of_allReached {slotSize : ℕ} (hsize : 0 < slotSize) {as : List WheelAction}
    {a : WheelAction} (hall : (init slotSize).AllReached (as ++ [a]))
    (h : exec step (init slotSize) as = some s) (hstep : s.step a = some s') :
    ∀ tick ∈ s.ticking a, s'.NoneOverdue tick.now tick.active := by
  have hinit : (init slotSize).InReach (as ++ [a]) :=
    ⟨fun k _ t ht => (nomatch ht), fun tick htick => (nomatch htick),
      fun tick htick => (nomatch htick)⟩
  obtain ⟨⟨hsize', hkept⟩, hreach, hall'⟩ := run_inReach hsize (init_kept slotSize) hinit hall h
  exact (step_inReach hsize' hkept hreach hall' hstep).2

end WheelState

end Snova
